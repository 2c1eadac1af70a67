import SegmentFit.PathText
import SegmentFit.Receipt
import SegmentFit.Text.Quoted

/-!
# File trees — the files that a command reads and writes

The files and directories below a working directory, as a value. A path leads from there
name by name, and every step needs a directory to start from; a path holds no zero
character. Faults show the path as it was given.

A file is saved with the directories above it made, which is done in two ways. `save`
makes a directory only after looking for the one above it. `saveTidy` tries to make it
first, and takes a path without the names that stay where they are. Each goes up only so
far.
-/

namespace SegmentFit

/-- Why a file cannot be read or written. -/
inductive FileFault where
  | notFound (path : String)
  | exists (path : String)
  | notDirectory (path : String)
  | isDirectory (path : String)
  | tooLong (path : String)
  | zeroCharacter
  -- more directories are missing than `save` makes
  | tooDeep
  -- more directories are missing than `saveTidy` makes
  | tooDeepTidy
  deriving DecidableEq, Repr

def FileFault.message : FileFault → String
  | .notFound path => "[Errno 2] No such file or directory: " ++ Text.quotedString path
  | .exists path => "[Errno 17] File exists: " ++ Text.quotedString path
  | .notDirectory path => "[Errno 20] Not a directory: " ++ Text.quotedString path
  | .isDirectory path => "[Errno 21] Is a directory: " ++ Text.quotedString path
  | .tooLong path => "[Errno 36] File name too long: " ++ Text.quotedString path
  | .zeroCharacter => "embedded null byte"
  | .tooDeep => "maximum recursion depth exceeded"
  | .tooDeepTidy => "maximum recursion depth exceeded while calling a Python object"

inductive FileTree where
  | file (bytes : List UInt8)
  | directory (entries : List (String × FileTree))

/-- A place below the working directory: the names on the way to it. -/
abbrev Location := List String

/-- The place that a path leads to, and what is there. -/
structure Destination where
  place : Location
  target : Option FileTree

namespace FileTree

def empty : FileTree := .directory []

/-- What is at a place; the working directory is at the empty one. -/
def find? : FileTree → Location → Option FileTree
  | t, [] => some t
  | .file _, _ :: _ => none
  | .directory entries, name :: place => (entries.lookup name).bind fun t => t.find? place

/-- The entries of a directory with one added or replaced; a replaced one keeps its
place. -/
def put (name : String) (t : FileTree) : List (String × FileTree) → List (String × FileTree)
  | [] => [(name, t)]
  | (other, old) :: rest =>
    if other = name then (name, t) :: rest else (other, old) :: put name t rest

/-- The tree with something put at a place, in directories that are made where there is
nothing. A file has no places in it. -/
def set : FileTree → Location → FileTree → FileTree
  | _, [], new => new
  | .file bytes, _ :: _, _ => .file bytes
  | .directory entries, name :: place, new =>
    .directory (put name (((entries.lookup name).getD empty).set place new) entries)

def withDirectory (t : FileTree) (place : Location) : FileTree :=
  if (t.find? place).isSome then t else t.set place empty

/-! ## Following paths -/

def step (here : Location) (name : String) : Location :=
  if PathText.stays name then here
  else if name == ".." then here.dropLast
  else here ++ [name]

/-- Follow names. `trail` holds the names on the way so far, the last one first, each with
the directory that it is in, and `here` is what they lead to. -/
def follow (path : String) (trail : List (String × FileTree)) (here : Option FileTree) :
    List String → Except FileFault Destination
  | [] => .ok ⟨(trail.map fun s => s.1).reverse, here⟩
  | name :: rest =>
    match here with
    | none => .error (.notFound path)
    | some (.file _) => .error (.notDirectory path)
    | some (.directory entries) =>
      if PathText.nameLimit < name.utf8ByteSize then .error (.tooLong path)
      else if PathText.stays name then follow path trail here rest
      else if name == ".." then
        match trail with
        | [] => follow path [] here rest
        | (_, above) :: trail => follow path trail (some above) rest
      else follow path ((name, .directory entries) :: trail) (entries.lookup name) rest

def resolve (t : FileTree) (path : String) : Except FileFault Destination :=
  if path.toList.contains '\x00' then .error .zeroCharacter
  else if path == "" then .error (.notFound path)
  else if PathText.pathLimit < path.utf8ByteSize then .error (.tooLong path)
  else follow path [] (some t) (PathText.names path)

/-- What is at a path, if anything is. Only that a path is too long is a fault. -/
def look (t : FileTree) (path : String) : Except FileFault (Option FileTree) :=
  match t.resolve path with
  | .ok found => .ok found.target
  | .error (.tooLong path) => .error (.tooLong path)
  | .error _ => .ok none

def has (t : FileTree) (path : String) : Bool :=
  match t.look path with
  | .ok (some _) => true
  | _ => false

def hasDirectory (t : FileTree) (path : String) : Bool :=
  match t.look path with
  | .ok (some (.directory _)) => true
  | _ => false

def read (t : FileTree) (path : String) : Except FileFault (List UInt8) := do
  match (← t.resolve path).target with
  | none => .error (.notFound path)
  | some (.directory _) => .error (.isDirectory path)
  | some (.file bytes) => .ok bytes

def write (t : FileTree) (path : String) (bytes : List UInt8) : Except FileFault FileTree := do
  let found ← t.resolve path
  match found.target with
  | some (.directory _) => .error (.isDirectory path)
  | _ => .ok (t.set found.place (.file bytes))

/-! ## Making directories -/

def makeDirectory (t : FileTree) (path : String) : Except FileFault FileTree := do
  let found ← t.resolve path
  match found.target with
  | some _ => .error (.exists path)
  | none => .ok (t.set found.place empty)

def ensureDirectory (t : FileTree) (path : String) : Except FileFault FileTree :=
  match t.makeDirectory path with
  | .ok t => .ok t
  | .error fault => if t.hasDirectory path then .ok t else .error fault

/-- Make sure of a directory and of those above it that are missing, going up at most
`reach` times. The paths come the longest first. A file where a directory above is wanted
is passed over, since the fault shows again one level below; and a path that ends in a dot
needs nothing more than what is above it. The tree keeps the directories that were made
before a fault. -/
def ensureMissing (t : FileTree) (reach : Nat) : List String → FileTree × Option FileFault
  | [] => (t, none)
  | path :: above =>
    let ensured (t : FileTree) : FileTree × Option FileFault :=
      match t.ensureDirectory path with
      | .ok t => (t, none)
      | .error fault => (t, some fault)
    match above, reach with
    | [], _ => ensured t
    | parent :: _, reach =>
      if t.has parent then ensured t
      else
        match reach with
        | 0 => (t, some .tooDeep)
        | reach + 1 =>
          match t.ensureMissing reach above with
          | (t, none) | (t, some (.exists _)) =>
            if PathText.endsInDot path then (t, none) else ensured t
          | (t, some fault) => (t, some fault)

/-- Make sure of a directory, and of those above it if it cannot be made without them,
going up at most `reach` times. The paths come the longest first. -/
def ensureTidy (t : FileTree) (reach : Nat) : List String → Except FileFault FileTree
  | [] => .ok t
  | path :: above =>
    match t.makeDirectory path, reach with
    | .error (.notFound _), 0 => .error .tooDeepTidy
    | .error (.notFound _), reach + 1 => do
      (← t.ensureTidy reach above).ensureDirectory path
    | _, _ => t.ensureDirectory path

/-- How often `save` goes up before it is too deep. Each time is a call within a call, of which the
interpreter allows 1000 by default; this is what is left of them, as measured, to a caller that has
none open but the one of `save`. Any other caller has less. -/
def saveReach : Nat := 991

/-- How often `saveTidy` goes up before it is too deep, measured in the same way. -/
def saveTidyReach : Nat := 988

/-- The tree with a text written to a file and the directories above it made. -/
def save (t : FileTree) (path : String) (text : String) : Except FileFault FileTree :=
  match t.ensureMissing saveReach (PathText.directories (PathText.parent path)) with
  | (_, some fault) => .error fault
  | (t, none) => t.write path (textBytes text)

/-- The same for a path without names that stay. -/
def saveTidy (t : FileTree) (path : String) (text : String) : Except FileFault FileTree := do
  let path := PathText.tidy path
  let t ← t.ensureTidy saveTidyReach (PathText.directories (PathText.parent path))
  t.write path (textBytes text)

/-! ## Listing -/

/-- The names in a directory, in the order of their code points; none in what is no
directory. -/
def list (t : FileTree) (path : String) : Except FileFault (List String) :=
  (t.look path).map fun
    | some (.directory entries) =>
      (entries.map fun e => e.1).mergeSort fun a b => decide (a ≤ b)
    | _ => []

mutual

/-- The paths of what is found at a path: its own, a slash behind that of a directory, and
those of the entries in it. -/
def pathsAt (path : String) : FileTree → List String
  | .file _ => [path]
  | .directory entries => (path ++ "/") :: pathsIn (path ++ "/") entries

def pathsIn (start : String) : List (String × FileTree) → List String
  | [] => []
  | (name, t) :: rest => pathsAt (start ++ name) t ++ pathsIn start rest

end

/-- The paths of a tree in order, a slash behind each directory. -/
def listing : FileTree → List String
  | .file _ => []
  | .directory entries => (pathsIn "" entries).mergeSort fun a b => decide (a ≤ b)

end FileTree

end SegmentFit
