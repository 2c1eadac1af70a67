import SegmentFit.Command.Answer
import SegmentFit.Command.Batch
import SegmentFit.Command.Compare

/-!
# The program

The first word of the line names a command: `solve` answers one case, `batch` judges a
directory, `compare` compares two files of records. The files that the other words lead
to are read into a tree, the command runs on the tree, and the files that it changed are
written back.
-/

namespace SegmentFit.Program

partial def readAll (stream : IO.FS.Stream) (bytes : ByteArray) : IO ByteArray := do
  let more ← stream.read 65536
  if more.isEmpty then return bytes else readAll stream (bytes ++ more)

/-- The tree with what is at a path, and for a directory the files directly in it. -/
def capture (tree : FileTree) (place : Location) (path : String) : IO FileTree := do
  try
    let target ← IO.FS.realPath path
    if ← target.isDir then
      let mut tree := tree.withDirectory place
      for entry in ← target.readDir do
        if ← entry.path.isDir then
          tree := tree.withDirectory (place ++ [entry.fileName])
        else
          let bytes ← IO.FS.readBinFile entry.path
          tree := tree.set (place ++ [entry.fileName]) (.file bytes.toList)
      return tree
    else
      let bytes ← IO.FS.readBinFile target
      return tree.set place (.file bytes.toList)
  catch _ => return tree

def captureAll (tree : FileTree) (path : String) : IO FileTree := do
  let names := PathText.names path
  let mut tree := tree
  let mut place : Location := []
  for i in List.range names.length do
    place := FileTree.step place (names.getD i "")
    if !place.isEmpty then
      tree ← capture tree place (PathText.join (names.take (i + 1)))
  return tree

/-- The texts in a word of the line that may be paths. -/
def pathsIn (word : String) : List String :=
  match (splitAttached word.toList).2 with
  | none => [word]
  | some value => [word, String.ofList value]

/-- Write a file if it is not as it was. -/
def writeBack (before after : FileTree) (path : String) : IO Unit := do
  match after.read path with
  | .error _ => return
  | .ok bytes =>
    if (before.read path).toOption == some bytes then return
    let parent := PathText.parent path
    if parent != "" then IO.FS.createDirAll parent
    IO.FS.writeBinFile path (ByteArray.mk bytes.toArray)

/-- The session of a line. The input is read if no path is given for the case. -/
def session (line paths : List String) (command : String) : IO (Except Utf8Fault Session) := do
  let tree ← paths.foldlM captureAll FileTree.empty
  let setting ← IO.getEnv "SEGMENT_FIT_SELF_CHECK"
  let platform ← IO.getEnv "OSTYPE"
  let machine : Fingerprint := ⟨[("platform", platform.getD "unknown")]⟩
  let bytes ←
    if command == "solve" && Session.wantsInput line then
      readAll (← IO.getStdin) ByteArray.empty
    else pure ByteArray.empty
  return (Utf8.decode bytes.toList).map fun input => ⟨tree, input, setting, machine⟩

def command? (name : String) : Option (Session → List String → Transcript) :=
  match name with
  | "solve" => some Session.answer
  | "batch" => some fun s line => s.batch s.solver line
  | "compare" => some fun s => s.compare .utf8
  | _ => none

def usage : String :=
  "usage: segment-fit solve [path] [--receipts file] [--self-check]\n"
    ++ "       segment-fit batch --cases directory [--fail-fast] [--self-check] [--output file]\n"
    ++ "       segment-fit compare file file\n"

def deliver (before : FileTree) (paths : List String) (t : Transcript) : IO UInt32 := do
  paths.forM (writeBack before t.tree)
  IO.print t.output.shown
  IO.eprint t.errors
  match t.ending with
  | .help => IO.print usage
  | .rejected => IO.eprint usage
  | .broken fault => IO.eprintln fault.message
  | .done _ => pure ()
  return t.ending.code.toUInt32

end SegmentFit.Program

open SegmentFit in
def main (words : List String) : IO UInt32 := do
  match words with
  | [] => IO.eprint Program.usage; return 2
  | name :: line =>
    match Program.command? name with
    | none => IO.eprint Program.usage; return 2
    | some command =>
      let paths := Session.defaultResults :: line.flatMap Program.pathsIn
      match ← Program.session line paths name with
      | .error fault => IO.eprintln fault.message; return 1
      | .ok session => Program.deliver session.tree paths (command session line)
