/-!
# Path texts — names between slashes

An empty name and `.` stay where they are, and `..` goes up. `tidy` drops the names that
stay, which is how paths are printed. Neither a name nor a path may have too many bytes.
-/

namespace SegmentFit

namespace PathText

/-- The pieces of a text between its slashes. -/
def pieces : List Char → List (List Char)
  | [] => [[]]
  | '/' :: rest => [] :: pieces rest
  | c :: rest =>
    match pieces rest with
    | [] => [[c]]
    | piece :: more => (c :: piece) :: more

def names (path : String) : List String :=
  (pieces path.toList).map String.ofList

def join (names : List String) : String :=
  String.intercalate "/" names

/-- Whether a name stays where it is. -/
def stays (name : String) : Bool :=
  name == "" || name == "."

/-- A path without the names that stay where they are; `.` if nothing is left. -/
def tidy (path : String) : String :=
  let start := if path.toList.head? == some '/' then "/" else ""
  let rest := join ((names path).filter fun name => !stays name)
  if start ++ rest == "" then "." else start ++ rest

def child (directory name : String) : String :=
  if directory == "." then name
  else if directory == "/" then "/" ++ name
  else directory ++ "/" ++ name

/-- The most bytes that a name may have. -/
def nameLimit : Nat := 255

/-- The most bytes that a path may have. -/
def pathLimit : Nat := 4095

/-- The paths up to each name of a path, the longest first, given its names from the last
one on. -/
def ascent : List String → List String
  | [] => []
  | name :: above =>
    if name == "" then ascent above else join (name :: above).reverse :: ascent above

/-- The paths of a directory and of those above it, the longest first. -/
def directories (path : String) : List String :=
  ascent (names path).reverse

def endsInDot (path : String) : Bool :=
  (names path).getLast? == some "."

/-- The part of a path before its last slash, without slashes at its end. -/
def parent (path : String) : String :=
  let head := path.toList.reverse.dropWhile (· != '/')
  let stripped := head.dropWhile (· == '/')
  String.ofList (if stripped.isEmpty then head else stripped).reverse

end PathText

end SegmentFit
