import SegmentFit.Case
import SegmentFit.FileTree
import SegmentFit.Json.Reader
import SegmentFit.Text.Lines
import SegmentFit.Text.Utf8

/-!
# Records — cases, answers and JSON values in files

Text files are UTF-8, and every end of line counts as a line feed. A file of records
has one JSON value a line; lines of blanks are passed over when it is read.

A file of records is read in blocks, line by line, so that a line in the blocks before
the first fault of the encoding is looked at first. How deep the values of its lines may be nested
is given.
-/

namespace SegmentFit

/-- Why a file holds no case, no answer or no records. -/
inductive LoadFault where
  | file (fault : FileFault)
  | encoding (fault : Utf8Fault)
  | case (fault : CaseFault)
  | answer (fault : AnswerFault)
  -- a line is no JSON value
  | record (fault : Json.ReadFault) (line : List Char)
  deriving DecidableEq, Repr

def LoadFault.message : LoadFault → String
  | .file fault => fault.message
  | .encoding fault => fault.message
  | .case fault => fault.message
  | .answer fault => fault.message
  | .record fault line => fault.message line

namespace FileTree

def readText (t : FileTree) (path : String) : Except LoadFault (List Char) := do
  let bytes ← (t.read path).mapError .file
  let text ← (Utf8.decode bytes).mapError .encoding
  return Text.unifyNewlines text

def loadCase (t : FileTree) (path : String) : Except LoadFault Case := do
  let text ← t.readText path
  (Case.parse text).mapError .case

def loadAnswer (t : FileTree) (path : String) : Except LoadFault Int := do
  let text ← t.readText path
  (expectedAnswer path text).mapError .answer

end FileTree

def readRecord (depth : Nat) (line : List Char) : Except LoadFault Json :=
  (Json.read depth line).mapError fun fault => .record fault line

/-- The values of lines, those of blanks left out. -/
def readRecords (depth : Nat) (lines : List (List Char)) : Except LoadFault (List Json) :=
  (lines.filter fun line => !Text.allBlank line).mapM (readRecord depth)

/-- The size of the blocks that a file of records is read in. -/
def blockSize : Nat := 8192

def recordsOf (depth : Nat) (bytes : List UInt8) : Except LoadFault (List Json) := do
  let (chars, fault) := Utf8.decodeBlocks none (Blake3.pieces blockSize bytes)
  match fault with
  | none => readRecords depth (Text.lines (Text.unifyNewlines chars))
  | some fault =>
    let _ ← readRecords depth (Text.completeLines chars)
    .error (.encoding fault)

/-- The text of a file of records. -/
def recordLines (s : Json.Spelling) (records : List Json) : String :=
  String.join (records.map fun v => v.text s ++ "\n")

namespace FileTree

def loadRecords (t : FileTree) (depth : Nat) (path : String) :
    Except LoadFault (List Json) := do
  let bytes ← (t.read path).mapError .file
  recordsOf depth bytes

def saveValue (t : FileTree) (path : String) (v : Json) : Except FileFault FileTree :=
  t.save path (v.text Json.compact)

def saveRecords (t : FileTree) (path : String) (records : List Json) : Except FileFault FileTree :=
  t.save path (recordLines Json.compact records)

end FileTree

end SegmentFit
