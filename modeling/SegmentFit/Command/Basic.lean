import SegmentFit.CommandLine
import SegmentFit.Difference
import SegmentFit.Records
import SegmentFit.Solve
import SegmentFit.Text.Sink

/-!
# Commands — what they are given and what they leave behind

A command is a function from a session, which holds all that it may read, and the words
of its line to a transcript, which holds all that it leaves behind.
-/

namespace SegmentFit

/-- What a command may read besides its line. -/
structure Session where
  tree : FileTree
  input : List Char
  -- the setting of the symmetry check, if there is one
  checkSetting : Option String
  machine : Fingerprint

/-- Why a command breaks off. -/
inductive CommandFault where
  | load (fault : LoadFault)
  | file (fault : FileFault)
  | solve (fault : SolveFault)
  | record (fault : RecordFault)
  -- a line cannot be printed
  | output (fault : SinkFault)
  -- an answer is too long to be written
  | digits
  -- an option that names a path has no value
  | noPath

def CommandFault.message : CommandFault → String
  | .load fault => fault.message
  | .file fault => fault.message
  | .solve fault => (DigitLimit.standard.raised fault).message
  | .record fault => fault.message
  | .output fault => fault.message
  | .digits => DigitLimit.standard.message
  | .noPath => "expected str, bytes or os.PathLike object, not list"

/-- How a command ends. -/
inductive Ending where
  | done (code : Nat)
  | help
  | rejected
  | broken (fault : CommandFault)

def Ending.code : Ending → Nat
  | .done code => code
  | .help => 0
  | .rejected => 2
  | .broken _ => 1

/-- What a command leaves behind: its ending, what it printed as output and as errors,
and the files. -/
structure Transcript where
  ending : Ending
  output : CodeText
  errors : String
  tree : FileTree

namespace Session

def leaves (s : Session) (ending : Ending) (output : CodeText) (errors : String) :
    Transcript :=
  ⟨ending, output, errors, s.tree⟩

end Session

/-- The value of a setting, unless it is empty. -/
def CommandWords.value? (words : CommandWords) (name : String) : Option String :=
  (words.settings.lookup name).join.filter fun value => value != ""

def CommandWords.has (words : CommandWords) (name : String) : Bool :=
  words.flags.contains name

end SegmentFit
