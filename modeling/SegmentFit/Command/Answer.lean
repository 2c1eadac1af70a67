import SegmentFit.Command.Basic

/-!
# The answer to one case

The command reads a case from a file or from its input, prints the answer, and writes a
receipt if it was asked for one. A text that is no case is reported as an error.
-/

namespace SegmentFit.Session

/-- The line of the command: a path, a file for the receipt, and the symmetry check. -/
def answerForm : CommandForm :=
  ⟨[⟨"receipts", true⟩, ⟨"self-check", false⟩], true⟩

/-- The text of the case, from a file unless no path or an empty one is given. -/
def caseText (s : Session) (path : Option String) : Except LoadFault (List Char) :=
  match path.filter fun path => path != "" with
  | some path => s.tree.readText path
  | none => .ok s.input

/-- The transcript of a solved case, with its receipt written if a path is given. -/
def answered (s : Session) (solution : Solution) (receipts : Option String) : Transcript :=
  let output := answerLine solution.answer
  match receipts with
  | none => s.leaves (.done 0) output ""
  | some path =>
    match s.tree.saveRecords path [solution.receipt s.machine] with
    | .ok tree => ⟨.done 0, output, "", tree⟩
    | .error fault => s.leaves (.broken (.file fault)) output ""

def answerText (s : Session) (words : CommandWords) (text : List Char) : Transcript :=
  match Case.parse text with
  | .error fault => s.leaves (.done 1) "" ("Error: " ++ fault.message ++ "\n")
  | .ok c =>
    let asked := if words.has "self-check" then some true else none
    match c.solve (checkEnabled asked s.checkSetting) with
    | .error fault => s.leaves (.broken (.solve fault)) "" ""
    | .ok solution => s.answered solution (words.value? "receipts")

def wantsInput (line : List String) : Bool :=
  match answerForm.parse line with
  | .run words => (words.path.filter fun path => path != "").isNone
  | _ => false

def answer (s : Session) (line : List String) : Transcript :=
  match answerForm.parse line with
  | .help => s.leaves .help "" ""
  | .rejected => s.leaves .rejected "" ""
  | .run words =>
    match s.caseText words.path with
    | .error fault => s.leaves (.broken (.load fault)) "" ""
    | .ok text => s.answerText words text

end SegmentFit.Session
