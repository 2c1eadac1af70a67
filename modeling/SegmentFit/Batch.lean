import SegmentFit.Records
import SegmentFit.Verdict

/-!
# Batches — every case of a directory, judged

A case file has a name that ends in `.in`; the file of the same name with `.out` in its
place, if it is there, holds the expected answer. Every case of a directory is run twice
and leaves one record, in the order of the names of the files. A case or an answer that
cannot be read leaves a record as well, with an error. If asked to, a batch stops after
the first record that does not pass.

The results are written one record a line. The summary counts verdicts and modes. An answer
that is too long to be written breaks the batch off, where the case is reported if it
passes, and where its record is written if it does not.
-/

namespace SegmentFit

/-! ## Names of files -/

def caseSuffix : List Char := ['.', 'i', 'n']

def isCaseFile (file : String) : Bool :=
  caseSuffix.isSuffixOf file.toList

/-- The name of a case: that of its file without the end, unless nothing were left. -/
def caseName (file : String) : String :=
  if caseSuffix.length < file.toList.length then
    String.ofList (file.toList.take (file.toList.length - caseSuffix.length))
  else file

def answerFile (file : String) : String :=
  caseName file ++ ".out"

example : caseName "a.b.in" = "a.b" ∧ answerFile "a.b.in" = "a.b.out" := by decide +kernel
example : caseName ".in" = ".in" ∧ answerFile ".in" = ".in.out" := by decide +kernel
example : isCaseFile "A.IN" = false := by decide +kernel

/-! ## Records of cases -/

/-- What a case leaves behind. -/
inductive CaseRecord where
  | unread (name reason : String)
  | judged (name : String) (side : Nat) (expected : Option Int) (runs : RunPair)
  deriving DecidableEq, Repr

namespace CaseRecord

def name : CaseRecord → String
  | .unread name _ => name
  | .judged name _ _ _ => name

/-- The verdict that a record has, if integers are written under a limit. -/
def verdictUnder (limit : DigitLimit) : CaseRecord → Verdict
  | .unread _ reason => .error reason
  | .judged _ _ expected runs => (runs.verdict expected).recorded limit

def verdict (r : CaseRecord) : Verdict :=
  r.verdictUnder .standard

def expected? : CaseRecord → Option Int
  | .unread _ _ => none
  | .judged _ _ expected _ => expected

def outcomes? : CaseRecord → Option (Outcome × Outcome)
  | .judged _ _ _ (.finished first second) => some (first, second)
  | _ => none

def mode? (r : CaseRecord) : Option String :=
  r.outcomes?.map fun runs => runs.1.mode

def answer? (r : CaseRecord) : Option Int :=
  r.outcomes?.map fun runs => runs.1.answer

def passes (r : CaseRecord) : Bool :=
  r.verdict.passes

/-- A record as JSON; that of a case that could not be read is short. -/
def jsonUnder (limit : DigitLimit) (r : CaseRecord) : Json :=
  let verdict := r.verdictUnder limit
  match r with
  | .unread name reason =>
    .object [("case_id", .string name), ("result", .string verdict.name), ("error", .string reason)]
  | .judged name side expected _ =>
    .object [("case_id", .string name), ("result", .string verdict.name),
      ("mode", .optional .string r.mode?), ("n", .nat side), ("k", .optional .int r.answer?),
      ("expected", .optional .int expected),
      ("table_hash_run1", .optional (fun runs => .string runs.1.tableDigest) r.outcomes?),
      ("table_hash_run2", .optional (fun runs => .string runs.2.tableDigest) r.outcomes?),
      ("error", .optional .string verdict.reason?)]

def json (r : CaseRecord) : Json :=
  r.jsonUnder .standard

/-- The integers in a record. -/
def numbers : CaseRecord → List Int
  | .unread _ _ => []
  | .judged name side expected runs =>
    side :: ((judged name side expected runs).answer?.toList ++ expected.toList)

/-- Whether every integer in a record can be written. -/
def isWritten (r : CaseRecord) : Bool :=
  r.numbers.all DigitLimit.standard.allows

/-- Whether a record can be reported: the report of a pass shows the answer. -/
def isReported (r : CaseRecord) : Bool :=
  !r.passes || r.answer?.all DigitLimit.standard.allows

def report (r : CaseRecord) : String :=
  match r.verdict.reason?, r.outcomes? with
  | some reason, _ => r.verdict.name ++ ": " ++ reason
  | none, none => r.verdict.name
  | none, some (first, _) =>
    let compared := if r.expected?.isSome then "✓ oracle" else "? no oracle"
    r.verdict.name ++ " (" ++ first.mode ++ s!", k={first.answer}) " ++ compared

end CaseRecord

/-! ## Running -/

namespace FileTree

def loadTask (t : FileTree) (directory file : String) : Except LoadFault (Case × Option Int) := do
  let c ← t.loadCase (PathText.child directory file)
  let path := PathText.child directory (answerFile file)
  match ← (t.look path).mapError .file with
  | some _ => return (c, some (← t.loadAnswer path))
  | none => return (c, none)

def caseFiles (t : FileTree) (directory : String) : Except FileFault (List String) :=
  (t.list directory).map fun files => files.filter isCaseFile

/-- The record of a case file, and where the next runs come from. -/
def judgeFile (t : FileTree) (directory file : String) (runner : Runner) : CaseRecord × Runner :=
  match t.loadTask directory file with
  | .error fault => (.unread (caseName file) fault.message, runner)
  | .ok (c, expected) =>
    let (runs, runner) := runner.twice c
    (.judged (caseName file) c.grid.side expected runs, runner)

/-- The records of case files, up to the first one that does not pass if `failFast`. -/
def judgeFiles (t : FileTree) (directory : String) (failFast : Bool) :
    List String → Runner → List CaseRecord
  | [], _ => []
  | name :: rest, runner =>
    let (record, runner) := t.judgeFile directory name runner
    record :: (if failFast && !record.passes then []
      else judgeFiles t directory failFast rest runner)

end FileTree

structure Batch where
  total : Nat
  failFast : Bool
  records : List CaseRecord
  deriving DecidableEq, Repr

def FileTree.judgeAll (t : FileTree) (directory : String) (failFast : Bool) (runner : Runner) :
    Except FileFault Batch :=
  (t.caseFiles directory).map fun files =>
    ⟨files.length, failFast, t.judgeFiles directory failFast files runner⟩

/-! ## Counting and printing -/

/-- How often each name occurs, in the order of the names. -/
def occurrences (names : List String) : List (String × Nat) :=
  (names.eraseDups.mergeSort fun a b => decide (a ≤ b)).map fun name => (name, names.count name)

namespace Batch

def verdictCounts (b : Batch) : List (String × Nat) :=
  occurrences (b.records.map fun r => r.verdict.name)

/-- How often each mode was run; a mode without a name is not counted. -/
def modeCounts (b : Batch) : List (String × Nat) :=
  occurrences ((b.records.filterMap CaseRecord.mode?).filter fun mode => mode != "")

/-- The lines of the records, up to the first one that cannot be written. -/
def results (b : Batch) : String :=
  recordLines Json.spaced ((b.records.takeWhile CaseRecord.isWritten).map CaseRecord.json)

def json (b : Batch) : Json :=
  let counts (l : List (String × Nat)) : Json := .object (l.map fun (name, n) => (name, .nat n))
  .object [("total", .nat b.records.length), ("result_counts", counts b.verdictCounts),
    ("mode_counts", counts b.modeCounts), ("results", .arr (b.records.map CaseRecord.json))]

/-- The reports of records, up to the first one that cannot be reported. -/
def recordReports (total i : Nat) : List CaseRecord → String
  | [] => ""
  | r :: rest =>
    s!"[{i}/{total}] Running " ++ r.name ++ "... "
      ++ (if r.isReported then r.report ++ "\n" ++ recordReports total (i + 1) rest else "")

def stopReport (b : Batch) : String :=
  match b.records.getLast? with
  | some r =>
    if b.failFast && !r.passes then
      "\nFail-fast: Stopping on first " ++ r.verdict.name ++ "\n"
    else ""
  | none => ""

def isReported (b : Batch) : Bool :=
  b.records.all CaseRecord.isReported

def isWritten (b : Batch) : Bool :=
  b.records.all CaseRecord.isWritten

def progress (b : Batch) : String :=
  recordReports b.total 1 b.records ++ (if b.isReported then b.stopReport else "")

def hasVerdict (b : Batch) (name : String) : Bool :=
  b.records.any fun r => r.verdict.name == name

end Batch

/-! ## The whole run -/

/-- Why a batch breaks off. -/
inductive BatchFault where
  | file (fault : FileFault)
  -- an answer is too long to be written
  | digits
  deriving DecidableEq, Repr

/-- What the run of a batch leaves behind: what it printed, the files, and the batch if it
did not break off. -/
structure BatchRun where
  printed : String
  tree : FileTree
  result : Except BatchFault Batch

/-- Judge the cases of a directory and write the results to a file. A record that cannot be
written leaves the lines before it in the file. -/
def FileTree.runBatch (t : FileTree) (directory path : String) (failFast : Bool)
    (runner : Runner) : BatchRun :=
  match t.judgeAll directory failFast runner with
  | .error fault => ⟨"", t, .error (.file fault)⟩
  | .ok batch =>
    if batch.isReported then
      match t.saveTidy path batch.results with
      | .error fault => ⟨batch.progress, t, .error (.file fault)⟩
      | .ok tree => ⟨batch.progress, tree, if batch.isWritten then .ok batch else .error .digits⟩
    else ⟨batch.progress, t, .error .digits⟩

end SegmentFit
