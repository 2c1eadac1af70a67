import SegmentFit.Batch
import SegmentFit.Command.Basic

/-!
# The batch of a directory

The command judges every case of a directory, prints one line a case and a summary, and
writes the results. The exit code is `1` if some case was run with two different results,
was in error, or gave a wrong answer; differing machines alone do not change it. A batch that
breaks off has no summary.
-/

namespace SegmentFit

namespace Batch

def countLines (counts : List (String × Nat)) : String :=
  String.join (counts.map fun (name, n) => "  " ++ name ++ s!": {n}\n")

def rule : String :=
  String.ofList (List.replicate 60 '=') ++ "\n"

def summary (b : Batch) (path : String) : String :=
  "\n" ++ rule ++ "SUMMARY\n" ++ rule
    ++ s!"Total cases: {b.records.length}\n"
    ++ "\nResult counts:\n" ++ countLines b.verdictCounts
    ++ (if b.modeCounts.isEmpty then "" else "\nMode counts:\n" ++ countLines b.modeCounts)
    ++ "\nReceipts written to: " ++ path ++ "\n"

/-- Whether some case was run with two different results. -/
def isUnstable (b : Batch) : Bool :=
  b.hasVerdict "NONDETERMINISTIC_EXECUTION"

/-- Whether some case was in error or gave a wrong answer. -/
def isFaulty (b : Batch) : Bool :=
  b.hasVerdict "ERROR" || b.hasVerdict "FAIL"

def exitCode (b : Batch) : Nat :=
  if b.isUnstable || b.isFaulty then 1 else 0

def conclusion (b : Batch) : String :=
  if b.isUnstable then "\n❌ NONDETERMINISTIC_EXECUTION detected!\n"
  else if b.isFaulty then "\n❌ Errors or oracle mismatches detected!\n"
  else "\n✓ All cases passed with determinism\n"

end Batch

def BatchFault.command : BatchFault → CommandFault
  | .file fault => .file fault
  | .digits => .digits

namespace Session

/-- The line of the command: a directory, a file for the results, stopping early, and the
symmetry check. -/
def batchForm : CommandForm :=
  ⟨[⟨"cases", true⟩, ⟨"fail-fast", false⟩, ⟨"self-check", false⟩, ⟨"output", true⟩], false⟩

def defaultResults : String := "out/receipts/run.jsonl"

def judgeDirectory (s : Session) (runner : Runner) (failFast : Bool) (directory path : String) :
    Transcript :=
  let directory := PathText.tidy directory
  let path := PathText.tidy path
  let heading :=
    "Cases dir: " ++ directory ++ "\nOutput: " ++ path ++ "\nFail-fast: "
      ++ String.ofList (Json.display.truth failFast) ++ "\n\n"
  let run := s.tree.runBatch directory path failFast runner
  match run.result with
  | .error fault => ⟨.broken fault.command, heading ++ run.printed, "", run.tree⟩
  | .ok batch =>
    ⟨.done batch.exitCode,
      heading ++ run.printed ++ batch.summary path ++ batch.conclusion, "", run.tree⟩

/-- Judge the cases of a directory. `runner` says where runs come from, with the symmetry
check or without it. -/
def batch (s : Session) (runner : Bool → Runner) (line : List String) : Transcript :=
  match batchForm.parse line with
  | .help => s.leaves .help "" ""
  | .rejected => s.leaves .rejected "" ""
  | .run words =>
    match words.settings.lookup "cases",
      (words.settings.lookup "output").getD (some defaultResults) with
    | none, _ => s.leaves .rejected "" ""
    | some (some directory), some path =>
      s.judgeDirectory (runner (words.has "self-check")) (words.has "fail-fast") directory path
    | _, _ => s.leaves (.broken .noPath) "" ""

def solver (s : Session) (check : Bool) : Runner :=
  .solver check s.machine

end Session

end SegmentFit
