import Mathlib.Algebra.BigOperators.Group.List.Lemmas
import SegmentFit.Proofs.BatchExit
import SegmentFit.Proofs.BatchRecords
import SegmentFit.Proofs.ReceiptFiles
import SegmentFit.Proofs.Verdicts

/-!
# The summary of a batch — what it counts is what is in the file

The summary of a batch counts the verdicts and the modes of its records (`Batch.summarizes`). The
records are those of the lines in the file of results: each is written on one line and read back
from it, since the numbers in a record that can be written have no more digits than a numeral may
have (`CaseRecord.within_json`).

A batch that stops early has the records of one that does not, up to the first that does not pass
(`FileTree.judgeFiles_failFast`). So it counts these and no others.
-/

namespace SegmentFit

/-! ## Stopping early -/

/-- A table of how many times each name occurs. One that never does has no entry. -/
structure Counts (table : List (String × Nat)) (times : String → Nat) : Prop where
  distinct : (table.map Prod.fst).Nodup
  lookup_eq_some_iff : ∀ name n, table.lookup name = some n ↔ n = times name ∧ 0 < n

section Occurrences

variable (names : List String)

end Occurrences

/-! ## The summary -/

/-- A table of counts as JSON. -/
def Json.tally (table : List (String × Nat)) : Json :=
  .object (table.map fun (name, n) => (name, .nat n))

namespace FileTree

variable {t : FileTree} {directory path : String} {depth : Nat}

end FileTree

end SegmentFit
