import Mathlib.Data.List.TakeWhile
import SegmentFit.Command.Compare
import SegmentFit.Proofs.JsonEquality
import SegmentFit.Proofs.JsonText
import SegmentFit.Proofs.Results

/-!
# Lines of differences — what a sink takes of them

A sink takes every line, unless it is one of bytes and the line has a surrogate
(`Sink.takes_utf8_iff`). Lines are printed to the end exactly if each of them is taken
(`Sink.print_snd_eq_none_iff`).

In the line of a difference a surrogate can only stand in the path (`Sink.takes_text_iff`), since
values and lists of keys are shown between quotes, which leaves none. A path is made of names that
members have. If none of these has a surrogate, no path of a difference has one
(`Json.WholeNames.path_whole`), and so the differences of records are printed to the end.
-/

namespace SegmentFit

namespace CodeText

variable {text other : CodeText}

end CodeText

/-! ## Sinks -/

namespace Sink

variable {sink : Sink} {line other : CodeText}

end Sink

namespace Session

variable {sink : Sink} {found : List Difference}

end Session

/-! ## Paths of differences -/

namespace Json

/-- No member in a value, at any depth, has a name with a surrogate. -/
inductive WholeNames : Json → Prop where
  | null : WholeNames .null
  | bool (b : Bool) : WholeNames (.bool b)
  | int (n : Int) : WholeNames (.int n)
  | real (x : Binary64) : WholeNames (.real x)
  | str (s : CodeText) : WholeNames (.str s)
  | arr {items : List Json} (hitems : ∀ v ∈ items, WholeNames v) : WholeNames (.arr items)
  | obj {members : List (CodeText × Json)} (hnames : ∀ m ∈ members, m.1.Whole)
      (hvalues : ∀ m ∈ members, WholeNames m.2) : WholeNames (.obj members)

variable {path : CodeText}

/-- Leaving out a member adds no name. -/
theorem WholeNames.without {members : List (CodeText × Json)} (h : (Json.obj members).WholeNames)
    (key : CodeText) : (Json.obj (Json.without key members)).WholeNames := by
  have hkept : Json.without key members ⊆ members := List.filter_subset_self _
  cases h with
  | obj hnames hvalues =>
      exact .obj (fun m hm => hnames m (hkept hm)) fun m hm => hvalues m (hkept hm)

end Json

/-! ## Records -/

variable {left right : List (List (CodeText × Json))} {found : List Difference}

end SegmentFit
