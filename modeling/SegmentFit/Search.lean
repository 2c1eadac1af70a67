import SegmentFit.Bytes.Blake3
import SegmentFit.Bytes.Frame

/-!
# Search — the largest accepted size

`largest` looks for the greatest size in `[0, n]` that a predicate accepts, taking it
to accept every size below an accepted one. Size `0` is taken for granted; size `n + 1`
is probed first and must be refused; then an interval with an accepted lower and a
refused upper end is halved until the ends are neighbours. Every question put to the
predicate is kept, with its answer, and the list of them is hashed.

`scanLargest` asks for every size, and takes nothing for granted.
-/

namespace SegmentFit

/-- A question put to the predicate, and its answer. -/
structure Probe where
  size : Nat
  accepted : Bool
  deriving DecidableEq, Repr

/-- Why a search has no result. -/
inductive SearchFault where
  | bound (n : Int)
  -- a size beyond the bound is accepted
  | unbounded (size n : Nat)
  | trace (fault : VarintFault)
  deriving DecidableEq, Repr

def SearchFault.message : SearchFault → String
  | .bound n => s!"n must be >= 1, got {n}"
  | .unbounded size n => s!"predicate accepted k={size} > n={n}; not a valid size predicate"
  | .trace fault => fault.message

instance : Fault SearchFault where
  kind
    | .bound _ | .unbounded _ _ => .value
    | .trace fault => Fault.kind fault
  numbers
    | .bound n => [n]
    | .unbounded size n => [size, n]
    | .trace fault => Fault.numbers fault
  message := SearchFault.message

/-- The bytes of a list of probes: sizes and answers in turn, in one frame. -/
def Probe.encode? (probes : List (Int × Bool)) : Except VarintFault (List UInt8) :=
  Frame.encode? (probes.flatMap fun (size, accepted) => [size, if accepted then 1 else 0])

structure SearchReceipt where
  bound : Nat
  lo : Nat
  hi : Nat
  probes : List Probe
  traceDigest : String
  deriving DecidableEq, Repr

namespace Search

/-- The ends at which halving stops, and the probes on the way. -/
structure Bracket where
  lo : Nat
  hi : Nat
  probes : List Probe
  deriving DecidableEq, Repr

/-- Halve the interval from `lo` to `hi` until its ends are neighbours. -/
def bisect (accept : Nat → Bool) (lo hi : Nat) : Bracket :=
  if hi - lo ≤ 1 then ⟨lo, hi, []⟩
  else
    let middle := lo + (hi - lo) / 2
    let accepted := accept middle
    let rest := if accepted then bisect accept middle hi else bisect accept lo middle
    { rest with probes := ⟨middle, accepted⟩ :: rest.probes }
termination_by hi - lo
decreasing_by all_goals omega

def largest (accept : Nat → Bool) (bound : Int) : Except SearchFault SearchReceipt :=
  if bound < 1 then .error (.bound bound)
  else
    let n := bound.toNat
    let beyond := accept (n + 1)
    if beyond then .error (.unbounded (n + 1) n)
    else
      let bracket := bisect accept 0 (n + 1)
      let probes := ⟨n + 1, beyond⟩ :: bracket.probes
      match Probe.encode? (probes.map fun p => ((p.size : Int), p.accepted)) with
      | .error fault => .error (.trace fault)
      | .ok bytes => .ok ⟨n, bracket.lo, bracket.hi, probes, Blake3.hexDigest bytes⟩

/-- The greatest size up to a bound that is accepted, `0` if none is. -/
def scanLargest (accept : Nat → Bool) (bound : Int) : Nat :=
  (List.range (bound + 1).toNat).foldl (fun best size => if accept size then size else best) 0

end Search

end SegmentFit
