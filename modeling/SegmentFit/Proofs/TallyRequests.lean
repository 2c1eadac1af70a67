import SegmentFit.Proofs.Coverage

/-!
# Requests — what a tally holds after any sequence of calls

A request names a row and two columns, by any integers. It is counted if they make an interval
with columns on the field (`Request.Admissible`), and refused otherwise, which leaves the tally
as it was. Whether it is counted depends on the field alone and not on what came before.

One request does to the intervals that a tally counts what it should (`Counts.request`), so
after a sequence the tally counts the intervals of the admissible requests in it
(`Counts.requests`). From this one invariant follow the number that are counted, the rows of
differences, which sum up to zero, and the cover. Two tallies that count the same intervals in
any two orders are the same (`Counts.eq_of_perm`).
-/

namespace SegmentFit

open Finset

/-! ## Requests -/

/-- A row and two columns between which a tally is asked to count an interval. -/
structure Request where
  row : Int
  lo : Int
  hi : Int
  deriving DecidableEq, Repr

namespace Request

/-- A request makes an interval with columns on a field of `n` rows and columns. -/
def Admissible (n : Int) (r : Request) : Prop :=
  (0 ≤ r.row ∧ r.row < n) ∧ 0 ≤ r.lo ∧ r.lo < r.hi ∧ r.hi ≤ n

/-- A request covers the cell in a row and a column. -/
def Covers (r : Request) (i j : Nat) : Prop :=
  r.row = i ∧ r.lo ≤ j ∧ (j : Int) < r.hi

instance (n : Int) (r : Request) : Decidable (r.Admissible n) :=
  inferInstanceAs (Decidable (_ ∧ _))

instance (r : Request) (i j : Nat) : Decidable (r.Covers i j) :=
  inferInstanceAs (Decidable (_ ∧ _))

def interval (r : Request) : Interval :=
  ⟨r.row.toNat, r.lo.toNat, r.hi.toNat⟩

variable {side : Nat} {r : Request}

theorem Admissible.within (h : r.Admissible side) : r.interval.Within side := by
  obtain ⟨hrow, hlo, hlt, hhi⟩ := h
  show r.row.toNat < side ∧ r.lo.toNat < r.hi.toNat ∧ r.hi.toNat ≤ side
  omega

theorem Admissible.contains_iff (h : r.Admissible side) (i j : Nat) :
    r.interval.Contains i j ↔ r.Covers i j := by
  obtain ⟨hrow, hlo, hlt, hhi⟩ := h
  show r.row.toNat = i ∧ r.lo.toNat ≤ j ∧ j < r.hi.toNat ↔ r.row = i ∧ r.lo ≤ j ∧ (j : Int) < r.hi
  omega

/-- The intervals of the admissible requests of a list. -/
def counted (side : Nat) (rs : List Request) : List Interval :=
  (rs.filter fun r => r.Admissible side).map interval

theorem counted_append (side : Nat) (rs rs' : List Request) :
    counted side (rs ++ rs') = counted side rs ++ counted side rs' := by
  rw [counted, List.filter_append, List.map_append]
  rfl

end Request

namespace Tally

variable {side : Nat} {t u : Tally side} {l l' : List Interval}

/-- What a tally is after a request; a refused one leaves it as it was. -/
def request (t : Tally side) (r : Request) : Tally side :=
  match t.add r.row r.lo r.hi with
  | .ok u => u
  | .error _ => t

/-- What a tally is after requests, one after the other. -/
def requests (t : Tally side) (rs : List Request) : Tally side :=
  rs.foldl request t

/-! ## One request -/

/-- A request that is not admissible is refused, and the fault names it. -/
theorem add_of_not_admissible (t : Tally side) {r : Request} (h : ¬ r.Admissible side) :
    t.add r.row r.lo r.hi = .error (.interval r.row r.lo r.hi side) :=
  dif_neg h

theorem request_of_not_admissible (t : Tally side) {r : Request} (h : ¬ r.Admissible side) :
    t.request r = t := by
  rw [request, add_of_not_admissible t h]

/-- A request is accepted iff it is admissible, whatever was counted before. -/
theorem exists_add_iff (t : Tally side) (r : Request) :
    (∃ u, t.add r.row r.lo r.hi = .ok u) ↔ r.Admissible side := by
  constructor
  · rintro ⟨u, hu⟩
    by_contra hout
    rw [add_of_not_admissible t hout] at hu
    cases hu
  · intro hin
    exact ⟨_, dif_pos hin⟩

/-- **One request** appends its interval to those that are counted, if it is admissible. -/
theorem Counts.request (h : t.Counts l) (r : Request) :
    (t.request r).Counts (l ++ Request.counted side [r]) := by
  by_cases hin : r.Admissible side
  · have hlist : Request.counted side [r] = [r.interval] := by
      simp [Request.counted, hin]
    obtain ⟨u, hu, hcounts⟩ := counts_add h hin.within
    -- the coordinates are not negative, so they are those of the interval
    have hrow : ((r.interval.row : Nat) : Int) = r.row := Int.toNat_of_nonneg hin.1.1
    have hlo : ((r.interval.lo : Nat) : Int) = r.lo := Int.toNat_of_nonneg hin.2.1
    have hhi : ((r.interval.hi : Nat) : Int) = r.hi := by
      obtain ⟨-, hzero, hlt, -⟩ := hin
      exact Int.toNat_of_nonneg (by omega)
    rw [hrow, hlo, hhi] at hu
    rw [Tally.request, hu, hlist]
    exact hcounts
  · have hlist : Request.counted side [r] = [] := by
      simp [Request.counted, hin]
    rw [request_of_not_admissible t hin, hlist, List.append_nil]
    exact h

/-! ## Sequences of requests -/

/-- **A sequence of requests** leaves the intervals of the admissible ones counted. -/
theorem Counts.requests (h : t.Counts l) (rs : List Request) :
    (t.requests rs).Counts (l ++ Request.counted side rs) := by
  induction rs generalizing t l with
  | nil =>
      show t.Counts (l ++ [])
      rw [List.append_nil]
      exact h
  | cons r rest ih =>
      have hrest := ih (h.request r)
      rw [List.append_assoc, ← Request.counted_append, List.singleton_append] at hrest
      exact hrest

/-- **After requests from the start**, the admissible ones are counted. -/
theorem counts_requests (side : Nat) (rs : List Request) :
    ((empty side).requests rs).Counts (Request.counted side rs) := by
  have h := (counts_empty side).requests rs
  rw [List.nil_append] at h
  exact h

end Tally

end SegmentFit
