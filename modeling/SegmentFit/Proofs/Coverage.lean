import Mathlib.Algebra.BigOperators.Intervals
import Mathlib.Algebra.BigOperators.Group.Finset.Piecewise
import Mathlib.Algebra.Ring.Int.Defs
import SegmentFit.Coverage

/-!
# Coverage — words that count intervals

A tally never holds its intervals, only differences in 64-bit words. `Tally.Counts` names
the list of intervals that a tally stands for, and every operation is shown to do to that
list what it should: `counts_add` appends an interval, `entry_cover` counts the intervals
that contain a cell, `entry_windowSums_cover` counts those that meet a vertical segment.

All equations between words hold as `Int64.ofInt` of an equation between integers, so no
overflow has to be excluded on the way. Only the last step, from a word back to a number,
asks for fewer than `2 ^ 63` intervals.
-/

namespace SegmentFit

open Finset

/-! ## Sums of words -/

/-- The running sums of words are the words of the running sums. -/
theorem getElem_scan_add {n : Nat} (v : Vector Int64 n) (f : Nat → Int)
    (same : ∀ (s : Nat) (hs : s < n), v[s] = Int64.ofInt (f s)) (j : Nat) (hj : j < n) :
    (scan (fun sum d => sum + d) 0 v)[j] = Int64.ofInt (∑ s ∈ range (j + 1), f s) := by
  induction j with
  | zero =>
      rw [getElem_scan_zero, same 0 hj, sum_range_one]
      exact Int64.zero_add _
  | succ j ih =>
      rw [getElem_scan_succ, ih (by omega), same (j + 1) hj, sum_range_succ _ (j + 1),
        Int64.ofInt_add]

namespace Table

variable {h w : Nat} (t : Table Int64 h w) (f : Nat → Nat → Int)

/-- The column sums of a table are the words of the sums of its columns. -/
theorem entry_columnSums (same : ∀ i j, t.entry i j = Int64.ofInt (f i j)) (i : Nat)
    (hi : i < h) (j : Fin w) :
    t.columnSums.entry ⟨i, hi⟩ j = Int64.ofInt (∑ r ∈ range (i + 1), f r j) := by
  induction i with
  | zero =>
      have hcell : t.rows[0][j.val] = Int64.ofInt (f 0 j) := same ⟨0, hi⟩ j
      show t.columnSums.rows[0][j.val] = _
      rw [columnSums, getElem_scan_zero, Vector.getElem_zipWith, Vector.getElem_replicate, hcell,
        sum_range_one]
      exact Int64.zero_add _
  | succ i ih =>
      have hcell : t.rows[i + 1][j.val] = Int64.ofInt (f (i + 1) j) := same ⟨i + 1, hi⟩ j
      have hprev := ih (by omega)
      show t.columnSums.rows[i + 1][j.val] = _
      rw [columnSums, getElem_scan_succ, Vector.getElem_zipWith, hcell, sum_range_succ _ (i + 1),
        Int64.ofInt_add, ← hprev]
      rfl

/-- **Window sums** are the words of the sums over the last `k` rows. -/
theorem entry_windowSums (same : ∀ i j, t.entry i j = Int64.ofInt (f i j)) (k : Nat)
    (i : Fin h) (j : Fin w) :
    (t.windowSums k).entry i j = Int64.ofInt (∑ r ∈ Ico (i + 1 - k) (i + 1), f r j) := by
  have hsum := t.entry_columnSums f same
  rw [windowSums, entry_ofFn]
  -- a window that reaches beyond the first row has nothing to be taken away
  by_cases hk : k ≤ i.val
  · rw [if_pos hk, hsum i i.isLt, hsum (i - k) (by omega), ← Int64.ofInt_sub,
      sum_Ico_eq_sub _ (by omega)]
    have hcut : i.val - k + 1 = i.val + 1 - k := by omega
    rw [hcut]
  · have hcut : i.val + 1 - k = 0 := by omega
    rw [if_neg hk, hsum i i.isLt, hcut, Nat.Ico_zero_eq_range]

/-- A window with rows is never refused. -/
theorem windowSums?_eq {k : Nat} (hk : 0 < k) : t.windowSums? k = .ok (t.windowSums k) := by
  rw [windowSums?, if_neg (by omega), Int.toNat_natCast]

end Table

/-! ## Intervals -/

/-- A half-open interval of columns in a row. -/
structure Interval where
  row : Nat
  lo : Nat
  hi : Nat
  deriving DecidableEq, Repr

namespace Interval

/-- An interval with columns that lies on a field of a given side. -/
def Within (side : Nat) (v : Interval) : Prop :=
  v.row < side ∧ v.lo < v.hi ∧ v.hi ≤ side

/-- An interval contains the cell in a row and a column. -/
def Contains (v : Interval) (i j : Nat) : Prop :=
  v.row = i ∧ v.lo ≤ j ∧ j < v.hi

/-- An interval shares a cell with the `k` cells of a column that end in a row. -/
def Meets (k : Nat) (v : Interval) (i j : Nat) : Prop :=
  (i + 1 - k ≤ v.row ∧ v.row ≤ i) ∧ v.lo ≤ j ∧ j < v.hi

instance (v : Interval) (i j : Nat) : Decidable (v.Contains i j) :=
  inferInstanceAs (Decidable (_ ∧ _))

instance (k : Nat) (v : Interval) (i j : Nat) : Decidable (v.Meets k i j) :=
  inferInstanceAs (Decidable (_ ∧ _))

/-- What an interval adds to the difference at a place: one where it starts, and one less
where it has ended. -/
def change (v : Interval) (i j : Nat) : Int :=
  (if v.row = i ∧ v.lo = j then 1 else 0) - (if v.row = i ∧ v.hi = j then 1 else 0)

/-- Summed up along a row, the changes of an interval mark the columns it contains. -/
theorem sum_change (v : Interval) (hv : v.lo < v.hi) (i j : Nat) :
    ∑ s ∈ range (j + 1), v.change i s = if v.Contains i j then 1 else 0 := by
  induction j with
  | zero =>
      rw [sum_range_one]
      simp only [change, Contains]
      split_ifs <;> omega
  | succ j ih =>
      -- the interval may start at `j + 1`, have ended there, or neither
      rw [sum_range_succ, ih]
      simp only [change, Contains]
      split_ifs <;> omega

/-- Over the rows of a window an interval is counted once if it meets the window. -/
theorem sum_contains (v : Interval) (k i j : Nat) :
    ∑ r ∈ Ico (i + 1 - k) (i + 1), (if v.Contains r j then 1 else 0 : Int)
      = if v.Meets k i j then 1 else 0 := by
  by_cases hcol : v.lo ≤ j ∧ j < v.hi
  · have hrow (r : Nat) : v.Contains r j ↔ v.row = r := ⟨fun h => h.1, fun h => ⟨h, hcol⟩⟩
    have hmeets : v.Meets k i j ↔ v.row ∈ Ico (i + 1 - k) (i + 1) := by
      rw [mem_Ico, Meets]
      omega
    simp only [hrow, hmeets, sum_ite_eq]
  · have hnone (r : Nat) : ¬ v.Contains r j := fun h => hcol h.2
    have hmeets : ¬ v.Meets k i j := fun h => hcol h.2
    simp only [hnone, hmeets, if_false, sum_const_zero]

end Interval

/-! ## Lists of intervals -/

/-- A sum of a list's sums is taken interval by interval. -/
theorem sum_sum_map (s : Finset Nat) (f : Nat → Interval → Int) (l : List Interval) :
    ∑ r ∈ s, (l.map (f r)).sum = (l.map fun v => ∑ r ∈ s, f r v).sum := by
  induction l with
  | nil => exact sum_const_zero
  | cons v rest ih =>
      simp only [List.map_cons, List.sum_cons]
      rw [sum_add_distrib, ih]

theorem natCast_countP (p : Interval → Prop) [DecidablePred p] (l : List Interval) :
    ((l.countP fun v => p v : Nat) : Int) = (l.map fun v => if p v then (1 : Int) else 0).sum := by
  induction l with
  | nil => rfl
  | cons v rest ih =>
      rw [List.countP_cons, List.map_cons, List.sum_cons, ← ih]
      by_cases hp : p v
      · simp [hp, add_comm]
      · simp [hp]

/-- Summed up along a row, the changes of a list of intervals count those that contain a
column. -/
theorem sum_changes {side : Nat} {l : List Interval} (hl : ∀ v ∈ l, v.Within side) (i j : Nat) :
    ∑ s ∈ range (j + 1), (l.map fun v => v.change i s).sum
      = (l.countP fun v => v.Contains i j : Nat) := by
  rw [sum_sum_map, natCast_countP]
  refine congrArg List.sum (List.map_congr_left fun v hv => ?_)
  exact v.sum_change (hl v hv).2.1 i j

/-- The changes of a list of intervals at one place sum up to no more than their number. -/
theorem sum_change_le (l : List Interval) (i j : Nat) :
    -(l.length : Int) ≤ (l.map fun v => v.change i j).sum
      ∧ (l.map fun v => v.change i j).sum ≤ l.length := by
  induction l with
  | nil => exact ⟨Int.le_refl _, Int.le_refl _⟩
  | cons v rest ih =>
      have hchange : -1 ≤ v.change i j ∧ v.change i j ≤ 1 := by
        rw [Interval.change]
        split_ifs <;> omega
      rw [List.map_cons, List.sum_cons, List.length_cons]
      omega

/-- Summed up over a window, the intervals that contain a cell are those that meet the window. -/
theorem sum_countP_contains (l : List Interval) (k i j : Nat) :
    ∑ r ∈ Ico (i + 1 - k) (i + 1), ((l.countP fun v => v.Contains r j : Nat) : Int)
      = (l.countP fun v => v.Meets k i j : Nat) := by
  simp only [natCast_countP]
  rw [sum_sum_map]
  simp only [Interval.sum_contains]

/-- A count falls short of the length iff some interval is not counted. -/
theorem countP_lt_length_iff {p : Interval → Bool} {l : List Interval} :
    l.countP p < l.length ↔ ∃ v ∈ l, ¬ p v = true := by
  have hall : l.countP p = l.length ↔ ∀ v ∈ l, p v = true := List.countP_eq_length
  have hle : l.countP p ≤ l.length := List.countP_le_length
  constructor
  · intro hlt
    by_contra hno
    refine absurd (hall.mpr fun v hv => ?_) (Nat.ne_of_lt hlt)
    by_contra hv'
    exact hno ⟨v, hv, hv'⟩
  · rintro ⟨v, hv, hnot⟩
    refine Nat.lt_of_le_of_ne hle fun heq => ?_
    exact hnot (hall.mp heq v hv)

/-! ## What a tally stands for -/

namespace Tally

variable {side : Nat} {t : Tally side} {l : List Interval}

/-- A tally counts a list of intervals: there are as many, all lie on the field, and the
differences are the changes they make. -/
structure Counts (t : Tally side) (l : List Interval) : Prop where
  count : t.count = l.length
  within : ∀ v ∈ l, v.Within side
  differences : ∀ i j, t.differences.entry i j = Int64.ofInt (l.map fun v => v.change i j).sum

theorem counts_empty (side : Nat) : (empty side).Counts [] where
  count := rfl
  within := fun _ hv => nomatch hv
  differences := fun i j => Table.entry_ofFn _ i j

/-- **One more interval** on the field is accepted, and counted. -/
theorem counts_add (h : t.Counts l) {v : Interval} (hv : v.Within side) :
    ∃ u, t.add v.row v.lo v.hi = .ok u ∧ u.Counts (l ++ [v]) := by
  obtain ⟨hrow, hlt, hhi⟩ := hv
  have hin : ((0 : Int) ≤ v.row ∧ (v.row : Int) < side)
      ∧ (0 : Int) ≤ v.lo ∧ (v.lo : Int) < v.hi ∧ (v.hi : Int) ≤ side := by omega
  refine ⟨_, dif_pos hin, ?_⟩
  constructor
  · show t.count + 1 = (l ++ [v]).length
    rw [h.count, List.length_append, List.length_singleton]
  · intro u hu
    rcases List.mem_append.mp hu with hl | hnew
    · exact h.within u hl
    · rw [List.mem_singleton.mp hnew]
      exact ⟨hrow, hlt, hhi⟩
  · intro i j
    have hlo : v.lo ≠ v.hi := Nat.ne_of_lt hlt
    show ((t.differences.modify ⟨v.row, _⟩ ⟨v.lo, _⟩ (· + 1)).modify ⟨v.row, _⟩ ⟨v.hi, _⟩
      (· - 1)).entry i j = _
    rw [Table.entry_modify, Table.entry_modify, h.differences, List.map_append, List.sum_append,
      Int64.ofInt_add, List.map_singleton, List.sum_singleton]
    simp only [Fin.ext_iff, Interval.change]
    -- a place in the row of `v` may be its end or its start, but not both
    by_cases hr : v.row = i.val
    · by_cases hj : v.hi = j.val
      · have hne : ¬ v.lo = j.val := fun heq => hlo (heq.trans hj.symm)
        simp [hr, hj, hne, Int64.sub_eq_add_neg]
      · by_cases hs : v.lo = j.val
        · simp [hr, hj, hs]
        · simp [hr, hj, hs]
    · simp [hr]

/-- **The cover of a tally** counts the intervals that contain each cell. -/
theorem entry_cover (h : t.Counts l) (i j : Fin side) :
    t.cover.entry i j = Int64.ofInt (l.countP fun v => v.Contains i j : Nat) := by
  have hscan := getElem_scan_add t.differences.rows[i]
    (fun s => (l.map fun v => v.change i s).sum) (fun s hs => h.differences i ⟨s, hs⟩)
    j (by omega)
  have hrow : t.cover.entry i j
      = (scan (fun sum d => sum + d) 0 t.differences.rows[i])[j.val] := by
    rw [cover, Table.entry_ofFn]
    show (t.differences.rows.map (scan (fun sum d => sum + d) 0))[i.val][j.val] = _
    rw [Vector.getElem_map]
    rfl
  rw [hrow, hscan, sum_changes h.within]

/-- **The window sums of a cover** count the intervals that meet a vertical segment. -/
theorem entry_windowSums_cover (h : t.Counts l) (k : Nat) (i j : Fin side) :
    (t.cover.windowSums k).entry i j
      = Int64.ofInt (l.countP fun v => v.Meets k i j : Nat) := by
  rw [Table.entry_windowSums _ (fun r s => (l.countP fun v => v.Contains r s : Nat))
    (entry_cover h), sum_countP_contains]

/-- A count of fewer than `2 ^ 63` intervals survives its word. -/
theorem toInt_ofInt_countP (hl : l.length < 2 ^ 63) (p : Interval → Bool) :
    (Int64.ofInt (l.countP p)).toInt = l.countP p := by
  have hle : l.countP p ≤ l.length := List.countP_le_length
  exact Int64.toInt_ofInt_of_le (by omega) (by omega)

theorem toInt_windowSums_cover (h : t.Counts l) (hl : l.length < 2 ^ 63) (k : Nat)
    (i j : Fin side) :
    ((t.cover.windowSums k).entry i j).toInt = l.countP fun v => v.Meets k i j := by
  rw [entry_windowSums_cover h, toInt_ofInt_countP hl]

/-- A vertical segment meets fewer intervals than were counted iff it misses one of them. -/
theorem windowSums_cover_lt_iff (h : t.Counts l) (hl : l.length < 2 ^ 63) (k : Nat)
    (i j : Fin side) :
    ((t.cover.windowSums k).entry i j).toInt < t.count ↔ ∃ v ∈ l, ¬ v.Meets k i j := by
  rw [toInt_windowSums_cover h hl, h.count, Int.ofNat_lt, countP_lt_length_iff]
  simp only [decide_eq_true_eq]

end Tally

end SegmentFit
