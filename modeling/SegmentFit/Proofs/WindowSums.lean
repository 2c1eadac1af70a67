import SegmentFit.Proofs.Coverage

/-!
# Window sums — a window that slides down a column

The last `k` entries down to a row can be added up anew at every row, kept as a running total
that takes in one entry and lets go of another, or taken as a difference of two prefix sums. The
prefix sums of 64-bit words may wrap where the sum over the window does not; since words are
images of integers, the difference is right nonetheless. `runningTotal_eq` is the telescoping
sum, and `windowSums_exact` puts the three together for tables of any shape.
-/

namespace SegmentFit

open Finset

/-- A running total before each place of a sequence of words: on the way to the next one it
takes in the word at the place and lets go of the one `k` places before, if there is one. -/
def runningTotal (f : Nat → Int64) (k : Nat) : Nat → Int64
  | 0 => 0
  | j + 1 => runningTotal f k j + (f j - if k ≤ j then f (j - k) else 0)

/-- A running total is the word of the sum over the places it has not let go of. -/
theorem runningTotal_eq (f : Nat → Int) {k : Nat} (hk : 0 < k) (j : Nat) :
    runningTotal (fun r => Int64.ofInt (f r)) k j = Int64.ofInt (∑ r ∈ Ico (j - k) j, f r) := by
  induction j with
  | zero =>
      rw [Nat.zero_sub, Ico_self, sum_empty]
      rfl
  | succ j ih =>
      have htop : ∑ r ∈ Ico (j - k) (j + 1), f r = (∑ r ∈ Ico (j - k) j, f r) + f j :=
        sum_Ico_succ_top (Nat.sub_le j k) f
      rw [runningTotal, ih]
      by_cases hleave : k ≤ j
      · -- the window moves on: its lowest place is the one that is let go of
        have hbottom : ∑ r ∈ Ico (j - k) (j + 1), f r
            = f (j - k) + ∑ r ∈ Ico (j + 1 - k) (j + 1), f r := by
          rw [sum_eq_sum_Ico_succ_bot (by omega), show j - k + 1 = j + 1 - k by omega]
        rw [if_pos hleave, ← Int64.ofInt_sub, ← Int64.ofInt_add]
        congr 1
        omega
      · -- the window still begins at the first place
        have hfirst : j + 1 - k = j - k := by omega
        rw [if_neg hleave, hfirst, htop, Int64.sub_zero, Int64.ofInt_add]

namespace Table

variable {h w : Nat}

/-- The word in a row and a column; outside the table there are zeros. -/
def wordAt (t : Table Int64 h w) (r c : Nat) : Int64 :=
  if hin : r < h ∧ c < w then t.entry ⟨r, hin.1⟩ ⟨c, hin.2⟩ else 0

theorem wordAt_val (t : Table Int64 h w) (r : Fin h) (c : Fin w) :
    t.wordAt r c = t.entry r c :=
  dif_pos ⟨r.isLt, c.isLt⟩

/-- The rows of a window follow each other, from its first one down to its last. -/
theorem sum_rows_eq (f : Nat → Int) {k : Int} (hk : 1 ≤ k) (j : Fin h) :
    ∑ r : Fin h with max 0 (j.val - k + 1) ≤ r.val ∧ r.val ≤ j.val, f r
      = ∑ r ∈ Ico (j + 1 - k.toNat) (j + 1), f r := by
  have hrows : Ico (j + 1 - k.toNat) (j + 1)
      = (range h).filter fun r : Nat => max 0 (j.val - k + 1) ≤ r ∧ r ≤ j.val := by
    ext r
    have hj := j.isLt
    rw [mem_Ico, mem_filter, mem_range]
    omega
  rw [hrows, sum_filter, sum_filter, ← Fin.sum_univ_eq_sum_range
    (fun r : Nat => if max 0 (j.val - k + 1) ≤ r ∧ r ≤ j.val then f r else 0) h]

/-- **Window sums** of a table of words of any shape, over any number of rows. Each is the sum
over the last `k` rows down to its own, wrapped once into a word, whatever happens to the prefix
sums that it is taken from; and it is the running total down the column. -/
theorem windowSums_exact (t : Table Int64 h w) (k : Int) (hk : 1 ≤ k) :
    ∃ sums, t.windowSums? k = .ok sums ∧ ∀ (j : Fin h) (i : Fin w),
      (sums.entry j i).toInt
          = Int.bmod (∑ r : Fin h with max 0 (j.val - k + 1) ≤ r.val ∧ r.val ≤ j.val,
              (t.entry r i).toInt) (2 ^ 64)
        ∧ sums.entry j i = runningTotal (fun r => t.wordAt r i) k.toNat (j + 1) := by
  refine ⟨t.windowSums k.toNat, if_neg (by omega), fun j i => ?_⟩
  have hentries (r : Fin h) (c : Fin w) : t.entry r c = Int64.ofInt (t.wordAt r c).toInt := by
    rw [wordAt_val, Int64.ofInt_toInt]
  have hsum := t.entry_windowSums (fun r c => (t.wordAt r c).toInt) hentries k.toNat j i
  constructor
  · have hrows := sum_rows_eq (fun r => (t.wordAt r i).toInt) hk j
    simp only [wordAt_val] at hrows
    rw [hsum, Int64.toInt_ofInt, ← hrows]
    rfl
  · have hrunning := runningTotal_eq (fun r => (t.wordAt r i).toInt) (k := k.toNat) (by omega)
      (j + 1)
    simp only [Int64.ofInt_toInt] at hrunning
    rw [hsum, hrunning]

/-- Prefix sums that wrap on the way to a window sum that does not. -/
theorem windowSums_exact_wrapping :
    (1 : Int) ≤ 1
      ∧ ((ofFn fun (_ : Fin 3) (_ : Fin 1) => Int64.ofInt (2 ^ 62)).columnSums.entry 2 0).toInt
        = -2 ^ 62
      ∧ ∃ sums, (ofFn fun (_ : Fin 3) (_ : Fin 1) => Int64.ofInt (2 ^ 62)).windowSums? 1 = .ok sums
        ∧ (sums.entry 2 0).toInt = 2 ^ 62 := by
  obtain ⟨sums, hsums, hentries⟩ :=
    windowSums_exact (ofFn fun (_ : Fin 3) (_ : Fin 1) => Int64.ofInt (2 ^ 62)) 1 (by decide)
  refine ⟨by decide, by decide +kernel, sums, hsums, (hentries 2 0).1.trans ?_⟩
  decide

end Table

end SegmentFit
