import SegmentFit.Runs

/-!
# Run lengths — what the scanner measures

Both scanners keep, for each line, the place just after the last blocked cell met so
far. `barrier` is that place as a recursion along the line, for any line of truth
values, and the two scanners are shown to compute it: rows from the left, columns from
the top.

The headline is `le_runAt_iff`: a run length is at least `k` exactly if the `k` cells up
to that position exist and are all open.
-/

namespace SegmentFit

/-- One past the last blocked position below `t`, `0` if there is none. -/
def barrier (isOpen : Nat → Bool) : Nat → Nat
  | 0 => 0
  | t + 1 => if isOpen t then barrier isOpen t else t + 1

/-- A barrier lies at or before `s` iff every cell from `s` on is open. -/
theorem barrier_le_iff (isOpen : Nat → Bool) (t s : Nat) :
    barrier isOpen t ≤ s ↔ ∀ u, s ≤ u → u < t → isOpen u = true := by
  induction t with
  | zero =>
      constructor
      · intro _ u _ hu
        exact absurd hu (Nat.not_lt_zero u)
      · intro _
        exact Nat.zero_le s
  | succ t ih =>
      rw [barrier]
      by_cases ho : isOpen t = true
      · rw [if_pos ho, ih]
        constructor
        · intro h u hs hu
          rcases Nat.lt_succ_iff_lt_or_eq.mp hu with hlt | heq
          · exact h u hs hlt
          · rw [heq]; exact ho
        · intro h u hs hu
          exact h u hs (Nat.lt_succ_of_lt hu)
      · rw [if_neg ho]
        constructor
        · intro h u hs hu
          exact absurd hu (by omega)
        · intro h
          -- a barrier beyond `s` would leave the blocked cell `t` among the open ones
          by_cases hts : t + 1 ≤ s
          · exact hts
          · exact absurd (h t (by omega) (Nat.lt_succ_self t)) ho

theorem barrier_le (isOpen : Nat → Bool) (t : Nat) : barrier isOpen t ≤ t :=
  (barrier_le_iff isOpen t t).mpr fun _ hlo hhi => absurd hhi (Nat.not_lt.mpr hlo)

/-- The cells behind a barrier number at least `k` iff the last `k` of them are open. -/
theorem le_sub_barrier_iff (isOpen : Nat → Bool) (t k : Nat) :
    k ≤ t - barrier isOpen t ↔
      k ≤ t ∧ ∀ u, t - k ≤ u → u < t → isOpen u = true := by
  rw [← barrier_le_iff]
  have hle := barrier_le isOpen t
  constructor
  · intro h
    exact ⟨by omega, by omega⟩
  · rintro ⟨hk, h⟩
    omega

/-! ## The scanners compute barriers -/

/-- The barriers of a line are those of its cells. -/
theorem getElem_barriers {n : Nat} (cells : Vector Bool n) (isOpen : Nat → Bool)
    (same : ∀ (u : Nat) (hu : u < n), cells[u] = isOpen u) (t : Nat) (ht : t < n) :
    (barriers cells)[t] = barrier isOpen (t + 1) := by
  induction t with
  | zero =>
      show (scan _ _ _)[0] = _
      rw [getElem_scan_zero, Vector.getElem_zipIdx]
      show (if cells[0] then 0 else 0 + 0 + 1) = if isOpen 0 then 0 else 0 + 1
      rw [same 0 ht]
  | succ t ih =>
      -- the state before the cell is the barrier below it
      have hprev := ih (by omega)
      show (scan _ _ _)[t + 1] = _
      rw [getElem_scan_succ, Vector.getElem_zipIdx]
      show (if cells[t + 1] then (barriers cells)[t] else 0 + (t + 1) + 1)
        = if isOpen (t + 1) then barrier isOpen (t + 1) else t + 1 + 1
      rw [same (t + 1) ht, hprev, Nat.zero_add]

/-- A run length is how far a cell lies behind the barrier of the line. -/
theorem get_runLengths {n : Nat} (cells : Vector Bool n) (isOpen : Nat → Bool)
    (same : ∀ (u : Nat) (hu : u < n), cells[u] = isOpen u) (t : Fin n) :
    (runLengths cells).get t = t + 1 - barrier isOpen (t + 1) := by
  show (Vector.ofFn fun t => t + 1 - (barriers cells).get t)[t.val] = _
  rw [Vector.getElem_ofFn, ← getElem_barriers cells isOpen same t t.isLt]
  rfl

namespace Grid

variable (g : Grid)

/-- The cells of a grid, looked up by coordinates that lie on it. -/
theorem isOpen_eq_entry (i j : Fin g.side) : g.isOpen i j = g.cells.entry i j :=
  dif_pos ⟨i.isLt, j.isLt⟩

/-- The entries of the column barriers are the barriers of the columns. -/
theorem entry_columnBarriers (j : Fin g.side) (t : Nat) (ht : t < g.side) :
    g.columnBarriers.entry ⟨t, ht⟩ j = barrier (fun u => g.isOpen u j) (t + 1) := by
  induction t with
  | zero =>
      have hcell : g.cells.rows[0][j.val] = g.isOpen 0 j := (g.isOpen_eq_entry ⟨0, ht⟩ j).symm
      show g.columnBarriers.rows[0][j.val] = _
      rw [columnBarriers, getElem_scan_zero, Vector.getElem_zipWith, Vector.getElem_zipIdx,
        Vector.getElem_replicate, hcell]
      rfl
  | succ t ih =>
      have hprev := ih (by omega)
      have hcell : g.cells.rows[t + 1][j.val] = g.isOpen (t + 1) j :=
        (g.isOpen_eq_entry ⟨t + 1, ht⟩ j).symm
      show g.columnBarriers.rows[t + 1][j.val] = _
      rw [columnBarriers, getElem_scan_succ, Vector.getElem_zipWith, Vector.getElem_zipIdx, hcell]
      show (if g.isOpen (t + 1) j then g.columnBarriers.entry ⟨t, by omega⟩ j
          else 0 + (t + 1) + 1)
        = if g.isOpen (t + 1) j then barrier (fun u => g.isOpen u j) (t + 1) else t + 1 + 1
      rw [hprev, Nat.zero_add]

/-! ## Runs along an axis -/

/-- Whether the cell at a position of a line is open. -/
def openAlong (axis : Axis) (line pos : Nat) : Bool :=
  match axis with
  | .rows => g.isOpen line pos
  | .columns => g.isOpen pos line

/-- The length of the run that ends at a position of a line. -/
def runAt (axis : Axis) (line stop : Fin g.side) : Nat :=
  match axis with
  | .rows => (g.runs .rows).entry line stop
  | .columns => (g.runs .columns).entry stop line

/-- A row of a grid is measured as a line. -/
theorem entry_runs_rows (i j : Fin g.side) :
    (g.runs .rows).entry i j = (runLengths (g.row i)).get j := by
  show (g.cells.rows.map runLengths)[i.val][j.val] = _
  rw [Vector.getElem_map]
  rfl

/-- A run ends at a position and starts behind the barrier. -/
theorem runAt_eq (axis : Axis) (line stop : Fin g.side) :
    g.runAt axis line stop
      = stop + 1 - barrier (fun u => g.openAlong axis line u) (stop + 1) := by
  cases axis with
  | rows =>
      show (g.runs .rows).entry line stop = _
      rw [entry_runs_rows]
      exact get_runLengths _ (fun u => g.isOpen line u)
        (fun u hu => (g.isOpen_eq_entry line ⟨u, hu⟩).symm) stop
  | columns =>
      show (Table.ofFn fun i j : Fin g.side => i + 1 - g.columnBarriers.entry i j).entry stop line
        = _
      rw [Table.entry_ofFn, entry_columnBarriers]
      rfl

/-- A column is measured as the line of its cells, though all columns are scanned at once. -/
theorem entry_runs_columns (i j : Fin g.side) :
    (g.runs .columns).entry i j = (runLengths (g.column j)).get i := by
  have hcells (u : Nat) (hu : u < g.side) : (g.column j)[u] = g.openAlong .columns j u := by
    rw [column, Vector.getElem_ofFn]
    exact (g.isOpen_eq_entry ⟨u, hu⟩ j).symm
  rw [get_runLengths _ _ hcells, ← g.runAt_eq .columns j i]
  rfl

/-- No run is longer than the side. -/
theorem runAt_le (axis : Axis) (line stop : Fin g.side) : g.runAt axis line stop ≤ g.side := by
  rw [runAt_eq]
  omega

/-- **What a run length says**: it is at least `k` iff the `k` cells up to the position
exist and are all open. -/
theorem le_runAt_iff (axis : Axis) (k : Nat) (line stop : Fin g.side) :
    k ≤ g.runAt axis line stop ↔
      k ≤ stop + 1 ∧ ∀ u, stop + 1 - k ≤ u → u ≤ stop → g.openAlong axis line u = true := by
  rw [runAt_eq, le_sub_barrier_iff]
  constructor
  · rintro ⟨hk, h⟩
    exact ⟨hk, fun u hlo hhi => h u hlo (Nat.lt_succ_of_le hhi)⟩
  · rintro ⟨hk, h⟩
    exact ⟨hk, fun u hlo hhi => h u hlo (Nat.le_of_lt_succ hhi)⟩

end Grid

end SegmentFit
