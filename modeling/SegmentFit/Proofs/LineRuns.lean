import SegmentFit.Proofs.ExactWords

/-!
# Runs along a line — from one cell to the next, and back `k` cells

A line is scanned by the place just after its last blocked cell, and not from the run that ends
one cell before. Both come to the same: a run goes on over an open cell and is gone at a blocked
one (`sub_barrier_succ`, `get_runLengths_eq`). A number is at most the run length at a cell
exactly if so many cells up to it exist and are open (`le_runLengths_iff`).

For a grid nothing new happens. Each row of the row scan and each column of the column scan is
the scan of that line, and the columns of a grid are the rows of the transposed one.
-/

namespace SegmentFit

/-- The run behind a position grows by an open cell and is gone after a blocked one. -/
theorem sub_barrier_succ (isOpen : Nat → Bool) (t : Nat) :
    t + 1 - barrier isOpen (t + 1) = if isOpen t then t - barrier isOpen t + 1 else 0 := by
  have hle := barrier_le isOpen t
  rw [barrier]
  by_cases ho : isOpen t = true
  · rw [if_pos ho, if_pos ho]
    omega
  · rw [if_neg ho, if_neg ho]
    omega

section Line

variable {n : Nat}

/-- The cell at a position of a line; beyond its end no cell is open. -/
def openOn (line : Vector Bool n) (u : Nat) : Bool :=
  if hu : u < n then line.get ⟨u, hu⟩ else false

/-- The run length at the cell before a position, and `0` in front of the first cell. -/
def runBefore (runs : Vector Nat n) (t : Fin n) : Nat :=
  if t.val = 0 then 0 else runs.get ⟨t.val - 1, by omega⟩

/-- A line as an array of one axis. -/
def lineTensor (line : Vector Bool n) : Tensor :=
  ⟨.boolean, [n], line.toList.map fun isOpen => if isOpen then 1 else 0⟩

theorem openOn_val (line : Vector Bool n) (t : Fin n) : openOn line t = line.get t :=
  dif_pos t.isLt

theorem get_runLengths_openOn (line : Vector Bool n) (t : Fin n) :
    (runLengths line).get t = t + 1 - barrier (openOn line) (t + 1) :=
  get_runLengths line (openOn line) (fun _ hu => (dif_pos hu).symm) t

/-- Lines of the same cells have the same run lengths, whatever their lengths are called. -/
theorem toList_runLengths_congr {m : Nat} {line : Vector Bool n} {line' : Vector Bool m}
    (h : line.toList = line'.toList) : (runLengths line).toList = (runLengths line').toList := by
  have hlength : n = m := by
    have := congrArg List.length h
    simpa using this
  subst hlength
  rw [Vector.toList_inj.mp h]

/-- A line that is given as an array is measured as it stands. -/
theorem runLengths?_lineTensor (line : Vector Bool n) :
    (lineTensor line).runLengths? = .ok (runLengths line).toList := by
  have hcell (isOpen : Bool) : ((if isOpen then (1 : Int) else 0) != 0) = isOpen := by
    cases isOpen <;> rfl
  refine congrArg Except.ok (toList_runLengths_congr ?_)
  show (line.toList.map fun isOpen => if isOpen then (1 : Int) else 0).map (· != 0) = line.toList
  simp [List.map_map, Function.comp_def, hcell]

/-- **From one cell to the next**, a run grows by one or is gone. -/
theorem get_runLengths_eq (line : Vector Bool n) (t : Fin n) :
    (runLengths line).get t = if line.get t then runBefore (runLengths line) t + 1 else 0 := by
  have hbefore : runBefore (runLengths line) t = t - barrier (openOn line) t := by
    by_cases hfirst : t.val = 0
    · rw [runBefore, if_pos hfirst, hfirst]
      rfl
    · have hprev : t.val - 1 + 1 = t.val := by omega
      rw [runBefore, if_neg hfirst, get_runLengths_openOn]
      show t.val - 1 + 1 - barrier (openOn line) (t.val - 1 + 1) = _
      rw [hprev]
  rw [get_runLengths_openOn, sub_barrier_succ, openOn_val, hbefore]

/-- **Back from a cell**, its run is at least `k` iff the `k` cells up to it exist and are
open. -/
theorem le_runLengths_iff (line : Vector Bool n) (t : Fin n) (k : Int) :
    k ≤ (runLengths line).get t ↔
      k ≤ t + 1 ∧ ∀ u : Fin n, t.val - k < u.val → u ≤ t → line.get u = true := by
  by_cases hneg : k < 0
  · -- no cells are asked for
    constructor
    · intro _
      exact ⟨by omega, fun u hlo hhi => by omega⟩
    · intro _
      omega
  · obtain ⟨k, rfl⟩ : ∃ m : Nat, k = m := ⟨k.toNat, by omega⟩
    have h := le_sub_barrier_iff (openOn line) (t + 1) k
    rw [← get_runLengths_openOn] at h
    rw [Int.ofNat_le, h]
    constructor
    · rintro ⟨hk, hcells⟩
      refine ⟨by omega, fun u hlo hhi => ?_⟩
      rw [← openOn_val]
      exact hcells u (by omega) (by omega)
    · rintro ⟨hk, hcells⟩
      refine ⟨by omega, fun u hlo hhi => ?_⟩
      have hu : u < n := by omega
      have hbehind : (t.val : Int) - k < u := by omega
      have hcell := hcells ⟨u, hu⟩ hbehind (Nat.le_of_lt_succ hhi)
      rw [← openOn_val] at hcell
      exact hcell

end Line

namespace Grid

theorem line?_rows (g : Grid) (i : Fin g.side) : g.line? 0 i.val = .ok (g.row i) := by
  have haxis : Axis.ofInt? 0 = some .rows := rfl
  simp only [line?, haxis, coordinate?_natCast g i.isLt]

theorem line?_columns (g : Grid) (j : Fin g.side) : g.line? 1 j.val = .ok (g.column j) := by
  have haxis : Axis.ofInt? 1 = some .columns := rfl
  simp only [line?, haxis, coordinate?_natCast g j.isLt]

/-- The column scan is the row scan of the transposed cells, transposed. -/
theorem columnRuns_eq_transposed (g : Grid) :
    g.columnRuns
      = (⟨g.cells.transposed.rows.map runLengths⟩ : Table Nat g.side g.side).transposed := by
  ext i j
  have hcolumn : g.cells.transposed.rows[j.val] = g.column j := by
    ext u hu
    rw [column, Vector.getElem_ofFn]
    exact Table.entry_transposed g.cells ⟨u, hu⟩ j
  rw [Table.entry_transposed]
  show _ = (g.cells.transposed.rows.map runLengths)[j.val][i.val]
  rw [Vector.getElem_map, hcolumn]
  exact g.entry_runs_columns i j

end Grid

/-- **Run lengths**. Along any line they are measured without a fault; each is `0` at a blocked
cell and one more than the one before at an open cell, and it is at least `k` iff the `k` cells
up to there exist and are open. Measured in 64-bit words, as positions less the greatest blocked
position so far, they are the same. Both scans of a grid give for each line what the line gives
by itself, and the columns are scanned like the rows of the transposed grid. -/
theorem runs_exact :
    (∀ (n : Nat) (line : Vector Bool n), ∃ r : Vector Nat n,
      runLengths line = r ∧ (lineTensor line).runLengths? = .ok r.toList
      ∧ (∀ t, r.get t = if line.get t then runBefore r t + 1 else 0)
      ∧ (∀ (t : Fin n) (k : Int), k ≤ r.get t ↔
          k ≤ t + 1 ∧ ∀ u : Fin n, t.val - k < u.val → u ≤ t → line.get u = true)
      ∧ (n < 2 ^ 63 → ∀ t, ((runWords line).get t).toInt = r.get t))
    ∧ ∀ g : Grid, ∃ rows columns, g.runs? 0 = .ok rows ∧ g.runs? 1 = .ok columns
      ∧ (∀ i : Fin g.side, ∃ line, g.line? 0 i.val = .ok line
          ∧ ∀ j, rows.entry i j = (runLengths line).get j)
      ∧ (∀ j : Fin g.side, ∃ line, g.line? 1 j.val = .ok line
          ∧ ∀ i, columns.entry i j = (runLengths line).get i)
      ∧ ∃ turned, g.transposed.runs? 0 = .ok turned ∧ columns = turned.transposed := by
  constructor
  · intro n line
    exact ⟨_, rfl, runLengths?_lineTensor line, get_runLengths_eq line, le_runLengths_iff line,
      fun hn => toInt_runWords line hn⟩
  · intro g
    exact ⟨g.runs .rows, g.runs .columns, rfl, rfl,
      fun i => ⟨g.row i, g.line?_rows i, g.entry_runs_rows i⟩,
      fun j => ⟨g.column j, g.line?_columns j, fun i => g.entry_runs_columns i j⟩,
      _, rfl, g.columnRuns_eq_transposed⟩

/-- A line with a blocked cell in it, and the column of a tee. -/
theorem runs_exact_tee :
    4 < 2 ^ 63
      ∧ (lineTensor #v[true, true, false, true]).runLengths? = .ok [1, 2, 0, 1]
      ∧ (2 : Int) ≤ (runLengths #v[true, true, false, true]).get 1
      ∧ ((runWords #v[true, true, false, true]).get 1).toInt = 2
      ∧ ∃ columns, Grid.tee.runs? 1 = .ok columns ∧ columns.entry ⟨2, by decide⟩ ⟨1, by decide⟩ = 3
          ∧ ∃ turned, Grid.tee.transposed.runs? 0 = .ok turned ∧ columns = turned.transposed := by
  obtain ⟨hline, hgrid⟩ := runs_exact
  obtain ⟨r, rfl, harray, -, hback, hwords⟩ := hline 4 #v[true, true, false, true]
  have hfew : 4 < 2 ^ 63 := by decide
  obtain ⟨rows, columns, -, hcolumns, -, hdown, hturned⟩ := hgrid Grid.tee
  obtain ⟨line, hscan, hentries⟩ := hdown ⟨1, by decide⟩
  refine ⟨hfew, harray, (hback 1 2).mpr ⟨by decide, by decide⟩, hwords hfew 1, columns, hcolumns,
    ?_, hturned⟩
  rw [hentries]
  cases hscan
  decide

end SegmentFit
