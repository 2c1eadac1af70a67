import SegmentFit.Placement
import SegmentFit.Proofs.Runs

/-!
# Placements — where segments lie and when two are disjoint

A placement is known by three numbers, and so is everything said of it here: its cells
are an interval of one line (`mem_cells`), it fits if that interval is open (`fits_iff`),
and two placements are disjoint by a comparison of their lines and starts
(`disjoint_iff_of_axis_eq`, `disjoint_rows_columns_iff`).

From this follows that the question is monotone: shorter segments fit where longer ones
do, and none is longer than the side.
-/

namespace SegmentFit

namespace Axis

/-- The line of an axis that a cell lies on. -/
def line (axis : Axis) (c : Cell) : Nat :=
  match axis with
  | .rows => c.row
  | .columns => c.col

/-- The position of a cell on its line of an axis. -/
def pos (axis : Axis) (c : Cell) : Nat :=
  match axis with
  | .rows => c.col
  | .columns => c.row

/-- A cell is known by its line and its position there, along either axis. -/
theorem cell_ext (axis : Axis) {c d : Cell} (hline : axis.line c = axis.line d)
    (hpos : axis.pos c = axis.pos d) : c = d := by
  obtain ⟨r, s⟩ := c
  cases axis with
  | rows =>
      obtain rfl : r = d.row := hline
      obtain rfl : s = d.col := hpos
      rfl
  | columns =>
      obtain rfl : s = d.col := hline
      obtain rfl : r = d.row := hpos
      rfl

end Axis

/-- A cell is open along an axis if it is open. -/
theorem Grid.openAlong_line_pos (g : Grid) (axis : Axis) (c : Cell) :
    g.openAlong axis (axis.line c) (axis.pos c) = g.isOpen c.row c.col := by
  cases axis <;> rfl

/-- Open cells lie on the grid. -/
theorem Grid.lt_side_of_openAlong {g : Grid} {axis : Axis} {line pos : Nat}
    (h : g.openAlong axis line pos = true) : line < g.side ∧ pos < g.side := by
  have hcell {i j : Nat} (hij : g.isOpen i j = true) : i < g.side ∧ j < g.side := by
    by_cases hin : i < g.side ∧ j < g.side
    · exact hin
    · rw [isOpen, dif_neg hin] at hij
      exact absurd hij Bool.false_ne_true
  cases axis with
  | rows => exact hcell h
  | columns => exact (hcell h).symm

namespace Placement

instance (g : Grid) (k : Nat) (p : Placement) : Decidable (p.Fits g k) :=
  inferInstanceAs (Decidable (∀ c ∈ p.cells k, g.isOpen c.row c.col = true))

instance (k : Nat) (p q : Placement) : Decidable (p.Disjoint k q) :=
  inferInstanceAs (Decidable (∀ c ∈ p.cells k, c ∉ q.cells k))

/-! ## Cells -/

@[simp] theorem line_cell (p : Placement) (t : Nat) : p.axis.line (p.cell t) = p.line := by
  obtain ⟨axis, line, start⟩ := p
  cases axis <;> rfl

@[simp] theorem pos_cell (p : Placement) (t : Nat) : p.axis.pos (p.cell t) = p.start + t := by
  obtain ⟨axis, line, start⟩ := p
  cases axis <;> rfl

/-- The cells of a placement are an interval of its line. -/
theorem mem_cells {p : Placement} {k : Nat} {c : Cell} :
    c ∈ p.cells k ↔
      p.axis.line c = p.line ∧ p.start ≤ p.axis.pos c ∧ p.axis.pos c < p.start + k := by
  constructor
  · intro h
    obtain ⟨t, ht, rfl⟩ := List.mem_map.mp h
    have hlt : t < k := List.mem_range.mp ht
    rw [line_cell, pos_cell]
    exact ⟨rfl, Nat.le_add_right .., Nat.add_lt_add_left hlt _⟩
  · rintro ⟨hline, hlo, hhi⟩
    refine List.mem_map.mpr ⟨p.axis.pos c - p.start, List.mem_range.mpr (by omega), ?_⟩
    refine Axis.cell_ext p.axis ?_ ?_
    · rw [line_cell, hline]
    · rw [pos_cell, Nat.add_sub_cancel' hlo]

/-- A placement fits iff the positions it takes on its line are open. -/
theorem fits_iff {g : Grid} {k : Nat} {p : Placement} :
    p.Fits g k ↔ ∀ u, p.start ≤ u → u < p.start + k → g.openAlong p.axis p.line u = true := by
  constructor
  · intro h u hlo hhi
    have hpos : p.axis.pos (p.cell (u - p.start)) = u := by
      rw [pos_cell, Nat.add_sub_cancel' hlo]
    have hmem : p.cell (u - p.start) ∈ p.cells k := by
      rw [mem_cells, line_cell, hpos]
      exact ⟨rfl, hlo, hhi⟩
    have hopen := h _ hmem
    rw [← g.openAlong_line_pos p.axis, line_cell, hpos] at hopen
    exact hopen
  · intro h c hc
    obtain ⟨hline, hlo, hhi⟩ := mem_cells.mp hc
    rw [← g.openAlong_line_pos p.axis c, hline]
    exact h _ hlo hhi

/-- A placement with cells that fits lies on the grid. -/
theorem Fits.le_side {g : Grid} {k : Nat} {p : Placement} (hk : 0 < k) (h : p.Fits g k) :
    p.line < g.side ∧ p.start + k ≤ g.side := by
  have hlast := fits_iff.mp h (p.start + k - 1) (by omega) (by omega)
  obtain ⟨hline, hstop⟩ := Grid.lt_side_of_openAlong hlast
  exact ⟨hline, by omega⟩

/-! ## Disjointness -/

theorem Disjoint.symm {k : Nat} {p q : Placement} (h : p.Disjoint k q) : q.Disjoint k p :=
  fun c hq hp => h c hp hq

/-- Placements of one axis are disjoint iff they lie on different lines or one ends
before the other starts. -/
theorem disjoint_iff_of_axis_eq {k : Nat} {p q : Placement} (hk : 0 < k)
    (haxis : p.axis = q.axis) :
    p.Disjoint k q ↔ p.line ≠ q.line ∨ p.start + k ≤ q.start ∨ q.start + k ≤ p.start := by
  constructor
  · intro h
    by_cases hline : p.line = q.line
    · refine Or.inr ?_
      by_cases hpq : p.start + k ≤ q.start
      · exact Or.inl hpq
      · -- otherwise the later start is a common cell
        refine Or.inr (Nat.not_lt.mp fun hqp => ?_)
        have hpos : p.axis.pos (p.cell (max p.start q.start - p.start))
            = max p.start q.start := by
          rw [pos_cell, Nat.add_sub_cancel' (Nat.le_max_left ..)]
        refine h (p.cell (max p.start q.start - p.start)) (mem_cells.mpr ?_) (mem_cells.mpr ?_)
        · rw [line_cell, hpos]
          exact ⟨rfl, by omega, by omega⟩
        · rw [← haxis, line_cell, hpos]
          exact ⟨hline, by omega, by omega⟩
    · exact Or.inl hline
  · intro h c hp hq
    obtain ⟨hp1, hp2, hp3⟩ := mem_cells.mp hp
    obtain ⟨hq1, hq2, hq3⟩ := mem_cells.mp hq
    rw [← haxis] at hq1 hq2 hq3
    rcases h with hline | hstart | hstart
    · exact hline (hp1.symm.trans hq1)
    · omega
    · omega

/-- A horizontal and a vertical placement meet at one cell at most, where the row of the
one crosses the column of the other. -/
theorem disjoint_rows_columns_iff {k row start col top : Nat} :
    (⟨.rows, row, start⟩ : Placement).Disjoint k ⟨.columns, col, top⟩ ↔
      ¬ ((start ≤ col ∧ col < start + k) ∧ top ≤ row ∧ row < top + k) := by
  constructor
  · rintro h ⟨hcol, hrow⟩
    exact h ⟨row, col⟩ (mem_cells.mpr ⟨rfl, hcol⟩) (mem_cells.mpr ⟨rfl, hrow⟩)
  · intro h c hp hq
    obtain ⟨hp1, hp2, hp3⟩ := mem_cells.mp hp
    obtain ⟨hq1, hq2, hq3⟩ := mem_cells.mp hq
    have hrow : c.row = row := hp1
    have hcol : c.col = col := hq1
    refine h ⟨⟨?_, ?_⟩, ?_, ?_⟩
    · rw [← hcol]; exact hp2
    · rw [← hcol]; exact hp3
    · rw [← hrow]; exact hq2
    · rw [← hrow]; exact hq3

/-! ## Monotonicity -/

/-- A longer segment from the same start covers more. -/
theorem mem_cells_mono {p : Placement} {j k : Nat} (hjk : j ≤ k) {c : Cell}
    (h : c ∈ p.cells j) : c ∈ p.cells k := by
  obtain ⟨hline, hlo, hhi⟩ := mem_cells.mp h
  exact mem_cells.mpr ⟨hline, hlo, by omega⟩

/-- Where a segment fits, so does a shorter one. -/
theorem Fits.mono {g : Grid} {p : Placement} {j k : Nat} (hjk : j ≤ k) (h : p.Fits g k) :
    p.Fits g j :=
  fun c hc => h c (mem_cells_mono hjk hc)

/-- Where two segments are disjoint, so are shorter ones. -/
theorem Disjoint.mono {p q : Placement} {j k : Nat} (hjk : j ≤ k) (h : p.Disjoint k q) :
    p.Disjoint j q :=
  fun c hp hq => h c (mem_cells_mono hjk hp) (mem_cells_mono hjk hq)

end Placement

namespace Grid

variable {g : Grid} {j k : Nat}

/-- If one segment of a length fits, so does one of any smaller length. -/
theorem FitsOne.mono (hjk : j ≤ k) (h : g.FitsOne k) : g.FitsOne j := by
  obtain ⟨p, hp⟩ := h
  exact ⟨p, hp.mono hjk⟩

/-- If a pair of a length fits, so does one of any smaller length. -/
theorem FitsPair.mono (hjk : j ≤ k) (h : g.FitsPair k) : g.FitsPair j := by
  obtain ⟨p, q, hp, hq, hpq⟩ := h
  exact ⟨p, q, hp.mono hjk, hq.mono hjk, hpq.mono hjk⟩

/-- Segments without cells fit anywhere. -/
theorem fitsPair_zero (g : Grid) : g.FitsPair 0 :=
  have hnone (c : Cell) (hc : c ∈ Placement.cells ⟨.rows, 0, 0⟩ 0) : False := nomatch hc
  ⟨⟨.rows, 0, 0⟩, ⟨.rows, 0, 0⟩, fun c hc => (hnone c hc).elim, fun c hc => (hnone c hc).elim,
    fun c hc => (hnone c hc).elim⟩

/-- No segment is longer than the side. -/
theorem FitsOne.le_side (h : g.FitsOne k) : k ≤ g.side := by
  obtain ⟨p, hp⟩ := h
  rcases Nat.eq_zero_or_pos k with rfl | hk
  · exact Nat.zero_le _
  · exact Nat.le_trans (Nat.le_add_left k p.start) (hp.le_side hk).2

/-- Of a pair that fits, one segment does. -/
theorem FitsPair.fitsOne (h : g.FitsPair k) : g.FitsOne k := by
  obtain ⟨p, _, hp, _⟩ := h
  exact ⟨p, hp⟩

end Grid

end SegmentFit
