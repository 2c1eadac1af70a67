import SegmentFit.Proofs.Longest
import SegmentFit.Proofs.Solve

/-!
# The receipt of the longest run — where the first one ends

The receipt names, for each axis, the length of the longest run and a cell. The scan that finds
them goes through the cells in reading order along both axes, so a column's runs are not met in
the order of `SegmentEnd.Before`: `Cell.Before` is the order in which the cells are read.

`Grid.LongestAlong` says what the length and the cell are: the greatest length that fits along the
axis, and the first cell where a segment of that length ends, or none if no cell is open. Both
halves of the receipt are of that kind (`longestAlong_greatest`), and the greater of their lengths
is the answer for a single segment (`lineReceipt_exact`).
-/

namespace SegmentFit

/-- A cell is read before another: it lies on an earlier row, or before it on the same. -/
def Cell.Before (c d : Cell) : Prop :=
  c.row < d.row ∨ c.row = d.row ∧ c.col < d.col

theorem Cell.Before.asymm {c d : Cell} (h : c.Before d) : ¬ d.Before c := by
  rw [Before] at *
  omega

/-! ## The first greatest entry -/

namespace Table

variable {h w : Nat}

/-- The places of a table come in reading order. -/
theorem places_pairwise (h w : Nat) :
    (places h w).Pairwise fun x y => Cell.Before ⟨x.1, x.2⟩ ⟨y.1, y.2⟩ := by
  rw [places, List.pairwise_flatMap]
  constructor
  · intro i _
    rw [List.pairwise_map]
    exact (List.pairwise_lt_finRange w).imp fun hlt => Or.inr ⟨rfl, hlt⟩
  · refine (List.pairwise_lt_finRange h).imp ?_
    intro i i' hlt x hx y hy
    obtain ⟨j, -, rfl⟩ := List.mem_map.mp hx
    obtain ⟨j', -, rfl⟩ := List.mem_map.mp hy
    exact Or.inl hlt

variable {t : Table Nat h w}

theorem greatest_snd_eq_none_iff : t.greatest.2 = none ↔ t.greatest.1 = 0 := by
  rcases t.greatest_leads.first with hzero | ⟨_, x, _, -, hpos, hbest, -⟩
  · rw [hzero]
    exact iff_of_true rfl rfl
  · rw [hbest]
    exact iff_of_false nofun (Nat.ne_of_gt hpos)

/-- **The place that the scan keeps** has the greatest entry, and no place before it has. -/
theorem greatest_first {c : Cell} (hc : t.greatest.2 = some c) :
    ∃ x : Fin h × Fin w, c = ⟨x.1, x.2⟩ ∧ t.entry x.1 x.2 = t.greatest.1
      ∧ ∀ y : Fin h × Fin w, t.greatest.1 ≤ t.entry y.1 y.2 →
          ¬ Cell.Before ⟨y.1, y.2⟩ ⟨x.1, x.2⟩ := by
  rcases t.greatest_leads.first with hzero | ⟨pre, x, post, hplaces, -, hbest, hpre⟩
  · rw [hzero] at hc
    exact nomatch hc
  · rw [hbest] at hc ⊢
    refine ⟨x, (Option.some.inj hc).symm, rfl, fun y hle hbefore => ?_⟩
    have hsorted := places_pairwise h w
    have hmem := mem_places y
    rw [hplaces] at hsorted hmem
    -- whatever stands before `x` in the list has a smaller entry, so `y` stands behind it
    rcases List.mem_append.mp hmem with hleft | hright
    · exact absurd (hpre y hleft) (Nat.not_lt.mpr hle)
    · rcases List.mem_cons.mp hright with rfl | hmore
      · exact hbefore.asymm hbefore
      · have hrest := (List.pairwise_append.mp hsorted).2.1
        exact hbefore.asymm ((List.pairwise_cons.mp hrest).1 y hmore)

end Table

/-! ## The cell where a segment ends -/

namespace SegmentEnd

variable {side : Nat}

/-- The row and the column of an end of a segment along an axis. -/
def place (axis : Axis) (e : SegmentEnd side) : Fin side × Fin side :=
  match axis with
  | .rows => (e.line, e.stop)
  | .columns => (e.stop, e.line)

theorem cell_eq (axis : Axis) (e : SegmentEnd side) :
    e.cell axis = ⟨(e.place axis).1, (e.place axis).2⟩ := by
  cases axis <;> rfl

theorem exists_place (axis : Axis) (x : Fin side × Fin side) :
    ∃ e : SegmentEnd side, e.place axis = x := by
  cases axis with
  | rows => exact ⟨⟨x.1, x.2⟩, rfl⟩
  | columns => exact ⟨⟨x.2, x.1⟩, rfl⟩

end SegmentEnd

namespace Grid

variable {g : Grid}

/-- A segment ends where the entry of the run lengths is as great as its length. -/
theorem endsAt_iff_le_entry {axis : Axis} {k : Nat} {e : SegmentEnd g.side} :
    g.EndsAt axis k e ↔ k ≤ (g.runs axis).entry (e.place axis).1 (e.place axis).2 := by
  rw [endsAt_iff_le_runAt]
  cases axis <;> exact Iff.rfl

/-- A segment of one cell fits along an axis wherever a cell is open. -/
theorem fitsOneAlong_one_iff {axis : Axis} :
    g.FitsOneAlong axis 1 ↔ ∃ i j, g.isOpen i j = true := by
  constructor
  · rintro ⟨p, -, hp⟩
    have hfirst : p.cell 0 ∈ p.cells 1 := List.mem_singleton.mpr rfl
    exact ⟨_, _, hp _ hfirst⟩
  · rintro ⟨i, j, hopen⟩
    refine ⟨⟨axis, axis.line ⟨i, j⟩, axis.pos ⟨i, j⟩⟩, rfl, Placement.fits_iff.mpr ?_⟩
    intro u hlo hhi
    obtain rfl : u = axis.pos ⟨i, j⟩ := Nat.le_antisymm (Nat.le_of_lt_succ hhi) hlo
    exact (g.openAlong_line_pos axis ⟨i, j⟩).trans hopen

/-! ## The receipt -/

/-- A length and a cell that tell of the longest run along an axis. -/
structure LongestAlong (g : Grid) (axis : Axis) (best : Nat) (stop : Option Cell) : Prop where
  greatest : IsGreatest {k | g.FitsOneAlong axis k} best
  blocked : stop = none ↔ ∀ i j, g.isOpen i j = false
  /-- A segment of the greatest length ends at the cell, and none at a cell that is read before. -/
  first : ∀ c, stop = some c → ∃ e, g.EndsAt axis best e ∧ e.cell axis = c
    ∧ ∀ d, g.EndsAt axis best d → ¬ (d.cell axis).Before c

theorem greatest_runs_eq_zero_iff (g : Grid) (axis : Axis) :
    (g.runs axis).greatest.1 = 0 ↔ ∀ i j, g.isOpen i j = false := by
  have hgreatest := g.isGreatest_greatest_runs axis
  constructor
  · intro hzero i j
    rw [← Bool.not_eq_true]
    intro hopen
    have hle := hgreatest.2 (fitsOneAlong_one_iff.mpr ⟨i, j, hopen⟩)
    omega
  · intro hblocked
    by_contra hpos
    obtain ⟨p, haxis, hp⟩ := hgreatest.1
    have hone : g.FitsOneAlong axis 1 := ⟨p, haxis, hp.mono (Nat.pos_of_ne_zero hpos)⟩
    obtain ⟨i, j, hopen⟩ := fitsOneAlong_one_iff.mp hone
    exact Bool.false_ne_true ((hblocked i j).symm.trans hopen)

/-- **What the scan finds along an axis** is the longest run and where the first one ends. -/
theorem longestAlong_greatest (g : Grid) (axis : Axis) :
    g.LongestAlong axis (g.runs axis).greatest.1 (g.runs axis).greatest.2 where
  greatest := g.isGreatest_greatest_runs axis
  blocked := by rw [Table.greatest_snd_eq_none_iff, greatest_runs_eq_zero_iff]
  first := by
    intro c hc
    obtain ⟨x, rfl, hentry, hfirst⟩ := Table.greatest_first hc
    obtain ⟨e, rfl⟩ := SegmentEnd.exists_place axis x
    refine ⟨e, endsAt_iff_le_entry.mpr (Nat.le_of_eq hentry.symm), e.cell_eq axis, ?_⟩
    intro d hd
    rw [d.cell_eq axis]
    exact hfirst (d.place axis) (endsAt_iff_le_entry.mp hd)

/-- **The receipt of the longest run** has for each axis the longest run and the cell where the
first one ends, in reading order, or no cell if none is open. The longer of the two is the answer
for a single segment. -/
theorem lineReceipt_exact (g : Grid) :
    g.LongestAlong .rows g.lineReceipt.bestRow g.lineReceipt.rowEnd
      ∧ g.LongestAlong .columns g.lineReceipt.bestColumn g.lineReceipt.columnEnd
      ∧ g.lineReceipt.best = max g.lineReceipt.bestRow g.lineReceipt.bestColumn
      ∧ ∃ s, g.sections Case.lineMode = .ok s ∧ s.stage = .line g.lineReceipt
          ∧ s.stage.answer = g.lineReceipt.best := by
  have hstage : g.stage Case.lineMode = .ok (.line g.lineReceipt) := rfl
  obtain ⟨grid, hsections⟩ := g.sections_eq hstage
  exact ⟨g.longestAlong_greatest .rows, g.longestAlong_greatest .columns, rfl, _, hsections, rfl,
    rfl⟩

end Grid

end SegmentFit
