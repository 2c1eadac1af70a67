import SegmentFit.Proofs.Solve

/-!
# Answers compared — from grid to grid, and from mode to mode

A cell more that is open, or another mode, may change the witness, what is counted, the phase in
which a sweep ends, and the sizes that are probed: two solves need have no step in common. So
their answers are compared by what they are, the greatest lengths that fit.

* Where cells are opened, whatever fitted still fits (`OpensTo.shows`), and no answer is lowered
  (`answer_monotone`).
* A segment is made of two disjoint halves (`FitsOne.fitsPair_half`), and either segment of a pair
  is a segment, so each mode's answer bounds the other's (`modes_bracket`).
-/

namespace SegmentFit

namespace Grid

variable {g h : Grid} {j k : Nat} {mode : Int}

/-! ## Opened cells -/

/-- Every open cell of `g` is open in `h`. -/
def OpensTo (g h : Grid) : Prop :=
  ∀ i j, g.isOpen i j = true → h.isOpen i j = true

/-- The grid with the cells of a list opened as well. -/
def opened (g : Grid) (cells : List Cell) : Grid :=
  { g with cells := Table.ofFn fun i j => g.cells.entry i j || decide (⟨i, j⟩ ∈ cells) }

/-- On the grid, the cells of the list are opened, and no others. -/
theorem isOpen_opened (g : Grid) (cells : List Cell) (i j : Fin g.side) :
    (g.opened cells).isOpen i j = true ↔ g.isOpen i j = true ∨ (⟨i, j⟩ : Cell) ∈ cells := by
  have hshown := (g.opened cells).isOpen_eq_entry i j
  rw [hshown, g.isOpen_eq_entry]
  show (Table.ofFn _).entry i j = true ↔ _
  rw [Table.entry_ofFn, Bool.or_eq_true, decide_eq_true_eq]

theorem opensTo_opened (g : Grid) (cells : List Cell) : g.OpensTo (g.opened cells) := by
  intro i j hopen
  have halong : g.openAlong .rows i j = true := hopen
  obtain ⟨hi, hj⟩ := lt_side_of_openAlong halong
  exact (g.isOpen_opened cells ⟨i, hi⟩ ⟨j, hj⟩).mpr (Or.inl hopen)

/-- Whatever fits is shown by the grid with more open cells, at the same place. -/
theorem OpensTo.shows (hopens : g.OpensTo h) : g.Shows h id :=
  fun _ p _ hp => ⟨p, fun c hc => hopens _ _ (hp c hc), fun _ hc => hc⟩

theorem OpensTo.fitsMode (hopens : g.OpensTo h) (hfit : g.FitsMode mode k) :
    h.FitsMode mode k := by
  by_cases hmode : mode = Case.lineMode
  · rw [hmode, fitsMode_line] at hfit ⊢
    exact hopens.shows.fitsOne hfit
  · rw [fitsMode_pair _ hmode] at hfit ⊢
    exact hopens.shows.fitsPair hfit

/-- A threshold that is accepted stays accepted, and with it every one below. -/
theorem OpensTo.feasible (hopens : g.OpensTo h) (hjk : j ≤ k)
    (hfeasible : g.feasible k = .ok true) : h.feasible j = .ok true := by
  rw [feasible_natCast] at hfeasible ⊢
  have hpair : g.FitsPair k := (g.accepts_iff k).mp (Except.ok.inj hfeasible)
  rw [(h.accepts_iff j).mpr (hopens.shows.fitsPair (hpair.mono hjk))]

theorem OpensTo.answer_le (hopens : g.OpensTo h) (mode : Int) :
    ∃ s s', g.sections mode = .ok s ∧ h.sections mode = .ok s'
      ∧ s.stage.answer ≤ s'.stage.answer := by
  obtain ⟨s, hsections, hgreatest⟩ := g.exists_sections_greatest mode
  obtain ⟨s', hsections', hgreatest'⟩ := h.exists_sections_greatest mode
  exact ⟨s, s', hsections, hsections', hgreatest'.2 (hopens.fitsMode hgreatest.1)⟩

/-- **Opening cells lowers no answer.** Where every open cell stays open, a threshold that is
accepted stays accepted, and with it every one below, so the answer in either mode is at least
what it was. -/
theorem answer_monotone (g : Grid) :
    (∀ h, g.OpensTo h → ∀ j k : Nat, j ≤ k → g.feasible k = .ok true → h.feasible j = .ok true)
    ∧ (∀ h, g.OpensTo h → ∀ mode, ∃ s s', g.sections mode = .ok s ∧ h.sections mode = .ok s'
        ∧ s.stage.answer ≤ s'.stage.answer)
    ∧ ∀ cells mode, ∃ s s', g.sections mode = .ok s ∧ (g.opened cells).sections mode = .ok s'
        ∧ s.stage.answer ≤ s'.stage.answer :=
  ⟨fun _ hopens _ _ hjk hfeasible => hopens.feasible hjk hfeasible,
    fun _ hopens mode => hopens.answer_le mode,
    fun cells mode => (g.opensTo_opened cells).answer_le mode⟩

theorem answer_monotone_tee :
    (tee.OpensTo (tee.opened [⟨1, 0⟩]) ∧ 1 ≤ 2 ∧ tee.feasible (2 : Nat) = .ok true)
      ∧ (tee.opened [⟨1, 0⟩]).feasible (1 : Nat) = .ok true := by
  have hpair : tee.FitsPair 2 :=
    ⟨⟨.rows, 0, 0⟩, ⟨.columns, 1, 1⟩, by decide +kernel, by decide +kernel, by decide +kernel⟩
  have hopens : tee.OpensTo (tee.opened [⟨1, 0⟩]) := tee.opensTo_opened _
  have hfeasible : tee.feasible (2 : Nat) = .ok true := by
    rw [feasible_natCast, (tee.accepts_iff 2).mpr hpair]
  exact ⟨⟨hopens, by decide, hfeasible⟩,
    tee.answer_monotone.1 _ hopens 1 2 (by decide) hfeasible⟩

/-! ## The two modes -/

/-- **A segment is split** into two disjoint ones of half its length, rounded down. -/
theorem FitsOne.fitsPair_half (hfit : g.FitsOne k) : g.FitsPair (k / 2) := by
  rcases Nat.eq_zero_or_pos (k / 2) with hzero | hpos
  · rw [hzero]
    exact g.fitsPair_zero
  · obtain ⟨p, hp⟩ := hfit
    refine ⟨p, ⟨p.axis, p.line, p.start + k / 2⟩, hp.mono (Nat.div_le_self k 2), ?_, ?_⟩
    · refine Placement.fits_iff.mpr fun u hlo hhi => ?_
      have hstart : p.start + k / 2 ≤ u := hlo
      have hstop : u < p.start + k / 2 + k / 2 := hhi
      exact Placement.fits_iff.mp hp u (by omega) (by omega)
    · have hhalves := Placement.disjoint_iff_of_axis_eq (p := p)
        (q := ⟨p.axis, p.line, p.start + k / 2⟩) hpos rfl
      exact hhalves.mpr (Or.inr (Or.inl (Nat.le_refl _)))

/-- **The modes bracket each other**: on every grid the answer for a pair lies between half the
answer for a single segment, rounded down, and that answer, which is no greater than the side. -/
theorem modes_bracket (g : Grid) :
    ∃ line, g.sections Case.lineMode = .ok line ∧ line.stage.answer ≤ g.side
      ∧ ∀ mode, mode ≠ Case.lineMode → ∃ pair, g.sections mode = .ok pair
          ∧ line.stage.answer / 2 ≤ pair.stage.answer
          ∧ pair.stage.answer ≤ line.stage.answer := by
  obtain ⟨line, hline, hlongest⟩ := g.exists_sections_greatest Case.lineMode
  simp only [fitsMode_line] at hlongest
  refine ⟨line, hline, FitsOne.le_side hlongest.1, fun mode hmode => ?_⟩
  obtain ⟨pair, hpair, hlargest⟩ := g.exists_sections_greatest mode
  simp only [fitsMode_pair g hmode] at hlargest
  exact ⟨pair, hpair, hlargest.2 (FitsOne.fitsPair_half hlongest.1),
    hlongest.2 (FitsPair.fitsOne hlargest.1)⟩

theorem modes_bracket_tee :
    (2 : Int) ≠ Case.lineMode
      ∧ ∃ line pair, tee.sections Case.lineMode = .ok line ∧ tee.sections 2 = .ok pair
          ∧ line.stage.answer / 2 ≤ pair.stage.answer
          ∧ pair.stage.answer ≤ line.stage.answer := by
  obtain ⟨line, hline, -, hbracket⟩ := tee.modes_bracket
  obtain ⟨pair, hpair, hlower, hupper⟩ := hbracket 2 (by decide)
  exact ⟨by decide, line, pair, hline, hpair, hlower, hupper⟩

end Grid

end SegmentFit
