import Mathlib.Order.Bounds.Basic
import SegmentFit.Longest
import SegmentFit.Proofs.SegmentEnds

/-!
# The longest run — what the scan over a table finds

`Table.greatest` goes through the entries of a table in reading order. `Leads` is what its
state says of the places met so far: no entry is greater than the best one, and the place
kept is the first with it. One more place preserves that (`Leads.better`), so the scan has
it at the end (`Table.greatest_leads`).

With it the answer for a single segment is the greatest length that fits
(`isGreatest_best`).
-/

namespace SegmentFit

/-! ## The scan -/

/-- What the state of a scan says of the places met so far. -/
structure Leads {α : Type} (cell : α → Cell) (value : α → Nat) (met : List α)
    (best : Nat × Option Cell) : Prop where
  bound : ∀ x ∈ met, value x ≤ best.1
  first : best = (0, none) ∨ ∃ pre x post, met = pre ++ x :: post ∧ 0 < value x
    ∧ best = (value x, some (cell x)) ∧ ∀ y ∈ pre, value y < value x

section Scan

variable {α : Type} {cell : α → Cell} {value : α → Nat} {met : List α}
  {best : Nat × Option Cell}

/-- One more place is kept only if its entry is greater than all before. -/
theorem Leads.better (h : Leads cell value met best) (x : α) :
    Leads cell value (met ++ [x]) (better best (cell x) (value x)) := by
  rw [SegmentFit.better]
  by_cases hlt : best.1 < value x
  · rw [if_pos hlt]
    have hmet (y : α) (hy : y ∈ met) : value y < value x := Nat.lt_of_le_of_lt (h.bound y hy) hlt
    -- all before are smaller, so the new place is the first with its entry
    refine ⟨fun y hy => ?_, Or.inr ⟨met, x, [], rfl, by omega, rfl, hmet⟩⟩
    rcases List.mem_append.mp hy with hold | hnew
    · exact Nat.le_of_lt (hmet y hold)
    · rw [List.mem_singleton.mp hnew]
  · -- the place kept stays the first, whatever comes after it
    rw [if_neg hlt]
    refine ⟨fun y hy => ?_, h.first.imp_right ?_⟩
    · rcases List.mem_append.mp hy with hold | hnew
      · exact h.bound y hold
      · rw [List.mem_singleton.mp hnew]
        exact Nat.not_lt.mp hlt
    · rintro ⟨pre, z, post, rfl, hrest⟩
      exact ⟨pre, z, post ++ [x], by rw [List.append_assoc, List.cons_append], hrest⟩

theorem Leads.foldl (h : Leads cell value met best) (rest : List α) :
    Leads cell value (met ++ rest)
      (rest.foldl (fun best x => SegmentFit.better best (cell x) (value x)) best) := by
  induction rest generalizing met best with
  | nil =>
      rw [List.append_nil]
      exact h
  | cons x rest ih =>
      have hrest := ih (h.better x)
      rw [List.append_assoc] at hrest
      exact hrest

end Scan

namespace Table

/-- The places of a table in reading order. -/
def places (h w : Nat) : List (Fin h × Fin w) :=
  (List.finRange h).flatMap fun i => (List.finRange w).map fun j => (i, j)

theorem mem_places {h w : Nat} (x : Fin h × Fin w) : x ∈ places h w :=
  List.mem_flatMap.mpr ⟨x.1, List.mem_finRange _, List.mem_map.mpr ⟨x.2, List.mem_finRange _, rfl⟩⟩

/-- **The scan of a table** ends at the first greatest entry in reading order. -/
theorem greatest_leads {h w : Nat} (t : Table Nat h w) :
    Leads (fun x : Fin h × Fin w => ⟨x.1, x.2⟩) (fun x => t.entry x.1 x.2) (places h w)
      t.greatest := by
  have hstart : Leads (fun x : Fin h × Fin w => ⟨x.1, x.2⟩) (fun x => t.entry x.1 x.2) []
      (0, none) := ⟨fun _ hx => (nomatch hx), Or.inl rfl⟩
  have hscan := hstart.foldl (places h w)
  rw [List.nil_append, places, List.foldl_flatMap] at hscan
  simp only [List.foldl_map] at hscan
  exact hscan

end Table

/-! ## The longest segment -/

namespace Grid

variable {g : Grid}

/-- A segment of length `k` along an axis fits. -/
def FitsOneAlong (g : Grid) (axis : Axis) (k : Nat) : Prop :=
  ∃ p : Placement, p.axis = axis ∧ p.Fits g k

theorem fitsOne_iff_along {k : Nat} :
    g.FitsOne k ↔ g.FitsOneAlong .rows k ∨ g.FitsOneAlong .columns k := by
  constructor
  · rintro ⟨p, hp⟩
    rcases haxis : p.axis with _ | _
    · exact Or.inl ⟨p, haxis, hp⟩
    · exact Or.inr ⟨p, haxis, hp⟩
  · rintro (⟨p, -, hp⟩ | ⟨p, -, hp⟩)
    · exact ⟨p, hp⟩
    · exact ⟨p, hp⟩

/-- A segment along an axis fits iff some run is as long. -/
theorem fitsOneAlong_iff {axis : Axis} {k : Nat} :
    g.FitsOneAlong axis k ↔ ∃ line stop, k ≤ g.runAt axis line stop := by
  constructor
  · rintro ⟨p, rfl, hp⟩
    rcases Nat.eq_zero_or_pos k with rfl | hk
    · exact ⟨⟨0, g.side_pos⟩, ⟨0, g.side_pos⟩, Nat.zero_le _⟩
    · obtain ⟨e, he, -⟩ := exists_end hk hp
      exact ⟨e.line, e.stop, endsAt_iff_le_runAt.mp he⟩
  · rintro ⟨line, stop, hle⟩
    have hend : g.EndsAt axis k ⟨line, stop⟩ := endsAt_iff_le_runAt.mpr hle
    exact ⟨_, rfl, hend.2⟩

/-- The greatest entry of the run lengths is the greatest length that fits along the axis. -/
theorem isGreatest_greatest_runs (g : Grid) (axis : Axis) :
    IsGreatest {k | g.FitsOneAlong axis k} (g.runs axis).greatest.1 := by
  have hleads := (g.runs axis).greatest_leads
  constructor
  · rcases hleads.first with hzero | ⟨_, x, _, -, -, hbest, -⟩
    · rw [hzero]
      exact fitsOneAlong_iff.mpr ⟨⟨0, g.side_pos⟩, ⟨0, g.side_pos⟩, Nat.zero_le _⟩
    · rw [hbest]
      cases axis with
      | rows => exact fitsOneAlong_iff.mpr ⟨x.1, x.2, Nat.le_refl _⟩
      | columns => exact fitsOneAlong_iff.mpr ⟨x.2, x.1, Nat.le_refl _⟩
  · rintro k hk
    obtain ⟨line, stop, hle⟩ := fitsOneAlong_iff.mp hk
    cases axis with
    | rows => exact hle.trans (hleads.bound (line, stop) (Table.mem_places _))
    | columns => exact hle.trans (hleads.bound (stop, line) (Table.mem_places _))

/-- **The longest run** is the greatest length of a segment that fits. -/
theorem isGreatest_best (g : Grid) : IsGreatest {k | g.FitsOne k} g.lineReceipt.best := by
  have hunion := (g.isGreatest_greatest_runs .rows).union (g.isGreatest_greatest_runs .columns)
  have hset : {k | g.FitsOne k} = {k | g.FitsOneAlong .rows k} ∪ {k | g.FitsOneAlong .columns k} :=
    Set.ext fun _ => fitsOne_iff_along
  rw [hset]
  exact hunion

end Grid

end SegmentFit
