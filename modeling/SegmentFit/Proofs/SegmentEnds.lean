import Mathlib.Data.Finset.Card
import Mathlib.Data.Fintype.Prod
import SegmentFit.Proofs.Placements
import SegmentFit.Sweep

/-!
# Segment ends — the sweep's view of placements

The sweep meets placements by the cells where they end, line by line. Here that view is
matched with placements: `mem_segmentEnds` says which ends are met, `exists_end` that
every placement with cells has one, and `segmentEnds_pairwise` in which order they come.

The sweep compares each end with the first one only. That loses nothing
(`clears_first_of_clears`): an end that is disjoint from some earlier end is disjoint from
the first, because the first starts no later and lies on no later line.
-/

namespace SegmentFit

namespace SegmentEnd

variable {side k : Nat}

/-- The end of a segment is known by its line and its place on it. -/
theorem eq_of_line_stop {a b : SegmentEnd side} (hline : a.line = b.line)
    (hstop : a.stop = b.stop) : a = b := by
  obtain ⟨l, s⟩ := a
  obtain rfl : l = b.line := hline
  obtain rfl : s = b.stop := hstop
  rfl

instance : Fintype (SegmentEnd side) :=
  Fintype.ofEquiv (Fin side × Fin side)
    ⟨fun x => ⟨x.1, x.2⟩, fun e => (e.line, e.stop), fun _ => rfl, fun _ => rfl⟩

/-- The placement of length `k` that ends at a position of a line. -/
def placement (axis : Axis) (k : Nat) (e : SegmentEnd side) : Placement :=
  ⟨axis, e.line, e.stop + 1 - k⟩

/-- The cell where a segment along an axis ends. -/
def cell (axis : Axis) (e : SegmentEnd side) : Cell :=
  match axis with
  | .rows => ⟨e.line, e.stop⟩
  | .columns => ⟨e.stop, e.line⟩

/-- The order in which ends are met: line by line, and along each line. -/
def Before (a b : SegmentEnd side) : Prop :=
  a.line < b.line ∨ a.line = b.line ∧ a.stop < b.stop

instance (a b : SegmentEnd side) : Decidable (a.Before b) :=
  inferInstanceAs (Decidable (_ ∨ _))

/-- An end with a property that no earlier end has. -/
def First (P : SegmentEnd side → Prop) (e : SegmentEnd side) : Prop :=
  P e ∧ ∀ d, P d → ¬ d.Before e

/-! ## The order of ends -/

theorem Before.irrefl (a : SegmentEnd side) : ¬ a.Before a := by
  rintro (hlt | ⟨-, hlt⟩)
  · exact absurd hlt (lt_irrefl _)
  · exact absurd hlt (lt_irrefl _)

theorem Before.trans {a b c : SegmentEnd side} (hab : a.Before b) (hbc : b.Before c) :
    a.Before c := by
  rw [Before] at *
  omega

/-- Of two ends that are not the same, one comes first. -/
theorem before_or_eq_or_before (a b : SegmentEnd side) : a.Before b ∨ a = b ∨ b.Before a := by
  by_cases hline : a.line = b.line
  · by_cases hstop : a.stop = b.stop
    · exact Or.inr (Or.inl (eq_of_line_stop hline hstop))
    · rw [Before, Before]
      omega
  · rw [Before, Before]
    omega

/-! ## The comparison with the first end -/

/-- A segment clears an earlier end on another line, or that lies far enough behind. -/
theorem clears_iff {a b : SegmentEnd side} :
    a.clears k b = true ↔ a.line < b.line ∨ a.line = b.line ∧ a.stop + k ≤ b.stop.val := by
  simp [clears]

/-- An end that clears another clears what the other clears, if it comes before it. -/
theorem clears_first_of_clears {first a b : SegmentEnd side} (h : first = a ∨ first.Before a)
    (hab : a.clears k b = true) : first.clears k b = true := by
  rcases h with rfl | hlt
  · exact hab
  · -- `first` lies on an earlier line than `a`, or stops before it on the same
    rw [clears_iff] at *
    rw [Before] at hlt
    omega

theorem before_of_clears {a b : SegmentEnd side} (hk : 0 < k) (h : a.clears k b = true) :
    a.Before b := by
  rw [clears_iff] at h
  rw [Before]
  omega

/-- The same-axis test says whether an end and an earlier one belong to disjoint placements. -/
theorem clears_iff_disjoint {axis : Axis} {a b : SegmentEnd side} (hk : 0 < k)
    (ha : k ≤ a.stop + 1) (hab : a.Before b) :
    a.clears k b = true ↔ (a.placement axis k).Disjoint k (b.placement axis k) := by
  have haxis : (a.placement axis k).axis = (b.placement axis k).axis := rfl
  rw [clears_iff, Placement.disjoint_iff_of_axis_eq hk haxis]
  show _ ↔ a.line.val ≠ b.line.val ∨ a.stop.val + 1 - k + k ≤ b.stop.val + 1 - k
    ∨ b.stop.val + 1 - k + k ≤ a.stop.val + 1 - k
  rw [Before] at hab
  omega

end SegmentEnd

/-! ## Ends on a grid -/

namespace Grid

variable (g : Grid)

/-- A placement of length `k` that fits ends at a position of a line. -/
def EndsAt (axis : Axis) (k : Nat) (e : SegmentEnd g.side) : Prop :=
  k ≤ e.stop + 1 ∧ (e.placement axis k).Fits g k

instance (axis : Axis) (k : Nat) (e : SegmentEnd g.side) : Decidable (g.EndsAt axis k e) :=
  inferInstanceAs (Decidable (_ ∧ _))

/-- The ends of the placements of length `k` along an axis. -/
def ends (axis : Axis) (k : Nat) : Finset (SegmentEnd g.side) :=
  {e | g.EndsAt axis k e}

variable {g} {axis : Axis} {k : Nat}

@[simp] theorem mem_ends {e : SegmentEnd g.side} : e ∈ g.ends axis k ↔ g.EndsAt axis k e := by
  simp [ends]

/-- A placement of length `k` ends where a run of at least that length does. -/
theorem endsAt_iff_le_runAt {e : SegmentEnd g.side} :
    g.EndsAt axis k e ↔ k ≤ g.runAt axis e.line e.stop := by
  rw [le_runAt_iff, EndsAt, Placement.fits_iff]
  show (k ≤ e.stop.val + 1 ∧ ∀ u, e.stop.val + 1 - k ≤ u → u < e.stop.val + 1 - k + k → _) ↔ _
  constructor
  · rintro ⟨hk, h⟩
    exact ⟨hk, fun u hlo hhi => h u hlo (by omega)⟩
  · rintro ⟨hk, h⟩
    exact ⟨hk, fun u hlo hhi => h u hlo (by omega)⟩

/-- Every placement with cells that fits has an end. -/
theorem exists_end {p : Placement} (hk : 0 < k) (h : p.Fits g k) :
    ∃ e, g.EndsAt p.axis k e ∧ e.placement p.axis k = p := by
  obtain ⟨hline, hle⟩ := h.le_side hk
  have hstop : p.start + k - 1 < g.side := by omega
  have hstart : p.start + k - 1 + 1 - k = p.start := by omega
  have hp : (⟨⟨p.line, hline⟩, ⟨p.start + k - 1, hstop⟩⟩ : SegmentEnd g.side).placement p.axis k
      = p := by
    show (⟨p.axis, p.line, p.start + k - 1 + 1 - k⟩ : Placement) = p
    rw [hstart]
  refine ⟨⟨⟨p.line, hline⟩, ⟨p.start + k - 1, hstop⟩⟩, ⟨?_, ?_⟩, hp⟩
  · show k ≤ p.start + k - 1 + 1
    omega
  · rw [hp]
    exact h

/-! ## Pairs by their ends -/

/-- Two disjoint placements of length `k` along an axis fit. -/
def FitsPairAlong (g : Grid) (axis : Axis) (k : Nat) : Prop :=
  ∃ p q : Placement, (p.axis = axis ∧ q.axis = axis) ∧ p.Fits g k ∧ q.Fits g k ∧ p.Disjoint k q

/-- A placement along an axis ends at `e` that is disjoint from one that ends earlier. -/
def ClosesPair (g : Grid) (axis : Axis) (k : Nat) (e : SegmentEnd g.side) : Prop :=
  g.EndsAt axis k e ∧ ∃ d, g.EndsAt axis k d ∧ d.Before e
    ∧ (d.placement axis k).Disjoint k (e.placement axis k)

/-- A vertical placement ends at `e` that is disjoint from a horizontal one. -/
def ClosesCross (g : Grid) (k : Nat) (e : SegmentEnd g.side) : Prop :=
  g.EndsAt .columns k e ∧ ∃ d, g.EndsAt .rows k d
    ∧ (d.placement .rows k).Disjoint k (e.placement .columns k)

/-- A vertical placement ends at `e` that is disjoint from a vertical one that ends
earlier, or from a horizontal one. -/
def ClosesColumn (g : Grid) (k : Nat) (e : SegmentEnd g.side) : Prop :=
  g.ClosesPair .columns k e ∨ g.ClosesCross k e

/-- Two disjoint placements of one axis fit iff one of them closes the pair. -/
theorem fitsPairAlong_iff (hk : 0 < k) :
    g.FitsPairAlong axis k ↔ ∃ e, g.ClosesPair axis k e := by
  constructor
  · rintro ⟨p, q, ⟨rfl, haxis⟩, hp, hq, hpq⟩
    obtain ⟨a, ha, hpa⟩ := exists_end hk hp
    obtain ⟨b, hb, hqb⟩ := exists_end hk hq
    rw [haxis] at hb hqb
    rw [← hpa, ← hqb] at hpq
    rcases a.before_or_eq_or_before b with hlt | rfl | hlt
    · exact ⟨b, hb, a, ha, hlt, hpq⟩
    · -- a placement with cells is not disjoint from itself
      have hself := (Placement.disjoint_iff_of_axis_eq hk rfl).mp hpq
      omega
    · exact ⟨a, ha, b, hb, hlt, hpq.symm⟩
  · rintro ⟨e, he, d, hd, -, hdisj⟩
    exact ⟨d.placement axis k, e.placement axis k, ⟨rfl, rfl⟩, hd.2, he.2, hdisj⟩

/-- **Every pair is closed** in the row phase or in the column phase. -/
theorem fitsPair_iff (hk : 0 < k) :
    g.FitsPair k ↔ g.FitsPairAlong .rows k ∨ ∃ e, g.ClosesColumn k e := by
  constructor
  · rintro ⟨p, q, hp, hq, hpq⟩
    -- a pair of both axes is closed by its vertical placement
    have hcross {p q : Placement} (hpax : p.axis = .rows) (hqax : q.axis = .columns)
        (hp : p.Fits g k) (hq : q.Fits g k) (hpq : p.Disjoint k q) :
        ∃ e, g.ClosesColumn k e := by
      obtain ⟨a, ha, hpa⟩ := exists_end hk hp
      obtain ⟨b, hb, hqb⟩ := exists_end hk hq
      rw [hpax] at ha hpa
      rw [hqax] at hb hqb
      rw [← hpa, ← hqb] at hpq
      exact ⟨b, Or.inr ⟨hb, a, ha, hpq⟩⟩
    rcases hpax : p.axis with _ | _
    · rcases hqax : q.axis with _ | _
      · exact Or.inl ⟨p, q, ⟨hpax, hqax⟩, hp, hq, hpq⟩
      · exact Or.inr (hcross hpax hqax hp hq hpq)
    · rcases hqax : q.axis with _ | _
      · exact Or.inr (hcross hqax hpax hq hp hpq.symm)
      · obtain ⟨e, he⟩ := (fitsPairAlong_iff hk).mp ⟨p, q, ⟨hpax, hqax⟩, hp, hq, hpq⟩
        exact Or.inr ⟨e, Or.inl he⟩
  · rintro (⟨p, q, -, hp, hq, hpq⟩ | ⟨e, ⟨he, d, hd, -, hdisj⟩ | ⟨he, d, hd, hdisj⟩⟩)
    · exact ⟨p, q, hp, hq, hpq⟩
    · exact ⟨_, _, hd.2, he.2, hdisj⟩
    · exact ⟨_, _, hd.2, he.2, hdisj⟩

/-! ## The list of ends that the sweep goes through -/

/-- The ends that are listed are the ends of segments that fit. -/
theorem mem_segmentEnds {e : SegmentEnd g.side} :
    e ∈ g.segmentEnds axis k ↔ g.EndsAt axis k e := by
  rw [endsAt_iff_le_runAt, segmentEnds, List.mem_flatMap]
  constructor
  · rintro ⟨line, -, hmem⟩
    obtain ⟨stop, hstop, rfl⟩ := List.mem_map.mp hmem
    have hle := of_decide_eq_true (List.mem_filter.mp hstop).2
    cases axis <;> exact hle
  · intro hle
    refine ⟨e.line, List.mem_finRange _, List.mem_map.mpr ⟨e.stop, List.mem_filter.mpr
      ⟨List.mem_finRange _, decide_eq_true ?_⟩, rfl⟩⟩
    cases axis <;> exact hle

/-- The ends come line by line, and in order along each line. -/
theorem segmentEnds_pairwise (g : Grid) (axis : Axis) (k : Nat) :
    (g.segmentEnds axis k).Pairwise SegmentEnd.Before := by
  have hrange : (List.finRange g.side).Pairwise (· < ·) := List.pairwise_lt_finRange g.side
  rw [segmentEnds, List.pairwise_flatMap]
  constructor
  · intro line _
    rw [List.pairwise_map]
    exact (hrange.filter _).imp fun hlt => Or.inr ⟨rfl, hlt⟩
  · refine hrange.imp ?_
    intro l m hlm a ha b hb
    obtain ⟨s, -, rfl⟩ := List.mem_map.mp ha
    obtain ⟨t, -, rfl⟩ := List.mem_map.mp hb
    exact Or.inl hlm

section Head

variable {first : SegmentEnd g.side} {rest : List (SegmentEnd g.side)} {e : SegmentEnd g.side}

/-- The first end in the list is the end of a segment that fits. -/
theorem endsAt_head (hlist : g.segmentEnds axis k = first :: rest) : g.EndsAt axis k first := by
  rw [← mem_segmentEnds, hlist]
  exact List.mem_cons_self

/-- No end comes before the first one in the list. -/
theorem head_eq_or_before (hlist : g.segmentEnds axis k = first :: rest)
    (he : g.EndsAt axis k e) : first = e ∨ first.Before e := by
  have hmem := mem_segmentEnds.mpr he
  have hsorted := g.segmentEnds_pairwise axis k
  rw [hlist] at hmem hsorted
  rcases List.mem_cons.mp hmem with heq | hrest
  · exact Or.inl heq.symm
  · exact Or.inr ((List.pairwise_cons.mp hsorted).1 e hrest)

/-- The head of the list is the first end of all. -/
theorem first_head (hlist : g.segmentEnds axis k = first :: rest) :
    SegmentEnd.First (g.EndsAt axis k) first := by
  refine ⟨endsAt_head hlist, fun d hd hlt => ?_⟩
  rcases head_eq_or_before hlist hd with rfl | hafter
  · exact SegmentEnd.Before.irrefl _ hlt
  · exact SegmentEnd.Before.irrefl _ (hlt.trans hafter)

/-- **The first end decides**: an end closes a pair iff it clears the first end of all. -/
theorem clears_head_iff (hk : 0 < k) (hlist : g.segmentEnds axis k = first :: rest)
    (he : g.EndsAt axis k e) : first.clears k e = true ↔ g.ClosesPair axis k e := by
  have hfirst := endsAt_head hlist
  constructor
  · intro hclears
    have hlt := SegmentEnd.before_of_clears hk hclears
    exact ⟨he, first, hfirst, hlt, (SegmentEnd.clears_iff_disjoint hk hfirst.1 hlt).mp hclears⟩
  · rintro ⟨-, d, hd, hlt, hdisj⟩
    exact SegmentEnd.clears_first_of_clears (head_eq_or_before hlist hd)
      ((SegmentEnd.clears_iff_disjoint hk hd.1 hlt).mpr hdisj)

/-- An end that closes no pair is not clear of the first one. -/
theorem not_clears_head (hk : 0 < k) (hlist : g.segmentEnds axis k = first :: rest)
    (he : e ∈ g.segmentEnds axis k) (hno : ¬ g.ClosesPair axis k e) :
    ¬ first.clears k e = true := by
  rw [clears_head_iff hk hlist (mem_segmentEnds.mp he)]
  exact hno

/-- An end that does not clear the first one lies on its line, fewer than `k` positions
behind it. -/
theorem near_of_not_clears (hlist : g.segmentEnds axis k = first :: rest)
    (he : g.EndsAt axis k e) (hclears : ¬ first.clears k e = true) :
    e.line = first.line ∧ first.stop ≤ e.stop ∧ e.stop.val < first.stop + k := by
  have hafter := head_eq_or_before hlist he
  rw [SegmentEnd.clears_iff] at hclears
  rcases hafter with rfl | hlt
  · omega
  · rw [SegmentEnd.Before] at hlt
    omega

end Head

/-- No end is listed twice. -/
theorem segmentEnds_nodup (g : Grid) (axis : Axis) (k : Nat) :
    (g.segmentEnds axis k).Nodup := by
  refine (g.segmentEnds_pairwise axis k).imp ?_
  rintro a b hab rfl
  exact SegmentEnd.Before.irrefl a hab

/-- As many ends are met as there are. -/
theorem length_filter_segmentEnds (g : Grid) (axis : Axis) (k : Nat)
    (P : SegmentEnd g.side → Prop) [DecidablePred P] :
    ((g.segmentEnds axis k).filter fun e => decide (P e)).length
      = ((g.ends axis k).filter P).card := by
  rw [← List.toFinset_card_of_nodup ((g.segmentEnds_nodup axis k).filter _)]
  congr 1
  ext e
  simp [mem_segmentEnds]

/-- The list can be cut at the first end with a property that some end has. -/
theorem exists_split {P : SegmentEnd g.side → Prop} (hP : ∀ e, P e → g.EndsAt axis k e)
    (h : ∃ e, P e) :
    ∃ pre last post, g.segmentEnds axis k = pre ++ last :: post ∧ (∀ e ∈ pre, ¬ P e)
      ∧ P last := by
  classical
  obtain ⟨e, he⟩ := h
  have hmem := mem_segmentEnds.mpr (hP e he)
  cases hfind : (g.segmentEnds axis k).find? fun d => decide (P d) with
  | none =>
      have hnone := List.find?_eq_none.mp hfind e hmem
      exact absurd (decide_eq_true he) hnone
  | some last =>
      obtain ⟨hlast, pre, post, hlist, hpre⟩ := List.find?_eq_some_iff_append.mp hfind
      refine ⟨pre, last, post, hlist, fun d hd => ?_, of_decide_eq_true hlast⟩
      simpa using hpre d hd

/-- Where the list is cut at the first end with a property, that end is the first of all,
and the part before it holds the ends before it. -/
theorem first_of_split {P : SegmentEnd g.side → Prop} {pre post : List (SegmentEnd g.side)}
    {last : SegmentEnd g.side} (hP : ∀ e, P e → g.EndsAt axis k e)
    (hlist : g.segmentEnds axis k = pre ++ last :: post) (hpre : ∀ e ∈ pre, ¬ P e)
    (hlast : P last) :
    SegmentEnd.First P last ∧ ((g.ends axis k).filter fun e => e.Before last).card = pre.length := by
  -- the list is in order, so the cut parts the ends before `last` from the others
  have hsorted := g.segmentEnds_pairwise axis k
  rw [hlist, List.pairwise_append] at hsorted
  obtain ⟨-, hpost, hcut⟩ := hsorted
  have hbefore (e : SegmentEnd g.side) (he : e ∈ pre) : e.Before last :=
    hcut e he last List.mem_cons_self
  have hafter (e : SegmentEnd g.side) (he : e ∈ last :: post) : ¬ e.Before last := by
    rcases List.mem_cons.mp he with rfl | hmem
    · exact SegmentEnd.Before.irrefl e
    · intro hlt
      exact SegmentEnd.Before.irrefl e (hlt.trans ((List.pairwise_cons.mp hpost).1 e hmem))
  constructor
  · refine ⟨hlast, fun d hd => ?_⟩
    have hmem := mem_segmentEnds.mpr (hP d hd)
    rw [hlist] at hmem
    rcases List.mem_append.mp hmem with hleft | hright
    · exact absurd hd (hpre d hleft)
    · exact hafter d hright
  · rw [← length_filter_segmentEnds, hlist, List.filter_append]
    have hkeep : pre.filter (fun e => decide (e.Before last)) = pre :=
      List.filter_eq_self.mpr fun e he => decide_eq_true (hbefore e he)
    have hdrop : (last :: post).filter (fun e => decide (e.Before last)) = [] :=
      List.filter_eq_nil_iff.mpr fun e he => by simpa using hafter e he
    rw [hkeep, hdrop, List.append_nil]

end Grid

end SegmentFit
