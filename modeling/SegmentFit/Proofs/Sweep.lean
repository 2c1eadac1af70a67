import SegmentFit.Proofs.CellBytes
import SegmentFit.Proofs.Coverage
import SegmentFit.Proofs.SegmentEnds

/-!
# The sweep — every pair found, none invented

The row phase passes over ends until one clears the first (`sweepRows_append`), and all
that it passed over are counted in the tally. If none clears the first, all horizontal
segments lie on one row (`length_segmentEnds_le`), so there are fewer than `2 ^ 63` of
them and the words of the column phase are exact: a vertical segment is unclaimed iff it is
disjoint from some horizontal one (`unclaimed_iff`).

Both phases are then known by what they find first: `rowPhase_eq_pair` and
`rowPhase_eq_counted`, `columnPhase_eq_some` and `columnPhase_eq_none`. The results on
whole sweeps put these four together.
-/

namespace SegmentFit

namespace SegmentEnd

variable {side k : Nat}

/-- The columns of the horizontal segment with an end, as an interval of its row. -/
def interval (k : Nat) (e : SegmentEnd side) : Interval :=
  ⟨e.line, e.stop + 1 - k, e.stop + 1⟩

theorem interval_within (hk : 0 < k) (e : SegmentEnd side) : (e.interval k).Within side := by
  refine ⟨e.line.isLt, ?_, e.stop.isLt⟩
  show e.stop.val + 1 - k < e.stop.val + 1
  omega

/-- An interval contains the cells of its segment. -/
theorem contains_interval_iff {e : SegmentEnd side} (he : k ≤ e.stop + 1) {i j : Nat} :
    (e.interval k).Contains i j ↔ (⟨i, j⟩ : Cell) ∈ (e.placement .rows k).cells k := by
  rw [Placement.mem_cells]
  show (e.line.val = i ∧ e.stop.val + 1 - k ≤ j ∧ j < e.stop.val + 1) ↔
    (i = e.line.val ∧ e.stop.val + 1 - k ≤ j ∧ j < e.stop.val + 1 - k + k)
  omega

/-- An interval meets a window iff its segment meets the vertical segment there. -/
theorem meets_interval_iff {d e : SegmentEnd side} (hd : k ≤ d.stop + 1) (he : k ≤ e.stop + 1) :
    (d.interval k).Meets k e.stop e.line ↔
      ¬ (d.placement .rows k).Disjoint k (e.placement .columns k) := by
  rw [placement, placement, Placement.disjoint_rows_columns_iff, not_not]
  show ((e.stop.val + 1 - k ≤ d.line.val ∧ d.line.val ≤ e.stop.val)
      ∧ d.stop.val + 1 - k ≤ e.line.val ∧ e.line.val < d.stop.val + 1) ↔ _
  omega

end SegmentEnd

/-! ## The row phase, step by step -/

section Rows

variable {side k : Nat} {first : SegmentEnd side} {tally : Tally side} {l : List Interval}

/-- The columns of a segment are accepted by every tally, and counted. -/
theorem exists_add (hk : 0 < k) (ht : tally.Counts l) {e : SegmentEnd side}
    (he : k ≤ e.stop + 1) :
    ∃ u, tally.add e.line.val (e.stop.val - k + 1) (e.stop.val + 1) = .ok u
      ∧ u.Counts (l ++ [e.interval k]) := by
  obtain ⟨u, hadd, hu⟩ := Tally.counts_add ht (e.interval_within hk)
  have hlo : ((e.interval k).lo : Int) = (e.stop.val : Int) - k + 1 := by
    show ((e.stop.val + 1 - k : Nat) : Int) = _
    omega
  have hhi : ((e.interval k).hi : Int) = (e.stop.val : Int) + 1 := by
    show ((e.stop.val + 1 : Nat) : Int) = _
    omega
  rw [hlo, hhi] at hadd
  exact ⟨u, hadd, hu⟩

/-- One end that does not clear the first is counted, and the phase goes on. -/
theorem sweepRows_cons (hk : 0 < k) (ht : tally.Counts l) {e : SegmentEnd side}
    (he : k ≤ e.stop + 1) (hclears : ¬ first.clears k e = true) (rest : List (SegmentEnd side)) :
    ∃ u, u.Counts (l ++ [e.interval k])
      ∧ sweepRows k first tally (e :: rest) = sweepRows k first u rest := by
  obtain ⟨u, hadd, hu⟩ := exists_add hk ht he
  refine ⟨u, hu, ?_⟩
  rw [sweepRows, if_neg hclears]
  show (tally.add e.line.val (e.stop.val - k + 1) (e.stop.val + 1) >>= fun u =>
    sweepRows k first u rest) = _
  rw [hadd]
  rfl

/-- **The row phase passes over** ends that do not clear the first, and counts them all. -/
theorem sweepRows_append (hk : 0 < k) (ht : tally.Counts l) (rest : List (SegmentEnd side)) :
    ∀ pre : List (SegmentEnd side),
      (∀ e ∈ pre, k ≤ e.stop + 1 ∧ ¬ first.clears k e = true) →
      ∃ u, u.Counts (l ++ pre.map (SegmentEnd.interval k))
        ∧ sweepRows k first tally (pre ++ rest) = sweepRows k first u rest := by
  intro pre
  induction pre generalizing tally l with
  | nil =>
      intro _
      refine ⟨tally, ?_, rfl⟩
      rw [List.map_nil, List.append_nil]
      exact ht
  | cons e pre ih =>
      intro hpre
      obtain ⟨he, hclears⟩ := hpre e List.mem_cons_self
      obtain ⟨u, hu, hstep⟩ := sweepRows_cons hk ht he hclears (pre ++ rest)
      obtain ⟨v, hv, hrun⟩ := ih hu fun d hd => hpre d (List.mem_cons_of_mem _ hd)
      refine ⟨v, ?_, ?_⟩
      · rw [List.map_cons]
        rw [List.append_assoc] at hv
        exact hv
      · rw [List.cons_append, hstep, hrun]

end Rows

/-! ## The column phase, step by step -/

/-- The column phase passes over ends that neither clear the first nor are unclaimed. -/
theorem sweepColumns_append {side k : Nat} {unclaimed : SegmentEnd side → Bool}
    {first : SegmentEnd side} (rest : List (SegmentEnd side)) :
    ∀ pre : List (SegmentEnd side),
      (∀ e ∈ pre, ¬ first.clears k e = true ∧ ¬ unclaimed e = true) →
      sweepColumns k unclaimed first (pre ++ rest) = sweepColumns k unclaimed first rest := by
  intro pre
  induction pre with
  | nil => intro _; rfl
  | cons e pre ih =>
      intro hpre
      obtain ⟨hclears, hclaimed⟩ := hpre e List.mem_cons_self
      rw [List.cons_append, sweepColumns, if_neg hclears, if_neg hclaimed]
      exact ih fun d hd => hpre d (List.mem_cons_of_mem _ hd)

namespace Grid

variable {g : Grid} {k : Nat}

/-! ## What the row phase finds -/

/-- **A pair of rows**: the phase stops at the first end that closes a pair, and has counted
the ends before it. -/
theorem rowPhase_eq_pair (hk : 0 < k) (h : ∃ e, g.ClosesPair .rows k e) :
    ∃ last, SegmentEnd.First (g.ClosesPair .rows k) last
      ∧ g.rowPhase k
        = .ok (.pair last ((g.ends .rows k).filter fun e => e.Before last).card) := by
  obtain ⟨pre, last, post, hlist, hpre, hlast⟩ := exists_split (fun _ he => he.1) h
  obtain ⟨hfirst, hcard⟩ := first_of_split (fun _ he => he.1) hlist hpre hlast
  refine ⟨last, hfirst, ?_⟩
  rw [rowPhase]
  cases hhead : g.segmentEnds .rows k with
  | nil =>
      rw [hhead] at hlist
      exact absurd hlist.symm (by simp)
  | cons first rest =>
      -- what comes before `last` closes no pair, so the phase passes over it
      have hpass (e : SegmentEnd g.side) (he : e ∈ pre) :
          k ≤ e.stop + 1 ∧ ¬ first.clears k e = true := by
        have hmem : e ∈ g.segmentEnds .rows k := by
          rw [hlist]
          exact List.mem_append_left _ he
        exact ⟨(mem_segmentEnds.mp hmem).1, not_clears_head hk hhead hmem (hpre e he)⟩
      obtain ⟨u, hu, hrun⟩ :=
        sweepRows_append hk (Tally.counts_empty g.side) (last :: post) pre hpass
      have hclears := (clears_head_iff hk hhead hlast.1).mpr hlast
      have hcount : u.count = pre.length := by
        rw [hu.count, List.nil_append, List.length_map]
      rw [hhead] at hlist
      show sweepRows k first (Tally.empty g.side) (first :: rest) = _
      rw [hlist, hrun, sweepRows, if_pos hclears, hcard, hcount]

/-- **No pair of rows**: the phase counts every horizontal segment. -/
theorem rowPhase_eq_counted (hk : 0 < k) (h : ¬ ∃ e, g.ClosesPair .rows k e) :
    ∃ u, u.Counts ((g.segmentEnds .rows k).map (SegmentEnd.interval k))
      ∧ g.rowPhase k = .ok (.counted u) := by
  rw [rowPhase]
  cases hhead : g.segmentEnds .rows k with
  | nil => exact ⟨Tally.empty g.side, Tally.counts_empty g.side, rfl⟩
  | cons first rest =>
      have hpass (e : SegmentEnd g.side) (he : e ∈ first :: rest) :
          k ≤ e.stop + 1 ∧ ¬ first.clears k e = true := by
        rw [← hhead] at he
        exact ⟨(mem_segmentEnds.mp he).1,
          not_clears_head hk hhead he fun hcloses => h ⟨e, hcloses⟩⟩
      obtain ⟨u, hu, hrun⟩ :=
        sweepRows_append hk (Tally.counts_empty g.side) [] (first :: rest) hpass
      rw [List.append_nil] at hrun
      exact ⟨u, hu, hrun⟩

/-- Without a pair of rows all horizontal segments lie on one row, so they are no more than
the columns. -/
theorem length_segmentEnds_le (hk : 0 < k) (h : ¬ ∃ e, g.ClosesPair .rows k e) :
    (g.segmentEnds .rows k).length ≤ g.side := by
  cases hhead : g.segmentEnds .rows k with
  | nil => exact Nat.zero_le _
  | cons first rest =>
      have hline (e : SegmentEnd g.side) (he : e ∈ first :: rest) : e.line = first.line := by
        rw [← hhead] at he
        have hclears := not_clears_head hk hhead he fun hcloses => h ⟨e, hcloses⟩
        exact (near_of_not_clears hhead (mem_segmentEnds.mp he) hclears).1
      -- on one row the ends are told apart by their columns
      have hnodup : ((first :: rest).map SegmentEnd.stop).Nodup := by
        have hends := g.segmentEnds_nodup .rows k
        rw [hhead] at hends
        refine List.Nodup.map_on (fun a ha b hb hstop => ?_) hends
        exact SegmentEnd.eq_of_line_stop ((hline a ha).trans (hline b hb).symm) hstop
      have hcard := hnodup.length_le_card
      rw [List.length_map, Fintype.card_fin] at hcard
      exact hcard

theorem length_intervals_lt (hk : 0 < k) (h : ¬ ∃ e, g.ClosesPair .rows k e) :
    ((g.segmentEnds .rows k).map (SegmentEnd.interval k)).length < 2 ^ 63 := by
  have hle := length_segmentEnds_le hk h
  have hside : g.side + 1 < 2 ^ 63 := g.side_bound
  rw [List.length_map]
  omega

/-! ## What the column phase finds -/

/-- **Counting replaces comparing**: a vertical segment meets fewer horizontal segments than
were counted iff it is disjoint from one of them. -/
theorem unclaimed_iff (hk : 0 < k) (h : ¬ ∃ e, g.ClosesPair .rows k e) {u : Tally g.side}
    (hu : u.Counts ((g.segmentEnds .rows k).map (SegmentEnd.interval k)))
    {e : SegmentEnd g.side} (he : g.EndsAt .columns k e) :
    ((u.cover.windowSums k).entry e.stop e.line).toInt < u.count ↔ g.ClosesCross k e := by
  rw [Tally.windowSums_cover_lt_iff hu (length_intervals_lt hk h)]
  constructor
  · rintro ⟨v, hv, hmeets⟩
    obtain ⟨d, hd, rfl⟩ := List.mem_map.mp hv
    rw [mem_segmentEnds] at hd
    rw [SegmentEnd.meets_interval_iff hd.1 he.1, not_not] at hmeets
    exact ⟨he, d, hd, hmeets⟩
  · rintro ⟨-, d, hd, hdisj⟩
    refine ⟨d.interval k, List.mem_map_of_mem (mem_segmentEnds.mpr hd), ?_⟩
    rw [SegmentEnd.meets_interval_iff hd.1 he.1, not_not]
    exact hdisj

section Columns

variable {count : Nat} {meets : Table Int64 g.side g.side}

/-- **A pair closed by a column**: the phase stops at the first end that closes one, and
tells a pair of columns from a crossing pair. -/
theorem columnPhase_eq_some (hk : 0 < k)
    (hmeets : ∀ e, g.EndsAt .columns k e →
      ((meets.entry e.stop e.line).toInt < count ↔ g.ClosesCross k e))
    (h : ∃ e, g.ClosesColumn k e) :
    ∃ last why, SegmentEnd.First (g.ClosesColumn k) last
      ∧ g.columnPhase k count meets = some (why, last)
      ∧ (why = .verticalPair ↔ g.ClosesPair .columns k last)
      ∧ (why = .unclaimedHorizontal ↔ ¬ g.ClosesPair .columns k last ∧ g.ClosesCross k last) := by
  have hends (e : SegmentEnd g.side) (he : g.ClosesColumn k e) : g.EndsAt .columns k e :=
    he.elim (fun hpair => hpair.1) fun hcross => hcross.1
  obtain ⟨pre, last, post, hlist, hpre, hlast⟩ := exists_split hends h
  obtain ⟨hfirst, -⟩ := first_of_split hends hlist hpre hlast
  rw [columnPhase]
  cases hhead : g.segmentEnds .columns k with
  | nil =>
      rw [hhead] at hlist
      exact absurd hlist.symm (by simp)
  | cons first rest =>
      have hpass (e : SegmentEnd g.side) (he : e ∈ pre) : ¬ first.clears k e = true
          ∧ ¬ decide ((meets.entry e.stop e.line).toInt < count) = true := by
        have hmem : e ∈ g.segmentEnds .columns k := by
          rw [hlist]
          exact List.mem_append_left _ he
        obtain ⟨hnopair, hnocross⟩ := not_or.mp (hpre e he)
        rw [decide_eq_true_eq, hmeets e (mem_segmentEnds.mp hmem)]
        exact ⟨not_clears_head hk hhead hmem hnopair, hnocross⟩
      have hlastEnd := hends last hlast
      have hclears := clears_head_iff hk hhead hlastEnd
      have hcross := hmeets last hlastEnd
      rw [hhead] at hlist
      show ∃ d why, _ ∧ sweepColumns k _ first (first :: rest) = some (why, d) ∧ _
      rw [hlist, sweepColumns_append (last :: post) pre hpass, sweepColumns]
      -- of the two tests that `last` may pass, the comparison of columns comes first
      by_cases hpair : first.clears k last = true
      · rw [if_pos hpair]
        refine ⟨last, .verticalPair, hfirst, rfl, ?_, ?_⟩
        · exact iff_of_true rfl (hclears.mp hpair)
        · exact iff_of_false (by decide) fun hnot => hnot.1 (hclears.mp hpair)
      · have hnone : ¬ g.ClosesPair .columns k last := fun hp => hpair (hclears.mpr hp)
        have hcr : g.ClosesCross k last := hlast.resolve_left hnone
        rw [if_neg hpair, if_pos (decide_eq_true (hcross.mpr hcr))]
        refine ⟨last, .unclaimedHorizontal, hfirst, rfl, ?_, ?_⟩
        · exact iff_of_false (by decide) hnone
        · exact iff_of_true rfl ⟨hnone, hcr⟩

/-- **Nothing closed by a column**: the phase ends without a finding. -/
theorem columnPhase_eq_none (hk : 0 < k)
    (hmeets : ∀ e, g.EndsAt .columns k e →
      ((meets.entry e.stop e.line).toInt < count ↔ g.ClosesCross k e))
    (h : ¬ ∃ e, g.ClosesColumn k e) : g.columnPhase k count meets = none := by
  rw [columnPhase]
  cases hhead : g.segmentEnds .columns k with
  | nil => rfl
  | cons first rest =>
      have hpass (e : SegmentEnd g.side) (he : e ∈ first :: rest) : ¬ first.clears k e = true
          ∧ ¬ decide ((meets.entry e.stop e.line).toInt < count) = true := by
        rw [← hhead] at he
        obtain ⟨hnopair, hnocross⟩ := not_or.mp fun hcloses => h ⟨e, hcloses⟩
        rw [decide_eq_true_eq, hmeets e (mem_segmentEnds.mp he)]
        exact ⟨not_clears_head hk hhead he hnopair, hnocross⟩
      have hrun := sweepColumns_append [] (first :: rest) hpass
      rw [List.append_nil] at hrun
      exact hrun

end Columns

end Grid

end SegmentFit
