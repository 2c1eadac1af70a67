import Mathlib.Logic.Relation
import SegmentFit.Proofs.SweepReceipt

/-!
# The row phase, point by point — counted segments share a cell

`RowPoint` is what the row phase holds at a point: the ends it has counted, their tally, and
the ends that are left. `RowPoint.Step` passes from one point to the next, and `Grid.Reaches`
collects the points that a grid leads to. They are the points of the phase itself: it comes to
the same result from each of them (`RowPoint.Step.outcome_eq`), and it ends in one of them
(`exists_last_point`).

An end that does not clear the witness lies on its row, fewer than `k` columns behind it. All
cells between the two are open, so every column in between is an end as well
(`EndsAt.between`), and none is left out: the counted ends follow each other column by column
(`Grid.Reaches.stop_next`). Hence the counted segments share the cell where the witness ends.
-/

namespace SegmentFit

/-- A point of the row phase: the ends that were counted, in their order, the tally of their
columns, and the ends that are left. -/
structure RowPoint (side : Nat) where
  counted : List (SegmentEnd side)
  tally : Tally side
  left : List (SegmentEnd side)

namespace RowPoint

variable {side k : Nat} {s s' : RowPoint side}

/-- One step of the row phase: the next end does not clear the witness, which is the first end
that was met, and is counted. -/
inductive Step (k : Nat) : RowPoint side → RowPoint side → Prop
  | count {counted left : List (SegmentEnd side)} {next : SegmentEnd side}
      {tally tally' : Tally side}
      (hclears : ¬ (counted.headD next).clears k next = true)
      (hadd : tally.add next.line.val (next.stop.val - k + 1) (next.stop.val + 1) = .ok tally') :
      Step k ⟨counted, tally, next :: left⟩ ⟨counted ++ [next], tally', left⟩

/-- What the row phase comes to from a point on. -/
def outcome (k : Nat) (s : RowPoint side) : Except CoverageFault (RowPhase side) :=
  match s.counted ++ s.left with
  | [] => .ok (.counted s.tally)
  | first :: _ => sweepRows k first s.tally s.left

theorem outcome_nil {counted : List (SegmentEnd side)} {tally : Tally side} :
    outcome k ⟨counted, tally, []⟩ = .ok (.counted tally) := by
  rw [outcome]
  split <;> rfl

theorem outcome_cons {counted left : List (SegmentEnd side)} {next : SegmentEnd side}
    {tally : Tally side} :
    outcome k ⟨counted, tally, next :: left⟩
      = sweepRows k (counted.headD next) tally (next :: left) := by
  cases counted <;> rfl

/-- A step is the step that the phase takes: it comes to the same result before and after. -/
theorem Step.outcome_eq (h : Step k s s') : s'.outcome k = s.outcome k := by
  cases h with
  | @count counted left next tally tally' hclears hadd =>
      rw [outcome_cons, sweepRows, if_neg hclears]
      show _ = (tally.add next.line.val (next.stop.val - k + 1) (next.stop.val + 1) >>= fun u =>
        sweepRows k (counted.headD next) u left)
      rw [hadd]
      cases left with
      | nil =>
          rw [outcome_nil]
          rfl
      | cons e left =>
          rw [outcome_cons]
          cases counted <;> rfl

end RowPoint

namespace Grid

variable {g : Grid} {k : Nat} {s s' : RowPoint g.side}

/-- The point where the row phase starts. -/
def rowStart (g : Grid) (k : Nat) : RowPoint g.side :=
  ⟨[], Tally.empty g.side, g.segmentEnds .rows k⟩

/-- The row phase comes to a point. -/
def Reaches (g : Grid) (k : Nat) (s : RowPoint g.side) : Prop :=
  Relation.ReflTransGen (RowPoint.Step k) (g.rowStart k) s

theorem outcome_rowStart (g : Grid) (k : Nat) : (g.rowStart k).outcome k = g.rowPhase k := by
  rw [rowPhase, RowPoint.outcome, rowStart, List.nil_append]
  cases g.segmentEnds .rows k <;> rfl

/-- The points that are reached are those of the row phase. -/
theorem Reaches.outcome_eq (h : g.Reaches k s) : s.outcome k = g.rowPhase k := by
  induction h with
  | refl => exact g.outcome_rowStart k
  | tail _ hstep ih => exact hstep.outcome_eq.trans ih

/-- No end is lost on the way. -/
theorem Reaches.counted_append_left (h : g.Reaches k s) :
    s.counted ++ s.left = g.segmentEnds .rows k := by
  induction h with
  | refl => rfl
  | tail _ hstep ih =>
      cases hstep with
      | count _ _ =>
          rw [List.append_assoc]
          exact ih

theorem Reaches.endsAt (h : g.Reaches k s) {e : SegmentEnd g.side}
    (he : e ∈ s.counted ∨ e ∈ s.left) : g.EndsAt .rows k e := by
  rw [← mem_segmentEnds, ← h.counted_append_left]
  exact List.mem_append.mpr he

/-- Segments without cells are never counted, as the first one clears itself. -/
theorem Reaches.eq_rowStart (h : g.Reaches 0 s) : s = g.rowStart 0 := by
  induction h with
  | refl => rfl
  | tail _ hstep ih =>
      subst ih
      generalize hstart : g.rowStart 0 = start at hstep
      cases hstep with
      | @count counted left next tally tally' hclears hadd =>
          obtain rfl : ([] : List (SegmentEnd g.side)) = counted := congrArg RowPoint.counted hstart
          have hself : next.clears 0 next = true :=
            SegmentEnd.clears_iff.mpr (Or.inr ⟨rfl, Nat.le_refl _⟩)
          exact absurd hself hclears

/-- The tally stands for the columns of the counted ends. -/
theorem Reaches.counts (h : g.Reaches k s) :
    s.tally.Counts (s.counted.map (SegmentEnd.interval k)) := by
  rcases Nat.eq_zero_or_pos k with rfl | hk
  · rw [h.eq_rowStart]
    exact Tally.counts_empty g.side
  · induction h with
    | refl => exact Tally.counts_empty g.side
    | tail hprev hstep ih =>
        cases hstep with
        | @count counted left next tally tally' hclears hadd =>
            have hnext : g.EndsAt .rows k next :=
              Reaches.endsAt (s := ⟨counted, tally, next :: left⟩) hprev
                (Or.inr List.mem_cons_self)
            obtain ⟨u, hu, hcounts⟩ := exists_add hk ih hnext.1
            obtain rfl : tally' = u := Except.ok.inj (hadd.symm.trans hu)
            rw [List.map_append]
            exact hcounts

theorem Reaches.count_eq (h : g.Reaches k s) : s.tally.count = s.counted.length := by
  rw [h.counts.count, List.length_map]

/-! ## Where the phase ends -/

/-- From every point the row phase runs on to one where it stops: nothing is left, or the next
end clears the witness. -/
theorem exists_last_point (hk : 0 < k) (h : g.Reaches k s) :
    ∃ s', g.Reaches k s' ∧ ((s'.left = [] ∧ s'.outcome k = .ok (.counted s'.tally))
      ∨ ∃ last rest, s'.left = last :: rest
        ∧ s'.outcome k = .ok (.pair last s'.tally.count)) := by
  obtain ⟨counted, tally, left⟩ := s
  induction left generalizing counted tally with
  | nil => exact ⟨_, h, Or.inl ⟨rfl, RowPoint.outcome_nil⟩⟩
  | cons next left ih =>
      by_cases hclears : (counted.headD next).clears k next = true
      · refine ⟨_, h, Or.inr ⟨next, left, rfl, ?_⟩⟩
        rw [RowPoint.outcome_cons, sweepRows, if_pos hclears]
      · have hnext := h.endsAt (Or.inr List.mem_cons_self)
        obtain ⟨u, hadd, -⟩ := exists_add hk (h.counts) hnext.1
        exact ih (counted ++ [next]) u (h.tail (.count hclears hadd))

/-- The tally of a row phase without a pair is that of a point where nothing is left. -/
theorem exists_point_of_counted {tally : Tally g.side}
    (h : g.rowPhase k = .ok (.counted tally)) :
    ∃ s, g.Reaches k s ∧ s.left = [] ∧ s.tally = tally := by
  obtain ⟨s, hs, ⟨hleft, hend⟩ | ⟨last, rest, -, hend⟩⟩ :=
    exists_last_point (pos_of_rowPhase_counted h) (s := g.rowStart k) .refl
  · rw [hs.outcome_eq, h] at hend
    injection hend with hphase
    injection hphase with htally
    exact ⟨s, hs, hleft, htally.symm⟩
  · rw [hs.outcome_eq, h] at hend
    exact nomatch hend

/-- A pair of rows is found at a point where the end that closes it comes next. -/
theorem exists_point_of_pair (hk : 0 < k) {last : SegmentEnd g.side} {count : Nat}
    (h : g.rowPhase k = .ok (.pair last count)) :
    ∃ s rest, g.Reaches k s ∧ s.left = last :: rest ∧ s.tally.count = count := by
  obtain ⟨s, hs, ⟨-, hend⟩ | ⟨next, rest, hleft, hend⟩⟩ :=
    exists_last_point hk (s := g.rowStart k) .refl
  · rw [hs.outcome_eq, h] at hend
    exact nomatch hend
  · rw [hs.outcome_eq, h] at hend
    injection hend with hphase
    injection hphase with hlast hcount
    exact ⟨s, rest, hs, by rw [hleft, hlast], hcount.symm⟩

/-! ## Ends without a gap -/

/-- Between two ends of a line that are fewer than `k` positions apart every position is an
end. -/
theorem EndsAt.between {axis : Axis} {a b e : SegmentEnd g.side} (ha : g.EndsAt axis k a)
    (hb : g.EndsAt axis k b) (haline : e.line = a.line) (hbline : e.line = b.line)
    (hlo : a.stop ≤ e.stop) (hhi : e.stop ≤ b.stop) (hnear : b.stop.val < a.stop + k) :
    g.EndsAt axis k e := by
  have haopen := Placement.fits_iff.mp ha.2
  have hbopen := Placement.fits_iff.mp hb.2
  have halong := ha.1
  refine ⟨by omega, Placement.fits_iff.mpr fun u hu hu' => ?_⟩
  have hstart : e.stop.val + 1 - k ≤ u := hu
  have hstop : u < e.stop.val + 1 - k + k := hu'
  show g.openAlong axis e.line u = true
  -- the cells up to `a` belong to the segment there, those behind it to the one at `b`
  by_cases hside : u ≤ a.stop.val
  · rw [haline]
    exact haopen u (by show a.stop.val + 1 - k ≤ u; omega)
      (by show u < a.stop.val + 1 - k + k; omega)
  · rw [hbline]
    exact hbopen u (by show b.stop.val + 1 - k ≤ u; omega)
      (by show u < b.stop.val + 1 - k + k; omega)

end Grid

namespace RowPoint

variable {side k : Nat} {first : SegmentEnd side} {s s' : RowPoint side}

/-- The counted ends follow each other on the row of the first one, column by column, and there
are at most `k` of them. -/
structure Consecutive (k : Nat) (first : SegmentEnd side) (s : RowPoint side) : Prop where
  line : ∀ e ∈ s.counted, e.line = first.line
  stops : s.counted.map (fun e => e.stop.val) = List.range' first.stop s.counted.length
  short : s.counted.length ≤ k

/-- A counted end stops behind the first one, by less than there are counted. -/
theorem Consecutive.near (h : s.Consecutive k first) {e : SegmentEnd side} (he : e ∈ s.counted) :
    first.stop.val ≤ e.stop ∧ e.stop.val < first.stop + s.counted.length := by
  have hstop := List.mem_map_of_mem (f := fun e : SegmentEnd side => e.stop.val) he
  rw [h.stops, List.mem_range'_1] at hstop
  exact hstop

/-- In every column between the first counted end and the last one, some counted end stops. -/
theorem Consecutive.exists_stop (h : s.Consecutive k first) {t : Nat}
    (ht : t < s.counted.length) : ∃ e ∈ s.counted, e.stop.val = first.stop + t := by
  refine List.mem_map.mp ?_
  rw [h.stops, List.mem_range'_1]
  omega

/-- An end of the row that comes after all counted ends stops behind them. -/
theorem Consecutive.le_stop (h : s.Consecutive k first) {next : SegmentEnd side}
    (hline : next.line = first.line) (hle : first.stop ≤ next.stop)
    (hbefore : ∀ e ∈ s.counted, e.Before next) :
    first.stop.val + s.counted.length ≤ next.stop := by
  rcases Nat.eq_zero_or_pos s.counted.length with hzero | hpos
  · rw [hzero]
    exact hle
  · -- the last counted end comes before the next one
    obtain ⟨e, he, hstop⟩ := h.exists_stop (t := s.counted.length - 1) (by omega)
    have heline := h.line e he
    have hlt := hbefore e he
    rw [SegmentEnd.Before] at hlt
    have hlt' : e.stop.val < next.stop.val := by
      rcases hlt with hlt | hlt
      · omega
      · exact hlt.2
    omega

end RowPoint

namespace Grid

variable {g : Grid} {k : Nat} {first : SegmentEnd g.side} {more : List (SegmentEnd g.side)}
  {s s' : RowPoint g.side}

/-- The witness that the next end is compared with is the first end of all. -/
theorem Reaches.headD_counted {counted left : List (SegmentEnd g.side)} {tally : Tally g.side}
    {next : SegmentEnd g.side} (hlist : g.segmentEnds .rows k = first :: more)
    (h : g.Reaches k ⟨counted, tally, next :: left⟩) : counted.headD next = first := by
  have hsplit : counted ++ next :: left = first :: more := h.counted_append_left.trans hlist
  cases counted with
  | nil => exact (List.cons.inj hsplit).1
  | cons e rest => exact (List.cons.inj hsplit).1

/-- The next end follows the counted ones without a gap. -/
theorem Reaches.stop_next {counted left : List (SegmentEnd g.side)} {tally : Tally g.side}
    {next : SegmentEnd g.side} (hlist : g.segmentEnds .rows k = first :: more)
    (hreach : g.Reaches k ⟨counted, tally, next :: left⟩)
    (h : RowPoint.Consecutive k first ⟨counted, tally, next :: left⟩)
    (hclears : ¬ first.clears k next = true) : next.stop.val = first.stop + counted.length := by
  have hsplit : counted ++ next :: left = g.segmentEnds .rows k := hreach.counted_append_left
  have hnext := hreach.endsAt (Or.inr List.mem_cons_self)
  have hsorted := g.segmentEnds_pairwise .rows k
  rw [← hsplit, List.pairwise_append] at hsorted
  obtain ⟨-, hafter, hbefore⟩ := hsorted
  obtain ⟨hline, hle, hnear⟩ := near_of_not_clears hlist hnext hclears
  refine Nat.le_antisymm ?_
    (h.le_stop hline hle fun e he => hbefore e he next List.mem_cons_self)
  -- a position that was left out would be an end that is neither counted nor left
  by_contra hgap
  have hlt : first.stop.val + counted.length < next.stop := Nat.not_le.mp hgap
  have hmissed : g.EndsAt .rows k ⟨first.line, ⟨first.stop + counted.length, by omega⟩⟩ :=
    (endsAt_head hlist).between hnext rfl hline.symm (Nat.le_add_right _ _) (Nat.le_of_lt hlt)
      hnear
  rw [← mem_segmentEnds, ← hsplit] at hmissed
  rcases List.mem_append.mp hmissed with hcounted | hleft
  · exact absurd (h.near hcounted).2 (Nat.lt_irrefl _)
  · rcases List.mem_cons.mp hleft with heq | hrest
    · have hstop := congrArg (fun e : SegmentEnd g.side => e.stop.val) heq
      exact absurd hstop (Nat.ne_of_lt hlt)
    · have hlater := (List.pairwise_cons.mp hafter).1 _ hrest
      rw [SegmentEnd.Before, Fin.lt_def, Fin.lt_def] at hlater
      simp only at hlater
      omega

/-- One step adds one column. -/
theorem Reaches.consecutive_step (hlist : g.segmentEnds .rows k = first :: more)
    (hreach : g.Reaches k s) (h : s.Consecutive k first) (hstep : RowPoint.Step k s s') :
    s'.Consecutive k first := by
  cases hstep with
  | @count counted left next tally tally' hclears hadd =>
      rw [hreach.headD_counted hlist] at hclears
      obtain ⟨hline, -, hnear⟩ :=
        near_of_not_clears hlist (hreach.endsAt (Or.inr List.mem_cons_self)) hclears
      have hnext := hreach.stop_next hlist h hclears
      constructor
      · intro e he
        rcases List.mem_append.mp he with hold | hnew
        · exact h.line e hold
        · rw [List.mem_singleton.mp hnew, hline]
      · have hstops : counted.map (fun e => e.stop.val)
            = List.range' first.stop counted.length := h.stops
        show (counted ++ [next]).map (fun e => e.stop.val)
          = List.range' first.stop (counted ++ [next]).length
        rw [List.map_append, hstops, List.length_append, List.length_singleton,
          List.range'_1_concat, List.map_singleton, hnext]
      · show (counted ++ [next]).length ≤ k
        rw [List.length_append, List.length_singleton]
        omega

/-- **The counted ends are consecutive** at every point of the row phase. -/
theorem Reaches.consecutive (hlist : g.segmentEnds .rows k = first :: more)
    (h : g.Reaches k s) : s.Consecutive k first := by
  induction h with
  | refl =>
      exact
        { line := fun _ he => nomatch he
          stops := rfl
          short := Nat.zero_le _ }
  | tail hprev hstep ih => exact Reaches.consecutive_step hlist hprev ih hstep

/-! ## What the counted segments share -/

end Grid

namespace RowPoint

/-- What is true of the counted segments of a point, and of the cover that its tally has. -/
structure Clustered {side : Nat} (k : Nat) (witness : SegmentEnd side) (s : RowPoint side) :
    Prop where
  /-- They lie on one row. -/
  row : ∀ e ∈ s.counted, e.line = witness.line
  /-- They end in consecutive columns, the first one where the witness ends. -/
  stops : s.counted.map (fun e => e.stop.val) = List.range' witness.stop s.tally.count
  /-- All of them contain the cell where the witness ends. -/
  shared : ∀ e ∈ s.counted, witness.cell .rows ∈ (e.placement .rows k).cells k
  /-- No two of them are disjoint. -/
  meet : ∀ d ∈ s.counted, ∀ e ∈ s.counted,
    ¬ (d.placement .rows k).Disjoint k (e.placement .rows k)
  few : s.tally.count ≤ min k (side + 1 - k)
  /-- The cell where the witness ends is contained in as many as there are, and no cell of
  another row in any. -/
  cover : (s.tally.cover.entry witness.line witness.stop).toInt = s.tally.count
    ∧ ∀ i j, i ≠ witness.line → s.tally.cover.entry i j = 0

end RowPoint

namespace Grid

variable {g : Grid} {k : Nat} {first : SegmentEnd g.side} {more : List (SegmentEnd g.side)}
  {s s' : RowPoint g.side}

/-- Every counted segment contains the cell where the witness ends. -/
theorem Reaches.shared (hlist : g.segmentEnds .rows k = first :: more) (h : g.Reaches k s)
    {e : SegmentEnd g.side} (he : e ∈ s.counted) :
    first.cell .rows ∈ (e.placement .rows k).cells k := by
  have hconsecutive := h.consecutive hlist
  have hle : k ≤ e.stop + 1 := (h.endsAt (Or.inl he)).1
  have hshort := hconsecutive.short
  obtain ⟨hlo, hhi⟩ := hconsecutive.near he
  rw [Placement.mem_cells]
  show first.line.val = e.line ∧ e.stop.val + 1 - k ≤ first.stop
    ∧ first.stop.val < e.stop.val + 1 - k + k
  rw [hconsecutive.line e he]
  omega

/-- There are no more counted segments than a segment has cells, and than there are columns in
which one can end. -/
theorem Reaches.count_le (hlist : g.segmentEnds .rows k = first :: more)
    (h : g.Reaches k s) : s.tally.count ≤ min k (g.side + 1 - k) := by
  have hconsecutive := h.consecutive hlist
  have hfirst : k ≤ first.stop + 1 := (first_head hlist).1.1
  rw [h.count_eq]
  refine le_min hconsecutive.short ?_
  rcases Nat.eq_zero_or_pos s.counted.length with hzero | hpos
  · omega
  · -- the last column that is counted lies on the grid
    obtain ⟨e, -, hstop⟩ := hconsecutive.exists_stop (t := s.counted.length - 1) (by omega)
    have hlt := e.stop.isLt
    omega

/-- The cover of a point where the witness ends, and on other rows. -/
theorem Reaches.cover_eq (hlist : g.segmentEnds .rows k = first :: more)
    (h : g.Reaches k s) :
    (s.tally.cover.entry first.line first.stop).toInt = s.tally.count
      ∧ ∀ i j, i ≠ first.line → s.tally.cover.entry i j = 0 := by
  have hcounts := h.counts
  constructor
  · have hall : (s.counted.map (SegmentEnd.interval k)).countP
          (fun v => v.Contains first.line first.stop)
        = (s.counted.map (SegmentEnd.interval k)).length := by
      rw [List.countP_eq_length]
      intro v hv
      obtain ⟨e, he, rfl⟩ := List.mem_map.mp hv
      have hle : k ≤ e.stop + 1 := (h.endsAt (Or.inl he)).1
      exact decide_eq_true ((SegmentEnd.contains_interval_iff hle).mpr (h.shared hlist he))
    have hsmall : (s.counted.map (SegmentEnd.interval k)).length < 2 ^ 63 := by
      have hfew := h.count_le hlist
      have hside : g.side + 1 < 2 ^ 63 := g.side_bound
      rw [← hcounts.count]
      omega
    rw [Tally.entry_cover hcounts, Tally.toInt_ofInt_countP hsmall, hall, hcounts.count]
  · intro i j hi
    have hnone : (s.counted.map (SegmentEnd.interval k)).countP (fun v => v.Contains i j) = 0 := by
      rw [List.countP_eq_zero]
      intro v hv hcontains
      obtain ⟨e, he, rfl⟩ := List.mem_map.mp hv
      have hrow : e.line.val = i := (of_decide_eq_true hcontains).1
      have hline := (h.consecutive hlist).line e he
      exact hi (Fin.ext (by rw [← hrow, hline]))
    rw [Tally.entry_cover hcounts, hnone]
    rfl

theorem Reaches.clustered (hlist : g.segmentEnds .rows k = first :: more)
    (h : g.Reaches k s) : s.Clustered k first where
  row := (h.consecutive hlist).line
  stops := by
    rw [h.count_eq]
    exact (h.consecutive hlist).stops
  shared := fun _ he => h.shared hlist he
  meet := fun _ hd _ he hdisj => hdisj _ (h.shared hlist hd) (h.shared hlist he)
  few := h.count_le hlist
  cover := h.cover_eq hlist

/-- A point with a counted end has the first end of all as its witness. -/
theorem Reaches.exists_segmentEnds_eq (h : g.Reaches k s) {rest : List (SegmentEnd g.side)}
    (hcounted : s.counted = first :: rest) : ∃ more, g.segmentEnds .rows k = first :: more := by
  refine ⟨rest ++ s.left, ?_⟩
  rw [← h.counted_append_left, hcounted, List.cons_append]

/-- A sweep that has a cover took it at a point of the row phase where nothing was left. -/
theorem exists_point_of_cover {found : Option Finding} {count : Nat}
    {cover : Table Int64 g.side g.side} (h : g.sweep k = .ok ⟨found, count, some cover⟩) :
    ∃ s, g.Reaches k s ∧ s.left = [] ∧ s.tally.count = count ∧ s.tally.cover = cover := by
  rw [sweep] at h
  cases hphase : g.rowPhase k with
  | error fault =>
      rw [hphase] at h
      cases h
  | ok phase =>
      rw [hphase] at h
      cases phase with
      | pair last seen =>
          injection h with hsweep
          injection hsweep with _ _ hcover
          cases hcover
      | counted tally =>
          change (tally.cover.windowSums? k >>= _) = _ at h
          rw [tally.cover.windowSums?_eq (pos_of_rowPhase_counted hphase)] at h
          injection h with hsweep
          injection hsweep with _ hcount hcover
          obtain ⟨s, hs, hleft, rfl⟩ := exists_point_of_counted hphase
          exact ⟨s, hs, hleft, hcount, Option.some.inj hcover⟩

/-- **Counted segments share a cell.** At every point of the row phase the counted segments lie
on the row of the witness, which is the first end of all, end in consecutive columns from there
on, and contain the cell where it ends, so no two are disjoint and there are few. The phase ends
at such a point, and so every cover that a sweep takes is as high as their number at that cell,
and zero on all other rows. -/
theorem row_phase_clustered (g : Grid) (k : Nat) (hk : 0 < k) :
    (∀ s, g.Reaches k s →
      s.outcome k = g.rowPhase k
        ∧ s.tally.Counts (s.counted.map (SegmentEnd.interval k))
        ∧ ∀ witness rest, s.counted = witness :: rest →
            SegmentEnd.First (g.EndsAt .rows k) witness ∧ s.Clustered k witness)
    ∧ (∀ tally, g.rowPhase k = .ok (.counted tally) →
        ∃ s, g.Reaches k s ∧ s.left = [] ∧ s.tally = tally)
    ∧ (∀ last count, g.rowPhase k = .ok (.pair last count) →
        ∃ s rest, g.Reaches k s ∧ s.left = last :: rest ∧ s.tally.count = count)
    ∧ ∀ found count cover, g.sweep k = .ok ⟨found, count, some cover⟩ → 0 < count →
        ∃ witness, SegmentEnd.First (g.EndsAt .rows k) witness
          ∧ (cover.entry witness.line witness.stop).toInt = count
          ∧ ∀ i j, i ≠ witness.line → cover.entry i j = 0 := by
  refine ⟨fun s hs => ⟨hs.outcome_eq, hs.counts, fun witness rest hcounted => ?_⟩,
    fun tally => exists_point_of_counted, fun last count => exists_point_of_pair hk,
    fun found count cover hsweep hpos => ?_⟩
  · obtain ⟨more, hlist⟩ := hs.exists_segmentEnds_eq hcounted
    exact ⟨first_head hlist, hs.clustered hlist⟩
  · obtain ⟨s, hs, -, rfl, rfl⟩ := exists_point_of_cover hsweep
    rw [hs.count_eq] at hpos
    obtain ⟨witness, rest, hcounted⟩ := List.exists_cons_of_length_pos hpos
    obtain ⟨more, hlist⟩ := hs.exists_segmentEnds_eq hcounted
    exact ⟨witness, first_head hlist, hs.cover_eq hlist⟩

/-- The end of a segment along the row of the tee. -/
def teeEnd (stop : Fin 3) : SegmentEnd tee.side :=
  ⟨⟨0, tee.side_pos⟩, stop⟩

/-- Both segments of length `2` along the row of the tee are counted. -/
theorem exists_reaches_tee : ∃ s, tee.Reaches 2 s ∧ s.counted = [teeEnd 1, teeEnd 2] := by
  have hlist : tee.segmentEnds .rows 2 = [teeEnd 1, teeEnd 2] := by decide +kernel
  have hstart : tee.Reaches 2 ⟨[], Tally.empty tee.side, [teeEnd 1, teeEnd 2]⟩ := by
    rw [← hlist]
    exact .refl
  obtain ⟨t, hadd, ht⟩ := exists_add (k := 2) (e := teeEnd 1) (by decide)
    (Tally.counts_empty tee.side) (by decide)
  obtain ⟨u, hadd', -⟩ := exists_add (k := 2) (e := teeEnd 2) (by decide) ht (by decide)
  exact ⟨_, (hstart.tail (.count (by decide) hadd)).tail (.count (by decide) hadd'), rfl⟩

theorem row_phase_clustered_tee :
    0 < 2 ∧ ∃ s, tee.Reaches 2 s ∧ s.counted = [teeEnd 1, teeEnd 2]
      ∧ s.Clustered 2 (teeEnd 1) := by
  obtain ⟨s, hs, hcounted⟩ := exists_reaches_tee
  exact ⟨by decide, s, hs, hcounted,
    (((tee.row_phase_clustered 2 (by decide)).1 s hs).2.2 _ _ hcounted).2⟩

end Grid

end SegmentFit
