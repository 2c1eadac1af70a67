import Mathlib.Order.Interval.Finset.Fin
import Mathlib.Order.Interval.Finset.Nat
import SegmentFit.Proofs.ArrayBytes
import SegmentFit.Proofs.RowPhase
import SegmentFit.Proofs.Solve

/-!
# Exact words — no guard fires and no word wraps

Run lengths, differences, covers and window sums are kept in 64-bit words, and the operations
on the way check intervals, heights, signs and sizes. On a grid none of these checks ever
fails, and no word wraps: each table holds the integers that exact arithmetic gives.

* A run length is the difference of two positions on a line, so measured in words it is what
  the scanners measure in natural numbers (`toInt_runWords`).
* A tally of no more intervals than columns is exact, and so is whatever is summed up from it
  (`Tally.Counts.exact`). No point of the row phase counts more, because the counted ends
  follow each other along one row (`Grid.Reaches.length_counted_le`).
* The sizes that a search probes go up to one more than the side, and there are few of them
  (`Grid.framed_probes`).

`Grid.solve_safe` puts this together for a whole solve.
-/

namespace SegmentFit

open Finset

/-- A word holds an integer, and the integer lies between two bounds. -/
structure Holds (word : Int64) (value lo hi : Int) : Prop where
  eq : word.toInt = value
  lo_le : lo ≤ value
  le_hi : value ≤ hi

/-! ## Run lengths in words -/

/-- For each cell of a line, the position of the last blocked one up to there, `-1` if none. -/
def blockedWords {n : Nat} (cells : Vector Bool n) : Vector Int64 n :=
  scan (fun last cell => max last (if cell.1 then -1 else Int64.ofNat cell.2)) (-1) cells.zipIdx

/-- The run lengths of a line in 64-bit words: how far each cell lies behind the last blocked
one. -/
def runWords {n : Nat} (cells : Vector Bool n) : Vector Int64 n :=
  let last := blockedWords cells
  Vector.ofFn fun t => Int64.ofNat t - last.get t

theorem toInt_max (a b : Int64) : (max a b).toInt = max a.toInt b.toInt := by
  show (if a ≤ b then b else a).toInt = _
  by_cases hab : a ≤ b
  · rw [if_pos hab, max_eq_right (Int64.le_iff_toInt_le.mp hab)]
  · rw [if_neg hab, max_eq_left (Int.le_of_not_le fun h => hab (Int64.le_iff_toInt_le.mpr h))]

section Runs

variable {n : Nat} (cells : Vector Bool n)

/-- The last blocked position is the one before the barrier. -/
theorem toInt_blockedWords (hn : n < 2 ^ 63) (t : Nat) (ht : t < n) :
    (blockedWords cells)[t].toInt = ((barriers cells)[t] : Int) - 1
      ∧ (barriers cells)[t] ≤ t + 1 := by
  have hplace (t : Nat) (ht : t < n) : (Int64.ofNat t).toInt = t :=
    Int64.toInt_ofNat_of_lt (by omega)
  induction t with
  | zero =>
      have hword : (blockedWords cells)[0]
          = max (-1 : Int64) (if cells[0] then -1 else Int64.ofNat 0) := by
        rw [blockedWords, getElem_scan_zero, Vector.getElem_zipIdx]
      have hbarrier : (barriers cells)[0] = if cells[0] then 0 else 0 + 1 := by
        rw [barriers, getElem_scan_zero, Vector.getElem_zipIdx]
      rw [hword, hbarrier, toInt_max]
      cases cells[0] <;> decide
  | succ t ih =>
      obtain ⟨hprev, hle⟩ := ih (by omega)
      have hword : (blockedWords cells)[t + 1]
          = max (blockedWords cells)[t] (if cells[t + 1] then -1 else Int64.ofNat (t + 1)) := by
        rw [blockedWords, getElem_scan_succ, Vector.getElem_zipIdx, Nat.zero_add]
      have hbarrier : (barriers cells)[t + 1]
          = if cells[t + 1] then (barriers cells)[t] else t + 1 + 1 := by
        rw [barriers, getElem_scan_succ, Vector.getElem_zipIdx, Nat.zero_add]
      rw [hword, hbarrier, toInt_max, hprev]
      -- a blocked cell lies behind all positions so far, an open one changes nothing
      cases cells[t + 1] with
      | true =>
          have hnone : (-1 : Int64).toInt = -1 := by decide
          simp only [if_true, hnone]
          omega
      | false =>
          simp only [Bool.false_eq_true, if_false, hplace (t + 1) ht]
          omega

/-- **Run lengths do not wrap.** -/
theorem toInt_runWords (hn : n < 2 ^ 63) (t : Fin n) :
    ((runWords cells).get t).toInt = (runLengths cells).get t := by
  obtain ⟨hword, hle⟩ := toInt_blockedWords cells hn t t.isLt
  have hlast : (blockedWords cells).get t = Int64.ofInt ((barriers cells)[t.val] - 1) := by
    rw [← hword, Int64.ofInt_toInt]
    rfl
  have hdifference : (runWords cells).get t
      = Int64.ofInt (t.val - ((barriers cells)[t.val] - 1)) := by
    show (Vector.ofFn fun t => Int64.ofNat t - (blockedWords cells).get t)[t.val] = _
    rw [Vector.getElem_ofFn, Fin.eta, hlast, ← Int64.ofInt_eq_ofNat, ← Int64.ofInt_sub]
  have hlength : (runLengths cells).get t = t + 1 - (barriers cells)[t.val] := by
    show (Vector.ofFn fun t => t + 1 - (barriers cells).get t)[t.val] = _
    rw [Vector.getElem_ofFn]
    rfl
  rw [hdifference, hlength, Int64.toInt_ofInt_of_le (by omega) (by omega)]
  omega

end Runs

/-! ## Tallies -/

theorem sum_Iic_val {n : Nat} (f : Nat → Int) (j : Fin n) :
    ∑ s ∈ Iic j, f s = ∑ s ∈ range (j + 1), f s := by
  rw [Nat.range_succ_eq_Iic, ← Fin.map_valEmbedding_Iic, sum_map]
  rfl

/-- A sum over the rows of a window. -/
theorem sum_window {n : Nat} (f : Nat → Int) (k : Nat) (i : Fin n) :
    ∑ r ∈ Iic i with i.val < r.val + k, f r = ∑ r ∈ Ico (i.val + 1 - k) (i + 1), f r := by
  have hrows : Ico (i.val + 1 - k) (i + 1) = (range (i + 1)).filter fun r => i.val < r + k := by
    ext r
    rw [mem_Ico, mem_filter, mem_range]
    omega
  rw [sum_filter, sum_Iic_val fun r => if i.val < r + k then f r else 0, ← sum_filter, hrows]

namespace Tally

variable {side : Nat} {t : Tally side} {l : List Interval} {k : Nat}

/-- The words of a tally, and all words that are summed up from them, hold the integers that
exact sums give, and these are no greater than the side. -/
structure Exact (t : Tally side) (l : List Interval) (k : Nat) : Prop where
  differences : ∀ i j,
    Holds (t.differences.entry i j) (l.map fun v => v.change i j).sum (-side) side
  cover : ∀ i j,
    Holds (t.cover.entry i j) (∑ s ∈ Iic j.castSucc, (t.differences.entry i s).toInt) 0 side
  /-- The sums from the first row down to each row. -/
  columnSums : ∀ i j,
    Holds (t.cover.columnSums.entry i j) (∑ r ∈ Iic i, (t.cover.entry r j).toInt) 0 side
  windowSums : ∀ i j,
    Holds ((t.cover.windowSums k).entry i j)
      (∑ r ∈ Iic i with i.val < r.val + k, (t.cover.entry r j).toInt) 0 side

theorem holds_countP (hl : l.length ≤ side) {p : Interval → Bool} {word : Int64} {value : Int}
    (hword : word.toInt = l.countP p) (hvalue : value = l.countP p) : Holds word value 0 side := by
  have hle : l.countP p ≤ l.length := List.countP_le_length
  exact ⟨hword.trans hvalue.symm, by omega, by omega⟩

/-- **A tally of few intervals is exact.** -/
theorem Counts.exact (h : t.Counts l) (hl : l.length ≤ side) (hside : side + 1 < 2 ^ 63)
    (k : Nat) : t.Exact l k := by
  have hfew : l.length < 2 ^ 63 := by omega
  have hdifference (i : Fin side) (j : Fin (side + 1)) :
      Holds (t.differences.entry i j) (l.map fun v => v.change i j).sum (-side) side := by
    obtain ⟨hlo, hhi⟩ := sum_change_le l i j
    refine ⟨?_, by omega, by omega⟩
    rw [h.differences, Int64.toInt_ofInt_of_le (by omega) (by omega)]
  have hcover (i j : Fin side) :
      (t.cover.entry i j).toInt = (l.countP fun v => v.Contains i j : Nat) := by
    rw [entry_cover h, toInt_ofInt_countP hfew]
  -- the rows down to a row are the window that reaches up to the first one
  have hrows (i j : Fin side) :
      ∑ r ∈ range (i + 1), ((l.countP fun v => v.Contains r j : Nat) : Int)
        = (l.countP fun v => v.Meets (i + 1) i j : Nat) := by
    rw [← sum_countP_contains, Nat.sub_self, Nat.Ico_zero_eq_range]
  have hcolumn (i j : Fin side) : (t.cover.columnSums.entry i j).toInt
      = (l.countP fun v => v.Meets (i + 1) i j : Nat) := by
    rw [Table.entry_columnSums _ (fun r s => (l.countP fun v => v.Contains r s : Nat))
      (entry_cover h), hrows, toInt_ofInt_countP hfew]
  have hwindow (i j : Fin side) : ((t.cover.windowSums k).entry i j).toInt
      = (l.countP fun v => v.Meets k i j : Nat) :=
    toInt_windowSums_cover h hfew k i j
  refine ⟨hdifference, fun i j => holds_countP hl (hcover i j) ?_,
    fun i j => holds_countP hl (hcolumn i j) ?_, fun i j => holds_countP hl (hwindow i j) ?_⟩
  · simp only [(hdifference _ _).eq]
    rw [sum_Iic_val fun s => (l.map fun v => v.change i s).sum]
    exact sum_changes h.within i j
  · simp only [hcover]
    rw [sum_Iic_val fun r => (l.countP fun v => v.Contains r j : Nat), hrows]
  · simp only [hcover]
    rw [sum_window fun r => (l.countP fun v => v.Contains r j : Nat)]
    exact sum_countP_contains l k i j

end Tally

namespace Grid

/-! ## The tables of a grid -/

/-- The run lengths along an axis in 64-bit words, line by line. -/
def runWords (g : Grid) (axis : Axis) : Table Int64 g.side g.side :=
  match axis with
  | .rows => Table.ofFn fun i j => (SegmentFit.runWords (g.row i)).get j
  | .columns => Table.ofFn fun i j => (SegmentFit.runWords (g.column j)).get i

variable {g : Grid} {k : Nat} {s : RowPoint g.side}

/-- **The run matrices are exact**, and no entry is greater than the side. -/
theorem holds_runWords (g : Grid) (axis : Axis) (i j : Fin g.side) :
    Holds ((g.runWords axis).entry i j) ((g.runs axis).entry i j) 0 g.side := by
  have hside : g.side < 2 ^ 63 := Nat.lt_of_succ_lt g.side_bound
  cases axis with
  | rows =>
      have hle : (g.runs .rows).entry i j ≤ g.side := g.runAt_le .rows i j
      refine ⟨?_, by omega, by omega⟩
      rw [runWords, Table.entry_ofFn, toInt_runWords _ hside, entry_runs_rows]
  | columns =>
      have hle : (g.runs .columns).entry i j ≤ g.side := g.runAt_le .columns j i
      refine ⟨?_, by omega, by omega⟩
      rw [runWords, Table.entry_ofFn, toInt_runWords _ hside, entry_runs_columns]

/-- No point of the row phase has counted more segments than there are columns. -/
theorem Reaches.length_counted_le (h : g.Reaches k s) : s.counted.length ≤ g.side := by
  cases hcounted : s.counted with
  | nil => exact Nat.zero_le _
  | cons witness rest =>
      obtain ⟨more, hlist⟩ := h.exists_segmentEnds_eq hcounted
      have hfew := h.count_le hlist
      rw [h.count_eq, hcounted] at hfew
      omega

/-- At every point of the row phase the tally is exact. -/
theorem Reaches.exact (h : g.Reaches k s) (height : Nat) :
    s.tally.Exact (s.counted.map (SegmentEnd.interval k)) height := by
  refine h.counts.exact ?_ g.side_bound height
  rw [List.length_map]
  exact h.length_counted_le

end Grid

/-! ## Frames -/

namespace Grid

variable {g : Grid} {k : Nat} {s : RowPoint g.side}

/-- **The probes of a search can be framed.** -/
theorem framed_probes (g : Grid) :
    ∃ search, g.largestPair = .ok search ∧ Frame.InRange (Probe.numbers search.probes)
      ∧ ∃ bytes, Probe.bytes? search.probes = .ok bytes := by
  obtain ⟨search, hsearch, -, hprobes, hfew⟩ := g.exists_largestPair
  have hbound : g.side + 1 < Varint.limit := g.side_bound
  have hlog : Nat.clog 2 (g.side + 1) ≤ 63 := Nat.clog_le_of_le_pow (Nat.le_of_lt hbound)
  have hlimit : 128 < Varint.limit := by decide
  have hlength : 2 * search.probes.length < Varint.limit := by omega
  have hsizes : ∀ p ∈ search.probes, p.size < Varint.limit := fun p hp =>
    Nat.lt_of_le_of_lt (hprobes p hp).2.1 hbound
  refine ⟨search, hsearch, ⟨?_, fun v hv => Probe.lt_limit_of_mem_numbers hsizes hv⟩,
    Probe.exists_bytes _ hlength hsizes⟩
  rw [Probe.length_numbers]
  exact hlength

/-! ## Sweeps -/

/-- An end that is counted has an interval on the grid, which is added. -/
theorem Reaches.interval_mem (h : g.Reaches k s) {next : SegmentEnd g.side}
    {rest : List (SegmentEnd g.side)} (hleft : s.left = next :: rest)
    (hclears : ¬ (s.counted.headD next).clears k next = true) :
    (0 ≤ (next.stop.val : Int) - k + 1 ∧ (next.stop.val : Int) - k + 1 < next.stop.val + 1
        ∧ (next.stop.val : Int) + 1 ≤ g.side)
      ∧ ∃ u, s.tally.add next.line.val (next.stop.val - k + 1) (next.stop.val + 1) = .ok u := by
  have hle : k ≤ next.stop + 1 := (h.endsAt (Or.inr (hleft ▸ List.mem_cons_self))).1
  have hpos : 0 < k := by
    refine Nat.pos_of_ne_zero ?_
    rintro rfl
    -- segments without cells clear themselves, and are never counted
    rw [h.eq_rowStart] at hclears
    exact hclears (SegmentEnd.clears_iff.mpr (Or.inr ⟨rfl, Nat.le_refl _⟩))
  obtain ⟨u, hadd, -⟩ := exists_add hpos h.counts hle
  have hstop := next.stop.isLt
  exact ⟨by omega, u, hadd⟩

/-- The entries of a cover that a sweep takes are no greater than the side, and it can be
encoded. -/
theorem encoded_cover {found : Option Finding} {count : Nat} {cover : Table Int64 g.side g.side}
    (h : g.sweep k = .ok ⟨found, count, some cover⟩) :
    (∀ v ∈ cover.wordTensor.entries, 0 ≤ v ∧ v ≤ g.side)
      ∧ Frame.InRange cover.wordTensor.shape ∧ ∃ bytes, cover.wordTensor.bytes? = .ok bytes := by
  obtain ⟨s, hs, -, -, rfl⟩ := exists_point_of_cover h
  have hrange (i j : Fin g.side) :
      0 ≤ (s.tally.cover.entry i j).toInt ∧ (s.tally.cover.entry i j).toInt ≤ g.side := by
    have hholds := (hs.exact k).cover i j
    rw [hholds.eq]
    exact ⟨hholds.lo_le, hholds.le_hi⟩
  have hside : g.side < Varint.limit := Nat.lt_of_succ_lt g.side_bound
  refine ⟨fun v hv => ?_, g.inRange_shape, ?_⟩
  · obtain ⟨i, j, rfl⟩ := Table.exists_of_mem_entries_tensor hv
    exact hrange i j
  · obtain ⟨digest, hdigest⟩ : ∃ digest, s.tally.cover.wordTensor.digest? = .ok digest :=
      Table.digest?_tensor_isOk (by decide) (fun i j => (hrange i j).1) hside hside
    obtain ⟨bytes, hbytes, -⟩ := Tensor.exists_bytes_of_digest? hdigest
    exact ⟨bytes, hbytes⟩

/-- What a sweep checks on its way is so, and the words that it keeps are exact. -/
structure SafeSweep (g : Grid) (k : Nat) : Prop where
  /-- Every interval that is added lies on the grid. -/
  intervals : ∀ s next rest, g.Reaches k s → s.left = next :: rest →
    ¬ (s.counted.headD next).clears k next = true →
      (0 ≤ (next.stop.val : Int) - k + 1 ∧ (next.stop.val : Int) - k + 1 < next.stop.val + 1
          ∧ (next.stop.val : Int) + 1 ≤ g.side)
        ∧ ∃ u, s.tally.add next.line.val (next.stop.val - k + 1) (next.stop.val + 1) = .ok u
  words : ∀ s, g.Reaches k s → s.outcome k = g.rowPhase k ∧ s.tally.count ≤ g.side
    ∧ s.tally.Exact (s.counted.map (SegmentEnd.interval k)) k
  /-- Window sums are taken of the tally where the row phase ends, and have rows. -/
  windows : ∀ tally, g.rowPhase k = .ok (.counted tally) →
    (∃ s, g.Reaches k s ∧ s.left = [] ∧ s.tally = tally)
      ∧ 0 < k ∧ tally.cover.windowSums? k = .ok (tally.cover.windowSums k)
  encoded : ∀ found count cover, g.sweep k = .ok ⟨found, count, some cover⟩ →
    (∀ v ∈ cover.wordTensor.entries, 0 ≤ v ∧ v ≤ g.side)
      ∧ Frame.InRange cover.wordTensor.shape ∧ ∃ bytes, cover.wordTensor.bytes? = .ok bytes
  receipt : ∃ r, g.sweepReceipt k = .ok r

theorem safeSweep (g : Grid) (k : Nat) : g.SafeSweep k where
  intervals := fun _ _ _ hs hleft hclears => hs.interval_mem hleft hclears
  words := fun _ hs => ⟨hs.outcome_eq, hs.count_eq.trans_le hs.length_counted_le, hs.exact k⟩
  windows := fun tally h =>
    ⟨exists_point_of_counted h, pos_of_rowPhase_counted h,
      tally.cover.windowSums?_eq (pos_of_rowPhase_counted h)⟩
  encoded := fun _ _ _ h => encoded_cover h
  receipt := by
    obtain ⟨r, hr, -⟩ := g.exists_sweepReceipt k
    exact ⟨r, hr⟩

/-! ## Solves -/

/-- **No check fails on the way to an answer, and no word wraps.** The run matrices hold
integers up to the side, every sweep is safe, the size beyond the side is refused, and the
probes and the grid can be framed. So every mode has its sections, with an answer up to the
side. On a field of fewer than `2 ^ 63` cells the open ones are fewer, and neither they nor the
entries of a cover, which have four bytes each, are wrapped. -/
theorem solve_safe (g : Grid) :
    (∀ axis i j, Holds ((g.runWords axis).entry i j) ((g.runs axis).entry i j) 0 g.side)
    ∧ Tally.side? g.side = .ok g.side
    ∧ (∀ k, g.SafeSweep k)
    ∧ (Frame.InRange g.tensor.shape ∧ ∃ bytes, g.tensor.bytes? = .ok bytes)
    ∧ g.feasible (g.side + 1 : Nat) = .ok false
    ∧ (∃ search, g.largestPair = .ok search ∧ Frame.InRange (Probe.numbers search.probes)
        ∧ ∃ bytes, Probe.bytes? search.probes = .ok bytes)
    ∧ (g.side * g.side < 2 ^ 63 → g.openCount < 2 ^ 63 ∧ g.side < 2 ^ 32)
    ∧ ∀ mode, ∃ s, g.sections mode = .ok s ∧ s.stage.answer ≤ g.side := by
  have hpos := g.side_pos
  refine ⟨g.holds_runWords, ?_, g.safeSweep, ⟨g.inRange_shape, ?_⟩, ?_, g.framed_probes,
    fun harea => ⟨Nat.lt_of_le_of_lt g.openCount_le harea, ?_⟩, fun mode => ?_⟩
  · rw [Tally.side?, if_neg (by omega), Int.toNat_natCast]
  · obtain ⟨digest, hdigest⟩ := g.exists_tensor_digest
    obtain ⟨bytes, hbytes, -⟩ := Tensor.exists_bytes_of_digest? hdigest
    exact ⟨bytes, hbytes⟩
  · rw [g.feasible_natCast, g.accepts_eq_false_of_side_lt (Nat.lt_succ_self _)]
  · by_contra hlarge
    have hsquare : 2 ^ 32 * 2 ^ 32 ≤ g.side * g.side :=
      Nat.mul_le_mul (Nat.not_lt.mp hlarge) (Nat.not_lt.mp hlarge)
    omega
  · obtain ⟨s, hsections, hgreatest⟩ := g.exists_sections_greatest mode
    exact ⟨s, hsections, FitsMode.le_side hgreatest.1⟩

theorem solve_safe_tee :
    (tee.side * tee.side < 2 ^ 63 ∧ tee.openCount < 2 ^ 63)
      ∧ ∃ s : RowPoint tee.side, s.counted = [teeEnd 1, teeEnd 2] ∧ tee.Reaches 2 s
          ∧ s.tally.Exact (s.counted.map (SegmentEnd.interval 2)) 2 := by
  obtain ⟨-, -, hsweep, -, -, -, harea, -⟩ := tee.solve_safe
  obtain ⟨s, hs, hcounted⟩ := exists_reaches_tee
  have hsmall : tee.side * tee.side < 2 ^ 63 := by decide
  exact ⟨⟨hsmall, (harea hsmall).1⟩, s, hcounted, hs, ((hsweep 2).words s hs).2.2⟩

end Grid

end SegmentFit
