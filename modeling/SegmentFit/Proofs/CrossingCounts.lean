import SegmentFit.Proofs.Results
import SegmentFit.Proofs.SegmentEnds
import SegmentFit.Proofs.TallyRequests

/-!
# Crossings — how many counted intervals a vertical segment meets

An interval lies on one row, so a vertical segment shares no more than one cell with it. The
coverage along the segment, added up over its rows, therefore counts intervals and not cells:
those that the segment meets (`Request.Admissible.meets_iff`). This holds of any sequence of calls
that are all accepted (`Tally.addAll`), whichever rows they name and however often, so a tally can
tell whether a vertical segment misses an interval without having kept a single one of them.
-/

namespace SegmentFit

namespace Request

/-- A request covers one of the cells. -/
def Meets (r : Request) (cells : List Cell) : Prop :=
  ∃ c ∈ cells, r.Covers c.row c.col

instance (r : Request) (cells : List Cell) : Decidable (r.Meets cells) :=
  inferInstanceAs (Decidable (∃ c ∈ cells, _))

theorem not_meets_iff {r : Request} {cells : List Cell} :
    ¬ r.Meets cells ↔ ∀ c ∈ cells, ¬ r.Covers c.row c.col := by
  simp only [Meets, not_exists, not_and]

section Segments

variable {side k : Nat} {rs : List Request} {e : SegmentEnd side} (he : k ≤ e.stop + 1)

include he

/-- **An interval meets a vertical segment** where the row of the one crosses the column of the
other. -/
theorem Admissible.meets_iff {r : Request} (h : r.Admissible side) :
    r.interval.Meets k e.stop e.line ↔ r.Meets ((e.placement .columns k).cells k) := by
  constructor
  · rintro ⟨⟨htop, hbottom⟩, hcolumn⟩
    refine ⟨⟨r.interval.row, e.line⟩, Placement.mem_cells.mpr ⟨rfl, htop, ?_⟩, ?_⟩
    · show r.interval.row < e.stop.val + 1 - k + k
      omega
    · exact (h.contains_iff _ _).mp ⟨rfl, hcolumn⟩
  · rintro ⟨c, hc, hcovers⟩
    obtain ⟨hcol, htop, hbottom⟩ : c.col = e.line.val ∧ e.stop.val + 1 - k ≤ c.row
        ∧ c.row < e.stop.val + 1 - k + k := Placement.mem_cells.mp hc
    obtain ⟨hrow, hcolumn⟩ := (h.contains_iff _ _).mpr hcovers
    rw [hcol] at hcolumn
    rw [← hrow] at htop hbottom
    exact ⟨⟨htop, by omega⟩, hcolumn⟩

theorem countP_intervals_meet (h : ∀ r ∈ rs, r.Admissible side) :
    ((rs.map interval).countP fun v => v.Meets k e.stop e.line)
      = rs.countP fun r => r.Meets ((e.placement .columns k).cells k) := by
  rw [List.countP_map]
  refine List.countP_congr fun r hr => ?_
  rw [Function.comp, decide_eq_true_eq, decide_eq_true_eq, (h r hr).meets_iff he]

theorem exists_interval_misses_iff (h : ∀ r ∈ rs, r.Admissible side) :
    (∃ v ∈ rs.map interval, ¬ v.Meets k e.stop e.line)
      ↔ ∃ r ∈ rs, ∀ c ∈ (e.placement .columns k).cells k, ¬ r.Covers c.row c.col := by
  simp only [← not_meets_iff, List.mem_map, exists_exists_and_eq_and]
  refine exists_congr fun r => and_congr_right fun hr => ?_
  rw [(h r hr).meets_iff he]

end Segments

theorem counted_of_admissible {side : Nat} {rs : List Request} (h : ∀ r ∈ rs, r.Admissible side) :
    counted side rs = rs.map interval := by
  rw [counted, List.filter_eq_self.mpr fun r hr => decide_eq_true (h r hr)]

end Request

namespace Tally

variable {side : Nat} {t u : Tally side}

/-- What a tally is after calls, one after the other, if none of them is refused. -/
def addAll (t : Tally side) (calls : List Request) : Except CoverageFault (Tally side) :=
  calls.foldlM (fun t r => t.add r.row r.lo r.hi) t

/-! ## Calls that are all accepted -/

theorem add_eq_ok_iff {r : Request} :
    t.add r.row r.lo r.hi = .ok u ↔ r.Admissible side ∧ t.request r = u := by
  constructor
  · intro h
    refine ⟨(exists_add_iff t r).mp ⟨u, h⟩, ?_⟩
    rw [request, h]
  · rintro ⟨hin, rfl⟩
    obtain ⟨v, hv⟩ := (exists_add_iff t r).mpr hin
    rw [request, hv]

/-- Calls are all accepted iff they are admissible, and then each of them has been counted. -/
theorem addAll_eq_ok_iff {calls : List Request} :
    t.addAll calls = .ok u ↔ (∀ r ∈ calls, r.Admissible side) ∧ t.requests calls = u := by
  induction calls generalizing t with
  | nil => exact ⟨fun h => ⟨List.forall_mem_nil _, Except.ok.inj h⟩, fun h => congrArg _ h.2⟩
  | cons r rest ih =>
      have hstep : t.addAll (r :: rest) = t.add r.row r.lo r.hi >>= fun v => v.addAll rest :=
        List.foldlM_cons
      rw [hstep, bind_eq_ok_iff, List.forall_mem_cons]
      simp only [add_eq_ok_iff, ih]
      constructor
      · rintro ⟨v, ⟨hin, rfl⟩, hrest, hu⟩
        exact ⟨⟨hin, hrest⟩, hu⟩
      · rintro ⟨⟨hin, hrest⟩, hu⟩
        exact ⟨_, ⟨hin, rfl⟩, hrest, hu⟩

theorem counts_addAll {calls : List Request} (h : (empty side).addAll calls = .ok t) :
    t.Counts (calls.map Request.interval) := by
  obtain ⟨hin, rfl⟩ := addAll_eq_ok_iff.mp h
  rw [← Request.counted_of_admissible hin]
  exact counts_requests side calls

/-! ## Crossings -/

/-- **Window sums count crossings.** After any calls that were all accepted, the window sum at the
lower end of a vertical segment is the number of those calls whose intervals share a cell with the
segment. So it falls short of the count iff some of these intervals is disjoint from the segment. -/
theorem crossings_exact (n : Int) (k : Nat) (hk : 1 ≤ k) (hkn : k ≤ n) :
    ∃ side : Nat, side = n ∧ side? n = .ok side
      ∧ ∀ (calls : List Request) (t : Tally side), (empty side).addAll calls = .ok t →
          calls.length < 2 ^ 63 →
          ∃ sums, t.cover.windowSums? k = .ok sums ∧ ∀ e : SegmentEnd side, k ≤ e.stop + 1 →
            (sums.entry e.stop e.line).toInt
                = calls.countP (fun r => r.Meets ((e.placement .columns k).cells k))
              ∧ ((sums.entry e.stop e.line).toInt < t.count
                  ↔ ∃ r ∈ calls, ∀ c ∈ (e.placement .columns k).cells k, ¬ r.Covers c.row c.col) := by
  obtain ⟨side, rfl⟩ : ∃ side : Nat, n = side := ⟨n.toNat, by omega⟩
  refine ⟨side, rfl, ?_, fun calls t hcalls hfew => ?_⟩
  · rw [side?, if_neg (by omega), Int.toNat_natCast]
  · have hin := (addAll_eq_ok_iff.mp hcalls).1
    have hcounts := counts_addAll hcalls
    have hlength : (calls.map Request.interval).length < 2 ^ 63 := by rwa [List.length_map]
    refine ⟨_, Table.windowSums?_eq _ hk, fun e he => ⟨?_, ?_⟩⟩
    · rw [toInt_windowSums_cover hcounts hlength, Request.countP_intervals_meet he hin]
    · rw [windowSums_cover_lt_iff hcounts hlength, Request.exists_interval_misses_iff he hin]

/-- Two equal intervals that cross the lower two cells of the first column, and two that do not. -/
theorem crossings_exact_three :
    1 ≤ 2 ∧ ((2 : Nat) : Int) ≤ 3
      ∧ [⟨1, 0, 2⟩, ⟨0, 0, 3⟩, ⟨1, 0, 2⟩, (⟨2, 1, 3⟩ : Request)].length < 2 ^ 63
      ∧ ∃ (t : Tally 3) (sums : Table Int64 3 3),
          (empty 3).addAll [⟨1, 0, 2⟩, ⟨0, 0, 3⟩, ⟨1, 0, 2⟩, ⟨2, 1, 3⟩] = .ok t
            ∧ t.cover.windowSums? 2 = .ok sums
            ∧ (sums.entry 2 0).toInt = 2 ∧ (sums.entry 2 0).toInt < t.count := by
  obtain ⟨side, hside, -, hcalls⟩ := crossings_exact 3 2 (by decide) (by decide)
  obtain rfl : side = 3 := by omega
  have hall : (empty 3).addAll [⟨1, 0, 2⟩, ⟨0, 0, 3⟩, ⟨1, 0, 2⟩, ⟨2, 1, 3⟩] = .ok _ :=
    addAll_eq_ok_iff.mpr ⟨by decide, rfl⟩
  obtain ⟨sums, hsums, hentries⟩ := hcalls _ _ hall (by decide)
  obtain ⟨hcount, hless⟩ := hentries ⟨0, 2⟩ (by decide)
  refine ⟨by decide, by decide, by decide, _, sums, hall, hsums, hcount, hless.mpr ?_⟩
  exact ⟨⟨2, 1, 3⟩, by decide, by decide⟩

end Tally

end SegmentFit
