import Mathlib.Data.Nat.Log
import Mathlib.Order.Bounds.Basic
import SegmentFit.Proofs.CellBytes
import SegmentFit.Search

/-!
# Search — what halving an interval finds

`Bracket.Narrows` is what a bracket and its probes say of the predicate that was asked, for
any predicate: the ends are neighbours, each of them was probed unless it is an end of the
whole interval, and every probe lies strictly inside with the answer that the predicate
gives. One question preserves it on either side (`Narrows.accepted`, `Narrows.refused`), so
halving has it (`bisect_narrows`). The number of questions is a logarithm, rounded down at
the least and up at the most (`log_le_length_probes_bisect`, `length_probes_bisect_le`), so a
trace of sizes below the limit can always be framed (`largest_eq`).

For a predicate that accepts every size below an accepted one, the lower end is the
greatest accepted size, and so is the result of asking for every size
(`isGreatest_lo_bisect`, `isGreatest_scanLargest`).
-/

namespace SegmentFit.Probe

/-! ## Traces -/

/-- The numbers that a list of probes is framed as: sizes and answers in turn. -/
def numbers (probes : List Probe) : List Nat :=
  probes.flatMap fun p => [p.size, if p.accepted then 1 else 0]

/-- The bytes that the trace of a search is hashed from. -/
def bytes? (probes : List Probe) : Except VarintFault (List UInt8) :=
  encode? (probes.map fun p => ((p.size : Int), p.accepted))

theorem bytes?_eq (probes : List Probe) :
    bytes? probes = Frame.encode? ((numbers probes).map Int.ofNat) := by
  have hvalues : (probes.map fun p => ((p.size : Int), p.accepted)).flatMap
        (fun x => [x.1, if x.2 then 1 else 0])
      = (numbers probes).map Int.ofNat := by
    rw [numbers, List.flatMap_map, List.map_flatMap]
    congr 1
    funext p
    cases p.accepted <;> rfl
  show Frame.encode? ((probes.map fun p => ((p.size : Int), p.accepted)).flatMap
    fun x => [x.1, if x.2 then 1 else 0]) = _
  rw [hvalues]

theorem length_numbers (probes : List Probe) : (numbers probes).length = 2 * probes.length := by
  induction probes with
  | nil => rfl
  | cons p rest ih =>
      rw [numbers, List.flatMap_cons, List.length_append, ← numbers, ih]
      show 2 + 2 * rest.length = 2 * (rest.length + 1)
      omega

/-- The numbers of probes of sizes in range are in range. -/
theorem lt_limit_of_mem_numbers {probes : List Probe}
    (hsizes : ∀ p ∈ probes, p.size < Varint.limit) {v : Nat} (hv : v ∈ numbers probes) :
    v < Varint.limit := by
  obtain ⟨p, hp, hmem⟩ := List.mem_flatMap.mp hv
  rcases List.mem_cons.mp hmem with rfl | hbit
  · exact hsizes p hp
  · rw [List.mem_singleton.mp hbit]
    cases p.accepted <;> decide

/-- A trace of fewer than `2 ^ 62` probes of sizes in range can be framed. -/
theorem exists_bytes (probes : List Probe) (hlength : 2 * probes.length < Varint.limit)
    (hsizes : ∀ p ∈ probes, p.size < Varint.limit) :
    ∃ bytes, bytes? probes = .ok bytes := by
  refine ⟨Frame.encode (numbers probes), ?_⟩
  rw [bytes?_eq]
  refine Frame.encode?_map ⟨?_, fun _ hv => lt_limit_of_mem_numbers hsizes hv⟩
  rw [length_numbers]
  exact hlength

end SegmentFit.Probe

namespace SegmentFit.Search

/-! ## Halving -/

/-- What a bracket and its probes say of a predicate on the interval from `lo` to `hi`. -/
structure Bracket.Narrows (accept : Nat → Bool) (lo hi : Nat) (b : Bracket) : Prop where
  neighbours : b.hi = b.lo + 1
  answers : ∀ p ∈ b.probes, p.accepted = accept p.size
  inside : ∀ p ∈ b.probes, lo < p.size ∧ p.size < hi
  sides : ∀ p ∈ b.probes, p.accepted = true ↔ p.size ≤ b.lo
  distinct : (b.probes.map Probe.size).Nodup
  lo_probed : b.lo = lo ∨ ⟨b.lo, true⟩ ∈ b.probes
  hi_probed : b.hi = hi ∨ ⟨b.hi, false⟩ ∈ b.probes

namespace Bracket.Narrows

variable {accept : Nat → Bool} {lo hi middle : Nat} {b : Bracket}

theorem lo_le (h : b.Narrows accept lo hi) : lo ≤ b.lo := by
  rcases h.lo_probed with heq | hmem
  · exact Nat.le_of_eq heq.symm
  · exact Nat.le_of_lt (h.inside _ hmem).1

theorem hi_le (h : b.Narrows accept lo hi) : b.hi ≤ hi := by
  rcases h.hi_probed with heq | hmem
  · exact Nat.le_of_eq heq
  · exact Nat.le_of_lt (h.inside _ hmem).2

/-- An accepted question moves the lower end up. -/
theorem accepted (hlo : lo < middle) (hhi : middle < hi) (hask : accept middle = true)
    (h : b.Narrows accept middle hi) :
    ({ b with probes := ⟨middle, true⟩ :: b.probes } : Bracket).Narrows accept lo hi where
  neighbours := h.neighbours
  answers := by
    intro p hp
    rcases List.mem_cons.mp hp with rfl | hrest
    · exact hask.symm
    · exact h.answers p hrest
  inside := by
    intro p hp
    rcases List.mem_cons.mp hp with rfl | hrest
    · exact ⟨hlo, hhi⟩
    · exact ⟨Nat.lt_trans hlo (h.inside p hrest).1, (h.inside p hrest).2⟩
  sides := by
    intro p hp
    rcases List.mem_cons.mp hp with rfl | hrest
    · exact iff_of_true rfl h.lo_le
    · exact h.sides p hrest
  distinct := by
    rw [List.map_cons, List.nodup_cons]
    refine ⟨fun hmem => ?_, h.distinct⟩
    obtain ⟨p, hp, hsize⟩ := List.mem_map.mp hmem
    have hlt : middle < p.size := (h.inside p hp).1
    have heq : p.size = middle := hsize
    omega
  lo_probed := by
    rcases h.lo_probed with heq | hmem
    · refine Or.inr (List.mem_cons.mpr (Or.inl ?_))
      rw [heq]
    · exact Or.inr (List.mem_cons_of_mem _ hmem)
  hi_probed := h.hi_probed.imp_right (List.mem_cons_of_mem _)

/-- A refused question moves the upper end down. -/
theorem refused (hlo : lo < middle) (hhi : middle < hi) (hask : accept middle = false)
    (h : b.Narrows accept lo middle) :
    ({ b with probes := ⟨middle, false⟩ :: b.probes } : Bracket).Narrows accept lo hi where
  neighbours := h.neighbours
  answers := by
    intro p hp
    rcases List.mem_cons.mp hp with rfl | hrest
    · exact hask.symm
    · exact h.answers p hrest
  inside := by
    intro p hp
    rcases List.mem_cons.mp hp with rfl | hrest
    · exact ⟨hlo, hhi⟩
    · exact ⟨(h.inside p hrest).1, Nat.lt_trans (h.inside p hrest).2 hhi⟩
  sides := by
    intro p hp
    rcases List.mem_cons.mp hp with rfl | hrest
    · have hle : b.hi ≤ middle := h.hi_le
      have hnext : b.hi = b.lo + 1 := h.neighbours
      exact iff_of_false Bool.false_ne_true (by show ¬ middle ≤ b.lo; omega)
    · exact h.sides p hrest
  distinct := by
    rw [List.map_cons, List.nodup_cons]
    refine ⟨fun hmem => ?_, h.distinct⟩
    obtain ⟨p, hp, hsize⟩ := List.mem_map.mp hmem
    have hlt : p.size < middle := (h.inside p hp).2
    have heq : p.size = middle := hsize
    omega
  lo_probed := h.lo_probed.imp_right (List.mem_cons_of_mem _)
  hi_probed := by
    rcases h.hi_probed with heq | hmem
    · refine Or.inr (List.mem_cons.mpr (Or.inl ?_))
      rw [heq]
    · exact Or.inr (List.mem_cons_of_mem _ hmem)

end Bracket.Narrows

/-- **Halving narrows** every interval that is not empty, whatever the predicate. -/
theorem bisect_narrows (accept : Nat → Bool) (lo hi : Nat) (h : lo < hi) :
    (bisect accept lo hi).Narrows accept lo hi := by
  fun_induction bisect accept lo hi with
  | case1 lo hi hstop =>
      have hnext : hi = lo + 1 := by omega
      exact
        { neighbours := hnext
          answers := fun _ hp => nomatch hp
          inside := fun _ hp => nomatch hp
          sides := fun _ hp => nomatch hp
          distinct := List.nodup_nil
          lo_probed := Or.inl rfl
          hi_probed := Or.inl rfl }
  | case2 lo hi hgo middle ask rest ihup ihdown =>
      -- the middle lies strictly inside, so neither half is empty
      have hlo : lo < middle := by
        show lo < lo + (hi - lo) / 2
        omega
      have hhi : middle < hi := by
        show lo + (hi - lo) / 2 < hi
        omega
      by_cases hask : ask = true
      · have hrest : rest = bisect accept middle hi := if_pos hask
        rw [hrest, hask]
        exact (ihup hhi).accepted hlo hhi hask
      · have hrest : rest = bisect accept lo middle := if_neg hask
        rw [Bool.not_eq_true] at hask
        rw [hrest, hask]
        exact (ihdown hlo).refused hlo hhi hask

/-- Halving asks a logarithm of the interval's length, rounded up, at the most. -/
theorem length_probes_bisect_le (accept : Nat → Bool) (lo hi : Nat) :
    (bisect accept lo hi).probes.length ≤ Nat.clog 2 (hi - lo) := by
  fun_induction bisect accept lo hi with
  | case1 lo hi hstop => exact Nat.zero_le _
  | case2 lo hi hgo middle ask rest ihup ihdown =>
      have hmiddle : middle = lo + (hi - lo) / 2 := rfl
      have hhalf : Nat.clog 2 (hi - lo) = Nat.clog 2 ((hi - lo + 2 - 1) / 2) + 1 :=
        Nat.clog_of_two_le (by omega) (by omega)
      -- either half is at most half as long, rounded up
      show rest.probes.length + 1 ≤ _
      rw [hhalf, Nat.add_le_add_iff_right]
      by_cases hask : ask = true
      · have hrest : rest = bisect accept middle hi := if_pos hask
        rw [hrest]
        exact ihup.trans (Nat.clog_mono_right 2 (by omega))
      · have hrest : rest = bisect accept lo middle := if_neg hask
        rw [hrest]
        exact ihdown.trans (Nat.clog_mono_right 2 (by omega))

/-- Halving asks a logarithm of the interval's length, rounded down, at the least. -/
theorem log_le_length_probes_bisect (accept : Nat → Bool) (lo hi : Nat) :
    Nat.log 2 (hi - lo) ≤ (bisect accept lo hi).probes.length := by
  fun_induction bisect accept lo hi with
  | case1 lo hi hstop =>
      have hzero : Nat.log 2 (hi - lo) = 0 := Nat.log_of_lt (by omega)
      exact Nat.le_of_eq hzero
  | case2 lo hi hgo middle ask rest ihup ihdown =>
      have hmiddle : middle = lo + (hi - lo) / 2 := rfl
      have hhalf : Nat.log 2 (hi - lo) = Nat.log 2 ((hi - lo) / 2) + 1 :=
        Nat.log_of_one_lt_of_le (by omega) (by omega)
      -- either half is at least half as long, rounded down
      show _ ≤ rest.probes.length + 1
      rw [hhalf, Nat.add_le_add_iff_right]
      by_cases hask : ask = true
      · have hrest : rest = bisect accept middle hi := if_pos hask
        rw [hrest]
        exact (Nat.log_mono_right (by omega)).trans ihup
      · have hrest : rest = bisect accept lo middle := if_neg hask
        rw [hrest]
        exact (Nat.log_mono_right (by omega)).trans ihdown

/-! ## The greatest accepted size -/

/-- The sizes up to a bound that are accepted, and size `0`, which is taken for granted. -/
def admitted (accept : Nat → Bool) (n : Nat) : Set Nat :=
  {j | j ≤ n ∧ (j = 0 ∨ accept j = true)}

section Greatest

variable {accept : Nat → Bool} {n : Nat}

theorem accept_of_le (hdown : ∀ j ≤ n, accept (j + 1) = true → accept j = true) {i j : Nat}
    (hij : i ≤ j) (hj : j ≤ n + 1) (h : accept j = true) : accept i = true := by
  induction hij with
  | refl => exact h
  | step hle ih => exact ih (Nat.le_of_succ_le hj) (hdown _ (Nat.le_of_succ_le_succ hj) h)

/-- The lower end is the greatest accepted size, if the predicate accepts every size below
an accepted one. -/
theorem isGreatest_lo_bisect (hrefused : accept (n + 1) = false)
    (hdown : ∀ j ≤ n, accept (j + 1) = true → accept j = true) :
    IsGreatest (admitted accept n) (bisect accept 0 (n + 1)).lo := by
  have h := bisect_narrows accept 0 (n + 1) (Nat.succ_pos n)
  have hhi := h.hi_le
  have hnext := h.neighbours
  constructor
  · refine ⟨by omega, ?_⟩
    rcases h.lo_probed with hzero | hmem
    · exact Or.inl hzero
    · exact Or.inr (h.answers _ hmem).symm
  · rintro j ⟨hj, hzero | hask⟩
    · rw [hzero]
      exact Nat.zero_le _
    · -- a greater accepted size would lie at the upper end or above, which was refused
      by_contra hlt
      have hupper : accept (bisect accept 0 (n + 1)).hi = false := by
        rcases h.hi_probed with heq | hmem
        · rw [heq]; exact hrefused
        · exact (h.answers _ hmem).symm
      have hle : (bisect accept 0 (n + 1)).hi ≤ j := by omega
      have hbelow := accept_of_le hdown hle (Nat.le_succ_of_le hj) hask
      rw [hupper] at hbelow
      exact Bool.false_ne_true hbelow

/-- Asking for every size finds the greatest accepted one, whatever the predicate. -/
theorem isGreatest_scanLargest (accept : Nat → Bool) (n : Nat) :
    IsGreatest (admitted accept n) (scanLargest accept n) := by
  have hbound : ((n : Int) + 1).toNat = n + 1 := by omega
  rw [scanLargest, hbound]
  induction n with
  | zero =>
      have hbest : (List.range (0 + 1)).foldl
          (fun best size => if accept size then size else best) 0 = 0 := by
        show (if accept 0 then 0 else 0) = 0
        exact ite_self 0
      rw [hbest]
      exact ⟨⟨Nat.le_refl 0, Or.inl rfl⟩, fun j hj => hj.1⟩
  | succ n ih =>
      have hprev := ih (by omega)
      rw [List.range_succ, List.foldl_append]
      show IsGreatest _ (if accept (n + 1) then n + 1 else _)
      by_cases hask : accept (n + 1) = true
      · rw [if_pos hask]
        exact ⟨⟨Nat.le_refl _, Or.inr hask⟩, fun j hj => hj.1⟩
      · rw [if_neg hask]
        refine ⟨⟨Nat.le_succ_of_le hprev.1.1, hprev.1.2⟩, ?_⟩
        rintro j ⟨hj, hj'⟩
        rcases Nat.le_succ_iff.mp hj with hle | rfl
        · exact hprev.2 ⟨hle, hj'⟩
        · -- the new size is not zero and was refused
          exact absurd (hj'.resolve_left (Nat.succ_ne_zero n)) hask

end Greatest

/-! ## Searches -/

/-- The probes of a search whose first one is refused. -/
def trace (accept : Nat → Bool) (n : Nat) : List Probe :=
  ⟨n + 1, false⟩ :: (bisect accept 0 (n + 1)).probes

/-- What a search does once the size beyond the bound is refused: it halves, and hashes its
trace if that can be framed. -/
theorem largest_eq_map {accept : Nat → Bool} {n : Nat} (hn : 0 < n)
    (hrefused : accept (n + 1) = false) :
    largest accept n = ((Probe.bytes? (trace accept n)).mapError SearchFault.trace).map
      fun bytes => ⟨n, (bisect accept 0 (n + 1)).lo, (bisect accept 0 (n + 1)).hi,
        trace accept n, Blake3.hexDigest bytes⟩ := by
  rw [largest, if_neg (by omega), Int.toNat_natCast]
  simp only [hrefused, Bool.false_eq_true, if_false, trace, Probe.bytes?]
  cases Probe.encode? _ <;> rfl

/-- **A search has a result** whenever the size beyond the bound is refused. -/
theorem largest_eq {accept : Nat → Bool} {n : Nat} (hn : 0 < n)
    (hbound : n + 1 < Varint.limit) (hrefused : accept (n + 1) = false) :
    ∃ bytes, Probe.bytes? (trace accept n) = .ok bytes
      ∧ largest accept n = .ok ⟨n, (bisect accept 0 (n + 1)).lo, (bisect accept 0 (n + 1)).hi,
          trace accept n, Blake3.hexDigest bytes⟩ := by
  -- there are at most 64 probes, of sizes in range, so the trace can be framed
  have hnarrow := bisect_narrows accept 0 (n + 1) (Nat.succ_pos n)
  have hlog := length_probes_bisect_le accept 0 (n + 1)
  have hsmall : Nat.clog 2 (n + 1) ≤ 63 :=
    Nat.clog_le_of_le_pow (Nat.le_of_lt hbound)
  obtain ⟨bytes, hbytes⟩ := Probe.exists_bytes (trace accept n)
    (by
      have hlimit : 128 < Varint.limit := by decide
      rw [trace, List.length_cons]
      rw [Nat.sub_zero] at hlog
      omega)
    (by
      intro p hp
      rcases List.mem_cons.mp hp with rfl | hrest
      · exact hbound
      · exact Nat.lt_trans (hnarrow.inside p hrest).2 hbound)
  refine ⟨bytes, hbytes, ?_⟩
  rw [largest_eq_map hn hrefused, hbytes]
  rfl

end SegmentFit.Search
