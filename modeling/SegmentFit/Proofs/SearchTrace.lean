import SegmentFit.Proofs.Frames
import SegmentFit.Proofs.RaisedFaults
import SegmentFit.Proofs.Search
import SegmentFit.Receipt

/-!
# Search traces — what is asked, and what the probes tell

A predicate may leave something behind whenever it is asked. `largestAsking` is a search
whose questions are actions, put one after the other as they come up. If each of them only
answers as a predicate does, the search has the result of `largest`, and the actions are run
for the sizes that `questions` lists, in that order and for no others (`largestAsking_eq`).

`SearchReceipt.Traces` is what a receipt says of the predicate, whether or not it accepts
every size below an accepted one; every search that is not refused has such a receipt
(`traces_of_largest_eq_ok`). The bytes that a trace is hashed from give back the probes
(`Probe.bytes?_injective`), and the probes give back the bound and the answer
(`Traces.eq_of_probes_eq`).
-/

namespace SegmentFit

/-! ## The bytes of a trace -/

namespace Probe

theorem numbers_injective {probes probes' : List Probe} (h : numbers probes = numbers probes') :
    probes = probes' := by
  induction probes generalizing probes' with
  | nil =>
      cases probes' with
      | nil => rfl
      | cons q rest' => exact nomatch h
  | cons p rest ih =>
      cases probes' with
      | nil => exact nomatch h
      | cons q rest' =>
          obtain ⟨psize, paccepted⟩ := p
          obtain ⟨qsize, qaccepted⟩ := q
          have hcons : psize :: (if paccepted then 1 else 0) :: numbers rest
              = qsize :: (if qaccepted then 1 else 0) :: numbers rest' := h
          obtain ⟨hsize, htail⟩ := List.cons.inj hcons
          obtain ⟨hbit, hrest⟩ := List.cons.inj htail
          have hbits : ∀ a b : Bool, (if a then 1 else 0) = (if b then 1 else 0) → a = b := by
            decide
          rw [hsize, hbits paccepted qaccepted hbit, ih hrest]

/-- A trace is known by the bytes that it is hashed from. -/
theorem bytes?_injective {probes probes' : List Probe} {bytes : List UInt8}
    (h : bytes? probes = .ok bytes) (h' : bytes? probes' = .ok bytes) : probes = probes' := by
  rw [bytes?_eq] at h h'
  have hnumbers : (numbers probes).map Int.ofNat = (numbers probes').map Int.ofNat :=
    Frame.encode?_injective h h'
  exact numbers_injective ((List.map_inj_right fun _ _ => Int.ofNat.inj).mp hnumbers)

end Probe

namespace Search

/-! ## Questions with effects -/

section Asking

variable {m : Type → Type} [Monad m]

/-- Halving with each question an action, put when it comes up. -/
def bisectAsking (ask : Nat → m Bool) (lo hi : Nat) : m Bracket :=
  if hi - lo ≤ 1 then pure ⟨lo, hi, []⟩
  else do
    let middle := lo + (hi - lo) / 2
    let accepted ← ask middle
    let rest ← if accepted then bisectAsking ask middle hi else bisectAsking ask lo middle
    return { rest with probes := ⟨middle, accepted⟩ :: rest.probes }
termination_by hi - lo
decreasing_by all_goals omega

/-- A search with each question an action, put when it comes up. -/
def largestAsking (ask : Nat → m Bool) (bound : Int) : m (Except SearchFault SearchReceipt) :=
  if bound < 1 then return .error (.bound bound)
  else do
    let n := bound.toNat
    let beyond ← ask (n + 1)
    if beyond then return .error (.unbounded (n + 1) n)
    else
      let bracket ← bisectAsking ask 0 (n + 1)
      let probes := ⟨n + 1, beyond⟩ :: bracket.probes
      return ((Probe.bytes? probes).mapError SearchFault.trace).map fun bytes =>
        ⟨n, bracket.lo, bracket.hi, probes, Blake3.hexDigest bytes⟩

/-- The sizes that a search asks for, in order. -/
def questions (accept : Nat → Bool) (n : Nat) : List Nat :=
  if accept (n + 1) then [n + 1] else (trace accept n).map Probe.size

variable [LawfulMonad m] {accept : Nat → Bool}

theorem bisectAsking_eq (act : Nat → m Unit) (lo hi : Nat) :
    bisectAsking (fun size => do act size; return accept size) lo hi
      = do
        forM ((bisect accept lo hi).probes.map Probe.size) act
        return bisect accept lo hi := by
  fun_induction bisect accept lo hi with
  | case1 lo hi hstop =>
      rw [bisectAsking, if_pos hstop, List.map_nil, List.forM_nil, pure_bind]
  | case2 lo hi hgo middle ask rest ihup ihdown =>
      rw [bisectAsking, if_neg hgo, List.map_cons, List.forM_cons]
      simp only [bind_assoc, pure_bind]
      -- the answer says in which half the next question lies
      by_cases hask : ask = true
      · have hup : rest = bisect accept middle hi := if_pos hask
        rw [if_pos hask, ihup, hup]
        simp only [bind_assoc, pure_bind]
        rfl
      · have hdown : rest = bisect accept lo middle := if_neg hask
        rw [if_neg hask, ihdown, hdown]
        simp only [bind_assoc, pure_bind]
        rfl

/-- **A search asks for the sizes of its probes**, in their order and for no others, and finds
the same whatever happens on the way. -/
theorem largestAsking_eq (act : Nat → m Unit) {n : Nat} (hn : 0 < n) :
    largestAsking (fun size => do act size; return accept size) n
      = do
        forM (questions accept n) act
        return largest accept n := by
  rw [largestAsking, if_neg (by omega), Int.toNat_natCast]
  simp only [bind_assoc, pure_bind]
  by_cases hbeyond : accept (n + 1) = true
  · rw [if_pos hbeyond, questions, if_pos hbeyond, largest, if_neg (by omega), Int.toNat_natCast]
    simp only [hbeyond, if_true, List.forM_cons, List.forM_nil, bind_assoc, pure_bind]
  · have hrefused : accept (n + 1) = false := Bool.eq_false_iff.mpr hbeyond
    rw [if_neg hbeyond, questions, if_neg hbeyond, largest_eq_map hn hrefused, trace,
      List.map_cons, List.forM_cons, bisectAsking_eq]
    simp only [bind_assoc, pure_bind, hrefused]

end Asking

/-! ## Keeping what was asked -/

/-- Keep something of each question, behind what was kept before. -/
def keep {σ : Type} {m : Type → Type} [Monad m] (entry : σ) : StateT (List σ) m Unit :=
  modify fun kept => kept ++ [entry]

theorem run_forM_keep {α σ : Type} {m : Type → Type} [Monad m] [LawfulMonad m] (entry : α → σ)
    (l : List α) (kept : List σ) :
    (forM l fun x => keep (m := m) (entry x)).run kept = pure ((), kept ++ l.map entry) := by
  induction l generalizing kept with
  | nil =>
      rw [List.map_nil, List.append_nil]
      rfl
  | cons x rest ih =>
      rw [List.forM_cons, StateT.run_bind]
      show (pure ((), kept ++ [entry x]) >>= _) = _
      rw [pure_bind, ih, List.map_cons, List.append_assoc]
      rfl

/-- A predicate that keeps the sizes that it is asked for. -/
def recording (accept : Nat → Bool) (size : Nat) : StateM (List Nat) Bool := do
  keep size
  return accept size

theorem run_largestAsking_recording (accept : Nat → Bool) {n : Nat} (hn : 0 < n) :
    (largestAsking (recording accept) n).run [] = (largest accept n, questions accept n) := by
  have hrun : largestAsking (recording accept) n = do
      forM (questions accept n) keep
      return largest accept n :=
    largestAsking_eq keep hn
  have hkept := run_forM_keep (m := Id) (fun size : Nat => size) (questions accept n) []
  rw [List.nil_append, List.map_id'] at hkept
  rw [hrun, StateT.run_bind, hkept]
  rfl

/-! ## What a receipt says -/

/-- The number for which a trace is not framed: the count of its numbers, which comes first, or else
the size beyond the bound. -/
def refusedNumber (accept : Nat → Bool) (n : Nat) : Nat :=
  let count := 2 * (trace accept n).length
  if Varint.limit ≤ count then count else n + 1

/-- Only a trace that no memory holds is not framed for its length. -/
theorem refusedNumber_eq (accept : Nat → Bool) {n : Nat} (h : Nat.clog 2 (n + 1) + 1 < 2 ^ 62) :
    refusedNumber accept n = n + 1 := by
  have hlength : (trace accept n).length ≤ Nat.clog 2 (n + 1) + 1 := by
    have hprobes := length_probes_bisect_le accept 0 (n + 1)
    rw [Nat.sub_zero] at hprobes
    exact Nat.succ_le_succ hprobes
  have hlimit : Varint.limit = 2 * 2 ^ 62 := by decide
  exact if_neg (by omega)

/-- A trace is not framed if its first size is not below the limit. -/
theorem bytes?_trace_eq_error (accept : Nat → Bool) {n : Nat} (hlarge : Varint.limit ≤ n + 1) :
    Probe.bytes? (trace accept n) = .error (.tooLarge (refusedNumber accept n)) := by
  have hrefuse {value : Nat} (h : Varint.limit ≤ value) :
      Varint.encode? (value : Int) = .error (.tooLarge value) := by
    rw [Varint.encode?, if_neg (by omega), if_pos (by omega)]
  rw [Probe.bytes?_eq, Frame.encode?, List.length_map, Probe.length_numbers]
  by_cases hcount : Varint.limit ≤ 2 * (trace accept n).length
  · have hnumber : refusedNumber accept n = 2 * (trace accept n).length := if_pos hcount
    rw [hnumber, hrefuse hcount]
    rfl
  · have hnumber : refusedNumber accept n = n + 1 := if_neg hcount
    rw [hnumber, Varint.encode?_natCast (Nat.lt_of_not_le hcount)]
    show (Frame.encodeValues? (((n + 1 : Nat) : Int) :: _) >>= _) = _
    rw [Frame.encodeValues?, hrefuse hlarge]
    rfl

/-- A search whose trace is not framed has no result. What is seen of it is the refused number,
unless that is too long to be written. -/
structure Overflows (accept : Nat → Bool) (n : Nat) : Prop where
  fault : largest accept n = .error (.trace (.tooLarge (refusedNumber accept n)))
  number : Nat.clog 2 (n + 1) + 1 < 2 ^ 62 → refusedNumber accept n = n + 1
  raised : ∀ limit : DigitLimit,
    limit.raised (SearchFault.trace (.tooLarge (refusedNumber accept n)))
      = if limit.allows (refusedNumber accept n) then
          ⟨.overflow, (VarintFault.tooLarge (refusedNumber accept n)).message⟩
        else limit.refusal

/-- **A search overflows** if the size beyond the bound has no varint. -/
theorem overflows {accept : Nat → Bool} {n : Nat} (hn : 0 < n) (hlarge : Varint.limit ≤ n + 1)
    (hrefused : accept (n + 1) = false) : Overflows accept n where
  fault := by
    rw [largest_eq_map hn hrefused, bytes?_trace_eq_error accept hlarge]
    rfl
  number := refusedNumber_eq accept
  raised := fun limit => limit.raised_tooLarge _

end Search

/-- What the receipt of a search says of a predicate, monotone or not. -/
structure SearchReceipt.Traces (accept : Nat → Bool) (n : Nat) (r : SearchReceipt) : Prop where
  /-- The answer stands in the receipt twice, and the upper end is next to it. -/
  json : r.json = .object [("n", .nat n), ("k", .nat r.lo), ("lo", .nat r.lo),
    ("hi", .nat (r.lo + 1)), ("probes", .arr (r.probes.map Probe.json)),
    ("trace_hash", .string r.traceDigest)]
  le_bound : r.lo ≤ n
  first : r.probes.head? = some ⟨n + 1, false⟩
  distinct : (r.probes.map Probe.size).Nodup
  pos : ∀ p ∈ r.probes, 0 < p.size
  answers : ∀ p ∈ r.probes, p.accepted = accept p.size
  sides : ∀ p ∈ r.probes, p.accepted = true ↔ p.size ≤ r.lo
  refused : ⟨r.lo + 1, false⟩ ∈ r.probes
  accepted : r.lo = 0 ∨ ⟨r.lo, true⟩ ∈ r.probes
  /-- The probes after the first one are as many as halving needs. -/
  halvings : Nat.log 2 (n + 1) ≤ r.probes.tail.length ∧ r.probes.tail.length ≤ Nat.clog 2 (n + 1)
  digest : ∃ bytes, Probe.bytes? r.probes = .ok bytes ∧ r.traceDigest = Blake3.hexDigest bytes

namespace SearchReceipt.Traces

variable {accept accept' : Nat → Bool} {n n' : Nat} {r r' : SearchReceipt}

/-- The lower end of one receipt lies below the upper end of another one with its probes. -/
theorem lo_le (h : r.Traces accept n) (h' : r'.Traces accept' n') (hprobes : r.probes = r'.probes) :
    r.lo ≤ r'.lo := by
  by_contra hlt
  have hmem : (⟨r'.lo + 1, false⟩ : Probe) ∈ r.probes := by
    rw [hprobes]
    exact h'.refused
  exact Bool.false_ne_true ((h.sides _ hmem).mpr (Nat.lt_of_not_le hlt))

/-- The probes tell the bound and the answer. -/
theorem eq_of_probes_eq (h : r.Traces accept n) (h' : r'.Traces accept' n')
    (hprobes : r.probes = r'.probes) : n = n' ∧ r.lo = r'.lo := by
  constructor
  · have hfirst := h.first
    rw [hprobes, h'.first] at hfirst
    have hsize : n' + 1 = n + 1 := congrArg Probe.size (Option.some.inj hfirst)
    exact (Nat.succ.inj hsize).symm
  · exact Nat.le_antisymm (h.lo_le h' hprobes) (h'.lo_le h hprobes.symm)

end SearchReceipt.Traces

namespace Search

variable {accept : Nat → Bool} {n : Nat}

/-- What halving leaves behind, with the refused size beyond the bound in front. -/
theorem traces_bisect {bytes : List UInt8} (hrefused : accept (n + 1) = false)
    (hbytes : Probe.bytes? (trace accept n) = .ok bytes) :
    SearchReceipt.Traces accept n ⟨n, (bisect accept 0 (n + 1)).lo,
      (bisect accept 0 (n + 1)).hi, trace accept n, Blake3.hexDigest bytes⟩ := by
  have hnarrows := bisect_narrows accept 0 (n + 1) (Nat.succ_pos n)
  have hnext := hnarrows.neighbours
  have hhi := hnarrows.hi_le
  have hle : (bisect accept 0 (n + 1)).lo ≤ n := by omega
  exact
    { json := by rw [← hnext]; rfl
      le_bound := hle
      first := rfl
      distinct := by
        rw [trace, List.map_cons, List.nodup_cons]
        refine ⟨fun hmem => ?_, hnarrows.distinct⟩
        obtain ⟨p, hp, hsize⟩ := List.mem_map.mp hmem
        have hlt : p.size < n + 1 := (hnarrows.inside p hp).2
        have heq : p.size = n + 1 := hsize
        omega
      pos := by
        intro p hp
        rcases List.mem_cons.mp hp with rfl | hrest
        · exact Nat.succ_pos n
        · exact (hnarrows.inside p hrest).1
      answers := by
        intro p hp
        rcases List.mem_cons.mp hp with rfl | hrest
        · exact hrefused.symm
        · exact hnarrows.answers p hrest
      sides := by
        intro p hp
        rcases List.mem_cons.mp hp with rfl | hrest
        · exact iff_of_false Bool.false_ne_true (Nat.not_le.mpr (Nat.lt_succ_of_le hle))
        · exact hnarrows.sides p hrest
      refused := by
        show (⟨(bisect accept 0 (n + 1)).lo + 1, false⟩ : Probe) ∈ trace accept n
        rw [← hnext]
        rcases hnarrows.hi_probed with heq | hmem
        · rw [heq]
          exact List.mem_cons_self
        · exact List.mem_cons_of_mem _ hmem
      accepted := hnarrows.lo_probed.imp_right (List.mem_cons_of_mem _)
      halvings := by
        have hlow := log_le_length_probes_bisect accept 0 (n + 1)
        have hup := length_probes_bisect_le accept 0 (n + 1)
        rw [Nat.sub_zero] at hlow hup
        exact ⟨hlow, hup⟩
      digest := ⟨bytes, hbytes, rfl⟩ }

/-- A search below the limit has a result, and the result traces the predicate. -/
theorem exists_traces (hn : 0 < n) (hbound : n + 1 < Varint.limit)
    (hrefused : accept (n + 1) = false) :
    ∃ r, largest accept n = .ok r ∧ r.probes = trace accept n ∧ r.Traces accept n := by
  obtain ⟨bytes, hbytes, hlargest⟩ := largest_eq hn hbound hrefused
  exact ⟨_, hlargest, rfl, traces_bisect hrefused hbytes⟩

/-- Whatever a search finds traces the predicate. -/
theorem traces_of_largest_eq_ok {r : SearchReceipt} (h : largest accept n = .ok r) :
    r.Traces accept n := by
  rcases Nat.eq_zero_or_pos n with rfl | hn
  · cases h
  · by_cases hbeyond : accept (n + 1) = true
    · rw [largest, if_neg (by omega), Int.toNat_natCast] at h
      simp only [hbeyond, if_true] at h
      cases h
    · have hrefused : accept (n + 1) = false := Bool.eq_false_iff.mpr hbeyond
      rcases Nat.lt_or_ge (n + 1) Varint.limit with hbound | hlarge
      · obtain ⟨r', hr', -, htraces⟩ := exists_traces hn hbound hrefused
        rw [hr'] at h
        rw [← Except.ok.inj h]
        exact htraces
      · rw [(overflows hn hlarge hrefused).fault] at h
        cases h

/-- **Searches for any predicate.** If the size beyond the bound is accepted, that is the only
question and the search is refused, with a value error. Otherwise it halves down to two
neighbours, and its receipt traces the predicate, unless the size beyond the bound is too large
for the trace to be framed: then the search overflows. Two searches whose traces have the same
bytes have the same bound, answer and probes. -/
theorem largest_exact (n : Nat) (accept : Nat → Bool) (hn : 0 < n) :
    (accept (n + 1) = true →
      (largestAsking (recording accept) n).run [] = (.error (.unbounded (n + 1) n), [n + 1])
        ∧ ∀ limit : DigitLimit, (limit.raised (SearchFault.unbounded (n + 1) n)).kind = .value)
    ∧ (accept (n + 1) = false → n + 1 < Varint.limit →
        ∃ r, (largestAsking (recording accept) n).run [] = (.ok r, r.probes.map Probe.size)
          ∧ largest accept n = .ok r ∧ r.Traces accept n)
    ∧ (accept (n + 1) = false → Varint.limit ≤ n + 1 → Overflows accept n)
    ∧ ∀ (n' : Nat) (accept' : Nat → Bool) (r r' : SearchReceipt) (bytes : List UInt8),
        largest accept n = .ok r → largest accept' n' = .ok r' →
        Probe.bytes? r.probes = .ok bytes → Probe.bytes? r'.probes = .ok bytes →
        n = n' ∧ r.lo = r'.lo ∧ r.probes = r'.probes := by
  have hrun := run_largestAsking_recording accept hn
  refine ⟨fun hbeyond => ?_, fun hrefused hbound => ?_, fun hrefused hlarge => ?_, ?_⟩
  · have hfault : largest accept n = .error (.unbounded (n + 1) n) := by
      rw [largest, if_neg (by omega), Int.toNat_natCast]
      simp only [hbeyond, if_true]
    rw [hrun, hfault, questions, if_pos hbeyond]
    exact ⟨rfl, fun limit => limit.kind_raised_of_value rfl⟩
  · obtain ⟨r, hr, hprobes, htraces⟩ := exists_traces hn hbound hrefused
    refine ⟨r, ?_, hr, htraces⟩
    rw [hrun, hr, hprobes, questions, if_neg (by rw [hrefused]; exact Bool.false_ne_true)]
  · exact overflows hn hlarge hrefused
  · intro n' accept' r r' bytes hr hr' hbytes hbytes'
    have hprobes : r.probes = r'.probes := Probe.bytes?_injective hbytes hbytes'
    obtain ⟨hbound, hlo⟩ :=
      (traces_of_largest_eq_ok hr).eq_of_probes_eq (traces_of_largest_eq_ok hr') hprobes
    exact ⟨hbound, hlo, hprobes⟩

/-- A predicate that accepts size `4` and not `3`, and one that accepts every size. -/
theorem largest_exact_four :
    0 < 4
      ∧ (∃ r, (largestAsking (recording fun size => size == 2 || size == 4) 4).run []
            = (.ok r, r.probes.map Probe.size)
          ∧ r.Traces (fun size => size == 2 || size == 4) 4)
      ∧ (largestAsking (recording fun _ => true) 4).run [] = (.error (.unbounded 5 4), [5]) := by
  have hfour : 0 < 4 := by decide
  obtain ⟨-, hgaps, -, -⟩ := largest_exact 4 (fun size => size == 2 || size == 4) hfour
  obtain ⟨r, hrun, -, htraces⟩ := hgaps (by decide) (by decide)
  exact ⟨hfour, ⟨r, hrun, htraces⟩, ((largest_exact 4 (fun _ => true) hfour).1 rfl).1⟩

/-- A search up to `2 ^ 63 - 1` has no result, though the size beyond is refused: that size
has no varint. -/
theorem largest_beyond_varints :
    0 < 0x7FFFFFFFFFFFFFFF ∧ decide (0x7FFFFFFFFFFFFFFF + 1 ≤ 5) = false
      ∧ largest (fun size => decide (size ≤ 5)) 0x7FFFFFFFFFFFFFFF
        = .error (.trace (.tooLarge 0x8000000000000000)) := by
  decide +kernel

end Search

end SegmentFit
