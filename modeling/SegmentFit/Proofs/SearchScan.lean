import SegmentFit.Proofs.SearchTrace

/-!
# Searches and scans — halving against asking for every size

A scan asks for every size up to the bound and keeps the last one that is accepted. A search
asks for a few of them, and takes size `0` for granted. What it finds was accepted or is `0`, so
whatever the predicate, it is no greater than what the scan finds (`lo_le_scanLargest`). If the
predicate accepts every size below an accepted one, both find the greatest accepted size, or `0`
if there is none. Since a search never asks for size `0`, this is so also if that is refused
(`greatestAccepted_of_isGreatest`).
-/

namespace SegmentFit.Search

variable {accept : Nat → Bool} {n k : Nat} {r : SearchReceipt}

/-- A size is the greatest accepted one up to a bound, or `0` if none of them is accepted. -/
structure GreatestAccepted (accept : Nat → Bool) (n k : Nat) : Prop where
  le_bound : k ≤ n
  le : ∀ j ≤ n, accept j = true → j ≤ k
  accepted : accept k = true ∨ k = 0 ∧ ∀ j ≤ n, accept j = false

/-- To take size `0` for granted makes no difference: it comes out only if no other size is
accepted. -/
theorem greatestAccepted_of_isGreatest (h : IsGreatest (admitted accept n) k) :
    GreatestAccepted accept n k where
  le_bound := h.1.1
  le := by
    intro j hj hask
    exact h.2 ⟨hj, Or.inr hask⟩
  accepted := by
    cases hask : accept k with
    | true => exact Or.inl rfl
    | false =>
        have hzero : k = 0 := h.1.2.resolve_right (by rw [hask]; exact Bool.false_ne_true)
        refine Or.inr ⟨hzero, fun j hj => ?_⟩
        cases haccept : accept j with
        | false => rfl
        | true =>
            -- an accepted size is no greater than `0`, and `0` was refused
            have hle : j ≤ k := h.2 ⟨hj, Or.inr haccept⟩
            have heq : j = k := by omega
            rw [heq, hask] at haccept
            exact haccept.symm

/-- **A search finds no more than a scan**, whatever the predicate. -/
theorem lo_le_scanLargest (h : r.Traces accept n) : r.lo ≤ scanLargest accept n := by
  refine (isGreatest_scanLargest accept n).2 ⟨h.le_bound, ?_⟩
  rcases h.accepted with hzero | hmem
  · exact Or.inl hzero
  · exact Or.inr (h.answers _ hmem).symm

/-- If the size beyond the bound is refused, the sizes that are asked for are those of the
trace. -/
theorem questions_of_refused (hrefused : accept (n + 1) = false) :
    questions accept n = (trace accept n).map Probe.size := by
  rw [questions, if_neg (by rw [hrefused]; exact Bool.false_ne_true)]

/-- Size `0` is not asked for. -/
theorem zero_notMem_probes (h : r.Traces accept n) : 0 ∉ r.probes.map Probe.size := by
  intro hmem
  obtain ⟨p, hp, hsize⟩ := List.mem_map.mp hmem
  exact absurd hsize (Nat.ne_of_gt (h.pos p hp))

/-- **Searches and scans**, if the size beyond the bound is refused and has a varint. The search
has a result; it does not ask for size `0`, and finds no more than the scan. If the predicate
accepts every size below an accepted one, it finds as much as the scan: the greatest accepted
size, or `0` if none is accepted. If the size beyond the bound has no varint, the search overflows
and has no result. -/
theorem scan_agreement (n : Nat) (accept : Nat → Bool) (hn : 1 ≤ n)
    (hrefused : accept (n + 1) = false) :
    (n + 1 < Varint.limit → ∃ r asked,
      largest accept n = .ok r
      ∧ (largestAsking (recording accept) n).run [] = (.ok r, asked) ∧ 0 ∉ asked
      ∧ r.lo ≤ scanLargest accept n
      ∧ ((∀ j ≤ n, accept (j + 1) = true → accept j = true) →
          r.lo = scanLargest accept n ∧ GreatestAccepted accept n r.lo))
    ∧ (Varint.limit ≤ n + 1 → Overflows accept n) := by
  refine ⟨fun hbound => ?_, fun hlarge => overflows hn hlarge hrefused⟩
  obtain ⟨bytes, hbytes, hlargest⟩ := largest_eq hn hbound hrefused
  have htraces := traces_bisect hrefused hbytes
  refine ⟨_, (trace accept n).map Probe.size, hlargest, ?_, zero_notMem_probes htraces,
    lo_le_scanLargest htraces, fun hdown => ?_⟩
  · rw [run_largestAsking_recording accept hn, hlargest, questions_of_refused hrefused]
  · have hgreatest := isGreatest_lo_bisect hrefused hdown
    exact ⟨hgreatest.unique (isGreatest_scanLargest accept n),
      greatestAccepted_of_isGreatest hgreatest⟩

/-- A predicate with a gap, for which the scan finds more, and one that accepts no size. -/
theorem scan_agreement_four :
    1 ≤ 4 ∧ 4 + 1 < Varint.limit
      ∧ (∃ r, largest (fun size => size == 2 || size == 4) 4 = .ok r
          ∧ r.lo ≤ scanLargest (fun size => size == 2 || size == 4) 4
          ∧ r.lo = 2 ∧ scanLargest (fun size => size == 2 || size == 4) 4 = 4)
      ∧ ∃ r, largest (fun _ => false) 4 = .ok r ∧ r.lo = scanLargest (fun _ => false) 4
          ∧ GreatestAccepted (fun _ => false) 4 r.lo ∧ r.lo = 0 := by
  have hbound : 4 + 1 < Varint.limit := by decide
  obtain ⟨gap, -, hgap, -, -, hle, -⟩ :=
    (scan_agreement 4 (fun size => size == 2 || size == 4) (by decide) (by decide)).1 hbound
  obtain ⟨none, -, hnone, -, -, -, hagree⟩ :=
    (scan_agreement 4 (fun _ => false) (by decide) rfl).1 hbound
  obtain ⟨heq, hgreatest⟩ := hagree fun _ _ hask => nomatch hask
  refine ⟨by decide, hbound, ⟨gap, hgap, hle, ?_, by decide⟩, none, hnone, heq, hgreatest, ?_⟩
  · have hfound : (largest (fun size => size == 2 || size == 4) (4 : Nat)).toOption.map
        SearchReceipt.lo = some 2 := by decide +kernel
    rw [hgap] at hfound
    exact Option.some.inj hfound
  · rw [heq]
    decide

/-- A search up to `2 ^ 63 - 1` finds nothing to compare with a scan: it has no result, though
the size beyond is refused and every size below an accepted one is accepted. -/
theorem scan_beyond_varints :
    1 ≤ 0x7FFFFFFFFFFFFFFF ∧ decide (0x7FFFFFFFFFFFFFFF + 1 ≤ 5) = false
      ∧ (∀ j ≤ 0x7FFFFFFFFFFFFFFF, decide (j + 1 ≤ 5) = true → decide (j ≤ 5) = true)
      ∧ ¬ ∃ r, largest (fun size => decide (size ≤ 5)) 0x7FFFFFFFFFFFFFFF = .ok r
          ∧ r.lo ≤ scanLargest (fun size => decide (size ≤ 5)) 0x7FFFFFFFFFFFFFFF := by
  refine ⟨by decide, by decide, fun j _ hask => ?_, ?_⟩
  · rw [decide_eq_true_eq] at hask ⊢
    omega
  · rintro ⟨r, hr, -⟩
    have hoverflows : Overflows (fun size => decide (size ≤ 5)) 0x7FFFFFFFFFFFFFFF :=
      overflows (by decide) (by decide) (by decide)
    exact nomatch hr.symm.trans hoverflows.fault

end SegmentFit.Search
