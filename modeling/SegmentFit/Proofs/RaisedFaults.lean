import Mathlib.Algebra.Group.Nat.Defs
import SegmentFit.Fault

/-!
# Raised faults — what is seen of a fault

A fault is seen with its message if every integer in that can be written. Otherwise the refusal to
write it is seen instead, a value error that says nothing of the fault (`raised_of_not_allows`).
Without a limit every fault is seen (`unlimited_raised`).

Each limit leaves room for the numbers that a solve counts (`allows_of_lt`). So where a message
shows these and one number that was given, the given one decides (`raised_of_numbers`).
-/

namespace SegmentFit.DigitLimit

variable (limit : DigitLimit)

/-! ## Integers that can be written -/

section Allowed

variable {n : Int}

theorem allows_iff : limit.allows n = true ↔ ∀ d ∈ limit.digits, n.natAbs < 10 ^ d := by
  simp only [allows, Option.all_eq_true, decide_eq_true_eq, Option.mem_def, Nat.pow_eq]

/-- Every limit leaves room for the numbers that a solve counts. -/
theorem allows_of_lt (h : n.natAbs < 2 ^ 128) : limit.allows n = true := by
  refine limit.allows_iff.mpr fun d hd => Nat.lt_of_lt_of_le h ?_
  have hdigits : 128 ≤ d := Nat.le_trans (by decide) (limit.least d hd)
  exact Nat.le_trans (Nat.pow_le_pow_left (by decide) 128)
    (Nat.pow_le_pow_right (by decide) hdigits)

theorem unlimited_allows (n : Int) : unlimited.allows n = true :=
  rfl

/-- The standard limit allows the integers that are numerals. -/
theorem standard_allows_iff : standard.allows n = true ↔ n.natAbs < 10 ^ Numeral.digitLimit := by
  rw [allows_iff]
  constructor
  · intro h
    exact h _ rfl
  · rintro h _ ⟨⟩
    exact h

end Allowed

/-! ## Faults that are seen -/

section Raised

variable {ε : Type} [Fault ε] {fault : ε}

/-- A fault is seen if every integer in its message can be written. -/
theorem raised_of_allows (h : ∀ n ∈ Fault.numbers fault, limit.allows n = true) :
    limit.raised fault = ⟨Fault.kind fault, Fault.message fault⟩ :=
  if_pos (List.all_eq_true.mpr h)

/-- Without a limit every fault is seen. -/
theorem unlimited_raised (fault : ε) :
    unlimited.raised fault = ⟨Fault.kind fault, Fault.message fault⟩ :=
  unlimited.raised_of_allows fun n _ => unlimited_allows n

/-- One integer in the message that is too long hides the fault. -/
theorem raised_of_not_allows {n : Int} (hn : n ∈ Fault.numbers fault)
    (h : limit.allows n = false) : limit.raised fault = limit.refusal := by
  refine if_neg fun hall => ?_
  rw [List.all_eq_true.mp hall n hn] at h
  exact nomatch h

/-- **Where all integers in a message but one are short**, that one decides. -/
theorem raised_of_numbers {n : Int} (hn : n ∈ Fault.numbers fault)
    (h : ∀ m ∈ Fault.numbers fault, m ≠ n → m.natAbs < 2 ^ 128) :
    limit.raised fault
      = if limit.allows n then ⟨Fault.kind fault, Fault.message fault⟩ else limit.refusal := by
  by_cases hallows : limit.allows n = true
  · rw [if_pos hallows]
    refine limit.raised_of_allows fun m hm => ?_
    by_cases heq : m = n
    · rw [heq]
      exact hallows
    · exact limit.allows_of_lt (h m hm heq)
  · rw [if_neg hallows]
    exact limit.raised_of_not_allows hn (Bool.eq_false_iff.mpr hallows)

/-- A value error is seen as one, whether or not its message can be written. -/
theorem kind_raised_of_value (h : Fault.kind fault = .value) :
    (limit.raised fault).kind = .value := by
  rw [raised]
  split
  · exact h
  · rfl

end Raised

end SegmentFit.DigitLimit
