import Mathlib.Data.List.Forall2

/-!
# Results — computations that may meet a fault

A result is a value or a fault. One step after another has a value iff the first one has and
the second one has a value for it (`bind_eq_ok_iff`), and a traversal has values iff each of its
elements has one (`mapM_eq_ok_iff`).
-/

namespace SegmentFit

/-! ## Single results -/

section Results

variable {ε ε' α β : Type} {e : Except ε α}

theorem exists_of_isOk (h : e.isOk = true) : ∃ a, e = .ok a := by
  cases e with
  | ok a => exact ⟨a, rfl⟩
  | error fault => exact nomatch h

/-- A computation in two steps succeeds if both of them do. -/
theorem bind_eq_ok_iff {f : α → Except ε β} {b : β} :
    (e >>= f) = .ok b ↔ ∃ a, e = .ok a ∧ f a = .ok b := by
  cases e with
  | error fault => exact iff_of_false nofun fun ⟨_, ha, _⟩ => nomatch ha
  | ok a =>
      constructor
      · intro h
        exact ⟨a, rfl, h⟩
      · rintro ⟨a', ⟨⟩, h⟩
        exact h

theorem mapError_eq_ok_iff {f : ε → ε'} {a : α} : e.mapError f = .ok a ↔ e = .ok a := by
  cases e <;> simp [Except.mapError]

/-- A result is the image of another one if that is a result. -/
theorem map_eq_ok_iff {f : α → β} {b : β} : e.map f = .ok b ↔ ∃ a, e = .ok a ∧ f a = b := by
  cases e <;> simp [Except.map]

end Results

/-! ## Traversals -/

section Traversal

variable {α β ε : Type} {l : List α}

/-- Every element has a result, in order, if the list of them has. -/
theorem mapM_eq_ok_iff {f : α → Except ε β} {l' : List β} :
    l.mapM f = .ok l' ↔ List.Forall₂ (fun a b => f a = .ok b) l l' := by
  induction l generalizing l' with
  | nil =>
      rw [List.mapM_nil, List.forall₂_nil_left_iff]
      exact ⟨fun h => (Except.ok.inj h).symm, fun h => h ▸ rfl⟩
  | cons a rest ih =>
      rw [List.mapM_cons, bind_eq_ok_iff, List.forall₂_cons_left_iff]
      simp only [bind_eq_ok_iff, ih]
      constructor
      · rintro ⟨b, hb, more, hmore, heq⟩
        exact ⟨b, more, hb, hmore, (Except.ok.inj heq).symm⟩
      · rintro ⟨b, more, hb, hmore, rfl⟩
        exact ⟨b, hb, more, hmore, rfl⟩

theorem exists_mapM_ok {f : α → Except ε β} {R : α → β → Prop}
    (h : ∀ x, ∃ y, f x = .ok y ∧ R x y) : ∃ ys, l.mapM f = .ok ys ∧ List.Forall₂ R l ys := by
  induction l with
  | nil => exact ⟨[], rfl, List.Forall₂.nil⟩
  | cons x rest ih =>
      obtain ⟨y, hy, hR⟩ := h x
      obtain ⟨ys, hys, hall⟩ := ih
      refine ⟨y :: ys, ?_, List.Forall₂.cons hR hall⟩
      rw [List.mapM_cons, hy, hys]
      rfl

theorem forM_ok {f : α → Except ε Unit} (h : ∀ x ∈ l, f x = .ok ()) : l.forM f = .ok () := by
  induction l with
  | nil => rfl
  | cons x rest ih =>
      have hrest := ih fun y hy => h y (List.mem_cons_of_mem _ hy)
      show (f x >>= fun _ => rest.forM f) = _
      rw [h x List.mem_cons_self]
      exact hrest

theorem forM_error {f : α → Except ε Unit} {x : α} {fault : ε} (h : f x = .error fault) :
    (x :: l).forM f = .error fault := by
  show (f x >>= fun _ => l.forM f) = _
  rw [h]
  rfl

end Traversal

end SegmentFit
