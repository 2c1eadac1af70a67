import Mathlib.Algebra.BigOperators.Group.List.Basic
import Mathlib.Algebra.Group.MinimalAxioms
import Mathlib.Data.Fintype.Prod
import Mathlib.Dynamics.PeriodicPts.Defs
import Mathlib.GroupTheory.SpecificGroups.Dihedral
import Mathlib.Logic.Equiv.Fin.Basic
import SegmentFit.Proofs.Poses

/-!
# The group of poses — one pose after another is a pose

The poses are a group. `q * p` is `p` first and `q` after it; a `q` that reflects makes what `p`
has turned a turn the other way round. The group is that of the symmetries of a square
(`symmetry`).

Whatever can be reflected and turned as a square can (`Symmetries`) is acted on by that group:
two poses one after the other are their product (`Symmetries.act_mul`). From the product alone
it follows that a sequence of poses is a single one, and that the inverses in reverse order
undo it (`acts_of_product`). Rectangles of any size are reflected and turned like that, since a
quarter turn does no more to the size than exchange height and width, and so are arrays, which
are posed as the rectangles of their entries are.
-/

namespace SegmentFit

namespace Pose

/-! ## The group -/

/-- First `p`, then `q`: a reflection turns what was turned before it the other way round. -/
instance : Mul Pose :=
  ⟨fun q p => ⟨q.reflected ^^ p.reflected, q.turns + if q.reflected then -p.turns else p.turns⟩⟩

instance : One Pose := ⟨identity⟩

instance : Inv Pose := ⟨inverse⟩

theorem mul_of_turned (s t : Fin 4) (f : Bool) : (⟨false, s⟩ * ⟨f, t⟩ : Pose) = ⟨f, s + t⟩ := by
  show Pose.mk (false ^^ f) (s + t) = _
  rw [Bool.false_xor]

/-- A reflection turns the other way round: the turns behind it count backwards. -/
theorem mul_of_reflected (s t : Fin 4) (f : Bool) :
    (⟨true, s⟩ * ⟨f, t⟩ : Pose) = ⟨!f, s - t⟩ := by
  show Pose.mk (true ^^ f) (s + -t) = _
  rw [Bool.true_xor, sub_eq_add_neg]

protected theorem mul_assoc (o p q : Pose) : o * p * q = o * (p * q) := by
  obtain ⟨f, r⟩ := o
  obtain ⟨g, s⟩ := p
  obtain ⟨h, t⟩ := q
  cases f with
  | false =>
      cases g with
      | false => rw [mul_of_turned, mul_of_turned, mul_of_turned, mul_of_turned, add_assoc]
      | true =>
          rw [mul_of_turned, mul_of_reflected, mul_of_reflected, mul_of_turned, add_sub_assoc]
  | true =>
      cases g with
      | false =>
          rw [mul_of_reflected, mul_of_turned, mul_of_reflected, Bool.not_false,
            mul_of_reflected, sub_sub]
      | true =>
          rw [mul_of_reflected, mul_of_reflected, mul_of_reflected, Bool.not_true, mul_of_turned,
            Bool.not_not, sub_add]

theorem identity_mul (p : Pose) : identity * p = p := by
  obtain ⟨f, t⟩ := p
  rw [identity, mul_of_turned, zero_add]

/-- A pose is undone by its inverse: what is reflected twice has turned to and fro. -/
theorem inverse_mul (p : Pose) : p.inverse * p = identity := by
  obtain ⟨f, t⟩ := p
  cases f with
  | false =>
      show (⟨false, -t⟩ * ⟨false, t⟩ : Pose) = ⟨false, 0⟩
      rw [mul_of_turned, neg_add_cancel]
  | true =>
      show (⟨true, t⟩ * ⟨true, t⟩ : Pose) = ⟨false, 0⟩
      rw [mul_of_reflected, sub_self, Bool.not_true]

instance : Group Pose :=
  Group.ofLeftAxioms Pose.mul_assoc identity_mul inverse_mul

/-- The symmetry of a square that a pose is. A reflection before some turns is one after as many
turns the other way round. -/
def symmetry : Pose ≃* DihedralGroup 4 where
  toFun p := if p.reflected then .sr (-(p.turns.val : ZMod 4)) else .r p.turns.val
  invFun g :=
    match g with
    | .r i => ⟨false, i⟩
    | .sr i => ⟨true, (-i : ZMod 4)⟩
  left_inv := by
    rintro ⟨f, t⟩
    revert t
    cases f <;> decide
  right_inv := by
    rintro (i | i) <;> revert i <;> decide
  map_mul' := by
    rintro ⟨f, s⟩ ⟨g, t⟩
    revert s t
    cases f <;> cases g <;> decide

/-! ## What the group acts on -/

/-- Reflecting and turning go together as they do on a square. -/
structure Symmetries {α : Type} (flip turn : α → α) : Prop where
  flip_flip : ∀ x, flip (flip x) = x
  turn_four : ∀ x, turn (turn (turn (turn x))) = x
  turn_flip_turn : ∀ x, turn (flip (turn x)) = flip x

section Symmetries

variable {α : Type} {flip turn : α → α}

theorem repeat_eq_iterate (n : Nat) (x : α) : Nat.repeat turn n x = turn^[n] x := by
  induction n with
  | zero => rfl
  | succ n ih =>
      rw [Function.iterate_succ_apply', ← ih]
      rfl

theorem act_turned (t : Fin 4) (x : α) : act flip turn ⟨false, t⟩ x = turn^[t] x :=
  repeat_eq_iterate _ _

theorem act_reflected (t : Fin 4) (x : α) : act flip turn ⟨true, t⟩ x = turn^[t] (flip x) :=
  repeat_eq_iterate _ _

namespace Symmetries

variable (h : Symmetries flip turn)
include h

/-- Turns that were iterated add up modulo four. -/
theorem iterate_iterate (s t : Fin 4) (x : α) :
    turn^[s] (turn^[t] x) = turn^[(s + t : Fin 4)] x := by
  have hperiod : Function.IsPeriodicPt turn 4 x := h.turn_four x
  rw [← Function.iterate_add_apply, Fin.val_add, hperiod.iterate_mod_apply]

/-- A reflection undoes the turns between which it stands. -/
theorem iterate_flip_iterate (n : Nat) (x : α) : turn^[n] (flip (turn^[n] x)) = flip x := by
  induction n with
  | zero => rfl
  | succ n ih =>
      rw [Function.iterate_succ_apply, Function.iterate_succ_apply', h.turn_flip_turn, ih]

/-- Turns before a reflection are turns the other way round after it. -/
theorem flip_iterate (t : Fin 4) (x : α) : flip (turn^[t] x) = turn^[(-t : Fin 4)] (flip x) := by
  rw [← h.iterate_flip_iterate t x, h.iterate_iterate, neg_add_cancel]
  rfl

/-- **Two poses one after the other** are their product. -/
theorem act_mul (q p : Pose) (x : α) :
    q.act flip turn (p.act flip turn x) = (q * p).act flip turn x := by
  obtain ⟨g, s⟩ := q
  obtain ⟨f, t⟩ := p
  cases g with
  | false =>
      rw [mul_of_turned, act_turned]
      cases f with
      | false => rw [act_turned, act_turned, h.iterate_iterate]
      | true => rw [act_reflected, act_reflected, h.iterate_iterate]
  | true =>
      rw [mul_of_reflected, act_reflected]
      cases f with
      | false =>
          rw [act_turned, h.flip_iterate, h.iterate_iterate, ← sub_eq_add_neg]
          exact (act_reflected _ _).symm
      | true =>
          rw [act_reflected, h.flip_iterate, h.flip_flip, h.iterate_iterate, ← sub_eq_add_neg]
          exact (act_turned _ _).symm

end Symmetries

end Symmetries

/-- Something is laid in poses as the group has it: two poses one after the other are their
product, so a sequence of poses is a single one, and it is undone by the inverses in reverse
order. -/
structure Acts {α : Type} (lay : Pose → α → α) (x : α) : Prop where
  product : ∀ p q : Pose, lay q (lay p x) = lay (q * p) x
  sequence : ∀ ps : List Pose, ps.foldl (fun y p => lay p y) x = lay ps.reverse.prod x
  undone : ∀ ps : List Pose,
    (ps.reverse.map inverse).foldl (fun y p => lay p y) (ps.foldl (fun y p => lay p y) x) = x

section Acts

variable {α β : Type} {lay : Pose → α → α} {lay' : Pose → β → β}

/-- **Poses that are applied one after the other** are one pose, their product. -/
theorem foldl_eq_prod (product : ∀ p q x, lay q (lay p x) = lay (q * p) x)
    (start : ∀ x, lay 1 x = x) (ps : List Pose) (x : α) :
    ps.foldl (fun y p => lay p y) x = lay ps.reverse.prod x := by
  induction ps generalizing x with
  | nil => exact (start x).symm
  | cons p rest ih =>
      rw [List.foldl_cons, ih, product, List.reverse_cons, List.prod_append, List.prod_singleton]

/-- Products are enough: the inverses of a sequence in reverse order are its inverse. -/
theorem acts_of_product (product : ∀ p q x, lay q (lay p x) = lay (q * p) x)
    (start : ∀ x, lay 1 x = x) (x : α) : Acts lay x where
  product p q := product p q x
  sequence ps := foldl_eq_prod product start ps x
  undone ps := by
    have hinverse : (ps.reverse.map inverse).reverse.prod = ps.reverse.prod⁻¹ :=
      (List.prod_inv_reverse _).symm
    rw [foldl_eq_prod product start, foldl_eq_prod product start, product, hinverse,
      inv_mul_cancel, start]

/-- What goes with poses is laid like what it is made of. -/
theorem Acts.map {x : α} (h : Acts lay x) {f : α → β} (comm : ∀ p y, lay' p (f y) = f (lay p y)) :
    Acts lay' (f x) := by
  have hfold (ps : List Pose) (y : α) :
      ps.foldl (fun z p => lay' p z) (f y) = f (ps.foldl (fun z p => lay p z) y) :=
    List.foldl_hom f fun z p => comm p z
  constructor
  · intro p q
    rw [comm, comm, comm, h.product]
  · intro ps
    rw [hfold, h.sequence, comm]
  · intro ps
    rw [hfold, hfold, h.undone]

end Acts

/-! ## Numbers -/

/-- Every pose is known by its number. -/
theorem ofNumber?_number (p : Pose) : ofNumber? p.number = some p := by
  obtain ⟨f, t⟩ := p
  revert t
  cases f <;> decide

/-- **A number names a pose** exactly if it is the number of that pose. -/
theorem ofNumber?_eq_some_iff (n : Int) (p : Pose) : ofNumber? n = some p ↔ n = p.number := by
  constructor
  · intro h
    rw [ofNumber?] at h
    split at h
    · cases h
      show n = ((n.toNat : Nat) : Int)
      omega
    · split at h
      · cases h
        show n = ((4 + (n - 4).toNat : Nat) : Int)
        omega
      · cases h
  · rintro rfl
    exact ofNumber?_number p

/-- What is applied under a number is the pose with that number, and other numbers are refused. -/
theorem applied_eq_ok_iff (n : Int) (p : Pose) : applied n = .ok p ↔ n = p.number := by
  rw [← ofNumber?_eq_some_iff, applied]
  cases ofNumber? n <;> simp

/-- What is applied to undo a pose is the inverse of the one with that number. -/
theorem inverted_eq_ok_iff (n : Int) (p : Pose) :
    inverted n = .ok p.inverse ↔ n = p.number := by
  rw [← ofNumber?_eq_some_iff, inverted]
  cases ofNumber? n with
  | none => simp
  | some q =>
      rw [Except.ok.injEq, Option.some.injEq]
      exact inv_inj

end Pose

/-! ## Rectangles -/

namespace Table

variable {α : Type} {h w : Nat}

/-- Two turns with a reflection between them are a reflection. -/
theorem turned_flipped_turned (t : Table α h w) : t.turned.flipped.turned = t.flipped := by
  ext i j
  rw [entry_turned, entry_flipped, entry_turned, entry_flipped, Fin.rev_rev]

/-- The entries of a table, each as often as it occurs. -/
theorem coe_flatten_toLists (t : Table α h w) :
    (t.toLists.flatten : Multiset α)
      = Finset.univ.val.map fun x : Fin h × Fin w => t.entry x.1 x.2 := by
  rw [flatten_toLists, ← Fin.univ_val_map,
    ← Multiset.map_univ_val_equiv (finProdFinEquiv (m := h) (n := w)).symm, Multiset.map_map]
  rfl

/-- A bijection of the places moves the entries and keeps how often each of them occurs. -/
theorem perm_of_equiv {h' w' : Nat} {t : Table α h w} {u : Table α h' w'}
    (e : Fin h' × Fin w' ≃ Fin h × Fin w)
    (moved : ∀ i j, u.entry i j = t.entry (e (i, j)).1 (e (i, j)).2) :
    u.toLists.flatten.Perm t.toLists.flatten := by
  rw [← Multiset.coe_eq_coe, coe_flatten_toLists, coe_flatten_toLists,
    ← Multiset.map_univ_val_equiv e, Multiset.map_map]
  exact Multiset.map_congr rfl fun x _ => moved x.1 x.2

/-- A reflection moves the entries of a table and loses none. -/
theorem perm_flipped (t : Table α h w) : t.flipped.toLists.flatten.Perm t.toLists.flatten :=
  perm_of_equiv ((Equiv.refl _).prodCongr Fin.revPerm) fun i j => t.entry_flipped i j

/-- A turn moves the entries of a table and loses none. -/
theorem perm_turned (t : Table α h w) : t.turned.toLists.flatten.Perm t.toLists.flatten :=
  perm_of_equiv ((Equiv.prodComm _ _).trans (Fin.revPerm.prodCongr (Equiv.refl _)))
    fun j i => t.entry_turned i j

end Table

namespace Rectangle

variable {α : Type}

/-- A reflection and a turn of tables are symmetries of a square. -/
theorem symmetries : Pose.Symmetries (flipped (α := α)) turned where
  flip_flip r := congrArg (mk r.height r.width) r.table.flipped_flipped
  turn_four r := congrArg (mk r.height r.width) r.table.turned_turned_turned_turned
  turn_flip_turn r := congrArg (mk r.height r.width) r.table.turned_flipped_turned

/-- **The poses of a rectangle** are an action of the group. -/
theorem acts_posed (r : Rectangle α) : Pose.Acts posed r :=
  Pose.acts_of_product (fun p q r => symmetries.act_mul q p r) (fun _ => rfl) r

/-- A pose moves the entries of a rectangle and loses none. -/
theorem perm_posed (r : Rectangle α) (p : Pose) :
    (r.posed p).table.toLists.flatten.Perm r.table.toLists.flatten :=
  p.act_induction (.refl _) (fun (s : Rectangle α) hs => s.table.perm_flipped.trans hs)
    fun (s : Rectangle α) hs => s.table.perm_turned.trans hs

/-- A pose exchanges height and width iff its number is odd. -/
theorem size_posed (r : Rectangle α) (p : Pose) :
    ((r.posed p).height, (r.posed p).width)
      = if p.number % 2 = 1 then (r.width, r.height) else (r.height, r.width) := by
  obtain ⟨f, t⟩ := p
  cases f <;> fin_cases t <;> rfl

/-- The rectangle of an array's entries makes up the array again, if there is an entry for each
of its places. -/
theorem tensor_ofEntries (kind : EntryKind) {height width : Nat} {entries : List Int}
    (hfull : entries.length = height * width) :
    (ofEntries height width entries).tensor kind = ⟨kind, [height, width], entries⟩ := by
  have hentries : ((ofEntries height width entries).tensor kind).entries = entries := by
    rw [entries_tensor, Table.flatten_toLists]
    refine List.ext_getElem (by simp [ofEntries, hfull]) fun x hx hx' => ?_
    have hplace : x / width * width + x % width = x := Nat.div_add_mod' x width
    simp [ofEntries, hplace, List.getElem?_eq_getElem hx']
  exact congrArg (Tensor.mk kind [height, width]) hentries

/-- A square with different corners, which looks different in each pose. -/
def corners : Rectangle Nat :=
  ⟨2, 2, Table.ofFn fun i j => 2 * i + j⟩

/-- No two poses lay the four corners of a square in the same way. -/
theorem posed_corners_injective : Function.Injective fun p => corners.posed p := by
  have hfixed (p : Pose) (h : (corners.posed p).table.toLists.flatten = [0, 1, 2, 3]) : p = 1 := by
    obtain ⟨f, t⟩ := p
    revert t
    cases f <;> decide
  intro p q (hpq : corners.posed p = corners.posed q)
  have hback : corners.posed (q⁻¹ * p) = corners := by
    rw [← corners.acts_posed.product, hpq, corners.acts_posed.product, inv_mul_cancel]
    rfl
  have hone : q⁻¹ * p = 1 := by
    refine hfixed _ ?_
    rw [hback]
    decide
  exact (inv_mul_eq_one.mp hone).symm

end Rectangle

/-- An array with two axes is laid in poses like the rectangle of its entries, of which no pose
loses any. -/
theorem Tensor.acts_posed {array : Tensor} {height width : Nat}
    (hshape : array.shape = [height, width]) (hfull : array.entries.length = height * width) :
    Pose.Acts posed array
      ∧ ∀ p, (array.posed p).kind = array.kind ∧ (array.posed p).entries.Perm array.entries
        ∧ (array.posed p).shape
          = if p.number % 2 = 1 then [width, height] else [height, width] := by
  obtain ⟨kind, shape, entries⟩ := array
  obtain rfl : shape = [height, width] := hshape
  obtain ⟨r, hr, hheight, hwidth⟩ : ∃ r : Rectangle Int,
      r.tensor kind = ⟨kind, [height, width], entries⟩ ∧ r.height = height ∧ r.width = width :=
    ⟨_, Rectangle.tensor_ofEntries kind hfull, rfl, rfl⟩
  rw [← hr]
  refine ⟨r.acts_posed.map fun p r => r.posed_tensor kind p, fun p => ?_⟩
  rw [Rectangle.posed_tensor]
  refine ⟨rfl, ?_, ?_⟩
  · rw [Rectangle.entries_tensor, Rectangle.entries_tensor]
    exact r.perm_posed p
  · have hsize := congrArg (fun size : Nat × Nat => [size.1, size.2]) (r.size_posed p)
    rw [apply_ite (fun size : Nat × Nat => [size.1, size.2]), hheight, hwidth] at hsize
    exact hsize

namespace Pose

/-- **Poses** are a group, that of the symmetries of a square; numbers name them and their
inverses. On rectangles of any size and entries they act as that group: one pose after another
is their product, a sequence of poses is a single one and is undone by the inverses in reverse
order. A pose loses no entry, and it exchanges height and width iff its number is odd. There is
a rectangle that looks different in each of them. Arrays with two axes are laid in the same
way. -/
theorem poses_act :
    Nonempty (Pose ≃* DihedralGroup 4)
    ∧ (∀ (n : Int) (p : Pose),
        (applied n = .ok p ↔ n = p.number) ∧ (inverted n = .ok p.inverse ↔ n = p.number))
    ∧ (∀ (α : Type) (r : Rectangle α), Acts Rectangle.posed r
        ∧ ∀ p, (r.posed p).table.toLists.flatten.Perm r.table.toLists.flatten
          ∧ ((r.posed p).height, (r.posed p).width)
            = if p.number % 2 = 1 then (r.width, r.height) else (r.height, r.width))
    ∧ (∃ r : Rectangle Nat, Function.Injective fun p => r.posed p)
    ∧ ∀ (array : Tensor) (height width : Nat), array.shape = [height, width] →
        array.entries.length = height * width →
        Acts Tensor.posed array
        ∧ ∀ p, (array.posed p).kind = array.kind ∧ (array.posed p).entries.Perm array.entries
          ∧ (array.posed p).shape
            = if p.number % 2 = 1 then [width, height] else [height, width] := by
  refine ⟨⟨symmetry⟩, ?_, ?_, ?_, ?_⟩
  · intro n p
    exact ⟨applied_eq_ok_iff n p, inverted_eq_ok_iff n p⟩
  · intro α r
    refine ⟨r.acts_posed, ?_⟩
    intro p
    exact ⟨r.perm_posed p, r.size_posed p⟩
  · exact ⟨_, Rectangle.posed_corners_injective⟩
  · intro array height width hshape hfull
    exact Tensor.acts_posed hshape hfull

/-- Two rows of three entries: reflected and turned once they are three rows of two, and done
twice over they are as before. -/
theorem poses_act_wide :
    (⟨.signed, [2, 3], [1, 2, 3, 4, 5, 6]⟩ : Tensor).shape = [2, 3]
      ∧ [1, 2, 3, 4, 5, 6].length = 2 * 3
      ∧ (⟨.signed, [2, 3], [1, 2, 3, 4, 5, 6]⟩ : Tensor).posed ⟨true, 1⟩
        = ⟨.signed, [3, 2], [6, 3, 5, 2, 4, 1]⟩
      ∧ (⟨.signed, [3, 2], [6, 3, 5, 2, 4, 1]⟩ : Tensor).posed ⟨true, 1⟩
        = ⟨.signed, [2, 3], [1, 2, 3, 4, 5, 6]⟩ := by
  have hposed : (⟨.signed, [2, 3], [1, 2, 3, 4, 5, 6]⟩ : Tensor).posed ⟨true, 1⟩
      = ⟨.signed, [3, 2], [6, 3, 5, 2, 4, 1]⟩ := by decide
  obtain ⟨-, -, -, -, harray⟩ := poses_act
  obtain ⟨hacts, -⟩ := harray ⟨.signed, [2, 3], [1, 2, 3, 4, 5, 6]⟩ 2 3 rfl rfl
  refine ⟨rfl, rfl, hposed, ?_⟩
  rw [← hposed]
  exact hacts.undone [⟨true, 1⟩]

end Pose

end SegmentFit
