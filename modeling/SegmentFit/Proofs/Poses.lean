import SegmentFit.Pose
import SegmentFit.Proofs.CellBytes
import SegmentFit.Proofs.Placements

/-!
# Poses — what fits a sheet fits it in every pose

A reflection or a quarter turn moves cells, and the cells of a placement to the cells of
another one. `Shows` is all that is needed of that: each placement that fits one grid has
an image that fits the other, and the cells of the image lead back to cells of the
placement. Disjoint placements then have disjoint images, so what fits the one grid fits
the other (`Shows.fitsOne`, `Shows.fitsPair`).

Reflecting twice and turning four times change nothing, so nothing is gained on the way
back either, and the poses, made of both, leave what fits as it is (`alike_posed`).
-/

namespace SegmentFit

/-! ## Poses of anything -/

namespace Pose

/-- What reflecting and turning keep, posing keeps. -/
theorem act_induction {α : Type} {flip turn : α → α} {P : α → Prop} {x : α} (p : Pose)
    (start : P x) (hflip : ∀ y, P y → P (flip y)) (hturn : ∀ y, P y → P (turn y)) :
    P (p.act flip turn x) := by
  have hbase : P (if p.reflected then flip x else x) := by
    cases p.reflected with
    | true => exact hflip x start
    | false => exact start
  rw [act]
  generalize p.turns.val = turns
  induction turns with
  | zero => exact hbase
  | succ turns ih => exact hturn _ ih

/-- A function that goes with reflecting and turning goes with posing. -/
theorem act_comm {α β : Type} {flip turn : α → α} {flip' turn' : β → β} (f : α → β) (p : Pose)
    (hflip : ∀ x, flip' (f x) = f (flip x)) (hturn : ∀ x, turn' (f x) = f (turn x)) (x : α) :
    p.act flip' turn' (f x) = f (p.act flip turn x) := by
  have hbase : (if p.reflected then flip' (f x) else f x)
      = f (if p.reflected then flip x else x) := by
    cases p.reflected with
    | true => exact hflip x
    | false => rfl
  rw [act, act, hbase]
  generalize p.turns.val = turns
  induction turns with
  | zero => rfl
  | succ turns ih =>
      show turn' (Nat.repeat turn' turns _) = f (turn (Nat.repeat turn turns _))
      rw [ih, hturn]

end Pose

/-! ## Tables reflected and turned -/

namespace Table

variable {α : Type} {h w : Nat}

theorem flipped_flipped (t : Table α h w) : t.flipped.flipped = t := by
  ext i j
  rw [entry_flipped, entry_flipped, Fin.rev_rev]

theorem turned_turned_turned_turned (t : Table α h w) : t.turned.turned.turned.turned = t := by
  ext i j
  rw [entry_turned, entry_turned, entry_turned, entry_turned, Fin.rev_rev, Fin.rev_rev]

end Table

/-! ## Placements carried over -/

namespace Grid

/-- Placements that fit `g` have images that fit `h`, and the cells of the images lead back. -/
def Shows (g h : Grid) (back : Cell → Cell) : Prop :=
  ∀ (k : Nat) (p : Placement), 0 < k → p.Fits g k →
    ∃ q : Placement, q.Fits h k ∧ ∀ c ∈ q.cells k, back c ∈ p.cells k

section Shows

variable {f g h : Grid} {back back' : Cell → Cell} {k : Nat}

theorem Shows.refl (g : Grid) : g.Shows g id :=
  fun _ p _ hp => ⟨p, hp, fun _ hc => hc⟩

/-- What one grid shows of another, and that of a third one, the first shows of the third. -/
theorem Shows.trans (hfg : f.Shows g back) (hgh : g.Shows h back') :
    f.Shows h (back ∘ back') := by
  intro k p hk hp
  obtain ⟨q, hq, hqp⟩ := hfg k p hk hp
  obtain ⟨r, hr, hrq⟩ := hgh k q hk hq
  exact ⟨r, hr, fun c hc => hqp _ (hrq c hc)⟩

/-- A segment that fits is shown as one that fits. -/
theorem Shows.fitsOne (hs : g.Shows h back) (hfit : g.FitsOne k) : h.FitsOne k := by
  rcases Nat.eq_zero_or_pos k with rfl | hk
  · exact h.fitsPair_zero.fitsOne
  · obtain ⟨p, hp⟩ := hfit
    obtain ⟨q, hq, -⟩ := hs k p hk hp
    exact ⟨q, hq⟩

/-- A common cell of two images would lead back to a common cell. -/
theorem Shows.fitsPair (hs : g.Shows h back) (hfit : g.FitsPair k) : h.FitsPair k := by
  rcases Nat.eq_zero_or_pos k with rfl | hk
  · exact h.fitsPair_zero
  · obtain ⟨p, q, hp, hq, hpq⟩ := hfit
    obtain ⟨p', hp', hback⟩ := hs k p hk hp
    obtain ⟨q', hq', hback'⟩ := hs k q hk hq
    exact ⟨p', q', hp', hq', fun c hc hc' => hpq (back c) (hback c hc) (hback' c hc')⟩

end Shows

/-- Each cell of `h` shows one cell of `g`: then it is enough that images lie on the grid. -/
theorem shows_of_images {g h : Grid} {back : Cell → Cell}
    (hopen : ∀ c : Cell, c.row < g.side → c.col < g.side →
      h.isOpen c.row c.col = g.isOpen (back c).row (back c).col)
    (himages : ∀ (k : Nat) (p : Placement), p.line < g.side → p.start + k ≤ g.side →
      ∃ q : Placement, ∀ c ∈ q.cells k,
        (c.row < g.side ∧ c.col < g.side) ∧ back c ∈ p.cells k) :
    g.Shows h back := by
  intro k p hk hp
  obtain ⟨hline, hstart⟩ := hp.le_side hk
  obtain ⟨q, hq⟩ := himages k p hline hstart
  refine ⟨q, fun c hc => ?_, fun c hc => (hq c hc).2⟩
  obtain ⟨⟨hrow, hcol⟩, hback⟩ := hq c hc
  rw [hopen c hrow hcol]
  exact hp _ hback

variable (g : Grid)

/-- A reflection shows the cells of a row from the other end. -/
theorem isOpen_flipped {i j : Nat} (hi : i < g.side) (hj : j < g.side) :
    g.flipped.isOpen i j = g.isOpen i (g.side - (j + 1)) := by
  have hshown := g.flipped.isOpen_eq_entry ⟨i, hi⟩ ⟨j, hj⟩
  have hcell := g.isOpen_eq_entry ⟨i, hi⟩ (Fin.rev ⟨j, hj⟩)
  rw [Fin.val_rev] at hcell
  rw [hshown, hcell]
  exact Table.entry_flipped g.cells ⟨i, hi⟩ ⟨j, hj⟩

/-- A turn shows a column, from its bottom up, as a row. -/
theorem isOpen_turned {i j : Nat} (hi : i < g.side) (hj : j < g.side) :
    g.turned.isOpen i j = g.isOpen (g.side - (j + 1)) i := by
  have hshown := g.turned.isOpen_eq_entry ⟨i, hi⟩ ⟨j, hj⟩
  have hcell := g.isOpen_eq_entry (Fin.rev ⟨j, hj⟩) ⟨i, hi⟩
  rw [Fin.val_rev] at hcell
  rw [hshown, hcell]
  exact Table.entry_turned g.cells ⟨j, hj⟩ ⟨i, hi⟩

/-- Rows are reflected in themselves, and the columns change places. -/
theorem shows_flipped : g.Shows g.flipped fun c => ⟨c.row, g.side - (c.col + 1)⟩ := by
  refine shows_of_images (fun c hrow hcol => g.isOpen_flipped hrow hcol) ?_
  rintro k ⟨axis, line, start⟩ hline hstart
  simp only at hline hstart
  cases axis with
  | rows =>
      refine ⟨⟨.rows, line, g.side - (start + k)⟩, fun c hc => ?_⟩
      rw [Placement.mem_cells] at *
      simp only [Axis.line, Axis.pos] at *
      omega
  | columns =>
      refine ⟨⟨.columns, g.side - (line + 1), start⟩, fun c hc => ?_⟩
      rw [Placement.mem_cells] at *
      simp only [Axis.line, Axis.pos] at *
      omega

/-- Rows become columns and columns become rows, one of them read backwards. -/
theorem shows_turned : g.Shows g.turned fun c => ⟨g.side - (c.col + 1), c.row⟩ := by
  refine shows_of_images (fun c hrow hcol => g.isOpen_turned hrow hcol) ?_
  rintro k ⟨axis, line, start⟩ hline hstart
  simp only at hline hstart
  cases axis with
  | rows =>
      refine ⟨⟨.columns, g.side - (line + 1), start⟩, fun c hc => ?_⟩
      rw [Placement.mem_cells] at *
      simp only [Axis.line, Axis.pos] at *
      omega
  | columns =>
      refine ⟨⟨.rows, line, g.side - (start + k)⟩, fun c hc => ?_⟩
      rw [Placement.mem_cells] at *
      simp only [Axis.line, Axis.pos] at *
      omega

/-! ## The way back -/

/-- A second reflection of a grid undoes the first one. -/
theorem flipped_flipped : g.flipped.flipped = g :=
  congrArg (fun cells => { g with cells }) g.cells.flipped_flipped

/-- Four turns of a grid undo each other. -/
theorem turned_turned_turned_turned : g.turned.turned.turned.turned = g :=
  congrArg (fun cells => { g with cells }) g.cells.turned_turned_turned_turned

/-- The placements that fit one grid have images on the other, both ways, and the sides are
the same. -/
structure Alike (g h : Grid) : Prop where
  side : h.side = g.side
  there : ∃ back, g.Shows h back
  back : ∃ back, h.Shows g back

section Alike

variable {g h : Grid}

/-- One segment fits in both of two grids that are alike, or in none. -/
theorem Alike.fitsOne_iff (ha : g.Alike h) (k : Nat) : h.FitsOne k ↔ g.FitsOne k := by
  obtain ⟨_, hthere⟩ := ha.there
  obtain ⟨_, hback⟩ := ha.back
  exact ⟨hback.fitsOne, hthere.fitsOne⟩

/-- A pair fits in both of two grids that are alike, or in none. -/
theorem Alike.fitsPair_iff (ha : g.Alike h) (k : Nat) : h.FitsPair k ↔ g.FitsPair k := by
  obtain ⟨_, hthere⟩ := ha.there
  obtain ⟨_, hback⟩ := ha.back
  exact ⟨hback.fitsPair, hthere.fitsPair⟩

theorem Alike.flipped (ha : g.Alike h) : g.Alike h.flipped := by
  obtain ⟨_, hthere⟩ := ha.there
  obtain ⟨_, hback⟩ := ha.back
  have hagain := h.flipped.shows_flipped
  rw [h.flipped_flipped] at hagain
  exact ⟨ha.side, ⟨_, hthere.trans h.shows_flipped⟩, ⟨_, hagain.trans hback⟩⟩

theorem Alike.turned (ha : g.Alike h) : g.Alike h.turned := by
  obtain ⟨_, hthere⟩ := ha.there
  obtain ⟨_, hback⟩ := ha.back
  -- three more turns lead back
  have hagain := (h.turned.shows_turned.trans h.turned.turned.shows_turned).trans
    h.turned.turned.turned.shows_turned
  rw [h.turned_turned_turned_turned] at hagain
  exact ⟨ha.side, ⟨_, hthere.trans h.shows_turned⟩, ⟨_, hagain.trans hback⟩⟩

end Alike

/-- **What fits a grid fits it in every pose**, and nothing else does. -/
theorem alike_posed (p : Pose) : g.Alike (g.posed p) :=
  p.act_induction ⟨rfl, ⟨id, Shows.refl g⟩, ⟨id, Shows.refl g⟩⟩ (fun _ ha => ha.flipped)
    fun _ ha => ha.turned

end Grid

/-! ## The posed array -/

namespace Rectangle

/-- The entries of a rectangle as an array with two axes. -/
def tensor (kind : EntryKind) (r : Rectangle Int) : Tensor :=
  r.table.tensor kind fun v => v

/-- A rectangle is known by its entries. -/
theorem ofEntries_tensor (kind : EntryKind) (r : Rectangle Int) :
    ofEntries r.height r.width (r.tensor kind).entries = r := by
  have htable : (Table.ofFn fun i j : Fin _ =>
      (r.tensor kind).entries.toArray.getD (i * r.width + j) default) = r.table := by
    ext i j
    rw [Table.entry_ofFn]
    exact Table.getD_entries_tensor _ _ _ _ _ _
  exact congrArg (Rectangle.mk r.height r.width) htable

/-- The entries of a rectangle are those of its rows, one behind the other. -/
theorem entries_tensor (kind : EntryKind) (r : Rectangle Int) :
    (r.tensor kind).entries = r.table.toLists.flatten := by
  have hmap : r.table.map (fun v => v) = r.table := by
    ext i j
    exact Table.entry_map _ _ _ _
  rw [tensor, ← Table.flatten_toLists_map, hmap]

/-- An array with two axes is posed as the rectangle of its entries is. -/
theorem posed_tensor (kind : EntryKind) (p : Pose) (r : Rectangle Int) :
    (r.tensor kind).posed p = (r.posed p).tensor kind := by
  -- the shape and the entries of the posed array are read off the posed table
  show Tensor.mk kind
      [((ofEntries r.height r.width (r.tensor kind).entries).posed p).height,
        ((ofEntries r.height r.width (r.tensor kind).entries).posed p).width]
      ((ofEntries r.height r.width (r.tensor kind).entries).posed p).table.toLists.flatten = _
  rw [ofEntries_tensor, ← entries_tensor kind]
  rfl

end Rectangle

/-- An array is laid in a pose exactly if it has two axes or the pose moves nothing. -/
theorem Tensor.posed?_eq_ok_iff {p : Pose} {array other : Tensor} :
    array.posed? p = .ok other
      ↔ (p = .identity ∨ 2 ≤ array.shape.length) ∧ array.posed p = other := by
  rw [posed?]
  by_cases haxes : p = .identity ∨ 2 ≤ array.shape.length
  · rw [if_pos haxes, and_iff_right haxes, Except.ok.injEq]
  · rw [if_neg haxes]
    refine iff_of_false (fun h => ?_) fun h => haxes h.1
    split at h
    · exact nomatch h
    · exact nomatch h

namespace Grid

variable (g : Grid)

/-- The cells of a grid as a table of any size. -/
def rectangle (g : Grid) : Rectangle Int :=
  ⟨g.side, g.side, g.cells.map fun c => if c then 1 else 0⟩

/-- Posing a grid is posing its rectangle. -/
theorem posed_rectangle (p : Pose) : g.rectangle.posed p = (g.posed p).rectangle := by
  have hflip (g : Grid) : g.rectangle.flipped = g.flipped.rectangle := by
    have hcells : (g.cells.map fun c => if c then (1 : Int) else 0).flipped
        = g.cells.flipped.map fun c => if c then 1 else 0 := by
      ext i j
      simp
    exact congrArg (Rectangle.mk g.side g.side) hcells
  have hturn (g : Grid) : g.rectangle.turned = g.turned.rectangle := by
    have hcells : (g.cells.map fun c => if c then (1 : Int) else 0).turned
        = g.cells.turned.map fun c => if c then 1 else 0 := by
      ext i j
      simp
    exact congrArg (Rectangle.mk g.side g.side) hcells
  exact p.act_comm rectangle hflip hturn g

theorem tensor_rectangle : g.rectangle.tensor .boolean = g.tensor :=
  Table.tensor_congr fun _ _ => Table.entry_map _ _ _ _

/-- The array of a grid's cells, posed as an array, is that of the posed grid. -/
theorem posed_tensor (p : Pose) : g.tensor.posed p = (g.posed p).tensor := by
  rw [← tensor_rectangle, Rectangle.posed_tensor, posed_rectangle, tensor_rectangle]

/-- The array of a grid's cells is laid in every pose. -/
theorem posed?_tensor (p : Pose) : g.tensor.posed? p = .ok (g.posed p).tensor :=
  Tensor.posed?_eq_ok_iff.mpr ⟨Or.inr (Nat.le_refl 2), g.posed_tensor p⟩

/-- The grid of a grid's own array is the grid. -/
theorem ofTensor_tensor : ofTensor g.tensor = .ok g := by
  have htable : (Table.ofFn fun i j : Fin g.side =>
      g.tensor.entries.toArray.getD (i * g.side + j) 0 != 0) = g.cells := by
    ext i j
    have hentry := Table.getD_entries_tensor .boolean (fun c => if c then 1 else 0) g.cells i j 0
    rw [Table.entry_ofFn]
    show ((g.cells.tensor .boolean _).entries.toArray.getD _ 0 != 0) = _
    rw [hentry]
    cases g.cells.entry i j <;> rfl
  show (if g.side = g.side then ofTable g.side (Table.ofFn fun i j : Fin g.side =>
      g.tensor.entries.toArray.getD (i * g.side + j) 0 != 0) else _) = _
  rw [if_pos rfl, htable, ofTable, dif_pos g.side_pos, dif_pos g.side_bound]

end Grid

end SegmentFit
