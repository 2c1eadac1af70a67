import SegmentFit.Bytes.CellBytes

/-!
# Tables — rectangles of entries

A `Table α h w` has `h` rows of `w` entries. It is known by its entries: `ofFn` makes
a table from them, `entry` reads one, and `ext` says that nothing else counts. Each
operation comes with one lemma on the entries of its result.

`scan` keeps every state of a fold. It carries the prefix sums of coverage and the
running maxima behind run lengths.
-/

namespace SegmentFit

/-- The states of a fold after each element of a list. -/
def scanList {α β : Type} (step : β → α → β) : β → List α → List β
  | _, [] => []
  | b, a :: rest => step b a :: scanList step (step b a) rest

@[simp] theorem length_scanList {α β : Type} (step : β → α → β) (b : β) (l : List α) :
    (scanList step b l).length = l.length := by
  induction l generalizing b with
  | nil => rfl
  | cons a rest ih => simp [scanList, ih]

theorem getElem_scanList {α β : Type} (step : β → α → β) (b : β) (l : List α) (i : Nat)
    (h : i < (scanList step b l).length) :
    (scanList step b l)[i] = (l.take (i + 1)).foldl step b := by
  induction l generalizing b i with
  | nil => simp [scanList] at h
  | cons a rest ih =>
    cases i with
    | zero => simp [scanList]
    | succ i => simp [scanList, ih]

def scan {α β : Type} {n : Nat} (step : β → α → β) (b : β) (v : Vector α n) : Vector β n :=
  ⟨(scanList step b v.toList).toArray, by simp⟩

theorem getElem_scan {α β : Type} {n : Nat} (step : β → α → β) (b : β) (v : Vector α n)
    (i : Nat) (h : i < n) :
    (scan step b v)[i] = (v.toList.take (i + 1)).foldl step b := by
  simp [scan, getElem_scanList]

theorem getElem_scan_zero {α β : Type} {n : Nat} (step : β → α → β) (b : β) (v : Vector α n)
    (h : 0 < n) : (scan step b v)[0] = step b v[0] := by
  have hlen : 0 < v.toList.length := by simpa using h
  rw [getElem_scan, List.take_succ_eq_append_getElem hlen]
  simp

theorem getElem_scan_succ {α β : Type} {n : Nat} (step : β → α → β) (b : β) (v : Vector α n)
    (i : Nat) (h : i + 1 < n) :
    (scan step b v)[i + 1] = step (scan step b v)[i] v[i + 1] := by
  have hlen : i + 1 < v.toList.length := by simpa using h
  rw [getElem_scan, getElem_scan, List.take_succ_eq_append_getElem hlen, List.foldl_append]
  simp

/-- A table of `height` rows and `width` columns. -/
structure Table (α : Type) (height width : Nat) where
  rows : Vector (Vector α width) height
  deriving DecidableEq

namespace Table

variable {α β : Type} {h w : Nat}

/-- The entry in a row and a column. -/
def entry (t : Table α h w) (i : Fin h) (j : Fin w) : α :=
  t.rows[i][j]

def ofFn (f : Fin h → Fin w → α) : Table α h w :=
  ⟨Vector.ofFn fun i => Vector.ofFn fun j => f i j⟩

@[simp] theorem entry_ofFn (f : Fin h → Fin w → α) (i : Fin h) (j : Fin w) :
    (ofFn f).entry i j = f i j := by
  simp [ofFn, entry]

@[ext] theorem ext {t u : Table α h w} (same : ∀ i j, t.entry i j = u.entry i j) : t = u := by
  cases t with | mk r =>
  cases u with | mk s =>
  congr
  apply Vector.ext
  intro i hi
  apply Vector.ext
  intro j hj
  exact same ⟨i, hi⟩ ⟨j, hj⟩

def toLists (t : Table α h w) : List (List α) :=
  t.rows.toList.map Vector.toList

def map (f : α → β) (t : Table α h w) : Table β h w :=
  ⟨t.rows.map fun row => row.map f⟩

@[simp] theorem entry_map (f : α → β) (t : Table α h w) (i : Fin h) (j : Fin w) :
    (t.map f).entry i j = f (t.entry i j) := by
  simp [map, entry]

/-- The table with one entry changed. -/
def modify (t : Table α h w) (i : Fin h) (j : Fin w) (f : α → α) : Table α h w :=
  ⟨t.rows.set i (t.rows[i].set j (f t.rows[i][j]))⟩

theorem entry_modify (t : Table α h w) (i i' : Fin h) (j j' : Fin w) (f : α → α) :
    (t.modify i j f).entry i' j' =
      if i = i' ∧ j = j' then f (t.entry i' j') else t.entry i' j' := by
  by_cases hi : i = i'
  · subst hi
    by_cases hj : j = j'
    · subst hj; simp [modify, entry]
    · have : (j : Nat) ≠ j' := fun e => hj (Fin.ext e)
      simp [modify, entry, this, hj]
  · have : (i : Nat) ≠ i' := fun e => hi (Fin.ext e)
    simp [modify, entry, this, hi]

def transposed (t : Table α h w) : Table α w h :=
  ofFn fun j i => t.entry i j

def flipped (t : Table α h w) : Table α h w :=
  ofFn fun i j => t.entry i j.rev

/-- A quarter turn clockwise: the first column, read upwards, becomes the first row. -/
def turned (t : Table α h w) : Table α w h :=
  ofFn fun j i => t.entry i.rev j

@[simp] theorem entry_transposed (t : Table α h w) (i : Fin h) (j : Fin w) :
    t.transposed.entry j i = t.entry i j := by
  simp [transposed]

@[simp] theorem entry_flipped (t : Table α h w) (i : Fin h) (j : Fin w) :
    t.flipped.entry i j = t.entry i j.rev := by
  simp [flipped]

@[simp] theorem entry_turned (t : Table α h w) (i : Fin h) (j : Fin w) :
    t.turned.entry j i = t.entry i.rev j := by
  simp [turned]

/-- The table as an array of two axes. -/
def tensor (kind : EntryKind) (value : α → Int) (t : Table α h w) : Tensor :=
  { kind, shape := [h, w], entries := t.rows.toList.flatMap fun row => row.toList.map value }

end Table

structure Rectangle (α : Type) where
  height : Nat
  width : Nat
  table : Table α height width

namespace Rectangle

variable {α : Type}

def flipped (r : Rectangle α) : Rectangle α :=
  { r with table := r.table.flipped }

def turned (r : Rectangle α) : Rectangle α :=
  ⟨r.width, r.height, r.table.turned⟩

/-- The table of `height` rows of `width` entries that are given row by row, the
default standing in for missing ones. -/
def ofEntries [Inhabited α] (height width : Nat) (entries : List α) : Rectangle α :=
  let a := entries.toArray
  ⟨height, width, Table.ofFn fun i j => a.getD (i * width + j) default⟩

end Rectangle

end SegmentFit
