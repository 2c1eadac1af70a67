import SegmentFit.Proofs.CellBytes
import SegmentFit.Proofs.FileTrees

/-!
# Rows of a grid — the grid that a list of rows is

The rows of a grid are as many as its side and of as many markers each (`Grid.isRow_of_mem`), and
they tell the grid. Rows are taken for a grid exactly if they are the rows of one, which is then
the grid that comes out (`Grid.ofRows_eq_ok_iff`). Such a grid is there for any rows of markers
that are as long as they are many (`Grid.exists_ofRows`).
-/

namespace SegmentFit

namespace Grid

/-- A row of so many markers. -/
structure IsRow (side : Nat) (row : List Char) : Prop where
  length : row.length = side
  markers : ∀ c ∈ row, isMarker c = true

theorem isMarker_marker (b : Bool) : isMarker (marker b) = true := by
  cases b <;> rfl

/-- A marker is the one for whether it marks an open cell. -/
theorem marker_beq_openMarker {c : Char} (hc : isMarker c = true) :
    marker (c == openMarker) = c := by
  rw [isMarker, Bool.or_eq_true, beq_iff_eq, beq_iff_eq] at hc
  rcases hc with rfl | rfl <;> rfl

/-- The marker of a cell tells whether it is open. -/
theorem beq_openMarker_marker (b : Bool) : (marker b == openMarker) = b := by
  cases b <;> rfl

/-! ## Rows that are looked at -/

/-- No marker is unknown exactly if every character is a marker. -/
theorem isEmpty_unknownMarkers {row : List Char} :
    (unknownMarkers row).isEmpty = true ↔ ∀ c ∈ row, isMarker c = true := by
  rw [List.isEmpty_iff, List.eq_nil_iff_forall_not_mem]
  simp only [unknownMarkers, List.mem_mergeSort, List.mem_eraseDups, List.mem_filter, not_and,
    Bool.not_eq_true', Bool.not_eq_false]

/-- No fault is found in rows of markers, and in no others. -/
theorem rowFault?_eq_none_iff {side i : Nat} {rows : List (List Char)} :
    rowFault? side i rows = none ↔ ∀ row ∈ rows, IsRow side row := by
  induction rows generalizing i with
  | nil => exact iff_of_true rfl (List.forall_mem_nil _)
  | cons row rest ih =>
      rw [rowFault?, List.forall_mem_cons]
      by_cases hlength : row.length = side
      · rw [if_neg (not_not_intro hlength)]
        by_cases hmarkers : (unknownMarkers row).isEmpty = true
        · have hrow : IsRow side row := ⟨hlength, isEmpty_unknownMarkers.mp hmarkers⟩
          rw [if_pos hmarkers, ih, and_iff_right hrow]
        · rw [if_neg hmarkers]
          exact iff_of_false nofun fun h => hmarkers (isEmpty_unknownMarkers.mpr h.1.markers)
      · rw [if_pos hlength]
        exact iff_of_false nofun fun h => hlength h.1.length

/-! ## The rows of a grid -/

section Rows

variable {g : Grid} {rows : List (List Char)} {row : List Char} {c : Char} {i j : Nat}

/-- The rows of a grid show the marker of each cell in its place. -/
theorem toRows_eq (g : Grid) :
    g.toRows = List.ofFn fun i => List.ofFn fun j => marker (g.cells.entry i j) := by
  rw [toRows, Table.toLists, List.map_map]
  exact Table.map_rows marker g.cells

theorem length_toRows (g : Grid) : g.toRows.length = g.side := by
  rw [toRows_eq, List.length_ofFn]

/-- Each of the rows has the length of the side and holds markers only. -/
theorem isRow_of_mem (h : row ∈ g.toRows) : IsRow g.side row := by
  rw [toRows_eq] at h
  obtain ⟨i, rfl⟩ := List.mem_ofFn.mp h
  refine ⟨List.length_ofFn, fun c hc => ?_⟩
  obtain ⟨j, rfl⟩ := List.mem_ofFn.mp hc
  exact isMarker_marker _

/-- A marker in the rows of a grid stands for its cell. -/
theorem entry_of_toRows (hrow : g.toRows[i]? = some row) (hc : row[j]? = some c) :
    ∃ (hi : i < g.side) (hj : j < g.side), g.cells.entry ⟨i, hi⟩ ⟨j, hj⟩ = (c == openMarker) := by
  rw [toRows_eq, List.getElem?_ofFn] at hrow
  split at hrow
  · next hi =>
    rw [← Option.some.inj hrow, List.getElem?_ofFn] at hc
    split at hc
    · next hj =>
      rw [← Option.some.inj hc, beq_openMarker_marker]
      exact ⟨hi, hj, rfl⟩
    · exact nomatch hc
  · exact nomatch hrow

/-- The cell of a marker is open exactly if the marker says so. -/
theorem cell?_of_toRows (hrow : g.toRows[i]? = some row) (hc : row[j]? = some c) :
    g.cell? i j = .ok (c == openMarker) := by
  obtain ⟨hi, hj, hentry⟩ := entry_of_toRows hrow hc
  rw [cell?, coordinate?_natCast g hi, coordinate?_natCast g hj]
  exact congrArg Except.ok hentry

/-! ## The grid of rows -/

/-- A cell is open if its character is the marker of open cells. -/
theorem entry_tableOf {side : Nat} {i j : Fin side} (hrow : rows[(i : Nat)]? = some row)
    (hc : row[(j : Nat)]? = some c) : (tableOf side rows).entry i j = (c == openMarker) := by
  have hrow' : (rows.map List.toArray).toArray.getD i #[] = row.toArray := by
    rw [Array.getD_eq_getD_getElem?, List.getElem?_toArray, List.getElem?_map, hrow]
    rfl
  rw [tableOf, Table.entry_ofFn, hrow', Array.getD_eq_getD_getElem?, List.getElem?_toArray, hc]
  rfl

/-- A grid with the cells that rows of markers say has these rows. -/
theorem toRows_eq_of_cells (hlength : rows.length = g.side) (hrows : ∀ row ∈ rows, IsRow g.side row)
    (hcells : g.cells = tableOf g.side rows) : g.toRows = rows := by
  refine List.ext_getElem (g.length_toRows.trans hlength.symm) fun i hi hi' => ?_
  have hside : i < g.side := hlength ▸ hi'
  have hrow := hrows _ (List.getElem_mem hi')
  have hget : rows[i]? = some rows[i] := List.getElem?_eq_getElem hi'
  simp only [toRows_eq, List.getElem_ofFn]
  refine List.ext_getElem (List.length_ofFn.trans hrow.length.symm) fun j hj hj' => ?_
  have hside' : j < g.side := hrow.length ▸ hj'
  have hentry : g.cells.entry ⟨i, hside⟩ ⟨j, hside'⟩ = (rows[i][j] == openMarker) := by
    rw [hcells]
    exact entry_tableOf hget (List.getElem?_eq_getElem hj')
  rw [List.getElem_ofFn, hentry]
  exact marker_beq_openMarker (hrow.markers _ (List.getElem_mem hj'))

/-- The table that is read from the rows of a grid is its own. -/
theorem tableOf_toRows (g : Grid) : tableOf g.side g.toRows = g.cells := by
  refine Table.ext fun i j => ?_
  have hrow : g.toRows[(i : Nat)]? = some (List.ofFn fun j => marker (g.cells.entry i j)) := by
    rw [toRows_eq, List.getElem?_ofFn, dif_pos i.isLt]
  have hc : (List.ofFn fun j => marker (g.cells.entry i j))[(j : Nat)]?
      = some (marker (g.cells.entry i j)) := by
    rw [List.getElem?_ofFn, dif_pos j.isLt]
  rw [entry_tableOf hrow hc, beq_openMarker_marker]

/-- A table is a grid if its side is positive and has a varint, with the next number. -/
theorem ofTable_eq_ok {side : Nat} {cells : Table Bool side side} (hpos : 0 < side)
    (hbound : side + 1 < Varint.limit) : ofTable side cells = .ok ⟨side, cells, hpos, hbound⟩ := by
  rw [ofTable, dif_pos hpos, dif_pos hbound]

/-- The rows of a grid are taken for it. -/
theorem ofRows_toRows (g : Grid) : ofRows g.toRows = .ok g := by
  have hfault : rowFault? g.toRows.length 0 g.toRows = none := by
    rw [length_toRows]
    exact rowFault?_eq_none_iff.mpr fun row => isRow_of_mem
  rw [ofRows, hfault]
  dsimp only
  rw [length_toRows, tableOf_toRows, ofTable_eq_ok g.side_pos g.side_bound]

/-- What is made from a table is that table, with a side in range. -/
theorem exists_of_ofTable {side : Nat} {cells : Table Bool side side}
    (h : ofTable side cells = .ok g) :
    ∃ (hpos : 0 < side) (hbound : side + 1 < Varint.limit), g = ⟨side, cells, hpos, hbound⟩ := by
  rw [ofTable] at h
  split at h
  · next hpos =>
    split at h
    · next hbound => exact ⟨hpos, hbound, (Except.ok.inj h).symm⟩
    · exact nomatch h
  · exact nomatch h

/-- **Rows are taken for a grid** exactly if they are its rows. -/
theorem ofRows_eq_ok_iff : ofRows rows = .ok g ↔ g.toRows = rows := by
  constructor
  · intro h
    rw [ofRows] at h
    split at h
    · exact nomatch h
    · next hfault =>
      have hrows := rowFault?_eq_none_iff.mp hfault
      obtain ⟨hpos, hbound, rfl⟩ := exists_of_ofTable h
      exact toRows_eq_of_cells rfl hrows rfl
  · rintro rfl
    exact g.ofRows_toRows

/-- Rows of markers that are as long as they are many are those of a grid, unless they are none
or too many. -/
theorem exists_ofRows (hne : rows ≠ []) (hbound : rows.length + 1 < Varint.limit)
    (hrows : ∀ row ∈ rows, IsRow rows.length row) : ∃ g, ofRows rows = .ok g := by
  have hpos : 0 < rows.length := List.length_pos_iff.mpr hne
  refine ⟨⟨rows.length, tableOf rows.length rows, hpos, hbound⟩, ?_⟩
  rw [ofRows_eq_ok_iff]
  exact toRows_eq_of_cells rfl hrows rfl

end Rows

end Grid

end SegmentFit
