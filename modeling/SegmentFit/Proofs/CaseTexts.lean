import SegmentFit.Proofs.GridRows
import SegmentFit.Proofs.Numerals
import SegmentFit.Proofs.Words

/-!
# Case texts — which texts are cases, and what is said of the others

A text is a case exactly if it lays out the numeral of a side, the numeral of a mode and the rows
of the grid (`Case.parse_eq_ok_iff`). So a text with the right header (`Case.Headed`) is a case if
its rows are rows of markers. If they are not, the first that is none is named, and in a row of
the right length the first character that is no marker (`Case.NamesFirst`). The rows are looked at
twice, by themselves and when they become a grid, and the second look finds no fault.
-/

namespace SegmentFit

/-- The first element of a list that has not a property, and its place. -/
structure FirstFailing {α : Type} (p : α → Prop) (l : List α) (i : Nat) (a : α) : Prop where
  found : l[i]? = some a
  fails : ¬ p a
  before : ∀ j b, j < i → l[j]? = some b → p b

namespace FirstFailing

variable {α : Type} {p : α → Prop} {l : List α} {i : Nat} {a b : α}

/-- The first element fails, if it does. -/
theorem head (ha : ¬ p a) : FirstFailing p (a :: l) 0 a :=
  ⟨rfl, ha, nofun⟩

/-- Otherwise the first failure is that of the rest. -/
theorem tail (ha : p a) (h : FirstFailing p l i b) : FirstFailing p (a :: l) (i + 1) b := by
  refine ⟨h.found, h.fails, fun j c hj hc => ?_⟩
  cases j with
  | zero => exact Option.some.inj hc ▸ ha
  | succ j => exact h.before j c (Nat.lt_of_succ_lt_succ hj) hc

end FirstFailing

theorem Grid.side_lt_numeral (g : Grid) : g.side < 10 ^ Numeral.digitLimit := by
  have hbound := g.side_bound
  calc g.side < 2 ^ 63 := by simp only [Varint.limit] at hbound; omega
    _ ≤ 10 ^ 63 := Nat.pow_le_pow_left (by decide) 63
    _ ≤ 10 ^ Numeral.digitLimit := Nat.pow_le_pow_right (by decide) (by decide)

namespace Case

open Grid (IsRow isMarker)

variable {text : List Char} {side : Nat} {mode : Int} {rows : List (List Char)}

/-! ## Faults of rows -/

/-- A row of markers has no fault. -/
theorem markerFault?_of_markers {row : List Char} (h : ∀ c ∈ row, isMarker c = true) (i j : Nat) :
    markerFault? i j row = none := by
  induction row generalizing j with
  | nil => rfl
  | cons c rest ih =>
      obtain ⟨hc, hrest⟩ := List.forall_mem_cons.mp h
      rw [markerFault?, if_pos hc, ih hrest]

/-- **The first character that is no marker** is the fault of its row. -/
theorem exists_markerFault {row : List Char} (h : ¬ ∀ c ∈ row, isMarker c = true) (i j : Nat) :
    ∃ k c, FirstFailing (fun c => isMarker c = true) row k c
      ∧ markerFault? i j row = some (.marker i (j + k) c) := by
  induction row generalizing j with
  | nil => exact absurd (List.forall_mem_nil _) h
  | cons c rest ih =>
      rw [List.forall_mem_cons, not_and] at h
      rw [markerFault?]
      by_cases hc : isMarker c = true
      · obtain ⟨k, d, hfirst, hfault⟩ := ih (h hc) (j + 1)
        refine ⟨k + 1, d, hfirst.tail hc, ?_⟩
        rw [if_pos hc, hfault, Nat.add_right_comm, Nat.add_assoc]
      · rw [if_neg hc]
        exact ⟨0, c, .head hc, rfl⟩

/-- Rows of the right length and of markers have no fault. -/
theorem rowFault?_of_rows (h : ∀ row ∈ rows, IsRow side row) (i : Nat) :
    rowFault? side i rows = none := by
  induction rows generalizing i with
  | nil => rfl
  | cons row rest ih =>
      obtain ⟨hrow, hrest⟩ := List.forall_mem_cons.mp h
      rw [rowFault?, if_neg (not_not_intro hrow.length), markerFault?_of_markers hrow.markers]
      exact ih hrest (i + 1)

/-- A fault in rows that names the first which is no row of markers, and in a row of the right
length the first character which is no marker. -/
inductive NamesFirst (side : Nat) (rows : List (List Char)) : CaseFault → Prop where
  | length {i : Nat} {row : List Char} (hrow : FirstFailing (IsRow side) rows i row)
      (hlength : row.length ≠ side) : NamesFirst side rows (.rowLength i side row.length)
  | marker {i j : Nat} {row : List Char} {c : Char} (hrow : FirstFailing (IsRow side) rows i row)
      (hlength : row.length = side) (hc : FirstFailing (fun c => isMarker c = true) row j c) :
      NamesFirst side rows (.marker i j c)

/-- The fault that is found in rows counts from the number of the first one. -/
theorem exists_rowFault (h : ¬ ∀ row ∈ rows, IsRow side row) (i : Nat) :
    ∃ k row, FirstFailing (IsRow side) rows k row
      ∧ (row.length ≠ side ∧ rowFault? side i rows = some (.rowLength (i + k) side row.length)
        ∨ row.length = side ∧ ∃ j c, FirstFailing (fun c => isMarker c = true) row j c
          ∧ rowFault? side i rows = some (.marker (i + k) j c)) := by
  induction rows generalizing i with
  | nil => exact absurd (List.forall_mem_nil _) h
  | cons row rest ih =>
      rw [List.forall_mem_cons, not_and] at h
      rw [rowFault?]
      by_cases hlength : row.length = side
      · rw [if_neg (not_not_intro hlength)]
        by_cases hmarkers : ∀ c ∈ row, isMarker c = true
        · have hrow : IsRow side row := ⟨hlength, hmarkers⟩
          obtain ⟨k, row', hfirst, hfault⟩ := ih (h hrow) (i + 1)
          refine ⟨k + 1, row', hfirst.tail hrow, ?_⟩
          rw [markerFault?_of_markers hmarkers, Nat.add_comm k, ← Nat.add_assoc]
          exact hfault
        · obtain ⟨j, c, hc, hfault⟩ := exists_markerFault hmarkers i 0
          rw [Nat.zero_add] at hfault
          refine ⟨0, row, .head fun hrow => hmarkers hrow.markers, Or.inr ⟨hlength, j, c, hc, ?_⟩⟩
          rw [hfault]
          rfl
      · rw [if_pos hlength]
        exact ⟨0, row, .head fun hrow => hlength hrow.length, Or.inl ⟨hlength, rfl⟩⟩

/-- **The first row that is wrong** is named, or the first of its characters that is no marker. -/
theorem exists_namesFirst (h : ¬ ∀ row ∈ rows, IsRow side row) :
    ∃ fault, rowFault? side 0 rows = some fault ∧ NamesFirst side rows fault := by
  obtain ⟨i, row, hrow, hfault⟩ := exists_rowFault h 0
  rw [Nat.zero_add] at hfault
  rcases hfault with ⟨hlength, hfault⟩ | ⟨hlength, j, c, hc, hfault⟩
  · exact ⟨_, hfault, .length hrow hlength⟩
  · exact ⟨_, hfault, .marker hrow hlength hc⟩

/-! ## Headers -/

/-- A text that lays out the numerals of a side and of a mode, and then as many words as the side
says. -/
structure Headed (text : List Char) (side : Nat) (mode : Int) (rows : List (List Char)) :
    Prop where
  words : ∃ sideWord modeWord, Text.LaysOut text (sideWord :: modeWord :: rows)
    ∧ Numeral.Spells sideWord side ∧ Numeral.Spells modeWord mode
  side_pos : 1 ≤ side
  length : rows.length = side

/-- A word that spells an integer is read as it in the header. -/
theorem headerInteger_eq {field : HeaderField} {word : List Char} {n : Int}
    (h : Numeral.Spells word n) : headerInteger field word = .ok n := by
  rw [headerInteger, Numeral.read_eq_ok_iff.mpr h]
  rfl

/-- Behind a right header the rows decide. -/
theorem Headed.parse_eq (h : Headed text side mode rows) :
    parse text = match rowFault? side 0 rows with
      | some fault => .error fault
      | none => ((Grid.ofRows rows).mapError .grid).map fun g => ⟨g, mode⟩ := by
  obtain ⟨⟨sideWord, modeWord, hwords, hside, hmode⟩, hpos, rfl⟩ := h
  have hsmall : ¬ (rows.length : Int) < 1 := by omega
  rw [parse, Text.words_eq_iff.mpr hwords, ofWords, headerInteger_eq hside, headerInteger_eq hmode]
  show (if (rows.length : Int) < 1 then _ else if (rows.length : Int) ≠ rows.length then _ else _)
    = _
  rw [if_neg hsmall, if_neg (not_not_intro rfl)]
  cases rowFault? rows.length 0 rows with
  | some fault => rfl
  | none => cases Grid.ofRows rows <;> rfl

/-- A text that has no right header is refused for its header. -/
theorem headed_or_error (text : List Char) :
    (∃ side mode rows, Headed text side mode rows)
      ∨ ∃ fault, parse text = .error fault ∧ ∀ f, fault ≠ .grid f := by
  have hwords : Text.LaysOut text (Text.words text) := Text.words_eq_iff.mp rfl
  rw [parse]
  cases hsplit : Text.words text with
  | nil => exact Or.inr ⟨.noHeader, rfl, nofun⟩
  | cons sideWord more =>
      cases more with
      | nil => exact Or.inr ⟨.noHeader, rfl, nofun⟩
      | cons modeWord rows =>
          rw [ofWords, headerInteger, headerInteger]
          cases hside : Numeral.read sideWord with
          | error fault => exact Or.inr ⟨.notInteger .side sideWord, rfl, nofun⟩
          | ok side =>
              cases hmode : Numeral.read modeWord with
              | error fault => exact Or.inr ⟨.notInteger .mode modeWord, rfl, nofun⟩
              | ok mode =>
                  show _ ∨ ∃ fault, (if side < 1 then _ else if (rows.length : Int) ≠ side then _
                    else _) = _ ∧ _
                  by_cases hsmall : side < 1
                  · rw [if_pos hsmall]
                    exact Or.inr ⟨_, rfl, nofun⟩
                  · rw [if_neg hsmall]
                    by_cases hcount : (rows.length : Int) = side
                    · subst hcount
                      rw [hsplit] at hwords
                      have hspelled := Numeral.read_eq_ok_iff.mp hside
                      refine Or.inl ⟨rows.length, mode, rows, ?_, by omega, rfl⟩
                      exact ⟨_, _, hwords, hspelled, Numeral.read_eq_ok_iff.mp hmode⟩
                    · rw [if_pos hcount]
                      exact Or.inr ⟨_, rfl, nofun⟩

/-! ## Texts that are cases -/

/-- A text that is read as a case has its header, and then its rows. -/
theorem headed_of_parse {c : Case} (h : parse text = .ok c) :
    Headed text c.grid.side c.mode c.grid.toRows := by
  rcases headed_or_error text with ⟨side, mode, rows, hheaded⟩ | ⟨fault, hfault, -⟩
  · rw [hheaded.parse_eq] at h
    cases hfault : rowFault? side 0 rows with
    | some fault =>
        rw [hfault] at h
        exact nomatch h
    | none =>
        rw [hfault] at h
        cases hgrid : Grid.ofRows rows with
        | error fault =>
            rw [hgrid] at h
            exact nomatch h
        | ok g =>
            rw [hgrid] at h
            obtain rfl := Except.ok.inj h
            obtain rfl := Grid.ofRows_eq_ok_iff.mp hgrid
            obtain rfl : g.side = side := g.length_toRows.symm.trans hheaded.length
            exact hheaded
  · exact nomatch hfault.symm.trans h

/-- A text with the header and the rows of a case is read as the case. -/
theorem parse_of_headed {c : Case} (h : Headed text c.grid.side c.mode c.grid.toRows) :
    parse text = .ok c := by
  have hrows : ∀ row ∈ c.grid.toRows, IsRow c.grid.side row := fun row => Grid.isRow_of_mem
  rw [h.parse_eq, rowFault?_of_rows hrows, c.grid.ofRows_toRows]
  rfl

/-- **A text is a case** exactly if it has the header and the rows of it. -/
theorem parse_eq_ok_iff {c : Case} :
    parse text = .ok c ↔ Headed text c.grid.side c.mode c.grid.toRows :=
  ⟨headed_of_parse, parse_of_headed⟩

/-- A case with this side, mode and rows, in which the cells of open markers are open. -/
structure Shows (c : Case) (side : Nat) (mode : Int) (rows : List (List Char)) : Prop where
  side_eq : c.grid.side = side
  mode_eq : c.mode = mode
  rows_eq : c.grid.toRows = rows
  cells : ∀ (i j : Nat) (row : List Char) (mark : Char), rows[i]? = some row →
    row[j]? = some mark → c.grid.cell? i j = .ok (mark == Grid.openMarker)

/-- A text with a right header and rows of markers is a case. -/
theorem Headed.exists_case (h : Headed text side mode rows) (hbound : side + 1 < Varint.limit)
    (hrows : ∀ row ∈ rows, IsRow side row) : ∃ c, parse text = .ok c ∧ c.Shows side mode rows := by
  obtain rfl := h.length
  have hne : rows ≠ [] := List.length_pos_iff.mp h.side_pos
  obtain ⟨g, hg⟩ := Grid.exists_ofRows hne hbound hrows
  obtain rfl := Grid.ofRows_eq_ok_iff.mp hg
  refine ⟨⟨g, mode⟩, ?_, g.length_toRows.symm, rfl, rfl, fun i j row mark => Grid.cell?_of_toRows⟩
  rw [h.parse_eq, rowFault?_of_rows hrows, hg]
  rfl

/-- A text with a header and rows that are wrong is refused, and the first fault is named. -/
theorem Headed.exists_fault (h : Headed text side mode rows)
    (hrows : ¬ ∀ row ∈ rows, IsRow side row) :
    ∃ fault, parse text = .error fault ∧ NamesFirst side rows fault := by
  obtain ⟨fault, hfault, hnames⟩ := exists_namesFirst hrows
  refine ⟨fault, ?_, hnames⟩
  rw [h.parse_eq, hfault]

/-- There is at least one character for each row, and two more. -/
theorem Headed.side_lt (h : Headed text side mode rows) : side + 1 < text.length := by
  obtain ⟨⟨sideWord, modeWord, hwords, -, -⟩, -, rfl⟩ := h
  exact hwords.length_le

/-- The decimals of a side and of a mode are a right header. -/
theorem headed_of_decimal (hpos : 1 ≤ side) (hside : side < 10 ^ Numeral.digitLimit)
    (hmode : mode.natAbs < 10 ^ Numeral.digitLimit) (hlength : rows.length = side)
    (hwords : Text.LaysOut text (Json.decimal side :: Json.decimal mode :: rows)) :
    Headed text side mode rows := by
  have hspelled : Numeral.Spells (Json.decimal side) side :=
    Numeral.read_eq_ok_iff.mp (Numeral.read_decimal hside)
  exact ⟨⟨_, _, hwords, hspelled, Numeral.read_eq_ok_iff.mp (Numeral.read_decimal hmode)⟩, hpos,
    hlength⟩

/-- A case is read back from its side, its mode and its rows. -/
theorem parse_rendered {c : Case} (hmode : c.mode.natAbs < 10 ^ Numeral.digitLimit)
    (hwords : Text.LaysOut text
      (Json.decimal c.grid.side :: Json.decimal c.mode :: c.grid.toRows)) :
    parse text = .ok c :=
  parse_of_headed (headed_of_decimal c.grid.side_pos c.grid.side_lt_numeral hmode
    c.grid.length_toRows hwords)

/-- Rows make a case behind their header exactly if they make a grid, and then the same. -/
theorem parse_eq_ok_iff_ofRows (hmode : mode.natAbs < 10 ^ Numeral.digitLimit)
    (hwords : Text.LaysOut text (Json.decimal rows.length :: Json.decimal mode :: rows)) (c : Case) :
    parse text = .ok c ↔ Grid.ofRows rows = .ok c.grid ∧ c.mode = mode := by
  rw [Grid.ofRows_eq_ok_iff]
  constructor
  · intro h
    obtain ⟨⟨sideWord, modeWord, hwords', -, hspelled⟩, -, -⟩ := headed_of_parse h
    obtain ⟨-, hmore⟩ := List.cons.inj (hwords'.unique hwords)
    obtain ⟨rfl, hrows⟩ := List.cons.inj hmore
    have hread := Numeral.read_eq_ok_iff.mpr hspelled
    rw [Numeral.read_decimal hmode] at hread
    exact ⟨hrows, (Except.ok.inj hread).symm⟩
  · rintro ⟨rfl, rfl⟩
    rw [Grid.length_toRows] at hwords
    exact parse_rendered hmode hwords

/-- **The texts that are cases.** A text with a right header is the case of its rows if they are
rows of markers, and if not, their first fault is named. A text without a right header is refused
for the header. So the text of a case is read as that case, wherever it has its blanks, and rows
behind their header are a case exactly if they are a grid. No text has `2 ^ 63` characters or
more in memory, so the side of a grid of its rows is in bounds. -/
theorem parse_exact (text : List Char) :
    (text.length < 2 ^ 63 →
      (∀ side mode rows, Headed text side mode rows →
        ((∀ row ∈ rows, IsRow side row) → ∃ c, parse text = .ok c ∧ c.Shows side mode rows)
        ∧ ((¬ ∀ row ∈ rows, IsRow side row) →
          ∃ fault, parse text = .error fault ∧ NamesFirst side rows fault))
      ∧ ((¬ ∃ side mode rows, Headed text side mode rows) →
        ∃ fault, parse text = .error fault ∧ ∀ f, fault ≠ .grid f))
    ∧ (∀ c : Case, c.mode.natAbs < 10 ^ Numeral.digitLimit →
      Text.LaysOut text (Json.decimal c.grid.side :: Json.decimal c.mode :: c.grid.toRows) →
        parse text = .ok c)
    ∧ ∀ (rows : List (List Char)) (mode : Int), mode.natAbs < 10 ^ Numeral.digitLimit →
      Text.LaysOut text (Json.decimal rows.length :: Json.decimal mode :: rows) →
        ∀ c, parse text = .ok c ↔ Grid.ofRows rows = .ok c.grid ∧ c.mode = mode := by
  refine ⟨fun htext => ⟨fun side mode rows hheaded => ⟨?_, ?_⟩, ?_⟩, ?_, ?_⟩
  · intro hrows
    have hbound : side + 1 < Varint.limit := Nat.lt_trans hheaded.side_lt htext
    exact hheaded.exists_case hbound hrows
  · exact hheaded.exists_fault
  · intro hnone
    exact (headed_or_error text).resolve_left hnone
  · intro c hmode hwords
    exact parse_rendered hmode hwords
  · intro rows mode hmode hwords
    exact parse_eq_ok_iff_ofRows hmode hwords

/-- Two rows with a wide blank between them, two rows with a fault in the second, and a text that
is too short for a header. -/
theorem parse_exact_two :
    let rows := [['.', '#'], ['#', '.']]
    let text := ['2', ' ', '7', '\n', '.', '#', '\u3000', '#', '.']
    let rows' := [['.', '#'], ['#', 'x']]
    let text' := ['2', ' ', '7', '\n', '.', '#', '\n', '#', 'x']
    Headed text 2 7 rows ∧ (∀ row ∈ rows, IsRow 2 row)
      ∧ (∃ c, parse text = .ok c ∧ c.Shows 2 7 rows ∧ Grid.ofRows rows = .ok c.grid)
      ∧ Headed text' 2 7 rows' ∧ (¬ ∀ row ∈ rows', IsRow 2 row)
      ∧ (∃ fault, parse text' = .error fault ∧ NamesFirst 2 rows' fault)
      ∧ (¬ ∃ side mode rows, Headed ['2'] side mode rows)
      ∧ ∃ fault, parse ['2'] = .error fault := by
  intro rows text rows' text'
  have hwords : Text.LaysOut text (Json.decimal 2 :: Json.decimal 7 :: rows) :=
    Text.words_eq_iff.mp (by decide +kernel)
  have hwords' : Text.LaysOut text' (Json.decimal 2 :: Json.decimal 7 :: rows') :=
    Text.words_eq_iff.mp (by decide +kernel)
  have hside : 2 < 10 ^ Numeral.digitLimit := by
    calc 2 < 10 ^ 1 := by decide
      _ ≤ 10 ^ Numeral.digitLimit := Nat.pow_le_pow_right (by decide) (by decide)
  have hmode : (7 : Int).natAbs < 10 ^ Numeral.digitLimit := by
    calc 7 < 10 ^ 1 := by decide
      _ ≤ 10 ^ Numeral.digitLimit := Nat.pow_le_pow_right (by decide) (by decide)
  have hheaded : Headed text 2 7 rows := headed_of_decimal (by decide) hside hmode rfl hwords
  have hheaded' : Headed text' 2 7 rows' := headed_of_decimal (by decide) hside hmode rfl hwords'
  have hlength : ∀ row ∈ rows, row.length = 2 := by decide
  have hmarkers : ∀ row ∈ rows, ∀ c ∈ row, Grid.isMarker c = true := by
    simp [rows, Grid.isMarker, Grid.openMarker, Grid.blockedMarker]
  have hrows : ∀ row ∈ rows, IsRow 2 row := by
    intro row hrow
    exact ⟨hlength row hrow, hmarkers row hrow⟩
  have hrows' : ¬ ∀ row ∈ rows', IsRow 2 row := by
    intro h
    exact absurd ((h ['#', 'x'] (by decide)).markers 'x' (by decide)) (by decide)
  have hshort : ¬ ∃ side mode rows, Headed ['2'] side mode rows := by
    rintro ⟨side, mode, more, ⟨sideWord, modeWord, hlaid, -, -⟩, -, -⟩
    have hone : Text.words ['2'] = [['2']] := by decide +kernel
    obtain ⟨-, hnil⟩ := List.cons.inj ((Text.words_eq_iff.mp hone).unique hlaid)
    exact List.cons_ne_nil _ _ hnil.symm
  obtain ⟨hall, -, hofRows⟩ := parse_exact text
  obtain ⟨hall', -, -⟩ := parse_exact text'
  obtain ⟨hnone, -, -⟩ := parse_exact ['2']
  obtain ⟨c, hparse, hshows⟩ := ((hall (by decide)).1 2 7 rows hheaded).1 hrows
  obtain ⟨fault, hfault, -⟩ := (hnone (by decide)).2 hshort
  exact ⟨hheaded, hrows, ⟨c, hparse, hshows, ((hofRows rows 7 hmode hwords c).mp hparse).1⟩,
    hheaded', hrows', ((hall' (by decide)).1 2 7 rows' hheaded').2 hrows', hshort, fault, hfault⟩

end Case

end SegmentFit
