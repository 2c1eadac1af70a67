import SegmentFit.Proofs.JsonStrings
import SegmentFit.Records

/-!
# Text files — ASCII text is read as it was written

A character of ASCII is written as one byte, which is its code, and read back from it
(`decode_ascii`). It makes no difference to a text that it is decoded in blocks, because a reading
without a fault neither depends on where it starts nor on where it is cut
(`decodeBlocks_pieces_eq_iff`).

Text without carriage returns has its ends of lines unified already. So lines of printable
characters, each with its line feed, are the lines that are read (`lines_flatMap`), and a word on
a line is the one word of the text (`words_line`).
-/

namespace SegmentFit

/-! ## Bytes -/

/-- A text of ASCII. -/
def Ascii (text : List Char) : Prop :=
  ∀ c ∈ text, c.toNat < 0x80

instance (text : List Char) : Decidable (Ascii text) :=
  List.decidableBAll _ text

/-- The bytes of an array are taken in order, behind those that were taken before. -/
theorem toList_loop (bytes : ByteArray) (i : Nat) (taken : List UInt8) :
    ByteArray.toList.loop bytes i taken = taken.reverse ++ bytes.data.toList.drop i := by
  fun_induction ByteArray.toList.loop bytes i taken with
  | case1 i taken hlt ih =>
      have hlength : i < bytes.data.toList.length := by simpa using hlt
      have hget : bytes.get! i = bytes.data.toList[i] := by
        cases bytes with
        | mk data => exact getElem!_pos data i hlt
      rw [ih, List.drop_eq_getElem_cons hlength, hget, List.reverse_cons, List.append_assoc]
      rfl
  | case2 i taken hlt =>
      have hlength : bytes.data.toList.length ≤ i := by simpa using hlt
      rw [List.drop_eq_nil_of_le hlength, List.append_nil]

/-- The bytes of a text are those that it is stored as. -/
theorem textBytes_eq (s : String) : textBytes s = s.toByteArray.data.toList := by
  rw [textBytes, String.toUTF8_eq_toByteArray, ByteArray.toList, toList_loop]
  rfl

/-- No two texts have the same bytes. -/
theorem textBytes_injective : Function.Injective textBytes := by
  intro s t h
  rw [textBytes_eq, textBytes_eq] at h
  exact String.toByteArray_inj.mp (ByteArray.ext (Array.toList_inj.mp h))

/-- A text of ASCII characters has their codes as its bytes. -/
theorem textBytes_ofList {text : List Char} (h : Ascii text) :
    textBytes (String.ofList text) = text.map Char.toUInt8 := by
  have hchars : text.flatMap String.utf8EncodeChar = text.map Char.toUInt8 := by
    induction text with
    | nil => rfl
    | cons c rest ih =>
        obtain ⟨hc, hrest⟩ := List.forall_mem_cons.mp h
        have hsize : c.utf8Size = 1 := by
          rw [Char.utf8Size_eq_one_iff, UInt32.le_iff_toNat_le]
          exact Nat.le_of_lt_succ hc
        rw [List.flatMap_cons, String.utf8EncodeChar_eq_singleton hsize, ih hrest]
        rfl
  rw [textBytes_eq, String.toByteArray_ofList, List.utf8Encode, List.toList_data_toByteArray]
  exact hchars

/-- A text has as many bytes as its size in UTF-8 says. -/
theorem length_textBytes (s : String) : (textBytes s).length = s.utf8ByteSize := by
  rw [textBytes_eq, Array.length_toList]
  rfl

/-- A text of ASCII characters has as many bytes as characters. -/
theorem utf8ByteSize_ofList {text : List Char} (h : Ascii text) :
    (String.ofList text).utf8ByteSize = text.length := by
  rw [← length_textBytes, textBytes_ofList h, List.length_map]

namespace Utf8

theorem start_toUInt8 {c : Char} (h : c.toNat < 0x80) : start c.toUInt8 = .whole c := by
  have hcode : c.toUInt8.toNat = c.toNat := by
    rw [Char.toUInt8, UInt32.toNat_toUInt8]
    exact Nat.mod_eq_of_lt (Nat.lt_trans h (by decide))
  rw [start, hcode, if_pos h, Char.ofNat_toNat]

/-- ASCII bytes are read one by one. -/
theorem readFrom_ascii {text : List Char} (h : Ascii text) (position : Nat) :
    readFrom position none (text.map Char.toUInt8) = ⟨text, .ok none⟩ := by
  induction text generalizing position with
  | nil => rfl
  | cons c rest ih =>
      obtain ⟨hc, hrest⟩ := List.forall_mem_cons.mp h
      rw [List.map_cons, readFrom, start_toUInt8 hc]
      dsimp only
      rw [ih hrest]
      rfl

/-- **ASCII is decoded** to the characters that it was written for. -/
theorem decode_ascii {text : List Char} (h : Ascii text) :
    decode (text.map Char.toUInt8) = .ok text := by
  rw [decode, readFrom_ascii h]

end Utf8

/-! ## Decoding in blocks -/

/-- Pieces of a list are put together to the list again. -/
theorem Blake3.flatten_pieces {α : Type} (size : Nat) (xs : List α) :
    (pieces size xs).flatten = xs := by
  fun_induction pieces size xs with
  | case1 xs h => exact List.append_nil xs
  | case2 xs h ih => rw [List.flatten_cons, ih, List.take_append_drop]

namespace Utf8

variable {pending : Option Pending} {bytes : List UInt8} {chars : List Char}

/-- What a reading without a fault has read: characters, and a character cut off. -/
def Reading.read? (reading : Reading) : Option (List Char × Option Pending) :=
  match reading.rest with
  | .ok pending => some (reading.chars, pending)
  | .error _ => none

/-- What is read behind a character has that character in front. -/
theorem Reading.read?_after (c : Char) (reading : Reading) :
    (reading.after c).read? = reading.read?.map fun found => (c :: found.1, found.2) := by
  obtain ⟨chars, rest⟩ := reading
  cases rest <;> rfl

/-- It does not depend on the position of the first byte. -/
theorem read?_readFrom (i j : Nat) (pending : Option Pending) (bytes : List UInt8) :
    (readFrom i pending bytes).read? = (readFrom j pending bytes).read? := by
  fun_induction readFrom i pending bytes generalizing j with
  | case1 i pending => rfl
  | case2 i b bytes c hstart ih =>
      rw [readFrom, hstart, Reading.read?_after, Reading.read?_after, ih (j + 1)]
  | case3 i b bytes p hstart ih =>
      rw [readFrom, hstart, ih (j + 1)]
  | case4 i b bytes hstart =>
      rw [readFrom, hstart]
      rfl
  | case5 i b bytes p hrange code hlast ih =>
      rw [readFrom, if_pos hrange, if_pos hlast, Reading.read?_after, Reading.read?_after,
        ih (j + 1)]
  | case6 i b bytes p hrange code hmore ih =>
      rw [readFrom, if_pos hrange, if_neg hmore, ih (j + 1)]
  | case7 i b bytes p hrange =>
      rw [readFrom, if_neg hrange]
      rfl

/-- A character in front stays there when readings are put together. -/
theorem map_cons_bind (c : Char) (first : Option (List Char × Option Pending))
    (later : Option Pending → Option (List Char × Option Pending)) :
    (first.bind fun found => (later found.2).map fun more => (found.1 ++ more.1, more.2)).map
        (fun found => (c :: found.1, found.2))
      = (first.map fun found => (c :: found.1, found.2)).bind fun found =>
          (later found.2).map fun more => (found.1 ++ more.1, more.2) := by
  cases first with
  | none => rfl
  | some found => cases h : later found.2 <;> simp [h]

/-- A reading goes on where it was cut. -/
theorem read?_readFrom_append (i j : Nat) (pending : Option Pending) (first second : List UInt8) :
    (readFrom i pending (first ++ second)).read?
      = (readFrom i pending first).read?.bind fun found =>
          (readFrom j found.2 second).read?.map fun more => (found.1 ++ more.1, more.2) := by
  fun_induction readFrom i pending first with
  | case1 i pending =>
      rw [List.nil_append, read?_readFrom i j]
      exact Option.map_id'.symm
  | case2 i b bytes c hstart ih =>
      rw [List.cons_append, readFrom, hstart, Reading.read?_after, Reading.read?_after, ih]
      exact map_cons_bind c _ fun p => (readFrom j p second).read?
  | case3 i b bytes p hstart ih =>
      rw [List.cons_append, readFrom, hstart, ih]
  | case4 i b bytes hstart =>
      rw [List.cons_append, readFrom, hstart]
      rfl
  | case5 i b bytes p hrange code hlast ih =>
      rw [List.cons_append, readFrom, if_pos hrange, if_pos hlast, Reading.read?_after,
        Reading.read?_after, ih]
      exact map_cons_bind (Char.ofNat code) _ fun p => (readFrom j p second).read?
  | case6 i b bytes p hrange code hmore ih =>
      rw [List.cons_append, readFrom, if_pos hrange, if_neg hmore, ih]
  | case7 i b bytes p hrange =>
      rw [List.cons_append, readFrom, if_neg hrange]
      rfl

/-- Bytes are decoded exactly if they can be read and nothing is left pending. -/
theorem decode_eq_ok_iff :
    decode bytes = .ok chars ↔ (readFrom 0 none bytes).read? = some (chars, none) := by
  rw [decode, Reading.read?]
  cases (readFrom 0 none bytes).rest with
  | error fault => exact iff_of_false nofun nofun
  | ok pending => cases pending <;> simp

/-- **Reading in blocks** comes to the same text. -/
theorem decodeBlocks_eq_iff {blocks : List (List UInt8)} :
    decodeBlocks pending blocks = (chars, none)
      ↔ (readFrom 0 pending blocks.flatten).read? = some (chars, none) := by
  induction blocks generalizing pending chars with
  | nil => cases pending <;> simp [decodeBlocks, readFrom, Reading.read?]
  | cons block rest ih =>
      rw [List.flatten_cons, decodeBlocks, read?_readFrom_append 0 0,
        read?_readFrom 0 ((pending.map fun p => p.taken.length).getD 0)]
      dsimp only
      generalize readFrom _ pending block = reading
      obtain ⟨start, rest'⟩ := reading
      cases rest' with
      | error fault =>
          refine iff_of_false (fun h => ?_) nofun
          dsimp only at h
          split at h <;> exact nomatch h
      | ok pending' =>
          dsimp only [Reading.read?, Option.bind_some]
          rw [Option.map_eq_some_iff]
          constructor
          · intro h
            obtain ⟨rfl, hnone⟩ := Prod.mk.inj h
            exact ⟨(_, none), ih.mp (Prod.ext rfl hnone), rfl⟩
          · rintro ⟨⟨more, last⟩, hread, heq⟩
            obtain ⟨rfl, rfl⟩ := Prod.mk.inj heq
            rw [ih.mpr hread]

/-- **Bytes are decoded block by block** exactly as they are in one piece, whatever the size of the
blocks. -/
theorem decodeBlocks_pieces_eq_iff {size : Nat} :
    decodeBlocks none (Blake3.pieces size bytes) = (chars, none) ↔ decode bytes = .ok chars := by
  rw [decodeBlocks_eq_iff, Blake3.flatten_pieces, decode_eq_ok_iff]

end Utf8

/-! ## Lines and words -/

namespace Text

/-- Nothing has to be unified in a text without carriage returns. -/
theorem unifyNewlines_eq {text : List Char} (h : '\r' ∉ text) : unifyNewlines text = text := by
  induction text with
  | nil => rfl
  | cons c rest ih =>
      rw [List.mem_cons, not_or] at h
      rw [unifyNewlines, ih h.2]
      · exact fun _ hc _ => h.1 hc.symm
      · exact fun hc => h.1 hc.symm

/-- A line ends behind the first newline. -/
theorem linesFrom_append {line : List Char} (h : '\n' ∉ line) (start rest : List Char) :
    linesFrom start (line ++ '\n' :: rest)
      = (start.reverse ++ (line ++ ['\n'])) :: linesFrom [] rest := by
  induction line generalizing start with
  | nil => rw [List.nil_append, linesFrom, List.nil_append, List.reverse_cons]
  | cons c line ih =>
      rw [List.mem_cons, not_or] at h
      rw [List.cons_append, linesFrom, ih h.2, List.reverse_cons, List.append_assoc,
        List.singleton_append, List.cons_append]
      exact fun hc => h.1 hc.symm

/-- **Lines that end in a line feed** are the lines of the text that they make up. -/
theorem lines_flatMap {texts : List (List Char)} (h : ∀ line ∈ texts, '\n' ∉ line) :
    lines (texts.flatMap fun line => line ++ ['\n']) = texts.map fun line => line ++ ['\n'] := by
  induction texts with
  | nil => rfl
  | cons line rest ih =>
      obtain ⟨hline, hrest⟩ := List.forall_mem_cons.mp h
      rw [List.flatMap_cons, List.map_cons, List.append_assoc, lines, List.singleton_append,
        linesFrom_append hline, ← ih hrest]
      rfl

/-- Of the printable characters only the space is blank. -/
theorem isBlank_eq_false {c : Char} (h : Json.Printable c) (hc : c ≠ ' ') : isBlank c = false := by
  have hblank : c.toNat ≠ 0x20 := fun heq => hc (Char.toNat_inj.mp heq)
  obtain ⟨hlow, hhigh⟩ := h
  rw [isBlank, Bool.eq_false_iff, Ne, inRanges_iff]
  simp only [blankRanges, List.mem_cons, List.not_mem_nil, or_false, exists_eq_or_imp,
    exists_eq_left]
  omega

/-- A word is read to its end. -/
theorem wordsFrom_append {word : List Char} (h : ∀ c ∈ word, isBlank c = false)
    (start rest : List Char) :
    wordsFrom start (word ++ rest) = wordsFrom (word.reverse ++ start) rest := by
  induction word generalizing start with
  | nil => rfl
  | cons c word ih =>
      obtain ⟨hc, hword⟩ := List.forall_mem_cons.mp h
      rw [List.cons_append, wordsFrom, hc, if_neg Bool.false_ne_true, ih hword, List.reverse_cons,
        List.append_assoc, List.singleton_append]

/-- **A word on a line** is the only word. -/
theorem words_line {word : List Char} (h : ∀ c ∈ word, isBlank c = false) (hne : word ≠ []) :
    words (word ++ ['\n']) = [word] := by
  have hempty : (word.reverse ++ []).isEmpty = false := by
    simp [hne]
  rw [words, wordsFrom_append h, wordsFrom, if_pos (by decide), hempty, if_neg Bool.false_ne_true,
    List.append_nil, List.reverse_reverse]
  rfl

end Text

/-! ## Lines of printable characters -/

/-- A text of printable characters and line feeds. -/
def Lined (text : List Char) : Prop :=
  ∀ c ∈ text, Json.Printable c ∨ c = '\n'

namespace Lined

variable {text : List Char}

/-- Printable characters and a newline behind them are lined. -/
theorem of_printable (h : ∀ c ∈ text, Json.Printable c) : Lined (text ++ ['\n']) := by
  intro c hc
  exact (List.mem_append.mp hc).imp (h c) List.mem_singleton.mp

theorem ascii (h : Lined text) : Ascii text := by
  intro c hc
  rcases h c hc with hprintable | rfl
  · exact Nat.lt_trans hprintable.2 (by decide)
  · decide

/-- A lined text has no newlines but the plain ones, so it stays as it is. -/
theorem unifyNewlines_eq (h : Lined text) : Text.unifyNewlines text = text := by
  refine Text.unifyNewlines_eq fun hc => ?_
  exact absurd (h '\r' hc) (by decide)

end Lined

end SegmentFit
