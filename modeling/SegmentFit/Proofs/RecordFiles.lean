import SegmentFit.Proofs.JsonReading
import SegmentFit.Proofs.RecordReading

/-!
# Files of records — what is saved is loaded

The text of records is their JSON texts, one a line. It is ASCII without a carriage return, no
line of it is blank, and each is read back as the value that it was written for, if it is nested
no deeper than is allowed (`recordsOf_recordLines`). So a file of records that was saved is loaded
with the same records (`loadRecords_of_saveRecords`), whatever line breaks and other characters
their strings have (`FileTree.saved_records_load`).
-/

namespace SegmentFit

open Json (Spelling Within render)

/-- The line of a record. -/
def recordLine (s : Spelling) (v : Json) : List Char :=
  render s v ++ ['\n']

theorem recordLines_eq (s : Spelling) (records : List Json) :
    recordLines s records = String.ofList (records.flatMap (recordLine s)) := by
  rw [← String.toList_inj, String.toList_ofList, recordLines, String.toList_join, List.flatMap_map]
  refine congrArg (fun f => records.flatMap f) (funext fun v => ?_)
  rw [String.toList_append, Json.text, String.toList_ofList]
  rfl

section Lines

variable {s : Spelling} (hs : s.IsText) {depth : Nat}

include hs

/-- The line of a record consists of printable characters and its line feed. -/
theorem lined_recordLine {v : Json} (hv : v.Legible) : Lined (recordLine s v) :=
  .of_printable (Json.printable_render hs hv)

theorem allBlank_recordLine {v : Json} (hv : v.Legible) :
    Text.allBlank (recordLine s v) = false := by
  obtain ⟨c, more, htext, hopens⟩ := Json.render_opens hs hv
  obtain ⟨hprintable, hblank, -⟩ := hopens.printable
  rw [recordLine, htext, Text.allBlank, List.cons_append, List.all_cons,
    Text.isBlank_eq_false hprintable hblank]
  rfl

theorem read_recordLine {v : Json} (hv : Within depth v) :
    Json.read depth (recordLine s v) = .ok v := by
  have hgap : ∀ c ∈ ['\n'], Json.isGap c = true := List.forall_mem_singleton.mpr rfl
  exact Json.read_render hs hv.legible hv.nesting_le hgap

theorem lined_recordLines {records : List Json} (h : ∀ v ∈ records, v.Legible) :
    Lined (records.flatMap (recordLine s)) := by
  intro c hc
  obtain ⟨v, hv, hc⟩ := List.mem_flatMap.mp hc
  exact lined_recordLine hs (h v hv) c hc

/-- The text of records has one line for each. -/
theorem lines_recordLines {records : List Json} (h : ∀ v ∈ records, v.Legible) :
    Text.lines (Text.unifyNewlines (records.flatMap (recordLine s)))
      = records.map (recordLine s) := by
  have hfeeds : ∀ line ∈ records.map (render s), '\n' ∉ line := by
    rw [List.forall_mem_map]
    intro v hv hc
    exact absurd (Json.printable_render hs (h v hv) '\n' hc) (by decide)
  have hlines := Text.lines_flatMap hfeeds
  rw [List.flatMap_map, List.map_map] at hlines
  rw [(lined_recordLines hs h).unifyNewlines_eq]
  exact hlines

theorem writtenLines_recordLines {records : List Json} (h : ∀ v ∈ records, v.Legible) :
    Text.writtenLines (records.flatMap (recordLine s)) = records.map (recordLine s) := by
  rw [Text.writtenLines, lines_recordLines hs h, List.filter_eq_self, List.forall_mem_map]
  intro v hv
  rw [allBlank_recordLine hs (h v hv)]
  rfl

theorem decode_recordLines {records : List Json} (h : ∀ v ∈ records, v.Legible) :
    Utf8.decode (textBytes (recordLines s records)) = .ok (records.flatMap (recordLine s)) := by
  have hascii := (lined_recordLines hs h).ascii
  rw [recordLines_eq, textBytes_ofList hascii]
  exact Utf8.decode_ascii hascii

/-- **The text of records is read back** as those records. -/
theorem recordsOf_recordLines {records : List Json} (h : ∀ v ∈ records, Within depth v) :
    recordsOf depth (textBytes (recordLines s records)) = .ok records := by
  have hlegible : ∀ v ∈ records, v.Legible := fun v hv => (h v hv).legible
  rw [recordsOf_eq_ok_iff]
  refine ⟨_, decode_recordLines hs hlegible, ?_⟩
  rw [writtenLines_recordLines hs hlegible, List.forall₂_map_left_iff, List.forall₂_same]
  exact fun v hv => read_recordLine hs (h v hv)

end Lines

namespace FileTree

variable {t t' : FileTree} {path : String} {depth : Nat} {records : List Json}

/-- A file with the text of records holds them. -/
theorem holdsRecords_of_read {s : Spelling} (hs : s.IsText) (h : ∀ v ∈ records, Within depth v)
    (hread : t.read path = .ok (textBytes (recordLines s records))) :
    t.HoldsRecords depth path records := by
  rw [← loadRecords_eq_ok_iff, loadRecords, hread]
  exact recordsOf_recordLines hs h

/-- **Records that were saved are loaded.** -/
theorem loadRecords_of_saveRecords (h : ∀ v ∈ records, Within depth v)
    (hsave : t.saveRecords path records = .ok t') : t'.loadRecords depth path = .ok records :=
  loadRecords_eq_ok_iff.mpr (holdsRecords_of_read Json.isText_compact h (read_of_save hsave))

/-- **Records survive in a file.** Where a text can be saved, records that JSON text can hold are
saved, and the same are loaded from there, if they may be nested as deep as they are. The file has
one line for each of them, in order, and no line of it is passed over as blank. -/
theorem saved_records_load (hrecords : ∀ v ∈ records, v.Legible)
    (hdepth : ∀ v ∈ records, v.nesting ≤ depth) (hpath : ∃ text t', t.save path text = .ok t') :
    ∃ t', t.saveRecords path records = .ok t' ∧ t'.loadRecords depth path = .ok records
      ∧ ∃ bytes text, t'.read path = .ok bytes ∧ Utf8.decode bytes = .ok text
          ∧ Text.lines (Text.unifyNewlines text) = records.map (recordLine Json.compact)
          ∧ Text.writtenLines text = records.map (recordLine Json.compact) := by
  obtain ⟨other, t₀, hother⟩ := hpath
  obtain ⟨t', hsave⟩ := exists_save hother (recordLines Json.compact records)
  have hwithin : ∀ v ∈ records, Within depth v := fun v hv => ⟨hrecords v hv, hdepth v hv⟩
  have hascii := (lined_recordLines Json.isText_compact hrecords).ascii
  refine ⟨t', hsave, loadRecords_of_saveRecords hwithin hsave, _, _, read_of_save hsave, ?_,
    lines_recordLines Json.isText_compact hrecords,
    writtenLines_recordLines Json.isText_compact hrecords⟩
  rw [recordLines_eq, textBytes_ofList hascii]
  exact Utf8.decode_ascii hascii

/-- Records of which one has line breaks and a character beyond the first plane in a string, and
one has only blanks. -/
theorem saved_records_load_breaks :
    let records := [Json.object [("a\r\nb", .string "\u2028\x85\x0b😀"), ("c", .bool true)],
      .string " ", .arr []]
    (∀ v ∈ records, v.Legible) ∧ (∀ v ∈ records, v.nesting ≤ 1)
      ∧ (∃ text t', empty.save "r" text = .ok t')
      ∧ ∃ t', empty.saveRecords "r" records = .ok t' ∧ t'.loadRecords 1 "r" = .ok records := by
  intro records
  have hwithin : ∀ v ∈ records, Within 1 v := by simp [records]
  have hpath : ∃ text t', empty.save "r" text = .ok t' :=
    ⟨"", exists_of_isOk (by decide +kernel)⟩
  have hlegible : ∀ v ∈ records, v.Legible := fun v hv => (hwithin v hv).legible
  have hdepth : ∀ v ∈ records, v.nesting ≤ 1 := fun v hv => (hwithin v hv).nesting_le
  obtain ⟨t', hsave, hload, -⟩ := saved_records_load hlegible hdepth hpath
  exact ⟨hlegible, hdepth, hpath, t', hsave, hload⟩

end FileTree

end SegmentFit
