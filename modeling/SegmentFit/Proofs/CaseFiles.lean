import Mathlib.Data.List.Nodup
import SegmentFit.Batch
import SegmentFit.Proofs.FileTrees

/-!
# Case files — what a directory holds for a case

A `Directory` is what a path names: entries, each with a name of its own. What is read at the
path of an entry is what the directory has under its name (`Directory.read_child`), so a case
and its expected answer are told by the entries alone (`loadTask_eq_ok_iff`), and another
directory that has the same under the names of a case and of its answer has the same for the
case (`loadTask_congr`).

A name may be short enough for an entry while that of the answer is too long to be looked up:
the end of the name of a case file gives way to a longer one.
-/

namespace SegmentFit

/-! ## Names of files -/

/-- The name of a case has no characters that the name of its file has not. -/
theorem caseName_subset (file : String) : ∀ c ∈ (caseName file).toList, c ∈ file.toList := by
  intro c hc
  rw [caseName] at hc
  split at hc
  · rw [String.toList_ofList] at hc
    exact List.mem_of_mem_take hc
  · exact hc

/-- The file of the answer is named for the case. -/
theorem toList_answerFile (file : String) :
    (answerFile file).toList = (caseName file).toList ++ ['.', 'o', 'u', 't'] :=
  String.toList_append

/-- The file of an answer is not that of a case. -/
theorem isCaseFile_answerFile (file : String) : isCaseFile (answerFile file) = false := by
  rw [isCaseFile, toList_answerFile, Bool.eq_false_iff, Ne, List.isSuffixOf_iff_suffix]
  rintro ⟨before, heq⟩
  have hlast := congrArg List.getLast? heq
  rw [List.getLast?_append, List.getLast?_append] at hlast
  simp [caseSuffix] at hlast

/-- Names of three characters may be those of entries, without slashes and zeros. -/
theorem entryName_of_length {name : String} (hslash : '/' ∉ name.toList)
    (hzero : '\x00' ∉ name.toList) (hlength : 2 < name.toList.length) :
    FileTree.EntryName name := by
  have hne {short : String} (hshort : short.toList.length ≤ 2) : name ≠ short := by
    rintro rfl
    omega
  refine ⟨hslash, hzero, ?_, beq_eq_false_iff_ne.mpr (hne (by decide))⟩
  rw [PathText.stays, Bool.or_eq_false_iff, beq_eq_false_iff_ne, beq_eq_false_iff_ne]
  exact ⟨hne (by decide), hne (by decide)⟩

/-- If a case file can be an entry, so can the file of its answer. -/
theorem entryName_answerFile {file : String} (h : FileTree.EntryName file) :
    FileTree.EntryName (answerFile file) := by
  have hmem {c : Char} (hc : c ∈ (answerFile file).toList) :
      c ∈ file.toList ∨ c ∈ ['.', 'o', 'u', 't'] := by
    rw [toList_answerFile] at hc
    exact (List.mem_append.mp hc).imp_left (caseName_subset file c)
  refine entryName_of_length (fun hc => ?_) (fun hc => ?_) ?_
  · exact (hmem hc).elim h.noSlash (by decide)
  · exact (hmem hc).elim h.noZero (by decide)
  · rw [toList_answerFile, List.length_append]
    exact Nat.le_trans (by decide) (Nat.le_add_left 4 _)

section Stem

variable (stem : List Char)

theorem isCaseFile_ofList : isCaseFile (String.ofList (stem ++ caseSuffix)) = true := by
  rw [isCaseFile, String.toList_ofList, List.isSuffixOf_iff_suffix]
  exact List.suffix_append _ _

/-- The file of the answer has the same stem. -/
theorem answerFile_ofList (hstem : stem ≠ []) :
    answerFile (String.ofList (stem ++ caseSuffix))
      = String.ofList (stem ++ ['.', 'o', 'u', 't']) := by
  have hpos : caseSuffix.length < stem.length + caseSuffix.length :=
    Nat.lt_add_of_pos_left (List.length_pos_iff.mpr hstem)
  rw [answerFile, caseName, String.toList_ofList, List.length_append, if_pos hpos,
    Nat.add_sub_cancel, List.take_left, String.ofList_append]

end Stem

/-! ## Directories -/

/-- What a path to a directory names: the entries there, each with a name of its own. -/
structure Directory where
  path : String
  entries : List (String × FileTree)
  distinct : (entries.map Prod.fst).Nodup
  named : ∀ e ∈ entries, FileTree.EntryName e.1

namespace Directory

variable (d : Directory)

def child (name : String) : String :=
  PathText.child d.path name

/-- The path leads to this directory in a tree. -/
def IsIn (t : FileTree) : Prop :=
  ∃ place, t.resolve d.path = .ok ⟨place, some (.directory d.entries)⟩

/-- A name that cannot be looked up, since it or its path has too many bytes. -/
def TooLong (name : String) : Prop :=
  PathText.pathLimit < (d.child name).utf8ByteSize ∨ PathText.nameLimit < name.utf8ByteSize

instance (name : String) : Decidable (d.TooLong name) :=
  inferInstanceAs (Decidable (_ ∨ _))

/-- A file that can be read as a text. -/
def HoldsText (name : String) (text : List Char) : Prop :=
  ¬ d.TooLong name ∧ ∃ bytes chars, d.entries.lookup name = some (.file bytes)
    ∧ Utf8.decode bytes = .ok chars ∧ text = Text.unifyNewlines chars

def HoldsCase (name : String) (c : Case) : Prop :=
  ∃ text, d.HoldsText name text ∧ Case.parse text = .ok c

/-- A file with exactly one numeral. -/
def HoldsInteger (name : String) (n : Int) : Prop :=
  ∃ text word, d.HoldsText name text ∧ Text.words text = [word] ∧ Numeral.read word = .ok n

/-- What is expected of a case file: nothing if there is no file with the answer. -/
def Expects (file : String) : Option Int → Prop
  | none => ¬ d.TooLong (answerFile file) ∧ d.entries.lookup (answerFile file) = none
  | some n => d.HoldsInteger (answerFile file) n

/-- A directory in the working directory, with nothing beside it. -/
theorem isIn_single (hname : FileTree.EntryName d.path)
    (hshort : d.path.utf8ByteSize ≤ PathText.nameLimit) :
    d.IsIn (.directory [(d.path, .directory d.entries)]) := by
  have hhere : (FileTree.directory [(d.path, .directory d.entries)]).resolve "."
      = .ok ⟨[], some (.directory [(d.path, .directory d.entries)])⟩ := rfl
  have hchild : PathText.child "." d.path = d.path := rfl
  have hresolve := FileTree.resolve_child hhere hname
  have hfits : ¬ (PathText.pathLimit < d.path.utf8ByteSize
      ∨ PathText.nameLimit < d.path.utf8ByteSize) := by
    simp only [PathText.pathLimit, PathText.nameLimit] at *
    omega
  rw [hchild, if_neg hfits, List.lookup_cons_self] at hresolve
  exact ⟨_, hresolve⟩

/-! ## Reading entries -/

variable {d} {t : FileTree} {name : String}

/-- An entry of a directory is found under its name, unless its path is too long. -/
theorem exists_resolve (h : d.IsIn t) (hname : FileTree.EntryName name) :
    ∃ place, t.resolve (d.child name)
      = if d.TooLong name then .error (.tooLong (d.child name))
        else .ok ⟨place, d.entries.lookup name⟩ := by
  obtain ⟨place, hplace⟩ := h
  exact ⟨place ++ [name], FileTree.resolve_child hplace hname⟩

/-- Looking for an entry finds what the directory holds under the name. -/
theorem look_child (h : d.IsIn t) (hname : FileTree.EntryName name) :
    t.look (d.child name)
      = if d.TooLong name then .error (.tooLong (d.child name))
        else .ok (d.entries.lookup name) := by
  obtain ⟨place, hresolve⟩ := exists_resolve h hname
  rw [FileTree.look, hresolve]
  by_cases hlong : d.TooLong name
  · rw [if_pos hlong, if_pos hlong]
  · rw [if_neg hlong, if_neg hlong]

/-- Reading an entry gives its bytes; there may be none, a directory, or a path that is too long. -/
theorem read_child (h : d.IsIn t) (hname : FileTree.EntryName name) :
    t.read (d.child name)
      = if d.TooLong name then .error (.tooLong (d.child name))
        else match d.entries.lookup name with
          | none => .error (.notFound (d.child name))
          | some (.directory _) => .error (.isDirectory (d.child name))
          | some (.file bytes) => .ok bytes := by
  obtain ⟨place, hresolve⟩ := exists_resolve h hname
  rw [FileTree.read, hresolve]
  by_cases hlong : d.TooLong name
  · rw [if_pos hlong, if_pos hlong]
    rfl
  · rw [if_neg hlong, if_neg hlong]
    rfl

/-- Bytes are read from an entry exactly if it is a file that holds them. -/
theorem read_eq_ok_iff (h : d.IsIn t) (hname : FileTree.EntryName name) {bytes : List UInt8} :
    t.read (d.child name) = .ok bytes
      ↔ ¬ d.TooLong name ∧ d.entries.lookup name = some (.file bytes) := by
  rw [read_child h hname]
  by_cases hlong : d.TooLong name
  · rw [if_pos hlong]
    exact iff_of_false nofun fun hholds => hholds.1 hlong
  · rw [if_neg hlong, and_iff_right hlong]
    cases d.entries.lookup name with
    | none => exact iff_of_false nofun nofun
    | some entry =>
        cases entry with
        | directory entries => exact iff_of_false nofun nofun
        | file bytes' => simp

/-- **Text is read from an entry** exactly if the directory holds it there. -/
theorem readText_eq_ok_iff (h : d.IsIn t) (hname : FileTree.EntryName name) {text : List Char} :
    t.readText (d.child name) = .ok text ↔ d.HoldsText name text := by
  simp only [FileTree.readText, bind_eq_ok_iff, mapError_eq_ok_iff, read_eq_ok_iff h hname]
  constructor
  · rintro ⟨bytes, ⟨hshort, hlookup⟩, chars, hchars, htext⟩
    exact ⟨hshort, bytes, chars, hlookup, hchars, (Except.ok.inj htext).symm⟩
  · rintro ⟨hshort, bytes, chars, hlookup, hchars, rfl⟩
    exact ⟨bytes, ⟨hshort, hlookup⟩, chars, hchars, rfl⟩

/-- **A case is loaded** exactly if the directory holds it. -/
theorem loadCase_eq_ok_iff (h : d.IsIn t) (hname : FileTree.EntryName name) {c : Case} :
    t.loadCase (d.child name) = .ok c ↔ d.HoldsCase name c := by
  simp only [FileTree.loadCase, bind_eq_ok_iff, mapError_eq_ok_iff, readText_eq_ok_iff h hname]
  exact Iff.rfl

/-- An answer is a text of one word, which is an integer. -/
theorem expectedAnswer_eq_ok_iff {path : String} {text : List Char} {n : Int} :
    expectedAnswer path text = .ok n
      ↔ ∃ word, Text.words text = [word] ∧ Numeral.read word = .ok n := by
  rw [expectedAnswer]
  split
  · next word hwords =>
      rw [mapError_eq_ok_iff]
      constructor
      · intro hread
        exact ⟨word, hwords, hread⟩
      · rintro ⟨word', hwords', hread⟩
        obtain rfl : word = word' := List.singleton_inj.mp (hwords.symm.trans hwords')
        exact hread
  · next hwords =>
      refine iff_of_false nofun ?_
      rintro ⟨word, hword, -⟩
      exact hwords word hword

/-- **An answer is loaded** exactly if the directory holds that integer. -/
theorem loadAnswer_eq_ok_iff (h : d.IsIn t) (hname : FileTree.EntryName name) {n : Int} :
    t.loadAnswer (d.child name) = .ok n ↔ d.HoldsInteger name n := by
  simp only [FileTree.loadAnswer, bind_eq_ok_iff, mapError_eq_ok_iff, readText_eq_ok_iff h hname,
    expectedAnswer_eq_ok_iff]
  constructor
  · rintro ⟨text, htext, word, hword⟩
    exact ⟨text, word, htext, hword⟩
  · rintro ⟨text, word, htext, hword⟩
    exact ⟨text, htext, word, hword⟩

/-- Where an integer is held there is a file. -/
theorem HoldsInteger.exists_file {n : Int} (h : d.HoldsInteger name n) :
    ∃ bytes, d.entries.lookup name = some (.file bytes) := by
  obtain ⟨_, _, ⟨-, bytes, _, hlookup, -⟩, -⟩ := h
  exact ⟨bytes, hlookup⟩

/-- What is held has a path that is not too long. -/
theorem HoldsInteger.short {n : Int} (h : d.HoldsInteger name n) : ¬ d.TooLong name := by
  obtain ⟨_, _, ⟨hshort, -⟩, -⟩ := h
  exact hshort

/-- What is expected of a case is looked up, so the path of the answer is not too long. -/
theorem Expects.short {file : String} {expected : Option Int} (h : d.Expects file expected) :
    ¬ d.TooLong (answerFile file) := by
  cases expected with
  | none => exact h.1
  | some n => exact HoldsInteger.short h

/-- **A case file can be judged** if it holds a case, and its answer is missing or an integer. -/
theorem loadTask_eq_ok_iff (h : d.IsIn t) (hname : FileTree.EntryName name) {c : Case}
    {expected : Option Int} :
    t.loadTask d.path name = .ok (c, expected) ↔ d.HoldsCase name c ∧ d.Expects name expected := by
  have hanswer := entryName_answerFile hname
  have hlook := look_child h hanswer
  have hcase {c : Case} := loadCase_eq_ok_iff h hname (c := c)
  have hload {n : Int} := loadAnswer_eq_ok_iff h hanswer (n := n)
  rw [child] at hlook hcase hload
  simp only [FileTree.loadTask, bind_eq_ok_iff, mapError_eq_ok_iff, hcase]
  constructor
  · rintro ⟨c', hc', found, hfound, htask⟩
    rw [hlook] at hfound
    split at hfound
    · exact nomatch hfound
    · next hshort =>
        obtain rfl := Except.ok.inj hfound
        cases hlookup : d.entries.lookup (answerFile name) with
        | none =>
            rw [hlookup] at htask
            obtain ⟨rfl, rfl⟩ := Prod.mk.inj (Except.ok.inj htask)
            exact ⟨hc', hshort, hlookup⟩
        | some entry =>
            rw [hlookup] at htask
            dsimp only at htask
            obtain ⟨n, hn, htask⟩ := bind_eq_ok_iff.mp htask
            obtain ⟨rfl, rfl⟩ := Prod.mk.inj (Except.ok.inj htask)
            exact ⟨hc', hload.mp hn⟩
  · rintro ⟨hc, hexpects⟩
    refine ⟨c, hc, d.entries.lookup (answerFile name), ?_, ?_⟩
    · rw [hlook, if_neg hexpects.short]
    · cases expected with
      | none =>
          rw [hexpects.2]
          rfl
      | some n =>
          obtain ⟨bytes, hlookup⟩ := HoldsInteger.exists_file hexpects
          rw [hlookup]
          exact bind_eq_ok_iff.mpr ⟨n, hload.mpr hexpects, rfl⟩

/-! ## The same case in another directory -/

variable {d' : Directory} {t' : FileTree}

/-- A name that means the same in two directories of one path. -/
structure Agrees (d d' : Directory) (name : String) : Prop where
  path : d'.path = d.path
  lookup : d'.entries.lookup name = d.entries.lookup name

namespace Agrees

theorem child_eq (h : Agrees d d' name) : d'.child name = d.child name := by
  rw [child, child, h.path]

/-- Directories that agree on an entry agree on whether its path is too long. -/
theorem tooLong_iff (h : Agrees d d' name) : d'.TooLong name ↔ d.TooLong name := by
  rw [TooLong, TooLong, h.child_eq]

end Agrees

/-- Directories that agree on an entry are looked into with the same result. -/
theorem look_congr (h : d.IsIn t) (h' : d'.IsIn t') (hname : FileTree.EntryName name)
    (hagrees : Agrees d d' name) : t'.look (d.child name) = t.look (d.child name) := by
  rw [← hagrees.child_eq, look_child h' hname, hagrees.lookup, hagrees.child_eq,
    look_child h hname]
  exact if_congr hagrees.tooLong_iff rfl rfl

/-- Directories that agree on an entry are read from with the same result. -/
theorem read_congr (h : d.IsIn t) (h' : d'.IsIn t') (hname : FileTree.EntryName name)
    (hagrees : Agrees d d' name) : t'.read (d.child name) = t.read (d.child name) := by
  rw [← hagrees.child_eq, read_child h' hname, hagrees.lookup, hagrees.child_eq,
    read_child h hname]
  exact if_congr hagrees.tooLong_iff rfl rfl

/-- What a directory holds for a case does not depend on its other entries. -/
theorem loadTask_congr (h : d.IsIn t) (h' : d'.IsIn t') (hname : FileTree.EntryName name)
    (hcase : Agrees d d' name) (hanswer : Agrees d d' (answerFile name)) :
    t'.loadTask d.path name = t.loadTask d.path name := by
  have hanswerName := entryName_answerFile hname
  have hread := read_congr h h' hname hcase
  have hlook := look_congr h h' hanswerName hanswer
  have hreadAnswer := read_congr h h' hanswerName hanswer
  rw [child] at hread hlook hreadAnswer
  simp only [FileTree.loadTask, FileTree.loadCase, FileTree.loadAnswer, FileTree.readText, hread,
    hlook, hreadAnswer]

/-! ## One case by itself -/

/-- Whether a name is that of a case file or of its answer. -/
def isOf (file name : String) : Bool :=
  name == file || name == answerFile file

/-- The directory with nothing but one case and its answer. -/
def alone (d : Directory) (file : String) : Directory where
  path := d.path
  entries := d.entries.filter fun e => isOf file e.1
  distinct := d.distinct.sublist (List.filter_sublist.map Prod.fst)
  named := fun e he => d.named e (List.mem_filter.mp he).1

/-- A directory agrees with the one that keeps only a case on the files of that case. -/
theorem agrees_alone (d : Directory) {file name : String} (h : isOf file name = true) :
    Agrees d (d.alone file) name :=
  ⟨rfl, lookup_filter fun _ => h⟩

/-! ## Listing -/

/-- The case files of a directory are its entries with that suffix, in some order. -/
theorem exists_caseFiles (h : d.IsIn t) :
    ∃ files, t.caseFiles d.path = .ok files
      ∧ files.Perm ((d.entries.map Prod.fst).filter isCaseFile) := by
  obtain ⟨place, hplace⟩ := h
  have hlook : t.look d.path = .ok (some (.directory d.entries)) := by
    rw [FileTree.look, hplace]
  have hperm := List.mergeSort_perm (d.entries.map Prod.fst) fun a b => decide (a ≤ b)
  refine ⟨_, ?_, hperm.filter isCaseFile⟩
  rw [FileTree.caseFiles, FileTree.list, hlook]
  rfl

/-- Alone with its answer, a case file is the only one. -/
theorem caseFiles_alone {file : String} (h' : (d.alone file).IsIn t')
    (hfile : file ∈ (d.entries.map Prod.fst).filter isCaseFile) :
    t'.caseFiles d.path = .ok [file] := by
  obtain ⟨files, hfiles, hperm⟩ := exists_caseFiles h'
  obtain ⟨hmem, hcase⟩ := List.mem_filter.mp hfile
  have hnodup : (((d.alone file).entries.map Prod.fst).filter isCaseFile).Nodup :=
    (d.alone file).distinct.filter isCaseFile
  have hsingle : (((d.alone file).entries.map Prod.fst).filter isCaseFile).Perm [file] := by
    rw [List.perm_ext_iff_of_nodup hnodup (List.nodup_singleton file)]
    intro name
    rw [List.mem_singleton, List.mem_filter]
    constructor
    · rintro ⟨hname, hsuffix⟩
      obtain ⟨e, he, rfl⟩ := List.mem_map.mp hname
      have hof := (List.mem_filter.mp he).2
      rw [isOf, Bool.or_eq_true, beq_iff_eq, beq_iff_eq] at hof
      refine hof.resolve_right fun hanswer => ?_
      rw [hanswer, isCaseFile_answerFile] at hsuffix
      exact Bool.false_ne_true hsuffix
    · rintro rfl
      obtain ⟨e, he, rfl⟩ := List.mem_map.mp hmem
      refine ⟨List.mem_map.mpr ⟨e, List.mem_filter.mpr ⟨he, ?_⟩, rfl⟩, hcase⟩
      rw [isOf, beq_self_eq_true, Bool.true_or]
  rw [List.perm_singleton.mp (hperm.trans hsingle)] at hfiles
  exact hfiles

end Directory

end SegmentFit
