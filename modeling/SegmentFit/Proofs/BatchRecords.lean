import SegmentFit.Command.Batch
import SegmentFit.Proofs.AnswerCommand
import SegmentFit.Proofs.CaseFiles
import SegmentFit.Proofs.JsonText
import SegmentFit.Proofs.ReceiptComparison
import SegmentFit.Proofs.TextFiles
import SegmentFit.Proofs.Verdicts
import SegmentFit.Proofs.WrittenRecords

/-!
# The records of a batch — one a case file, each by itself

The solver finds the same on both runs of a case, so its verdict compares the answer with the
expected one and nothing else (`exists_twice`). What the record of a case file says is told by
what the directory holds for it (`Directory.Deserves`), with the symmetry check or without it.
-/

namespace SegmentFit

/-! ## Two runs of the solver -/

/-- **The solver runs a case twice with one result**, the greatest length that fits, which is the
same with the symmetry check and without it. -/
theorem exists_twice (c : Case) (machine : Fingerprint) :
    ∃ k : Nat, IsGreatest {j | c.grid.FitsMode c.mode j} k
      ∧ ∀ check, ∃ runs, (Runner.solver check machine).twice c = (runs, .solver check machine)
          ∧ ∀ expected, runs.verdict expected = .ofAnswer k expected := by
  obtain ⟨s, -, hgreatest, hsolve⟩ := c.exists_solution
  refine ⟨s.stage.answer, hgreatest, fun check => ?_⟩
  let solution : Solution :=
    ⟨Case.modeName c.mode, c.grid.side, s.stage.answer, { s with checked := check }⟩
  have hnamed : (solution.outcome machine).Named := solution.sections.distinct_digests
  refine ⟨.finished (solution.outcome machine) (solution.outcome machine), ?_, fun expected => ?_⟩
  · rw [Runner.twice, Case.attempt, hsolve]
    rfl
  · exact RunPair.verdict_of_agree hnamed hnamed rfl (.refl _)

namespace Directory

variable {d : Directory} {t : FileTree} {file : String}

/-! ## What a record says -/

/-- A record that a case file deserves, by what the directory holds for the case. -/
structure Deserves (d : Directory) (file : String) (r : CaseRecord) : Prop where
  name : r.name = caseName file
  /-- The file holds no case, or that of the answer cannot be looked up or holds no integer. -/
  error : (∃ reason, r.verdict = .error reason)
    ↔ (∀ c, ¬ d.HoldsCase file c) ∨ d.TooLong (answerFile file)
      ∨ (d.entries.lookup (answerFile file) ≠ none ∧ ∀ n, ¬ d.HoldsInteger (answerFile file) n)
  /-- No answer is expected, or the greatest length that fits. -/
  pass : r.verdict = .pass
    ↔ ∃ c, d.HoldsCase file c ∧ ¬ d.TooLong (answerFile file)
      ∧ (d.entries.lookup (answerFile file) = none
        ∨ ∃ k : Nat, d.HoldsInteger (answerFile file) k
            ∧ IsGreatest {j | c.grid.FitsMode c.mode j} k)
  fail : (∃ found expected, r.verdict = .wrongAnswer found expected)
    ↔ ∃ (c : Case) (k : Nat) (n : Int), d.HoldsCase file c
      ∧ IsGreatest {j | c.grid.FitsMode c.mode j} k ∧ d.HoldsInteger (answerFile file) n ∧ n ≠ k
  /-- The two runs never differ. -/
  stable : r.verdict ≠ .machinesDiffer ∧ (∀ names, r.verdict ≠ .sectionsDiffer names)
    ∧ ∀ first second, r.verdict ≠ .resultsDiffer first second

/-- An entry holds one text at most. -/
theorem HoldsText.unique {text text' : List Char} (h : d.HoldsText file text)
    (h' : d.HoldsText file text') : text = text' := by
  obtain ⟨-, bytes, chars, hlookup, hchars, rfl⟩ := h
  obtain ⟨-, bytes', chars', hlookup', hchars', rfl⟩ := h'
  obtain ⟨⟩ := hlookup.symm.trans hlookup'
  rw [Except.ok.inj (hchars.symm.trans hchars')]

/-- An entry holds one case at most. -/
theorem HoldsCase.unique {c c' : Case} (h : d.HoldsCase file c) (h' : d.HoldsCase file c') :
    c = c' := by
  obtain ⟨text, htext, hc⟩ := h
  obtain ⟨text', htext', hc'⟩ := h'
  rw [htext'.unique htext] at hc'
  exact Except.ok.inj (hc.symm.trans hc')

/-- An entry holds one integer at most. -/
theorem HoldsInteger.unique {n n' : Int} (h : d.HoldsInteger file n)
    (h' : d.HoldsInteger file n') : n = n' := by
  obtain ⟨text, word, htext, hword, hn⟩ := h
  obtain ⟨text', word', htext', hword', hn'⟩ := h'
  rw [htext'.unique htext] at hword'
  rw [List.singleton_inj.mp (hword'.symm.trans hword)] at hn'
  exact Except.ok.inj (hn.symm.trans hn')

/-- A case is expected to have an answer or not, unless the file of the answer is at fault. -/
theorem exists_expects_iff :
    (∃ expected, d.Expects file expected)
      ↔ ¬ (d.TooLong (answerFile file)
        ∨ (d.entries.lookup (answerFile file) ≠ none
          ∧ ∀ n, ¬ d.HoldsInteger (answerFile file) n)) := by
  constructor
  · rintro ⟨expected, hexpects⟩ (hlong | ⟨hsome, hnone⟩)
    · exact hexpects.short hlong
    · cases expected with
      | none => exact hsome hexpects.2
      | some n => exact hnone n hexpects
  · intro h
    obtain ⟨hshort, hreadable⟩ := not_or.mp h
    by_cases hnone : d.entries.lookup (answerFile file) = none
    · exact ⟨none, hshort, hnone⟩
    · by_contra hno
      exact hreadable ⟨hnone, fun n hn => hno ⟨some n, hn⟩⟩

/-- Where the file of the answer holds an integer, that is expected. -/
theorem Expects.eq_some {expected : Option Int} (h : d.Expects file expected) {n : Int}
    (hn : d.HoldsInteger (answerFile file) n) : expected = some n := by
  cases expected with
  | none =>
      obtain ⟨bytes, hfile⟩ := hn.exists_file
      exact nomatch h.2.symm.trans hfile
  | some m =>
      have hm : d.HoldsInteger (answerFile file) m := h
      rw [hm.unique hn]

/-- A case that can be judged has the verdict that its answer deserves. -/
theorem deserves_of_ofAnswer {r : CaseRecord} (hrecord : r.name = caseName file) {c : Case}
    (hc : d.HoldsCase file c) {k : Nat} (hk : IsGreatest {j | c.grid.FitsMode c.mode j} k)
    {expected : Option Int} (hexpects : d.Expects file expected)
    (hverdict : r.verdict = .ofAnswer k expected) : d.Deserves file r where
  name := hrecord
  error := by
    refine iff_of_false ?_ (not_or.mpr ⟨fun hnone => hnone c hc, ?_⟩)
    · rw [hverdict]
      rintro ⟨reason, heq⟩
      rcases Verdict.ofAnswer_eq_or k expected with hpass | ⟨_, _, hwrong⟩
      · exact nomatch hpass.symm.trans heq
      · exact nomatch hwrong.symm.trans heq
    · exact exists_expects_iff.mp ⟨expected, hexpects⟩
  pass := by
    rw [hverdict, Verdict.ofAnswer_eq_pass_iff]
    constructor
    · intro hequal
      refine ⟨c, hc, hexpects.short, ?_⟩
      cases expected with
      | none => exact Or.inl hexpects.2
      | some n =>
          obtain rfl := hequal n rfl
          exact Or.inr ⟨k, hexpects, hk⟩
    · rintro ⟨c', hc', -, hnone | ⟨k', hn', hk'⟩⟩ n rfl
      · obtain ⟨bytes, hfile⟩ := HoldsInteger.exists_file hexpects
        exact nomatch hnone.symm.trans hfile
      · obtain rfl := hc.unique hc'
        rw [Option.some.inj (hexpects.eq_some hn'), hk'.unique hk]
  fail := by
    rw [hverdict, Verdict.ofAnswer_eq_wrongAnswer_iff]
    constructor
    · rintro ⟨n, rfl, hne⟩
      exact ⟨c, k, n, hc, hk, hexpects, hne⟩
    · rintro ⟨c', k', n, hc', hk', hn, hne⟩
      obtain rfl := hc.unique hc'
      rw [hk'.unique hk] at hne
      exact ⟨n, hexpects.eq_some hn, hne⟩
  stable := by
    rw [hverdict]
    rcases Verdict.ofAnswer_eq_or k expected with hpass | ⟨_, _, hwrong⟩
    · rw [hpass]
      exact ⟨nofun, nofun, nofun⟩
    · rw [hwrong]
      exact ⟨nofun, nofun, nofun⟩

/-- A case that cannot be judged is in error. -/
theorem deserves_of_error {r : CaseRecord} (hrecord : r.name = caseName file)
    (hfault : ∀ c expected, ¬ (d.HoldsCase file c ∧ d.Expects file expected))
    {reason : String} (hverdict : r.verdict = .error reason) : d.Deserves file r where
  name := hrecord
  error := by
    refine iff_of_true ⟨reason, hverdict⟩ ?_
    by_contra hready
    obtain ⟨hcase, hexpects⟩ := not_or.mp hready
    obtain ⟨c, hc⟩ := not_forall_not.mp hcase
    obtain ⟨expected, hexpects⟩ := exists_expects_iff.mpr hexpects
    exact hfault c expected ⟨hc, hexpects⟩
  pass := by
    rw [hverdict]
    refine iff_of_false nofun ?_
    rintro ⟨c, hc, hshort, hnone | ⟨k, hn, -⟩⟩
    · exact hfault c none ⟨hc, hshort, hnone⟩
    · exact hfault c (some k) ⟨hc, hn⟩
  fail := by
    rw [hverdict]
    refine iff_of_false nofun ?_
    rintro ⟨c, k, n, hc, -, hn, -⟩
    exact hfault c (some n) ⟨hc, hn⟩
  stable := by
    rw [hverdict]
    exact ⟨nofun, nofun, nofun⟩

/-! ## The record of a case file -/

/-- **A case file leaves the record that it deserves**, and the verdict is the same with the
symmetry check and without it. -/
theorem judgeFile_deserves (h : d.IsIn t) (hname : FileTree.EntryName file)
    (machine : Fingerprint) :
    ∃ verdict, ∀ check, ∃ r,
      t.judgeFile d.path file (.solver check machine) = (r, .solver check machine)
        ∧ r.verdict = verdict ∧ d.Deserves file r := by
  cases htask : t.loadTask d.path file with
  | error fault =>
      refine ⟨.error fault.message, fun check => ?_⟩
      have hjudge : t.judgeFile d.path file (.solver check machine)
          = (.unread (caseName file) fault.message, .solver check machine) := by
        rw [FileTree.judgeFile, htask]
      refine ⟨_, hjudge, rfl, deserves_of_error rfl (fun c expected hready => ?_) rfl⟩
      have hloaded := (loadTask_eq_ok_iff h hname).mpr hready
      rw [htask] at hloaded
      cases hloaded
  | ok task =>
      obtain ⟨c, expected⟩ := task
      obtain ⟨hc, hexpects⟩ := (loadTask_eq_ok_iff h hname).mp htask
      obtain ⟨k, hk, htwice⟩ := exists_twice c machine
      refine ⟨.ofAnswer k expected, fun check => ?_⟩
      obtain ⟨runs, hruns, hverdict⟩ := htwice check
      have hjudge : t.judgeFile d.path file (.solver check machine)
          = (.judged (caseName file) c.grid.side expected runs, .solver check machine) := by
        rw [FileTree.judgeFile, htask]
        dsimp only
        rw [hruns]
      have hrecorded : (CaseRecord.judged (caseName file) c.grid.side expected runs).verdict
          = .ofAnswer k expected := by
        show (runs.verdict expected).recorded .standard = _
        rw [hverdict expected]
        exact Verdict.recorded_ofAnswer
          (DigitLimit.standard.allows_of_lt (c.grid.lt_of_fits hk.1))
          (fun n => FileTree.allows_of_loadTask htask)
      exact ⟨_, hjudge, hrecorded, deserves_of_ofAnswer rfl hc hk hexpects hrecorded⟩

/-- Directories that agree on a case and its answer leave the same record of it. -/
theorem judgeFile_congr {d' : Directory} {t' : FileTree} (h : d.IsIn t) (h' : d'.IsIn t')
    (hname : FileTree.EntryName file) (hcase : Agrees d d' file)
    (hanswer : Agrees d d' (answerFile file)) (runner : Runner) :
    t'.judgeFile d.path file runner = t.judgeFile d.path file runner := by
  rw [FileTree.judgeFile, FileTree.judgeFile, loadTask_congr h h' hname hcase hanswer]

/-! ## The records of a directory -/

/-- The solver needs no more runs for a case than for another one. -/
theorem judgeFile_snd (t : FileTree) (directory file : String) (check : Bool)
    (machine : Fingerprint) :
    (t.judgeFile directory file (.solver check machine)).2 = .solver check machine := by
  rw [FileTree.judgeFile]
  cases t.loadTask directory file <;> rfl

/-- A batch that goes on has the record of each file, whatever the files before it left. -/
theorem judgeFiles_eq_map (t : FileTree) (directory : String) (check : Bool)
    (machine : Fingerprint) (files : List String) :
    t.judgeFiles directory false files (.solver check machine)
      = files.map fun file => (t.judgeFile directory file (.solver check machine)).1 := by
  induction files with
  | nil => rfl
  | cons file rest ih =>
      rw [FileTree.judgeFiles_cons, judgeFile_snd, Bool.false_and, if_neg Bool.false_ne_true, ih,
        List.map_cons]

/-- **The case files of a directory** are judged in some order, each by itself. -/
theorem exists_judgeAll (h : d.IsIn t) (machine : Fingerprint) :
    ∃ files : List String, files.Perm ((d.entries.map Prod.fst).filter isCaseFile)
      ∧ ∀ check, ∃ b, t.judgeAll d.path false (.solver check machine) = .ok b
          ∧ b.records
            = files.map fun file => (t.judgeFile d.path file (.solver check machine)).1 := by
  obtain ⟨files, hfiles, hperm⟩ := exists_caseFiles h
  refine ⟨files, hperm, fun check => ?_⟩
  rw [FileTree.judgeAll, hfiles]
  exact ⟨_, rfl, judgeFiles_eq_map t d.path check machine files⟩

/-- Alone with its answer, a case leaves the same record. -/
theorem judgeAll_alone {t' : FileTree} (h : d.IsIn t) (h' : (d.alone file).IsIn t')
    (hfile : file ∈ (d.entries.map Prod.fst).filter isCaseFile)
    (hname : FileTree.EntryName file) (check : Bool) (machine : Fingerprint) :
    t'.judgeAll d.path false (.solver check machine)
      = .ok ⟨1, false, [(t.judgeFile d.path file (.solver check machine)).1]⟩ := by
  have hcase : Agrees d (d.alone file) file :=
    agrees_alone d (by rw [isOf, beq_self_eq_true, Bool.true_or])
  have hanswer : Agrees d (d.alone file) (answerFile file) :=
    agrees_alone d (by rw [isOf, beq_self_eq_true, Bool.or_true])
  have hrecords := judgeFiles_eq_map t' d.path check machine [file]
  rw [List.map_singleton, judgeFile_congr h h' hname hcase hanswer] at hrecords
  rw [FileTree.judgeAll, caseFiles_alone h' hfile, ← hrecords]
  rfl

/-! ## Printed answers -/

/-- Bytes that the command for one case prints, given the text of a case file. -/
def Prints (d : Directory) (file : String) (bytes : List UInt8) : Prop :=
  ∃ (s : Session) (line : List String) (words : CommandWords) (text : List Char) (output : String),
    Session.answerForm.parse line = .run words ∧ s.caseText words.path = .ok text
      ∧ d.HoldsText file text ∧ (s.answer line).ending = .done 0
      ∧ (s.answer line).output = CodeText.ofString output ∧ bytes = textBytes output

/-- The line of an answer is read as that answer. -/
theorem holdsInteger_answerLine {k : Nat} (hk : k < 10 ^ Numeral.digitLimit)
    (hfile : d.entries.lookup file = some (.file (textBytes (answerLine k))))
    (hshort : ¬ d.TooLong file) : d.HoldsInteger file k := by
  have hdigits : Json.decimal k = Nat.toDigits 10 k := by
    rw [Json.decimal, if_neg (Int.not_lt.mpr (Int.natCast_nonneg k)), Int.natAbs_natCast]
  have hlined : Lined (Json.decimal k ++ ['\n']) := .of_printable (Json.printable_decimal k)
  have hblank : ∀ c ∈ Json.decimal k, Text.isBlank c = false := by
    intro c hc
    refine Text.isBlank_eq_false (Json.printable_decimal k c hc) ?_
    rw [hdigits] at hc
    exact ne_of_isDigit (isDigit_of_mem_toDigits hc) rfl
  have hbytes : textBytes (answerLine k) = (Json.decimal k ++ ['\n']).map Char.toUInt8 := by
    rw [← textBytes_ofList hlined.ascii, ← toList_answerLine, String.ofList_toList]
  rw [hbytes] at hfile
  refine ⟨_, Json.decimal k, ⟨hshort, _, _, hfile, Utf8.decode_ascii hlined.ascii, rfl⟩, ?_,
    Numeral.read_decimal hk⟩
  rw [hlined.unifyNewlines_eq]
  refine Text.words_line hblank ?_
  rw [hdigits]
  exact Nat.toDigits_ne_nil

/-- **What is printed for a case is what is expected of it.** -/
theorem holdsInteger_of_prints {bytes : List UInt8} (h : d.Prints file bytes)
    (hfile : d.entries.lookup (answerFile file) = some (.file bytes))
    (hshort : ¬ d.TooLong (answerFile file)) :
    ∃ (c : Case) (k : Nat), d.HoldsCase file c ∧ IsGreatest {j | c.grid.FitsMode c.mode j} k
      ∧ d.HoldsInteger (answerFile file) k := by
  obtain ⟨s, line, words, text, output, hline, htext, hholds, hdone, houtput, rfl⟩ := h
  rw [Session.answer_of_text hline htext] at hdone houtput
  cases hparse : Case.parse text with
  | error fault =>
      rw [Session.answerText_of_fault words hparse] at hdone
      exact nomatch hdone
  | ok c =>
      obtain ⟨solution, check, -, hgreatest, hanswered⟩ := s.answerText_of_case words hparse
      refine ⟨c, solution.answer, ⟨text, hholds, hparse⟩, hgreatest, ?_⟩
      rw [hanswered, Session.output_answered] at houtput
      rw [← CodeText.ofString_injective houtput] at hfile
      have hlimit := Numeral.lt_digitLimit (c.grid.lt_of_fits hgreatest.1)
      exact holdsInteger_answerLine hlimit hfile hshort

/-- The answer that the command prints makes a case pass. -/
theorem Deserves.pass_of_prints {r : CaseRecord} (h : d.Deserves file r) {bytes : List UInt8}
    (hprints : d.Prints file bytes)
    (hfile : d.entries.lookup (answerFile file) = some (.file bytes))
    (hshort : ¬ d.TooLong (answerFile file)) : r.verdict = .pass := by
  obtain ⟨c, k, hc, hk, hn⟩ := holdsInteger_of_prints hprints hfile hshort
  exact h.pass.mpr ⟨c, hc, hshort, Or.inr ⟨k, hn, hk⟩⟩

end Directory

namespace Session

/-- A batch that is judged ends with its results saved, wherever anything can be saved, if its
records can be written. -/
theorem exists_judgeDirectory {s : Session} {runner : Runner} {failFast : Bool}
    {directory path : String} {b : Batch}
    (hjudge : s.tree.judgeAll (PathText.tidy directory) failFast runner = .ok b)
    (hwritten : b.isWritten = true)
    (hwritable : ∃ other t', s.tree.saveTidy (PathText.tidy path) other = .ok t') :
    ∃ output tree, s.judgeDirectory runner failFast directory path
        = ⟨.done b.exitCode, output, "", tree⟩
      ∧ s.tree.saveTidy (PathText.tidy path) b.results = .ok tree := by
  obtain ⟨other, t', hother⟩ := hwritable
  obtain ⟨tree, hsave⟩ := FileTree.exists_saveTidy hother b.results
  unfold judgeDirectory
  dsimp only
  rw [FileTree.runBatch_of_isWritten hjudge hwritten hsave]
  exact ⟨_, tree, rfl, hsave⟩

/-- **The records of a batch.** Every case file of a directory leaves one record, and the batch
ends with them saved, whatever the files hold. It is the record that the case file deserves, the
same if the case and its answer are alone, and it passes if the answer is what the command for
one case prints. With the symmetry check and without it the verdicts are the same. -/
theorem batch_records_exact (s : Session) (directory path : String) (d : Directory)
    (hpath : d.path = PathText.tidy directory) (hdirectory : d.IsIn s.tree)
    (hwritable : ∃ other t', s.tree.saveTidy (PathText.tidy path) other = .ok t')
    (check : Bool) :
    ∃ (files : List String) (b : Batch) (output : CodeText) (tree : FileTree),
      files.Perm ((d.entries.map Prod.fst).filter isCaseFile)
      ∧ s.tree.judgeAll d.path false (s.solver check) = .ok b
      ∧ List.Forall₂ (fun file r => d.Deserves file r
          ∧ (∀ t', (d.alone file).IsIn t' →
              t'.judgeAll d.path false (s.solver check) = .ok ⟨1, false, [r]⟩)
          ∧ ∀ bytes, d.Prints file bytes →
              d.entries.lookup (answerFile file) = some (.file bytes) →
              ¬ d.TooLong (answerFile file) → r.verdict = .pass) files b.records
      ∧ (∃ b', s.tree.judgeAll d.path false (s.solver !check) = .ok b'
          ∧ b'.records.map CaseRecord.verdict = b.records.map CaseRecord.verdict)
      ∧ s.judgeDirectory (s.solver check) false directory path
          = ⟨.done b.exitCode, output, "", tree⟩
      ∧ s.tree.saveTidy (PathText.tidy path) b.results = .ok tree := by
  obtain ⟨files, hperm, hjudge⟩ := Directory.exists_judgeAll hdirectory s.machine
  have hmem {file : String} (hfile : file ∈ files) :
      file ∈ (d.entries.map Prod.fst).filter isCaseFile ∧ FileTree.EntryName file := by
    have hcase := hperm.mem_iff.mp hfile
    obtain ⟨e, he, rfl⟩ := List.mem_map.mp (List.mem_filter.mp hcase).1
    exact ⟨hcase, d.named e he⟩
  obtain ⟨b, hb, hrecords⟩ := hjudge check
  obtain ⟨b', hb', hrecords'⟩ := hjudge !check
  have hjudged : s.tree.judgeAll (PathText.tidy directory) false (s.solver check) = .ok b := by
    rw [← hpath]
    exact hb
  have hwritten : b.isWritten = true :=
    FileTree.isWritten_of_judgeAll (Runner.solver_gives_printable check s.machine) hjudged
  obtain ⟨output, tree, hdone, hsave⟩ := exists_judgeDirectory hjudged hwritten hwritable
  refine ⟨files, b, output, tree, hperm, hb, ?_, ⟨b', hb', ?_⟩, hdone, hsave⟩
  · rw [hrecords, List.forall₂_map_right_iff, List.forall₂_same]
    intro file hfile
    obtain ⟨hcase, hname⟩ := hmem hfile
    obtain ⟨verdict, hrecord⟩ := Directory.judgeFile_deserves hdirectory hname s.machine
    obtain ⟨r, hr, -, hdeserves⟩ := hrecord check
    rw [hr]
    refine ⟨hdeserves, fun t' halone => ?_, fun bytes => hdeserves.pass_of_prints⟩
    have hsame := Directory.judgeAll_alone hdirectory halone hcase hname check s.machine
    rw [hr] at hsame
    exact hsame
  · rw [hrecords, hrecords', List.map_map, List.map_map, List.map_inj_left]
    intro file hfile
    obtain ⟨verdict, hrecord⟩ :=
      Directory.judgeFile_deserves hdirectory (hmem hfile).2 s.machine
    obtain ⟨r, hr, hverdict, -⟩ := hrecord check
    obtain ⟨r', hr', hverdict', -⟩ := hrecord !check
    rw [Function.comp_apply, Function.comp_apply, hr, hr', hverdict, hverdict']

/-- A directory with one file, which asks for the longest segment in one open cell. -/
def holdingCase (file : String) (h : FileTree.EntryName file) : Directory :=
  ⟨"c", [(file, .file [49, 32, 49, 10, 46, 10])], List.nodup_singleton file,
    List.forall_mem_singleton.mpr h⟩

/-- The file that holds the case is read as one, if its path is short enough. -/
theorem exists_holdsCase {file : String} {hname : FileTree.EntryName file}
    (hshort : ¬ (holdingCase file hname).TooLong file) :
    ∃ c, (holdingCase file hname).HoldsCase file c := by
  have hchars : Utf8.decode [49, 32, 49, 10, 46, 10] = .ok ['1', ' ', '1', '\n', '.', '\n'] := by
    decide
  have hparse : (Case.parse ['1', ' ', '1', '\n', '.', '\n']).isOk = true := by decide +kernel
  obtain ⟨c, hc⟩ := exists_of_isOk hparse
  exact ⟨c, _, ⟨hshort, _, _, List.lookup_cons_self, hchars, rfl⟩, hc⟩

/-- There is no answer beside the case. -/
theorem lookup_answer_holdingCase {file : String} {hname : FileTree.EntryName file}
    (hcase : isCaseFile file = true) :
    (holdingCase file hname).entries.lookup (answerFile file) = none := by
  have hne : answerFile file ≠ file := by
    intro heq
    rw [← heq, isCaseFile_answerFile] at hcase
    exact Bool.false_ne_true hcase
  show List.lookup (answerFile file) [(file, _)] = none
  rw [List.lookup_cons, beq_eq_false_iff_ne.mpr hne]
  rfl

/-- A session with a directory and nothing beside it. -/
def above (d : Directory) : Session :=
  ⟨.directory [(d.path, .directory d.entries)], [], none, ⟨[]⟩⟩

theorem isIn_above {d : Directory} (hpath : d.path = "c") : d.IsIn (above d).tree := by
  refine d.isIn_single ?_ ?_
  · rw [hpath]
    decide
  · rw [hpath]
    decide

def plainCase : Directory :=
  holdingCase "a.in" (by decide)

/-- A directory with one case, solved: its record is the one that the case deserves. -/
theorem batch_records_plainCase :
    plainCase.path = PathText.tidy "c" ∧ plainCase.IsIn (above plainCase).tree
      ∧ (∃ other t', (above plainCase).tree.saveTidy (PathText.tidy "o") other = .ok t')
      ∧ ∃ b, (above plainCase).tree.judgeAll "c" false ((above plainCase).solver true) = .ok b
        ∧ ∃ r, b.records = [r] ∧ plainCase.Deserves "a.in" r := by
  have hpath : plainCase.path = PathText.tidy "c" := by decide +kernel
  have hdirectory : plainCase.IsIn (above plainCase).tree := isIn_above rfl
  have hsave : ((above plainCase).tree.saveTidy (PathText.tidy "o") "").isOk = true := by
    decide +kernel
  have hwritable :
      ∃ other t', (above plainCase).tree.saveTidy (PathText.tidy "o") other = .ok t' :=
    ⟨"", exists_of_isOk hsave⟩
  obtain ⟨files, b, output, tree, hperm, hb, hrecords, -⟩ :=
    batch_records_exact (above plainCase) "c" "o" plainCase hpath hdirectory hwritable true
  refine ⟨hpath, hdirectory, hwritable, b, hb, ?_⟩
  have hcases : (plainCase.entries.map Prod.fst).filter isCaseFile = ["a.in"] := by
    decide +kernel
  rw [hcases, List.perm_singleton] at hperm
  rw [hperm] at hrecords
  obtain ⟨r, rest, ⟨hdeserves, -⟩, hrest, hb⟩ := List.forall₂_cons_left_iff.mp hrecords
  rw [List.forall₂_nil_left_iff.mp hrest] at hb
  exact ⟨r, hb, hdeserves⟩

/-- The name of a case file with as many bytes as a name may have. -/
def longName : String :=
  String.ofList (List.replicate 252 'a' ++ caseSuffix)

/-- A letter that is repeated makes a text as long as it is often. -/
theorem utf8ByteSize_long {suffix : List Char} (h : Ascii suffix) :
    (String.ofList (List.replicate 252 'a' ++ suffix)).utf8ByteSize = 252 + suffix.length := by
  have hascii : Ascii (List.replicate 252 'a' ++ suffix) := by
    intro c hc
    rcases List.mem_append.mp hc with hletter | hsuffix
    · rw [List.eq_of_mem_replicate hletter]
      decide
    · exact h c hsuffix
  rw [utf8ByteSize_ofList hascii, List.length_append, List.length_replicate]

theorem entryName_longName : FileTree.EntryName longName := by
  have hnot {c : Char} (hc : c ∉ 'a' :: caseSuffix) : c ∉ longName.toList := by
    rw [longName, String.toList_ofList, List.mem_append]
    rintro (hletter | hsuffix)
    · exact hc (List.mem_cons.mpr (Or.inl (List.eq_of_mem_replicate hletter)))
    · exact hc (List.mem_cons_of_mem _ hsuffix)
  refine entryName_of_length (hnot (by decide)) (hnot (by decide)) ?_
  rw [longName, String.toList_ofList, List.length_append, List.length_replicate]
  decide

def longCase : Directory :=
  holdingCase longName entryName_longName

/-- A case without an answer is in error if its name is so long that the name of the answer cannot
be looked up. -/
theorem batch_records_longCase :
    longCase.IsIn (above longCase).tree ∧ (∃ c, longCase.HoldsCase longName c)
      ∧ longCase.entries.lookup (answerFile longName) = none
      ∧ ∃ b, (above longCase).tree.judgeAll "c" false ((above longCase).solver false) = .ok b
        ∧ ∃ r, b.records = [r] ∧ ∃ reason, r.verdict = .error reason := by
  have hdirectory : longCase.IsIn (above longCase).tree := isIn_above rfl
  have hsize : longName.utf8ByteSize = 255 :=
    utf8ByteSize_long (by decide)
  have hanswerSize : (answerFile longName).utf8ByteSize = 256 := by
    have hstem : List.replicate 252 'a' ≠ [] := List.cons_ne_nil _ _
    rw [longName, answerFile_ofList _ hstem]
    exact utf8ByteSize_long (by decide)
  have hshort : ¬ longCase.TooLong longName := by
    have hchild : longCase.child longName = "c" ++ "/" ++ longName := rfl
    rw [Directory.TooLong, hchild, String.utf8ByteSize_append, hsize]
    decide
  have hlong : longCase.TooLong (answerFile longName) := by
    refine Or.inr ?_
    rw [hanswerSize]
    decide
  have hcase : ∃ c, longCase.HoldsCase longName c := exists_holdsCase hshort
  have hcases : isCaseFile longName = true := isCaseFile_ofList _
  have hanswer : longCase.entries.lookup (answerFile longName) = none :=
    lookup_answer_holdingCase hcases
  obtain ⟨files, hperm, hjudge⟩ := Directory.exists_judgeAll hdirectory ⟨[]⟩
  obtain ⟨b, hb, hrecords⟩ := hjudge false
  have hfiles : (longCase.entries.map Prod.fst).filter isCaseFile = [longName] := by
    show [longName].filter isCaseFile = _
    rw [List.filter_cons, if_pos hcases, List.filter_nil]
  rw [hfiles, List.perm_singleton] at hperm
  rw [hperm, List.map_singleton] at hrecords
  obtain ⟨verdict, hrecord⟩ :=
    Directory.judgeFile_deserves hdirectory entryName_longName ⟨[]⟩
  obtain ⟨r, hr, -, hdeserves⟩ := hrecord false
  rw [hr] at hrecords
  exact ⟨hdirectory, hcase, hanswer, b, hb, r, hrecords,
    hdeserves.error.mpr (Or.inr (Or.inl hlong))⟩

end Session

end SegmentFit
