import SegmentFit.Command.Answer
import SegmentFit.Proofs.FileTrees
import SegmentFit.Proofs.Numerals
import SegmentFit.Proofs.Solve

/-!
# The command for one case — what it prints for every content

A command is given the bytes of a file or the text of its input (`Session.Given`). A text that
is a case is answered; one that is no case is reported as an error, and nothing else is left
behind. Bytes that are not UTF-8 never become a text, and the command breaks off there.
-/

namespace SegmentFit

/-- The line of an answer is its decimal numeral. -/
theorem toList_answerLine (k : Int) : (answerLine k).toList = Json.decimal k ++ ['\n'] := by
  rw [← toList_toString]
  exact String.toList_append

namespace Session

variable {s : Session} {line : List String} {words : CommandWords} {text : List Char}

/-! ## What is read -/

/-- What a command for one case is given to read: the bytes of the file at its path, or else its
input, which is a text already. -/
inductive Given (s : Session) (path : Option String) : Except Utf8Fault (List Char) → Prop where
  | file {name : String} {bytes : List UInt8} : path = some name → name ≠ "" →
      s.tree.read name = .ok bytes → Given s path ((Utf8.decode bytes).map Text.unifyNewlines)
  | input : path = none ∨ path = some "" → Given s path (.ok s.input)

theorem Given.caseText_eq {path : Option String} {content : Except Utf8Fault (List Char)}
    (h : s.Given path content) : s.caseText path = content.mapError .encoding := by
  cases h with
  | @file name bytes hpath hname hread =>
      have hgiven : path.filter (fun path => path != "") = some name := by
        rw [hpath, Option.filter_some, if_pos (bne_iff_ne.mpr hname)]
      rw [caseText, hgiven]
      dsimp only
      rw [FileTree.readText, hread]
      show ((Utf8.decode bytes).mapError LoadFault.encoding >>= fun text =>
        pure (Text.unifyNewlines text)) = _
      cases Utf8.decode bytes <;> rfl
  | input hpath =>
      have hnone : path.filter (fun path => path != "") = none := by
        rcases hpath with rfl | rfl <;> rfl
      rw [caseText, hnone]
      rfl

/-! ## What is left behind -/

theorem answer_of_text (hline : answerForm.parse line = .run words)
    (htext : s.caseText words.path = .ok text) : s.answer line = s.answerText words text := by
  rw [answer, hline]
  dsimp only
  rw [htext]

theorem answer_of_fault (hline : answerForm.parse line = .run words) {fault : LoadFault}
    (hfault : s.caseText words.path = .error fault) :
    s.answer line = s.leaves (.broken (.load fault)) "" "" := by
  rw [answer, hline]
  dsimp only
  rw [hfault]

theorem answerText_of_fault (words : CommandWords) {fault : CaseFault}
    (hparse : Case.parse text = .error fault) :
    s.answerText words text = s.leaves (.done 1) "" ("Error: " ++ fault.message ++ "\n") := by
  rw [answerText, hparse]

/-- A case is solved, and its answer goes out before its receipt is written. -/
theorem answerText_of_case (words : CommandWords) {c : Case} (hparse : Case.parse text = .ok c) :
    ∃ solution check, c.solve check = .ok solution
      ∧ IsGreatest {j | c.grid.FitsMode c.mode j} solution.answer
      ∧ s.answerText words text = s.answered solution (words.value? "receipts") := by
  obtain ⟨sections, -, hgreatest, hsolve⟩ := c.exists_solution
  refine ⟨_, checkEnabled (if words.has "self-check" then some true else none) s.checkSetting,
    hsolve _, hgreatest, ?_⟩
  rw [answerText, hparse]
  dsimp only
  rw [hsolve]

/-- The answer goes out whether or not its receipt can be written. -/
theorem output_answered (s : Session) (solution : Solution) (receipts : Option String) :
    (s.answered solution receipts).output = answerLine solution.answer := by
  cases receipts with
  | none => rfl
  | some path =>
      rw [answered]
      split <;> rfl

/-- The receipt of an answer, written where the line asks for it. -/
structure Keeps (s : Session) (words : CommandWords) (c : Case) (tree : FileTree) : Prop where
  nowhere : words.value? "receipts" = none → tree = s.tree
  receipt : ∀ path, words.value? "receipts" = some path → ∃ solution check,
    c.solve check = .ok solution ∧ s.tree.saveRecords path [solution.receipt s.machine] = .ok tree

/-- The answer is out with exit code `0`, if the receipt can be written. -/
theorem answerText_done (words : CommandWords) {c : Case} (hparse : Case.parse text = .ok c)
    (hwritable : ∀ path, words.value? "receipts" = some path →
      ∃ other t', s.tree.save path other = .ok t') :
    ∃ (k : Nat) (tree : FileTree), IsGreatest {j | c.grid.FitsMode c.mode j} k
      ∧ s.answerText words text = ⟨.done 0, answerLine k, "", tree⟩ ∧ s.Keeps words c tree := by
  obtain ⟨solution, check, hsolve, hgreatest, hanswered⟩ := s.answerText_of_case words hparse
  rw [hanswered]
  cases hreceipts : words.value? "receipts" with
  | none =>
      refine ⟨_, s.tree, hgreatest, rfl, fun _ => rfl, fun path hpath => ?_⟩
      exact nomatch hreceipts.symm.trans hpath
  | some path =>
      obtain ⟨other, t', hother⟩ := hwritable path hreceipts
      obtain ⟨tree, htree⟩ :=
        FileTree.exists_save hother (recordLines Json.compact [solution.receipt s.machine])
      have hsave : s.tree.saveRecords path [solution.receipt s.machine] = .ok tree := htree
      refine ⟨_, tree, hgreatest, ?_, fun hnone => ?_, fun path' hpath' => ?_⟩
      · rw [answered, hsave]
      · exact nomatch hreceipts.symm.trans hnone
      · obtain rfl := Option.some.inj (hreceipts.symm.trans hpath')
        exact ⟨solution, check, hsolve, hsave⟩

/-- **The answer to one case.** A text that is a case is answered with exit code `0`: the line of
its answer and nothing else is printed. A text that is no case ends with exit code `1` and an
error, and bytes that are not UTF-8 break the command off; then nothing is printed as output, and
no file is touched. -/
theorem answer_exact (s : Session) (line : List String) (words : CommandWords)
    (hline : answerForm.parse line = .run words) (content : Except Utf8Fault (List Char))
    (hgiven : s.Given words.path content)
    (hwritable : ∀ path, words.value? "receipts" = some path →
      ∃ other t', s.tree.save path other = .ok t') :
    (∀ text c, content = .ok text → Case.parse text = .ok c →
        ∃ (k : Nat) (tree : FileTree), IsGreatest {j | c.grid.FitsMode c.mode j} k
          ∧ s.answer line = ⟨.done 0, answerLine k, "", tree⟩ ∧ s.Keeps words c tree)
      ∧ (∀ text fault, content = .ok text → Case.parse text = .error fault →
          s.answer line = s.leaves (.done 1) "" ("Error: " ++ fault.message ++ "\n"))
      ∧ ∀ fault, content = .error fault →
          s.answer line = s.leaves (.broken (.load (.encoding fault))) "" "" := by
  have hcontent := hgiven.caseText_eq
  refine ⟨?_, ?_, ?_⟩
  · rintro text c rfl hparse
    rw [answer_of_text hline hcontent]
    exact answerText_done words hparse hwritable
  · rintro text fault rfl hparse
    rw [answer_of_text hline hcontent]
    exact answerText_of_fault words hparse
  · rintro fault rfl
    exact answer_of_fault hline hcontent

/-- A session with one file, of some bytes. -/
def holding (name : String) (bytes : List UInt8) : Session :=
  ⟨.directory [(name, .file bytes)], [], none, ⟨[]⟩⟩

/-- A case of one open cell, with a receipt. -/
theorem answer_exact_oneCell :
    let s := holding "a.in" [49, 32, 50, 10, 46, 10]
    let line := ["a.in", "--receipts", "r"]
    ∃ words, answerForm.parse line = .run words
      ∧ s.Given words.path (.ok ['1', ' ', '2', '\n', '.', '\n'])
      ∧ (∀ path, words.value? "receipts" = some path →
          ∃ other t', s.tree.save path other = .ok t')
      ∧ ∃ (k : Nat) (tree : FileTree), s.answer line = ⟨.done 0, answerLine k, "", tree⟩ := by
  intro s line
  let words : CommandWords := ⟨[], [("receipts", some "r")], some "a.in"⟩
  have hline : answerForm.parse line = .run words := by decide +kernel
  have hgiven : s.Given words.path (.ok ['1', ' ', '2', '\n', '.', '\n']) := by
    have hread : s.tree.read "a.in" = .ok [49, 32, 50, 10, 46, 10] := by decide +kernel
    exact .file rfl (by decide) hread
  have hwritable (path : String) (hpath : words.value? "receipts" = some path) :
      ∃ other t', s.tree.save path other = .ok t' := by
    have hvalue : words.value? "receipts" = some "r" := by decide
    obtain rfl := Option.some.inj (hvalue.symm.trans hpath)
    have hsave : (s.tree.save "r" "").isOk = true := by decide +kernel
    exact ⟨"", exists_of_isOk hsave⟩
  have hcase : (Case.parse ['1', ' ', '2', '\n', '.', '\n']).isOk = true := by decide +kernel
  obtain ⟨c, hc⟩ := exists_of_isOk hcase
  obtain ⟨hanswered, -⟩ := answer_exact s line words hline _ hgiven hwritable
  obtain ⟨k, tree, -, hanswer, -⟩ := hanswered _ c rfl hc
  exact ⟨words, hline, hgiven, hwritable, k, tree, hanswer⟩

/-- A byte that is not UTF-8 ends a command without an exit code and without an error. -/
theorem answer_undecodable :
    let s := holding "a.in" [0xff]
    s.tree.read "a.in" = .ok [0xff]
      ∧ (∀ code, (s.answer ["a.in"]).ending ≠ .done code)
      ∧ (s.answer ["a.in"]).errors = "" := by
  intro s
  have hline : answerForm.parse ["a.in"] = .run ⟨[], [], some "a.in"⟩ := by decide +kernel
  have hread : s.tree.read "a.in" = .ok [0xff] := by decide +kernel
  have hgiven : s.Given (some "a.in") ((Utf8.decode [0xff]).map Text.unifyNewlines) :=
    .file rfl (by decide) hread
  have htext : (s.caseText (some "a.in")).isOk = false := by
    rw [hgiven.caseText_eq]
    decide
  cases hfault : s.caseText (some "a.in") with
  | ok text =>
      rw [hfault] at htext
      exact nomatch htext
  | error fault =>
      rw [answer_of_fault hline hfault]
      exact ⟨hread, fun code => nofun, rfl⟩

end Session

end SegmentFit
