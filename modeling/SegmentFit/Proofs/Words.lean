import SegmentFit.Proofs.TextFiles

/-!
# Words — the one way to read a text as words

A text lays out words (`LaysOut`) if each of them stands by itself: at least one blank between
any two, and any number of blanks before the first and behind the last. Every text lays out the
words that are read from it, and no others (`words_eq_iff`). So how a text is read depends on
neither the kind nor the number of its blanks.
-/

namespace SegmentFit.Text

/-- A word: some characters, none of them blank. -/
structure IsWord (word : List Char) : Prop where
  ne_nil : word ≠ []
  solid : ∀ c ∈ word, isBlank c = false

/-- A word may end before this text: nothing follows, or a blank. -/
def EndsWord (rest : List Char) : Prop :=
  ∀ c, rest.head? = some c → isBlank c = true

/-- A text in which these words stand, one by one, with blanks around them. -/
inductive LaysOut : List Char → List (List Char) → Prop where
  | blank {gap : List Char} (hgap : allBlank gap = true) : LaysOut gap []
  | word {gap word rest : List Char} {words : List (List Char)} (hgap : allBlank gap = true)
      (hword : IsWord word) (hends : EndsWord rest) (hrest : LaysOut rest words) :
      LaysOut (gap ++ (word ++ rest)) (word :: words)

theorem allBlank_nil : allBlank [] = true :=
  rfl

theorem endsWord_nil : EndsWord [] :=
  nofun

theorem endsWord_cons {c : Char} (hc : isBlank c = true) (rest : List Char) :
    EndsWord (c :: rest) := by
  intro d hd
  rw [← Option.some.inj hd]
  exact hc

theorem allBlank_cons {c : Char} (hc : isBlank c = true) {gap : List Char}
    (hgap : allBlank gap = true) : allBlank (c :: gap) = true := by
  rw [allBlank, List.all_cons, hc]
  exact hgap

/-! ## Words that are read -/

/-- A blank at the front belongs to no word. -/
theorem LaysOut.cons {c : Char} (hc : isBlank c = true) {text : List Char}
    {words : List (List Char)} (h : LaysOut text words) : LaysOut (c :: text) words := by
  cases h with
  | blank hgap => exact .blank (allBlank_cons hc hgap)
  | @word gap word rest words hgap hword hends hrest =>
      have hlonger := LaysOut.word (allBlank_cons hc hgap) hword hends hrest
      rw [List.cons_append] at hlonger
      exact hlonger

theorem isWord_reverse {letters : List Char} (hletters : ∀ c ∈ letters, isBlank c = false)
    (hne : letters.isEmpty = false) : IsWord letters.reverse := by
  refine ⟨?_, fun c hc => hletters c (List.mem_reverse.mp hc)⟩
  intro hnil
  rw [List.reverse_eq_nil_iff] at hnil
  rw [hnil] at hne
  exact nomatch hne

/-- The letters of a word and what follows them lay out the words that are read. -/
theorem laysOut_wordsFrom {letters : List Char} (hletters : ∀ c ∈ letters, isBlank c = false)
    (text : List Char) : LaysOut (letters.reverse ++ text) (wordsFrom letters text) := by
  induction text generalizing letters with
  | nil =>
      rw [wordsFrom]
      cases hempty : letters.isEmpty with
      | true =>
          rw [List.isEmpty_iff.mp hempty]
          exact .blank rfl
      | false =>
          have hword := isWord_reverse hletters hempty
          exact .word allBlank_nil hword endsWord_nil (.blank allBlank_nil)
  | cons c rest ih =>
      rw [wordsFrom]
      cases hblank : isBlank c with
      | true =>
          have hrest : LaysOut rest (wordsFrom [] rest) := ih (List.forall_mem_nil _)
          rw [if_pos rfl]
          cases hempty : letters.isEmpty with
          | true =>
              rw [List.isEmpty_iff.mp hempty]
              exact hrest.cons hblank
          | false =>
              have hword := isWord_reverse hletters hempty
              exact .word allBlank_nil hword (endsWord_cons hblank rest) (hrest.cons hblank)
      | false =>
          have hmore := ih (List.forall_mem_cons.mpr ⟨hblank, hletters⟩)
          rw [List.reverse_cons, List.append_assoc] at hmore
          exact hmore

/-! ## The words of a text that lays them out -/

theorem wordsFrom_blank {gap : List Char} (hgap : allBlank gap = true) (rest : List Char) :
    wordsFrom [] (gap ++ rest) = wordsFrom [] rest := by
  induction gap with
  | nil => rfl
  | cons c gap ih =>
      rw [allBlank, List.all_cons, Bool.and_eq_true] at hgap
      rw [List.cons_append, wordsFrom, if_pos hgap.1, if_pos List.isEmpty_nil]
      exact ih hgap.2

/-- The letters that were read are a word, once it ends. -/
theorem wordsFrom_ends {letters : List Char} (hne : letters.isEmpty = false) {rest : List Char}
    (hends : EndsWord rest) : wordsFrom letters rest = letters.reverse :: words rest := by
  cases rest with
  | nil =>
      rw [wordsFrom, hne, if_neg Bool.false_ne_true]
      rfl
  | cons c rest =>
      have hc : isBlank c = true := hends c rfl
      rw [words, wordsFrom, wordsFrom, if_pos hc, if_pos hc, hne, if_neg Bool.false_ne_true]
      rfl

theorem words_append {gap word rest : List Char} (hgap : allBlank gap = true)
    (hword : IsWord word) (hends : EndsWord rest) :
    words (gap ++ (word ++ rest)) = word :: words rest := by
  have hletters : word.reverse.isEmpty = false := by
    rw [List.isEmpty_reverse, List.isEmpty_eq_false_iff]
    exact hword.ne_nil
  rw [words, wordsFrom_blank hgap, wordsFrom_append hword.solid, List.append_nil,
    wordsFrom_ends hletters hends, List.reverse_reverse]

/-- **A text lays out its words**, and no others. -/
theorem words_eq_iff {text : List Char} {ws : List (List Char)} :
    words text = ws ↔ LaysOut text ws := by
  constructor
  · rintro rfl
    exact laysOut_wordsFrom (List.forall_mem_nil _) text
  · intro h
    induction h with
    | @blank gap hgap =>
        have hnone := wordsFrom_blank hgap []
        rw [List.append_nil] at hnone
        exact hnone
    | word hgap hword hends hrest ih => rw [words_append hgap hword hends, ih]

namespace LaysOut

variable {text : List Char} {words words' : List (List Char)}

theorem unique (h : LaysOut text words) (h' : LaysOut text words') : words = words' :=
  (words_eq_iff.mpr h).symm.trans (words_eq_iff.mpr h')

/-- There is at least one character for each word. -/
theorem length_le (h : LaysOut text words) : words.length ≤ text.length := by
  induction h with
  | blank hgap => exact Nat.zero_le _
  | word hgap hword hends hrest ih =>
      have hpos := List.length_pos_iff.mpr hword.ne_nil
      simp only [List.length_append, List.length_cons]
      omega

end LaysOut

end SegmentFit.Text
