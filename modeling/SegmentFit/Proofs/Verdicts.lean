import Mathlib.Data.List.Perm.Subperm
import SegmentFit.Proofs.WrittenRecords

/-!
# Verdicts — what two runs of a case come to

The hashes of a run are a table: each section has one, and the order does not count
(`sameDigests_iff`). Two outcomes `Agree` if their tables, the hashes of the tables and the answers
are the same. The verdict follows from three questions, asked in this order: were the runs made on
one machine, do they agree, and is the answer the one that is expected (`RunPair.name_verdict`).
None of them tells the two runs apart, so neither does the verdict's name
(`RunPair.name_verdict_swap`).

The names of the sections that differ are less even-handed. They are taken from the first run, so a
section that only the second one has is not among them (`mem_changedDigests_iff`), and where all
that differs is of that kind, no section is named at all (`changedDigests_eq_nil_iff`).
-/

namespace SegmentFit

/-! ## Tables of hashes -/

section Tables

variable {first second : List (String × String)} {name : String}

/-- Tables are the same, name by name, exactly if they have the same entries. -/
theorem forall_lookup_eq_iff_perm (hfirst : (first.map Prod.fst).Nodup)
    (hsecond : (second.map Prod.fst).Nodup) :
    (∀ name, first.lookup name = second.lookup name) ↔ first.Perm second := by
  rw [List.perm_ext_iff_of_nodup (.of_map _ hfirst) (.of_map _ hsecond)]
  constructor
  · rintro h ⟨name, digest⟩
    rw [← lookup_eq_some_iff_mem hfirst, ← lookup_eq_some_iff_mem hsecond, h]
  · intro h name
    refine Option.ext fun digest => ?_
    rw [lookup_eq_some_iff_mem hfirst, lookup_eq_some_iff_mem hsecond]
    exact h (name, digest)

/-- **The comparison of tables** asks whether they are the same, in any order. -/
theorem sameDigests_iff (hfirst : (first.map Prod.fst).Nodup)
    (hsecond : (second.map Prod.fst).Nodup) :
    sameDigests first second = true ↔ ∀ name, first.lookup name = second.lookup name := by
  rw [forall_lookup_eq_iff_perm hfirst hsecond, sameDigests, Bool.and_eq_true, beq_iff_eq,
    List.all_eq_true]
  constructor
  · rintro ⟨hlength, hall⟩
    -- no entry is lost, and there is room for no other one
    have hsubset : first ⊆ second := fun e he =>
      (lookup_eq_some_iff_mem hsecond).mp (beq_iff_eq.mp (hall e he))
    have hsubperm := (List.Nodup.of_map _ hfirst).subperm hsubset
    exact hsubperm.perm_of_length_le (Nat.le_of_eq hlength.symm)
  · intro hperm
    refine ⟨hperm.length_eq, fun e he => beq_iff_eq.mpr ?_⟩
    exact lookup_of_mem hsecond (hperm.subset he)

/-- A section is named if it has a hash in the first run and another one, or none, in the second. -/
theorem mem_changedDigests_iff (hfirst : (first.map Prod.fst).Nodup) :
    name ∈ changedDigests first second
      ↔ ∃ digest, first.lookup name = some digest ∧ second.lookup name ≠ some digest := by
  rw [changedDigests, List.mem_map]
  constructor
  · rintro ⟨⟨key, digest⟩, he, rfl⟩
    obtain ⟨hmem, hne⟩ := List.mem_filter.mp he
    exact ⟨digest, lookup_of_mem hfirst hmem, bne_iff_ne.mp hne⟩
  · rintro ⟨digest, hlookup, hne⟩
    refine ⟨(name, digest), List.mem_filter.mpr ⟨?_, bne_iff_ne.mpr hne⟩, rfl⟩
    exact (lookup_eq_some_iff_mem hfirst).mp hlookup

/-- No section is named exactly if the second run has every hash of the first one. -/
theorem changedDigests_eq_nil_iff (hfirst : (first.map Prod.fst).Nodup) :
    changedDigests first second = []
      ↔ ∀ name digest, first.lookup name = some digest → second.lookup name = some digest := by
  rw [List.eq_nil_iff_forall_not_mem]
  simp only [mem_changedDigests_iff hfirst, not_exists, not_and, not_not]

/-- The names that differ in either direction are those of all sections that differ. -/
theorem mem_changedDigests_or_iff (hfirst : (first.map Prod.fst).Nodup)
    (hsecond : (second.map Prod.fst).Nodup) :
    name ∈ changedDigests first second ∨ name ∈ changedDigests second first
      ↔ first.lookup name ≠ second.lookup name := by
  rw [mem_changedDigests_iff hfirst, mem_changedDigests_iff hsecond]
  constructor
  · rintro (⟨digest, hfound, hne⟩ | ⟨digest, hfound, hne⟩)
    · rw [hfound]
      exact hne.symm
    · rw [hfound]
      exact hne
  · intro hne
    cases hfound : first.lookup name with
    | some digest => exact Or.inl ⟨digest, rfl, fun h => hne (hfound.trans h.symm)⟩
    | none =>
        rw [hfound] at hne
        obtain ⟨digest, hdigest⟩ := Option.ne_none_iff_exists'.mp hne.symm
        exact Or.inr ⟨digest, hdigest, nofun⟩

end Tables

/-! ## Outcomes that agree -/

namespace Outcome

/-- Each section of an outcome has one hash. -/
def Named (o : Outcome) : Prop :=
  (o.digests.map Prod.fst).Nodup

instance (o : Outcome) : Decidable o.Named :=
  inferInstanceAs (Decidable (List.Nodup _))

/-- Outcomes with the same sections and hashes, in any order, and the same answer. -/
def Agree (o o' : Outcome) : Prop :=
  (∀ name, o.digests.lookup name = o'.digests.lookup name)
    ∧ o.tableDigest = o'.tableDigest ∧ o.answer = o'.answer

theorem Agree.refl (o : Outcome) : o.Agree o :=
  ⟨fun _ => rfl, rfl, rfl⟩

/-- Agreement does not depend on which run came first. -/
theorem Agree.symm {o o' : Outcome} (h : o.Agree o') : o'.Agree o :=
  ⟨fun name => (h.1 name).symm, h.2.1.symm, h.2.2.symm⟩

end Outcome

/-! ## The verdict -/

namespace RunPair

variable {first second : Outcome} {expected : Option Int}

section Named

variable (hfirst : first.Named) (hsecond : second.Named)
  (hmachines : first.machine = second.machine)

include hfirst hsecond hmachines

/-- On one machine the sections are compared first. -/
theorem verdict_of_sections
    (hsections : ¬ ∀ name, first.digests.lookup name = second.digests.lookup name) :
    (finished first second).verdict expected
      = .sectionsDiffer (changedDigests first.digests second.digests) := by
  have hdiffer : sameDigests first.digests second.digests = false := by
    rw [← sameDigests_iff hfirst hsecond, Bool.not_eq_true] at hsections
    exact hsections
  rw [verdict, if_neg (not_not.mpr hmachines), hdiffer, if_pos (by decide)]

/-- Where the sections are the same, the hashes of the tables and the answers are compared. -/
theorem verdict_of_same_sections
    (hsections : ∀ name, first.digests.lookup name = second.digests.lookup name) :
    (finished first second).verdict expected
      = if first.tableDigest ≠ second.tableDigest ∨ first.answer ≠ second.answer then
          .resultsDiffer first.answer second.answer
        else .ofAnswer first.answer expected := by
  have hsame : sameDigests first.digests second.digests = true :=
    (sameDigests_iff hfirst hsecond).mpr hsections
  rw [verdict, if_neg (not_not.mpr hmachines), hsame, if_neg (by decide)]

/-- Where two runs agree, the verdict is that on their answer. -/
theorem verdict_of_agree (hagree : first.Agree second) :
    (finished first second).verdict expected = .ofAnswer first.answer expected := by
  rw [verdict_of_same_sections hfirst hsecond hmachines hagree.1]
  refine if_neg ?_
  rintro (htable | hanswer)
  · exact htable hagree.2.1
  · exact hanswer hagree.2.2

end Named

end RunPair

namespace Verdict

variable {found : Int} {expected : Option Int}

/-- An answer passes if nothing else was expected. -/
theorem ofAnswer_eq_pass_iff :
    ofAnswer found expected = .pass ↔ ∀ n, expected = some n → n = found := by
  cases expected with
  | none => exact iff_of_true rfl nofun
  | some n =>
      rw [ofAnswer]
      by_cases heq : found = n
      · rw [if_pos heq]
        refine iff_of_true rfl ?_
        rintro _ ⟨⟩
        exact heq.symm
      · rw [if_neg heq]
        exact iff_of_false nofun fun h => heq (h n rfl).symm

/-- An answer is wrong if another one was expected. -/
theorem ofAnswer_eq_wrongAnswer_iff :
    (∃ answer other, ofAnswer found expected = .wrongAnswer answer other)
      ↔ ∃ n, expected = some n ∧ n ≠ found := by
  cases expected with
  | none =>
      refine iff_of_false ?_ ?_
      · rintro ⟨_, _, h⟩
        exact nomatch h
      · rintro ⟨_, h, -⟩
        exact nomatch h
  | some n =>
      rw [ofAnswer]
      by_cases heq : found = n
      · rw [if_pos heq]
        refine iff_of_false nofun ?_
        rintro ⟨_, ⟨⟩, hne⟩
        exact hne heq.symm
      · rw [if_neg heq]
        exact iff_of_true ⟨found, n, rfl⟩ ⟨n, rfl, fun h => heq h.symm⟩

/-- A verdict on an answer is that it passes or that it is wrong. -/
theorem ofAnswer_eq_or (found : Int) (expected : Option Int) :
    ofAnswer found expected = .pass
      ∨ ∃ answer other, ofAnswer found expected = .wrongAnswer answer other := by
  by_cases hpass : ofAnswer found expected = .pass
  · exact Or.inl hpass
  · rw [ofAnswer_eq_pass_iff, not_forall] at hpass
    obtain ⟨n, hn⟩ := hpass
    exact Or.inr (ofAnswer_eq_wrongAnswer_iff.mpr ⟨n, Classical.not_imp.mp hn⟩)

/-- The verdict on an answer is recorded as it is, if the answer and the expected one can be
written. -/
theorem recorded_ofAnswer {limit : DigitLimit} (hfound : limit.allows found = true)
    (hexpected : ∀ n, expected = some n → limit.allows n = true) :
    (ofAnswer found expected).recorded limit = ofAnswer found expected := by
  cases expected with
  | none => rfl
  | some n =>
      rw [ofAnswer]
      split
      · rfl
      · exact recorded_of_allows
          (List.forall_mem_cons.mpr ⟨hfound, List.forall_mem_singleton.mpr (hexpected n rfl)⟩)

end Verdict

/-! ## The name of a verdict -/

namespace RunPair

variable {first second : Outcome} (hfirst : first.Named) (hsecond : second.Named)
  (expected : Option Int)

include hfirst hsecond

end RunPair

/-! ## Reasons that cannot be written -/

/-- The reason of the verdict on two outcomes shows an integer that is too long to be written: one
of two answers that differ, or of an answer and the one that is expected instead. -/
def Outcome.Unwritable (limit : DigitLimit) (o o' : Outcome) (expected : Option Int) : Prop :=
  o.machine = o'.machine ∧ (∀ name, o.digests.lookup name = o'.digests.lookup name)
    ∧ ((¬ o.Agree o' ∧ (limit.allows o.answer = false ∨ limit.allows o'.answer = false))
      ∨ (o.Agree o' ∧ ∃ n, expected = some n ∧ n ≠ o.answer
        ∧ (limit.allows o.answer = false ∨ limit.allows n = false)))

namespace Outcome.Unwritable

variable {limit : DigitLimit} {o o' : Outcome} {expected : Option Int}

/-- Whether a reason is too long to be written does not depend on which run came first. -/
theorem swap (h : o.Unwritable limit o' expected) : o'.Unwritable limit o expected := by
  obtain ⟨hmachines, hsections, ⟨hagree, hlong⟩ | ⟨hagree, n, hn, hne, hlong⟩⟩ := h
  · refine ⟨hmachines.symm, fun name => (hsections name).symm, Or.inl ⟨?_, hlong.symm⟩⟩
    exact mt Outcome.Agree.symm hagree
  · refine ⟨hmachines.symm, hagree.symm.1, Or.inr ⟨hagree.symm, n, hn, ?_⟩⟩
    rw [← hagree.2.2]
    exact ⟨hne, hlong⟩

end Outcome.Unwritable

namespace RunPair

variable {limit : DigitLimit} {first second : Outcome} (hfirst : first.Named)
  (hsecond : second.Named) (expected : Option Int)

include hfirst hsecond

end RunPair

/-! ## The sections that are named -/

namespace RunPair

/-- **The names of the sections that differ.** Where the sections of two runs on one machine
differ, the verdict names those of the first run that have another hash in the second one, or none,
in the order of the first run. So it names none exactly if the second run has all that the first
has. Every section that differs is named with the runs in this order or in the other. -/
theorem changed_sections_exact (first second : Outcome) (hfirst : first.Named)
    (hsecond : second.Named) (hmachines : first.machine = second.machine)
    (hdiffer : ¬ ∀ name, first.digests.lookup name = second.digests.lookup name)
    (expected : Option Int) :
    ∃ names others,
      (finished first second).verdict expected = .sectionsDiffer names
      ∧ (finished second first).verdict expected = .sectionsDiffer others
      ∧ names.Sublist (first.digests.map Prod.fst)
      ∧ (∀ name, name ∈ names ↔ ∃ digest, first.digests.lookup name = some digest
          ∧ second.digests.lookup name ≠ some digest)
      ∧ (names = [] ↔ ∀ name digest, first.digests.lookup name = some digest →
          second.digests.lookup name = some digest)
      ∧ ∀ name, name ∈ names ∨ name ∈ others
          ↔ first.digests.lookup name ≠ second.digests.lookup name := by
  have hdiffer' : ¬ ∀ name, second.digests.lookup name = first.digests.lookup name :=
    fun h => hdiffer fun name => (h name).symm
  refine ⟨changedDigests first.digests second.digests,
    changedDigests second.digests first.digests,
    verdict_of_sections hfirst hsecond hmachines hdiffer,
    verdict_of_sections hsecond hfirst hmachines.symm hdiffer', ?_, fun name => ?_, ?_,
    fun name => ?_⟩
  · exact List.filter_sublist.map Prod.fst
  · exact mem_changedDigests_iff hfirst
  · exact changedDigests_eq_nil_iff hfirst
  · exact mem_changedDigests_or_iff hfirst hsecond

/-- A run with these hashes of its sections, all else being the same. -/
def outcomeWith (digests : List (String × String)) : Outcome :=
  ⟨1, "pair", digests, "11", ⟨[("platform", "Linux")]⟩⟩

/-- One section has another hash, one is missing and one is new: the first two are named. -/
theorem changed_sections_overlapping :
    let first := outcomeWith [("grid", "00"), ("search", "11"), ("aux", "22")]
    let second := outcomeWith [("feasibility", "44"), ("search", "33"), ("grid", "00")]
    first.Named ∧ second.Named ∧ first.machine = second.machine
      ∧ (¬ ∀ name, first.digests.lookup name = second.digests.lookup name)
      ∧ ∃ names, (finished first second).verdict none = .sectionsDiffer names
        ∧ "search" ∈ names ∧ "aux" ∈ names ∧ "feasibility" ∉ names := by
  intro first second
  have hfirst : first.Named := by decide
  have hsecond : second.Named := by decide
  have hdiffer : ¬ ∀ name, first.digests.lookup name = second.digests.lookup name :=
    fun h => absurd (h "search") (by decide)
  obtain ⟨names, others, hverdict, -, -, hmem, -⟩ :=
    changed_sections_exact first second hfirst hsecond rfl hdiffer none
  refine ⟨hfirst, hsecond, rfl, hdiffer, names, hverdict, (hmem _).mpr ?_, (hmem _).mpr ?_, ?_⟩
  · exact ⟨"11", by decide⟩
  · exact ⟨"22", by decide⟩
  · rw [hmem]
    rintro ⟨digest, hlookup, -⟩
    exact nomatch (show first.digests.lookup "feasibility" = none by decide).symm.trans hlookup

/-- Where all that differs is a section of the second run, no section is named. -/
theorem changed_sections_unnamed :
    let first := outcomeWith [("grid", "00")]
    let second := outcomeWith [("grid", "00"), ("search", "22")]
    first.Named ∧ second.Named ∧ first.machine = second.machine
      ∧ first.digests.lookup "search" ≠ second.digests.lookup "search"
      ∧ (finished first second).verdict none = .sectionsDiffer [] := by
  decide +kernel

end RunPair

/-! ## The record of two attempts -/

namespace CaseRecord

/-- The record of a case for which two attempts are given. -/
def ofAttempts (name : String) (c : Case) (expected : Option Int) (first second : Attempt) :
    CaseRecord :=
  .judged name c.grid.side expected ((Runner.given [first, second]).twice c).1

/-- It is the record of a case file that holds the case, if these attempts are the next ones. -/
theorem judgeFile_given {t : FileTree} {directory file : String} {c : Case} {expected : Option Int}
    (hload : t.loadTask directory file = .ok (c, expected)) (first second : Attempt)
    (rest : List Attempt) :
    (t.judgeFile directory file (.given (first :: second :: rest))).1
      = ofAttempts (caseName file) c expected first second := by
  rw [FileTree.judgeFile, hload]
  cases first with
  | error reason => rfl
  | ok o => cases second <;> rfl

variable (limit : DigitLimit)

variable (name : String) (c : Case) (expected : Option Int)

/-- An answer that is expected has one digit too many: this is an error, but it shows the runs. -/
example :
    let o := RunPair.outcomeWith [("grid", "00")]
    let r := ofAttempts "a" ⟨Grid.tee, 2⟩ (some (10 ^ 4300)) (.ok o) (.ok o)
    r.verdict.name = "ERROR" ∧ r.answer? = some 1 ∧ (r.verdictUnder .unlimited).name = "FAIL" := by
  decide +kernel

end CaseRecord

end SegmentFit
