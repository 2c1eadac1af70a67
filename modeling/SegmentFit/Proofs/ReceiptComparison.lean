import SegmentFit.Proofs.ArrayBytes
import SegmentFit.Proofs.Difference
import SegmentFit.Proofs.Solve

/-!
# Comparing receipts — two solves that leave the same receipt

A receipt without its machine is a value that is compared with itself without a difference
(`Solution.plain_members`), and it depends on no more of a case than the grid, the kind of
question, and whether the symmetry check is made (`Case.solve_congr`). So solves that agree
in these three have receipts without a difference, on whatever machines they ran.

The other way round each of the three can be read off a receipt (`Solution.Agree`): the kind
of question from the mode, the check from the names of the sections, and the grid from its
hash, provided that the hash tells the bytes of the two grids apart (`Grid.HashedApart`).
-/

namespace SegmentFit

/-! ## Receipts as values -/

@[simp] theorem Cell.plain_json (c : Cell) : c.json.Plain := by
  simp [json]

@[simp] theorem GridReceipt.plain_json (r : GridReceipt) : r.json.Plain := by
  simp [json]

@[simp] theorem LineReceipt.plain_json (r : LineReceipt) : r.json.Plain := by
  simp [json]

@[simp] theorem Probe.plain_json (p : Probe) : p.json.Plain := by
  simp [json]

@[simp] theorem SearchReceipt.plain_json (r : SearchReceipt) : r.json.Plain := by
  simp [json]

@[simp] theorem SweepReceipt.plain_json (r : SweepReceipt) : r.json.Plain := by
  simp [json]

@[simp] theorem plain_checkJson : checkJson.Plain := by
  simp [checkJson]

namespace Sections

variable (s : Sections)

/-- The sections of a solution have distinct names, at every depth. -/
theorem plain_members : (Json.object s.members).Plain := by
  obtain ⟨grid, stage, checked⟩ := s
  cases stage <;> cases checked <;> simp [members]

/-- The sections of a solution have distinct names. -/
theorem distinct_members : (s.members.map Prod.fst).Nodup :=
  (Json.Plain.object_iff.mp s.plain_members).1

/-- Each section has a hash under its name. -/
theorem names_digests : s.digests.map Prod.fst = s.members.map Prod.fst := by
  rw [digests, List.map_map]
  rfl

/-- No two hashes of a solution have one name. -/
theorem distinct_digests : (s.digests.map Prod.fst).Nodup := by
  rw [s.names_digests]
  exact s.distinct_members

/-- The section of the grid is its receipt. -/
theorem lookup_grid : s.members.lookup "grid" = some s.grid.json :=
  List.lookup_cons_self

/-- There is a section of the symmetry check exactly if it was made. -/
theorem isSome_lookup_check : (s.members.lookup "self_check").isSome = s.checked := by
  obtain ⟨grid, stage, checked⟩ := s
  cases stage <;> cases checked <;> rfl

end Sections

namespace Solution

/-- The table of hashes is a plain object. -/
theorem plain_hashes (s : Solution) :
    (Json.object (s.digests.map fun (name, digest) => (name, .string digest))).Plain := by
  have hnames : (s.digests.map fun (name, digest) => (name, Json.string digest)).map Prod.fst
      = s.sections.members.map Prod.fst := by
    rw [digests, Sections.digests, List.map_map, List.map_map]
    rfl
  rw [Json.Plain.object_iff, hnames, List.forall_mem_map]
  exact ⟨(Json.Plain.object_iff.mp s.sections.plain_members).1, fun _ _ => .of_string _⟩

/-- What does not depend on the machine is a plain object. -/
theorem plain_members (s : Solution) : (Json.object s.members).Plain := by
  have hsections := s.sections.plain_members
  have hhashes := s.plain_hashes
  rw [members, Json.Plain.object_iff]
  refine ⟨by simp, ?_⟩
  simp only [List.forall_mem_cons, hsections, hhashes]
  simp

/-- What a comparison leaves out of a receipt is the machine, and nothing else. -/
theorem machineFree_receipt (s : Solution) (machine : Fingerprint) :
    machineFree (s.receipt machine) = .ok (.object s.members) :=
  rfl

/-- What is compared of two receipts, and where. -/
theorem compareRecords_receipt (s s' : Solution) (machine machine' : Fingerprint) :
    compareRecords [s.receipt machine] [s'.receipt machine']
      = .ok (Json.differences (itemPath "record" 0) (.object s.members) (.object s'.members)) := by
  show pairDifferences 0 [(s.receipt machine, s'.receipt machine')] = _
  rw [pairDifferences, machineFree_receipt, machineFree_receipt]
  show Except.ok (Json.differences _ _ _ ++ []) = _
  rw [List.append_nil]

/-- The parts of two solutions that a comparison of their receipts is decided by. -/
structure Agree (s s' : Solution) : Prop where
  mode : s.mode = s'.mode
  digest : s.sections.grid.digest = s'.sections.grid.digest
  checked : s.sections.checked = s'.sections.checked

/-- Solutions without a difference agree in the grid, the mode and the check. -/
theorem agree_of_differences_eq_nil {s s' : Solution} {path : CodeText}
    (h : Json.differences path (.object s.members) (.object s'.members) = []) : s.Agree s' := by
  have hsections := Json.differences_lookup_eq_nil h "sections"
    (rfl : s.members.lookup "sections" = some (.object s.sections.members)) rfl
  have hgrid := Json.differences_lookup_eq_nil hsections "grid" s.sections.lookup_grid
    s'.sections.lookup_grid
  have hdigest := Json.differences_lookup_eq_nil hgrid "grid_hash" rfl rfl
  have hfinal := Json.differences_lookup_eq_nil h "final"
    (rfl : s.members.lookup "final"
      = some (.object [("mode", .string s.mode), ("n", .nat s.side), ("k", .nat s.answer)])) rfl
  have hmode := Json.differences_lookup_eq_nil hfinal "mode" rfl rfl
  refine ⟨?_, ?_, ?_⟩
  · exact Json.differences_string_eq_nil_iff.mp hmode
  · exact Json.differences_string_eq_nil_iff.mp hdigest
  · rw [← s.sections.isSome_lookup_check, ← s'.sections.isSome_lookup_check]
    exact Json.isSome_lookup_eq hsections "self_check"

end Solution

/-! ## What a receipt depends on -/

/-- The mode is named by whether it is the one of lines. -/
theorem Case.modeName_eq_iff {mode mode' : Int} :
    modeName mode = modeName mode' ↔ (mode = lineMode ↔ mode' = lineMode) := by
  rw [modeName, modeName]
  by_cases h : mode = lineMode <;> by_cases h' : mode' = lineMode <;> simp [h, h']

namespace Grid

variable {g : Grid} {mode mode' : Int}

/-- The answer depends on whether the mode is the one of lines, and on nothing else of it. -/
theorem answer_congr (h : mode = Case.lineMode ↔ mode' = Case.lineMode) :
    g.answer mode = g.answer mode' := by
  rw [answer, answer]
  exact if_congr h rfl rfl

theorem sections_congr (h : mode = Case.lineMode ↔ mode' = Case.lineMode) :
    g.sections mode = g.sections mode' := by
  have hstage : g.stage mode = g.stage mode' := if_congr h rfl rfl
  rw [sections, sections, hstage]

/-- The receipt of the grid is the first section. -/
theorem receipt_of_sections {s : Sections} (h : g.sections mode = .ok s) :
    g.receipt = .ok s.grid := by
  obtain ⟨receipt, hreceipt⟩ := g.exists_receipt
  obtain ⟨stage, hstage, -⟩ := g.exists_stage mode
  rw [sections, hreceipt, hstage] at h
  rw [hreceipt, ← Except.ok.inj h]

/-- The hash in the receipt of a grid is that of its bytes. -/
theorem exists_bytes_of_receipt {r : GridReceipt} (h : g.receipt = .ok r) :
    ∃ bytes, g.tensor.bytes? = .ok bytes ∧ Blake3.hexDigest bytes = r.digest := by
  rw [receipt] at h
  cases hdigest : g.tensor.digest? with
  | error fault =>
      rw [hdigest] at h
      cases h
  | ok digest =>
      rw [hdigest] at h
      rw [← Except.ok.inj h]
      exact Tensor.exists_bytes_of_digest? hdigest

/-- The hash tells the bytes of two grids apart. -/
def HashedApart (g g' : Grid) : Prop :=
  ∀ bytes bytes', g.tensor.bytes? = .ok bytes → g'.tensor.bytes? = .ok bytes' →
    Blake3.hexDigest bytes = Blake3.hexDigest bytes' → bytes = bytes'

/-- Grids that are hashed apart are known by the hashes in their receipts. -/
theorem HashedApart.eq_of_digest {g' : Grid} (h : g.HashedApart g') {r r' : GridReceipt}
    (hr : g.receipt = .ok r) (hr' : g'.receipt = .ok r') (hdigest : r.digest = r'.digest) :
    g = g' := by
  obtain ⟨bytes, hbytes, hhash⟩ := exists_bytes_of_receipt hr
  obtain ⟨bytes', hbytes', hhash'⟩ := exists_bytes_of_receipt hr'
  have hsame : Blake3.hexDigest bytes = Blake3.hexDigest bytes' := by
    rw [hhash, hhash', hdigest]
  obtain rfl : bytes = bytes' := h bytes bytes' hbytes hbytes' hsame
  exact bytes?_inj hbytes hbytes'

end Grid

namespace Case

variable {c c' : Case}

/-- Of the mode a solve depends only on whether it asks for a single segment. -/
theorem solve_congr (hgrid : c.grid = c'.grid)
    (hmode : c.mode = lineMode ↔ c'.mode = lineMode) (check : Bool) :
    c.solve check = c'.solve check := by
  obtain ⟨s, hsections, -, hanswer⟩ := c.grid.exists_sections c.mode
  have hsections' : c'.grid.sections c'.mode = .ok s := by
    rw [← hgrid, ← Grid.sections_congr hmode, hsections]
  have hanswer' : c'.grid.answer c'.mode = .ok s.stage.answer := by
    rw [← hgrid, ← Grid.answer_congr hmode, hanswer]
  rw [c.solve_eq hsections hanswer, c'.solve_eq hsections' hanswer', hgrid,
    modeName_eq_iff.mpr hmode]

variable (c c')

/-- Every case is solved, in its mode, with the check exactly if it was asked for. -/
theorem exists_solve (check : Bool) :
    ∃ s, c.solve check = .ok s ∧ s.mode = modeName c.mode ∧ s.sections.checked = check
      ∧ c.grid.receipt = .ok s.sections.grid := by
  obtain ⟨s, hsections, -, hanswer⟩ := c.grid.exists_sections c.mode
  have hreceipt := Grid.receipt_of_sections hsections
  exact ⟨_, c.solve_eq hsections hanswer check, rfl, rfl, hreceipt⟩

/-- **Receipts are equal exactly for equal questions.** Two solves leave receipts without a
difference, whatever machines they ran on, if and only if they are of one grid, both ask for
a single segment or both for a pair, and both make the symmetry check or neither does. -/
theorem comparison_exact (asked asked' : Option Bool) (setting setting' : Option String)
    (machine machine' : Fingerprint) (happart : c.grid.HashedApart c'.grid) :
    ∃ s s' found, c.solve (checkEnabled asked setting) = .ok s
      ∧ c'.solve (checkEnabled asked' setting') = .ok s'
      ∧ compareRecords [s.receipt machine] [s'.receipt machine'] = .ok found
      ∧ (found = [] ↔ c.grid = c'.grid ∧ (c.mode = lineMode ↔ c'.mode = lineMode)
          ∧ checkEnabled asked setting = checkEnabled asked' setting') := by
  obtain ⟨s, hsolve, hmode, hchecked, hreceipt⟩ := c.exists_solve (checkEnabled asked setting)
  obtain ⟨s', hsolve', hmode', hchecked', hreceipt'⟩ :=
    c'.exists_solve (checkEnabled asked' setting')
  refine ⟨s, s', _, hsolve, hsolve', s.compareRecords_receipt s' machine machine', ?_⟩
  constructor
  · intro hnone
    have hagree := Solution.agree_of_differences_eq_nil hnone
    refine ⟨?_, ?_, ?_⟩
    · exact happart.eq_of_digest hreceipt hreceipt' hagree.digest
    · rw [← modeName_eq_iff, ← hmode, ← hmode', hagree.mode]
    · rw [← hchecked, ← hchecked', hagree.checked]
  · rintro ⟨hgrid, hmodes, hchecks⟩
    -- the two solves are one and the same
    rw [solve_congr hgrid hmodes, hchecks, hsolve'] at hsolve
    rw [Except.ok.inj hsolve]
    exact s.plain_members.differences_self _

/-- A grid of one cell. -/
def oneCell (isOpen : Bool) (mode : Int) : Case :=
  ⟨⟨1, Table.ofFn fun _ _ => isOpen, by decide, by decide⟩, mode⟩

/-- An open cell and a blocked one, whose bytes have different hashes. -/
theorem comparison_exact_oneCell :
    (oneCell true 1).grid.HashedApart (oneCell false 1).grid
      ∧ ∃ s s' found, (oneCell true 1).solve false = .ok s ∧ (oneCell false 1).solve false = .ok s'
          ∧ compareRecords [s.receipt ⟨[]⟩] [s'.receipt ⟨[]⟩] = .ok found ∧ found ≠ [] := by
  have happart : (oneCell true 1).grid.HashedApart (oneCell false 1).grid := by
    intro bytes bytes' hbytes hbytes' hdigest
    have hopen : (oneCell true 1).grid.tensor.bytes? = .ok [2, 1, 1, 1, 0, 0, 0] := by
      decide +kernel
    have hblocked : (oneCell false 1).grid.tensor.bytes? = .ok [2, 1, 1, 0, 0, 0, 0] := by
      decide +kernel
    obtain rfl := Except.ok.inj (hopen.symm.trans hbytes)
    obtain rfl := Except.ok.inj (hblocked.symm.trans hbytes')
    exact absurd hdigest (by decide +kernel)
  obtain ⟨s, s', found, hs, hs', hfound, hiff⟩ :=
    comparison_exact (oneCell true 1) (oneCell false 1) (some false) none none none ⟨[]⟩ ⟨[]⟩
      happart
  refine ⟨happart, s, s', found, hs, hs', hfound, fun hnone => ?_⟩
  have hcells : (oneCell true 1).grid.isOpen 0 0 = (oneCell false 1).grid.isOpen 0 0 := by
    rw [(hiff.mp hnone).1]
  exact absurd hcells (by decide +kernel)

end Case

end SegmentFit
