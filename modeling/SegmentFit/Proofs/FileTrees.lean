import Mathlib.Data.List.Basic
import SegmentFit.FileTree
import SegmentFit.Proofs.Results

/-!
# File trees — what is written to a path is read from it

A path is followed by the places that its names lead to (`FileTree.walk`), each of which must be
a directory if there is a next name. The names and directories on the way that `follow` keeps are
those places (`Trail`), so following a path comes to walking it (`follow_eq`).

Putting a file where no directory is takes no directory away (`IsDirectory.set`), so the same
path leads to the same place afterwards, and the file is there (`read_of_write`).

A name in a directory is an entry of it: the path of the directory with the name behind it leads
to what the directory has under that name (`resolve_child`), unless one of them is too long.
-/

namespace SegmentFit

/-! ## Lists of named values -/

section Lookup

variable {α β : Type} [BEq α] [LawfulBEq α] {l : List (α × β)} {name : α}

theorem lookup_of_mem (hkeys : (l.map Prod.fst).Nodup) {v : β} (h : (name, v) ∈ l) :
    l.lookup name = some v := by
  induction l with
  | nil => exact nomatch h
  | cons head rest ih =>
      rw [List.map_cons, List.nodup_cons] at hkeys
      rcases List.mem_cons.mp h with rfl | hmem
      · exact List.lookup_cons_self
      · -- the key of a later entry is not that of the first one
        have hne : name ≠ head.1 := by
          intro heq
          exact hkeys.1 (List.mem_map.mpr ⟨(name, v), hmem, heq⟩)
        rw [List.lookup_cons, beq_eq_false_iff_ne.mpr hne]
        exact ih hkeys.2 hmem

/-- In a table without repeated keys, what is looked up is what is there. -/
theorem lookup_eq_some_iff_mem (hkeys : (l.map Prod.fst).Nodup) {v : β} :
    l.lookup name = some v ↔ (name, v) ∈ l := by
  constructor
  · intro h
    obtain ⟨before, after, rfl, -⟩ := List.lookup_eq_some_iff.mp h
    exact List.mem_append_right _ List.mem_cons_self
  · exact lookup_of_mem hkeys

omit [LawfulBEq α] in
/-- Looking up is not disturbed by a change of the values. -/
theorem lookup_map_snd {γ : Type} (f : β → γ) :
    (l.map fun (key, v) => (key, f v)).lookup name = (l.lookup name).map f := by
  induction l with
  | nil => rfl
  | cons head rest ih =>
      obtain ⟨key, v⟩ := head
      rw [List.map_cons, List.lookup_cons, List.lookup_cons, ih]
      cases name == key <;> rfl

/-- Nor is it by leaving out entries of other keys. -/
theorem lookup_filter {p : α × β → Bool} (hkept : ∀ v, p (name, v) = true) :
    (l.filter p).lookup name = l.lookup name := by
  induction l with
  | nil => rfl
  | cons head rest ih =>
      obtain ⟨key, v⟩ := head
      by_cases hkey : name = key
      · subst hkey
        rw [List.filter_cons, if_pos (hkept v), List.lookup_cons_self, List.lookup_cons_self]
      · have hne : (name == key) = false := beq_eq_false_iff_ne.mpr hkey
        rw [List.lookup_cons, hne, List.filter_cons]
        split
        · rw [List.lookup_cons, hne]
          exact ih
        · exact ih

end Lookup

namespace PathText

/-! ## Names in a path -/

theorem pieces_ne_nil (text : List Char) : pieces text ≠ [] := by
  unfold pieces
  split
  · exact List.cons_ne_nil _ _
  · exact List.cons_ne_nil _ _
  · split
    · exact List.cons_ne_nil _ _
    · exact List.cons_ne_nil _ _

theorem pieces_cons {c : Char} (hc : c ≠ '/') {text piece : List Char} {more : List (List Char)}
    (htext : pieces text = piece :: more) : pieces (c :: text) = (c :: piece) :: more := by
  rw [pieces, htext]
  exact hc

/-- A path is cut at each slash, so the pieces of two parts are put together. -/
theorem pieces_append (before after : List Char) :
    pieces (before ++ '/' :: after) = pieces before ++ pieces after := by
  induction before with
  | nil => rfl
  | cons c rest ih =>
      by_cases hc : c = '/'
      · rw [hc, List.cons_append, pieces, pieces, ih, List.cons_append]
      · obtain ⟨piece, more, hrest⟩ := List.exists_cons_of_ne_nil (pieces_ne_nil rest)
        rw [hrest, List.cons_append] at ih
        rw [List.cons_append, pieces_cons hc ih, pieces_cons hc hrest, List.cons_append]

theorem pieces_of_notMem {text : List Char} (h : '/' ∉ text) : pieces text = [text] := by
  induction text with
  | nil => rfl
  | cons c rest ih =>
      rw [List.mem_cons, not_or] at h
      exact pieces_cons (Ne.symm h.1) (ih h.2)

theorem names_ne_nil (path : String) : names path ≠ [] :=
  fun h => pieces_ne_nil path.toList (List.map_eq_nil_iff.mp h)

end PathText

namespace FileTree

/-! ## Places -/

/-- To follow a location is to follow one part of it and then the other. -/
theorem find?_append (t : FileTree) (here more : Location) :
    t.find? (here ++ more) = (t.find? here).bind fun below => below.find? more := by
  induction here generalizing t with
  | nil => rfl
  | cons name here ih =>
      cases t with
      | file bytes => rfl
      | directory entries =>
          rw [List.cons_append, find?, find?, Option.bind_assoc]
          exact Option.bind_congr fun below _ => ih below

/-- A place at which a directory is. -/
def IsDirectory (t : FileTree) (place : Location) : Prop :=
  ∃ entries, t.find? place = some (.directory entries)

/-- Above a directory there are directories only. -/
theorem IsDirectory.above {t : FileTree} {here more : Location}
    (h : t.IsDirectory (here ++ more)) : t.IsDirectory here := by
  obtain ⟨entries, hfind⟩ := h
  rw [find?_append] at hfind
  obtain ⟨below, hhere, hmore⟩ := Option.bind_eq_some_iff.mp hfind
  cases below with
  | directory others => exact ⟨others, hhere⟩
  | file bytes =>
      cases more with
      | nil => exact nomatch hmore
      | cons name more => exact nomatch hmore

theorem isDirectory_directory (entries : List (String × FileTree)) :
    (directory entries).IsDirectory [] :=
  ⟨entries, rfl⟩

/-- A directory lies below another one if the first name leads to an entry below which it lies. -/
theorem isDirectory_cons_iff {entries : List (String × FileTree)} {name : String}
    {place : Location} :
    (directory entries).IsDirectory (name :: place)
      ↔ ∃ below, entries.lookup name = some below ∧ below.IsDirectory place := by
  constructor
  · rintro ⟨others, hfind⟩
    obtain ⟨below, hlookup, hbelow⟩ := Option.bind_eq_some_iff.mp hfind
    exact ⟨below, hlookup, others, hbelow⟩
  · rintro ⟨below, hlookup, others, hbelow⟩
    exact ⟨others, Option.bind_eq_some_iff.mpr ⟨below, hlookup, hbelow⟩⟩

/-- A tree with a directory in it is one. -/
theorem IsDirectory.exists_entries {t : FileTree} {place : Location} (h : t.IsDirectory place) :
    ∃ entries, t = .directory entries := by
  obtain ⟨entries, hfind⟩ : t.IsDirectory [] := IsDirectory.above h
  exact ⟨entries, Option.some.inj hfind⟩

/-! ## Putting something at a place -/

/-- What is put under a name is found there, and the other entries stay. -/
theorem lookup_put (name other : String) (new : FileTree) (entries : List (String × FileTree)) :
    (put name new entries).lookup other
      = if other = name then some new else entries.lookup other := by
  induction entries with
  | nil =>
      rw [put, List.lookup_cons, List.lookup_nil]
      by_cases h : other = name
      · simp [h]
      · simp [h, beq_eq_false_iff_ne.mpr h]
  | cons e rest ih =>
      obtain ⟨first, old⟩ := e
      rw [put]
      by_cases hfirst : first = name
      · rw [if_pos hfirst, List.lookup_cons, List.lookup_cons, hfirst]
        by_cases h : other = name
        · simp [h]
        · simp [h, beq_eq_false_iff_ne.mpr h]
      · rw [if_neg hfirst, List.lookup_cons, List.lookup_cons, ih]
        by_cases h : other = first
        · have hne : other ≠ name := fun heq => hfirst (h.symm.trans heq)
          simp [h, hfirst]
        · simp [beq_eq_false_iff_ne.mpr h]

/-- What is put below a directory is there. -/
theorem find?_set {t : FileTree} {above : Location} (h : t.IsDirectory above) (name : String)
    (new : FileTree) : (t.set (above ++ [name]) new).find? (above ++ [name]) = some new := by
  induction above generalizing t with
  | nil =>
      obtain ⟨entries, rfl⟩ := h.exists_entries
      rw [List.nil_append, set, find?, lookup_put, if_pos rfl]
      rfl
  | cons first above ih =>
      obtain ⟨entries, rfl⟩ := h.exists_entries
      obtain ⟨below, hlookup, hbelow⟩ := isDirectory_cons_iff.mp h
      rw [List.cons_append, set, find?, lookup_put, if_pos rfl, hlookup]
      exact ih hbelow

/-- Something put where no directory is takes no directory away. -/
theorem IsDirectory.set {t : FileTree} {place : Location} (h : t.IsDirectory place)
    {other : Location} (hother : ¬ t.IsDirectory other) (new : FileTree) :
    (t.set other new).IsDirectory place := by
  induction place generalizing t other with
  | nil =>
      obtain ⟨entries, rfl⟩ := h.exists_entries
      cases other with
      | nil => exact absurd h hother
      | cons name other => exact isDirectory_directory _
  | cons first place ih =>
      obtain ⟨entries, rfl⟩ := h.exists_entries
      obtain ⟨below, hlookup, hbelow⟩ := isDirectory_cons_iff.mp h
      cases other with
      | nil => exact absurd (isDirectory_directory _) hother
      | cons name other =>
          rw [FileTree.set, isDirectory_cons_iff, lookup_put]
          by_cases hname : first = name
          · subst hname
            rw [if_pos rfl, hlookup]
            refine ⟨_, rfl, ih hbelow fun hbad => hother ?_⟩
            exact isDirectory_cons_iff.mpr ⟨below, hlookup, hbad⟩
          · rw [if_neg hname]
            exact ⟨below, hlookup, hbelow⟩

/-! ## Walking -/

/-- Where names lead from a place, which must be a directory if there is a name. -/
def walk (t : FileTree) (path : String) (here : Location) :
    List String → Except FileFault Location
  | [] => .ok here
  | name :: rest =>
    match t.find? here with
    | none => .error (.notFound path)
    | some (.file _) => .error (.notDirectory path)
    | some (.directory _) =>
      if PathText.nameLimit < name.utf8ByteSize then .error (.tooLong path)
      else t.walk path (step here name) rest

/-- The names on the way to a place with the directories that they are in. -/
inductive Trail (t : FileTree) : List (String × FileTree) → Location → Prop where
  | start : Trail t [] []
  | into {trail : List (String × FileTree)} {here : Location} {entries : List (String × FileTree)}
      (h : Trail t trail here) (hdirectory : t.find? here = some (.directory entries))
      (name : String) : Trail t ((name, .directory entries) :: trail) (here ++ [name])

variable {t : FileTree} {path : String}

/-- A trail names the steps of its location, the last one first. -/
theorem Trail.place_eq {trail : List (String × FileTree)} {here : Location}
    (h : Trail t trail here) : (trail.map fun s => s.1).reverse = here := by
  induction h with
  | start => rfl
  | into h hdirectory name ih => rw [List.map_cons, List.reverse_cons, ih]

/-- The entries of a directory lie one step below it. -/
theorem find?_entry {here : Location} {entries : List (String × FileTree)}
    (h : t.find? here = some (.directory entries)) (name : String) :
    t.find? (here ++ [name]) = entries.lookup name := by
  rw [find?_append, h]
  show (entries.lookup name).bind (fun below => some below) = _
  rw [Option.bind_fun_some]

/-- Following names comes to walking them. -/
theorem follow_eq {trail : List (String × FileTree)} {here : Location} (h : Trail t trail here)
    (names : List String) :
    follow path trail (t.find? here) names
      = (t.walk path here names).map fun place => ⟨place, t.find? place⟩ := by
  induction names generalizing trail here with
  | nil =>
      rw [follow, h.place_eq]
      rfl
  | cons name rest ih =>
      rw [follow.eq_def, walk]
      cases hfind : t.find? here with
      | none => rfl
      | some below =>
          cases below with
          | file bytes => rfl
          | directory entries =>
              dsimp only
              by_cases hlong : PathText.nameLimit < name.utf8ByteSize
              · rw [if_pos hlong, if_pos hlong]
                rfl
              rw [if_neg hlong, if_neg hlong, step]
              by_cases hstays : PathText.stays name = true
              · rw [if_pos hstays, if_pos hstays, ← hfind]
                exact ih h
              rw [if_neg hstays, if_neg hstays]
              by_cases hup : (name == "..") = true
              · rw [if_pos hup, if_pos hup]
                cases h with
                | start =>
                    rw [← hfind]
                    exact ih .start
                | into habove hdirectory last =>
                    dsimp only
                    rw [List.dropLast_concat, ← hdirectory]
                    exact ih habove
              · rw [if_neg hup, if_neg hup, ← find?_entry hfind name]
                exact ih (h.into hfind name)

/-- Walking ends at the same place in a tree with the same directories and more. The path is
named by faults only. -/
theorem walk_mono {t' : FileTree} (h : ∀ place, t.IsDirectory place → t'.IsDirectory place)
    {path' : String} {here place : Location} {names : List String}
    (hwalk : t.walk path here names = .ok place) : t'.walk path' here names = .ok place := by
  induction names generalizing here with
  | nil => exact hwalk
  | cons name rest ih =>
      rw [walk] at hwalk ⊢
      split at hwalk
      · exact nomatch hwalk
      · exact nomatch hwalk
      · next entries hfind =>
        obtain ⟨entries', hfind'⟩ := h here ⟨entries, hfind⟩
        rw [hfind']
        split at hwalk
        · exact nomatch hwalk
        · next hshort =>
          dsimp only
          rw [if_neg hshort]
          exact ih hwalk

/-- The last name is one of a directory. -/
theorem exists_step_of_walk {here place : Location} {names : List String} (hne : names ≠ [])
    (hwalk : t.walk path here names = .ok place) :
    ∃ last name, t.IsDirectory last ∧ place = step last name := by
  induction names generalizing here with
  | nil => exact absurd rfl hne
  | cons name rest ih =>
      rw [walk] at hwalk
      split at hwalk
      · exact nomatch hwalk
      · exact nomatch hwalk
      · next entries hfind =>
        split at hwalk
        · exact nomatch hwalk
        · cases rest with
          | nil => exact ⟨here, name, ⟨entries, hfind⟩, (Except.ok.inj hwalk).symm⟩
          | cons next more => exact ih (List.cons_ne_nil _ _) hwalk

/-- A place that is no directory is an entry of one. -/
theorem exists_parent_of_walk {place : Location}
    (hwalk : t.walk path [] (PathText.names path) = .ok place) (hplace : ¬ t.IsDirectory place) :
    ∃ above name, t.IsDirectory above ∧ place = above ++ [name] := by
  obtain ⟨above, name, habove, rfl⟩ := exists_step_of_walk (PathText.names_ne_nil path) hwalk
  refine ⟨above, name, habove, ?_⟩
  rw [step] at hplace ⊢
  by_cases hstays : PathText.stays name = true
  · rw [if_pos hstays] at hplace
    exact absurd habove hplace
  rw [if_neg hstays] at hplace ⊢
  by_cases hup : (name == "..") = true
  · rw [if_pos hup] at hplace
    refine absurd ?_ hplace
    rcases List.eq_nil_or_concat above with rfl | ⟨before, last, rfl⟩
    · exact habove
    · rw [List.concat_eq_append, List.dropLast_concat]
      rw [List.concat_eq_append] at habove
      exact habove.above
  · rw [if_neg hup]

/-! ## Paths -/

/-- A path that may be followed. -/
structure Followed (path : String) : Prop where
  noZero : path.toList.contains '\x00' = false
  nonempty : (path == "") = false
  short : ¬ PathText.pathLimit < path.utf8ByteSize

theorem resolve_eq_of_followed (h : Followed path) :
    t.resolve path
      = (t.walk path [] (PathText.names path)).map fun place => ⟨place, t.find? place⟩ := by
  rw [resolve, h.noZero, if_neg Bool.false_ne_true, h.nonempty, if_neg Bool.false_ne_true,
    if_neg h.short]
  exact follow_eq .start (PathText.names path)

/-- **A path is resolved** if it can be followed, to the place where walking its names ends. -/
theorem resolve_eq_ok_iff {found : Destination} :
    t.resolve path = .ok found
      ↔ Followed path ∧ t.walk path [] (PathText.names path) = .ok found.place
        ∧ found.target = t.find? found.place := by
  constructor
  · intro h
    have hfollowed : Followed path := by
      rw [resolve] at h
      by_cases hzero : path.toList.contains '\x00' = true
      · rw [if_pos hzero] at h
        exact nomatch h
      by_cases hempty : (path == "") = true
      · rw [if_neg hzero, if_pos hempty] at h
        exact nomatch h
      by_cases hlong : PathText.pathLimit < path.utf8ByteSize
      · rw [if_neg hzero, if_neg hempty, if_pos hlong] at h
        exact nomatch h
      exact ⟨Bool.eq_false_iff.mpr hzero, Bool.eq_false_iff.mpr hempty, hlong⟩
    rw [resolve_eq_of_followed hfollowed] at h
    cases hwalk : t.walk path [] (PathText.names path) with
    | error fault =>
        rw [hwalk] at h
        exact nomatch h
    | ok place =>
        rw [hwalk] at h
        obtain rfl := Except.ok.inj h
        exact ⟨hfollowed, rfl, rfl⟩
  · rintro ⟨hfollowed, hwalk, htarget⟩
    rw [resolve_eq_of_followed hfollowed, hwalk]
    obtain ⟨place, target⟩ := found
    obtain rfl : target = t.find? place := htarget
    rfl

/-! ## Writing and reading -/

/-- **What is written to a path is read from it.** -/
theorem read_of_write {bytes : List UInt8} {t' : FileTree} (h : t.write path bytes = .ok t') :
    t'.read path = .ok bytes := by
  rw [write] at h
  cases hresolve : t.resolve path with
  | error fault =>
      rw [hresolve] at h
      exact nomatch h
  | ok found =>
      obtain ⟨hfollowed, hwalk, htarget⟩ := resolve_eq_ok_iff.mp hresolve
      have hfree : ¬ t.IsDirectory found.place := by
        rintro ⟨entries, hfind⟩
        rw [hresolve] at h
        dsimp only [bind, Except.bind] at h
        rw [htarget, hfind] at h
        exact nomatch h
      have hset : t' = t.set found.place (.file bytes) := by
        rw [hresolve] at h
        dsimp only [bind, Except.bind] at h
        split at h
        · exact nomatch h
        · exact (Except.ok.inj h).symm
      obtain ⟨above, name, habove, hplace⟩ := exists_parent_of_walk hwalk hfree
      have hthere : t'.find? found.place = some (.file bytes) := by
        rw [hset, hplace]
        exact find?_set habove name _
      have hresolve' : t'.resolve path = .ok ⟨found.place, some (.file bytes)⟩ := by
        refine resolve_eq_ok_iff.mpr ⟨hfollowed, walk_mono (fun place hdirectory => ?_) hwalk,
          hthere.symm⟩
        rw [hset]
        exact hdirectory.set hfree _
      rw [read, hresolve']
      rfl

/-- What is saved is read back. -/
theorem read_of_save {text : String} {t' : FileTree} (h : t.save path text = .ok t') :
    t'.read path = .ok (textBytes text) := by
  rw [save] at h
  split at h
  · exact nomatch h
  · exact read_of_write h

/-- Whether a file can be written does not depend on what is written. -/
theorem exists_write {bytes : List UInt8} {t' : FileTree} (h : t.write path bytes = .ok t')
    (others : List UInt8) : ∃ t'', t.write path others = .ok t'' := by
  rw [write] at *
  cases hresolve : t.resolve path with
  | error fault =>
      rw [hresolve] at h
      exact nomatch h
  | ok found =>
      rw [hresolve] at h
      dsimp only [bind, Except.bind] at *
      split at h
      · exact nomatch h
      · exact ⟨_, rfl⟩

/-- Where one text can be saved, so can any other one. -/
theorem exists_save {text : String} {t' : FileTree} (h : t.save path text = .ok t')
    (other : String) : ∃ t'', t.save path other = .ok t'' := by
  rw [save] at *
  split at h
  · exact nomatch h
  · exact exists_write h _

/-- Where one text can be saved to a tidy path, so can any other one. -/
theorem exists_saveTidy {text : String} {t' : FileTree} (h : t.saveTidy path text = .ok t')
    (other : String) : ∃ t'', t.saveTidy path other = .ok t'' := by
  rw [saveTidy] at *
  cases hensure : t.ensureTidy saveTidyReach
      (PathText.directories (PathText.parent (PathText.tidy path))) with
  | error fault =>
      rw [hensure] at h
      exact nomatch h
  | ok made =>
      rw [hensure] at h
      exact exists_write h _

/-! ## Entries of a directory -/

/-- A name that an entry of a directory may have. -/
structure EntryName (name : String) : Prop where
  noSlash : '/' ∉ name.toList
  noZero : '\x00' ∉ name.toList
  moves : PathText.stays name = false
  down : (name == "..") = false

instance (name : String) : Decidable (EntryName name) :=
  decidable_of_iff ('/' ∉ name.toList ∧ '\x00' ∉ name.toList ∧ PathText.stays name = false
      ∧ (name == "..") = false)
    ⟨fun h => ⟨h.1, h.2.1, h.2.2.1, h.2.2.2⟩, fun h => ⟨h.noSlash, h.noZero, h.moves, h.down⟩⟩

/-- To walk along names is to walk along some of them and then along the others. -/
theorem walk_append (here : Location) (names more : List String) :
    t.walk path here (names ++ more)
      = t.walk path here names >>= fun place => t.walk path place more := by
  induction names generalizing here with
  | nil => rfl
  | cons name rest ih =>
      rw [List.cons_append, walk, walk]
      split
      · rfl
      · rfl
      · split
        · rfl
        · exact ih _

/-- A step to an entry fails only if the name is too long, whether or not the entry is there. -/
theorem walk_entry {here : Location} {entries : List (String × FileTree)}
    (hhere : t.find? here = some (.directory entries)) {name : String} (hname : EntryName name) :
    t.walk path here [name]
      = if PathText.nameLimit < name.utf8ByteSize then .error (.tooLong path)
        else .ok (here ++ [name]) := by
  rw [walk, hhere]
  dsimp only
  rw [step, hname.moves, if_neg Bool.false_ne_true, hname.down, if_neg Bool.false_ne_true]
  rfl

/-- A name that stays leads nowhere. -/
theorem walk_stays {here : Location} (hhere : t.IsDirectory here) {name : String}
    (hstays : PathText.stays name = true) (hshort : ¬ PathText.nameLimit < name.utf8ByteSize)
    (rest : List String) : t.walk path here (name :: rest) = t.walk path here rest := by
  obtain ⟨entries, hfind⟩ := hhere
  rw [walk, hfind]
  dsimp only
  rw [if_neg hshort, step, if_pos hstays]

/-- The path of an entry leads on from the directory. -/
theorem walk_child {directory : String} {place : Location}
    (hwalk : t.walk directory [] (PathText.names directory) = .ok place)
    (hplace : t.IsDirectory place) {name : String} (hname : EntryName name) :
    t.walk path [] (PathText.names (PathText.child directory name)) = t.walk path place [name] := by
  have hroot : t.IsDirectory [] := IsDirectory.above hplace
  have hnames : PathText.names name = [name] := by
    rw [PathText.names, PathText.pieces_of_notMem hname.noSlash]
    exact congrArg (fun s => [s]) String.ofList_toList
  have hbehind (before : String) :
      PathText.names (before ++ "/" ++ name) = PathText.names before ++ [name] := by
    rw [← hnames, PathText.names, String.toList_append, String.toList_append, List.append_assoc]
    show (PathText.pieces (before.toList ++ '/' :: name.toList)).map String.ofList = _
    rw [PathText.pieces_append, List.map_append]
    rfl
  rw [PathText.child]
  by_cases hdot : (directory == ".") = true
  · obtain rfl := beq_iff_eq.mp hdot
    have hstay : t.walk "." [] ["."] = .ok [] := walk_stays hroot rfl (by decide) []
    obtain rfl := Except.ok.inj (hstay.symm.trans hwalk)
    rw [if_pos hdot, hnames]
  rw [if_neg hdot]
  by_cases hslash : (directory == "/") = true
  · obtain rfl := beq_iff_eq.mp hslash
    have hstay : t.walk "/" [] ["", ""] = .ok [] := by
      rw [walk_stays hroot rfl (by decide), walk_stays hroot rfl (by decide), walk]
    obtain rfl := Except.ok.inj (hstay.symm.trans hwalk)
    have hsplit : "/" ++ name = "" ++ "/" ++ name := by
      rw [String.empty_append]
    rw [if_pos hslash, hsplit, hbehind]
    exact walk_stays hroot rfl (by decide) [name]
  · rw [if_neg hslash, hbehind, walk_append, walk_mono (fun _ => id) hwalk]
    rfl

/-- The path of an entry is that of the directory with the name behind it. -/
theorem toList_child (directory name : String) :
    ∃ before : List Char, (PathText.child directory name).toList = before ++ name.toList
      ∧ ∀ c ∈ before, c ∈ directory.toList ∨ c = '/' := by
  rw [PathText.child]
  split
  · exact ⟨[], rfl, nofun⟩
  · split
    · refine ⟨['/'], String.toList_append, fun c hc => Or.inr (List.mem_singleton.mp hc)⟩
    · refine ⟨directory.toList ++ ['/'], ?_, fun c hc => ?_⟩
      · rw [String.toList_append, String.toList_append]
        rfl
      · exact (List.mem_append.mp hc).imp_right List.mem_singleton.mp

/-- The path of an entry may be followed, unless it is too long. -/
theorem resolve_child_eq {directory : String} (h : Followed directory) {name : String}
    (hname : EntryName name) :
    t.resolve (PathText.child directory name)
      = if PathText.pathLimit < (PathText.child directory name).utf8ByteSize then
          .error (.tooLong (PathText.child directory name))
        else (t.walk (PathText.child directory name) []
          (PathText.names (PathText.child directory name))).map
            fun place => ⟨place, t.find? place⟩ := by
  obtain ⟨before, htext, hbefore⟩ := toList_child directory name
  have hzero : (PathText.child directory name).toList.contains '\x00' = false := by
    rw [htext, Bool.eq_false_iff, Ne, List.contains_iff_mem, List.mem_append, not_or]
    refine ⟨fun hmem => ?_, hname.noZero⟩
    have hdirectory := hbefore _ hmem
    simp only [← List.contains_iff_mem, h.noZero] at hdirectory
    simp at hdirectory
  have hempty : (PathText.child directory name == "") = false := by
    rw [beq_eq_false_iff_ne]
    intro heq
    rw [heq] at htext
    have hnil : name = "" := by
      rw [← String.toList_inj]
      exact (List.append_eq_nil_iff.mp htext.symm).2
    have hmoves := hname.moves
    rw [hnil] at hmoves
    exact absurd hmoves (by decide)
  by_cases hlong : PathText.pathLimit < (PathText.child directory name).utf8ByteSize
  · rw [if_pos hlong, resolve, hzero, if_neg Bool.false_ne_true, hempty, if_neg Bool.false_ne_true,
      if_pos hlong]
  · rw [if_neg hlong]
    exact resolve_eq_of_followed ⟨hzero, hempty, hlong⟩

/-- **What is at the path of an entry** is what the directory has under its name. -/
theorem resolve_child {directory : String} {place : Location}
    {entries : List (String × FileTree)}
    (h : t.resolve directory = .ok ⟨place, some (.directory entries)⟩) {name : String}
    (hname : EntryName name) :
    t.resolve (PathText.child directory name)
      = if PathText.pathLimit < (PathText.child directory name).utf8ByteSize
          ∨ PathText.nameLimit < name.utf8ByteSize then
          .error (.tooLong (PathText.child directory name))
        else .ok ⟨place ++ [name], entries.lookup name⟩ := by
  obtain ⟨hfollowed, hwalk, htarget⟩ := resolve_eq_ok_iff.mp h
  have hplace : t.find? place = some (.directory entries) := htarget.symm
  rw [resolve_child_eq hfollowed hname, walk_child hwalk ⟨entries, hplace⟩ hname,
    walk_entry hplace hname]
  by_cases hlong : PathText.pathLimit < (PathText.child directory name).utf8ByteSize
  · rw [if_pos hlong, if_pos (Or.inl hlong)]
  rw [if_neg hlong]
  by_cases hname' : PathText.nameLimit < name.utf8ByteSize
  · rw [if_pos hname', if_pos (Or.inr hname')]
    rfl
  · rw [if_neg hname', if_neg (not_or.mpr ⟨hlong, hname'⟩), ← find?_entry hplace name]
    rfl

end FileTree

end SegmentFit
