import AssetUsage.Proofs.Tree.Lookup

/-!
# Edits of one file

A file is written or removed at a place. Everywhere else the same files stay
(`Edits.sameElsewhere`), although writing makes the directories that are missing on the way and
removing leaves those that become empty. A file that stands on the way, or a directory at the place,
would have to give way, and such an edit is none of one file.
-/

namespace AssetUsage

namespace Listing

variable {listing : Listing} {wanted other : Segment} {entry : Entry}

/-- What was inserted is found. -/
theorem find?_insert_self : (listing.insert wanted entry).find? wanted = some entry := by
  have front (rest : Listing) : (cons wanted entry rest).find? wanted = some entry := by
    rw [find?_cons, if_pos rfl]
  induction listing with
  | nil => exact front .nil
  | file name content rest ih | directory name inner rest _ ih =>
    simp only [insert]
    split
    · exact front _
    · exact front _
    · next order =>
      have differs : name ≠ wanted := by
        rintro rfl
        rw [Std.ReflOrd.compare_self] at order
        contradiction
      simp only [find?, if_neg differs, ih]

/-- Inserting changes nothing about other names. -/
theorem find?_insert_of_ne (differs : other ≠ wanted) :
    (listing.insert wanted entry).find? other = listing.find? other := by
  have front (rest : Listing) : (cons wanted entry rest).find? other = rest.find? other := by
    rw [find?_cons, if_neg differs.symm]
  induction listing with
  | nil => exact front .nil
  | file name content rest ih | directory name inner rest _ ih =>
    simp only [insert]
    split
    · exact front _
    · next order =>
      obtain rfl := Std.LawfulEqCmp.compare_eq_iff_eq.1 order
      rw [front, find?, if_neg differs.symm]
    · simp only [find?, ih]

/-- What was erased is not found. -/
theorem find?_erase_self (wellFormed : listing.WellFormed) :
    (listing.erase wanted).find? wanted = none := by
  induction listing with
  | nil => rfl
  | file name content rest ih | directory name inner rest _ ih =>
    have above : Above name rest := wellFormed.2.1
    simp only [erase]
    split
    · next same => exact find?_of_above (same ▸ above)
    · next differs =>
      simp only [find?, if_neg differs]
      exact ih (by simp_all [WellFormed])

/-- Erasing changes nothing about other names. -/
theorem find?_erase_of_ne (differs : other ≠ wanted) :
    (listing.erase wanted).find? other = listing.find? other := by
  induction listing with
  | nil => rfl
  | file name content rest ih | directory name inner rest _ ih =>
    simp only [erase]
    split
    · next same => simp only [find?, same, if_neg differs.symm]
    · simp only [find?, ih]

/-- A chain goes on at the entry of its first name. -/
theorem at?_cons (name : Segment) (more : List Segment) (listing : Listing) :
    Entry.at? (name :: more) (.directory listing) = (listing.find? name).bind (Entry.at? more) :=
  rfl

/-- Behind a name, a longer chain goes on in the directory of that name. -/
theorem at?_innerOf (name next : Segment) (more : List Segment) (listing : Listing) :
    Entry.at? (next :: more) (.directory (listing.innerOf name)) =
      Entry.at? (name :: next :: more) (.directory listing) := by
  rw [at?_cons name, innerOf]
  cases listing.find? name with
  | none => rfl
  | some entry => cases entry <;> rfl

/-- Where a name is that of no directory, no longer chain leads anywhere. -/
theorem at?_eq_none {name : Segment} (next : Segment) (more : List Segment) {listing : Listing}
    (free : ∀ inner, listing.find? name ≠ some (.directory inner)) :
    Entry.at? (name :: next :: more) (.directory listing) = none := by
  rw [at?_cons]
  cases found : listing.find? name with
  | none => rfl
  | some entry =>
    cases entry with
    | file content => rfl
    | directory inner => exact absurd found (free inner)

/-- Writing further down puts a directory in the place of its name. -/
theorem write_cons_cons (content : Content) (name next : Segment) (more : List Segment)
    (listing : Listing) :
    listing.write content (name :: next :: more) =
      listing.insert name (.directory ((listing.innerOf name).write content (next :: more))) := rfl

/-- Removing further down goes on in the directory of the name, if there is one. -/
theorem remove_cons_cons (name next : Segment) (more : List Segment) (listing : Listing) :
    listing.remove (name :: next :: more) =
      match listing.find? name with
      | some (.directory inner) => listing.insert name (.directory (inner.remove (next :: more)))
      | _ => listing := rfl

/-- Writing at a chain of names changes nothing behind another first name. -/
theorem find?_write_of_ne {first name : Segment} (differs : first ≠ name) (more : List Segment)
    (content : Content) (listing : Listing) :
    (listing.write content (name :: more)).find? first = listing.find? first := by
  cases more with
  | nil => exact find?_insert_of_ne differs
  | cons next others => exact find?_insert_of_ne differs

/-- Removing at a chain of names changes nothing behind another first name. -/
theorem find?_remove_of_ne {first name : Segment} (differs : first ≠ name) (more : List Segment)
    (listing : Listing) : (listing.remove (name :: more)).find? first = listing.find? first := by
  cases more with
  | nil => exact find?_erase_of_ne differs
  | cons next others =>
    rw [remove_cons_cons]
    split
    · exact find?_insert_of_ne differs
    · rfl

/-- Writing a file where no directory is, through no file, leaves the files elsewhere. -/
theorem at?_write_file_iff {place names : List Segment} {listing : Listing}
    (content : Content) {found : Content}
    (way : ∀ front, front <+: place → front ≠ place → ∀ other,
      Entry.at? front (.directory listing) ≠ some (.file other))
    (free : ∀ inner, Entry.at? place (.directory listing) ≠ some (.directory inner))
    (elsewhere : names ≠ place) :
    Entry.at? names (.directory (listing.write content place)) = some (.file found) ↔
      Entry.at? names (.directory listing) = some (.file found) := by
  induction place generalizing listing names with
  | nil => exact absurd rfl (free listing)
  | cons name more ih =>
    cases names with
    | nil => simp [Entry.at?]
    | cons first others =>
      by_cases same : first = name
      · subst same
        cases more with
        | nil =>
          obtain ⟨next, rest, rfl⟩ := List.exists_cons_of_ne_nil (by simpa using elsewhere)
          have noDirectory : ∀ inner, listing.find? first ≠ some (.directory inner) :=
            fun inner found => free inner (by rw [at?_cons, found]; rfl)
          have written : Entry.at? (first :: next :: rest)
              (.directory (listing.insert first (.file content))) = none := by
            rw [at?_cons, find?_insert_self]
            rfl
          rw [write, written, at?_eq_none next rest noDirectory]
        | cons next rest =>
          have inside : Entry.at? (first :: others)
              (.directory (listing.write content (first :: next :: rest))) =
              Entry.at? others
                (.directory ((listing.innerOf first).write content (next :: rest))) := by
            rw [write_cons_cons, at?_cons, find?_insert_self]
            rfl
          have wayInside : ∀ front, front <+: next :: rest → front ≠ next :: rest → ∀ other,
              Entry.at? front (.directory (listing.innerOf first)) ≠ some (.file other) := by
            intro front before shorter other
            cases front with
            | nil => simp [Entry.at?]
            | cons step steps =>
              rw [at?_innerOf]
              exact way _ ((List.prefix_cons_inj first).2 before) (by simpa using shorter) other
          have freeInside : ∀ inner, Entry.at? (next :: rest)
              (.directory (listing.innerOf first)) ≠ some (.directory inner) := by
            rw [at?_innerOf]
            exact free
          rw [inside, ih wayInside freeInside (by simpa using elsewhere)]
          cases others with
          | nil =>
            have noFile := way [first] ((List.prefix_cons_inj first).2 List.nil_prefix) (by simp)
            exact iff_of_false (by simp [Entry.at?]) (noFile found)
          | cons step steps => rw [at?_innerOf]
      · rw [at?_cons, at?_cons, find?_write_of_ne same]

/-- Removing what is no directory leaves the files elsewhere. -/
theorem at?_remove_file_iff {place names : List Segment} {listing : Listing} {found : Content}
    (wellFormed : listing.WellFormed)
    (free : ∀ inner, Entry.at? place (.directory listing) ≠ some (.directory inner))
    (elsewhere : names ≠ place) :
    Entry.at? names (.directory (listing.remove place)) = some (.file found) ↔
      Entry.at? names (.directory listing) = some (.file found) := by
  induction place generalizing listing names with
  | nil => exact absurd rfl (free listing)
  | cons name more ih =>
    cases names with
    | nil => simp [Entry.at?]
    | cons first others =>
      by_cases same : first = name
      · subst same
        cases more with
        | nil =>
          obtain ⟨next, rest, rfl⟩ := List.exists_cons_of_ne_nil (by simpa using elsewhere)
          have noDirectory : ∀ inner, listing.find? first ≠ some (.directory inner) :=
            fun inner found => free inner (by rw [at?_cons, found]; rfl)
          have removed : Entry.at? (first :: next :: rest) (.directory (listing.erase first)) =
              none := by
            rw [at?_cons, find?_erase_self wellFormed]
            rfl
          rw [remove, removed, at?_eq_none next rest noDirectory]
        | cons next rest =>
          rw [remove_cons_cons]
          split
          · next inner entered =>
            rw [at?_cons, find?_insert_self, at?_cons, entered, Option.bind_some, Option.bind_some]
            refine ih (wellFormed_of_find? wellFormed entered) (fun below reached => ?_)
              (by simpa using elsewhere)
            exact free below (by rw [at?_cons, entered]; exact reached)
          · rfl
      · rw [at?_cons, at?_cons, find?_remove_of_ne same]

end Listing

namespace Tree

/-- The entry at the end of a chain of names, from the root on. -/
theorem entryAt?_eq_at? (tree : Tree) (names : List Segment) :
    tree.entryAt? names = Entry.at? names (.directory tree.root) :=
  tree.entryAt?_append [] names

/-- One file is written or removed. -/
inductive Edits (tree : Tree) (file : Path) : Tree → Prop
  /-- The file is written through directories, or through what is not there yet. -/
  | write (content : Content)
      (way : ∀ front, front <+: file.placeNames → front ≠ file.placeNames → ∀ other,
        tree.entryAt? front ≠ some (.file other))
      (free : ∀ inner, tree.entryAt? file.placeNames ≠ some (.directory inner)) :
      Edits tree file (tree.write file content)
  | remove (free : ∀ inner, tree.entryAt? file.placeNames ≠ some (.directory inner)) :
      Edits tree file (tree.remove file)

/-- On the way to a directory there is no file. -/
theorem entryAt?_ne_file {tree : Tree} {dir front : List Segment} {inner : Listing}
    (entered : tree.entryAt? dir = some (.directory inner)) (before : front <+: dir)
    (other : Content) : tree.entryAt? front ≠ some (.file other) := by
  intro found
  obtain ⟨rest, rfl⟩ := before
  rw [entryAt?_append, found, Option.bind_some] at entered
  cases rest with
  | nil => simp [Entry.at?] at entered
  | cons next others => contradiction

/-- Writing is an edit of one file where a name is new in a directory. -/
theorem Edits.write_new {tree : Tree} {file : Path} {dir more : List Segment} {name : Segment}
    {inner : Listing} (content : Content) (place : file.placeNames = dir ++ name :: more)
    (entered : tree.entryAt? dir = some (.directory inner)) (new : inner.find? name = none) :
    tree.Edits file (tree.write file content) := by
  have behind (rest : List Segment) : tree.entryAt? (dir ++ name :: rest) = none := by
    rw [entryAt?_append, entered, Option.bind_some, Listing.at?_cons, new, Option.bind_none]
  refine .write content ?_ ?_
  · intro front before shorter other
    rw [place] at before
    rcases List.prefix_or_prefix_of_prefix before (List.prefix_append dir _) with above | below
    · exact entryAt?_ne_file entered above other
    · obtain ⟨rest, rfl⟩ := below
      cases rest with
      | nil => exact entryAt?_ne_file entered (by simp) other
      | cons next others =>
        rw [List.prefix_append_right_inj, List.cons_prefix_cons] at before
        rw [before.1, behind]
        exact (Option.some_ne_none _).symm
  · intro below
    rw [place, behind]
    exact (Option.some_ne_none _).symm

/-- Two trees have the same files everywhere but at one place. -/
def SameElsewhere (tree other : Tree) (place : List Segment) : Prop :=
  ∀ names content, names ≠ place →
    (other.entryAt? names = some (.file content) ↔ tree.entryAt? names = some (.file content))

/-- Editing one file leaves the files elsewhere. -/
theorem Edits.sameElsewhere {tree after : Tree} {file : Path} (edit : tree.Edits file after) :
    tree.SameElsewhere after file.placeNames := by
  intro names content elsewhere
  rw [entryAt?_eq_at?, entryAt?_eq_at?]
  cases edit with
  | write written way free =>
    simp only [entryAt?_eq_at?] at way free
    exact Listing.at?_write_file_iff written way free elsewhere
  | remove free =>
    simp only [entryAt?_eq_at?] at free
    exact Listing.at?_remove_file_iff tree.wellFormed free elsewhere

namespace SameElsewhere

variable {tree other : Tree} {place names : List Segment}

/-- Neither tree comes first. -/
theorem symm (same : tree.SameElsewhere other place) : other.SameElsewhere tree place :=
  fun names content elsewhere => (same names content elsewhere).symm

/-- Canonical paths elsewhere lead to the same files. -/
theorem find_file_iff (same : tree.SameElsewhere other place)
    (named : ∀ name ∈ names, Path.NamesEntry name) (elsewhere : names ≠ place)
    {content : Content} :
    other.find (Path.assemble .root names) = .ok (.file content) ↔
      tree.find (Path.assemble .root names) = .ok (.file content) := by
  rw [find_assemble_iff named, find_assemble_iff named, same names content elsewhere]

end SameElsewhere

end Tree

end AssetUsage
