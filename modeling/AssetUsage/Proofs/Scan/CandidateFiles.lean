import AssetUsage.Proofs.Scan.WalkOrder

/-!
# The candidates of a scan

Without ignore files, the candidates below a root are the regular files there that have one of the
extensions and to which no directory of version control leads. The walk goes through a listing entry
by entry, while a chain of names is followed from directory to directory; the two meet in what a
chain can start with (`isFoundIn_file_iff`, `isFoundIn_directory_iff`), because the names of a
listing differ. Ignore files only leave candidates out (`candidates_exact`).
-/

namespace AssetUsage

/-- The entry at the end of a chain of names from an entry. -/
def Entry.at? : List Segment → Entry → Option Entry
  | [], entry => some entry
  | _ :: _, .file _ => none
  | name :: more, .directory inner => (inner.find? name).bind (Entry.at? more)

/-- A chain of names is followed by whatever looks for a name in a directory and finds none in a
file. -/
theorem Entry.foldlM_eq_at? {step : Entry → Segment → Option Entry}
    (inFile : ∀ content name, step (.file content) name = none)
    (inDirectory : ∀ inner name, step (.directory inner) name = inner.find? name)
    (names : List Segment) (entry : Entry) : names.foldlM step entry = at? names entry := by
  induction names generalizing entry with
  | nil => rfl
  | cons name others ih =>
    cases entry with
    | file content => rw [List.foldlM_cons, inFile, at?, Option.bind_eq_bind, Option.bind_none]
    | directory inner =>
      rw [List.foldlM_cons, inDirectory, at?]
      exact Option.bind_congr fun next _ => ih next

/-- Names are followed one after the other. -/
theorem Tree.entryAt?_append (tree : Tree) (names more : List Segment) :
    tree.entryAt? (names ++ more) = (tree.entryAt? names).bind (Entry.at? more) := by
  rw [entryAt?, List.foldlM_append, ← entryAt?]
  exact Option.bind_congr fun entry _ =>
    Entry.foldlM_eq_at? (fun _ _ => rfl) (fun _ _ => rfl) more entry

namespace Listing

/-- A name that is found is one of the names of the listing. -/
theorem mem_names_of_find? {wanted : Segment} {entry : Entry} {listing : Listing}
    (h : listing.find? wanted = some entry) : wanted ∈ listing.names := by
  induction listing with
  | nil => contradiction
  | file name content rest ih | directory name inner rest _ ih =>
    simp only [find?] at h
    split at h
    · next same => exact same ▸ List.mem_cons_self
    · exact List.mem_cons_of_mem _ (ih h)

/-- An entry in front of a listing is found first. -/
theorem find?_cons (wanted name : Segment) (entry : Entry) (rest : Listing) :
    (cons name entry rest).find? wanted =
      if name = wanted then some entry else rest.find? wanted := by
  cases entry <;> rfl

/-- A name in front of a listing is not found in it. -/
theorem find?_of_above {name : Segment} {listing : Listing} (above : Above name listing) :
    listing.find? name = none := by
  refine Option.eq_none_iff_forall_ne_some.2 fun entry found => ?_
  have ordered := above name (mem_names_of_find? found)
  rw [Std.ReflOrd.compare_self] at ordered
  contradiction

end Listing

namespace Scan

/-- The chain of names leads from a listing to a regular file with one of the extensions, through no
directory of version control. -/
structure IsFoundIn (extensions : List (List Char)) (listing : Listing) (chain : List Segment) :
    Prop where
  file : ∃ content, Entry.at? chain (.directory listing) = some (.file content)
  extension : chain.getLast?.any (hasExtension extensions) = true
  visible : ∀ dir ∈ chain.dropLast, dir ∉ versionControlNames

variable {tree : Tree} {extensions : List (List Char)} {respectIgnore : Bool}

/-- At least one name leads to a file in a listing. -/
theorem IsFoundIn.ne_nil {listing : Listing} {chain : List Segment}
    (found : IsFoundIn extensions listing chain) : chain ≠ [] := by
  rintro rfl
  obtain ⟨content, same⟩ := found.file
  simp [Entry.at?] at same

/-- No names lead to a file in a listing without entries. -/
theorem not_isFoundIn_nil {chain : List Segment} : ¬ IsFoundIn extensions .nil chain := by
  intro found
  obtain ⟨content, reached⟩ := found.file
  cases chain with
  | nil => exact found.ne_nil rfl
  | cons name more => contradiction

/-- What a chain leads to depends on the entry that its first name stands for. -/
theorem isFoundIn_congr {listing other : Listing} {name : Segment} {more : List Segment}
    (same : listing.find? name = other.find? name) :
    IsFoundIn extensions listing (name :: more) ↔ IsFoundIn extensions other (name :: more) := by
  have entries : Entry.at? (name :: more) (.directory listing) =
      Entry.at? (name :: more) (.directory other) := by
    rw [Entry.at?, Entry.at?, same]
  constructor
  · rintro ⟨file, extension, visible⟩
    exact ⟨entries ▸ file, extension, visible⟩
  · rintro ⟨file, extension, visible⟩
    exact ⟨entries ▸ file, extension, visible⟩

/-- A chain that starts with the name of a file ends there. -/
theorem isFoundIn_of_file {listing : Listing} {name : Segment} {more : List Segment}
    {content : Content} (entry : listing.find? name = some (.file content)) :
    IsFoundIn extensions listing (name :: more) ↔
      more = [] ∧ hasExtension extensions name = true := by
  constructor
  · rintro ⟨⟨found, reached⟩, extension, -⟩
    rw [Entry.at?, entry, Option.bind_some] at reached
    cases more with
    | nil => exact ⟨rfl, by simpa using extension⟩
    | cons next others => contradiction
  · rintro ⟨rfl, extension⟩
    exact ⟨⟨content, by rw [Entry.at?, entry]; rfl⟩, by simpa using extension, by simp⟩

/-- A chain that starts with the name of a directory goes on in it, unless the directory belongs to
version control. -/
theorem isFoundIn_of_directory {listing inner : Listing} {name : Segment} {more : List Segment}
    (entry : listing.find? name = some (.directory inner)) :
    IsFoundIn extensions listing (name :: more) ↔
      name ∉ versionControlNames ∧ IsFoundIn extensions inner more := by
  have reached : Entry.at? (name :: more) (.directory listing) =
      Entry.at? more (.directory inner) := by
    rw [Entry.at?, entry, Option.bind_some]
  constructor
  · rintro ⟨file, extension, visible⟩
    rw [reached] at file
    cases more with
    | nil =>
      obtain ⟨content, same⟩ := file
      simp [Entry.at?] at same
    | cons next others =>
      rw [List.dropLast_cons_of_ne_nil (List.cons_ne_nil next others),
        List.forall_mem_cons] at visible
      exact ⟨visible.1, file, by simpa using extension, visible.2⟩
  · rintro ⟨own, found⟩
    have nonempty := found.ne_nil
    obtain ⟨file, extension, visible⟩ := found
    refine ⟨reached ▸ file, ?_, ?_⟩
    · rwa [List.getLast?_cons_of_ne_nil nonempty]
    · rw [List.dropLast_cons_of_ne_nil nonempty]
      exact List.forall_mem_cons.2 ⟨own, visible⟩

/-- A chain leads to the entry in front of a listing or to what is behind it. -/
theorem isFoundIn_cons_iff {name : Segment} (entry : Entry) {rest : Listing}
    {chain : List Segment} (above : Listing.Above name rest) :
    IsFoundIn extensions (Listing.cons name entry rest) chain ↔
      (∃ more, chain = name :: more ∧ IsFoundIn extensions (Listing.cons name entry .nil) chain) ∨
        IsFoundIn extensions rest chain := by
  cases chain with
  | nil =>
    refine iff_of_false (fun found => found.ne_nil rfl) ?_
    rintro (⟨more, same, -⟩ | found)
    · contradiction
    · exact found.ne_nil rfl
  | cons first more =>
    by_cases same : name = first
    · subst same
      have front : (Listing.cons name entry rest).find? name =
          (Listing.cons name entry .nil).find? name := by
        rw [Listing.find?_cons, Listing.find?_cons, if_pos rfl, if_pos rfl]
      have behind : ¬ IsFoundIn extensions rest (name :: more) := by
        rintro ⟨⟨found, reached⟩, -, -⟩
        rw [Entry.at?, Listing.find?_of_above above] at reached
        contradiction
      rw [isFoundIn_congr front, or_iff_left behind]
      exact ⟨fun found => ⟨more, rfl, found⟩, fun ⟨_, _, found⟩ => found⟩
    · have later : (Listing.cons name entry rest).find? first = rest.find? first := by
        rw [Listing.find?_cons, if_neg same]
      rw [isFoundIn_congr later, or_iff_right]
      rintro ⟨others, whole, -⟩
      exact same (List.cons.inj whole).1.symm

/-- In a listing that starts with a file, a chain leads to that file or to what is behind it. -/
theorem isFoundIn_file_iff {name : Segment} {content : Content} {rest : Listing}
    {chain : List Segment} (above : Listing.Above name rest) :
    IsFoundIn extensions (.file name content rest) chain ↔
      (chain = [name] ∧ hasExtension extensions name = true) ∨ IsFoundIn extensions rest chain := by
  have entry : (Listing.file name content .nil).find? name = some (.file content) := if_pos rfl
  refine (isFoundIn_cons_iff (.file content) above).trans (or_congr_left ?_)
  constructor
  · rintro ⟨more, rfl, found⟩
    obtain ⟨rfl, extended⟩ := (isFoundIn_of_file entry).1 found
    exact ⟨rfl, extended⟩
  · rintro ⟨rfl, extended⟩
    exact ⟨[], rfl, (isFoundIn_of_file entry).2 ⟨rfl, extended⟩⟩

/-- In a listing that starts with a directory, a chain leads into that directory, unless it belongs
to version control, or to what is behind it. -/
theorem isFoundIn_directory_iff {name : Segment} {inner rest : Listing} {chain : List Segment}
    (above : Listing.Above name rest) :
    IsFoundIn extensions (.directory name inner rest) chain ↔
      (∃ more, chain = name :: more ∧ name ∉ versionControlNames ∧
        IsFoundIn extensions inner more) ∨ IsFoundIn extensions rest chain := by
  have entry : (Listing.directory name inner .nil).find? name = some (.directory inner) :=
    if_pos rfl
  refine (isFoundIn_cons_iff (.directory inner) above).trans (or_congr_left ?_)
  constructor
  · rintro ⟨more, rfl, found⟩
    exact ⟨more, rfl, (isFoundIn_of_directory entry).1 found⟩
  · rintro ⟨more, rfl, found⟩
    exact ⟨more, rfl, (isFoundIn_of_directory entry).2 found⟩

/-- Without ignore files nothing is ignored. -/
theorem isIgnored_nil (names : List Segment) (directory : Bool) :
    Ignore.isIgnored [] names directory = false := rfl

/-- Without ignore files, a walk finds exactly the chains that lead to candidates. -/
theorem mem_walk_iff {names found : List Segment} {listing : Listing}
    (wellFormed : listing.WellFormed) :
    found ∈ walk tree extensions false names [] listing ↔
      ∃ chain, found = names ++ chain ∧ IsFoundIn extensions listing chain := by
  induction listing generalizing names with
  | nil =>
    refine iff_of_false List.not_mem_nil ?_
    rintro ⟨chain, -, found⟩
    exact not_isFoundIn_nil found
  | file name content rest ih =>
    obtain ⟨-, above, restWellFormed⟩ := wellFormed
    simp only [walk, isIgnored_nil, Bool.not_false, Bool.and_true, isFoundIn_file_iff above]
    split
    · next extended =>
      rw [List.mem_cons, ih restWellFormed]
      constructor
      · rintro (rfl | ⟨chain, rfl, found⟩)
        · exact ⟨[name], rfl, .inl ⟨rfl, extended⟩⟩
        · exact ⟨chain, rfl, .inr found⟩
      · rintro ⟨chain, rfl, ⟨rfl, -⟩ | found⟩
        · exact .inl rfl
        · exact .inr ⟨chain, rfl, found⟩
    · next other =>
      rw [ih restWellFormed]
      simp [other]
  | directory name inner rest innerIh restIh =>
    obtain ⟨-, above, innerWellFormed, restWellFormed⟩ := wellFormed
    simp only [walk, isIgnored_nil, Bool.or_false, Bool.false_eq_true, ↓reduceIte,
      isFoundIn_directory_iff above]
    split
    · next hidden =>
      have hidden : name ∈ versionControlNames := List.contains_iff_mem.1 hidden
      rw [restIh restWellFormed]
      simp [hidden]
    · next visible =>
      have visible : name ∉ versionControlNames := mt List.contains_iff_mem.2 visible
      rw [List.mem_append, innerIh innerWellFormed, restIh restWellFormed]
      constructor
      · rintro (⟨more, rfl, found⟩ | ⟨chain, rfl, found⟩)
        · exact ⟨name :: more, by simp, .inl ⟨more, rfl, visible, found⟩⟩
        · exact ⟨chain, rfl, .inr found⟩
      · rintro ⟨chain, rfl, ⟨more, rfl, -, found⟩ | found⟩
        · exact .inl ⟨more, by simp, found⟩
        · exact .inr ⟨chain, rfl, found⟩

/-- Ignore files leave candidates out and change nothing else. -/
theorem walk_sublist {names : List Segment} {levels : List Ignore.Level} {listing : Listing} :
    (walk tree extensions respectIgnore names levels listing).Sublist
      (walk tree extensions false names [] listing) := by
  induction listing generalizing names levels with
  | nil => exact List.Sublist.refl []
  | file name content rest ih =>
    simp only [walk, isIgnored_nil, Bool.not_false, Bool.and_true]
    by_cases extended : hasExtension extensions name = true
    · rw [if_pos extended]
      split
      · exact ih.cons_cons _
      · exact ih.cons _
    · rw [if_neg extended, if_neg (by simp [extended])]
      exact ih
  | directory name inner rest innerIh restIh =>
    simp only [walk, isIgnored_nil, Bool.or_false, Bool.false_eq_true, ↓reduceIte]
    by_cases hidden : versionControlNames.contains name = true
    · rw [if_pos hidden, hidden, Bool.true_or, if_pos rfl]
      exact restIh
    · rw [if_neg hidden]
      split
      · exact restIh.trans (List.sublist_append_right _ _)
      · exact innerIh.append restIh

/-- The chain of names leads from a root to a regular file below it that has one of the extensions,
and no directory on the way, behind the root, belongs to version control. -/
structure IsCandidate (tree : Tree) (root : Path) (extensions : List (List Char))
    (chain : List Segment) : Prop where
  /-- The file is not the root itself. -/
  below : chain ≠ []
  file : ∃ names content, tree.locate root = .ok names ∧
    tree.entryAt? (names ++ chain) = some (.file content)
  /-- The last extension of the file, in lower case, is one of them. -/
  extension : ∃ extension ∈ extensions,
    (root.join ⟨['/'].intercalate chain⟩).extension? = some extension
  visible : ∀ dir ∈ chain.dropLast, dir ∉ versionControlNames

/-- A file name has one of the extensions if its last one is among them in lower case. -/
theorem hasExtension_iff {name : Segment} :
    hasExtension extensions name = true ↔
      ∃ extension ∈ extensions,
        (Path.extensionOfName name).map (·.map Char.toLower) = some extension := by
  unfold hasExtension
  cases (Path.extensionOfName name).map (·.map Char.toLower) <;> simp

/-- The extension of a path below a root is that of its last name. -/
theorem extension?_join_names {root : Path} {chain : List Segment} (nonempty : root.text ≠ [])
    (below : chain ≠ []) (named : ∀ name ∈ chain, Path.NamesEntry name) :
    (root.join ⟨['/'].intercalate chain⟩).extension? =
      chain.getLast?.bind fun name =>
        (Path.extensionOfName name).map (·.map Char.toLower) := by
  have last : (root.join ⟨['/'].intercalate chain⟩).fileName? = chain.getLast? := by
    rw [Path.fileName?, Path.components_join_names nonempty below named, List.getLast?_append,
      List.getLast?_map, List.getLast?_eq_some_getLast below]
    rfl
  rw [Path.extension?, last]

/-- Names that lead through a well-formed listing can stand in directories. -/
theorem namesEntry_of_at? {listing : Listing} {chain : List Segment} {entry : Entry}
    (wellFormed : listing.WellFormed)
    (reached : Entry.at? chain (.directory listing) = some entry) :
    ∀ name ∈ chain, Path.NamesEntry name := by
  have names : ∀ listing : Listing, listing.WellFormed → ∀ name ∈ listing.names,
      Path.NamesEntry name := by
    intro listing
    induction listing with
    | nil => exact fun _ name mem => absurd mem List.not_mem_nil
    | file name content rest ih =>
      exact fun wellFormed => List.forall_mem_cons.2 ⟨wellFormed.1, ih wellFormed.2.2⟩
    | directory name inner rest _ ih =>
      exact fun wellFormed => List.forall_mem_cons.2 ⟨wellFormed.1, ih wellFormed.2.2.2⟩
  induction chain generalizing listing with
  | nil => exact fun name mem => absurd mem List.not_mem_nil
  | cons first more ih =>
    obtain ⟨next, found, others⟩ := Option.bind_eq_some_iff.1 reached
    have firstNamed := names listing wellFormed first (Listing.mem_names_of_find? found)
    refine List.forall_mem_cons.2 ⟨firstNamed, ?_⟩
    cases next with
    | directory inner => exact ih (Listing.wellFormed_of_find? wellFormed found) others
    | file content =>
      cases more with
      | nil => exact fun name mem => absurd mem List.not_mem_nil
      | cons second others => contradiction

/-- Below a root that is no directory there is nothing. -/
theorem IsCandidate.root_directory {root : Path} {names chain : List Segment}
    (leads : IsCandidate tree root extensions chain) (located : tree.locate root = .ok names) :
    ∃ listing, tree.entryAt? names = some (.directory listing) := by
  obtain ⟨below, ⟨others, content, same, reached⟩, -, -⟩ := leads
  obtain rfl : names = others := Except.ok.inj (located.symm.trans same)
  rw [Tree.entryAt?_append] at reached
  obtain ⟨entry, found, reached⟩ := Option.bind_eq_some_iff.1 reached
  cases entry with
  | directory listing => exact ⟨listing, found⟩
  | file content =>
    cases chain with
    | nil => exact absurd rfl below
    | cons name more => contradiction

/-- In the directory at a root, the chains that lead to candidates are those that the walk finds. -/
theorem isCandidate_iff {root : Path} {names chain : List Segment} {listing : Listing}
    (located : tree.locate root = .ok names)
    (found : tree.entryAt? names = some (.directory listing)) :
    IsCandidate tree root extensions chain ↔ IsFoundIn extensions listing chain := by
  have nonempty := Tree.text_ne_nil_of_locate located
  have wellFormed : listing.WellFormed := Tree.wellFormed_of_entryAt? found
  have entries : tree.entryAt? (names ++ chain) = Entry.at? chain (.directory listing) := by
    rw [Tree.entryAt?_append, found, Option.bind_some]
  have extended (below : chain ≠ []) (named : ∀ name ∈ chain, Path.NamesEntry name) :
      (∃ extension ∈ extensions,
        (root.join ⟨['/'].intercalate chain⟩).extension? = some extension) ↔
        chain.getLast?.any (hasExtension extensions) = true := by
    rw [extension?_join_names nonempty below named, List.getLast?_eq_some_getLast below,
      Option.bind_some, Option.any_some, hasExtension_iff]
  constructor
  · rintro ⟨below, ⟨others, content, same, file⟩, extension, visible⟩
    obtain rfl : names = others := Except.ok.inj (located.symm.trans same)
    rw [entries] at file
    exact ⟨⟨content, file⟩, (extended below (namesEntry_of_at? wellFormed file)).1 extension,
      visible⟩
  · intro leads
    have below := leads.ne_nil
    obtain ⟨⟨content, file⟩, extension, visible⟩ := leads
    exact ⟨below, ⟨names, content, located, entries.trans file⟩,
      (extended below (namesEntry_of_at? wellFormed file)).2 extension, visible⟩

/-- Without ignore files, the candidates are the paths of all chains that lead to candidates. -/
theorem mem_candidates_iff {root file : Path} :
    file ∈ candidates tree root extensions false ↔
      ∃ chain, IsCandidate tree root extensions chain ∧
        file = root.join ⟨['/'].intercalate chain⟩ := by
  unfold candidates
  split
  · next error failed =>
    refine iff_of_false List.not_mem_nil ?_
    rintro ⟨chain, ⟨-, ⟨names, content, located, -⟩, -, -⟩, -⟩
    rw [failed] at located
    contradiction
  · next names located =>
    split
    · next listing found =>
      have wellFormed : listing.WellFormed := Tree.wellFormed_of_entryAt? found
      simp only [Bool.false_eq_true, ↓reduceIte, List.mem_map, mem_walk_iff wellFormed,
        isCandidate_iff located found]
      constructor
      · rintro ⟨found, ⟨chain, rfl, leads⟩, rfl⟩
        exact ⟨chain, leads, by rw [List.drop_left]⟩
      · rintro ⟨chain, leads, rfl⟩
        exact ⟨names ++ chain, ⟨chain, rfl, leads⟩, by rw [List.drop_left]⟩
    · next noDirectory =>
      refine iff_of_false List.not_mem_nil ?_
      rintro ⟨chain, leads, -⟩
      obtain ⟨listing, found⟩ := leads.root_directory located
      exact noDirectory listing found

/-- Ignore files leave candidates out and change nothing else. -/
theorem candidates_sublist (tree : Tree) (root : Path) (extensions : List (List Char))
    (respectIgnore : Bool) :
    (candidates tree root extensions respectIgnore).Sublist
      (candidates tree root extensions false) := by
  unfold candidates
  split
  · exact List.Sublist.refl []
  · split
    · exact walk_sublist.map _
    · exact List.Sublist.refl []

end Scan

end AssetUsage
