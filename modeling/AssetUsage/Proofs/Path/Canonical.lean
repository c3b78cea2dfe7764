import AssetUsage.Path.Name
import AssetUsage.Proofs.Path.NormalJoin
import AssetUsage.Proofs.Sequences

/-!
# Canonical paths

A canonical path is absolute and its own normal form. It consists of the names on the way to a
place (`IsCanonical.exists_names`), so names that are put behind one make a canonical path again
(`IsCanonical.join_names`), and so does whatever is resolved from one (`isCanonical_absolutize`).
The parent of a name behind a canonical path is that path (`IsCanonical.parent?_join_name`).
-/

namespace AssetUsage.Path

/-- The path is absolute and spelled normally. -/
structure IsCanonical (path : Path) : Prop where
  absolute : path.isAbsolute = true
  normal : path.normalize = path

instance (path : Path) : Decidable path.IsCanonical :=
  decidable_of_iff (path.isAbsolute = true ∧ path.normalize = path)
    ⟨fun h => ⟨h.1, h.2⟩, fun h => ⟨h.absolute, h.normal⟩⟩

/-- The normal form of an absolute path is canonical. -/
theorem isCanonical_normalize {path : Path} (absolute : path.isAbsolute = true) :
    path.normalize.IsCanonical :=
  ⟨(isAbsolute_normalize path).trans absolute, normalize_normalize path⟩

/-- A path behind an absolute base stays absolute. -/
theorem isAbsolute_join_of_base {base : Path} (absolute : base.isAbsolute = true) (path : Path) :
    (base.join path).isAbsolute = true := by
  rw [isAbsolute_join, absolute, Bool.or_true]

/-- Whatever is resolved from an absolute base is canonical. -/
theorem isCanonical_absolutize {base : Path} (absolute : base.isAbsolute = true) (path : Path) :
    (base.absolutize path).IsCanonical :=
  isCanonical_normalize (isAbsolute_join_of_base absolute path)

instance (segment : Segment) : Decidable (NamesEntry segment) :=
  inferInstanceAs (Decidable (isSignificant segment = true ∧ segment ≠ ['.', '.'] ∧ '/' ∉ segment))

/-- The components of a chain of names from the root. -/
theorem components_assemble_names {names : List Segment} (named : ∀ name ∈ names, NamesEntry name) :
    (assemble .root names).components = .root :: names.map Component.name := by
  rw [components_assemble_root fun name mem => (named name mem).2.2, components_of_names named]

/-- Names are all kept, behind those read before. -/
theorem foldl_pushComponent_names (absolute : Bool) (names read : List Segment) :
    (names.map Component.name).foldl (pushComponent absolute) read = names.reverse ++ read := by
  induction names generalizing read with
  | nil => rfl
  | cons first others ih =>
    rw [List.map_cons, List.foldl_cons, ih, List.reverse_cons, List.append_assoc]
    rfl

/-- A chain of names from the root leads to the place of these names. -/
theorem placeNames_assemble {names : List Segment} (named : ∀ name ∈ names, NamesEntry name) :
    (assemble .root names).placeNames = names := by
  rw [placeNames, components_assemble_names named, List.foldl_cons]
  change ((names.map Component.name).foldl (pushComponent true) []).reverse = names
  rw [foldl_pushComponent_names, List.append_nil, List.reverse_reverse]

/-- A chain of names from the root is canonical. -/
theorem isCanonical_assemble {names : List Segment} (named : ∀ name ∈ names, NamesEntry name) :
    (assemble .root names).IsCanonical := by
  have absolute : (assemble .root names).isAbsolute = true := rfl
  have segments : (assemble .root names).normalSegments = names := placeNames_assemble named
  refine ⟨absolute, ?_⟩
  rw [normalize, absolute, segments]
  rfl

namespace IsCanonical

variable {path : Path}

/-- A canonical path consists of names behind the root. -/
theorem exists_names (canonical : path.IsCanonical) :
    ∃ names, (∀ name ∈ names, NamesEntry name) ∧ path = assemble .root names := by
  obtain ⟨ups, names, segments, named, noUps⟩ := exists_normalSegments_eq path
  rw [noUps canonical.absolute, List.replicate_zero, List.nil_append] at segments
  refine ⟨names, named, ?_⟩
  have spelled := canonical.normal
  rw [normalize, canonical.absolute, segments] at spelled
  exact spelled.symm

/-- A canonical path has components. -/
theorem components_ne_nil (canonical : path.IsCanonical) : path.components ≠ [] := by
  obtain ⟨names, named, rfl⟩ := canonical.exists_names
  rw [components_assemble_names named]
  exact List.cons_ne_nil _ _

/-- A canonical path is not empty. -/
theorem text_ne_nil (canonical : path.IsCanonical) : path.text ≠ [] :=
  text_ne_nil_of_components_ne_nil canonical.components_ne_nil

/-- A canonical path stays what it is, from wherever it is resolved. -/
theorem absolutize_eq (canonical : path.IsCanonical) (base : Path) :
    base.absolutize path = path := by
  rw [absolutize, join, if_pos canonical.absolute, canonical.normal]

end IsCanonical

/-- A chain of names does not end with a separator, unless it is empty. -/
theorem getLast?_assemble_ne {names : List Segment} (nonempty : names ≠ [])
    (named : ∀ name ∈ names, NamesEntry name) :
    (assemble .root names).text.getLast? ≠ some '/' := by
  intro ended
  obtain ⟨front, text⟩ := List.getLast?_eq_some_iff.1 ended
  have ending : (assemble .root names).segments = front.splitOn '/' ++ [[]] := by
    rw [segments, text, List.splitOn_append_cons_self, List.splitOn_nil]
  have chain : (['/'].intercalate names).splitOn '/' = names :=
    List.splitOn_intercalate '/' (fun name mem => (named name mem).2.2) nonempty
  rw [segments_assemble_root, chain] at ending
  have last := congrArg List.getLast? ending
  rw [List.getLast?_concat, List.getLast?_cons_of_ne_nil nonempty] at last
  have empty := (named [] (List.mem_of_getLast? last)).1
  contradiction

/-- Names behind a chain of names make a longer chain. -/
theorem join_assemble {names more : List Segment} (named : ∀ name ∈ names, NamesEntry name)
    (nonempty : more ≠ []) (namedMore : ∀ name ∈ more, NamesEntry name) :
    (assemble .root names).join ⟨['/'].intercalate more⟩ = assemble .root (names ++ more) := by
  have relative := not_isAbsolute_intercalate nonempty namedMore
  rw [join, if_neg (by simp [relative])]
  by_cases empty : names = []
  · subst empty
    rfl
  · have unended : ¬ ((assemble .root names).text = [] ∨
        (assemble .root names).text.getLast? = some '/') :=
      not_or.2 ⟨List.cons_ne_nil _ _, getLast?_assemble_ne empty named⟩
    rw [if_neg unended]
    have text : ['/'].intercalate (names ++ more) =
        ['/'].intercalate names ++ '/' :: ['/'].intercalate more :=
      Sequence.intercalate_append empty nonempty
    simp [assemble, text]

/-- One name behind a chain of names makes a chain that ends with it. -/
theorem join_assemble_name {names : List Segment} {name : Segment}
    (named : ∀ name ∈ names, NamesEntry name) (namedLast : NamesEntry name) :
    (assemble .root names).join ⟨name⟩ = assemble .root (names ++ [name]) := by
  have chain := join_assemble named (List.cons_ne_nil name [])
    (List.forall_mem_singleton.2 namedLast)
  rwa [List.intercalate_singleton] at chain

/-- The components of a name behind a directory. -/
theorem components_join_name {dir : Path} {name : Segment} (nonempty : dir.text ≠ [])
    (named : NamesEntry name) :
    (dir.join ⟨name⟩).components = dir.components ++ [.name name] := by
  have chain := components_join_names nonempty (List.cons_ne_nil name [])
    (List.forall_mem_singleton.2 named)
  rwa [List.intercalate_singleton] at chain

/-- Names behind a canonical path make a canonical path. -/
theorem IsCanonical.join_names {base : Path} {names : List Segment} (canonical : base.IsCanonical)
    (nonempty : names ≠ []) (named : ∀ name ∈ names, NamesEntry name) :
    (base.join ⟨['/'].intercalate names⟩).IsCanonical := by
  obtain ⟨front, namedFront, rfl⟩ := canonical.exists_names
  rw [join_assemble namedFront nonempty named]
  exact isCanonical_assemble (List.forall_mem_append.2 ⟨namedFront, named⟩)

/-- A relative path whose segments are all names makes a canonical path behind one. -/
theorem IsCanonical.join_segments {base path : Path} (canonical : base.IsCanonical)
    (named : ∀ name ∈ path.segments, NamesEntry name) : (base.join path).IsCanonical := by
  have chain := canonical.join_names path.segments_ne_nil named
  have whole : ['/'].intercalate path.segments = path.text := List.intercalate_splitOn '/'
  rwa [whole] at chain

/-- A name behind a canonical path makes a canonical path. -/
theorem IsCanonical.join_name {base : Path} {name : Segment} (canonical : base.IsCanonical)
    (named : NamesEntry name) : (base.join ⟨name⟩).IsCanonical := by
  obtain ⟨front, namedFront, rfl⟩ := canonical.exists_names
  rw [join_assemble_name namedFront named]
  exact isCanonical_assemble
    (List.forall_mem_append.2 ⟨namedFront, List.forall_mem_singleton.2 named⟩)

/-- Significant segments are all kept. -/
theorem dropTrailing_eq_self {segments : List Segment}
    (significant : ∀ segment ∈ segments, isSignificant segment = true) :
    dropTrailing segments = segments := by
  have kept : segments.reverse.dropWhile (!isSignificant ·) = segments.reverse := by
    cases found : segments.reverse with
    | nil => rfl
    | cons last others =>
      have mem : last ∈ segments := List.mem_reverse.1 (found ▸ List.mem_cons_self)
      rw [List.dropWhile_cons_of_neg (by simp [significant last mem])]
  rw [dropTrailing, kept, List.reverse_reverse]

/-- The parent of a chain of names is the chain without its last name. -/
theorem parent?_assemble {names : List Segment} {last : Segment}
    (named : ∀ name ∈ names ++ [last], NamesEntry name) :
    (assemble .root (names ++ [last])).parent? = some (assemble .root names) := by
  have significant : ∀ name ∈ names ++ [last], isSignificant name = true := fun name mem =>
    (named name mem).1
  have chain : (['/'].intercalate (names ++ [last])).splitOn '/' = names ++ [last] :=
    List.splitOn_intercalate '/' (fun name mem => (named name mem).2.2) (by simp)
  have start := start_assemble_root (names ++ [last])
  have body : (assemble .root (names ++ [last])).body = names ++ [last] := by
    rw [Path.body, start, segments_assemble_root, chain]
    rfl
  obtain ⟨first, others, whole⟩ := List.exists_cons_of_ne_nil
    (List.append_ne_nil_of_right_ne_nil names (List.cons_ne_nil last []))
  have kept := dropTrailing_eq_self fun name mem => significant name (List.mem_append_left _ mem)
  rw [parent?, body, start, dropTrailing_eq_self significant, whole]
  change some (assemble .root (dropTrailing (first :: others).dropLast)) = _
  rw [← whole, List.dropLast_concat, kept]

namespace IsCanonical

/-- The parent of a name behind a canonical path is that path. -/
theorem parent?_join_name {base : Path} {name : Segment} (canonical : base.IsCanonical)
    (named : NamesEntry name) : (base.join ⟨name⟩).parent? = some base := by
  obtain ⟨front, namedFront, rfl⟩ := canonical.exists_names
  rw [join_assemble_name namedFront named]
  exact parent?_assemble (List.forall_mem_append.2 ⟨namedFront, List.forall_mem_singleton.2 named⟩)

/-- The file name of a name behind a canonical path is the name. -/
theorem fileName?_join_name {base : Path} {name : Segment} (canonical : base.IsCanonical)
    (named : NamesEntry name) : (base.join ⟨name⟩).fileName? = some name := by
  rw [fileName?, components_join_name canonical.text_ne_nil named, List.getLast?_concat]

/-- A canonical path other than the root is a name behind a canonical path. -/
theorem eq_root_or_join {path : Path} (canonical : path.IsCanonical) :
    path = ⟨['/']⟩ ∨
      ∃ (base : Path) (name : Segment), base.IsCanonical ∧ NamesEntry name ∧
        path = base.join ⟨name⟩ := by
  obtain ⟨names, named, rfl⟩ := canonical.exists_names
  rcases List.eq_nil_or_concat names with rfl | ⟨init, last, rfl⟩
  · exact .inl rfl
  · rw [List.concat_eq_append] at named ⊢
    obtain ⟨namedInit, namedLast⟩ := List.forall_mem_append.1 named
    have namedLast := List.forall_mem_singleton.1 namedLast
    exact .inr ⟨assemble .root init, last, isCanonical_assemble namedInit, namedLast,
      (join_assemble_name namedInit namedLast).symm⟩

/-- The parent of a canonical path is canonical. -/
theorem parent? {path parent : Path} (canonical : path.IsCanonical)
    (found : path.parent? = some parent) : parent.IsCanonical := by
  rcases canonical.eq_root_or_join with rfl | ⟨base, name, canonicalBase, named, rfl⟩
  · contradiction
  · rw [canonicalBase.parent?_join_name named] at found
    exact Option.some.inj found ▸ canonicalBase

end IsCanonical

/-- The stem of a name that can stand in a directory can stand in one. -/
theorem NamesEntry.stemOfName {name : Segment} (named : NamesEntry name) :
    NamesEntry (Path.stemOfName name) := by
  unfold Path.stemOfName
  split
  · exact named
  · next visible =>
    obtain ⟨significant, -, plain⟩ := named
    cases name with
    | nil => contradiction
    | cons first rest =>
      have other : first ≠ '.' := fun same => visible (congrArg some same)
      have kept : (first :: rest).takeWhile (· != '.') <+: first :: rest := List.takeWhile_prefix _
      rw [List.takeWhile_cons_of_pos (by simp [other])] at kept ⊢
      refine ⟨?_, ?_, fun mem => plain (kept.subset mem)⟩
      · simp [isSignificant, other]
      · simp [other]

/-- A canonical path other than the root stays canonical without its extensions. -/
theorem IsCanonical.withoutExtensions {path : Path} (canonical : path.IsCanonical)
    (below : path.parent? ≠ none) : path.withoutExtensions.IsCanonical := by
  rcases canonical.eq_root_or_join with rfl | ⟨base, name, canonicalBase, named, rfl⟩
  · contradiction
  · rw [Path.withoutExtensions, canonicalBase.parent?_join_name named, stem,
      canonicalBase.fileName?_join_name named]
    exact canonicalBase.join_name named.stemOfName

end AssetUsage.Path
