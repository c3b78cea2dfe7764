import AssetUsage.Proofs.Path.Below
import AssetUsage.Proofs.Path.Chains
import AssetUsage.Proofs.Path.Climbing
import Mathlib.Data.List.Forall2

/-!
# Shown paths

A path behind the root is shown by what is left of it there, and any other path as it stands. So a
canonical path without backslashes is had back when the shown text is resolved from the root
(`absolutize_shownFrom`). A backslash is shown as a separator: two canonical paths behind one root
are shown alike exactly if their texts differ in nothing but that (`shownFrom_eq_iff`).
-/

namespace AssetUsage.Path

/-- A name among the components of a path is one of its segments. -/
theorem mem_segments_of_mem_components {path : Path} {segment : Segment}
    (mem : .name segment ∈ path.components) : segment ∈ path.segments := by
  rw [components_eq_segments, List.mem_append] at mem
  rcases mem with mem | mem
  · cases start : path.start <;> simp [start, Start.components] at mem
  · obtain ⟨source, listed, same⟩ := List.mem_map.1 mem
    exact eq_of_ofSegment_eq_name same ▸ List.mem_of_mem_filter listed

section Characters

variable {c : Char}

/-- The segments of a path hold its characters only. -/
theorem not_mem_of_mem_segments {path : Path} (apart : c ∉ path.text) :
    ∀ segment ∈ path.segments, c ∉ segment := by
  intro segment mem inside
  have whole : ['/'].intercalate path.segments = path.text := List.intercalate_splitOn '/'
  exact apart (whole ▸ Sequence.subset_intercalate mem inside)

variable (separator : c ≠ '/')
include separator

/-- A joined path holds characters of its parts. -/
theorem not_mem_join {base path : Path} (apartBase : c ∉ base.text) (apart : c ∉ path.text) :
    c ∉ (base.join path).text := by
  unfold join
  split
  · exact apart
  · split <;> simp [apartBase, apart, separator]

/-- Without its backslashes, a path is shown by its own characters and separators. -/
theorem not_mem_shown {path : Path} (apart : c ∉ path.text) : c ∉ path.shown := by
  intro mem
  obtain ⟨d, inside, same⟩ := List.mem_map.1 mem
  split at same
  · exact separator same.symm
  · exact apart (same ▸ inside)

variable (dot : c ≠ '.')
include dot

/-- A path that is put together holds the characters of its segments, separators and dots. -/
theorem not_mem_assemble {start : Start} {body : List Segment}
    (apart : ∀ segment ∈ body, c ∉ segment) : c ∉ (assemble start body).text := by
  have between : c ∉ ['/'] := by simpa using separator
  cases start with
  | root => simpa [assemble, separator] using Sequence.not_mem_intercalate between apart
  | current =>
    have first : c ∉ ['.'] := by simpa using dot
    exact Sequence.not_mem_intercalate between (List.forall_mem_cons.2 ⟨first, apart⟩)
  | plain => exact Sequence.not_mem_intercalate between apart

/-- What is left of a path behind a base holds characters of the path. -/
theorem not_mem_of_stripPrefix? {path base rest : Path}
    (stripped : path.stripPrefix? base = some rest) (apart : c ∉ path.text) : c ∉ rest.text := by
  obtain ⟨start, more, inside, rfl⟩ := exists_of_stripPrefix? stripped
  refine not_mem_assemble separator dot fun segment mem => ?_
  have kept := dropTrailing_prefix more
  have inBody := inside.subset (kept.subset mem)
  exact not_mem_of_mem_segments apart segment (mem_segments_of_mem_body inBody)

/-- The normal form of an absolute path holds characters of the path. -/
theorem not_mem_normalize {path : Path} (absolute : path.isAbsolute = true)
    (apart : c ∉ path.text) : c ∉ path.normalize.text := by
  rw [normalize_of_isAbsolute absolute]
  refine not_mem_assemble separator dot fun name mem => ?_
  have component := mem_of_mem_descentOf mem
  exact not_mem_of_mem_segments apart name (mem_segments_of_mem_components component)

/-- The shown text of a path holds characters of the path and separators. -/
theorem not_mem_shownFrom {root path : Path} (apart : c ∉ path.text) :
    c ∉ path.shownFrom root := by
  unfold shownFrom relativeTo?
  cases stripped : path.stripPrefix? root with
  | none => exact not_mem_shown separator apart
  | some rest =>
    exact not_mem_shown separator (not_mem_of_stripPrefix? separator dot stripped apart)

end Characters

/-- A path that does not start with the base has nothing behind it. -/
theorem stripPrefix?_eq_none_iff {path base : Path} :
    path.stripPrefix? base = none ↔ path.startsWith base = false := by
  unfold stripPrefix?
  cases path.startsWith base with
  | false => simp
  | true => by_cases depth : base.components.length = 0 <;> simp [depth]

/-- What is behind a canonical base leads from there to the canonical path. -/
theorem absolutize_of_isBehind {base path rest : Path} (canonicalBase : base.IsCanonical)
    (canonical : path.IsCanonical) (behind : IsBehind path base rest) :
    base.absolutize rest = path := by
  rw [absolutize, normalize_congr (samePath_join_of_isBehind canonicalBase.text_ne_nil behind),
    canonical.normal]

section Shown

variable {root path : Path} (canonicalRoot : root.IsCanonical) (plain : '\\' ∉ path.text)
include canonicalRoot plain

/-- Without backslashes, a path is shown by what is left of it behind the root, or else by its own
text. -/
theorem shownFrom_of_plain :
    (path.startsWith root = false ∧ path.shownFrom root = path.text) ∨
      ∃ rest, IsBehind path root rest ∧ path.shownFrom root = rest.text := by
  rw [← stripPrefix?_eq_none_iff, shownFrom, relativeTo?]
  cases stripped : path.stripPrefix? root with
  | none => exact .inl ⟨rfl, shown_of_plain plain⟩
  | some rest =>
    have plainRest := not_mem_of_stripPrefix? (by decide) (by decide) stripped plain
    exact .inr ⟨rest, isBehind_of_stripPrefix? canonicalRoot.components_ne_nil stripped,
      shown_of_plain plainRest⟩

/-- A canonical path without backslashes is had back from the text by which it is shown. -/
theorem absolutize_shownFrom (canonical : path.IsCanonical) :
    root.absolutize ⟨path.shownFrom root⟩ = path := by
  rcases shownFrom_of_plain canonicalRoot plain with ⟨-, whole⟩ | ⟨rest, behind, left⟩
  · rw [whole]
    exact canonical.absolutize_eq root
  · rw [left]
    exact absolutize_of_isBehind canonicalRoot canonical behind

/-- Of the canonical paths without backslashes, those behind the root are shown by a relative
path. -/
theorem isAbsolute_shownFrom (canonical : path.IsCanonical) :
    (Path.mk (path.shownFrom root)).isAbsolute = !path.startsWith root := by
  rcases shownFrom_of_plain canonicalRoot plain with ⟨outside, whole⟩ | ⟨rest, behind, left⟩
  · rw [whole, outside]
    exact canonical.absolute
  · have below : path.startsWith root = true := by
      rw [startsWith, behind.components]
      exact List.isPrefixOf_iff_prefix.2 (List.prefix_append _ _)
    rw [left, below]
    exact behind.relative

end Shown

/-- The characters are shown alike: they are the same, or one is a backslash and the other a
separator. -/
def LooksLikeChar (c d : Char) : Prop := c = d ∨ c ∈ ['\\', '/'] ∧ d ∈ ['\\', '/']

/-- The texts of the paths differ in nothing but backslashes in the place of separators. -/
def LooksLike (left right : Path) : Prop := List.Forall₂ LooksLikeChar left.text right.text

/-- Paths are shown with the same text exactly if they look alike. -/
theorem shown_eq_iff (left right : Path) : left.shown = right.shown ↔ left.LooksLike right := by
  have each : ∀ c d : Char, ((if c = '\\' then '/' else c) = if d = '\\' then '/' else d) ↔
      LooksLikeChar c d := by
    intro c d
    unfold LooksLikeChar
    by_cases left : c = '\\' <;> by_cases right : d = '\\' <;> simp [left, right, eq_comm]
    rintro rfl rfl
    rfl
  rw [shown, shown, ← List.forall₂_eq_eq_eq, List.forall₂_map_left_iff, List.forall₂_map_right_iff]
  exact ⟨List.Forall₂.imp fun c d => (each c d).1, List.Forall₂.imp fun c d => (each c d).2⟩

/-- Without backslashes, only the path itself looks like it. -/
theorem looksLike_iff_of_plain {left right : Path} (plainLeft : '\\' ∉ left.text)
    (plainRight : '\\' ∉ right.text) : left.LooksLike right ↔ left = right := by
  rw [← shown_eq_iff, shown_of_plain plainLeft, shown_of_plain plainRight]
  exact ⟨fun same => congrArg mk same, congrArg text⟩

/-- A canonical path behind a base that is not empty has further names behind those of the base. -/
theorem IsCanonical.exists_names_behind {root path : Path} (canonical : path.IsCanonical)
    (below : path.startsWith root = true) (nonempty : root.components ≠ []) :
    ∃ names, (∀ name ∈ root.placeNames ++ names, NamesEntry name) ∧
      root.SamePath (assemble .root root.placeNames) ∧
      path = assemble .root (root.placeNames ++ names) := by
  obtain ⟨all, named, rfl⟩ := canonical.exists_names
  obtain ⟨first, others, split⟩ := List.exists_cons_of_ne_nil nonempty
  rw [startsWith, components_assemble_names named, split, List.isPrefixOf_iff_prefix,
    List.cons_prefix_cons] at below
  obtain ⟨rfl, behind, whole⟩ := below
  obtain ⟨front, names, rfl, rfl, -⟩ := List.map_eq_append_iff.1 whole.symm
  have same : root.SamePath (assemble .root front) :=
    split.trans (components_assemble_names (List.forall_mem_append.1 named).1).symm
  have place : root.placeNames = front := by
    have components : root.components = (assemble .root front).components := same
    rw [placeNames, components]
    exact placeNames_assemble (List.forall_mem_append.1 named).1
  rw [place]
  exact ⟨names, named, same, rfl⟩

/-- Names behind the same names are shown alike exactly if the whole paths are. -/
theorem shown_assemble_append_iff {front names others : List Segment}
    (named : ∀ name ∈ names, NamesEntry name) (namedOthers : ∀ name ∈ others, NamesEntry name) :
    (assemble .root (front ++ names)).shown = (assemble .root (front ++ others)).shown ↔
      (mk (['/'].intercalate names)).shown = (mk (['/'].intercalate others)).shown := by
  by_cases empty : front = []
  · subst empty
    simp [assemble, shown]
  · have whole : ∀ more : List Segment, (assemble .root (front ++ more)).text =
        '/' :: ['/'].intercalate front ++
          if more = [] then [] else '/' :: ['/'].intercalate more := by
      intro more
      split
      · next none => simp [assemble, none]
      · next some => simp [assemble, Sequence.intercalate_append empty some]
    have filled : ∀ more : List Segment, more ≠ [] → (∀ name ∈ more, NamesEntry name) →
        ['/'].intercalate more ≠ [] := by
      intro more some named none
      have chain := segments_intercalate some named
      rw [none] at chain
      have segment : ([] : Segment) ∈ more := by
        rw [← chain]
        exact List.mem_singleton.2 rfl
      have significant := (named [] segment).1
      contradiction
    rw [shown, shown, whole, whole, List.map_append, List.map_append, List.append_right_inj]
    by_cases noNames : names = [] <;> by_cases noOthers : others = []
    · simp [noNames, noOthers]
    · simp [noNames, noOthers, shown, filled others noOthers namedOthers]
    · simp [noNames, noOthers, shown, filled names noNames named]
    · simp [noNames, noOthers, shown]

/-- Two canonical paths behind one root are shown by the same text exactly if they look alike. -/
theorem shownFrom_eq_iff {root left right : Path} (canonicalLeft : left.IsCanonical)
    (canonicalRight : right.IsCanonical) (belowLeft : left.startsWith root = true)
    (belowRight : right.startsWith root = true) :
    left.shownFrom root = right.shownFrom root ↔ left.LooksLike right := by
  rw [← shown_eq_iff]
  by_cases empty : root.components = []
  · have stays : ∀ path : Path, path.IsCanonical → path.stripPrefix? root = some path := by
      intro path canonical
      obtain ⟨names, named, rfl⟩ := canonical.exists_names
      have below : (assemble .root names).startsWith root = true := by
        rw [startsWith, empty]
        rfl
      have depth : root.components.length = 0 := by rw [empty, List.length_nil]
      have body : dropTrailing (assemble .root names).body = names := by
        by_cases noNames : names = []
        · subst noNames
          rfl
        · rw [body_assemble noNames named, dropTrailing_eq_self fun name mem => (named name mem).1]
      rw [stripPrefix?, if_pos below, depth, body, start_assemble_root]
      rfl
    rw [shownFrom, shownFrom, relativeTo?, relativeTo?, stays left canonicalLeft,
      stays right canonicalRight]
    rfl
  · obtain ⟨names, named, same, rfl⟩ := canonicalLeft.exists_names_behind belowLeft empty
    obtain ⟨others, namedOthers, -, rfl⟩ := canonicalRight.exists_names_behind belowRight empty
    have left := (stripPrefix?_congr _ same).trans (stripPrefix?_assemble named)
    have right := (stripPrefix?_congr _ same).trans (stripPrefix?_assemble namedOthers)
    rw [shownFrom, shownFrom, relativeTo?, relativeTo?, left, right,
      shown_assemble_append_iff (List.forall_mem_append.1 named).2
        (List.forall_mem_append.1 namedOthers).2]
    rfl

end AssetUsage.Path
