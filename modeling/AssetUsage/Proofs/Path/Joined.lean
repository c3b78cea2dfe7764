import AssetUsage.Path.Basic

/-!
# Paths below a directory

A path below a directory is made by joining the path of the directory with a relative path, such as
a chain of names. The components of the joined path are those of the directory followed by the
significant segments of the relative path, whatever the spelling of the directory:
`components_join`, and `components_join_names` for chains. The proof reads components off all
segments of a path at once, which is possible because the segment of a start is never significant.
-/

namespace AssetUsage.Path

/-- A path has at least one segment. -/
theorem segments_ne_nil (path : Path) : path.segments ≠ [] := List.splitOn_ne_nil '/' path.text

/-- A single segment is no root. -/
theorem startOf_singleton (head : Segment) :
    startOf [head] = if head = ['.'] then .current else .plain := by
  unfold startOf
  split <;> simp_all

/-- With further segments, the first one shows the start. -/
theorem startOf_cons_cons (head second : Segment) (others : List Segment) :
    startOf (head :: second :: others) =
      if head = [] then .root else if head = ['.'] then .current else .plain := by
  unfold startOf
  split <;> simp_all

/-- The segment of a start contributes nothing, so components can be read off all segments. -/
theorem components_eq_segments (path : Path) :
    path.components =
      path.start.components ++ (path.segments.filter isSignificant).map Component.ofSegment := by
  have same : path.body.filter isSignificant = path.segments.filter isSignificant := by
    obtain ⟨head, tail, found⟩ := List.exists_cons_of_ne_nil path.segments_ne_nil
    cases tail with
    | nil =>
      simp only [body, start, found, startOf_singleton]
      by_cases dot : head = ['.'] <;> simp [dot, isSignificant]
    | cons second others =>
      simp only [body, start, found, startOf_cons_cons]
      by_cases empty : head = []
      · simp [empty, isSignificant]
      · by_cases dot : head = ['.'] <;> simp [empty, dot, isSignificant]
  rw [components, same]

/-- A path with components is not empty. -/
theorem text_ne_nil_of_components_ne_nil {path : Path} (some : path.components ≠ []) :
    path.text ≠ [] := by
  obtain ⟨text⟩ := path
  rintro rfl
  exact some rfl

/-- An absolute path is not empty. -/
theorem text_ne_nil_of_isAbsolute {path : Path} (absolute : path.isAbsolute = true) :
    path.text ≠ [] := by
  intro none
  rw [isAbsolute, none] at absolute
  contradiction

/-- Which segments follow makes no difference to the start, once some do. -/
theorem startOf_append_congr {front first second : List Segment} (nonempty : front ≠ [])
    (firstNonempty : first ≠ []) (secondNonempty : second ≠ []) :
    startOf (front ++ first) = startOf (front ++ second) := by
  obtain ⟨head, tail, rfl⟩ := List.exists_cons_of_ne_nil nonempty
  obtain ⟨next, others, rfl⟩ := List.exists_cons_of_ne_nil firstNonempty
  obtain ⟨next', others', rfl⟩ := List.exists_cons_of_ne_nil secondNonempty
  cases tail <;> simp only [List.cons_append, List.nil_append, startOf_cons_cons]

/-- Segments behind those of a path that is not empty leave its start. -/
theorem startOf_segments_append {path : Path} (nonempty : path.text ≠ []) (more : List Segment) :
    startOf (path.segments ++ more) = path.start := by
  obtain ⟨head, tail, found⟩ := List.exists_cons_of_ne_nil path.segments_ne_nil
  cases tail with
  | nil =>
    have headNonempty : head ≠ [] := by
      intro empty
      have whole : ['/'].intercalate path.segments = path.text := List.intercalate_splitOn '/'
      rw [found, empty] at whole
      exact nonempty whole.symm
    cases more with
    | nil => rw [List.append_nil, start]
    | cons next others =>
      simp only [start, found, List.singleton_append, startOf_singleton, startOf_cons_cons,
        if_neg headNonempty]
  | cons second others =>
    simp only [start, found, List.cons_append, startOf_cons_cons]

/-- A chain of names is a relative path with these segments. -/
theorem segments_intercalate {names : List Segment} (nonempty : names ≠ [])
    (named : ∀ name ∈ names, NamesEntry name) :
    (Path.mk (['/'].intercalate names)).segments = names :=
  List.splitOn_intercalate '/' (fun name mem => (named name mem).2.2) nonempty

/-- A chain of names is not absolute. -/
theorem not_isAbsolute_intercalate {names : List Segment} (nonempty : names ≠ [])
    (named : ∀ name ∈ names, NamesEntry name) :
    (Path.mk (['/'].intercalate names)).isAbsolute = false := by
  obtain ⟨head, tail, rfl⟩ := List.exists_cons_of_ne_nil nonempty
  obtain ⟨significant, -, separator⟩ := named head List.mem_cons_self
  cases head with
  | nil => simp [isSignificant] at significant
  | cons c cs =>
    have first : c ≠ '/' := fun same => separator (same ▸ List.mem_cons_self)
    cases tail <;> simp [isAbsolute, first]

/-- A name is not absolute. -/
theorem NamesEntry.not_isAbsolute {name : Segment} (named : NamesEntry name) :
    (Path.mk name).isAbsolute = false := by
  have chain := not_isAbsolute_intercalate (List.cons_ne_nil name [])
    (List.forall_mem_singleton.2 named)
  rwa [List.intercalate_singleton] at chain

/-- The names of a chain are all significant and none of them is a parent. -/
theorem components_of_names {names : List Segment} (named : ∀ name ∈ names, NamesEntry name) :
    (names.filter isSignificant).map Component.ofSegment = names.map Component.name := by
  rw [List.filter_eq_self.2 fun name mem => (named name mem).1]
  exact List.map_congr_left fun name mem => by simp [Component.ofSegment, (named name mem).2.1]

/-- The significant segments of a joined path are those of its two parts. -/
theorem filter_segments_join {base path : Path} (relative : path.isAbsolute = false) :
    (base.join path).segments.filter isSignificant =
      base.segments.filter isSignificant ++ path.segments.filter isSignificant := by
  unfold join
  rw [if_neg (by simp [relative])]
  by_cases empty : base.text = []
  · obtain ⟨text⟩ := base
    subst empty
    rfl
  · by_cases ended : base.text.getLast? = some '/'
    · rw [if_pos (.inr ended)]
      obtain ⟨front, text⟩ := List.getLast?_eq_some_iff.1 ended
      have baseSegments : base.segments = front.splitOn '/' ++ [[]] := by
        rw [segments, text, List.splitOn_append_cons_self, List.splitOn_nil]
      have joinedSegments : (Path.mk (base.text ++ path.text)).segments =
          front.splitOn '/' ++ path.segments := by
        rw [segments, text, List.append_assoc, List.singleton_append,
          List.splitOn_append_cons_self, segments]
      simp [joinedSegments, baseSegments, isSignificant]
    · rw [if_neg (by simp [empty, ended]), ← List.filter_append, segments, segments, segments,
        List.splitOn_append_cons_self]

/-- A path behind a base that is not empty leaves its start. -/
theorem start_join {base path : Path} (nonempty : base.text ≠ [])
    (relative : path.isAbsolute = false) : (base.join path).start = base.start := by
  unfold join
  rw [if_neg (by simp [relative])]
  by_cases ended : base.text.getLast? = some '/'
  · rw [if_pos (.inr ended)]
    obtain ⟨front, text⟩ := List.getLast?_eq_some_iff.1 ended
    rw [start, start, segments, segments, text, List.append_assoc, List.singleton_append,
      List.splitOn_append_cons_self, List.splitOn_append_cons_self]
    exact startOf_append_congr (List.splitOn_ne_nil '/' front) (List.splitOn_ne_nil '/' _)
      (List.splitOn_ne_nil '/' [])
  · rw [if_neg (by simp [nonempty, ended]), start, segments, List.splitOn_append_cons_self]
    exact startOf_segments_append nonempty _

/-- The components of a joined path are those of the base and the segments of the path. -/
theorem components_join {base path : Path} (nonempty : base.text ≠ [])
    (relative : path.isAbsolute = false) :
    (base.join path).components =
      base.components ++ (path.segments.filter isSignificant).map Component.ofSegment := by
  rw [components_eq_segments, components_eq_segments base, start_join nonempty relative,
    filter_segments_join relative, List.map_append, List.append_assoc]

/-- The components of a path below a directory. -/
theorem components_join_names {dir : Path} {names : List Segment} (dirNonempty : dir.text ≠ [])
    (nonempty : names ≠ []) (named : ∀ name ∈ names, NamesEntry name) :
    (dir.join ⟨['/'].intercalate names⟩).components =
      dir.components ++ names.map Component.name := by
  rw [components_join dirNonempty (not_isAbsolute_intercalate nonempty named),
    segments_intercalate nonempty named, components_of_names named]

end AssetUsage.Path
