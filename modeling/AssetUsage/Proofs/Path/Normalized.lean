import AssetUsage.Path.Normal
import AssetUsage.Proofs.Path.Joined

/-!
# Normalised paths

Normalising goes through the components of a path and keeps the segments of the normal form on a
stack. On that stack every `..` lies below all names (`IsNormalStack`), so reading the segments once
more changes nothing, and the normal form of a normal path is the path itself
(`normalize_normalize`). Since only the components are read, two spellings of one path have the same
normal form (`normalize_congr`).
-/

namespace AssetUsage.Path

/-- Significant segments are read back from the chain that they form. -/
theorem filter_splitOn_intercalate {segments : List Segment}
    (plain : ∀ segment ∈ segments, '/' ∉ segment) :
    ((['/'].intercalate segments).splitOn '/').filter isSignificant =
      segments.filter isSignificant := by
  by_cases empty : segments = []
  · subst empty
    rfl
  · rw [List.splitOn_intercalate '/' plain empty]

/-- The segments of a path from the root. -/
theorem segments_assemble_root (body : List Segment) :
    (assemble .root body).segments = [] :: (['/'].intercalate body).splitOn '/' := by
  rw [segments, assemble, List.splitOn_cons_eq_if_modifyHead, if_pos (by simp)]

/-- A path from the root starts there. -/
theorem start_assemble_root (body : List Segment) : (assemble .root body).start = .root := by
  obtain ⟨first, others, found⟩ :=
    List.exists_cons_of_ne_nil (List.splitOn_ne_nil '/' (['/'].intercalate body))
  rw [start, segments_assemble_root, found]
  rfl

/-- The components of a path from the root. -/
theorem components_assemble_root {body : List Segment} (plain : ∀ segment ∈ body, '/' ∉ segment) :
    (assemble .root body).components =
      .root :: (body.filter isSignificant).map Component.ofSegment := by
  have insignificant : isSignificant [] = false := rfl
  rw [components_eq_segments, start_assemble_root, segments_assemble_root,
    List.filter_cons_of_neg (by simp [insignificant]), filter_splitOn_intercalate plain]
  rfl

/-- A path whose first segment is significant starts with it. -/
theorem start_assemble_plain {body : List Segment} (plain : ∀ segment ∈ body, '/' ∉ segment)
    (first : ∀ segment ∈ body.head?, isSignificant segment = true) :
    (assemble .plain body).start = .plain := by
  cases body with
  | nil => rfl
  | cons head others =>
    have significant := first head rfl
    simp only [isSignificant, Bool.and_eq_true, bne_iff_ne, ne_eq] at significant
    have split : (assemble .plain (head :: others)).segments = head :: others :=
      List.splitOn_intercalate '/' plain (List.cons_ne_nil head others)
    rw [start, split]
    cases others with
    | nil => rw [startOf_singleton, if_neg significant.2]
    | cons second more => rw [startOf_cons_cons, if_neg significant.1, if_neg significant.2]

/-- The components of a path whose first segment is significant. -/
theorem components_assemble_plain {body : List Segment} (plain : ∀ segment ∈ body, '/' ∉ segment)
    (first : ∀ segment ∈ body.head?, isSignificant segment = true) :
    (assemble .plain body).components =
      (body.filter isSignificant).map Component.ofSegment := by
  have read : (assemble .plain body).segments.filter isSignificant =
      body.filter isSignificant := filter_splitOn_intercalate plain
  rw [components_eq_segments, start_assemble_plain plain first, read]
  rfl

/-- The segments of a normal form, the last of them first: each `..` stands in a relative path, with
nothing else before it. -/
def IsNormalStack (absolute : Bool) : List Segment → Prop
  | [] => True
  | last :: others =>
    (isSignificant last = true ∧ '/' ∉ last) ∧
      (last = ['.', '.'] → absolute = false ∧ ∀ segment ∈ others, segment = ['.', '.']) ∧
      IsNormalStack absolute others

/-- A component keeps a normal form. -/
theorem isNormalStack_push {absolute : Bool} {read : List Segment} {component : Component}
    (normal : IsNormalStack absolute read)
    (added : ∀ name, component = .name name → NamesEntry name) :
    IsNormalStack absolute (pushComponent absolute read component) := by
  cases component with
  | root | current => exact normal
  | name segment =>
    obtain ⟨significant, other, separator⟩ := added segment rfl
    exact ⟨⟨significant, separator⟩, fun up => absurd up other, normal⟩
  | parent =>
    have up : isSignificant ['.', '.'] = true ∧ '/' ∉ ['.', '.'] := by decide
    cases read with
    | nil =>
      cases absolute with
      | true => trivial
      | false => exact ⟨up, fun _ => ⟨rfl, by simp⟩, trivial⟩
    | cons last others =>
      by_cases isUp : last = ['.', '.']
      · cases absolute with
        | true => exact absurd (normal.2.1 isUp).1 (by decide)
        | false =>
          have all : ∀ segment ∈ last :: others, segment = ['.', '.'] :=
            List.forall_mem_cons.2 ⟨isUp, (normal.2.1 isUp).2⟩
          simp only [pushComponent, if_pos isUp, Bool.false_eq_true, ↓reduceIte]
          exact ⟨up, fun _ => ⟨rfl, all⟩, normal⟩
      · simp only [pushComponent, if_neg isUp]
        exact normal.2.2

/-- The segments of a normal form are in it. -/
theorem isNormalStack_reverse_normalSegments (path : Path) :
    IsNormalStack path.isAbsolute path.normalSegments.reverse := by
  have kept : ∀ (components : List Component) (read : List Segment),
      (∀ name, .name name ∈ components → NamesEntry name) → IsNormalStack path.isAbsolute read →
      IsNormalStack path.isAbsolute (components.foldl (pushComponent path.isAbsolute) read) := by
    intro components
    induction components with
    | nil => exact fun read _ normal => normal
    | cons first others ih =>
      intro read named normal
      refine ih _ (fun name mem => named name (List.mem_cons_of_mem _ mem)) ?_
      exact isNormalStack_push normal fun name same => named name (by simp [same])
  rw [normalSegments, List.reverse_reverse]
  exact kept path.components [] (fun _ => namesEntry_of_mem_components) trivial

/-- The segments of a normal form are significant and hold no separators. -/
theorem isSignificant_of_isNormalStack {absolute : Bool} {read : List Segment}
    (normal : IsNormalStack absolute read) :
    ∀ segment ∈ read, isSignificant segment = true ∧ '/' ∉ segment := by
  induction read with
  | nil => simp
  | cons last others ih => exact List.forall_mem_cons.2 ⟨normal.1, ih normal.2.2⟩

/-- Reading the segments of a normal form leaves them. -/
theorem foldl_push_of_isNormalStack {absolute : Bool} {read : List Segment}
    (normal : IsNormalStack absolute read) :
    (read.reverse.map Component.ofSegment).foldl (pushComponent absolute) [] = read := by
  induction read with
  | nil => rfl
  | cons last others ih =>
    obtain ⟨-, bottom, rest⟩ := normal
    rw [List.reverse_cons, List.map_append, List.foldl_append, ih rest, List.map_singleton,
      List.foldl_cons, List.foldl_nil]
    by_cases isUp : last = ['.', '.']
    · obtain ⟨relative, all⟩ := bottom isUp
      rw [Component.ofSegment, if_pos isUp]
      subst isUp relative
      cases others with
      | nil => rfl
      | cons next more =>
        have nextUp := all next List.mem_cons_self
        simp [pushComponent, nextUp]
    · rw [Component.ofSegment, if_neg isUp]
      rfl

/-- The components of a normal form. -/
theorem components_normalize (path : Path) :
    path.normalize.components =
      (if path.isAbsolute then [.root] else []) ++
        path.normalSegments.map Component.ofSegment := by
  have each : ∀ segment ∈ path.normalSegments, isSignificant segment = true ∧ '/' ∉ segment := by
    intro segment mem
    exact isSignificant_of_isNormalStack (isNormalStack_reverse_normalSegments path) segment
      (List.mem_reverse.2 mem)
  have plain : ∀ segment ∈ path.normalSegments, '/' ∉ segment := fun segment mem =>
    (each segment mem).2
  have whole : path.normalSegments.filter isSignificant = path.normalSegments :=
    List.filter_eq_self.2 fun segment mem => (each segment mem).1
  unfold normalize
  split
  · rw [components_assemble_root plain, whole]
    rfl
  · have first : ∀ segment ∈ path.normalSegments.head?, isSignificant segment = true :=
      fun segment head => (each segment (List.mem_of_mem_head? head)).1
    rw [components_assemble_plain plain first, whole, List.nil_append]

/-- A path is absolute exactly if it starts at the root. -/
theorem start_eq_root_iff {path : Path} : path.start = .root ↔ path.isAbsolute = true := by
  obtain ⟨text⟩ := path
  cases text with
  | nil => decide
  | cons c rest =>
    obtain ⟨first, others, split⟩ := List.exists_cons_of_ne_nil (List.splitOn_ne_nil '/' rest)
    by_cases separator : c = '/'
    · have found : (Path.mk (c :: rest)).segments = [] :: first :: others := by
        rw [segments, List.splitOn_cons_eq_if_modifyHead, if_pos (by simp [separator]), split]
      rw [start, found, startOf_cons_cons, if_pos rfl]
      simp [isAbsolute, separator]
    · have found : (Path.mk (c :: rest)).segments = (c :: first) :: others := by
        rw [segments, List.splitOn_cons_eq_if_modifyHead, if_neg (by simp [separator]), split,
          List.modifyHead_cons]
      have notRoot : startOf ((c :: first) :: others) ≠ .root := by
        cases others with
        | nil =>
          rw [startOf_singleton]
          split <;> simp
        | cons second more =>
          rw [startOf_cons_cons, if_neg (List.cons_ne_nil c first)]
          split <;> simp
      simp [start, found, notRoot, isAbsolute, separator]

/-- No segment contributes the root. -/
theorem root_not_mem_map_ofSegment (segments : List Segment) :
    .root ∉ segments.map Component.ofSegment := by
  intro mem
  obtain ⟨segment, -, same⟩ := List.mem_map.1 mem
  unfold Component.ofSegment at same
  split at same <;> contradiction

/-- A path is absolute exactly if the root is one of its components. -/
theorem isAbsolute_iff_mem {path : Path} : path.isAbsolute = true ↔ .root ∈ path.components := by
  have named := root_not_mem_map_ofSegment (path.body.filter isSignificant)
  rw [← start_eq_root_iff, components, List.mem_append]
  cases path.start <;> simp [Start.components, named]

/-- Two spellings of one path have the same normal form. -/
theorem normalize_congr {left right : Path} (same : left.SamePath right) :
    left.normalize = right.normalize := by
  have components : left.components = right.components := same
  have absolute : left.isAbsolute = right.isAbsolute := by
    rw [Bool.eq_iff_iff, isAbsolute_iff_mem, isAbsolute_iff_mem, components]
  rw [normalize, normalize, normalSegments, normalSegments, components, absolute]

/-- A normal form is absolute exactly if the path is. -/
theorem isAbsolute_normalize (path : Path) : path.normalize.isAbsolute = path.isAbsolute := by
  have named : .root ∉ path.normalSegments.map Component.ofSegment := root_not_mem_map_ofSegment _
  rw [Bool.eq_iff_iff, isAbsolute_iff_mem, components_normalize]
  cases path.isAbsolute <;> simp [named]

/-- A normal form has the segments of the path that it is the normal form of. -/
theorem normalSegments_normalize (path : Path) :
    path.normalize.normalSegments = path.normalSegments := by
  have again := foldl_push_of_isNormalStack (isNormalStack_reverse_normalSegments path)
  rw [List.reverse_reverse] at again
  rw [normalSegments, isAbsolute_normalize, components_normalize, List.foldl_append]
  have root : (if path.isAbsolute then [Component.root] else []).foldl
      (pushComponent path.isAbsolute) [] = [] := by
    split <;> rfl
  rw [root, again, List.reverse_reverse]

/-- Normalising a second time changes nothing. -/
theorem normalize_normalize (path : Path) : path.normalize.normalize = path.normalize := by
  rw [normalize, isAbsolute_normalize, normalSegments_normalize, ← normalize]

end AssetUsage.Path
