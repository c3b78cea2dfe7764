/-!
# Paths

A path is a text whose segments are separated by `/`. Its text is kept as given, while its meaning
is the list of its components: an empty segment and an inner `.` mean nothing, so `a//b`, `a/./b`
and `a/b/` have the components of `a/b`. Two paths are the *same path* when their components are
equal, whatever their texts. A path is put together again from its start and its body
(`assemble_start_body`).
-/

namespace AssetUsage

/-- The text between two neighbouring separators of a path. -/
abbrev Segment := List Char

/-- A path in the spelling in which it was given. -/
structure Path where
  text : List Char
deriving DecidableEq, Repr

namespace Path

/-- The path spelled by a string. -/
def ofString (spelling : String) : Path := ⟨spelling.toList⟩

/-- What a segment contributes to the meaning of a path. The constructors stand in the order in
which components sort. -/
inductive Component where
  /-- The root of the file system. -/
  | root
  /-- A leading `.` of a relative path. -/
  | current
  /-- The segment `..`. -/
  | parent
  /-- Any other segment. -/
  | name (segment : Segment)
deriving DecidableEq, Repr, Ord

/-- How a path starts. -/
inductive Start where
  /-- With a separator. -/
  | root
  /-- With the segment `.`. -/
  | current
  /-- With any other segment, or not at all. -/
  | plain
deriving DecidableEq, Repr

/-- The segments of a path, empty ones included. -/
def segments (path : Path) : List Segment := path.text.splitOn '/'

/-- The segment names a directory entry or a parent: it is neither empty nor `.`. -/
def isSignificant (segment : Segment) : Bool := segment != [] && segment != ['.']

/-- The segment can name an entry of a directory: it is significant, is not that of a parent and
holds no separator. -/
def NamesEntry (segment : Segment) : Prop :=
  isSignificant segment = true ∧ segment ≠ ['.', '.'] ∧ '/' ∉ segment

/-- The start that a list of segments shows. -/
def startOf : List Segment → Start
  | [] :: _ :: _ => .root
  | ['.'] :: _ => .current
  | _ => .plain

/-- No segment holds a separator. -/
theorem separator_not_mem_of_mem_segments {path : Path} {segment : Segment}
    (h : segment ∈ path.segments) : '/' ∉ segment := by
  obtain ⟨text⟩ := path
  unfold segments at h
  induction text generalizing segment with
  | nil =>
    obtain rfl := List.mem_singleton.1 h
    exact List.not_mem_nil
  | cons c rest ih =>
    rw [List.splitOn_cons_eq_if_modifyHead] at h
    split at h
    · rcases List.mem_cons.1 h with rfl | h
      · exact List.not_mem_nil
      · exact ih h
    · next other =>
      obtain ⟨first, others, split⟩ := List.exists_cons_of_ne_nil (List.splitOn_ne_nil '/' rest)
      rw [split, List.modifyHead_cons] at h
      have inside : ∀ segment ∈ first :: others, '/' ∉ segment := fun segment mem =>
        ih (split ▸ mem)
      rcases List.mem_cons.1 h with rfl | h
      · intro mem
        rcases List.mem_cons.1 mem with same | mem
        · exact other (beq_iff_eq.2 same.symm)
        · exact inside first List.mem_cons_self mem
      · exact inside segment (List.mem_cons_of_mem _ h)

/-- How the path starts. -/
def start (path : Path) : Start := startOf path.segments

/-- The segments behind the start. -/
def body (path : Path) : List Segment :=
  match path.start with
  | .root | .current => path.segments.tail
  | .plain => path.segments

/-- The path with the given start and the given segments behind it. -/
def assemble : Start → List Segment → Path
  | .root, body => ⟨'/' :: ['/'].intercalate body⟩
  | .current, body => ⟨['/'].intercalate (['.'] :: body)⟩
  | .plain, body => ⟨['/'].intercalate body⟩

/-- Start and body hold the whole text. -/
theorem assemble_start_body (path : Path) : assemble path.start path.body = path := by
  have whole : ['/'].intercalate path.segments = path.text := List.intercalate_splitOn '/'
  obtain ⟨text⟩ := path
  unfold body start startOf
  split
  · next second others found =>
    simp only [found, List.tail_cons, assemble, mk.injEq]
    rw [found, List.intercalate_cons_cons] at whole
    exact whole
  · next others found =>
    simp only [found, List.tail_cons, assemble, mk.injEq]
    rw [found] at whole
    exact whole
  · simp only [assemble, mk.injEq]
    exact whole

/-- The path starts at the root of the file system. -/
def isAbsolute (path : Path) : Bool := path.text.head? == some '/'

/-- The component that a start contributes. -/
def Start.components : Start → List Component
  | .root => [.root]
  | .current => [.current]
  | .plain => []

/-- The component that a significant segment contributes. -/
def Component.ofSegment (segment : Segment) : Component :=
  if segment = ['.', '.'] then .parent else .name segment

/-- The meaning of a path, from the root or its first segment on. -/
def components (path : Path) : List Component :=
  path.start.components ++ (path.body.filter isSignificant).map Component.ofSegment

/-- The segments behind the start are segments of the path. -/
theorem mem_segments_of_mem_body {path : Path} {segment : Segment} (h : segment ∈ path.body) :
    segment ∈ path.segments := by
  unfold body at h
  split at h
  · exact List.mem_of_mem_tail h
  · exact List.mem_of_mem_tail h
  · exact h

/-- A name among the components of a path can stand in a directory. -/
theorem namesEntry_of_mem_components {path : Path} {segment : Segment}
    (h : .name segment ∈ path.components) : NamesEntry segment := by
  rcases List.mem_append.1 h with h | h
  · cases start : path.start <;> simp [start, Start.components] at h
  · obtain ⟨source, mem, same⟩ := List.mem_map.1 h
    obtain ⟨mem, significant⟩ := List.mem_filter.1 mem
    by_cases up : source = ['.', '.']
    · simp [Component.ofSegment, up] at same
    · simp only [Component.ofSegment, if_neg up, Component.name.injEq] at same
      subst same
      exact ⟨significant, up, separator_not_mem_of_mem_segments (mem_segments_of_mem_body mem)⟩

/-- The two spellings have the same components. -/
def SamePath (left right : Path) : Prop := left.components = right.components

instance (left right : Path) : Decidable (SamePath left right) :=
  inferInstanceAs (Decidable (left.components = right.components))

/-- A path is the same path as itself. -/
theorem SamePath.refl (path : Path) : SamePath path path := rfl

/-- Being the same path is symmetric. -/
theorem SamePath.symm {left right : Path} (h : SamePath left right) : SamePath right left :=
  Eq.symm h

/-- Being the same path is transitive. -/
theorem SamePath.trans {left middle right : Path} (first : SamePath left middle)
    (second : SamePath middle right) : SamePath left right := Eq.trans first second

/-- The path is the base or lies below it, component by component. -/
def startsWith (path base : Path) : Bool := base.components.isPrefixOf path.components

/-- A path put behind a base: an absolute path stands alone, any other follows after one
separator. -/
def join (base path : Path) : Path :=
  if path.isAbsolute then path
  else if base.text = [] ∨ base.text.getLast? = some '/' then ⟨base.text ++ path.text⟩
  else ⟨base.text ++ '/' :: path.text⟩

/-- Segments without the insignificant ones at their end. -/
def dropTrailing (segments : List Segment) : List Segment :=
  (segments.reverse.dropWhile (!isSignificant ·)).reverse

/-- The path without its last component, in its own spelling. The root and the empty path have no
parent, and the parent of `.` is the empty path. -/
def parent? (path : Path) : Option Path :=
  match dropTrailing path.body, path.start with
  | [], .root => none
  | [], .current => some ⟨[]⟩
  | [], .plain => none
  | kept, start => some (assemble start (dropTrailing kept.dropLast))

/-- The name of the file or directory that the path names, unless it ends with `..`. -/
def fileName? (path : Path) : Option Segment :=
  match path.components.getLast? with
  | some (.name segment) => some segment
  | _ => none

/-- Segments behind the first `count` significant ones, from the next significant one on. -/
def dropSignificant : Nat → List Segment → List Segment
  | 0, segments => segments.dropWhile (!isSignificant ·)
  | count + 1, segments => dropSignificant count (segments.dropWhile (!isSignificant ·)).tail

/-- What is left of a path behind a base, in the path's own spelling. -/
def stripPrefix? (path base : Path) : Option Path :=
  if path.startsWith base then
    let depth := base.components.length
    if depth = 0 then some (assemble path.start (dropTrailing path.body))
    else
      let rest := dropSignificant (depth - path.start.components.length) path.body
      some (assemble .plain (dropTrailing rest))
  else none

/-- The order of paths: component by component, the root before `.` before `..` before names. -/
instance : Ord Path where
  compare left right := compare left.components right.components

end Path

end AssetUsage
