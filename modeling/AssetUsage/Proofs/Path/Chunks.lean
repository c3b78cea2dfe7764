import AssetUsage.Hashing
import AssetUsage.Proofs.Path.Joined
import AssetUsage.Proofs.Text.EncodedText
import Mathlib.Data.List.Basic

/-!
# What paths are hashed by

The chunks of a path are found in its text, yet they depend on its components alone: they are the
spellings of the components but for the root, which has none (`chunks_eq_components`). Conversely
every component but the root is read off its chunk (`map_ofChunk_chunks`). So a hasher is fed the
same for two paths exactly if they have the same components apart from the root (`fed_eq_iff`), and
in particular for any two spellings of one path.
-/

namespace AssetUsage.Path

/-- The segments that become chunks: in front only an empty one does not, behind a separator only a
significant one does. -/
def chunksOf : List Segment → List Segment
  | [] => []
  | first :: others => completed first ++ others.filter isSignificant

/-- The text is read into the chunks of its segments, the first of which goes on with the chunk that
has been read. -/
def ReadInChunks (text : List Char) : Prop :=
  ∀ chunk, chunksFrom chunk false text = chunksOf ((text.splitOn '/').modifyHead (chunk ++ ·))

/-- A text starts with a `.` that stands alone exactly if its first segment is `.`. -/
theorem startsWithCurrent_iff (text : List Char) :
    startsWithCurrent text = true ↔ (text.splitOn '/').head? = some ['.'] := by
  unfold startsWithCurrent
  split
  · simp [List.splitOn_cons_eq_if_modifyHead]
  · simp [List.splitOn_cons_eq_if_modifyHead]
  · next alone followed =>
    simp only [Bool.false_eq_true, false_iff]
    intro first
    obtain ⟨others, split⟩ := List.head?_eq_some_iff.1 first
    have whole : ['/'].intercalate (text.splitOn '/') = text := List.intercalate_splitOn '/'
    rw [split] at whole
    cases others with
    | nil => exact alone (by simpa using whole.symm)
    | cons second rest =>
      rw [List.intercalate_cons_cons] at whole
      exact followed _ whole.symm

/-- In front of a segment `.` stands no other character. -/
theorem exists_cons_of_splitOn_eq {text : List Char} {others : List Segment}
    (found : text.splitOn '/' = ['.'] :: others) :
    ∃ rest, text = '.' :: rest ∧ rest.splitOn '/' = [] :: others := by
  cases text with
  | nil => simp at found
  | cons c rest =>
    obtain ⟨first, more, split⟩ := List.exists_cons_of_ne_nil (List.splitOn_ne_nil '/' rest)
    rw [List.splitOn_cons_eq_if_modifyHead] at found
    by_cases separator : c = '/'
    · simp [separator] at found
    · simp only [beq_iff_eq, separator, if_false, split, List.modifyHead_cons, List.cons.injEq]
        at found
      obtain ⟨⟨rfl, rfl⟩, rfl⟩ := found
      exact ⟨rest, rfl, split⟩

/-- Behind a separator exactly the significant segments become chunks. -/
theorem ReadInChunks.behind_separator {text : List Char} (read : ReadInChunks text)
    (readTail : ReadInChunks text.tail) :
    chunksFrom [] (startsWithCurrent text) text = (text.splitOn '/').filter isSignificant := by
  obtain ⟨first, others, found⟩ := List.exists_cons_of_ne_nil (List.splitOn_ne_nil '/' text)
  have current := startsWithCurrent_iff text
  rw [found, List.head?_cons, Option.some.injEq] at current
  by_cases dot : first = ['.']
  · obtain ⟨rest, rfl, behind⟩ := exists_cons_of_splitOn_eq (dot ▸ found)
    have readRest : ReadInChunks rest := readTail
    rw [current.2 dot, chunksFrom, if_pos rfl, readRest, behind, found, dot]
    simp [chunksOf, completed, isSignificant]
  · have starts : startsWithCurrent text = false := by simpa [dot] using current
    rw [starts, read [], found]
    by_cases empty : first = [] <;>
      simp [chunksOf, completed, List.filter_cons, isSignificant, empty, dot]

/-- Every text is read into the chunks of its segments. -/
theorem readInChunks (text : List Char) : ReadInChunks text ∧ ReadInChunks text.tail := by
  induction text with
  | nil =>
    have empty : ReadInChunks [] := fun chunk => by simp [chunksFrom, chunksOf]
    exact ⟨empty, empty⟩
  | cons c rest ih =>
    refine ⟨fun chunk => ?_, ih.1⟩
    rw [chunksFrom, if_neg Bool.false_ne_true, List.splitOn_cons_eq_if_modifyHead]
    by_cases separator : c = '/'
    · rw [if_pos separator, ih.1.behind_separator ih.2]
      simp [separator, chunksOf]
    · rw [if_neg separator, ih.1]
      simp [separator, List.modifyHead_modifyHead, Function.comp_def]

/-- The chunks of a path are those of its segments. -/
theorem chunks_eq (path : Path) : path.chunks = chunksOf path.segments := by
  rw [chunks, (readInChunks path.text).1]
  have same : path.segments.modifyHead ([] ++ ·) = path.segments := by
    cases path.segments <;> rfl
  exact congrArg chunksOf same

/-- The chunk that a component is hashed by. -/
def Component.chunk? : Component → Option Segment
  | .root => none
  | .current => some ['.']
  | .parent => some ['.', '.']
  | .name segment => some segment

/-- The component that a chunk stands for. -/
def Component.ofChunk (chunk : Segment) : Component :=
  if chunk = ['.'] then .current else ofSegment chunk

/-- A significant segment is the chunk of its component. -/
theorem Component.chunk?_ofSegment (segment : Segment) :
    (ofSegment segment).chunk? = some segment := by
  unfold ofSegment
  split
  · next up => rw [up, chunk?]
  · rfl

/-- The first segment is the chunk of the start, unless it is significant itself. -/
theorem completed_eq (first : Segment) (others : List Segment) :
    completed first = (startOf (first :: others)).components.filterMap Component.chunk? ++
      [first].filter isSignificant := by
  by_cases empty : first = []
  · cases others <;>
      simp [empty, completed, startOf_singleton, startOf_cons_cons, Start.components,
        Component.chunk?, isSignificant]
  · by_cases dot : first = ['.']
    · cases others <;>
        simp [dot, completed, startOf_singleton, startOf_cons_cons, Start.components,
          Component.chunk?, isSignificant]
    · cases others <;>
        simp [empty, dot, completed, startOf_singleton, startOf_cons_cons, Start.components,
          List.filter_cons, isSignificant]

/-- The chunks of a path are those of its components. -/
theorem chunks_eq_components (path : Path) :
    path.chunks = path.components.filterMap Component.chunk? := by
  have significant : ((path.segments.filter isSignificant).map Component.ofSegment).filterMap
      Component.chunk? = path.segments.filter isSignificant := by
    rw [List.filterMap_map, List.filterMap_congr (g := some), List.filterMap_some]
    exact fun segment _ => Component.chunk?_ofSegment segment
  obtain ⟨first, others, found⟩ := List.exists_cons_of_ne_nil path.segments_ne_nil
  rw [chunks_eq, components_eq_segments, List.filterMap_append, significant, start, found,
    chunksOf, completed_eq first others, List.append_assoc, ← List.filter_append,
    List.singleton_append]

/-- The components of a path but for the root are read off its chunks. -/
theorem map_ofChunk_chunks (path : Path) :
    path.chunks.map Component.ofChunk = path.components.filter (· ≠ .root) := by
  have read : ∀ component ∈ path.components, component.chunk?.map Component.ofChunk =
      Option.guard (fun component => decide (component ≠ .root)) component := by
    intro component mem
    cases component with
    | root | current | parent => rfl
    | name segment =>
      obtain ⟨significant, up, -⟩ := namesEntry_of_mem_components mem
      have dot : segment ≠ ['.'] := by
        rintro rfl
        contradiction
      simp [Component.chunk?, Component.ofChunk, Component.ofSegment, dot, up]
  rw [chunks_eq_components, List.map_filterMap, List.filterMap_congr read,
    List.filterMap_eq_filter]

/-- The root has no chunk. -/
theorem chunks_eq_filter (path : Path) :
    path.chunks = (path.components.filter (· ≠ .root)).filterMap Component.chunk? := by
  rw [chunks_eq_components, List.filterMap_filter]
  refine List.filterMap_congr fun component _ => ?_
  cases component <;> rfl

/-- Two paths have the same chunks exactly if they have the same components apart from the root. -/
theorem chunks_eq_iff {left right : Path} :
    left.chunks = right.chunks ↔
      left.components.filter (· ≠ .root) = right.components.filter (· ≠ .root) := by
  constructor
  · intro same
    rw [← map_ofChunk_chunks, ← map_ofChunk_chunks, same]
  · intro same
    rw [chunks_eq_filter, chunks_eq_filter, same]

/-- A hasher is fed the same for two paths exactly if they have the same components apart from the
root. -/
theorem fed_eq_iff {left right : Path} :
    left.fed = right.fed ↔
      left.components.filter (· ≠ .root) = right.components.filter (· ≠ .root) := by
  rw [← chunks_eq_iff]
  constructor
  · intro same
    have encoded := List.append_inj_left' same rfl
    have bytes : Function.Injective Fed.bytes := fun _ _ => Fed.bytes.inj
    exact Text.Utf8.encode_injective.list_map (bytes.list_map encoded)
  · intro same
    rw [fed, fed, same]

end AssetUsage.Path
