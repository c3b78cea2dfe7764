import AssetUsage.Proofs.Path.Chains
import AssetUsage.Proofs.Path.Climbing

/-!
# Respelled paths

The segments of a path can be exchanged one by one, as where each is written in another encoding. As
long as separators, the empty segment, `.` and `..` stay what they are (`KeepsMeaning`), the
components are exchanged in the same way (`components_respell`), so nothing that goes by components
depends on the spelling of the names: a path is resolved from a base (`absolutize_respell`) and
stripped of it (`stripPrefix?_respell`) as the respelled paths are.
-/

namespace AssetUsage.Path

variable {change : Segment → Segment}

/-- The segment means after the change what it meant before. -/
structure KeepsMeaning (change : Segment → Segment) (segment : Segment) : Prop where
  separator : '/' ∉ change segment
  empty : change segment = [] ↔ segment = []
  current : change segment = ['.'] ↔ segment = ['.']
  parent : change segment = ['.', '.'] ↔ segment = ['.', '.']

/-- The path with each of its segments changed. -/
def respell (change : Segment → Segment) (path : Path) : Path :=
  ⟨['/'].intercalate (path.segments.map change)⟩

/-- The component with its name changed. -/
def Component.respell (change : Segment → Segment) : Component → Component
  | .name segment => .name (change segment)
  | other => other

namespace KeepsMeaning

variable {segment : Segment} (keeps : KeepsMeaning change segment)
include keeps

/-- What is significant stays so. -/
theorem isSignificant_eq : isSignificant (change segment) = isSignificant segment := by
  rw [Bool.eq_iff_iff]
  simp [isSignificant, keeps.empty, keeps.current]

/-- The component of a segment is changed as the segment is. -/
theorem ofSegment_eq :
    Component.ofSegment (change segment) = (Component.ofSegment segment).respell change := by
  by_cases up : segment = ['.', '.']
  · rw [Component.ofSegment, if_pos (keeps.parent.2 up), Component.ofSegment, if_pos up]
    rfl
  · rw [Component.ofSegment, if_neg (mt keeps.parent.1 up), Component.ofSegment, if_neg up]
    rfl

/-- A name that can stand in a directory still can. -/
theorem namesEntry (named : NamesEntry segment) : NamesEntry (change segment) :=
  ⟨keeps.isSignificant_eq.trans named.1, mt keeps.parent.1 named.2.1, keeps.separator⟩

end KeepsMeaning

section Segments

variable {segments : List Segment} (keeps : ∀ segment ∈ segments, KeepsMeaning change segment)
include keeps

/-- No changed segment holds a separator. -/
theorem separator_not_mem_map : ∀ segment ∈ segments.map change, '/' ∉ segment :=
  List.forall_mem_map.2 fun segment mem => (keeps segment mem).separator

/-- Changed segments start a path as they did. -/
theorem startOf_map : startOf (segments.map change) = startOf segments := by
  cases segments with
  | nil => rfl
  | cons head tail =>
    have first := keeps head List.mem_cons_self
    cases tail with
    | nil => simp only [List.map_singleton, startOf_singleton, first.current]
    | cons second others =>
      simp only [List.map_cons, startOf_cons_cons, first.empty, first.current]

/-- Of changed segments the same ones are significant. -/
theorem filter_map_significant :
    (segments.map change).filter isSignificant = (segments.filter isSignificant).map change := by
  rw [List.filter_map]
  exact congrArg _ (List.filter_congr fun segment mem => (keeps segment mem).isSignificant_eq)

/-- Changed segments contribute changed components. -/
theorem components_map :
    ((segments.map change).filter isSignificant).map Component.ofSegment =
      ((segments.filter isSignificant).map Component.ofSegment).map
        (Component.respell change) := by
  rw [filter_map_significant keeps, List.map_map, List.map_map]
  exact List.map_congr_left fun segment mem =>
    (keeps segment (List.mem_of_mem_filter mem)).ofSegment_eq

/-- Insignificant segments in front stay there. -/
theorem dropWhile_map :
    (segments.map change).dropWhile (!isSignificant ·) =
      (segments.dropWhile (!isSignificant ·)).map change := by
  induction segments with
  | nil => rfl
  | cons first others ih =>
    obtain ⟨own, rest⟩ := List.forall_mem_cons.1 keeps
    rw [List.map_cons, List.dropWhile_cons, List.dropWhile_cons, own.isSignificant_eq]
    split
    · exact ih rest
    · rfl

/-- Insignificant segments at the end stay there. -/
theorem dropTrailing_map :
    dropTrailing (segments.map change) = (dropTrailing segments).map change := by
  have reversed : ∀ segment ∈ segments.reverse, KeepsMeaning change segment := fun segment mem =>
    keeps segment (List.mem_reverse.1 mem)
  rw [dropTrailing, ← List.map_reverse, dropWhile_map reversed, ← List.map_reverse, dropTrailing]

/-- Behind as many significant segments the changed ones are left. -/
theorem dropSignificant_map (count : ℕ) :
    dropSignificant count (segments.map change) = (dropSignificant count segments).map change := by
  induction count generalizing segments with
  | zero => exact dropWhile_map keeps
  | succ count ih =>
    have inside := (List.tail_suffix _).trans
      (List.dropWhile_suffix (l := segments) (!isSignificant ·))
    rw [dropSignificant, dropWhile_map keeps, ← List.map_tail,
      ih fun segment mem => keeps segment (inside.subset mem), dropSignificant]

end Segments

section Paths

variable {path : Path} (keeps : ∀ segment ∈ path.segments, KeepsMeaning change segment)
include keeps

/-- The segments of a respelled path. -/
theorem segments_respell : (path.respell change).segments = path.segments.map change :=
  List.splitOn_intercalate '/' (separator_not_mem_map keeps)
    (mt List.map_eq_nil_iff.1 path.segments_ne_nil)

/-- A respelled path starts as the path does. -/
theorem start_respell : (path.respell change).start = path.start := by
  rw [start, segments_respell keeps, startOf_map keeps, start]

/-- The segments of a respelled path behind its start. -/
theorem body_respell : (path.respell change).body = path.body.map change := by
  rw [body, body, start_respell keeps, segments_respell keeps]
  cases path.start with
  | root | current => exact List.map_tail.symm
  | plain => rfl

/-- The components of a respelled path. -/
theorem components_respell :
    (path.respell change).components = path.components.map (Component.respell change) := by
  have front : path.start.components.map (Component.respell change) = path.start.components := by
    cases path.start <;> rfl
  rw [components_eq_segments, start_respell keeps, segments_respell keeps, components_map keeps,
    components_eq_segments, List.map_append, front]

/-- A respelled path is absolute exactly if the path is. -/
theorem isAbsolute_respell : (path.respell change).isAbsolute = path.isAbsolute := by
  rw [Bool.eq_iff_iff, ← start_eq_root_iff, ← start_eq_root_iff, start_respell keeps]

end Paths

section Components

/-- Changed components climb as far. -/
theorem climbOf_map (components : List Component) :
    climbOf (components.map (Component.respell change)) = climbOf components := by
  induction components with
  | nil => rfl
  | cons first rest ih => cases first <;> simp only [List.map_cons, Component.respell, climbOf, ih]

/-- Changed components come down through changed names. -/
theorem descentOf_map (components : List Component) :
    descentOf (components.map (Component.respell change)) = (descentOf components).map change := by
  induction components with
  | nil => rfl
  | cons first rest ih =>
    cases first with
    | root | current | parent => exact ih
    | name segment =>
      simp only [List.map_cons, Component.respell, descentOf, climbOf_map, ih]
      split <;> rfl

/-- A change that keeps names apart keeps components apart. -/
theorem Component.respell_injective (apart : Function.Injective change) :
    Function.Injective (Component.respell change) := by
  intro left right same
  cases left <;> cases right <;> simp_all [Component.respell, apart.eq_iff]

end Components

section Assembled

variable (empty : change [] = [])
include empty

/-- A changed chain of segments. -/
theorem respell_intercalate {segments : List Segment}
    (plain : ∀ segment ∈ segments, '/' ∉ segment) :
    (mk (['/'].intercalate segments)).respell change =
      ⟨['/'].intercalate (segments.map change)⟩ := by
  by_cases none : segments = []
  · subst none
    change (⟨['/'].intercalate [change []]⟩ : Path) = ⟨[]⟩
    rw [empty]
    rfl
  · rw [respell, Path.segments, List.splitOn_intercalate '/' plain none]

/-- A respelled chain of segments from the root. -/
theorem respell_assemble_root {body : List Segment} (plain : ∀ segment ∈ body, '/' ∉ segment) :
    (assemble .root body).respell change = assemble .root (body.map change) := by
  have behind := congrArg text (respell_intercalate empty plain)
  obtain ⟨first, others, found⟩ :=
    List.exists_cons_of_ne_nil (List.splitOn_ne_nil '/' (['/'].intercalate body))
  change ['/'].intercalate (((['/'].intercalate body).splitOn '/').map change) = _ at behind
  rw [respell, segments_assemble_root, List.map_cons, empty]
  rw [found, List.map_cons] at behind ⊢
  rw [List.intercalate_cons_cons, behind]
  rfl

/-- A respelled chain of segments behind any start. -/
theorem respell_assemble (current : change ['.'] = ['.']) (start : Start) {body : List Segment}
    (plain : ∀ segment ∈ body, '/' ∉ segment) :
    (assemble start body).respell change = assemble start (body.map change) := by
  cases start with
  | root => exact respell_assemble_root empty plain
  | current =>
    have first : '/' ∉ ['.'] := by decide
    have whole := respell_intercalate empty (List.forall_mem_cons.2 ⟨first, plain⟩)
    rw [List.map_cons, current] at whole
    exact whole
  | plain => exact respell_intercalate empty plain

end Assembled

section Bases

variable {base path : Path} (keepsBase : ∀ segment ∈ base.segments, KeepsMeaning change segment)
  (keeps : ∀ segment ∈ path.segments, KeepsMeaning change segment)
include keepsBase keeps

/-- Behind a respelled base the components are those behind the base. -/
theorem components_join_respell (absolute : base.isAbsolute = true) :
    ((base.respell change).join (path.respell change)).components =
      (base.join path).components.map (Component.respell change) := by
  by_cases alone : path.isAbsolute = true
  · rw [join, if_pos ((isAbsolute_respell keeps).trans alone), join, if_pos alone,
      components_respell keeps]
  · have relative := Bool.eq_false_iff.2 alone
    have still := (isAbsolute_respell keepsBase).trans absolute
    rw [components_join (text_ne_nil_of_isAbsolute still)
        ((isAbsolute_respell keeps).trans relative),
      components_join (text_ne_nil_of_isAbsolute absolute) relative,
      components_respell keepsBase, segments_respell keeps, components_map keeps, List.map_append]

/-- A respelled path is resolved from a respelled base as the path is from the base. -/
theorem absolutize_respell (absolute : base.isAbsolute = true) (empty : change [] = []) :
    (base.respell change).absolutize (path.respell change) =
      (base.absolutize path).respell change := by
  have plain : ∀ name ∈ (base.join path).descent, '/' ∉ name := fun name mem =>
    (namesEntry_of_mem_descent mem).2.2
  have still : (base.respell change).isAbsolute = true :=
    (isAbsolute_respell keepsBase).trans absolute
  rw [absolutize, absolutize, normalize_of_isAbsolute (isAbsolute_join_of_base still _),
    normalize_of_isAbsolute (isAbsolute_join_of_base absolute _),
    respell_assemble_root empty plain, descent, descent, ← descentOf_map,
    components_join_respell keepsBase keeps absolute]

omit keepsBase in
/-- A canonical path stays canonical under another spelling of its names. -/
theorem IsCanonical.respell (canonical : path.IsCanonical) (empty : change [] = []) :
    (path.respell change).IsCanonical := by
  have alone : ∀ path : Path, path.isAbsolute = true → path.absolutize path = path.normalize :=
    fun path absolute => by rw [absolutize, join, if_pos absolute]
  have still := (isAbsolute_respell keeps).trans canonical.absolute
  have itself := absolutize_respell keeps keeps canonical.absolute empty
  rw [alone _ still, alone _ canonical.absolute, canonical.normal] at itself
  exact ⟨still, itself⟩

/-- Below a base the respelled path lies below the respelled base. -/
theorem startsWith_respell (below : path.startsWith base = true) :
    (path.respell change).startsWith (base.respell change) = true := by
  rw [startsWith, List.isPrefixOf_iff_prefix] at below ⊢
  rw [components_respell keepsBase, components_respell keeps]
  exact below.map _

/-- Where names are kept apart, a respelled path lies below a respelled base only if the path lies
below the base. -/
theorem startsWith_respell_eq (apart : Function.Injective change) :
    (path.respell change).startsWith (base.respell change) = path.startsWith base := by
  rw [Bool.eq_iff_iff, startsWith, startsWith, List.isPrefixOf_iff_prefix,
    List.isPrefixOf_iff_prefix, components_respell keepsBase, components_respell keeps,
    List.prefix_map_iff_of_injective (Component.respell_injective apart)]

/-- Below a base, the same is left of a respelled path behind the respelled base. -/
theorem stripPrefix?_respell (empty : change [] = []) (current : change ['.'] = ['.'])
    (below : path.startsWith base = true) :
    (path.respell change).stripPrefix? (base.respell change) =
      (path.stripPrefix? base).map (respell change) := by
  have keepsBody : ∀ segment ∈ path.body, KeepsMeaning change segment := fun segment mem =>
    keeps segment (mem_segments_of_mem_body mem)
  have plain : ∀ rest : List Segment, rest <:+ path.body →
      ∀ segment ∈ dropTrailing rest, '/' ∉ segment := by
    intro rest inside segment mem
    have kept := dropTrailing_prefix rest
    have inBody := inside.subset (kept.subset mem)
    exact separator_not_mem_of_mem_segments (mem_segments_of_mem_body inBody)
  rw [stripPrefix?, if_pos (startsWith_respell keepsBase keeps below), stripPrefix?, if_pos below,
    components_respell keepsBase, List.length_map, start_respell keeps, body_respell keeps]
  dsimp only
  split
  · rw [dropTrailing_map keepsBody, Option.map_some,
      respell_assemble empty current _ (plain _ (List.suffix_refl _))]
  · have inside := dropSignificant_suffix
      (base.components.length - path.start.components.length) path.body
    have keepsRest := fun segment mem => keepsBody segment (inside.subset mem)
    rw [dropSignificant_map keepsBody, dropTrailing_map keepsRest, Option.map_some]
    exact congrArg some (respell_assemble empty current .plain (plain _ inside)).symm

end Bases

/-- The names of a chain are segments of it. -/
theorem mem_segments_assemble {names : List Segment} (named : ∀ name ∈ names, NamesEntry name)
    {name : Segment} (mem : name ∈ names) : name ∈ (assemble .root names).segments := by
  rw [segments_assemble_root, List.splitOn_intercalate '/' (fun name mem => (named name mem).2.2)
    (List.ne_nil_of_mem mem)]
  exact List.mem_cons_of_mem _ mem

/-- A name behind a canonical path is changed where it stands. -/
theorem respell_join_name {base : Path} {name : Segment} (canonical : base.IsCanonical)
    (named : NamesEntry name) (keepsBase : ∀ segment ∈ base.segments, KeepsMeaning change segment)
    (keeps : KeepsMeaning change name) (empty : change [] = []) :
    (base.join ⟨name⟩).respell change = (base.respell change).join ⟨change name⟩ := by
  obtain ⟨front, namedFront, rfl⟩ := canonical.exists_names
  have plain : ∀ segment ∈ front ++ [name], '/' ∉ segment := List.forall_mem_append.2
    ⟨fun segment mem => (namedFront segment mem).2.2, List.forall_mem_singleton.2 named.2.2⟩
  have namedAgain : ∀ segment ∈ front.map change, NamesEntry segment := by
    refine List.forall_mem_map.2 fun segment mem => ?_
    exact (keepsBase segment (mem_segments_assemble namedFront mem)).namesEntry
      (namedFront segment mem)
  rw [join_assemble_name namedFront named, respell_assemble_root empty plain,
    respell_assemble_root empty fun segment mem => (namedFront segment mem).2.2,
    join_assemble_name namedAgain (keeps.namesEntry named), List.map_append, List.map_singleton]

end AssetUsage.Path
