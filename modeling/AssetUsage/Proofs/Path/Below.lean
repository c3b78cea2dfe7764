import AssetUsage.Proofs.Path.Ending
import AssetUsage.Proofs.Path.Normalized

/-!
# What is left of a path behind a directory

Stripping a directory off a path leaves the segments behind it, so that joining the two gives the
path again (`samePath_join_of_stripPrefix?`). With an ending added to what is left, the joined path
is another one even when it is normalised (`not_samePath_join_of_ending`), because its last name is
longer.
-/

namespace AssetUsage.Path

/-- Insignificant segments in front contribute nothing. -/
theorem filter_dropWhile_insignificant (segments : List Segment) :
    (segments.dropWhile (!isSignificant ·)).filter isSignificant =
      segments.filter isSignificant := by
  induction segments with
  | nil => rfl
  | cons first others ih =>
    by_cases significant : isSignificant first = true
    · rw [List.dropWhile_cons_of_neg (by simp [significant])]
    · rw [List.dropWhile_cons_of_pos (by simp [significant]), ih,
        List.filter_cons_of_neg significant]

/-- Insignificant segments at the end contribute nothing. -/
theorem filter_dropTrailing (segments : List Segment) :
    (dropTrailing segments).filter isSignificant = segments.filter isSignificant := by
  rw [dropTrailing, List.filter_reverse, filter_dropWhile_insignificant, ← List.filter_reverse,
    List.reverse_reverse]

/-- Insignificant segments are left out at the end only. -/
theorem dropTrailing_prefix (segments : List Segment) : dropTrailing segments <+: segments := by
  have suffix := List.dropWhile_suffix (l := segments.reverse) (!isSignificant ·)
  simpa [dropTrailing] using List.reverse_prefix.2 suffix

/-- Behind some significant segments the others are left. -/
theorem filter_dropSignificant (count : Nat) (segments : List Segment) :
    (dropSignificant count segments).filter isSignificant =
      (segments.filter isSignificant).drop count := by
  induction count generalizing segments with
  | zero => exact filter_dropWhile_insignificant segments
  | succ count ih =>
    rw [dropSignificant, ih, ← filter_dropWhile_insignificant segments]
    cases found : segments.dropWhile (!isSignificant ·) with
    | nil => simp
    | cons first others =>
      have significant := List.head?_dropWhile_not (!isSignificant ·) segments
      rw [found] at significant
      have first : isSignificant first = true := by simpa using significant
      rw [List.tail_cons, List.filter_cons_of_pos first, List.drop_succ_cons]

/-- What is left behind some significant segments starts with the next one. -/
theorem isSignificant_head_dropSignificant (count : Nat) (segments : List Segment) :
    ∀ segment ∈ (dropSignificant count segments).head?, isSignificant segment = true := by
  induction count generalizing segments with
  | zero =>
    intro segment head
    have significant := List.head?_dropWhile_not (!isSignificant ·) segments
    rw [dropSignificant] at head
    rw [head] at significant
    simpa using significant
  | succ count ih => exact ih _

/-- A base that is stripped off leaves the segments behind it. -/
structure IsBehind (path base rest : Path) : Prop where
  relative : rest.isAbsolute = false
  /-- The last segment means something, unless nothing is left. -/
  last : rest.text ≠ [] → ∃ init last, rest.segments = init ++ [last] ∧ isSignificant last = true
  components : path.components =
    base.components ++ (rest.segments.filter isSignificant).map Component.ofSegment

/-- Behind the start, the components of a path are its significant segments. -/
theorem drop_components (path : Path) {depth : Nat} (positive : depth ≠ 0) :
    path.components.drop depth =
      ((path.body.filter isSignificant).drop (depth - path.start.components.length)).map
        Component.ofSegment := by
  have short : path.start.components.length ≤ depth := by
    have single : path.start.components.length ≤ 1 := by
      cases path.start <;> simp [Start.components]
    omega
  rw [components, List.drop_append, List.drop_eq_nil_of_le short, List.nil_append, List.map_drop]

/-- Without insignificant segments at the end, the last segment means something. -/
theorem exists_concat_of_dropTrailing {segments : List Segment}
    (remains : dropTrailing segments ≠ []) :
    ∃ init last, dropTrailing segments = init ++ [last] ∧ isSignificant last = true := by
  have ends := getLast?_dropTrailing segments
  rw [List.getLast?_eq_some_getLast remains] at ends
  refine ⟨_, _, (List.dropLast_concat_getLast remains).symm, ?_⟩
  exact (List.mem_filter.1 (List.mem_of_getLast? ends.symm)).2

/-- Segments that start with a significant one, put together without those at the end that mean
nothing, are behind a base that contributes all components but theirs. -/
theorem isBehind_assemble {path base : Path} {segments : List Segment}
    (plain : ∀ segment ∈ segments, '/' ∉ segment)
    (starts : ∀ segment ∈ segments.head?, isSignificant segment = true)
    (components : path.components =
      base.components ++ (segments.filter isSignificant).map Component.ofSegment) :
    IsBehind path base (assemble .plain (dropTrailing segments)) := by
  have kept := dropTrailing_prefix segments
  have plainKept : ∀ segment ∈ dropTrailing segments, '/' ∉ segment := fun segment mem =>
    plain segment (kept.subset mem)
  have first : ∀ segment ∈ (dropTrailing segments).head?, isSignificant segment = true := by
    intro segment head
    obtain ⟨others, whole⟩ := kept
    apply starts
    rw [← whole, List.head?_append, head, Option.some_or]
    rfl
  refine ⟨?_, fun text => ?_, ?_⟩
  · have start := start_assemble_plain plainKept first
    refine Bool.eq_false_iff.2 fun absolute => ?_
    rw [start_eq_root_iff.2 absolute] at start
    contradiction
  · have remains : dropTrailing segments ≠ [] := by
      intro empty
      rw [empty] at text
      exact text rfl
    obtain ⟨init, last, whole, significant⟩ := exists_concat_of_dropTrailing remains
    exact ⟨init, last, (List.splitOn_intercalate '/' plainKept remains).trans whole, significant⟩
  · have read : (assemble .plain (dropTrailing segments)).segments.filter isSignificant =
        (dropTrailing segments).filter isSignificant := filter_splitOn_intercalate plainKept
    rw [components, read, filter_dropTrailing]

/-- What is left behind a base is behind it. -/
theorem isBehind_of_stripPrefix? {path base rest : Path} (nonempty : base.components ≠ [])
    (stripped : path.stripPrefix? base = some rest) : IsBehind path base rest := by
  have depth : base.components.length ≠ 0 := by simpa using nonempty
  unfold stripPrefix? at stripped
  split at stripped
  · next below =>
    simp only [if_neg depth] at stripped
    obtain rfl := Option.some.inj stripped
    have inside := dropSignificant_suffix
      (base.components.length - path.start.components.length) path.body
    apply isBehind_assemble
    · intro segment mem
      exact separator_not_mem_of_mem_segments (mem_segments_of_mem_body (inside.subset mem))
    · exact isSignificant_head_dropSignificant _ path.body
    · have front := List.prefix_iff_eq_take.1 (List.isPrefixOf_iff_prefix.1 below)
      rw [filter_dropSignificant, ← drop_components path depth]
      calc path.components
          = path.components.take base.components.length ++
              path.components.drop base.components.length := (List.take_append_drop ..).symm
        _ = base.components ++ path.components.drop base.components.length := by rw [← front]
  · contradiction

/-- A path is the base with what is left behind it. -/
theorem samePath_join_of_isBehind {path base rest : Path} (nonempty : base.text ≠ [])
    (behind : IsBehind path base rest) : (base.join rest).SamePath path :=
  (components_join nonempty behind.relative).trans behind.components.symm

/-- What follows a chain of segments goes on with its last one. -/
theorem intercalate_append_cons (init more : List Segment) (stem ending : Segment) :
    ['/'].intercalate (init ++ [stem]) ++ ['/'].intercalate (ending :: more) =
      ['/'].intercalate (init ++ (stem ++ ending) :: more) := by
  induction init with
  | nil => cases more <;> simp [List.intercalate_cons_cons]
  | cons head tail ih =>
    obtain ⟨first, others, same⟩ := List.exists_cons_of_ne_nil
      (List.append_ne_nil_of_right_ne_nil tail (List.cons_ne_nil stem []))
    obtain ⟨next, later, sameNext⟩ := List.exists_cons_of_ne_nil
      (List.append_ne_nil_of_right_ne_nil tail (List.cons_ne_nil (stem ++ ending) more))
    rw [List.cons_append, List.cons_append, same, sameNext, List.intercalate_cons_cons,
      List.intercalate_cons_cons, ← same, ← sameNext, ← ih]
    simp

/-- What follows a chain of segments follows its last one. -/
theorem intercalate_concat_append (init : List Segment) (last ending : List Char) :
    ['/'].intercalate (init ++ [last]) ++ ending =
      ['/'].intercalate (init ++ [last ++ ending]) := by
  have whole := intercalate_append_cons init [] last ending
  rwa [List.intercalate_singleton] at whole

/-- An ending without separators belongs to the last segment. -/
theorem segments_append {text ending : List Char} {init : List Segment} {last : Segment}
    (split : (Path.mk text).segments = init ++ [last]) (plain : '/' ∉ ending) :
    (Path.mk (text ++ ending)).segments = init ++ [last ++ ending] := by
  have whole : ['/'].intercalate (init ++ [last]) = text := by
    rw [← split]
    exact List.intercalate_splitOn '/'
  have separated : ∀ segment ∈ init ++ [last ++ ending], '/' ∉ segment := by
    have inside : ∀ segment ∈ init ++ [last], '/' ∉ segment := fun segment mem =>
      separator_not_mem_of_mem_segments (split ▸ mem)
    intro segment mem
    rcases List.mem_append.1 mem with mem | mem
    · exact inside segment (List.mem_append_left _ mem)
    · obtain rfl := List.mem_singleton.1 mem
      rw [List.mem_append, not_or]
      exact ⟨inside last (by simp), plain⟩
  rw [segments, ← whole, intercalate_concat_append]
  exact List.splitOn_intercalate '/' separated (by simp)

/-- Behind a base, the last component is that of the last segment. -/
theorem IsBehind.getLast?_components {path base rest : Path} {init : List Segment}
    {last : Segment} (behind : IsBehind path base rest) (split : rest.segments = init ++ [last])
    (significant : isSignificant last = true) :
    path.components.getLast? = some (Component.ofSegment last) := by
  rw [behind.components, split]
  simp [List.filter_append, significant]

/-- A segment that contributes a name is that name. -/
theorem eq_of_ofSegment_eq_name {segment name : Segment}
    (same : Component.ofSegment segment = .name name) : segment = name := by
  unfold Component.ofSegment at same
  split at same
  · contradiction
  · exact Component.name.inj same

/-- A name at the end stays at the end of the normal form. -/
theorem getLast?_components_normalize {path : Path} {name : Segment}
    (last : path.components.getLast? = some (.name name)) :
    path.normalize.components.getLast? = some (.name name) := by
  have other : name ≠ ['.', '.'] :=
    (namesEntry_of_mem_components (List.mem_of_getLast? last)).2.1
  obtain ⟨init, whole⟩ := List.getLast?_eq_some_iff.1 last
  have segments : path.normalSegments.getLast? = some name := by
    rw [normalSegments, whole, List.foldl_append, List.foldl_cons, List.foldl_nil,
      List.getLast?_reverse]
    rfl
  rw [components_normalize, List.getLast?_append, List.getLast?_map, segments, Option.map_some,
    Component.ofSegment, if_neg other, Option.some_or]

/-- The file name is the last component, if that is a name. -/
theorem fileName?_eq_some_iff {path : Path} {name : Segment} :
    path.fileName? = some name ↔ path.components.getLast? = some (.name name) := by
  unfold fileName?
  split
  · next segment last => simp [last]
  · next other =>
    refine iff_of_false (by simp) fun last => other name last

/-- A name at the end stays at the end of a joined path. -/
theorem getLast?_components_join (base : Path) {path : Path} {name : Segment}
    (last : path.components.getLast? = some (.name name)) :
    (base.join path).components.getLast? = some (.name name) := by
  by_cases absolute : path.isAbsolute = true
  · rw [join, if_pos absolute]
    exact last
  · have segments : ((path.segments.filter isSignificant).map Component.ofSegment).getLast? =
        some (.name name) := by
      rw [components_eq_segments, List.getLast?_append] at last
      cases ends : ((path.segments.filter isSignificant).map Component.ofSegment).getLast? with
      | some component => simpa [ends] using last
      | none => cases start : path.start <;> simp [ends, start, Start.components] at last
    rw [components_eq_segments, filter_segments_join (Bool.eq_false_iff.2 absolute),
      List.map_append, ← List.append_assoc, List.getLast?_append, segments, Option.some_or]

/-- The file name of a path is that of its normal form, relative to whatever base. -/
theorem fileName?_absolutize (base : Path) {path : Path} {name : Segment}
    (named : path.fileName? = some name) : (base.absolutize path).fileName? = some name :=
  fileName?_eq_some_iff.2
    (getLast?_components_normalize (getLast?_components_join base (fileName?_eq_some_iff.1 named)))

/-- What is left behind a base ends with the file name. -/
theorem fileName_suffix_of_isBehind {path base rest : Path} {name : Segment}
    (behind : IsBehind path base rest) (remains : rest.text ≠ [])
    (named : path.fileName? = some name) : name <:+ rest.text := by
  obtain ⟨init, last, split, significant⟩ := behind.last remains
  have component := fileName?_eq_some_iff.1 named
  rw [behind.getLast?_components split significant] at component
  obtain rfl := eq_of_ofSegment_eq_name (Option.some.inj component)
  have whole : ['/'].intercalate (init ++ [last]) = rest.text := by
    rw [← split]
    exact List.intercalate_splitOn '/'
  rw [← whole]
  exact ⟨_, intercalate_concat_append init [] last⟩

/-- With an ending that is more than dots, what is left behind the base leads to another path. -/
theorem not_samePath_join_of_ending {path base rest : Path} {ending : List Char}
    (nonempty : base.text ≠ []) (behind : IsBehind path base rest) (remains : rest.text ≠ [])
    (plain : '/' ∉ ending) (visible : ending.any (· != '.') = true) :
    ¬ (base.join ⟨rest.text ++ ending⟩).normalize.SamePath path := by
  obtain ⟨init, last, split, significant⟩ := behind.last remains
  obtain ⟨c, mem, other⟩ := List.any_eq_true.1 visible
  have longer : ∀ dots : List Char, (∀ d ∈ dots, d = '.') → last ++ ending ≠ dots := by
    rintro dots dot rfl
    exact bne_iff_ne.1 other (dot c (List.mem_append_right _ mem))
  have named : isSignificant (last ++ ending) = true := by
    simp only [isSignificant, Bool.and_eq_true, bne_iff_ne]
    exact ⟨longer [] (by simp), longer ['.'] (by simp)⟩
  have relative : (Path.mk (rest.text ++ ending)).isAbsolute = false := by
    obtain ⟨first, others, text⟩ := List.exists_cons_of_ne_nil remains
    have relative := behind.relative
    rw [isAbsolute, text] at relative
    rw [isAbsolute, text]
    exact relative
  have joined : (base.join ⟨rest.text ++ ending⟩).components.getLast? =
      some (.name (last ++ ending)) := by
    rw [components_join nonempty relative, segments_append split plain]
    simp [List.filter_append, named, Component.ofSegment, longer ['.', '.'] (by simp)]
  intro same
  have components : (base.join ⟨rest.text ++ ending⟩).normalize.components = path.components := same
  have lasts := getLast?_components_normalize joined
  rw [components, behind.getLast?_components split significant] at lasts
  have unchanged : last = last ++ ending := eq_of_ofSegment_eq_name (Option.some.inj lasts)
  have empty : ending = [] := by simpa using unchanged
  rw [empty] at mem
  contradiction

end AssetUsage.Path
