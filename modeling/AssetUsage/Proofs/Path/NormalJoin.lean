import AssetUsage.Proofs.Path.Normalized

/-!
# Normal forms of joined paths

A path is joined by its text and normalised by its components. Reading a relative path on top of
whatever has been read leaves the same segments as reading its normal form there
(`readOnto_normalize`): a `..` of the path either takes away a name of its own, which the normal
form leaves out, or is kept in the normal form and meets what lies below. So each part of a joined
path can be normalised beforehand, also when `..` climbs past the root, past the start of a relative
path or to the empty path (`normalize_laws`).
-/

namespace AssetUsage.Path

/-- On a normal stack all `..` lie below the names, and there are none in an absolute path. -/
theorem exists_of_isNormalStack {absolute : Bool} {read : List Segment}
    (normal : IsNormalStack absolute read) :
    ∃ ups names, read.reverse = List.replicate ups ['.', '.'] ++ names ∧
      (∀ name ∈ names, NamesEntry name) ∧ (absolute = true → ups = 0) := by
  induction read with
  | nil => exact ⟨0, [], rfl, by simp, fun _ => rfl⟩
  | cons last others ih =>
    obtain ⟨⟨significant, separator⟩, bottom, rest⟩ := normal
    by_cases isUp : last = ['.', '.']
    · obtain ⟨relative, all⟩ := bottom isUp
      have same : last :: others = List.replicate (others.length + 1) ['.', '.'] :=
        List.eq_replicate_iff.2 ⟨rfl, List.forall_mem_cons.2 ⟨isUp, all⟩⟩
      refine ⟨others.length + 1, [], ?_, by simp, fun absolute => ?_⟩
      · rw [same, List.reverse_replicate, List.append_nil]
      · rw [relative] at absolute
        contradiction
    · obtain ⟨ups, names, whole, named, noUps⟩ := ih rest
      refine ⟨ups, names ++ [last], ?_, ?_, noUps⟩
      · rw [List.reverse_cons, whole, List.append_assoc]
      · intro name mem
        rcases List.mem_append.1 mem with mem | mem
        · exact named name mem
        · obtain rfl := List.mem_singleton.1 mem
          exact ⟨significant, isUp, separator⟩

/-- The segments of a normal form are names, behind as many `..` as there are in a relative path. -/
theorem exists_normalSegments_eq (path : Path) :
    ∃ ups names, path.normalSegments = List.replicate ups ['.', '.'] ++ names ∧
      (∀ name ∈ names, NamesEntry name) ∧ (path.isAbsolute = true → ups = 0) := by
  have form := exists_of_isNormalStack (isNormalStack_reverse_normalSegments path)
  rwa [List.reverse_reverse] at form

/-- The components of a normal form are names, behind the root or behind `..` only. -/
theorem exists_components_normalize (path : Path) :
    ∃ (ups : Nat) (names : List Segment), path.normalize.components =
      (if path.isAbsolute then [.root] else List.replicate ups .parent) ++
        names.map Component.name := by
  obtain ⟨ups, names, segments, named, noUps⟩ := exists_normalSegments_eq path
  have each : names.map Component.ofSegment = names.map Component.name :=
    List.map_congr_left fun name mem => by simp [Component.ofSegment, (named name mem).2.1]
  have parent : Component.ofSegment ['.', '.'] = .parent := rfl
  refine ⟨ups, names, ?_⟩
  rw [components_normalize, segments, List.map_append, List.map_replicate, each, parent]
  by_cases absolute : path.isAbsolute = true
  · simp [absolute, noUps absolute]
  · simp [absolute]

/-- The segments once a path is read on top of those read before, the last of them first. -/
def readOnto (absolute : Bool) (read : List Segment) (path : Path) : List Segment :=
  path.components.foldl (pushComponent absolute) read

/-- Of a path only its segments are read: its start leaves what has been read. -/
theorem readOnto_eq_segments (absolute : Bool) (read : List Segment) (path : Path) :
    path.readOnto absolute read =
      ((path.segments.filter isSignificant).map Component.ofSegment).foldl
        (pushComponent absolute) read := by
  rw [readOnto, components_eq_segments, List.foldl_append]
  cases path.start <;> rfl

/-- A joined path is read part by part. -/
theorem readOnto_join {base path : Path} (relative : path.isAbsolute = false) (absolute : Bool)
    (read : List Segment) :
    (base.join path).readOnto absolute read =
      path.readOnto absolute (base.readOnto absolute read) := by
  rw [readOnto_eq_segments, filter_segments_join relative, List.map_append, List.foldl_append,
    ← readOnto_eq_segments, ← readOnto_eq_segments]

/-- One more component of a relative path has the effect on what lies below that it has on the
segments of the path. -/
theorem foldl_push_push {component : Component} (absolute : Bool) (read stack : List Segment)
    (named : ∀ name, component = .name name → NamesEntry name) :
    ((pushComponent false stack component).reverse.map Component.ofSegment).foldl
        (pushComponent absolute) read =
      pushComponent absolute
        ((stack.reverse.map Component.ofSegment).foldl (pushComponent absolute) read)
        component := by
  cases component with
  | root | current => rfl
  | name segment =>
    have other := (named segment rfl).2.1
    simp [pushComponent, Component.ofSegment, other]
  | parent =>
    cases stack with
    | nil => rfl
    | cons last others =>
      by_cases isUp : last = ['.', '.']
      · simp [pushComponent, isUp, Component.ofSegment]
      · simp [pushComponent, isUp, Component.ofSegment]

/-- The segments of a relative path have the effect of its components on what lies below. -/
theorem foldl_push_foldl_push {components : List Component} (absolute : Bool)
    (read stack : List Segment) (named : ∀ name, .name name ∈ components → NamesEntry name) :
    ((components.foldl (pushComponent false) stack).reverse.map Component.ofSegment).foldl
        (pushComponent absolute) read =
      components.foldl (pushComponent absolute)
        ((stack.reverse.map Component.ofSegment).foldl (pushComponent absolute) read) := by
  induction components generalizing stack with
  | nil => rfl
  | cons first others ih =>
    have firstNamed : ∀ name, first = .name name → NamesEntry name := fun name same =>
      named name (same ▸ List.mem_cons_self)
    have step := foldl_push_push absolute read stack firstNamed
    rw [List.foldl_cons, List.foldl_cons, ← step]
    exact ih _ fun name mem => named name (List.mem_cons_of_mem _ mem)

/-- Reading the normal form of a relative path leaves the same segments as reading the path. -/
theorem readOnto_normalize {path : Path} (relative : path.isAbsolute = false) (absolute : Bool)
    (read : List Segment) :
    path.normalize.readOnto absolute read = path.readOnto absolute read := by
  have whole : path.normalize.components =
      (path.components.foldl (pushComponent false) []).reverse.map Component.ofSegment := by
    rw [components_normalize, normalSegments, relative]
    rfl
  rw [readOnto, whole, foldl_push_foldl_push absolute read [] fun _ => namesEntry_of_mem_components]
  rfl

/-- A joined path is absolute exactly if one of its parts is. -/
theorem isAbsolute_join (base path : Path) :
    (base.join path).isAbsolute = (path.isAbsolute || base.isAbsolute) := by
  unfold join
  by_cases absolute : path.isAbsolute = true
  · rw [if_pos absolute, absolute, Bool.true_or]
  · rw [if_neg absolute, Bool.eq_false_iff.2 absolute, Bool.false_or]
    obtain ⟨text⟩ := base
    cases text with
    | nil => simpa [isAbsolute] using absolute
    | cons c rest => split <;> rfl

/-- Paths with the same start that read alike have the same normal form. -/
theorem normalize_eq_of_readOnto {left right : Path}
    (absolute : left.isAbsolute = right.isAbsolute)
    (read : left.readOnto right.isAbsolute [] = right.readOnto right.isAbsolute []) :
    left.normalize = right.normalize := by
  have segments : left.normalSegments = right.normalSegments := by
    rw [normalSegments, absolute]
    exact congrArg List.reverse read
  rw [normalize, normalize, absolute, segments]

/-- The base of a joined path can be normalised beforehand. -/
theorem normalize_join_left (base path : Path) :
    (base.normalize.join path).normalize = (base.join path).normalize := by
  by_cases absolute : path.isAbsolute = true
  · rw [join, join, if_pos absolute, if_pos absolute]
  · have relative := Bool.eq_false_iff.2 absolute
    have start : (base.join path).isAbsolute = base.isAbsolute := by
      rw [isAbsolute_join, relative, Bool.false_or]
    apply normalize_eq_of_readOnto
    · rw [isAbsolute_join, isAbsolute_join, isAbsolute_normalize]
    · have own : base.normalize.readOnto base.isAbsolute [] = base.readOnto base.isAbsolute [] := by
        have segments := normalSegments_normalize base
        rw [normalSegments, isAbsolute_normalize, normalSegments] at segments
        exact List.reverse_inj.1 segments
      rw [start, readOnto_join relative, readOnto_join relative, own]

/-- What is joined to a base can be normalised beforehand. -/
theorem normalize_join_right (base path : Path) :
    (base.join path.normalize).normalize = (base.join path).normalize := by
  by_cases absolute : path.isAbsolute = true
  · rw [join, join, isAbsolute_normalize, if_pos absolute, if_pos absolute, normalize_normalize]
  · have relative := Bool.eq_false_iff.2 absolute
    have relativeNormal : path.normalize.isAbsolute = false := by
      rw [isAbsolute_normalize, relative]
    apply normalize_eq_of_readOnto
    · rw [isAbsolute_join, isAbsolute_join, isAbsolute_normalize]
    · rw [readOnto_join relativeNormal, readOnto_join relative, readOnto_normalize relative]

/-- It makes no difference to the normal form in which order three paths are joined. -/
theorem normalize_join_join (base middle path : Path) :
    (base.join (middle.join path)).normalize = ((base.join middle).join path).normalize := by
  by_cases absolute : path.isAbsolute = true
  · have joined : ∀ front : Path, front.join path = path := fun front => if_pos absolute
    rw [joined, joined, joined]
  · have relative := Bool.eq_false_iff.2 absolute
    by_cases middleAbsolute : middle.isAbsolute = true
    · have joined : (middle.join path).isAbsolute = true := by
        rw [isAbsolute_join, middleAbsolute, Bool.or_true]
      rw [join, if_pos joined, show base.join middle = middle from if_pos middleAbsolute]
    · have middleRelative := Bool.eq_false_iff.2 middleAbsolute
      have joined : (middle.join path).isAbsolute = false := by
        rw [isAbsolute_join, relative, middleRelative]
        rfl
      apply normalize_eq_of_readOnto
      · simp only [isAbsolute_join, Bool.or_assoc]
      · rw [readOnto_join joined, readOnto_join relative, readOnto_join relative,
          readOnto_join middleRelative]

/-- A path behind an absolute base leads to the same place from everywhere. -/
theorem absolutize_absolutize {base : Path} (absolute : base.isAbsolute = true)
    (elsewhere path : Path) :
    elsewhere.absolutize (base.absolutize path) = base.absolutize path := by
  have reached : (base.absolutize path).isAbsolute = true := by
    rw [absolutize, isAbsolute_normalize, isAbsolute_join, absolute, Bool.or_true]
  rw [absolutize, join, if_pos reached, absolutize, normalize_normalize]

/-- The normal form of a path is absolute exactly if the path is; it consists of names, behind the
root or behind nothing but `..`; it is its own normal form; the parts of a joined path can be
normalised beforehand; and a path behind an absolute base leads to the same place from
everywhere. -/
theorem normalize_laws (path other : Path) :
    path.normalize.isAbsolute = path.isAbsolute ∧
    (∃ (ups : Nat) (names : List Segment), path.normalize.components =
      (if path.isAbsolute then [.root] else List.replicate ups .parent) ++
        names.map Component.name) ∧
    path.normalize.normalize = path.normalize ∧
    (path.normalize.join other).normalize = (path.join other).normalize ∧
    (path.join other.normalize).normalize = (path.join other).normalize ∧
    ∀ base elsewhere : Path, base.isAbsolute = true →
      elsewhere.absolutize (base.absolutize path) = base.absolutize path :=
  ⟨isAbsolute_normalize path, exists_components_normalize path, normalize_normalize path,
    normalize_join_left path other, normalize_join_right path other,
    fun _ elsewhere absolute => absolutize_absolutize absolute elsewhere path⟩

end AssetUsage.Path
