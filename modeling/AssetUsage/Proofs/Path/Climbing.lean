import AssetUsage.Proofs.Path.Logical

/-!
# Paths that climb

A relative path leads up by each `..` and down by each name. How far it climbs above the directory
in which it starts, and through which names it comes down from there, can be said of the path alone
(`climbOf`, `descentOf`). Behind a canonical directory it takes away as many names as it climbs, at
most all of them, and puts its own in their place (`normalize_join_eq`). So it stays in the
directory exactly if it comes down through the names that it has taken away
(`startsWith_normalize_join_iff`), in particular if it never climbs at all.
-/

namespace AssetUsage.Path

/-- How far components climb above the directory in which they start: each `..` leads up, unless a
name in front of it has led down. -/
def climbOf : List Component → Nat
  | [] => 0
  | .parent :: rest => climbOf rest + 1
  | .name _ :: rest => climbOf rest - 1
  | _ :: rest => climbOf rest

/-- The names through which components come down from the highest directory on their way. -/
def descentOf : List Component → List Segment
  | [] => []
  | .name segment :: rest => if climbOf rest = 0 then segment :: descentOf rest else descentOf rest
  | _ :: rest => descentOf rest

/-- The component leads down by a name. -/
def Component.isName : Component → Bool
  | .name _ => true
  | _ => false

/-- How far the path climbs above the directory in which it starts. -/
def climb (path : Path) : Nat := climbOf path.components

/-- The names through which the path comes down from the highest directory on its way. -/
def descent (path : Path) : List Segment := descentOf path.components

/-- The names of the directory that a path behind it keeps. -/
def namesKept (dir path : Path) : List Segment :=
  dir.placeNames.take (dir.placeNames.length - path.climb)

/-- The names of the directory that a path behind it takes away. -/
def namesLeft (dir path : Path) : List Segment :=
  dir.placeNames.drop (dir.placeNames.length - path.climb)

/-- The names through which components come down are among them. -/
theorem mem_of_mem_descentOf {components : List Component} {segment : Segment}
    (mem : segment ∈ descentOf components) : .name segment ∈ components := by
  induction components with
  | nil => contradiction
  | cons first rest ih =>
    cases first with
    | root | current | parent => exact List.mem_cons_of_mem _ (ih mem)
    | name name =>
      rw [descentOf] at mem
      split at mem
      · rcases List.mem_cons.1 mem with rfl | mem
        · exact List.mem_cons_self
        · exact List.mem_cons_of_mem _ (ih mem)
      · exact List.mem_cons_of_mem _ (ih mem)

/-- A path comes down through names that can stand in directories. -/
theorem namesEntry_of_mem_descent {path : Path} {segment : Segment}
    (mem : segment ∈ path.descent) : NamesEntry segment :=
  namesEntry_of_mem_components (mem_of_mem_descentOf mem)

/-- Components climb as far as their parents outnumber their names in some part at their front. -/
theorem climbOf_le_iff {components : List Component} {bound : Nat} :
    climbOf components ≤ bound ↔
      ∀ front, front <+: components →
        front.count .parent ≤ front.countP Component.isName + bound := by
  induction components generalizing bound with
  | nil => simp [climbOf]
  | cons first rest ih =>
    have parts : (∀ front, front <+: first :: rest →
          front.count .parent ≤ front.countP Component.isName + bound) ↔
        ∀ front, front <+: rest → (first :: front).count .parent ≤
          (first :: front).countP Component.isName + bound := by
      constructor
      · exact fun all front part => all _ (List.cons_prefix_cons.2 ⟨rfl, part⟩)
      · intro all front part
        rcases List.prefix_cons_iff.1 part with rfl | ⟨front, rfl, shorter⟩
        · simp
        · exact all front shorter
    rw [parts]
    cases first with
    | root | current => exact ih
    | parent =>
      cases bound with
      | zero =>
        have here : ¬ ∀ front, front <+: rest → (Component.parent :: front).count .parent ≤
            (Component.parent :: front).countP Component.isName + 0 := fun all =>
          absurd (all [] List.nil_prefix) (by decide)
        exact iff_of_false (Nat.not_succ_le_zero _) here
      | succ bound =>
        rw [climbOf, Nat.add_le_add_iff_right, ih]
        refine forall₂_congr fun front _ => ?_
        rw [List.count_cons_self, List.countP_cons_of_neg Bool.false_ne_true, ← Nat.add_assoc,
          Nat.add_le_add_iff_right]
    | name segment =>
      have other : Component.name segment ≠ .parent := nofun
      rw [climbOf, Nat.sub_le_iff_le_add, ih]
      refine forall₂_congr fun front _ => ?_
      rw [List.count_cons_of_ne other, List.countP_cons_of_pos rfl, Nat.add_assoc,
        Nat.add_comm 1 bound]

/-- A path never climbs exactly if no part at its front has more parents than names. -/
theorem climb_eq_zero_iff {path : Path} :
    path.climb = 0 ↔ ∀ front, front <+: path.components →
      front.count .parent ≤ front.countP Component.isName := by
  rw [climb, ← Nat.le_zero, climbOf_le_iff]
  rfl

/-- A path without the segment `..` never climbs. -/
theorem climb_eq_zero_of_noParent {path : Path} (noParent : ['.', '.'] ∉ path.segments) :
    path.climb = 0 := by
  have apart : .parent ∉ path.components := by
    rw [components_eq_segments, List.mem_append, not_or]
    constructor
    · cases path.start <;> simp [Start.components]
    · intro mem
      obtain ⟨segment, listed, same⟩ := List.mem_map.1 mem
      by_cases up : segment = ['.', '.']
      · exact noParent (up ▸ List.mem_of_mem_filter listed)
      · rw [Component.ofSegment, if_neg up] at same
        contradiction
  refine climb_eq_zero_iff.2 fun front part => ?_
  have none : front.count .parent = 0 := List.count_eq_zero.2 fun mem => apart (part.subset mem)
  omega

/-- Read on top of names, components take away as many as they climb and leave those through which
they come down. -/
theorem foldl_pushComponent_eq {components : List Component} {read : List Segment}
    (named : ∀ name ∈ read, name ≠ ['.', '.'])
    (namedOwn : ∀ name, .name name ∈ components → name ≠ ['.', '.']) :
    components.foldl (pushComponent true) read =
      (descentOf components).reverse ++ read.drop (climbOf components) := by
  induction components generalizing read with
  | nil => rfl
  | cons first rest ih =>
    have namedRest : ∀ name, .name name ∈ rest → name ≠ ['.', '.'] := fun name mem =>
      namedOwn name (List.mem_cons_of_mem _ mem)
    rw [List.foldl_cons]
    cases first with
    | root | current => exact ih named namedRest
    | parent =>
      have up : pushComponent true read .parent = read.tail := by
        cases read with
        | nil => rfl
        | cons last others => simp [pushComponent, named last List.mem_cons_self]
      rw [up, ih (fun name mem => named name (List.mem_of_mem_tail mem)) namedRest]
      simp [descentOf, climbOf]
    | name segment =>
      have own := namedOwn segment List.mem_cons_self
      rw [pushComponent, ih (List.forall_mem_cons.2 ⟨own, named⟩) namedRest, descentOf, climbOf]
      cases climbOf rest with
      | zero => simp
      | succ count => simp

/-- An absolute path that reads like a path on top of a chain of names keeps the names that the path
does not climb over, and goes down by those of the path. -/
theorem normalize_eq_assemble {whole path : Path} {names : List Segment}
    (named : ∀ name ∈ names, NamesEntry name) (absolute : whole.isAbsolute = true)
    (read : whole.readOnto true [] = path.readOnto true names.reverse) :
    whole.normalize = assemble .root (names.take (names.length - path.climb) ++ path.descent) := by
  have onNames := @foldl_pushComponent_eq path.components names.reverse
    (fun name mem => (named name (List.mem_reverse.1 mem)).2.1)
    (fun name mem => (namesEntry_of_mem_components mem).2.1)
  have segments : whole.normalSegments =
      names.take (names.length - path.climb) ++ path.descent := by
    rw [normalSegments, absolute]
    change (whole.readOnto true []).reverse = _
    rw [read, readOnto, onNames, List.reverse_append, List.reverse_reverse, List.drop_reverse,
      List.reverse_reverse, climb, descent]
  rw [normalize, absolute, segments]
  rfl

/-- A chain of names reads as its names. -/
theorem readOnto_assemble {names : List Segment} (named : ∀ name ∈ names, NamesEntry name) :
    (assemble .root names).readOnto true [] = names.reverse := by
  have place : ((assemble .root names).readOnto true []).reverse = names :=
    placeNames_assemble named
  rw [← List.reverse_reverse ((assemble .root names).readOnto true []), place]

/-- A relative path behind a chain of names. -/
theorem normalize_join_assemble {names : List Segment} {path : Path}
    (named : ∀ name ∈ names, NamesEntry name) (relative : path.isAbsolute = false) :
    ((assemble .root names).join path).normalize =
      assemble .root (names.take (names.length - path.climb) ++ path.descent) := by
  refine normalize_eq_assemble named (isAbsolute_join_of_base rfl path) ?_
  rw [readOnto_join relative, readOnto_assemble named]

section Directories

variable {dir path : Path} (canonical : dir.IsCanonical) (relative : path.isAbsolute = false)
include canonical relative

/-- Behind a canonical directory a path leaves the names that it keeps and goes down by its own. -/
theorem normalize_join_eq :
    (dir.join path).normalize = assemble .root (dir.namesKept path ++ path.descent) := by
  obtain ⟨names, named, rfl⟩ := canonical.exists_names
  rw [normalize_join_assemble named relative, namesKept, placeNames_assemble named]

/-- A path stays in a canonical directory exactly if it comes down through the names that it has
taken away. -/
theorem startsWith_normalize_join_iff :
    (dir.join path).normalize.startsWith dir = true ↔ dir.namesLeft path <+: path.descent := by
  obtain ⟨names, named, rfl⟩ := canonical.exists_names
  have namedKept : ∀ name ∈ names.take (names.length - path.climb), NamesEntry name :=
    fun name mem => named name (List.mem_of_mem_take mem)
  have namedWhole := List.forall_mem_append.2
    ⟨namedKept, fun name mem => @namesEntry_of_mem_descent path name mem⟩
  rw [normalize_join_assemble named relative, startsWith_assemble_iff namedWhole named, namesLeft,
    placeNames_assemble named]
  conv_lhs => lhs; rw [← List.take_append_drop (names.length - path.climb) names]
  exact List.prefix_append_right_inj _

/-- A path that never climbs stays in a canonical directory. -/
theorem startsWith_normalize_join_of_climb_eq_zero (level : path.climb = 0) :
    (dir.join path).normalize.startsWith dir = true := by
  have nothingLeft : dir.namesLeft path = [] := by
    rw [namesLeft, level, Nat.sub_zero, List.drop_length]
  rw [startsWith_normalize_join_iff canonical relative, nothingLeft]
  exact List.nil_prefix

omit relative in
/-- Whatever stands behind a canonical directory and a separator leaves the names that it keeps and
goes down by its own. -/
theorem normalize_append_eq :
    (mk (dir.text ++ '/' :: path.text)).normalize =
      assemble .root (dir.namesKept path ++ path.descent) := by
  obtain ⟨names, named, rfl⟩ := canonical.exists_names
  have segments : (mk ((assemble .root names).text ++ '/' :: path.text)).segments =
      (assemble .root names).segments ++ path.segments := List.splitOn_append_cons_self _ _
  rw [namesKept, placeNames_assemble named]
  refine normalize_eq_assemble named rfl ?_
  rw [readOnto_eq_segments, segments, List.filter_append, List.map_append, List.foldl_append,
    ← readOnto_eq_segments, ← readOnto_eq_segments, readOnto_assemble named]

end Directories

/-- An absolute path goes down from the root by its names. -/
theorem normalize_of_isAbsolute {path : Path} (absolute : path.isAbsolute = true) :
    path.normalize = assemble .root path.descent := by
  have named : ∀ name ∈ ([] : List Segment), NamesEntry name := by simp
  rw [normalize_eq_assemble named absolute rfl, List.take_nil, List.nil_append]

end AssetUsage.Path
