import AssetUsage.Path.Basic

/-!
# Normal paths

A normal path spells its components with single separators and nothing else, and holds `..` only at
the front of a relative path. Normalising looks at the text alone, never at a file tree.
-/

namespace AssetUsage.Path

/-- One component on top of the segments read so far, the last of them first. A `..` takes away the
name before it; with no such name it is kept in a relative path and has no effect at the root. -/
def pushComponent (absolute : Bool) (read : List Segment) : Component → List Segment
  | .root | .current => read
  | .name segment => segment :: read
  | .parent =>
    match read with
    | [] => if absolute then [] else [['.', '.']]
    | last :: others =>
      if last = ['.', '.'] then (if absolute then read else ['.', '.'] :: read) else others

/-- The segments of the normal form. -/
def normalSegments (path : Path) : List Segment :=
  (path.components.foldl (pushComponent path.isAbsolute) []).reverse

/-- The names on the way from the root of the file system to the place that the path leads to by its
text alone. -/
def placeNames (path : Path) : List Segment :=
  (path.components.foldl (pushComponent true) []).reverse

/-- At the root, a component leaves or adds names that can stand in a directory. -/
theorem namesEntry_of_mem_push {read : List Segment} {component : Component} {segment : Segment}
    (names : ∀ segment ∈ read, NamesEntry segment)
    (added : ∀ name, component = .name name → NamesEntry name)
    (h : segment ∈ pushComponent true read component) : NamesEntry segment := by
  cases component with
  | root | current => exact names segment h
  | name name =>
    rcases List.mem_cons.1 h with rfl | h
    · exact added _ rfl
    · exact names segment h
  | parent =>
    cases read with
    | nil => simp [pushComponent] at h
    | cons last others =>
      simp only [pushComponent, ↓reduceIte] at h
      split at h
      · exact names segment h
      · exact names segment (List.mem_cons_of_mem _ h)

/-- The names on the way to a place can stand in directories. -/
theorem namesEntry_of_mem_place {path : Path} {segment : Segment}
    (h : segment ∈ path.placeNames) : NamesEntry segment := by
  have kept : ∀ (components : List Component) (read : List Segment),
      (∀ name, .name name ∈ components → NamesEntry name) →
      (∀ name ∈ read, NamesEntry name) →
      ∀ name ∈ components.foldl (pushComponent true) read, NamesEntry name := by
    intro components
    induction components with
    | nil => exact fun read _ names => names
    | cons first others ih =>
      intro read added names
      refine ih _ (fun name mem => added name (List.mem_cons_of_mem _ mem)) fun name mem => ?_
      exact namesEntry_of_mem_push names (fun name same => added name (by simp [same])) mem
  exact kept path.components [] (fun _ => namesEntry_of_mem_components) (by simp) segment
    (List.mem_reverse.1 h)

/-- The normal spelling of the place that the path leads to. -/
def normalize (path : Path) : Path :=
  assemble (if path.isAbsolute then .root else .plain) path.normalSegments

/-- The normal form of a path that is relative to a base. -/
def absolutize (base path : Path) : Path := (base.join path).normalize

end AssetUsage.Path
