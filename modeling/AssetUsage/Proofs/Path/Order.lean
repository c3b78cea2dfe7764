import AssetUsage.Path.Basic

/-!
# The order of components

Components are ordered by their constructors and names among themselves by their characters, so
components compare as equal only when they are equal. Chains of names compare as the names do, and a
list of paths in order is known by its members (`eq_of_ordered`).
-/

namespace AssetUsage.Path

/-- Names compare as their characters do. -/
theorem compare_name (left right : Segment) :
    compare (Component.name left) (Component.name right) = compare left right := by
  change (compare left right).then .eq = compare left right
  exact Ordering.then_eq

/-- Components compare as equal exactly when they are equal. -/
instance : Std.LawfulEqOrd Component where
  compare_self {component} := by
    cases component with
    | name segment => rw [compare_name, Std.ReflOrd.compare_self]
    | root | current | parent => rfl
  eq_of_compare {left right} same := by
    cases left with
    | name segment =>
      cases right with
      | name other =>
        rw [compare_name] at same
        rw [Std.LawfulEqOrd.eq_of_compare same]
      | root | current | parent => contradiction
    | root | current | parent =>
      cases right with
      | name other => contradiction
      | root | current | parent => first | rfl | contradiction

/-- Components compare the other way round in the other order. -/
instance : Std.OrientedOrd Component where
  eq_swap {left right} := by
    cases left with
    | name segment =>
      cases right with
      | name other =>
        rw [compare_name, compare_name]
        exact Std.OrientedOrd.eq_swap
      | root | current | parent => rfl
    | root | current | parent =>
      cases right with
      | root | current | parent | name => rfl

/-- The order of components is transitive. -/
instance : Std.TransOrd Component where
  isLE_trans {first second third} before after := by
    cases first with
    | name segment =>
      cases second with
      | name other =>
        cases third with
        | name last =>
          rw [compare_name] at before after ⊢
          exact Std.TransOrd.isLE_trans before after
        | root | current | parent => contradiction
      | root | current | parent => contradiction
    | root | current | parent =>
      cases third with
      | name segment => rfl
      | root | current | parent => cases second <;> first | rfl | contradiction

/-- The order of paths is transitive, as that of their components is. -/
instance : Std.TransOrd Path where
  eq_swap := Std.OrientedOrd.eq_swap (α := List Component)
  isLE_trans := Std.TransOrd.isLE_trans (α := List Component)

/-- Paths compare as equal exactly when they are the same path. -/
theorem compare_eq_eq_iff_samePath {left right : Path} :
    compare left right = .eq ↔ left.SamePath right :=
  Std.LawfulEqOrd.compare_eq_iff_eq (α := List Component)

/-- Of two paths at most one comes first. -/
theorem compare_asymm {left right : Path} (first : compare left right = .lt) :
    compare right left ≠ .lt := by
  have swapped : compare right.components left.components = .gt :=
    Std.OrientedCmp.gt_of_lt (show compare left.components right.components = .lt from first)
  change compare right.components left.components ≠ .lt
  rw [swapped]
  decide

/-- Lists of paths in order are the same if they have the same paths. -/
theorem eq_of_ordered {first second : List Path}
    (firstOrdered : first.Pairwise fun left right => compare left right = .lt)
    (secondOrdered : second.Pairwise fun left right => compare left right = .lt)
    (same : ∀ path, path ∈ first ↔ path ∈ second) : first = second := by
  have distinct {paths : List Path}
      (ordered : paths.Pairwise fun left right => compare left right = .lt) : paths.Nodup := by
    refine ordered.imp fun {left right} before => ?_
    rintro rfl
    exact compare_asymm before before
  have permuted : first.Perm second :=
    (List.perm_ext_iff_of_nodup (distinct firstOrdered) (distinct secondOrdered)).2 same
  exact permuted.eq_of_pairwise
    (fun left right _ _ before after => absurd after (compare_asymm before))
    firstOrdered secondOrdered

/-- Chains of names compare as the chains of their components do. -/
theorem compare_map_name (left right : List Segment) :
    compare (left.map Component.name) (right.map Component.name) = compare left right := by
  induction left generalizing right with
  | nil => cases right <;> rfl
  | cons first others ih =>
    cases right with
    | nil => rfl
    | cons second rest =>
      rw [List.map_cons, List.map_cons, List.compare_cons_cons, List.compare_cons_cons,
        compare_name, ih]

end AssetUsage.Path
