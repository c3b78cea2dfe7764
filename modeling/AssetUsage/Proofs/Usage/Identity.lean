import AssetUsage.Proofs.Path.Chunks
import AssetUsage.Proofs.Sequences
import AssetUsage.Proofs.Usage.Sorting
import Mathlib.Data.List.Basic

/-!
# The identity of usages

Equality, order and hashing of usages all go by the components of the file and by the line, although
a hasher is fed the file as it is spelled. So a stable sort leaves equal usages as they stand, and a
hash set keeps of every line of a file the first usage and no other, whatever its hasher makes of
what it is fed (`identity_lawful`).
-/

namespace AssetUsage.Usage

/-- A hasher is fed the same for two usages exactly if they have the same line and, apart from the
root, the same components of the file. -/
theorem fed_eq_iff {left right : Usage} :
    left.fed = right.fed ↔
      left.file.components.filter (· ≠ .root) = right.file.components.filter (· ≠ .root) ∧
        left.line = right.line := by
  rw [← Path.fed_eq_iff]
  constructor
  · intro same
    obtain ⟨file, line⟩ := List.append_inj' same rfl
    exact ⟨file, Fed.line.inj (List.singleton_inj.1 line)⟩
  · rintro ⟨file, line⟩
    rw [fed, fed, file, line]

/-- A hasher is fed the same for equal usages. -/
theorem fed_eq_of_beq {left right : Usage} (same : (left == right) = true) :
    left.fed = right.fed := by
  obtain ⟨file, line⟩ := beq_iff.1 same
  exact fed_eq_iff.2 ⟨congrArg _ file, line⟩

/-- Equal usages have the same hash. -/
theorem lawfulHashable (hasher : Hasher) : @LawfulHashable Usage _ (hashable hasher) :=
  @LawfulHashable.mk _ _ (hashable hasher) fun _ _ same => congrArg hasher (fed_eq_of_beq same)

/-- Taking away the usages that are equal to one leaves those with another identity. -/
theorem find?_filter_apart (first : Usage) (others : List Usage)
    (identity : List Path.Component × Nat) :
    (others.filter fun usage => !usage == first).find? (·.identity = identity) =
      if first.identity = identity then none else others.find? (·.identity = identity) := by
  have apart (usage : Usage) : (!usage == first) = true ↔ usage.identity ≠ first.identity := by
    rw [Bool.not_eq_true', Bool.eq_false_iff, Ne, beq_iff_identity]
  split
  · next same =>
    refine List.find?_eq_none.2 fun usage mem => ?_
    have other := (apart usage).1 (List.mem_filter.1 mem).2
    simpa [← same] using other
  · next other =>
    rw [List.find?_filter]
    congr 1
    funext usage
    refine decide_eq_decide.2 ?_
    rw [apart, decide_eq_true_eq]
    exact and_iff_right_of_imp fun same => same ▸ Ne.symm other

/-- Of the usages with an identity the first one stays among the distinct ones. -/
theorem filter_distinct (identity : List Path.Component × Nat) (usages : List Usage) :
    (distinct usages).filter (·.identity = identity) =
      (usages.find? (·.identity = identity)).toList := by
  match usages with
  | [] => rfl
  | first :: others =>
    have shorter := List.length_filter_le (fun usage => !usage == first) others
    have ih := filter_distinct identity (others.filter fun usage => !usage == first)
    rw [find?_filter_apart, distinct] at ih
    rw [distinct, List.eraseDups_cons, List.filter_cons, ih, List.find?_cons]
    by_cases same : first.identity = identity <;> simp [same]
termination_by usages.length
decreasing_by exact Nat.lt_succ_of_le shorter

/-- The hash set of usages that are put in one after the other. -/
def hashSet (hasher : Hasher) (usages : List Usage) : @Std.HashSet Usage _ (hashable hasher) :=
  @Std.HashSet.ofList Usage _ (hashable hasher) usages

/-- A hash set holds the distinct usages. -/
theorem toList_hashSet_perm (hasher : Hasher) (usages : List Usage) :
    (hashSet hasher usages).toList.Perm (distinct usages) := by
  let _ := hashable hasher
  have := lawfulHashable hasher
  have perm := Sequence.toList_insertMany_perm (∅ : Std.HashSet Usage) usages
  rw [← Std.HashSet.ofList_eq_insertMany_empty] at perm
  simpa [hashSet, distinct] using perm

/-- Of the usages with an identity a hash set holds the first one and no other. -/
theorem filter_toList_hashSet (hasher : Hasher) (usages : List Usage)
    (identity : List Path.Component × Nat) :
    (hashSet hasher usages).toList.filter (·.identity = identity) =
      (usages.find? (·.identity = identity)).toList := by
  have perm := (toList_hashSet_perm hasher usages).filter (·.identity = identity)
  rw [filter_distinct] at perm
  cases found : usages.find? (·.identity = identity) with
  | none =>
    rw [found] at perm
    exact perm.eq_nil
  | some usage =>
    rw [found] at perm
    exact perm.eq_singleton

/-- One of two usages comes before the other, and both do exactly if they are equal. -/
theorem isLE_total_and_antisymm (first second : Usage) :
    ((compare first second).isLE ∨ (compare second first).isLE) ∧
      ((compare first second).isLE ∧ (compare second first).isLE ↔ first == second) := by
  rw [← Std.compare_eq_iff_beq, Std.OrientedOrd.eq_swap (a := second)]
  cases compare first second <;> decide

/-- Usages are ordered totally, up to equality; they compare as equal exactly if they are equal,
that is, the same line of the same file in whatever spelling and with whatever texts, and a hasher
is fed the same for them. It is fed the same for no others, but for those whose files differ by the
root alone. What a stable sort gives is what `sort` gives: equal usages stay as they stand. Whatever
the hasher, a hash set holds the distinct usages, the first of each identity. -/
theorem identity_lawful :
    (∀ first second third : Usage,
      ((compare first second).isLE ∨ (compare second first).isLE) ∧
      ((compare first second).isLE ∧ (compare second first).isLE ↔ first == second) ∧
      ((compare first second).isLE → (compare second third).isLE → (compare first third).isLE) ∧
      (compare first second = .eq ↔ first == second) ∧
      (first == second ↔
        first.file.components = second.file.components ∧ first.line = second.line) ∧
      (first == second → first.fed = second.fed) ∧
      (first.fed = second.fed ↔
        first.file.components.filter (· ≠ .root) = second.file.components.filter (· ≠ .root) ∧
          first.line = second.line)) ∧
    (∀ usages sorted, StablySorted usages sorted ↔ sorted = sort usages) ∧
    ∀ hasher usages,
      (hashSet hasher usages).toList.Perm (distinct usages) ∧
      ∀ identity, (hashSet hasher usages).toList.filter (·.identity = identity) =
        (usages.find? (·.identity = identity)).toList := by
  refine ⟨fun first second third => ?_, stablySorted_iff, fun hasher usages => ?_⟩
  · obtain ⟨total, antisymm⟩ := isLE_total_and_antisymm first second
    exact ⟨total, antisymm, Std.TransOrd.isLE_trans, Std.compare_eq_iff_beq, beq_iff,
      fed_eq_of_beq, fed_eq_iff⟩
  · exact ⟨toList_hashSet_perm hasher usages, filter_toList_hashSet hasher usages⟩

/-- Two spellings of one file are hashed alike. -/
example : (Usage.mk (.ofString "/p//./app/a.rb/.") 3 .deferred).fed =
    (Usage.mk (.ofString "/p/app/a.rb") 3 (.captured ['x'])).fed := by decide +kernel

end AssetUsage.Usage
