import AssetUsage.Proofs.Path.Order
import AssetUsage.Usage
import Mathlib.Data.List.Basic

/-!
# Usages in order

Usages are ordered by the components of the file and then by the line, and they compare as equal
exactly when they are equal, whatever their texts. A stable sort puts usages in order and leaves
equal ones as they stand. Under such an order no more than one list can come out of a stable sort
(`stablySorted_iff`), since its first usage is the first one of the least.
-/

namespace AssetUsage.Usage

/-- Usages are equal exactly when they have the same identity. -/
theorem beq_iff_identity {left right : Usage} :
    (left == right) = true ↔ left.identity = right.identity := by
  change (left.identity == right.identity) = true ↔ _
  rw [beq_iff_eq]

/-- Usages are equal exactly when they are the same line of the same file. -/
theorem beq_iff {left right : Usage} :
    (left == right) = true ↔
      left.file.components = right.file.components ∧ left.line = right.line := by
  rw [beq_iff_identity, identity, identity, Prod.mk.injEq]

/-- Usages compare as equal exactly when they are equal. -/
instance : Std.LawfulBEqOrd Usage where
  compare_eq_iff_beq {left right} := by
    rw [compare_usage, Ordering.then_eq_eq, Path.compare_eq_eq_iff_samePath, Nat.compare_eq_eq,
      beq_iff, Path.SamePath]

/-- The order of usages is transitive, as those of files and of lines are. -/
instance : Std.TransOrd Usage where
  eq_swap {left right} := by
    rw [compare_usage, compare_usage, Ordering.swap_then, ← Std.OrientedOrd.eq_swap,
      ← Std.OrientedOrd.eq_swap]
  isLE_trans {first second third} before after := by
    rw [compare_usage, Ordering.isLE_then_iff_or] at before after ⊢
    rcases before with before | ⟨sameFile, before⟩
    · have files : (compare second.file third.file).isLE := by
        rcases after with after | ⟨after, -⟩ <;> rw [after] <;> rfl
      exact .inl (Std.TransCmp.lt_of_lt_of_isLE before files)
    · rcases after with after | ⟨sameFile', after⟩
      · exact .inl (Std.TransCmp.lt_of_eq_of_lt sameFile after)
      · exact .inr ⟨Std.TransCmp.eq_trans sameFile sameFile', Std.TransOrd.isLE_trans before after⟩

/-- Equality of usages is an equivalence. -/
instance : EquivBEq Usage := @Std.LawfulBEqCmp.equivBEq _ _ compare _ _

/-- The list has the usages in order, and those that are equal to each other as they stand there. -/
structure StablySorted (usages sorted : List Usage) : Prop where
  ordered : sorted.Pairwise fun left right => (compare left right).isLE
  kept : ∀ usage, sorted.filter (· == usage) = usages.filter (· == usage)

/-- Usages that are equal to the same one are in order however they stand. -/
theorem pairwise_filter_beq (usages : List Usage) (usage : Usage) :
    (usages.filter (· == usage)).Pairwise fun left right => (compare left right).isLE := by
  refine List.pairwise_of_forall_mem_list fun left leftMem right rightMem => ?_
  have sameLeft := (List.mem_filter.1 leftMem).2
  have sameRight := (List.mem_filter.1 rightMem).2
  have same : (left == right) = true := BEq.trans sameLeft (BEq.symm sameRight)
  rw [Std.compare_eq_iff_beq.2 same]
  rfl

/-- Sorting usages leaves equal ones as they stand. -/
theorem stablySorted_sort (usages : List Usage) : StablySorted usages (sort usages) := by
  have trans (a b c : Usage) (before : (compare a b).isLE) (after : (compare b c).isLE) :
      (compare a c).isLE := Std.TransOrd.isLE_trans before after
  have total (a b : Usage) : ((compare a b).isLE || (compare b a).isLE) = true := by
    rw [Std.OrientedOrd.eq_swap (a := b)]
    cases compare a b <;> rfl
  refine ⟨List.pairwise_mergeSort trans total usages, fun usage => ?_⟩
  have found : (usages.filter (· == usage)).Sublist (sort usages) :=
    List.sublist_mergeSort trans total (pairwise_filter_beq usages usage) List.filter_sublist
  have kept := found.filter (· == usage)
  simp only [List.filter_filter, Bool.and_self] at kept
  exact (kept.eq_of_length ((List.mergeSort_perm usages _).filter _).length_eq.symm).symm

/-- In a list in order the first usage comes before every other. -/
theorem isLE_of_mem {first usage : Usage} {others : List Usage}
    (ordered : (first :: others).Pairwise fun left right => (compare left right).isLE)
    (mem : usage ∈ first :: others) : (compare first usage).isLE := by
  rcases List.mem_cons.1 mem with rfl | mem
  · rw [Std.ReflOrd.compare_self]
    rfl
  · exact List.rel_of_pairwise_cons ordered mem

namespace StablySorted

variable {usages sorted : List Usage}

/-- Sorting neither adds usages nor takes any away. -/
theorem mem_iff (stable : StablySorted usages sorted) (usage : Usage) :
    usage ∈ sorted ↔ usage ∈ usages := by
  have among (list : List Usage) : usage ∈ list ↔ usage ∈ list.filter (· == usage) := by
    rw [List.mem_filter, and_iff_left BEq.rfl]
  rw [among, stable.kept, ← among]

/-- Of usages and a stable sort of them that both start with the same usage, what follows is sorted
stably as well. -/
theorem tail {first : Usage} (stable : StablySorted (first :: usages) (first :: sorted)) :
    StablySorted usages sorted := by
  refine ⟨stable.ordered.of_cons, fun usage => ?_⟩
  have kept := stable.kept usage
  rw [List.filter_cons, List.filter_cons] at kept
  split at kept
  · exact (List.cons.inj kept).2
  · exact kept

/-- A list in order stays as it is in every stable sort. -/
theorem eq_of_ordered (stable : StablySorted usages sorted)
    (ordered : usages.Pairwise fun left right => (compare left right).isLE) : sorted = usages := by
  induction usages generalizing sorted with
  | nil => exact List.eq_nil_iff_forall_not_mem.2 fun usage => by simp [stable.mem_iff]
  | cons second rest ih =>
    cases sorted with
    | nil => exact absurd ((stable.mem_iff second).2 List.mem_cons_self) List.not_mem_nil
    | cons first others =>
      have before := isLE_of_mem stable.ordered ((stable.mem_iff second).2 List.mem_cons_self)
      have after := isLE_of_mem ordered ((stable.mem_iff first).1 List.mem_cons_self)
      have same : (second == first) = true :=
        Std.compare_eq_iff_beq.1 (Std.OrientedCmp.isLE_antisymm after before)
      have kept := stable.kept first
      have self : (first == first) = true := BEq.rfl
      rw [List.filter_cons, List.filter_cons, if_pos self, if_pos same] at kept
      obtain rfl := (List.cons.inj kept).1
      rw [ih stable.tail ordered.of_cons]

end StablySorted

/-- A stable sort of usages can only come out as it does. -/
theorem stablySorted_iff (usages sorted : List Usage) :
    StablySorted usages sorted ↔ sorted = sort usages := by
  have result := stablySorted_sort usages
  constructor
  · intro stable
    have again : StablySorted (sort usages) sorted :=
      ⟨stable.ordered, fun usage => (stable.kept usage).trans (result.kept usage).symm⟩
    exact again.eq_of_ordered result.ordered
  · rintro rfl
    exact result

end AssetUsage.Usage
