import Mathlib.Data.List.Basic

/-!
# Lists and hash sets

Lists that are joined hold what the parts and the separators hold (`not_mem_intercalate`,
`subset_intercalate`), lists are cut at the same places under other names (`splitOn_map`), and lists
that go on from a common front compare as their rests do (`compare_append_left`). Elements that are
put into a hash set one after the other join those it holds, the first of equal ones
(`toList_insertMany_perm`).
-/

namespace AssetUsage.Sequence

section Joined

variable {α : Type} {separator : List α}

/-- What is neither in the parts nor between them is not in the whole. -/
theorem not_mem_intercalate {c : α} {parts : List (List α)} (between : c ∉ separator)
    (apart : ∀ part ∈ parts, c ∉ part) : c ∉ separator.intercalate parts := by
  match parts with
  | [] => exact List.not_mem_nil
  | [part] => simpa using apart
  | part :: second :: others =>
    have ih := not_mem_intercalate between fun other mem =>
      apart other (List.mem_cons_of_mem _ mem)
    rw [List.intercalate_cons_cons]
    simp [apart part List.mem_cons_self, between, ih]

/-- All of a part is in the whole. -/
theorem subset_intercalate {part : List α} {parts : List (List α)} (mem : part ∈ parts) :
    part ⊆ separator.intercalate parts := by
  match parts with
  | [only] =>
    obtain rfl := List.mem_singleton.1 mem
    rw [List.intercalate_singleton]
    exact List.Subset.refl part
  | first :: second :: others =>
    rw [List.intercalate_cons_cons]
    rcases List.mem_cons.1 mem with rfl | mem
    · exact fun c inside => List.mem_append_left _ (List.mem_append_left _ inside)
    · exact fun c inside => List.mem_append_right _ (subset_intercalate mem inside)

/-- Parts behind other parts stand behind one more separator. -/
theorem intercalate_append {parts more : List (List α)} (nonempty : parts ≠ [])
    (moreNonempty : more ≠ []) :
    separator.intercalate (parts ++ more) =
      separator.intercalate parts ++ (separator ++ separator.intercalate more) := by
  match parts with
  | [only] =>
    obtain ⟨first, others, rfl⟩ := List.exists_cons_of_ne_nil moreNonempty
    rw [List.singleton_append, List.intercalate_cons_cons, List.intercalate_singleton,
      List.append_assoc]
  | first :: second :: others =>
    have ih := intercalate_append (List.cons_ne_nil second others) moreNonempty
    rw [List.cons_append, List.cons_append, List.intercalate_cons_cons, ← List.cons_append, ih,
      List.intercalate_cons_cons]
    simp only [List.append_assoc]

end Joined

/-- Lists are cut at the same places once their elements are exchanged for others. -/
theorem splitOn_map {α β : Type} [BEq α] [LawfulBEq α] [BEq β] [LawfulBEq β] {f : α → β}
    (apart : Function.Injective f) (mark : α) (items : List α) :
    (items.map f).splitOn (f mark) = (items.splitOn mark).map (List.map f) := by
  induction items with
  | nil => rfl
  | cons item rest ih =>
    obtain ⟨first, others, split⟩ := List.exists_cons_of_ne_nil (List.splitOn_ne_nil mark rest)
    rw [List.map_cons, List.splitOn_cons_eq_if_modifyHead, List.splitOn_cons_eq_if_modifyHead, ih,
      split]
    by_cases same : item = mark
    · rw [if_pos (beq_iff_eq.2 (congrArg f same)), if_pos (beq_iff_eq.2 same)]
      rfl
    · rw [if_neg (mt beq_iff_eq.1 (apart.ne same)), if_neg (mt beq_iff_eq.1 same)]
      rfl

/-- Behind a common front, chains compare as their rests do. -/
theorem compare_append_left {α : Type} [Ord α] [Std.ReflOrd α] (front left right : List α) :
    compare (front ++ left) (front ++ right) = compare left right := by
  induction front with
  | nil => rfl
  | cons first others ih =>
    rw [List.cons_append, List.cons_append, List.compare_cons_cons, Std.ReflOrd.compare_self]
    exact ih

/-- A chain whose first element comes first comes first. -/
theorem compare_cons_of_lt {α : Type} [Ord α] {first second : α} (left right : List α)
    (ordered : compare first second = .lt) :
    compare (first :: left) (second :: right) = .lt := by
  rw [List.compare_cons_cons, ordered]
  rfl

section Insertion

variable {α : Type} [BEq α] [Hashable α] [EquivBEq α] [LawfulHashable α]

/-- With one more element in a hash set, what is equal to it is no longer missing. -/
theorem filter_not_contains_insert (set : Std.HashSet α) (first : α) (others : List α) :
    (others.filter fun item => !(set.insert first).contains item) =
      (others.filter fun item => !set.contains item).filter fun item => !item == first := by
  rw [List.filter_filter]
  refine List.filter_congr fun item _ => ?_
  rw [Std.HashSet.contains_insert, Bool.not_or, BEq.comm]

/-- Elements that are put into a hash set join those it holds, each once and only if it is missing.
-/
theorem toList_insertMany_perm (set : Std.HashSet α) (added : List α) :
    (set.insertMany added).toList.Perm
      (set.toList ++ (added.filter fun item => !set.contains item).eraseDups) := by
  induction added generalizing set with
  | nil => simp
  | cons first others ih =>
    have inserted : (set.insert first).toList.Perm
        (if first ∈ set then set.toList else first :: set.toList) :=
      Std.HashSet.toList_insert_perm
    have later := (ih (set.insert first)).trans (inserted.append_right _)
    rw [filter_not_contains_insert] at later
    rw [Std.HashSet.insertMany_cons]
    by_cases known : first ∈ set
    · have apart : ∀ item ∈ others.filter fun item => !set.contains item,
          (!item == first) = true := by
        intro item mem
        have missing := (List.mem_filter.1 mem).2
        by_contra same
        simp only [Bool.not_eq_true', Bool.not_eq_false] at same
        simp [Std.HashSet.contains_congr same, known] at missing
      rw [if_pos known, List.filter_eq_self.2 apart] at later
      simpa [List.filter_cons, known] using later
    · rw [if_neg known] at later
      simp only [List.filter_cons, Std.HashSet.contains_eq_false_iff_not_mem.2 known,
        Bool.not_false, if_true, List.eraseDups_cons]
      exact later.trans List.perm_middle.symm

end Insertion

end AssetUsage.Sequence
