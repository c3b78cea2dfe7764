import AssetUsage.Proofs.Path.Chains
import AssetUsage.Proofs.Scan.CandidateFiles

/-!
# Looking up canonical paths

A canonical path is followed name by name. It leads to what stands at the end of its names, unless
the path or one of the names may not be used at all, which does not depend on the tree
(`find_assemble_iff`, `locate_assemble_iff`).
-/

namespace AssetUsage.Tree

open AssetUsage.Path (NamesEntry assemble)

/-- The path of the names may be used, and so may each name on the way. -/
structure MayBeUsed (names : List Segment) : Prop where
  plain : '\x00' ∉ (assemble .root names).text
  short : isTooLong (assemble .root names).text = false
  names : ∀ name ∈ names, (Text.Utf8.encode name).length ≤ nameLimit

variable {tree : Tree} {names segments found : List Segment}

/-- One more name leads to an entry that is there. -/
theorem follow_eq_ok_iff {name : Segment} (named : NamesEntry name) :
    tree.follow names name = .ok found ↔
      found = names ++ [name] ∧ (Text.Utf8.encode name).length ≤ nameLimit ∧
        (tree.entryAt? (names ++ [name])).isSome := by
  obtain ⟨significant, other, -⟩ := named
  rw [entryAt?_append]
  unfold follow
  cases entered : tree.entryAt? names with
  | none => simp
  | some entry =>
    cases entry with
    | file content => simp [Entry.at?]
    | directory inner =>
      have below : ((some (Entry.directory inner)).bind (Entry.at? [name])).isSome =
          (inner.find? name).isSome := by
        rw [Option.bind_some, Entry.at?]
        cases inner.find? name <;> rfl
      rw [below]
      simp only [significant, Bool.not_true, Bool.false_eq_true, if_false, if_neg other]
      by_cases long : (Text.Utf8.encode name).length > nameLimit
      · simp [if_pos long, Nat.not_le.2 long]
      · cases (inner.find? name).isSome <;> simp [if_neg long, Nat.not_lt.1 long, eq_comm]

/-- Names lead to what stands at the end of them. -/
theorem foldlM_follow_eq_ok_iff (there : (tree.entryAt? names).isSome)
    (named : ∀ name ∈ segments, NamesEntry name) :
    segments.foldlM tree.follow names = .ok found ↔
      found = names ++ segments ∧
        (∀ name ∈ segments, (Text.Utf8.encode name).length ≤ nameLimit) ∧
        (tree.entryAt? (names ++ segments)).isSome := by
  induction segments generalizing names with
  | nil => simp [there, pure, Except.pure, eq_comm]
  | cons first others ih =>
    obtain ⟨namedFirst, namedOthers⟩ := List.forall_mem_cons.1 named
    have whole : names ++ first :: others = names ++ [first] ++ others := by simp
    rw [List.foldlM_cons, List.forall_mem_cons, whole]
    cases step : tree.follow names first with
    | error error =>
      refine iff_of_false (by simp [bind, Except.bind]) ?_
      rintro ⟨-, ⟨short, -⟩, reached⟩
      have entered : (tree.entryAt? (names ++ [first])).isSome := by
        rw [entryAt?_append _ (names ++ [first])] at reached
        cases entry : tree.entryAt? (names ++ [first]) with
        | none => simp [entry] at reached
        | some entry => rfl
      rw [(follow_eq_ok_iff namedFirst).2 ⟨rfl, short, entered⟩] at step
      contradiction
    | ok place =>
      obtain ⟨rfl, short, entered⟩ := (follow_eq_ok_iff namedFirst).1 step
      exact (ih entered namedOthers).trans (by simp [short])

/-- A canonical path is followed through its names. -/
theorem foldlM_body_assemble (named : ∀ name ∈ names, NamesEntry name) :
    (assemble .root names).body.foldlM tree.follow [] = names.foldlM tree.follow [] := by
  cases names with
  | nil => rfl
  | cons first others => rw [Path.body_assemble (List.cons_ne_nil _ _) named]

/-- A canonical path leads to the place of its names, if there is something. -/
theorem locate_assemble_iff (named : ∀ name ∈ names, NamesEntry name) :
    tree.locate (assemble .root names) = .ok found ↔
      found = names ∧ MayBeUsed names ∧ (tree.entryAt? names).isSome := by
  have absolute : (assemble .root names).isAbsolute = true := rfl
  have nonempty : (assemble .root names).text ≠ [] := List.cons_ne_nil _ _
  have followed : names.foldlM tree.follow [] = .ok found ↔
      found = names ∧ (∀ name ∈ names, (Text.Utf8.encode name).length ≤ nameLimit) ∧
        (tree.entryAt? names).isSome := foldlM_follow_eq_ok_iff rfl named
  unfold locate route
  by_cases plain : '\x00' ∈ (assemble .root names).text
  · refine iff_of_false (by simp [plain, bind, Except.bind]) ?_
    exact fun h => h.2.1.plain plain
  · simp only [plain, nonempty, absolute, if_true, if_false, bind, Except.bind]
    by_cases long : isTooLong (assemble .root names).text = true
    · refine iff_of_false (by simp [long]) ?_
      intro h
      rw [h.2.1.short] at long
      contradiction
    · rw [if_neg long, foldlM_body_assemble named, followed]
      constructor
      · rintro ⟨same, short, there⟩
        exact ⟨same, ⟨plain, Bool.eq_false_iff.2 long, short⟩, there⟩
      · rintro ⟨same, usable, there⟩
        exact ⟨same, usable.names, there⟩

/-- A canonical path leads to what stands at the end of its names. -/
theorem find_assemble_iff {entry : Entry} (named : ∀ name ∈ names, NamesEntry name) :
    tree.find (assemble .root names) = .ok entry ↔
      MayBeUsed names ∧ tree.entryAt? names = some entry := by
  unfold find
  cases located : tree.locate (assemble .root names) with
  | error error =>
    refine iff_of_false (by simp [bind, Except.bind]) ?_
    rintro ⟨usable, entered⟩
    rw [(locate_assemble_iff named).2 ⟨rfl, usable, by simp [entered]⟩] at located
    contradiction
  | ok place =>
    obtain ⟨rfl, usable, there⟩ := (locate_assemble_iff named).1 located
    obtain ⟨other, entered⟩ := Option.isSome_iff_exists.1 there
    simp [bind, Except.bind, entered, usable]

end AssetUsage.Tree
