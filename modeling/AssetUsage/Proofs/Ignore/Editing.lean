import AssetUsage.Proofs.Scan.Ignoring
import AssetUsage.Proofs.Tree.Editing

/-!
# Rules of ignore files after an edit

The rules of a directory are those of its `.ignore`, its `.gitignore` and its exclude file, and
those of git's global ignore file. The exclude file lies in the `.git` directory, unless `.git` is a
file: that links the directory to version control data anywhere else. Where no link has a part in
it and the global rules stay, an edit of any file but an ignore file leaves the rules of every
directory as they are (`sameRules_of_sameElsewhere`).
-/

namespace AssetUsage.Ignore

open AssetUsage.Path (NamesEntry assemble)

/-- The names on the way to the exclude file of a directory that is not linked. -/
def excludeNames : List Segment := [".git", "info", "exclude"].map String.toList

/-- The names lead to an ignore file of the directory where it lies, or to an exclude file. -/
def IsIgnoreFile (names : List Segment) : Prop :=
  names.getLast? = some ".ignore".toList ∨ names.getLast? = some ".gitignore".toList ∨
    excludeNames <:+ names

instance (names : List Segment) : Decidable (IsIgnoreFile names) :=
  inferInstanceAs (Decidable (_ ∨ _ ∨ _))

/-- The `.git` of a directory is a file, so its exclude file lies where this leads. -/
def IsLinked (tree : Tree) (dir : List Segment) : Prop :=
  ∃ content, tree.entryAt? (dir ++ [".git".toList]) = some (.file content)

/-- Links give the directories above a root, at it and below it the same exclude rules in two
trees. -/
def LinksKept (tree other : Tree) (root : List Segment) : Prop :=
  ∀ dir, dir <+: root ∨ root <+: dir → IsLinked tree dir ∨ IsLinked other dir →
    (Level.of tree dir).excluded = (Level.of other dir).excluded

variable {tree other : Tree} {place dir names : List Segment}

/-- Neither tree comes first. -/
theorem LinksKept.symm {root : List Segment} (kept : LinksKept tree other root) :
    LinksKept other tree root :=
  fun dir onWay linked => (kept dir onWay linked.symm).symm

/-- An edit of a file that is not called `.git` neither links a directory nor frees it. -/
theorem isLinked_iff (same : tree.SameElsewhere other place)
    (differs : place.getLast? ≠ some ".git".toList) : IsLinked other dir ↔ IsLinked tree dir := by
  have elsewhere : dir ++ [".git".toList] ≠ place := by
    rintro rfl
    exact differs List.getLast?_concat
  exact exists_congr fun content => same _ content elsewhere

/-- Without links, edits of files that are not called `.git` keep all that links give. -/
theorem linksKept_of_forall_not_isLinked {root : List Segment}
    (same : tree.SameElsewhere other place)
    (differs : place.getLast? ≠ some ".git".toList) (unlinked : ∀ dir, ¬ IsLinked tree dir) :
    LinksKept tree other root := by
  intro dir _ linked
  rw [isLinked_iff same differs, or_self] at linked
  exact absurd linked (unlinked dir)

/-- The exclude file of a directory that is not linked lies in its `.git` directory. -/
theorem excludeFile?_of_not_isLinked (named : ∀ name ∈ dir, NamesEntry name)
    (unlinked : ¬ IsLinked tree dir) :
    excludeFile? tree (assemble .root dir) = .ok (some (assemble .root (dir ++ excludeNames))) := by
  have control : (assemble .root dir).join (.ofString ".git") =
      assemble .root (dir ++ [".git".toList]) :=
    Path.join_assemble_name named (by decide +kernel)
  have namedControl : ∀ name ∈ dir ++ [".git".toList], NamesEntry name :=
    List.forall_mem_append.2 ⟨named, by decide +kernel⟩
  have noFile : ∀ content, tree.find (assemble .root (dir ++ [".git".toList])) ≠
      .ok (.file content) := fun content found =>
    unlinked ⟨content, ((Tree.find_assemble_iff namedControl).1 found).2⟩
  have whole : (assemble .root (dir ++ [".git".toList])).join (.ofString "info/exclude") =
      assemble .root (dir ++ excludeNames) := by
    have chain := Path.join_assemble namedControl
      (by decide : ["info".toList, "exclude".toList] ≠ []) (by decide +kernel)
    rw [List.append_assoc] at chain
    exact chain
  have place : controlDir? tree (assemble .root dir) =
      .ok (some (assemble .root (dir ++ [".git".toList]))) := by
    simp only [controlDir?, control]
    rfl
  rw [excludeFile?, place, ← whole]
  rfl

/-- What an ignore file says is decided by what the path leads to if that is a file. -/
theorem ruleFileAt_congr {file : Path}
    (same : ∀ content,
      tree.find file = .ok (.file content) ↔ other.find file = .ok (.file content)) :
    ruleFileAt tree file = ruleFileAt other file := by
  unfold ruleFileAt
  split
  · next content found => rw [(same content).1 found]
  · next noFile =>
    split
    · next content found => exact absurd ((same content).2 found) (noFile content)
    · rfl

/-- Ignore files elsewhere than at the place of an edit say the same. -/
theorem ruleFileAt_eq_of_ne (same : tree.SameElsewhere other place)
    (named : ∀ name ∈ names, NamesEntry name) (elsewhere : names ≠ place) :
    ruleFileAt tree (assemble .root names) = ruleFileAt other (assemble .root names) :=
  ruleFileAt_congr fun _ => (same.find_file_iff named elsewhere).symm

/-- Git's global rules stay if the file that holds them is named as before and lies elsewhere. -/
theorem globalRules_eq_of_sameElsewhere (same : tree.SameElsewhere other place)
    (dir : tree.workingDir = other.workingDir)
    (namedAlike : tree.globalIgnore tree.root = other.globalIgnore other.root)
    (elsewhere : ∀ file ∈ tree.globalIgnore tree.root,
      file.IsCanonical ∧ file.placeNames ≠ place) : globalRules tree = globalRules other := by
  have rules : (tree.globalIgnore tree.root).elim .empty (ruleFileAt tree) =
      (other.globalIgnore other.root).elim .empty (ruleFileAt other) := by
    rw [← namedAlike]
    cases found : tree.globalIgnore tree.root with
    | none => rfl
    | some file =>
      obtain ⟨canonical, apart⟩ := elsewhere file found
      obtain ⟨names, named, rfl⟩ := canonical.exists_names
      rw [Path.placeNames_assemble named] at apart
      exact ruleFileAt_eq_of_ne same named apart
  rw [globalRules, globalRules, dir, rules]

/-- An edit of any file but an ignore file leaves the rules of a directory as they are, provided
that a link, where there is one, still gives the same and that git's global rules stay. -/
theorem sameRules_of_sameElsewhere (same : tree.SameElsewhere other place)
    (noIgnoreFile : ¬ IsIgnoreFile place) (named : ∀ name ∈ dir, NamesEntry name)
    (linked : IsLinked tree dir ∨ IsLinked other dir →
      (Level.of tree dir).excluded = (Level.of other dir).excluded)
    (general : globalRules tree = globalRules other) : SameRules tree other dir := by
  have inDir {name : Segment} (namedLast : NamesEntry name) (elsewhere : dir ++ [name] ≠ place) :
      ruleFileAt tree ((assemble .root dir).join ⟨name⟩) =
        ruleFileAt other ((assemble .root dir).join ⟨name⟩) := by
    rw [Path.join_assemble_name named namedLast]
    exact ruleFileAt_eq_of_ne same
      (List.forall_mem_append.2 ⟨named, List.forall_mem_singleton.2 namedLast⟩) elsewhere
  refine ⟨congrArg RuleFile.rules (inDir (by decide +kernel) ?_),
    congrArg RuleFile.rules (inDir (by decide +kernel) ?_), ?_, general⟩
  · rintro rfl
    exact noIgnoreFile (.inl List.getLast?_concat)
  · rintro rfl
    exact noIgnoreFile (.inr (.inl List.getLast?_concat))
  · by_cases free : IsLinked tree dir ∨ IsLinked other dir
    · exact linked free
    · obtain ⟨unlinked, unlinkedOther⟩ := not_or.1 free
      have elsewhere : dir ++ excludeNames ≠ place := by
        rintro rfl
        exact noIgnoreFile (.inr (.inr (List.suffix_append _ _)))
      have namedFile : ∀ name ∈ dir ++ excludeNames, NamesEntry name :=
        List.forall_mem_append.2 ⟨named, by decide +kernel⟩
      change (excludeRules tree (assemble .root dir)).rules =
        (excludeRules other (assemble .root dir)).rules
      rw [excludeRules, excludeRules, excludeFile?_of_not_isLinked named unlinked,
        excludeFile?_of_not_isLinked named unlinkedOther]
      exact congrArg RuleFile.rules (ruleFileAt_eq_of_ne same namedFile elsewhere)

end AssetUsage.Ignore
