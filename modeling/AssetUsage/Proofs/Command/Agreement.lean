import AssetUsage.Command.Run
import AssetUsage.Proofs.Scan.DeferredText

/-!
# The agreement of the commands

The three commands look at a list of targets in three ways: `kind` looks at paths alone, `find`
scans with or without the texts of lines, as its format asks, and `unused` always without. All that
they say about a target comes down to whether it is covered and whether it has a usage (`HasUsage`),
and the latter does not depend on the texts (`commands_agree`).
-/

namespace AssetUsage

namespace Search

variable {tree : Tree} {project : Project} {options : ScanOptions} {target : Path}

/-- The target is covered and has a usage. -/
def HasUsage (tree : Tree) (project : Project) (options : ScanOptions) (target : Path) : Prop :=
  ∃ finder, Finder.ofTarget? project target = some finder ∧ Scan.usages tree finder options ≠ []

/-- What `kind` says about one target. -/
def kindSaid? (project : Project) (target : Path) : Option (List Char) :=
  (kinds project [target]).head?.bind (·.kind)

/-- A scan finds something with the texts of lines exactly if it does without them. -/
theorem usages_ne_nil_iff (tree : Tree) (finder : Finder) (options : ScanOptions)
    (captureText : Bool) :
    Scan.usages tree finder { options with captureText } ≠ [] ↔
      Scan.usages tree finder { options with captureText := false } ≠ [] := by
  cases captureText with
  | false => exact Iff.rfl
  | true => rw [Scan.usages_deferring, ne_eq, ne_eq, List.map_eq_nil_iff]

/-- Whether a target has a usage does not depend on the texts of lines. -/
theorem hasUsage_captureText (captureText : Bool) :
    HasUsage tree project { options with captureText } target ↔
      HasUsage tree project { options with captureText := false } target := by
  unfold HasUsage
  simp only [usages_ne_nil_iff tree _ options captureText]

/-- A target is covered exactly if `kind` does not say that it is unsupported. -/
theorem kindSaid?_ne_unsupported_iff :
    kindSaid? project target ≠ some unsupported ↔
      ∃ finder, Finder.ofTarget? project target = some finder := by
  have said : kindSaid? project target =
      some ((AssetKind.ofTarget? project (project.absolutize target)).elim unsupported
        (·.word.toList)) := rfl
  rw [said, Finder.ofTarget?]
  cases AssetKind.ofTarget? project (project.absolutize target) with
  | none => simp
  | some kind =>
    have words : kind.word.toList ≠ unsupported := by cases kind <;> decide
    simpa using words

/-- The report on a target with a usage is the one that is not empty. -/
theorem exists_report?_iff :
    (∃ report, report? tree project options target = some report ∧ report.isEmpty = false) ↔
      HasUsage tree project options target := by
  unfold report? HasUsage
  cases Finder.ofTarget? project target with
  | none => simp
  | some finder => simp [UsageReport.isEmpty]

/-- Something is found exactly if some target has a usage. -/
theorem found_reports_iff {targets : List Path} :
    found (reports tree project options targets) = true ↔
      ∃ target ∈ targets, HasUsage tree project options target := by
  simp only [found, reports, List.any_eq_true, List.mem_filterMap, Bool.not_eq_true',
    ← exists_report?_iff]
  constructor
  · rintro ⟨report, ⟨target, mem, reported⟩, nonempty⟩
    exact ⟨target, mem, report, reported, nonempty⟩
  · rintro ⟨target, mem, report, reported, nonempty⟩
    exact ⟨report, ⟨target, mem, reported⟩, nonempty⟩

/-- The report on a target is kept as unused exactly if the target is covered and has no usage. -/
theorem filter_report?_eq (isUnused : Bool)
    (decides : isUnused = true ↔
      (∃ finder, Finder.ofTarget? project target = some finder) ∧
        ¬ HasUsage tree project options target) :
    ((report? tree project options target).filter (·.isEmpty)).map
        (fun report => (⟨report.target, none⟩ : TargetRecord)) =
      if isUnused then some ⟨project.displayed target, none⟩ else none := by
  unfold report?
  unfold HasUsage at decides
  cases covered : Finder.ofTarget? project target with
  | none =>
    have used : isUnused = false := by simpa [covered] using decides
    rw [used]
    rfl
  | some finder =>
    have empty : isUnused = (Scan.usages tree finder options).isEmpty := by
      rw [Bool.eq_iff_iff, decides, List.isEmpty_iff]
      simp [covered]
    rw [empty, Option.map_some, Option.filter_some, UsageReport.isEmpty]
    cases (Scan.usages tree finder options).isEmpty <;> rfl

/-- The unused targets are those that are covered and have no usage, in their order. -/
theorem unused_eq {targets : List Path} {isUnused : Path → Bool}
    (decides : ∀ target, isUnused target = true ↔
      (∃ finder, Finder.ofTarget? project target = some finder) ∧
        ¬ HasUsage tree project { options with captureText := false } target) :
    unused tree project options targets =
      (targets.filter isUnused).map fun target => ⟨project.displayed target, none⟩ := by
  rw [unused, reports, List.filter_filterMap, List.map_filterMap, ← List.filterMap_eq_map,
    List.filterMap_filter]
  exact List.filterMap_congr fun target _ => filter_report?_eq _ (decides target)

end Search

namespace Command

open Search (HasUsage kindSaid? unsupported)

variable {tree : Tree} {project : Project} {options : ScanOptions}

/-- The status of `find` tells whether some target has a usage, in every format. -/
theorem status_runFind (style : RenderStyle) (targets : List Path) :
    (runFind tree project options style targets).1 =
      if Search.found (Search.reports tree project { options with captureText := false } targets)
      then 0 else 1 := by
  have same : Search.found (Search.reports tree project
      { options with captureText := style.format.showsLineText } targets) =
      Search.found (Search.reports tree project { options with captureText := false } targets) := by
    rw [Bool.eq_iff_iff, Search.found_reports_iff, Search.found_reports_iff]
    exact exists_congr fun target => and_congr_right fun _ => Search.hasUsage_captureText _
  rw [runFind, same]

/-- The status of `find` is zero or one. -/
theorem status_runFind_eq_one_iff (style : RenderStyle) (targets : List Path) :
    (runFind tree project options style targets).1 = 1 ↔
      ¬ (runFind tree project options style targets).1 = 0 := by
  rw [status_runFind]
  split <;> simp

/-- The status of `find` is zero exactly if some target has a usage. -/
theorem status_runFind_eq_zero_iff (style : RenderStyle) (targets : List Path) :
    (runFind tree project options style targets).1 = 0 ↔
      ∃ target ∈ targets, HasUsage tree project { options with captureText := false } target := by
  rw [status_runFind, ← Search.found_reports_iff]
  split <;> simp_all

/-- On one target `find` ends with zero exactly if the target has a usage. -/
theorem status_runFind_singleton (style : RenderStyle) (target : Path) :
    (runFind tree project options style [target]).1 = 0 ↔
      HasUsage tree project { options with captureText := false } target := by
  rw [status_runFind_eq_zero_iff]
  simp

end Command

end AssetUsage
