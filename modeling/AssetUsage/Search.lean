import AssetUsage.Scan.Usages
import AssetUsage.Report.Render

/-!
# Searching for targets

Several targets are searched for one after the other. A target that no kind covers has no report;
one that is not there is searched for all the same.
-/

namespace AssetUsage.Search

variable (tree : Tree) (project : Project) (options : ScanOptions)

/-- The report on a target, if a kind covers it. -/
def report? (target : Path) : Option UsageReport :=
  (Finder.ofTarget? project target).map fun finder =>
    ⟨project.displayed target, Scan.usages tree finder options⟩

/-- The reports on the targets that are covered. -/
def reports (targets : List Path) : List UsageReport :=
  targets.filterMap (report? tree project options)

/-- The events of searching for a target. -/
def eventsOf (target : Path) : List Event :=
  let shown := project.displayed target
  match Finder.ofTarget? project target with
  | none => [.unsupportedTarget shown]
  | some finder =>
    (if tree.contains finder.target then [] else [.missingTarget shown]) ++
      .searching shown finder.kind :: Scan.events tree finder options

/-- The events of searching for targets. -/
def events (targets : List Path) : List Event := targets.flatMap (eventsOf tree project options)

/-- Some target of the reports has a usage. -/
def found (reports : List UsageReport) : Bool := reports.any fun report => !report.isEmpty

/-- The covered targets that have no usage. -/
def unused (targets : List Path) : List TargetRecord :=
  ((reports tree project { options with captureText := false } targets).filter
    (·.isEmpty)).map fun report => ⟨report.target, none⟩

/-- What is said of a target that no kind covers. -/
def unsupported : List Char := "unsupported".toList

/-- The targets with their kinds. -/
def kinds (targets : List Path) : List TargetRecord :=
  targets.map fun target =>
    let kind := AssetKind.ofTarget? project (project.absolutize target)
    ⟨project.displayed target, some (kind.elim unsupported (·.word.toList))⟩

end AssetUsage.Search
