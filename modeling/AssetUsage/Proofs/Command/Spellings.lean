import AssetUsage.Command.Run
import AssetUsage.Proofs.Finder.Comparisons

/-!
# Spellings on the command line

Directories and targets of a command line are resolved from the root before anything is done with
them. So all that a command says is the same for resolved targets (`reports_map_absolutize` and its
like), and command lines whose paths lead to the same places from the root are about the same
project and end alike (`Invocation.SpelledAlike.run_eq`).
-/

namespace AssetUsage

section Targets

variable {tree : Tree} {project : Project} {options : ScanOptions}
  (absolute : project.root.isAbsolute = true) (target : Path) (targets : List Path)
include absolute

/-- A target that is resolved stays where it is. -/
theorem Project.absolutize_absolutize :
    project.absolutize (project.absolutize target) = project.absolutize target :=
  Path.absolutize_absolutize absolute project.root target

/-- A resolved target is shown alike. -/
theorem Project.displayed_absolutize :
    project.displayed (project.absolutize target) = project.displayed target := by
  rw [displayed, absolutize_absolutize absolute, displayed]

/-- A resolved target has the same finder. -/
theorem Finder.ofTarget?_absolutize :
    ofTarget? project (project.absolutize target) = ofTarget? project target := by
  simp only [ofTarget?, Project.absolutize_absolutize absolute]

/-- Resolved targets have the same finders. -/
theorem Finder.map_ofTarget?_absolutize :
    (targets.map project.absolutize).map (ofTarget? project) =
      targets.map (ofTarget? project) := by
  rw [List.map_map]
  exact List.map_congr_left fun target _ => ofTarget?_absolutize absolute target

namespace Search

/-- Resolved targets have the same reports. -/
theorem reports_map_absolutize :
    reports tree project options (targets.map project.absolutize) =
      reports tree project options targets := by
  have same : report? tree project options ∘ project.absolutize = report? tree project options := by
    funext target
    rw [Function.comp, report?, Finder.ofTarget?_absolutize absolute,
      Project.displayed_absolutize absolute, report?]
  rw [reports, List.filterMap_map, same, reports]

/-- Resolved targets have the same events. -/
theorem events_map_absolutize :
    events tree project options (targets.map project.absolutize) =
      events tree project options targets := by
  have same : ∀ target,
      eventsOf tree project options (project.absolutize target) =
        eventsOf tree project options target := by
    intro target
    unfold eventsOf
    rw [Finder.ofTarget?_absolutize absolute, Project.displayed_absolutize absolute]
  rw [events, List.flatMap_map, funext same, events]

/-- Resolved targets have the same kinds. -/
theorem kinds_map_absolutize :
    kinds project (targets.map project.absolutize) = kinds project targets := by
  rw [kinds, kinds, List.map_map]
  refine List.map_congr_left fun target _ => ?_
  simp only [Function.comp, Project.absolutize_absolutize absolute,
    Project.displayed_absolutize absolute]

/-- Resolved targets are unused alike. -/
theorem unused_map_absolutize :
    unused tree project options (targets.map project.absolutize) =
      unused tree project options targets := by
  rw [unused, reports_map_absolutize absolute, unused]

end Search

end Targets

/-- Overrides that lead to the same places from the root make the same project. -/
theorem Project.override_congr {project : Project} {first second : Overrides}
    (views : first.views.map project.absolutize = second.views.map project.absolutize)
    (layouts : first.layouts.map project.absolutize = second.layouts.map project.absolutize)
    (controllers :
      first.controllers.map project.absolutize = second.controllers.map project.absolutize)
    (publicFiles :
      first.publicFiles.map project.absolutize = second.publicFiles.map project.absolutize) :
    project.override first = project.override second := by
  have moved : ∀ (dir : Path) (path : Option Path),
      path.elim dir project.absolutize = (path.map project.absolutize).getD dir := by
    intro dir path
    cases path <;> rfl
  rw [override_eq, override_eq]
  simp only [moved, views, layouts, controllers, publicFiles]

/-- Overrides leave the root of a project. -/
theorem Project.root_override (project : Project) (overrides : Overrides) :
    (project.override overrides).root = project.root := by
  rw [override_eq]

namespace Command

section Targets

variable {tree : Tree} {project : Project} {options : ScanOptions} {style : RenderStyle}
  (absolute : project.root.isAbsolute = true) (targets : List Path)
include absolute

/-- Usages of resolved targets are printed alike. -/
theorem runFind_map_absolutize :
    runFind tree project options style (targets.map project.absolutize) =
      runFind tree project options style targets := by
  simp only [runFind, Search.reports_map_absolutize absolute,
    Search.events_map_absolutize absolute]

/-- Resolved targets without usages are printed alike. -/
theorem runUnused_map_absolutize :
    runUnused tree project options style (targets.map project.absolutize) =
      runUnused tree project options style targets := by
  simp only [runUnused, Search.unused_map_absolutize absolute,
    Search.events_map_absolutize absolute]

/-- Kinds of resolved targets are printed alike. -/
theorem runKind_map_absolutize :
    runKind project style (targets.map project.absolutize) = runKind project style targets := by
  simp only [runKind, Search.kinds_map_absolutize absolute]

end Targets

/-- The command lines differ at most in how targets and directories are spelled: from the root,
their paths lead to the same places. -/
structure Invocation.SpelledAlike (root : Path) (first second : Invocation) : Prop where
  targets : first.targets.map root.absolutize = second.targets.map root.absolutize
  views : first.viewsDir.map root.absolutize = second.viewsDir.map root.absolutize
  layouts : first.layoutsDir.map root.absolutize = second.layoutsDir.map root.absolutize
  controllers :
    first.controllersDir.map root.absolutize = second.controllersDir.map root.absolutize
  publicFiles : first.publicDir.map root.absolutize = second.publicDir.map root.absolutize
  others : { first with
    targets := second.targets
    viewsDir := second.viewsDir
    layoutsDir := second.layoutsDir
    controllersDir := second.controllersDir
    publicDir := second.publicDir } = second

namespace Invocation.SpelledAlike

variable {root : Path} {first second : Invocation} {surroundings : Surroundings}

/-- Layouts that follow moved views lead to the same place as well. -/
theorem layouts_overrides (alike : SpelledAlike root first second) :
    first.overrides.layouts.map root.absolutize = second.overrides.layouts.map root.absolutize := by
  have followed : ∀ views : Option Path,
      (views.map (·.join (.ofString "layouts"))).map root.absolutize =
        (views.map root.absolutize).map fun dir => (dir.join (.ofString "layouts")).normalize := by
    intro views
    rw [Option.map_map, Option.map_map]
    exact congrArg (Option.map · views) (funext fun dir => Path.absolutize_join root dir _)
  rw [overrides, overrides, Option.map_or, Option.map_or, followed, followed, alike.layouts,
    alike.views]

/-- Both are about one project. -/
theorem override_eq (alike : SpelledAlike root first second) :
    (Project.conventional root).override first.overrides =
      (Project.conventional root).override second.overrides :=
  Project.override_congr alike.views alike.layouts_overrides alike.controllers alike.publicFiles

/-- Both are about one project, if they find the root. -/
theorem project_eq (alike : SpelledAlike root first second)
    (opened : Project.openAt surroundings.tree first.root = .ok (.conventional root)) :
    first.project surroundings = .ok ((Project.conventional root).override first.overrides) ∧
      second.project surroundings =
        .ok ((Project.conventional root).override first.overrides) := by
  have sameRoot : first.root = second.root := by rw [← alike.others]
  constructor
  · rw [project, opened]
  · rw [project, ← sameRoot, opened, alike.override_eq]

/-- What is the same for resolved targets is the same for both. -/
theorem answer_eq {α : Type} {answer : List Path → α} (alike : SpelledAlike root first second)
    (resolved : ∀ targets, answer (targets.map root.absolutize) = answer targets) :
    answer first.targets = answer second.targets := by
  rw [← resolved first.targets, alike.targets, resolved]

/-- Both end alike. -/
theorem run_eq (alike : SpelledAlike root first second) (absolute : root.isAbsolute = true)
    (opened : Project.openAt surroundings.tree first.root = .ok (.conventional root)) :
    first.run surroundings = second.run surroundings := by
  obtain ⟨firstProject, secondProject⟩ := alike.project_eq opened
  have sameStyle : first.style surroundings = second.style surroundings := by
    rw [← alike.others, style, style]
  have sameCommand : first.command = second.command := by rw [← alike.others]
  have sameIgnore : first.noIgnore = second.noIgnore := by rw [← alike.others]
  have sameLevel : first.logLevel = second.logLevel := by rw [← alike.others, logLevel, logLevel]
  have rooted := Project.root_override (.conventional root) first.overrides
  generalize (Project.conventional root).override first.overrides = project at *
  obtain rfl : project.root = root := rooted
  rw [run, run, sameStyle, firstProject, secondProject, sameCommand, sameIgnore, sameLevel]
  cases second.style surroundings with
  | error failure => rfl
  | ok style =>
    have ended {answer other : Nat × List Char × List Event} (same : answer = other) :
        (Except.ok (.done answer.1 answer.2.1 (logLines second.logLevel answer.2.2)) :
          Except Failure Outcome) =
        .ok (.done other.1 other.2.1 (logLines second.logLevel other.2.2)) := by rw [same]
    cases second.command with
    | find => exact ended (alike.answer_eq (runFind_map_absolutize absolute))
    | unused => exact ended (alike.answer_eq (runUnused_map_absolutize absolute))
    | kind => exact ended (alike.answer_eq (runKind_map_absolutize absolute))

end Invocation.SpelledAlike

/-- What command lines with paths to the same places say of the project and its targets. -/
structure Invocation.SaysSame (surroundings : Surroundings) (first second : Invocation) : Prop where
  project : first.project surroundings = second.project surroundings
  kinds : ∀ project, first.project surroundings = .ok project →
    Search.kinds project first.targets = Search.kinds project second.targets
  usages : ∀ project options, first.project surroundings = .ok project →
    Search.reports surroundings.tree project options first.targets =
      Search.reports surroundings.tree project options second.targets

/-- Command lines with paths to the same places say the same. -/
theorem Invocation.SpelledAlike.saysSame {root : Path} {first second : Invocation}
    {surroundings : Surroundings} (alike : SpelledAlike root first second)
    (absolute : root.isAbsolute = true)
    (opened : Project.openAt surroundings.tree first.root = .ok (.conventional root)) :
    SaysSame surroundings first second := by
  obtain ⟨firstProject, secondProject⟩ := alike.project_eq opened
  have rooted {project : Project} (found : first.project surroundings = .ok project) :
      project.root = root := by
    obtain rfl := Except.ok.inj (firstProject.symm.trans found)
    exact Project.root_override (.conventional root) first.overrides
  constructor
  · rw [firstProject, secondProject]
  · intro project found
    obtain rfl := rooted found
    exact alike.answer_eq (Search.kinds_map_absolutize absolute)
  · intro project options found
    obtain rfl := rooted found
    exact alike.answer_eq (Search.reports_map_absolutize absolute)

/-- A project is opened at a canonical root. From a canonical root, whatever directories are moved
and however this is spelled, the project and the directories of its assets are canonical, and so are
its candidates and all paths that finders compare when they look at a canonical file; views that the
command line moves on their own take the layouts with them. Paths with one normal form lead to one
place from the root, and command lines whose paths lead to the same places are about the same
project, say the same of their targets and end alike. -/
theorem comparisons_canonical {root : Path} (canonical : root.IsCanonical)
    (overrides : Project.Overrides) :
    (∀ (tree : Tree) (path : Path) (project : Project), Project.openAt tree path = .ok project →
      project.root.IsCanonical ∧ project = .conventional project.root) ∧
    (let project := (Project.conventional root).override overrides
     project.root = root ∧ project.IsCanonical ∧
      (project.stylesheetsDir.IsCanonical ∧ project.javascriptsDir.IsCanonical ∧
        project.imagesDir.IsCanonical) ∧
      ∀ (kind : AssetKind) (target file : Path), file.IsCanonical →
        (Finder.new kind project target).ComparesCanonical file) ∧
    (∀ (finder : Finder) (candidate : Candidate) (reference : Call.RenderReference),
      (finder.isRendered candidate reference =
        (finder.renderedPath? candidate reference).any fun path =>
          if reference.key = .file then finder.isTarget path else finder.target.namedBy path) ∧
      finder.isRenderedPartial candidate reference =
        (finder.partialPath? candidate reference).any finder.target.namedBy) ∧
    (∀ (tree : Tree) (extensions : List (List Char)) (respectIgnore : Bool) (file : Path),
      file ∈ Scan.candidates tree root extensions respectIgnore → file.IsCanonical) ∧
    (∀ (invocation : Invocation) (views : Path),
      invocation.viewsDir = some views → invocation.layoutsDir = none →
        let project := (Project.conventional root).override invocation.overrides
        project.layoutsDir = project.viewsDir.join (.ofString "layouts")) ∧
    (∀ path other : Path, path.normalize = other.normalize →
      root.absolutize path = root.absolutize other) ∧
    ∀ (surroundings : Surroundings) (arguments others : List (List Char))
      (first second : Invocation),
      readInvocation surroundings.environmentRoot arguments = .ok first →
      readInvocation surroundings.environmentRoot others = .ok second →
      Project.openAt surroundings.tree first.root = .ok (.conventional root) →
      Invocation.SpelledAlike root first second →
        Invocation.SaysSame surroundings first second ∧
          run surroundings arguments = run surroundings others := by
  have conventional := Project.isCanonical_conventional canonical
  have moved := Project.isCanonical_override conventional overrides
  refine ⟨fun _ _ _ => Project.isCanonical_of_openAt, ?_, ?_, ?_, ?_, ?_, ?_⟩
  · exact ⟨Project.root_override _ overrides, moved, Project.isCanonical_assetDirs moved,
      fun kind target _ => Finder.comparesCanonical_new kind target moved⟩
  · exact fun finder candidate reference =>
      ⟨finder.isRendered_eq candidate reference, finder.isRenderedPartial_eq candidate reference⟩
  · exact fun _ _ _ _ => Scan.isCanonical_of_mem_candidates canonical
  · exact fun _ _ => layoutsDir_of_views canonical
  · intro path other same
    rw [Path.absolutize, ← Path.normalize_join_right, same, Path.normalize_join_right,
      Path.absolutize]
  · intro surroundings arguments others first second firstRead secondRead opened alike
    refine ⟨alike.saysSame canonical.absolute opened, ?_⟩
    rw [run, run, firstRead, secondRead]
    simp only [alike.run_eq canonical.absolute opened]

/-- Detours of a target and of the views make no difference to what is said of the target. -/
theorem comparisons_canonical_of_detours :
    let surroundings : Surroundings := ⟨.empty, some "/".toList, false⟩
    let direct := ["kind", "x/main.css", "--views-dir=/views"].map String.toList
    let detour := ["kind", "./x//main.css", "--views-dir", "lib/../views/"].map String.toList
    (Path.ofString "/").IsCanonical ∧ run surroundings direct = run surroundings detour :=
  have canonical : (Path.ofString "/").IsCanonical := by decide
  have alike := (comparisons_canonical canonical {}).2.2.2.2.2.2
  ⟨canonical, (alike _ _ _
    ⟨.kind, [.ofString "x/main.css"], .ofString "/", "lines".toList,
      some (.ofString "/views"), none, none, none, false, false, false, false⟩
    ⟨.kind, [.ofString "./x//main.css"], .ofString "/", "lines".toList,
      some (.ofString "lib/../views/"), none, none, none, false, false, false, false⟩
    rfl rfl rfl
    ⟨by decide +kernel, by decide +kernel, rfl, rfl, rfl, rfl⟩).2⟩

end Command

end AssetUsage
