import AssetUsage.Proofs.Command.Spellings
import AssetUsage.Proofs.Path.ShownBytes

/-!
# Shown paths as targets

What output shows can be given to a command again. From a canonical root, the text by which a target
is shown leads to the target, as long as no backslash was shown as a separator
(`absolutize_displayed`) and no byte as U+FFFD (`OsPath.absolutize_shownFrom_eq_iff`); whatever is
said of a target goes by the place that it leads to, so it is said of the shown text too
(`shownTargets_select_same`).
-/

namespace AssetUsage

namespace OsPath

/-- A target without backslashes leads to a path without backslashes. -/
theorem backslash_not_mem_absolutize {root target : OsPath} (canonical : root.IsCanonical)
    (plainRoot : backslash ∉ root.bytes) (plain : backslash ∉ target.bytes) :
    backslash ∉ (root.absolutize target).bytes := by
  rw [← mem_units_iff, units_absolutize canonical.absolute]
  exact Path.not_mem_normalize (by decide) (by decide)
    (Path.isAbsolute_join_of_base canonical.absolute target.units)
    (Path.not_mem_join (by decide) (mt mem_units_iff.1 plainRoot) (mt mem_units_iff.1 plain))

/-- Texts are shown as targets in bytes as they are shown as texts. -/
theorem displayed_ofPath {project : Project} (canonical : project.root.IsCanonical)
    (target : Path) :
    (ofPath project.root).displayed (ofPath target) = project.displayed target := by
  rw [displayed, absolutize_ofPath canonical, shownFrom_ofPath]
  rfl

end OsPath

namespace Project

variable {project : Project} (canonical : project.root.IsCanonical)
include canonical

/-- A target without backslashes leads to a path without backslashes. -/
theorem backslash_not_mem_absolutize (plainRoot : '\\' ∉ project.root.text) {target : Path}
    (plain : '\\' ∉ target.text) : '\\' ∉ (project.absolutize target).text :=
  Path.not_mem_normalize (by decide) (by decide)
    (Path.isAbsolute_join_of_base canonical.absolute target)
    (Path.not_mem_join (by decide) plainRoot plain)

/-- The text by which a target is shown leads to the target. -/
theorem absolutize_displayed {target : Path} (plain : '\\' ∉ (project.absolutize target).text) :
    project.absolutize ⟨project.displayed target⟩ = project.absolutize target :=
  Path.absolutize_shownFrom canonical plain (Path.isCanonical_absolutize canonical.absolute target)

/-- The texts by which targets are shown lead to the targets. -/
theorem map_absolutize_displayed {targets : List Path}
    (plain : ∀ target ∈ targets, '\\' ∉ (project.absolutize target).text) :
    (targets.map fun target => Path.mk (project.displayed target)).map project.absolutize =
      targets.map project.absolutize := by
  rw [List.map_map]
  exact List.map_congr_left fun target mem => absolutize_displayed canonical (plain target mem)

/-- Targets in bytes whose shown parts are UTF-8 lead to the places of the texts by which they are
shown. -/
theorem map_lossy_absolutize {root : OsPath} (isRoot : root = .ofPath project.root)
    {targets : List OsPath}
    (plain : ∀ target ∈ targets, OsPath.backslash ∉ (root.absolutize target).bytes)
    (text : ∀ target ∈ targets, ((root.absolutize target).behind root).isText = true) :
    let places := (targets.map fun target => Path.mk (root.displayed target)).map project.absolutize
    targets.map root.absolutize = places.map .ofPath ∧
      (targets.map fun target => (root.absolutize target).lossy) = places := by
  have canonicalRoot := isRoot ▸ OsPath.isCanonical_ofPath canonical
  have place : ∀ target ∈ targets,
      root.absolutize target = .ofPath (project.absolutize ⟨root.displayed target⟩) := by
    intro target mem
    rw [absolutize, ← OsPath.absolutize_ofPath canonical, ← isRoot]
    exact ((OsPath.absolutize_shownFrom_eq_iff canonicalRoot
      (OsPath.isCanonical_absolutize canonicalRoot target) (plain target mem)).2
        (text target mem)).symm
  constructor
  · rw [List.map_map, List.map_map]
    exact List.map_congr_left place
  · rw [List.map_map]
    refine List.map_congr_left fun target mem => ?_
    rw [place target mem, OsPath.lossy_ofPath]
    rfl

end Project

/-- A sheet whose name is not UTF-8. -/
def brokenSheet : OsPath := ⟨"public/".toUTF8.toList ++ 0xFF :: ".css".toUTF8.toList⟩

end AssetUsage
