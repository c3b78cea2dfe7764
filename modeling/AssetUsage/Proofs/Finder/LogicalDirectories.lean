import AssetUsage.Proofs.Finder.LogicalNames
import AssetUsage.Proofs.Path.Bytes
import AssetUsage.Proofs.Path.Logical

/-!
# Directories of logical names

A reference to a template, an action or a partial leads to a canonical logical path, and matches the
files that this path names: those in its directory whose names are its own or continue it with `.`,
and those below a directory with such a name (`logicalNames_local`). So it leaves the directory that
it names only through one whose own name has an extension. Paths in bytes are compared by their
texts, and so are the logical paths that references lead to (`lossy_underscored?`).
-/

namespace AssetUsage

namespace OsPath

variable {path logical : OsPath}

/-- A canonical logical path in bytes names the paths whose texts its own text names. -/
theorem namedBy_iff (canonical : logical.IsCanonical) (canonicalPath : path.IsCanonical) :
    path.namedBy logical = true ↔ Path.LogicallyNames logical.lossy path.lossy :=
  Path.namedBy_iff canonical.lossy canonicalPath.lossy

/-- Texts name each other in bytes as they do as texts. -/
theorem namedBy_ofPath (path logical : Path) :
    (ofPath path).namedBy (ofPath logical) = path.namedBy logical := by
  rw [namedBy, lossy_ofPath, lossy_ofPath]

/-- The text that a name leads to from a directory. -/
theorem lossy_absolutize_ofPath (canonical : path.IsCanonical) (name : List Char) :
    (path.absolutize (ofPath ⟨name⟩)).lossy = path.lossy.absolutize ⟨name⟩ := by
  rw [lossy_absolutize canonical, lossy_ofPath]

/-- The path of a partial in bytes has the text of the path of the partial. -/
theorem lossy_underscored? (canonical : path.IsCanonical) :
    path.underscored?.map lossy = Finder.underscored? path.lossy := by
  rcases canonical.eq_root_or_join with root | ⟨dir, name, canonicalDir, units, named, whole⟩
  · have text : path.lossy = ⟨['/']⟩ := by
      rw [lossy_eq_respell, root]
      rfl
    rw [underscored?, root, text]
    rfl
  · have text : path.lossy = dir.lossy.join ⟨lossyName name⟩ := by
      rw [← ofUnits_units path, whole, lossy_ofUnits_join canonicalDir units named]
    have namedLossy := (keepsMeaning_lossyName units named.2.2).namesEntry named
    have prefixed := namedLossy.underscored
    have namedPartial := (keepsMeaning_encodedName prefixed.2.2).namesEntry prefixed
    have found : path.underscored? =
        some (ofUnits (dir.units.join ⟨encodedName ('_' :: lossyName name)⟩)) := by
      rw [underscored?, whole, Path.IsCanonical.fileName?_join_name canonicalDir named,
        Path.IsCanonical.parent?_join_name canonicalDir named]
      exact congrArg (some ∘ ofUnits) (Path.IsCanonical.join_name canonicalDir namedPartial).normal
    rw [found, Option.map_some, text,
      lossy_ofUnits_join canonicalDir (isUnits_encodedName _) namedPartial, lossyName_encodedName]
    exact (Finder.underscored?_join_name canonicalDir.lossy namedLossy).symm

end OsPath

namespace Finder

variable {project : Project} {file : Path}

/-- A logical path names, among canonical paths, itself, those in its directory whose names continue
its own with `.`, and those below a directory with such a name; in bytes it names those whose texts
it names so. A reference to a template, an action or a partial matches a target exactly if the
logical path that it leads to names it so, in bytes too. -/
theorem logicalNames_local (kind : AssetKind) (target : Path) (canonical : project.IsCanonical)
    (canonicalFile : file.IsCanonical) (content : List Char) (reference : Call.RenderReference) :
    (∀ logical path : OsPath, logical.IsCanonical → path.IsCanonical →
      (path.namedBy logical = true ↔ Path.LogicallyNames logical.lossy path.lossy)) ∧
    (∀ logical path : Path, logical.IsCanonical → path.IsCanonical →
      (path.namedBy logical = true ↔ Path.LogicallyNames logical path) ∧
      (OsPath.ofPath path).namedBy (.ofPath logical) = path.namedBy logical) ∧
    (∀ (dir path : OsPath) (name : List Char), dir.IsCanonical → path.IsCanonical →
      let leads := dir.lossy.absolutize ⟨name⟩
      (path.namedBy (dir.absolutize (.ofPath ⟨name⟩)) = true ↔
        Path.LogicallyNames leads path.lossy) ∧
      ((dir.absolutize (.ofPath ⟨name⟩)).underscored?.any path.namedBy = true ↔
        ∃ logical, underscored? leads = some logical ∧
          Path.LogicallyNames logical path.lossy)) ∧
    let finder := new kind project target
    let candidate := finder.candidate file content
    (reference.key ≠ .file → (finder.isRendered candidate reference = true ↔
      ∃ logical, finder.renderedPath? candidate reference = some logical ∧
        Path.LogicallyNames logical finder.target)) ∧
    (finder.isRenderedPartial candidate reference = true ↔
      ∃ logical, finder.partialPath? candidate reference = some logical ∧
        Path.LogicallyNames logical finder.target) := by
  have compares := comparesCanonical_new kind target canonical canonicalFile
  refine ⟨fun _ _ => OsPath.namedBy_iff, fun logical path canonical canonicalPath =>
    ⟨Path.namedBy_iff canonical canonicalPath, OsPath.namedBy_ofPath path logical⟩, ?_,
    fun other => ?_, ?_⟩
  · intro dir path name canonicalDir canonicalPath leads
    have written := OsPath.isCanonical_absolutize canonicalDir (.ofPath ⟨name⟩)
    have text := OsPath.lossy_absolutize_ofPath canonicalDir name
    constructor
    · rw [OsPath.namedBy_iff written canonicalPath, text]
    · have partials := OsPath.lossy_underscored? written
      rw [text] at partials
      have any : (dir.absolutize (.ofPath ⟨name⟩)).underscored?.any path.namedBy =
          (underscored? leads).any path.lossy.namedBy := by
        rw [← partials, Option.any_map]
        rfl
      rw [any, Option.any_eq_true]
      refine exists_congr fun logical => and_congr_right fun found => ?_
      have canonicalLogical := isCanonical_of_underscored?
        (Path.isCanonical_absolutize canonicalDir.lossy.absolute _) found
      exact Path.namedBy_iff canonicalLogical canonicalPath.lossy
  · rw [isRendered_eq, Option.any_eq_true]
    refine exists_congr fun logical => and_congr_right fun found => ?_
    rw [if_neg other]
    exact Path.namedBy_iff (compares.rendered content reference logical found) compares.target
  · rw [isRenderedPartial_eq, Option.any_eq_true]
    refine exists_congr fun logical => and_congr_right fun found => ?_
    exact Path.namedBy_iff (compares.renderedPartial content reference logical found)
      compares.target

/-- A name that is not UTF-8, as a logical name. -/
def brokenName : OsPath := ⟨[0x2F, 0x70, 0x2F, 0xFF]⟩

/-- A file with an extension behind another name that is not UTF-8. -/
def brokenTemplate : OsPath := ⟨[0x2F, 0x70, 0x2F, 0xFE, 0x2E, 0x65, 0x72, 0x62]⟩

/-- A reference to the template of a page matches a file in a directory with an extension, and a
logical path names a file behind another name with the same text. -/
theorem logicalNames_local_of_extended_directory :
    let project := Project.conventional (.ofString "/p")
    let finder := new .template project (.ofString "app/views/layouts/test.d/inner.html.erb")
    let candidate := finder.candidate (.ofString "/p/app/views/hello/index.html.erb") []
    (∃ logical, finder.renderedPath? candidate ⟨.template, "layouts/test".toList⟩ = some logical ∧
      Path.LogicallyNames logical finder.target) ∧
    brokenTemplate.namedBy brokenName = true ∧
    Path.LogicallyNames brokenName.lossy brokenTemplate.lossy := by
  intro project finder candidate
  have canonical : project.IsCanonical :=
    Project.isCanonical_conventional (by decide : (Path.ofString "/p").IsCanonical)
  have canonicalFile : (Path.ofString "/p/app/views/hello/index.html.erb").IsCanonical := by
    decide +kernel
  have laws := logicalNames_local .template
    (.ofString "app/views/layouts/test.d/inner.html.erb") canonical canonicalFile []
    ⟨.template, "layouts/test".toList⟩
  have named : brokenTemplate.namedBy brokenName = true := by decide +kernel
  exact ⟨(laws.2.2.2.1 (by decide)).1 (by decide +kernel), named,
    (laws.1 _ _ (by decide +kernel) (by decide +kernel)).1 named⟩

/-- A logical path may name a file of another directory. -/
theorem namedBy_leaves_directory :
    ¬ ∀ logical path : Path, logical.IsCanonical → path.IsCanonical → path.namedBy logical = true →
      path.parent? = logical.parent? ∧ ∃ name stem, path.fileName? = some name ∧
        logical.fileName? = some stem ∧ Path.Continues name stem := by
  intro claim
  have named := claim (.ofString "/p/app/views/layouts/test")
    (.ofString "/p/app/views/layouts/test.d/inner.html.erb") (by decide +kernel) (by decide +kernel)
    (by decide +kernel)
  exact absurd named.1 (by decide +kernel)

end Finder

end AssetUsage
