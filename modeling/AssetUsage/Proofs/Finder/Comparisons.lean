import AssetUsage.Finder.Line
import AssetUsage.Proofs.Project.Canonical
import AssetUsage.Proofs.Scan.WalkOrder

/-!
# What a finder compares

A finder compares its target with the paths that references lead to. In a canonical project and a
canonical file all of these are canonical, however references and targets are spelled: each resolver
normalises behind a base that is absolute, and a logical path is only changed in its last name, to
which the underscore of a partial is added (`comparesCanonical_new`).
-/

namespace AssetUsage

variable {project : Project} {file : Path}

namespace Reference

/-- The file that a URL in a canonical file names is canonical. -/
theorem isCanonical_of_resolve? {reference : List Char} {path : Path}
    (canonical : project.IsCanonical) (canonicalFile : file.IsCanonical)
    (resolved : resolve? project reference file = some path) : path.IsCanonical := by
  unfold resolve? at resolved
  obtain ⟨cleaned, -, named⟩ := Option.bind_eq_some_iff.1 resolved
  split at named
  · next rest =>
    obtain rfl := Option.some.inj named
    exact Path.isCanonical_absolutize canonical.publicFiles.absolute ⟨rest⟩
  · obtain ⟨dir, parent, named⟩ := Option.bind_eq_some_iff.1 named
    obtain rfl := Option.some.inj named
    exact Path.isCanonical_absolutize (canonicalFile.parent? parent).absolute ⟨cleaned⟩

/-- The file that a URL on a page at the root of the site names is canonical. -/
theorem isCanonical_of_resolveFromSite? {reference : List Char} {path : Path}
    (canonical : project.IsCanonical)
    (resolved : resolveFromSite? project reference = some path) : path.IsCanonical := by
  obtain ⟨cleaned, -, rfl⟩ := Option.map_eq_some_iff.1 resolved
  exact Path.isCanonical_absolutize canonical.publicFiles.absolute ⟨cleaned.dropWhile (· == '/')⟩

/-- The file that a name given to a helper names is canonical. -/
theorem isCanonical_of_resolveAsset? {name : List Char} {dir path : Path}
    {extension : Option (List Char)} (canonical : project.IsCanonical)
    (absolute : dir.isAbsolute = true)
    (resolved : resolveAsset? project name dir extension = some path) : path.IsCanonical := by
  obtain ⟨cleaned, -, rfl⟩ := Option.map_eq_some_iff.1 resolved
  split
  · next fileName _ => exact Path.isCanonical_absolutize canonical.publicFiles.absolute ⟨fileName⟩
  · exact Path.isCanonical_absolutize absolute _

end Reference

/-- The directory in which a canonical file finds its views is absolute. -/
theorem Convention.isAbsolute_of_viewsDir? {dir : Path} (canonical : project.IsCanonical)
    (canonicalFile : file.IsCanonical) (found : viewsDir? project file = some dir) :
    dir.isAbsolute = true := by
  unfold viewsDir? at found
  split at found
  · next name _ =>
    obtain rfl := Option.some.inj found
    exact Path.isAbsolute_join_of_base canonical.views.absolute ⟨name⟩
  · split at found
    · exact (canonicalFile.parent? found).absolute
    · contradiction

/-- The candidates below a canonical root are canonical. -/
theorem Scan.isCanonical_of_mem_candidates {tree : Tree} {root : Path}
    {extensions : List (List Char)} {respectIgnore : Bool} (canonical : root.IsCanonical)
    (mem : file ∈ candidates tree root extensions respectIgnore) : file.IsCanonical := by
  unfold candidates at mem
  split at mem
  · contradiction
  · next names located =>
    split at mem
    · next listing found =>
      obtain ⟨chain, walked, rfl⟩ := List.mem_map.1 mem
      have lies := liesIn_of_mem_walk (Tree.wellFormed_of_entryAt? found) walked
      obtain ⟨first, others, rfl, -, named⟩ := lies
      rw [List.drop_left]
      exact canonical.join_names (List.cons_ne_nil first others) named
    · contradiction

namespace Finder

variable {finder : Finder} {candidate : Candidate} {reference : Call.RenderReference}

/-- The path with which a reference to a template, an action or a file compares the target. -/
def renderedPath? (finder : Finder) (candidate : Candidate) (reference : Call.RenderReference) :
    Option Path :=
  match reference.key with
  | .template => some (finder.project.viewsDir.absolutize ⟨reference.name⟩)
  | .action => candidate.viewsDir.map (·.absolutize ⟨reference.name⟩)
  | .file => some (finder.project.absolutize ⟨reference.name⟩)
  | .partialTemplate | .layout => none

/-- The logical path with which a reference to a partial compares the target. -/
def partialPath? (finder : Finder) (candidate : Candidate) (reference : Call.RenderReference) :
    Option Path :=
  if reference.key = .partialTemplate then
    let dir := if '/' ∈ reference.name then some finder.project.viewsDir else candidate.viewsDir
    dir.bind fun dir => underscored? (dir.absolutize ⟨reference.name⟩)
  else none

/-- A reference to a file names the target by its whole path, and one to a template or an action by
its logical path. -/
theorem isRendered_eq (finder : Finder) (candidate : Candidate)
    (reference : Call.RenderReference) :
    finder.isRendered candidate reference =
      (finder.renderedPath? candidate reference).any fun path =>
        if reference.key = .file then finder.isTarget path else finder.target.namedBy path := by
  unfold isRendered renderedPath?
  cases reference.key with
  | template | file | partialTemplate | layout => rfl
  | action => cases candidate.viewsDir <;> rfl

/-- A reference to a partial names the target by its logical path. -/
theorem isRenderedPartial_eq (finder : Finder) (candidate : Candidate)
    (reference : Call.RenderReference) :
    finder.isRenderedPartial candidate reference =
      (finder.partialPath? candidate reference).any finder.target.namedBy := by
  unfold isRenderedPartial partialPath?
  by_cases key : reference.key = .partialTemplate
  · rw [if_pos key, decide_eq_true key, Bool.true_and]
  · rw [if_neg key, decide_eq_false key, Bool.false_and]
    rfl

/-- The path of a partial with a canonical logical path is canonical. -/
theorem isCanonical_of_underscored? {logical path : Path} (canonical : logical.IsCanonical)
    (named : underscored? logical = some path) : path.IsCanonical := by
  obtain ⟨name, -, named⟩ := Option.bind_eq_some_iff.1 named
  obtain ⟨parent, found, named⟩ := Option.bind_eq_some_iff.1 named
  obtain rfl := Option.some.inj named
  exact Path.isCanonical_absolutize (canonical.parent? found).absolute ⟨'_' :: name⟩

/-- The paths with which the finder compares its target when it looks at a file, and those that it
derives from the target for it, are canonical. -/
structure ComparesCanonical (finder : Finder) (file : Path) : Prop where
  target : finder.target.IsCanonical
  /-- The directory in which the target lies. -/
  parent : ∀ dir ∈ finder.target.parent?, dir.IsCanonical
  /-- The path of which a layout has its name. -/
  logical : finder.target.parent? ≠ none → finder.target.withoutExtensions.IsCanonical
  url : ∀ reference, ∀ path ∈ Reference.resolve? finder.project reference file, path.IsCanonical
  siteUrl : ∀ reference, ∀ path ∈ Reference.resolveFromSite? finder.project reference,
    path.IsCanonical
  asset : ∀ (name : List Char) (dir : Path) (extension : Option (List Char)),
    dir.isAbsolute = true →
      ∀ path ∈ Reference.resolveAsset? finder.project name dir extension, path.IsCanonical
  rendered : ∀ (content : List Char) (reference : Call.RenderReference),
    ∀ path ∈ finder.renderedPath? (finder.candidate file content) reference, path.IsCanonical
  renderedPartial : ∀ (content : List Char) (reference : Call.RenderReference),
    ∀ path ∈ finder.partialPath? (finder.candidate file content) reference, path.IsCanonical

/-- Only finders of templates look for the views of a candidate. -/
theorem viewsDir_candidate (finder : Finder) (file : Path) (content : List Char) :
    (finder.candidate file content).viewsDir =
      if finder.kind.isTemplate then Convention.viewsDir? finder.project file else none :=
  rfl

/-- The views of a candidate are in an absolute directory. -/
theorem isAbsolute_of_candidate {dir : Path} {content : List Char}
    (canonical : finder.project.IsCanonical) (canonicalFile : file.IsCanonical)
    (found : (finder.candidate file content).viewsDir = some dir) : dir.isAbsolute = true := by
  rw [viewsDir_candidate] at found
  split at found
  · exact Convention.isAbsolute_of_viewsDir? canonical canonicalFile found
  · contradiction

/-- The path of a reference to a template, an action or a file is canonical. -/
theorem isCanonical_of_renderedPath? {path : Path} (canonical : finder.project.IsCanonical)
    (absolute : ∀ dir, candidate.viewsDir = some dir → dir.isAbsolute = true)
    (named : finder.renderedPath? candidate reference = some path) : path.IsCanonical := by
  unfold renderedPath? at named
  split at named
  · obtain rfl := Option.some.inj named
    exact Path.isCanonical_absolutize canonical.views.absolute _
  · obtain ⟨dir, found, rfl⟩ := Option.map_eq_some_iff.1 named
    exact Path.isCanonical_absolutize (absolute dir found) _
  · obtain rfl := Option.some.inj named
    exact Path.isCanonical_absolutize canonical.root.absolute _
  · contradiction
  · contradiction

/-- The logical path of a reference to a partial is canonical. -/
theorem isCanonical_of_partialPath? {path : Path} (canonical : finder.project.IsCanonical)
    (absolute : ∀ dir, candidate.viewsDir = some dir → dir.isAbsolute = true)
    (named : finder.partialPath? candidate reference = some path) : path.IsCanonical := by
  unfold partialPath? at named
  split at named
  · obtain ⟨dir, found, named⟩ := Option.bind_eq_some_iff.1 named
    have base : dir.isAbsolute = true := by
      split at found
      · exact Option.some.inj found ▸ canonical.views.absolute
      · exact absolute dir found
    exact isCanonical_of_underscored? (Path.isCanonical_absolutize base _) named
  · contradiction

/-- A finder of any kind for any target of a canonical project compares canonical paths when it
looks at a canonical file. -/
theorem comparesCanonical_new {project : Project} (kind : AssetKind) (target : Path)
    (canonical : project.IsCanonical) (canonicalFile : file.IsCanonical) :
    (new kind project target).ComparesCanonical file where
  target := Path.isCanonical_absolutize canonical.root.absolute target
  parent _ found := (Path.isCanonical_absolutize canonical.root.absolute target).parent? found
  logical := (Path.isCanonical_absolutize canonical.root.absolute target).withoutExtensions
  url _ _ resolved := Reference.isCanonical_of_resolve? canonical canonicalFile resolved
  siteUrl _ _ resolved := Reference.isCanonical_of_resolveFromSite? canonical resolved
  asset _ _ _ absolute _ resolved :=
    Reference.isCanonical_of_resolveAsset? canonical absolute resolved
  rendered _ _ _ named := isCanonical_of_renderedPath? canonical
    (fun _ found => isAbsolute_of_candidate canonical canonicalFile found) named
  renderedPartial _ _ _ named := isCanonical_of_partialPath? canonical
    (fun _ found => isAbsolute_of_candidate canonical canonicalFile found) named

end Finder

end AssetUsage
