import AssetUsage.Proofs.Finder.LogicalNames
import AssetUsage.Proofs.Path.Climbing
import AssetUsage.Proofs.Scan.ReportedLines

/-!
# References to views

References to templates, and those to partials with a directory in their name, are promised to lead
below the views. They do unless the name starts with a separator: such a name stands for itself, as
the name of a file does (`absolutize_viewsDir`). The two readings of such a name agree exactly if it
climbs over all directories down to the views (`namedView_eq_viewPath_iff`), and where they differ,
so do the targets that they name (`eq_of_namesAs`).
-/

namespace AssetUsage

open AssetUsage.Path (NamesEntry)

namespace Project

/-- The path of a name below the views. -/
def viewPath (project : Project) (name : List Char) : Path :=
  (Path.mk (project.viewsDir.text ++ '/' :: name)).normalize

/-- The path that a reference to a view leads to: a name that starts with a separator stands for
itself. -/
def namedView (project : Project) (name : List Char) : Path :=
  if name.head? = some '/' then (Path.mk name).normalize else project.viewPath name

variable {project : Project} (canonical : project.IsCanonical)
include canonical

/-- References to views are resolved to the paths that they lead to. -/
theorem absolutize_viewsDir (name : List Char) :
    project.viewsDir.absolutize ⟨name⟩ = project.namedView name := by
  by_cases separator : name.head? = some '/'
  · have absolute : (Path.mk name).isAbsolute = true := beq_iff_eq.2 separator
    rw [namedView, if_pos separator, Path.absolutize, Path.join, if_pos absolute]
  · have relative : (Path.mk name).isAbsolute = false := beq_eq_false_iff_ne.2 separator
    rw [namedView, if_neg separator, Path.absolutize,
      Path.normalize_join_eq canonical.views relative, viewPath,
      Path.normalize_append_eq canonical.views]

/-- The place of a name below the views is canonical. -/
theorem isCanonical_viewPath (name : List Char) : (project.viewPath name).IsCanonical := by
  refine Path.isCanonical_normalize ?_
  have absolute := canonical.views.absolute
  rw [Path.isAbsolute] at absolute ⊢
  rwa [List.head?_append_of_ne_nil _ canonical.views.text_ne_nil]

/-- The path that a name leads to is canonical. -/
theorem isCanonical_namedView (name : List Char) : (project.namedView name).IsCanonical :=
  absolutize_viewsDir canonical name ▸ Path.isCanonical_absolutize canonical.views.absolute ⟨name⟩

/-- A name leads below the views exactly if it does not start with a separator or climbs over all
directories down to the views. -/
theorem namedView_eq_viewPath_iff (name : List Char) :
    project.namedView name = project.viewPath name ↔
      name.head? ≠ some '/' ∨ project.viewsDir.placeNames.length ≤ (Path.mk name).climb := by
  by_cases separator : name.head? = some '/'
  · have absolute : (Path.mk name).isAbsolute = true := beq_iff_eq.2 separator
    have below : project.viewPath name = Path.assemble .root
        (project.viewsDir.namesKept ⟨name⟩ ++ (Path.mk name).descent) :=
      Path.normalize_append_eq canonical.views
    have kept : ∀ segment ∈ project.viewsDir.namesKept ⟨name⟩, NamesEntry segment :=
      fun _ mem => Path.namesEntry_of_mem_place (List.mem_of_mem_take mem)
    have own : ∀ segment ∈ (Path.mk name).descent, NamesEntry segment :=
      fun _ => Path.namesEntry_of_mem_descent
    have nothingKept : project.viewsDir.namesKept ⟨name⟩ = [] ↔
        project.viewsDir.placeNames.length ≤ (Path.mk name).climb := by
      rw [Path.namesKept, List.take_eq_nil_iff, ← List.length_eq_zero_iff]
      omega
    rw [namedView, if_pos separator, Path.normalize_of_isAbsolute absolute, below, ← nothingKept]
    constructor
    · intro same
      have names := congrArg Path.placeNames same
      rw [Path.placeNames_assemble own,
        Path.placeNames_assemble (List.forall_mem_append.2 ⟨kept, own⟩)] at names
      exact .inr (List.self_eq_append_left.1 names)
    · rintro (relative | none)
      · exact absurd separator relative
      · rw [none, List.nil_append]
  · exact iff_of_true (if_neg separator) (.inl separator)

end Project

/-- A reference with the key and the logical path names the target: a template by that path, and a
partial with an underscore in front of its last name. -/
inductive NamesAs : Call.RenderKey → Path → Path → Prop where
  | template {logical target : Path} (named : target.namedBy logical = true) :
    NamesAs .template logical target
  | partialTemplate {dir target : Path} {name : Segment} (canonical : dir.IsCanonical)
    (entry : NamesEntry name) (named : target.namedBy (dir.join ⟨'_' :: name⟩) = true) :
    NamesAs .partialTemplate (dir.join ⟨name⟩) target

/-- A reference to a partial names the targets that are named by its path with an underscore. -/
theorem namesAs_partialTemplate_iff {logical target : Path} (canonical : logical.IsCanonical) :
    NamesAs .partialTemplate logical target ↔
      (Finder.underscored? logical).any target.namedBy = true := by
  constructor
  · intro names
    cases names with
    | partialTemplate canonicalDir entry named =>
      rwa [Finder.underscored?_join_name canonicalDir entry, Option.any_some]
  · intro named
    rcases canonical.eq_root_or_join with rfl | ⟨dir, name, canonicalDir, entry, rfl⟩
    · contradiction
    · rw [Finder.underscored?_join_name canonicalDir entry, Option.any_some] at named
      exact .partialTemplate canonicalDir entry named

/-- A reference to a partial in a directory names what its path with an underscore names. -/
theorem namesAs_join_iff {dir target : Path} {name : Segment} (canonical : dir.IsCanonical)
    (entry : NamesEntry name) :
    NamesAs .partialTemplate (dir.join ⟨name⟩) target ↔
      target.namedBy (dir.join ⟨'_' :: name⟩) = true := by
  rw [namesAs_partialTemplate_iff (canonical.join_name entry),
    Finder.underscored?_join_name canonical entry, Option.any_some]

/-- The root names no partial. -/
theorem not_namesAs_root (target : Path) : ¬ NamesAs .partialTemplate ⟨['/']⟩ target := by
  have canonical : (Path.mk ['/']).IsCanonical := by decide
  rw [namesAs_partialTemplate_iff canonical]
  exact Bool.false_ne_true

/-- A path names itself. -/
theorem Path.namedBy_self (path : Path) : path.namedBy path = true :=
  Path.namedBy_eq_true_iff.2 ⟨[], List.append_nil _, .inl rfl⟩

/-- Paths that name each other are equal. -/
theorem Path.eq_of_namedBy {left right : Path} (there : left.namedBy right = true)
    (back : right.namedBy left = true) : left = right := by
  obtain ⟨rest, whole, -⟩ := Path.namedBy_eq_true_iff.1 there
  obtain ⟨more, wholeBack, -⟩ := Path.namedBy_eq_true_iff.1 back
  have nothing : rest = [] := by
    rw [← wholeBack, List.append_assoc] at whole
    exact (List.append_eq_nil_iff.1 (List.append_right_eq_self.1 whole)).2
  rw [nothing, List.append_nil] at whole
  exact congrArg Path.mk whole.symm

/-- Logical paths that name the same canonical targets are equal. -/
theorem eq_of_namesAs {key : Call.RenderKey} {left right : Path} (canonicalLeft : left.IsCanonical)
    (canonicalRight : right.IsCanonical) (listed : key ∈ [.template, .partialTemplate])
    (same : ∀ target : Path, target.IsCanonical →
      (NamesAs key left target ↔ NamesAs key right target)) : left = right := by
  rcases List.mem_pair.1 listed with rfl | rfl
  · obtain ⟨there⟩ := (same left canonicalLeft).1 (.template left.namedBy_self)
    obtain ⟨back⟩ := (same right canonicalRight).2 (.template right.namedBy_self)
    exact Path.eq_of_namedBy there back
  · rcases canonicalLeft.eq_root_or_join with rfl | ⟨dir, name, canonicalDir, entry, rfl⟩ <;>
      rcases canonicalRight.eq_root_or_join with rfl | ⟨other, own, canonicalOther, ownEntry, rfl⟩
    · rfl
    · have names := (same _ (canonicalOther.join_name ownEntry.underscored)).2
        ((namesAs_join_iff canonicalOther ownEntry).2 (Path.namedBy_self _))
      exact absurd names (not_namesAs_root _)
    · have names := (same _ (canonicalDir.join_name entry.underscored)).1
        ((namesAs_join_iff canonicalDir entry).2 (Path.namedBy_self _))
      exact absurd names (not_namesAs_root _)
    · have there := (same _ (canonicalDir.join_name entry.underscored)).1
        ((namesAs_join_iff canonicalDir entry).2 (Path.namedBy_self _))
      have back := (same _ (canonicalOther.join_name ownEntry.underscored)).2
        ((namesAs_join_iff canonicalOther ownEntry).2 (Path.namedBy_self _))
      rw [namesAs_join_iff canonicalOther ownEntry] at there
      rw [namesAs_join_iff canonicalDir entry] at back
      have joined := Path.eq_of_namedBy there back
      have dirs := congrArg Path.parent? joined
      have names := congrArg Path.fileName? joined
      rw [canonicalDir.parent?_join_name entry.underscored,
        canonicalOther.parent?_join_name ownEntry.underscored] at dirs
      rw [canonicalDir.fileName?_join_name entry.underscored,
        canonicalOther.fileName?_join_name ownEntry.underscored] at names
      rw [Option.some.inj dirs, List.tail_eq_of_cons_eq (Option.some.inj names)]

/-- The reference is to a template below the views, or to a partial in a directory below them, and
finders of the kind look for it; for a layout the line says nothing else that could count. -/
inductive RefersToViews (line : List Char) : AssetKind → Call.RenderReference → Prop where
  | template {kind : AssetKind} {name : List Char} (template : kind.isTemplate = true)
    (noLayout : kind = .layout →
      Call.declaredLayout? line = none ∧ Call.isControllerClass line = false) :
    RefersToViews line kind ⟨.template, name⟩
  | partialTemplate {name : List Char} (directory : '/' ∈ name) :
    RefersToViews line .partialTemplate ⟨.partialTemplate, name⟩

namespace Finder

open AssetUsage.Scan (CountsExactlyIf countsExactlyIf_of_usedBy)

variable {finder : Finder} {candidate : Candidate} {file : Path} {content line name : List Char}

/-- A template is accepted exactly if the path of the view names it. -/
theorem isRendered_template_iff (canonical : finder.project.IsCanonical) :
    finder.isRendered candidate ⟨.template, name⟩ = true ↔
      NamesAs .template (finder.project.namedView name) finder.target := by
  rw [isRendered]
  simp only [Project.absolutize_viewsDir canonical]
  constructor
  · exact .template
  · rintro ⟨named⟩
    exact named

/-- A partial with a directory is accepted exactly if the path of the view names it. -/
theorem isRenderedPartial_iff (canonical : finder.project.IsCanonical) (directory : '/' ∈ name) :
    finder.isRenderedPartial candidate ⟨.partialTemplate, name⟩ = true ↔
      NamesAs .partialTemplate (finder.project.namedView name) finder.target := by
  rw [isRenderedPartial_eq, partialPath?, if_pos rfl,
    namesAs_partialTemplate_iff (Project.isCanonical_namedView canonical name)]
  simp only [directory, ↓reduceIte, Option.bind_some, Project.absolutize_viewsDir canonical]

/-- A line with nothing but one reference to a view uses what the path of the view names. -/
theorem usedBy_iff_namesAs {reference : Call.RenderReference}
    (canonical : finder.project.IsCanonical) (scanned : IsScanned file)
    (only : Call.renderReferences line = [reference])
    (refers : RefersToViews line finder.kind reference) :
    finder.usedBy (finder.candidate file content) line = true ↔
      NamesAs reference.key (finder.project.namedView reference.name) finder.target := by
  have extended := finder.extension_candidate_mem scanned content
  have inCall : finder.inRenderCall (finder.candidate file content) line =
      finder.isRendered (finder.candidate file content) reference := by
    rw [inRenderCall, only, List.any_cons, List.any_nil, Bool.or_false]
  have inPartial : finder.inPartialCall (finder.candidate file content) line =
      finder.isRenderedPartial (finder.candidate file content) reference := by
    rw [inPartialCall, only, List.any_cons, List.any_nil, Bool.or_false]
  generalize kind : finder.kind = own at refers
  cases refers with
  | @template own name template noLayout =>
    have noPartial : finder.isRenderedPartial (finder.candidate file content) ⟨.template, name⟩ =
        false := by
      rw [isRenderedPartial_eq, partialPath?, if_neg (by simp)]
      rfl
    have noOption : finder.inLayoutOption line = false := by
      rw [inLayoutOption, only]
      rfl
    rw [← isRendered_template_iff canonical, ← inCall]
    cases own with
    | template => simp [usedBy, kind, extended]
    | partialTemplate => simp [usedBy, kind, extended, inPartial, noPartial]
    | layout =>
      obtain ⟨undeclared, noClass⟩ := noLayout rfl
      have noDeclaration : finder.inLayoutDeclaration line = false := by
        rw [inLayoutDeclaration, undeclared]
        rfl
      have notImplicit : finder.inImplicitLayout (finder.candidate file content) line = false := by
        simp [inImplicitLayout, noClass]
      simp [usedBy, kind, extended, noOption, noDeclaration, notImplicit]
    | stylesheet | javascript | image | publicFile => contradiction
  | @partialTemplate name directory =>
    have noTemplate : finder.isRendered (finder.candidate file content) ⟨.partialTemplate, name⟩ =
        false := rfl
    rw [← isRenderedPartial_iff canonical directory, ← inPartial]
    simp [usedBy, kind, extended, inCall, noTemplate]

/-- A line whose only reference is one to a view uses a target exactly if the path that the
reference leads to names it, and every scan that reads the line reports it exactly then. These are
the targets that the path of the name below the views names if and only if the name does not start
with a separator or climbs over all directories down to the views. -/
theorem viewReferences_exact {project : Project} {kind : AssetKind}
    {reference : Call.RenderReference} (canonical : project.IsCanonical) (scanned : IsScanned file)
    (only : Call.renderReferences line = [reference]) (refers : RefersToViews line kind reference) :
    (∀ target, CountsExactlyIf (new kind project target) file line
      (NamesAs reference.key (project.namedView reference.name) (project.absolutize target))) ∧
    ((∀ target, CountsExactlyIf (new kind project target) file line
        (NamesAs reference.key (project.viewPath reference.name) (project.absolutize target))) ↔
      reference.name.head? ≠ some '/' ∨
        project.viewsDir.placeNames.length ≤ (Path.mk reference.name).climb) := by
  have counts : ∀ target, CountsExactlyIf (new kind project target) file line
      (NamesAs reference.key (project.namedView reference.name) (project.absolutize target)) :=
    fun target => countsExactlyIf_of_usedBy fun content =>
      @usedBy_iff_namesAs (new kind project target) file content line reference canonical scanned
        only refers
  have listed : reference.key ∈ [Call.RenderKey.template, .partialTemplate] := by
    cases refers <;> simp
  refine ⟨counts, ?_⟩
  rw [← Project.namedView_eq_viewPath_iff canonical]
  constructor
  · intro below
    refine eq_of_namesAs (Project.isCanonical_namedView canonical _)
      (Project.isCanonical_viewPath canonical _) listed fun target canonicalTarget => ?_
    have own : project.absolutize target = target := canonicalTarget.absolutize_eq project.root
    have both := ((counts target).used []).symm.trans ((below target).used [])
    rwa [own] at both
  · intro same target
    exact same ▸ counts target

/-- A controller that renders a template, and a partial by a name with a separator in front. -/
def renderingController : Content :=
  let lines := ["render :template => 'users/show'", "render :partial => '/users/row'"]
  ⟨(Text.Utf8.encode ("\n".intercalate lines).toList).toArray⟩

/-- The first line is reported for the template, and the second one is not for the partial. -/
theorem viewReferences_of_renderingController :
    let file := Path.ofString "/p/app/controllers/hello_controller.rb"
    let tree := Tree.empty.write file renderingController
    let project := Project.conventional (.ofString "/p")
    let view := new .template project (.ofString "app/views/users/show.html.erb")
    let row := new .partialTemplate project (.ofString "app/views/users/_row.html.erb")
    Scan.Reports tree view {} file 1 ∧ ¬ Scan.Reports tree row {} file 2 := by
  intro file tree project view row
  have canonical : project.IsCanonical := by decide +kernel
  have scanned : IsScanned file := ⟨"rb".toList, by decide, by decide +kernel⟩
  have reads : tree.ReadsAs defaultSizeLimit file renderingController :=
    ⟨rfl, by decide +kernel, by decide +kernel⟩
  constructor
  · have only : Call.renderReferences "render :template => 'users/show'".toList =
        [⟨.template, "users/show".toList⟩] := by decide +kernel
    have refers : RefersToViews "render :template => 'users/show'".toList .template
        ⟨.template, "users/show".toList⟩ := .template rfl nofun
    have counts := (viewReferences_exact canonical scanned only refers).1
      (.ofString "app/views/users/show.html.erb")
    refine (counts.reported tree {} 1 ?_).2 (.template (by decide +kernel))
    exact ⟨by decide +kernel, by decide +kernel, by decide, renderingController, reads,
      by decide +kernel⟩
  · have only : Call.renderReferences "render :partial => '/users/row'".toList =
        [⟨.partialTemplate, "/users/row".toList⟩] := by decide +kernel
    have refers : RefersToViews "render :partial => '/users/row'".toList .partialTemplate
        ⟨.partialTemplate, "/users/row".toList⟩ := .partialTemplate (by decide)
    have counts := (viewReferences_exact canonical scanned only refers).1
      (.ofString "app/views/users/_row.html.erb")
    intro reported
    have names := (counts.reported tree {} 2 ⟨by decide +kernel, by decide +kernel, by decide,
      renderingController, reads, by decide +kernel⟩).1 reported
    rw [namesAs_partialTemplate_iff (Project.isCanonical_namedView canonical _)] at names
    exact absurd names (by decide +kernel)

/-- A template is missed by its name below the views with a separator in front. -/
theorem viewReference_misses_separator :
    ¬ ∀ (project : Project) (target file : Path) (line name : List Char), project.IsCanonical →
      IsScanned file → Call.renderReferences line = [⟨.template, name⟩] →
      NamesAs .template (project.viewPath name) (project.absolutize target) →
      ∀ content, let finder := new .template project target
        finder.usedBy (finder.candidate file content) line = true := by
  intro claim
  let project := Project.conventional (.ofString "/p")
  let file := Path.ofString "/p/app/controllers/hello_controller.rb"
  have canonical : project.IsCanonical := by decide +kernel
  have scanned : IsScanned file := ⟨"rb".toList, by decide, by decide +kernel⟩
  have only : Call.renderReferences "render :template => '/users/show'".toList =
      [⟨.template, "/users/show".toList⟩] := by decide +kernel
  have named : NamesAs .template (project.viewPath "/users/show".toList)
      (project.absolutize (.ofString "app/views/users/show.html.erb")) :=
    .template (by decide +kernel)
  have used := claim project _ file _ _ canonical scanned only named []
  exact absurd used (by decide +kernel)

end Finder

end AssetUsage
