import AssetUsage.Proofs.Finder.Comparisons
import AssetUsage.Proofs.Layout.Declarations
import AssetUsage.Proofs.Path.Below

/-!
# Logical names of templates

A template is named by its path below the views without its extensions, and by its bare name in the
files that find their views in its directory. Both names lead from their base to the same path, the
directory of the template with the bare name behind it (`absolutize_join_of_isBehind`,
`absolutize_of_samePath`), for a partial with the underscore put in front of the name; and the path
of the template continues that path with `.` or not at all (`logicalNames_complete`).
-/

namespace AssetUsage

namespace Path

/-- The name is the stem, or goes on behind it with `.`. -/
def Continues (name stem : Segment) : Prop :=
  ∃ suffix, name = stem ++ suffix ∧ (suffix = [] ∨ suffix.head? = some '.')

/-- What is joined to a base stands at the end of the joined path, behind the same text. -/
theorem exists_front_join (base : Path) :
    ∃ front, ∀ path : Path, path.isAbsolute = false →
      (base.join path).text = front ++ path.text := by
  by_cases ended : base.text = [] ∨ base.text.getLast? = some '/'
  · refine ⟨base.text, fun path relative => ?_⟩
    rw [join, if_neg (by simp [relative]), if_pos ended]
  · refine ⟨base.text ++ ['/'], fun path relative => ?_⟩
    rw [join, if_neg (by simp [relative]), if_neg ended, List.append_assoc]
    rfl

/-- A name is no absolute path. -/
theorem NamesEntry.isAbsolute {name : Segment} (named : NamesEntry name) :
    (Path.mk name).isAbsolute = false := by
  have chain := not_isAbsolute_intercalate (List.cons_ne_nil name [])
    (List.forall_mem_singleton.2 named)
  rwa [List.intercalate_singleton] at chain

/-- A path is named by the path of each stem that its name continues. -/
theorem namedBy_join_of_continues {dir : Path} {name stem : Segment} (named : NamesEntry name)
    (namedStem : NamesEntry stem) (continues : Continues name stem) :
    (dir.join ⟨name⟩).namedBy (dir.join ⟨stem⟩) = true := by
  obtain ⟨front, joined⟩ := exists_front_join dir
  obtain ⟨suffix, rfl, ends⟩ := continues
  have whole : (dir.join ⟨stem⟩).text ++ suffix = (dir.join ⟨stem ++ suffix⟩).text := by
    rw [joined _ namedStem.isAbsolute, joined _ named.isAbsolute, List.append_assoc]
  have rest : (dir.join ⟨stem⟩).text.isPrefixOf? (dir.join ⟨stem ++ suffix⟩).text = some suffix :=
    List.isPrefixOf?_eq_some_iff_append_eq.2 whole
  simp [namedBy, rest, ends]

/-- A stem that names something can stand in a directory if a name continues it. -/
theorem namesEntry_of_continues {name stem : Segment} (named : NamesEntry name)
    (significant : isSignificant stem = true) (other : stem ≠ ['.', '.'])
    (continues : Continues name stem) : NamesEntry stem := by
  obtain ⟨suffix, rfl, -⟩ := continues
  exact ⟨significant, other, fun mem => named.2.2 (List.mem_append_left suffix mem)⟩

/-- With an underscore in front, a name can stand in a directory. -/
theorem NamesEntry.underscored {stem : Segment} (named : NamesEntry stem) :
    NamesEntry ('_' :: stem) := by
  have plain := named.2.2
  refine ⟨by simp [isSignificant], by simp, by simpa using plain⟩

variable {dir views rel : Path} {stem : Segment}

/-- A bare name leads into the directory that it is resolved from, however that is spelled. -/
theorem absolutize_of_samePath (canonical : dir.IsCanonical) (same : views.SamePath dir)
    (named : NamesEntry stem) : views.absolutize ⟨stem⟩ = dir.join ⟨stem⟩ := by
  have normal : views.normalize = dir := (normalize_congr same).trans canonical.normal
  rw [absolutize, ← normalize_join_left, normal, (canonical.join_name named).normal]

/-- A name behind the path of a directory leads into that directory. -/
theorem absolutize_join_of_isBehind (nonempty : views.text ≠ []) (canonical : dir.IsCanonical)
    (behind : IsBehind dir views rel) (named : NamesEntry stem) :
    views.absolutize (rel.join ⟨stem⟩) = dir.join ⟨stem⟩ := by
  rw [absolutize, normalize_join_join]
  exact absolutize_of_samePath canonical (samePath_join_of_isBehind nonempty behind) named

/-- With a directory in front, a name holds a separator. -/
theorem separator_mem_join (nonempty : rel.text ≠ []) (named : NamesEntry stem) :
    '/' ∈ (rel.join ⟨stem⟩).text := by
  rw [join, if_neg (by simp [named.isAbsolute])]
  split
  · next ended =>
    have last : '/' ∈ rel.text := List.mem_of_getLast? (ended.resolve_left nonempty)
    exact List.mem_append_left stem last
  · exact List.mem_append_right _ List.mem_cons_self

end Path

open AssetUsage.Path (NamesEntry Continues IsBehind)

/-- A bare name in the file is that of a view in the directory. -/
def Convention.FindsViewsIn (project : Project) (file dir : Path) : Prop :=
  ∃ views, viewsDir? project file = some views ∧ views.SamePath dir

section Views

variable {project : Project} {file dir rel : Path}

/-- A controller finds its views in the directory of its name. -/
theorem Convention.findsViewsIn_of_controllerName? (canonical : project.IsCanonical)
    (behind : IsBehind dir project.viewsDir rel)
    (controller : controllerName? project file = some rel.text) :
    FindsViewsIn project file dir := by
  refine ⟨project.viewsDir.join rel, ?_, ?_⟩
  · rw [viewsDir?, controller]
  · exact Path.samePath_join_of_isBehind canonical.views.text_ne_nil behind

/-- A file below the views that is no controller finds views next to itself. -/
theorem Convention.findsViewsIn_of_join (canonical : dir.IsCanonical)
    (behind : IsBehind dir project.viewsDir rel) {name : Segment} (named : NamesEntry name)
    (other : controllerName? project (dir.join ⟨name⟩) = none) :
    FindsViewsIn project (dir.join ⟨name⟩) dir := by
  have below : (dir.join ⟨name⟩).startsWith project.viewsDir = true := by
    rw [Path.startsWith, Path.components_join_name canonical.text_ne_nil named, behind.components,
      List.append_assoc]
    exact List.isPrefixOf_iff_prefix.2 (List.prefix_append _ _)
  refine ⟨dir, ?_, .refl dir⟩
  rw [viewsDir?, other]
  simp only [below, ↓reduceIte, canonical.parent?_join_name named]

/-- A template is no controller. -/
theorem Convention.controllerName?_of_template {extension : List Char}
    (template : extension ∈ AssetKind.templateExtensions)
    (extended : file.extension? = some extension) : controllerName? project file = none := by
  refine Option.eq_none_iff_forall_ne_some.2 fun name controller => ?_
  rw [extension?_of_controllerName? controller] at extended
  obtain rfl := Option.some.inj extended
  exact absurd template (by decide)

end Views

namespace Finder

/-- The finder accepts every line with the reference in the file, whatever else stands there. -/
def Accepts (finder : Finder) (file : Path) (reference : Call.RenderReference) : Prop :=
  ∀ content line, reference ∈ Call.renderReferences line →
    finder.usedBy (finder.candidate file content) line = true

variable {finder : Finder} {file dir rel : Path} {name stem : Segment}
  {reference : Call.RenderReference}

/-- The file has one of the extensions in which templates and partials are searched for. -/
def IsScanned (file : Path) : Prop :=
  ∃ extension ∈ AssetKind.renderingExtensions, file.extension? = some extension

/-- The extension of a candidate in a scanned file counts. -/
theorem extension_candidate_mem (finder : Finder) (scanned : IsScanned file)
    (content : List Char) :
    (finder.candidate file content).extension ∈ AssetKind.renderingExtensions := by
  obtain ⟨extension, listed, extended⟩ := scanned
  have own : (finder.candidate file content).extension = extension := by
    rw [candidate, extended]
    rfl
  exact own ▸ listed

/-- Finders of templates and of partials accept a reference whose logical path names the target. -/
theorem accepts_of_rendered {path : Path} (kind : finder.kind ∈ [.template, .partialTemplate])
    (scanned : IsScanned file) (other : reference.key ≠ .file)
    (logical : ∀ content,
      finder.renderedPath? (finder.candidate file content) reference = some path)
    (named : finder.target.namedBy path = true) : finder.Accepts file reference := by
  intro content line mem
  have rendered : finder.isRendered (finder.candidate file content) reference = true := by
    rw [isRendered_eq, logical, Option.any_some, if_neg other]
    exact named
  have inCall : finder.inRenderCall (finder.candidate file content) line = true :=
    List.any_eq_true.2 ⟨reference, mem, rendered⟩
  have extended := finder.extension_candidate_mem scanned content
  rcases List.mem_pair.1 kind with kind | kind
  · simp [usedBy, kind, extended, inCall]
  · simp [usedBy, kind, extended, inCall]

/-- Finders of partials accept a reference to a partial whose logical path names the target. -/
theorem accepts_of_renderedPartial {path : Path} (kind : finder.kind = .partialTemplate)
    (scanned : IsScanned file)
    (logical : ∀ content,
      finder.partialPath? (finder.candidate file content) reference = some path)
    (named : finder.target.namedBy path = true) : finder.Accepts file reference := by
  intro content line mem
  have rendered : finder.isRenderedPartial (finder.candidate file content) reference = true := by
    rw [isRenderedPartial_eq, logical]
    exact named
  have inCall : finder.inPartialCall (finder.candidate file content) line = true :=
    List.any_eq_true.2 ⟨reference, mem, rendered⟩
  have extended := finder.extension_candidate_mem scanned content
  simp [usedBy, kind, extended, inCall]

/-- The path of a partial with a bare name behind a directory has an underscore before the name. -/
theorem underscored?_join_name (canonical : dir.IsCanonical) (named : NamesEntry stem) :
    underscored? (dir.join ⟨stem⟩) = some (dir.join ⟨'_' :: stem⟩) := by
  rw [underscored?, canonical.fileName?_join_name named, canonical.parent?_join_name named]
  exact congrArg some (canonical.join_name named.underscored).normal

/-- The target of a finder for a name behind a canonical directory is the path of the name. -/
theorem target_new_join (kind : AssetKind) (project : Project) (canonical : dir.IsCanonical)
    (named : NamesEntry name) :
    (new kind project (dir.join ⟨name⟩)).target = dir.join ⟨name⟩ :=
  (canonical.join_name named).absolutize_eq project.root

/-- A bare name leads to the path of the name from where the candidate finds its views. -/
theorem exists_viewsDir_candidate (canonical : dir.IsCanonical)
    (template : finder.kind.isTemplate = true)
    (finds : Convention.FindsViewsIn finder.project file dir) (named : NamesEntry stem)
    (content : List Char) :
    ∃ views, (finder.candidate file content).viewsDir = some views ∧
      views.absolutize ⟨stem⟩ = dir.join ⟨stem⟩ := by
  obtain ⟨views, found, same⟩ := finds
  refine ⟨views, ?_, Path.absolutize_of_samePath canonical same named⟩
  rw [viewsDir_candidate, if_pos template, found]

section Named

variable (canonical : dir.IsCanonical) (scanned : IsScanned file) (named : NamesEntry stem)
include canonical scanned named

/-- A template is accepted by its path below the views. -/
theorem accepts_template (views : finder.project.viewsDir.text ≠ [])
    (behind : IsBehind dir finder.project.viewsDir rel)
    (kind : finder.kind ∈ [.template, .partialTemplate])
    (target : finder.target.namedBy (dir.join ⟨stem⟩) = true) :
    finder.Accepts file ⟨.template, (rel.join ⟨stem⟩).text⟩ := by
  refine accepts_of_rendered kind scanned (by simp) (fun content => ?_) target
  exact congrArg some (Path.absolutize_join_of_isBehind views canonical behind named)

/-- A template is accepted by its bare name in the files that find their views next to it. -/
theorem accepts_action (kind : finder.kind ∈ [.template, .partialTemplate])
    (finds : Convention.FindsViewsIn finder.project file dir)
    (target : finder.target.namedBy (dir.join ⟨stem⟩) = true) :
    finder.Accepts file ⟨.action, stem⟩ := by
  have template : finder.kind.isTemplate = true := by
    rcases List.mem_pair.1 kind with kind | kind <;> rw [kind] <;> rfl
  refine accepts_of_rendered kind scanned (by simp) (fun content => ?_) target
  obtain ⟨views, found, leads⟩ :=
    exists_viewsDir_candidate canonical template finds named content
  rw [renderedPath?, found, Option.map_some, leads]

/-- A partial is accepted by its path below the views, unless it lies at their top. -/
theorem accepts_partial (views : finder.project.viewsDir.text ≠ [])
    (behind : IsBehind dir finder.project.viewsDir rel) (below : rel.text ≠ [])
    (kind : finder.kind = .partialTemplate)
    (target : finder.target.namedBy (dir.join ⟨'_' :: stem⟩) = true) :
    finder.Accepts file ⟨.partialTemplate, (rel.join ⟨stem⟩).text⟩ := by
  refine accepts_of_renderedPartial kind scanned (fun content => ?_) target
  have leads := Path.absolutize_join_of_isBehind views canonical behind named
  rw [partialPath?, if_pos rfl]
  simp only [Path.separator_mem_join below named, ↓reduceIte, Option.bind_some]
  exact leads ▸ underscored?_join_name canonical named

/-- A partial is accepted by its bare name in the files that find their views next to it. -/
theorem accepts_bare_partial (kind : finder.kind = .partialTemplate)
    (finds : Convention.FindsViewsIn finder.project file dir)
    (target : finder.target.namedBy (dir.join ⟨'_' :: stem⟩) = true) :
    finder.Accepts file ⟨.partialTemplate, stem⟩ := by
  refine accepts_of_renderedPartial kind scanned (fun content => ?_) target
  have template : finder.kind.isTemplate = true := by rw [kind]; rfl
  obtain ⟨views, found, leads⟩ :=
    exists_viewsDir_candidate canonical template finds named content
  rw [partialPath?, if_pos rfl]
  simp only [named.2.2, ↓reduceIte, found, Option.bind_some, leads]
  exact underscored?_join_name canonical named

end Named

/-- Logical references are complete. A template in a directory at or below the views is accepted as
a template by the path of the directory with a stem behind it that its name continues, and as an
action by the stem alone in every file that finds its views in the directory. A partial is accepted
in the same two ways by a stem without its underscore, by the path only if the directory is not
that of all views. Controllers with the path of the directory as their name find their views in it,
and so do the files in it that are no controllers; no template is a controller. -/
theorem logicalNames_complete {project : Project} {dir rel : Path} {name : Segment} {file : Path}
    (canonical : project.IsCanonical) (canonicalDir : dir.IsCanonical)
    (below : dir.stripPrefix? project.viewsDir = some rel) (named : NamesEntry name)
    (scanned : IsScanned file) :
    (∀ stem, Path.isSignificant stem = true → stem ≠ ['.', '.'] → Continues name stem →
      ∀ kind ∈ [AssetKind.template, .partialTemplate],
        let finder := new kind project (dir.join ⟨name⟩)
        finder.Accepts file ⟨.template, (rel.join ⟨stem⟩).text⟩ ∧
        (Convention.FindsViewsIn project file dir → finder.Accepts file ⟨.action, stem⟩)) ∧
    (∀ stem, Path.isSignificant stem = true → stem ≠ ['.', '.'] → Continues name ('_' :: stem) →
      let finder := new .partialTemplate project (dir.join ⟨name⟩)
      (rel.text ≠ [] → finder.Accepts file ⟨.partialTemplate, (rel.join ⟨stem⟩).text⟩) ∧
      (Convention.FindsViewsIn project file dir → finder.Accepts file ⟨.partialTemplate, stem⟩)) ∧
    (Convention.controllerName? project file = some rel.text →
      Convention.FindsViewsIn project file dir) ∧
    (∀ own, NamesEntry own → file = dir.join ⟨own⟩ →
      Convention.controllerName? project file = none → Convention.FindsViewsIn project file dir) ∧
    ∀ extension ∈ AssetKind.templateExtensions, file.extension? = some extension →
      Convention.controllerName? project file = none := by
  have behind := Path.isBehind_of_stripPrefix? canonical.views.components_ne_nil below
  have views := canonical.views.text_ne_nil
  have target {stem : Segment} (kind : AssetKind) (namedStem : NamesEntry stem)
      (continues : Continues name stem) :
      (new kind project (dir.join ⟨name⟩)).target.namedBy (dir.join ⟨stem⟩) = true := by
    rw [target_new_join kind project canonicalDir named]
    exact Path.namedBy_join_of_continues named namedStem continues
  refine ⟨?_, ?_, Convention.findsViewsIn_of_controllerName? canonical behind, ?_, ?_⟩
  · intro stem significant other continues kind listed
    have namedStem := Path.namesEntry_of_continues named significant other continues
    have prefixed := target kind namedStem continues
    exact ⟨accepts_template canonicalDir scanned namedStem views behind listed prefixed,
      fun finds => accepts_action canonicalDir scanned namedStem listed finds prefixed⟩
  · intro stem significant other continues
    have underscored : NamesEntry ('_' :: stem) :=
      Path.namesEntry_of_continues named (by simp [Path.isSignificant]) (by simp) continues
    have namedStem : NamesEntry stem :=
      ⟨significant, other, fun mem => underscored.2.2 (List.mem_cons_of_mem _ mem)⟩
    have prefixed := target .partialTemplate underscored continues
    exact ⟨fun top => accepts_partial canonicalDir scanned namedStem views behind top rfl prefixed,
      fun finds => accepts_bare_partial canonicalDir scanned namedStem rfl finds prefixed⟩
  · rintro own namedOwn rfl noController
    exact Convention.findsViewsIn_of_join canonicalDir behind namedOwn noController
  · exact fun extension template => Convention.controllerName?_of_template template

/-- The controller of users may name a partial of theirs by its path or by its name alone. -/
theorem logicalNames_complete_of_users :
    let project := Project.conventional (.ofString "/p")
    let finder := new .partialTemplate project (.ofString "/p/app/views/users/_form.html.erb")
    let file := Path.ofString "/p/app/controllers/users_controller.rb"
    finder.Accepts file ⟨.partialTemplate, "users/form".toList⟩ ∧
      finder.Accepts file ⟨.partialTemplate, "form".toList⟩ :=
  have scanned : IsScanned (.ofString "/p/app/controllers/users_controller.rb") :=
    ⟨"rb".toList, by decide, by decide +kernel⟩
  have complete := logicalNames_complete
    (Project.isCanonical_conventional (by decide : (Path.ofString "/p").IsCanonical))
    (by decide +kernel : (Path.ofString "/p/app/views/users").IsCanonical)
    (by decide +kernel : _ = some (Path.ofString "users"))
    (by decide +kernel : NamesEntry "_form.html.erb".toList) scanned
  have accepted := complete.2.1 "form".toList (by decide) (by decide)
    ⟨".html.erb".toList, by decide, .inr (by decide)⟩
  ⟨accepted.1 (by decide), accepted.2 (complete.2.2.1 (by decide +kernel))⟩

end Finder

end AssetUsage
