import AssetUsage.Finder.Line
import AssetUsage.Proofs.Call.Arguments
import AssetUsage.Proofs.Path.Below
import AssetUsage.Proofs.Scan.ReportedLines

/-!
# Names given to helpers

A helper is given the path of an asset relative to a directory of its own. For a stylesheet or a
script it adds the extension unless the name ends with it, in lower case; the kind of a target goes
by its extension in any case. So the relative path of a target names it exactly if its extension is
spelled in lower case (`isNamedAsset_iff`), and every other spelling is missed, although the kind is
the same. Images are named by their relative paths whatever these are (`helperNames_exact`).
-/

namespace AssetUsage

/-- How helpers name the assets of a kind. -/
structure HelperConvention where
  helpers : List String
  /-- The directory to which names are relative. -/
  dir : Path
  /-- The extension that may be left out. -/
  extension : Option (List Char)

/-- What every convention has in common. -/
structure HelperConvention.IsSound (convention : HelperConvention) : Prop where
  /-- The names of helpers do not overlap with themselves. -/
  helpers : ∀ helper ∈ convention.helpers, helper.toList ≠ [] ∧ Call.HasNoBorder helper.toList
  dir : convention.dir.components ≠ []
  /-- An extension holds no separator and more than dots. -/
  extension : ∀ suffix ∈ convention.extension,
    '/' ∉ '.' :: suffix ∧ ('.' :: suffix).any (· != '.') = true

namespace Finder

/-- The convention for the kind of the target, if helpers name it. -/
def helperConvention? (finder : Finder) : Option HelperConvention :=
  match finder.kind with
  | .stylesheet =>
    some ⟨["stylesheet_link_tag"], finder.project.stylesheetsDir, some "css".toList⟩
  | .javascript =>
    some ⟨["javascript_include_tag"], finder.project.javascriptsDir, some "js".toList⟩
  | .image => some ⟨imageHelpers, finder.project.imagesDir, none⟩
  | .template | .partialTemplate | .layout | .publicFile => none

end Finder

/-- The name ends with the extension, if there is one. -/
def HasExtension (name : List Char) (extension : Option (List Char)) : Prop :=
  ∀ suffix ∈ extension, '.' :: suffix <:+ name

namespace Reference

/-- A name with the extension stays, and any other gets it. -/
theorem withExtension_eq (name : List Char) (extension : Option (List Char)) :
    (HasExtension name extension ∧ withExtension name extension = name) ∨
      ¬ HasExtension name extension ∧
        ∃ suffix ∈ extension, withExtension name extension = name ++ '.' :: suffix := by
  cases extension with
  | none => exact .inl ⟨by simp [HasExtension], rfl⟩
  | some suffix =>
    by_cases ends : '.' :: suffix <:+ name
    · refine .inl ⟨by simpa [HasExtension] using ends, ?_⟩
      exact if_pos (List.isSuffixOf_iff_suffix.2 ends)
    · refine .inr ⟨by simpa [HasExtension] using ends, suffix, rfl, ?_⟩
      exact if_neg (mt List.isSuffixOf_iff_suffix.1 ends)

/-- A clean relative name is resolved in the directory of the helper. -/
theorem resolveAsset?_of_clean {project : Project} {name : List Char} {dir : Path}
    {extension : Option (List Char)} (clean : clean? name = some name)
    (relative : (Path.mk name).isAbsolute = false) :
    resolveAsset? project name dir extension =
      some (dir.join ⟨withExtension name extension⟩).normalize := by
  rw [resolveAsset?, clean, Option.map_some]
  cases name with
  | nil => rfl
  | cons c rest =>
    have other : c ≠ '/' := by simpa [Path.isAbsolute] using relative
    split
    · next same _ => exact absurd (List.head_eq_of_cons_eq same) other
    · rfl

/-- A name that stays as it is when it is cleaned is not empty. -/
theorem ne_nil_of_clean {name : List Char} (clean : clean? name = some name) : name ≠ [] := by
  rintro rfl
  contradiction

end Reference

namespace Finder

/-- A directory below another one has components. -/
theorem components_join_ne_nil (base : Path) {name : String}
    (relative : (Path.ofString name).isAbsolute = false)
    (named : (Path.ofString name).segments.filter Path.isSignificant ≠ []) :
    (base.join (.ofString name)).components ≠ [] := by
  rw [Path.components_eq_segments, Path.filter_segments_join relative]
  simp [named]

/-- Every convention is sound. -/
theorem isSound_of_helperConvention? {finder : Finder} {convention : HelperConvention}
    (helped : finder.helperConvention? = some convention) : convention.IsSound := by
  have named : ∀ helper ∈ "stylesheet_link_tag" :: "javascript_include_tag" :: imageHelpers,
      helper.toList ≠ [] ∧ Call.HasNoBorder helper.toList := by decide +kernel
  rw [List.forall_mem_cons, List.forall_mem_cons] at named
  obtain ⟨sheets, scripts, images⟩ := named
  have plain : ∀ suffix ∈ ["css".toList, "js".toList],
      '/' ∉ '.' :: suffix ∧ ('.' :: suffix).any (· != '.') = true := by decide
  unfold helperConvention? at helped
  split at helped
  · obtain rfl := Option.some.inj helped
    refine ⟨List.forall_mem_singleton.2 sheets, components_join_ne_nil _ rfl (by decide), ?_⟩
    intro suffix listed
    obtain rfl := Option.some.inj listed
    exact plain _ (by simp)
  · obtain rfl := Option.some.inj helped
    refine ⟨List.forall_mem_singleton.2 scripts, components_join_ne_nil _ rfl (by decide), ?_⟩
    intro suffix listed
    obtain rfl := Option.some.inj listed
    exact plain _ (by simp)
  · obtain rfl := Option.some.inj helped
    refine ⟨images, components_join_ne_nil _ rfl (by decide), ?_⟩
    intro suffix listed
    contradiction
  all_goals contradiction

/-- The target of a finder is normal. -/
theorem normalize_target {project : Project} {target : Path} {finder : Finder}
    (covered : ofTarget? project target = some finder) :
    finder.target.normalize = finder.target := by
  obtain ⟨kind, -, rfl⟩ := Option.map_eq_some_iff.1 covered
  exact Path.normalize_normalize _

/-- The relative path of a target names it exactly if it ends with the extension. -/
theorem isNamedAsset_iff {project : Project} {target rel : Path} {finder : Finder}
    {convention : HelperConvention} (covered : ofTarget? project target = some finder)
    (helped : finder.helperConvention? = some convention)
    (below : finder.target.stripPrefix? convention.dir = some rel)
    (clean : Reference.clean? rel.text = some rel.text) :
    finder.isNamedAsset convention.dir convention.extension rel.text = true ↔
      HasExtension rel.text convention.extension := by
  obtain ⟨-, inDir, plain⟩ := isSound_of_helperConvention? helped
  have nonempty : convention.dir.text ≠ [] := Path.text_ne_nil_of_components_ne_nil inDir
  have behind := Path.isBehind_of_stripPrefix? inDir below
  have resolved : Reference.resolveAsset? finder.project rel.text convention.dir
      convention.extension = _ := Reference.resolveAsset?_of_clean clean behind.relative
  rw [isNamedAsset, resolved, isNamed, Option.any_some, isTarget, decide_eq_true_iff]
  rcases Reference.withExtension_eq rel.text convention.extension with
    ⟨ends, same⟩ | ⟨missing, suffix, listed, longer⟩
  · refine iff_of_true ?_ ends
    have joined := Path.samePath_join_of_isBehind nonempty behind
    rw [same, Path.normalize_congr joined, normalize_target covered]
    exact .refl _
  · refine iff_of_false ?_ missing
    rw [longer]
    obtain ⟨separator, visible⟩ := plain suffix listed
    exact Path.not_samePath_join_of_ending nonempty behind (Reference.ne_nil_of_clean clean)
      separator visible

/-- Templates are of a kind for templates. -/
theorem isTemplate_ofTemplate (project : Project) (target : Path) :
    (AssetKind.ofTemplate project target).isTemplate = true := by
  unfold AssetKind.ofTemplate
  split
  · rfl
  · split <;> rfl

/-- A target is a stylesheet or a script by its extension in any letter case. -/
theorem extension?_of_ofTarget? {project : Project} {target : Path} {kind : AssetKind}
    (isKind : AssetKind.ofTarget? project target = some kind) :
    (kind = .stylesheet → target.extension? = some "css".toList) ∧
      (kind = .javascript → target.extension? = some "js".toList) := by
  have present : ∀ suffix : List Char, suffix ≠ [] → target.extension?.getD [] = suffix →
      target.extension? = some suffix := by
    intro suffix nonempty same
    cases extension : target.extension? with
    | none => exact absurd (by simpa [extension] using same.symm) nonempty
    | some found => simpa [extension] using same
  have neither : kind ≠ .stylesheet → kind ≠ .javascript →
      (kind = .stylesheet → target.extension? = some "css".toList) ∧
        (kind = .javascript → target.extension? = some "js".toList) :=
    fun noSheet noScript => ⟨fun same => absurd same noSheet, fun same => absurd same noScript⟩
  unfold AssetKind.ofTarget? at isKind
  dsimp only at isKind
  split at isKind
  · next css =>
    obtain rfl := Option.some.inj isKind
    exact ⟨fun _ => present _ (by decide) css, fun same => by contradiction⟩
  · split at isKind
    · next js =>
      obtain rfl := Option.some.inj isKind
      exact ⟨fun same => by contradiction, fun _ => present _ (by decide) js⟩
    · split at isKind
      · obtain rfl := Option.some.inj isKind
        exact neither (by decide) (by decide)
      · split at isKind
        · obtain rfl := Option.some.inj isKind
          have template := isTemplate_ofTemplate project target
          apply neither <;> (intro same; rw [same] at template; contradiction)
        · split at isKind
          · obtain rfl := Option.some.inj isKind
            exact neither (by decide) (by decide)
          · contradiction

/-- The target of a finder for stylesheets or scripts has the extension in some letter case. -/
theorem extension?_of_helperConvention? {project : Project} {target : Path} {finder : Finder}
    {convention : HelperConvention} {suffix : List Char}
    (covered : ofTarget? project target = some finder)
    (helped : finder.helperConvention? = some convention) (listed : suffix ∈ convention.extension) :
    finder.target.extension? = some suffix := by
  obtain ⟨kind, isKind, rfl⟩ := Option.map_eq_some_iff.1 covered
  obtain ⟨sheet, script⟩ := extension?_of_ofTarget? isKind
  have extended : (project.absolutize target).extension? = some suffix := by
    unfold helperConvention? at helped
    split at helped
    · next isSheet =>
      obtain rfl := Option.some.inj helped
      obtain rfl := Option.some.inj listed
      exact sheet isSheet
    · next isScript =>
      obtain rfl := Option.some.inj helped
      obtain rfl := Option.some.inj listed
      exact script isScript
    · obtain rfl := Option.some.inj helped
      contradiction
    all_goals contradiction
  obtain ⟨name, named, ends⟩ := Option.bind_eq_some_iff.1 extended
  exact Option.bind_eq_some_iff.2 ⟨name, Path.fileName?_absolutize project.root named, ends⟩

/-- The relative path of a target ends with the extension in some letter case. -/
theorem hasExtension_map_toLower {project : Project} {target rel : Path} {finder : Finder}
    {convention : HelperConvention} (covered : ofTarget? project target = some finder)
    (helped : finder.helperConvention? = some convention)
    (below : finder.target.stripPrefix? convention.dir = some rel) (remains : rel.text ≠ []) :
    HasExtension (rel.text.map Char.toLower) convention.extension := by
  intro suffix listed
  have behind := Path.isBehind_of_stripPrefix? (isSound_of_helperConvention? helped).dir below
  have extended := extension?_of_helperConvention? covered helped listed
  obtain ⟨name, named, extended⟩ := Option.bind_eq_some_iff.1 extended
  obtain ⟨ending, ends, rfl⟩ := Option.map_eq_some_iff.1 extended
  have inName := Path.suffix_of_extensionOfName ends
  have inText := inName.trans (Path.fileName_suffix_of_isBehind behind remains named)
  have lowered := inText.map Char.toLower
  exact lowered

/-- A call of a helper with a name of the target is a usage in code. -/
theorem usedBy_of_literal {finder : Finder} {convention : HelperConvention} {candidate : Candidate}
    {line name : List Char} {helper : String} {arguments : List Call.Argument}
    (inCode : candidate.extension ∈ AssetKind.codeExtensions)
    (helped : finder.helperConvention? = some convention) (listed : helper ∈ convention.helpers)
    (called : arguments ∈ Call.helperCalls line helper.toList) (mem : .literal name ∈ arguments)
    (named : finder.isNamedAsset convention.dir convention.extension name = true) :
    finder.usedBy candidate line = true := by
  have argument : .literal name ∈ argumentsOf line helper := List.mem_flatten_of_mem called mem
  unfold helperConvention? at helped
  split at helped
  · next kind =>
    obtain rfl := Option.some.inj helped
    obtain rfl := List.mem_singleton.1 listed
    have helps : finder.inStylesheetHelper line = true := List.any_eq_true.2 ⟨_, argument, named⟩
    simp [usedBy, kind, inCode, helps]
  · next kind =>
    obtain rfl := Option.some.inj helped
    obtain rfl := List.mem_singleton.1 listed
    have helps : finder.inScriptHelper line = true := List.any_eq_true.2 ⟨_, argument, named⟩
    simp [usedBy, kind, inCode, helps]
  · next kind =>
    obtain rfl := Option.some.inj helped
    have helps : finder.inImageHelper line = true :=
      List.any_eq_true.2 ⟨_, listed, List.any_eq_true.2 ⟨_, argument, named⟩⟩
    simp [usedBy, kind, inCode, helps]
  all_goals contradiction

/-- The relative path of a target of a helper ends with its extension in some letter case. It names
the target exactly if that is the lower case, and then every call of a helper with this name, behind
whatever other arguments, is a usage in code, which every scan that reads the line reports. -/
theorem helperNames_exact {project : Project} {target rel : Path} {finder : Finder}
    {convention : HelperConvention} (covered : ofTarget? project target = some finder)
    (helped : finder.helperConvention? = some convention)
    (below : finder.target.stripPrefix? convention.dir = some rel)
    (clean : Reference.clean? rel.text = some rel.text) :
    HasExtension (rel.text.map Char.toLower) convention.extension ∧
    (finder.isNamedAsset convention.dir convention.extension rel.text = true ↔
      HasExtension rel.text convention.extension) ∧
    (HasExtension rel.text convention.extension →
      ∀ helper ∈ convention.helpers, ∀ call before behind,
      Call.SpellsCall helper.toList rel.text call →
      before.getLast?.any Call.continuesName = false →
      ∀ file : Path, file.extension?.getD [] ∈ AssetKind.codeExtensions →
      (∀ content, finder.usedBy (finder.candidate file content)
        (before ++ (call ++ behind)) = true) ∧
      ∀ tree options number,
        Scan.ReadsLine tree finder options file number (before ++ (call ++ behind)) →
        Scan.Reports tree finder options file number) := by
  have named := isNamedAsset_iff covered helped below clean
  refine ⟨hasExtension_map_toLower covered helped below (Reference.ne_nil_of_clean clean), named,
    ?_⟩
  intro ends helper listed call before behind spelled alone file inCode
  obtain ⟨nonempty, noBorder⟩ := (isSound_of_helperConvention? helped).helpers helper listed
  obtain ⟨arguments, called, mem⟩ :=
    Call.exists_mem_helperCalls_of_spellsCall nonempty noBorder spelled alone behind
  have used : ∀ content, finder.usedBy (finder.candidate file content)
      (before ++ (call ++ behind)) = true := fun content =>
    usedBy_of_literal inCode helped listed called mem (named.2 ends)
  exact ⟨used, fun tree options number reads => Scan.reports_of_usedBy reads used⟩

/-- A template that links a stylesheet in a subdirectory, after another argument. -/
def linkingTemplate : Content :=
  ⟨(Text.Utf8.encode "<%= stylesheet_link_tag(:all, \"admin/main.css\") %>\n".toList).toArray⟩

/-- The line of the template is reported for the stylesheet. -/
theorem helperNames_of_linkingTemplate :
    let page := Path.ofString "/p/app/views/a.html.erb"
    let project := Project.conventional (.ofString "/p")
    let sheet := Finder.new .stylesheet project (.ofString "/p/public/stylesheets/admin/main.css")
    Scan.Reports (Tree.empty.write page linkingTemplate) sheet {} page 1 := by
  intro page project sheet
  have covered : ofTarget? project (.ofString "public/stylesheets/admin/main.css") =
      some sheet := by decide +kernel
  have below : sheet.target.stripPrefix? project.stylesheetsDir =
      some (.ofString "admin/main.css") := by decide +kernel
  have clean : Reference.clean? "admin/main.css".toList = some "admin/main.css".toList := by
    decide +kernel
  have ends : HasExtension "admin/main.css".toList (some "css".toList) := by
    intro suffix listed
    obtain rfl := Option.some.inj listed
    decide
  have all : Call.SpellsArguments [.symbol "all".toList] ":all,".toList :=
    .cons .nil (.symbol (by decide) (List.all_eq_true.1 (by decide +kernel))) .nil .nil
  have call : Call.SpellsCall "stylesheet_link_tag".toList "admin/main.css".toList
      "stylesheet_link_tag(:all, \"admin/main.css\"".toList :=
    .intro (.inr ⟨[], .nil, rfl⟩) all (by decide : Text.Blanks " ".toList) (by decide)
  have inCode : page.extension?.getD [] ∈ AssetKind.codeExtensions := by decide +kernel
  apply ((helperNames_exact covered rfl below clean).2.2 ends _ (List.mem_singleton.2 rfl) _
    "<%= ".toList ") %>".toList call (by decide +kernel) page inCode).2
  exact ⟨by decide +kernel, by decide +kernel, by decide, linkingTemplate,
    ⟨rfl, by decide +kernel, by decide +kernel⟩, by decide +kernel⟩

/-- A stylesheet whose extension is not spelled in lower case is missed under its own name. -/
theorem helper_misses_capitalExtension :
    ¬ ∀ (project : Project) (target rel : Path) (finder : Finder) (convention : HelperConvention),
      ofTarget? project target = some finder → finder.helperConvention? = some convention →
      finder.target.stripPrefix? convention.dir = some rel →
      Reference.clean? rel.text = some rel.text →
      ∀ helper ∈ convention.helpers, ∀ call, Call.SpellsCall helper.toList rel.text call →
      ∀ file : Path, file.extension?.getD [] ∈ AssetKind.codeExtensions →
      ∀ content, finder.usedBy (finder.candidate file content) call = true := by
  intro claim
  let project := Project.conventional (.ofString "/p")
  let sheet := Finder.new .stylesheet project (.ofString "/p/public/stylesheets/main.CSS")
  have covered : ofTarget? project (.ofString "public/stylesheets/main.CSS") = some sheet := by
    decide +kernel
  have below : sheet.target.stripPrefix? project.stylesheetsDir = some (.ofString "main.CSS") := by
    decide +kernel
  have clean : Reference.clean? "main.CSS".toList = some "main.CSS".toList := by decide +kernel
  have call : Call.SpellsCall "stylesheet_link_tag".toList "main.CSS".toList
      "stylesheet_link_tag \"main.CSS\"".toList :=
    .intro (.inl (by decide : Text.Blanks " ".toList)) .nil .nil (by decide)
  have used := claim project _ _ sheet _ covered rfl below clean _ (List.mem_singleton.2 rfl) _ call
    (.ofString "/p/app/views/a.html.erb") (by decide +kernel) []
  have unused : sheet.usedBy (sheet.candidate (.ofString "/p/app/views/a.html.erb") [])
      "stylesheet_link_tag \"main.CSS\"".toList = false := by decide +kernel
  exact Bool.false_ne_true (unused.symm.trans used)

end Finder

end AssetUsage
