import AssetUsage.Proofs.Call.RenderWords
import AssetUsage.Proofs.Finder.LogicalNames
import AssetUsage.Proofs.Path.Chains

/-!
# Names by convention

A name is put behind a directory with an ending, and taken off again by leaving the ending out: the
suffix of controllers, or the extensions of layouts. Both give back the name that was put in
(`controllerName?_join`, `layoutName?_join`), so controllers, views and layouts of one name belong
together. The lines of Ruby files that use a layout are those that declare it, and the class lines
of its controller (`conventions_agree`).
-/

namespace AssetUsage

open AssetUsage.Path (NamesEntry)

namespace Convention

/-- A name that controllers, directories of views and layouts may have in common: names of entries
with separators between them, the last of which has no dot. -/
structure IsName (name : List Char) : Prop where
  named : ∀ segment ∈ (Path.mk name).segments, NamesEntry segment
  /-- A backslash would be shown as a separator. -/
  plain : '\\' ∉ name
  stem : ∀ last ∈ (Path.mk name).segments.getLast?, '.' ∉ last

instance (name : List Char) : Decidable (IsName name) :=
  decidable_of_iff ((∀ segment ∈ (Path.mk name).segments, NamesEntry segment) ∧ '\\' ∉ name ∧
      ∀ last ∈ (Path.mk name).segments.getLast?, '.' ∉ last)
    ⟨fun h => ⟨h.1, h.2.1, h.2.2⟩, fun h => ⟨h.named, h.plain, h.stem⟩⟩

/-- With an ending, a name without dots can still stand in a directory. -/
theorem namesEntry_append {last ending : List Char} (named : NamesEntry last) (stem : '.' ∉ last)
    (plain : '/' ∉ ending) : NamesEntry (last ++ ending) := by
  obtain ⟨significant, -, separator⟩ := named
  cases last with
  | nil => contradiction
  | cons first others =>
    have visible : first ≠ '.' := fun dot => stem (dot ▸ List.mem_cons_self)
    refine ⟨by simp [Path.isSignificant, visible], by simp [visible], ?_⟩
    exact fun mem => (List.mem_append.1 mem).elim separator plain

/-- The parts of a name. -/
theorem IsName.exists_parts {name : List Char} (isName : IsName name) :
    ∃ init last, (∀ segment ∈ init, NamesEntry segment) ∧ NamesEntry last ∧ '.' ∉ last ∧
      name = ['/'].intercalate (init ++ [last]) := by
  have remains := (Path.mk name).segments_ne_nil
  have whole := List.dropLast_concat_getLast remains
  have named := isName.named
  rw [← whole] at named
  obtain ⟨namedInit, namedLast⟩ := List.forall_mem_append.1 named
  refine ⟨_, _, namedInit, List.forall_mem_singleton.1 namedLast,
    isName.stem _ (List.getLast?_eq_some_getLast remains), ?_⟩
  rw [whole]
  exact (List.intercalate_splitOn '/').symm

/-- A name with an ending behind a canonical directory is left when the directory is taken off. -/
theorem IsName.relativeTo?_join {name ending : List Char} {dir : Path} (isName : IsName name)
    (canonical : dir.IsCanonical) (separator : '/' ∉ ending) (backslash : '\\' ∉ ending) :
    (dir.join ⟨name ++ ending⟩).relativeTo? dir = some (name ++ ending) := by
  have plain : '\\' ∉ name ++ ending := fun mem =>
    (List.mem_append.1 mem).elim isName.plain backslash
  obtain ⟨init, last, namedInit, namedLast, stem, whole⟩ := isName.exists_parts
  have named : ∀ segment ∈ init ++ [last ++ ending], NamesEntry segment :=
    List.forall_mem_append.2 ⟨namedInit,
      List.forall_mem_singleton.2 (namesEntry_append namedLast stem separator)⟩
  have left := Path.stripPrefix?_join canonical (by simp) named
  rw [← Path.intercalate_concat_append, ← whole] at left
  rw [Path.relativeTo?, left, Option.map_some, Path.shown_of_plain plain]

/-- Names are not empty. -/
theorem IsName.ne_nil {name : List Char} (isName : IsName name) : name ≠ [] := by
  rintro rfl
  have empty := isName.named [] (by decide)
  exact absurd empty.1 (by decide)

/-- Names do not end with a separator. -/
theorem IsName.getLast?_ne {name : List Char} (isName : IsName name) :
    name.getLast? ≠ some '/' := by
  intro ended
  obtain ⟨front, rfl⟩ := List.getLast?_eq_some_iff.1 ended
  have empty : [] ∈ (Path.mk (front ++ ['/'])).segments := by
    rw [Path.segments, List.splitOn_append_cons_self]
    simp
  exact absurd (isName.named [] empty).1 (by decide)

variable {project : Project} {name : List Char}

/-- The file of the controller of a name. -/
def controllerFile (project : Project) (name : List Char) : Path :=
  project.controllersDir.join ⟨name ++ controllerSuffix⟩

/-- The file of the controller of a name is a controller of that name. -/
theorem controllerName?_controllerFile (canonical : project.controllersDir.IsCanonical)
    (isName : IsName name) : controllerName? project (controllerFile project name) = some name := by
  have below : (controllerFile project name).relativeTo? project.controllersDir =
      some (name ++ controllerSuffix) :=
    isName.relativeTo?_join canonical (by decide) (by decide)
  have ends : controllerSuffix.isSuffixOf (name ++ controllerSuffix) = true :=
    List.isSuffixOf_iff_suffix.2 (List.suffix_append _ _)
  have cut : beforeSuffix? controllerSuffix (name ++ controllerSuffix) = some name := by
    rw [beforeSuffix?, if_pos ends, List.length_append, Nat.add_sub_cancel, List.take_left]
  rw [controllerName?, below, Option.bind_eq_bind, Option.bind_some, cut]
  exact if_neg (not_or.2 ⟨isName.ne_nil, isName.getLast?_ne⟩)

/-- The controller of a name finds views in the directory of that name. -/
theorem viewsDir?_controllerFile (canonical : project.controllersDir.IsCanonical)
    (isName : IsName name) :
    viewsDir? project (controllerFile project name) = some (project.viewsDir.join ⟨name⟩) := by
  rw [viewsDir?, controllerName?_controllerFile canonical isName]

/-- The file of a layout with a name and extensions. -/
def layoutFile (project : Project) (name extensions : List Char) : Path :=
  project.layoutsDir.join ⟨name ++ extensions⟩

section Layouts

variable {extensions : List Char} (canonical : project.layoutsDir.IsCanonical)
  (isName : IsName name) (separator : '/' ∉ extensions)
include canonical isName separator

/-- The file of a layout is spelled normally. -/
theorem isCanonical_layoutFile : (layoutFile project name extensions).IsCanonical := by
  obtain ⟨init, last, namedInit, namedLast, stem, whole⟩ := isName.exists_parts
  rw [layoutFile, whole, Path.intercalate_concat_append]
  exact canonical.join_names (by simp) (List.forall_mem_append.2 ⟨namedInit,
    List.forall_mem_singleton.2 (namesEntry_append namedLast stem separator)⟩)

/-- A layout has its name whatever its extensions are. -/
theorem layoutName?_layoutFile (ends : extensions = [] ∨ extensions.head? = some '.') :
    layoutName? project.layoutsDir (layoutFile project name extensions) = some name := by
  obtain ⟨init, last, namedInit, namedLast, stem, whole⟩ := isName.exists_parts
  have named : ∀ segment ∈ init ++ [last], NamesEntry segment :=
    List.forall_mem_append.2 ⟨namedInit, List.forall_mem_singleton.2 namedLast⟩
  have namedFile : ∀ segment ∈ init ++ [last ++ extensions], NamesEntry segment :=
    List.forall_mem_append.2 ⟨namedInit,
      List.forall_mem_singleton.2 (namesEntry_append namedLast stem separator)⟩
  have logical : (layoutFile project name extensions).withoutExtensions =
      project.layoutsDir.join ⟨name⟩ := by
    obtain ⟨front, namedFront, dir⟩ := canonical.exists_names
    rw [layoutFile, dir, whole, Path.intercalate_concat_append,
      Path.join_assemble namedFront (by simp) namedFile,
      Path.join_assemble namedFront (by simp) named, ← List.append_assoc, ← List.append_assoc]
    refine Path.withoutExtensions_assemble ?_ namedLast stem ends
    rw [List.append_assoc]
    exact List.forall_mem_append.2 ⟨namedFront, namedFile⟩
  have left : (project.layoutsDir.join ⟨name⟩).stripPrefix? project.layoutsDir = some ⟨name⟩ := by
    rw [whole]
    exact Path.stripPrefix?_join canonical (by simp) named
  rw [layoutName?, logical, left]
  simp only [isName.ne_nil, if_false, Path.shown_of_plain isName.plain]

/-- A finder for the file of a layout knows it by its name. -/
theorem layoutName_new_layoutFile (ends : extensions = [] ∨ extensions.head? = some '.') :
    (Finder.new .layout project (layoutFile project name extensions)).layoutName = name := by
  have target := isCanonical_layoutFile canonical isName separator
  have unchanged : project.absolutize (layoutFile project name extensions) =
      layoutFile project name extensions := target.absolutize_eq project.root
  rw [Finder.layoutName]
  change (layoutName? project.layoutsDir (project.absolutize _)).getD _ = name
  rw [unchanged, layoutName?_layoutFile canonical isName separator ends, Option.getD_some]

end Layouts

end Convention

namespace Call

/-- A text that stands around a character it does not hold stands on one side of it. -/
theorem infix_append_cons {c : Char} {word before behind : List Char} (apart : c ∉ word)
    (inside : word <:+: before ++ c :: behind) : word <:+: before ∨ word <:+: behind := by
  obtain ⟨front, rest, whole⟩ := inside
  obtain ⟨more, rfl, -⟩ | ⟨more, start, tail⟩ := List.append_eq_append_iff.1 whole
  · exact .inl ⟨front, more, rfl⟩
  · cases more with
    | nil =>
      rw [List.append_nil] at start
      exact .inl (start ▸ (List.suffix_append front word).isInfix)
    | cons first others =>
      obtain ⟨rfl, rfl⟩ := List.cons.inj tail
      obtain ⟨middle, -, later⟩ | ⟨middle, -, later⟩ := List.append_eq_append_iff.1 start
      · exact absurd (later ▸ List.mem_append_right _ List.mem_cons_self) apart
      · cases middle with
        | nil =>
          rw [List.nil_append] at later
          exact absurd (later ▸ List.mem_cons_self) apart
        | cons _ middle =>
          obtain ⟨rfl, rfl⟩ := List.cons.inj later
          exact .inr ⟨middle, rest, rfl⟩

/-- A line that declares a layout by a quoted name. -/
def quotedDeclaration (name : List Char) : List Char := "layout ".toList ++ '"' :: (name ++ ['"'])

/-- A quoted name in which `render` does not occur makes a line in which it does not. -/
theorem not_infix_quotedDeclaration {name : List Char} (absent : ¬ "render".toList <:+: name) :
    ¬ "render".toList <:+: quotedDeclaration name := by
  have apart : '"' ∉ "render".toList := by decide +kernel
  intro inside
  unfold quotedDeclaration at inside
  obtain before | behind := infix_append_cons apart inside
  · exact absurd before (by decide +kernel)
  · obtain inName | nothing := infix_append_cons apart behind
    · exact absent inName
    · exact absurd nothing (by decide +kernel)

/-- What stands behind the word in a declaration by a quoted name. -/
theorem behindWord?_quotedDeclaration (name : List Char) :
    behindWord? "layout" (quotedDeclaration name) = some (' ' :: '"' :: (name ++ ['"'])) := by
  have word : "layout ".toList = "layout".toList ++ [' '] := by decide +kernel
  have spelled : "layout".toList = 'l' :: "ayout".toList := by decide +kernel
  have none_ : ∀ b ∈ ([] : List Char), Text.isBlank b = true := by simp
  unfold quotedDeclaration
  rw [word, List.append_assoc]
  exact behindWord?_of_blanks spelled (by decide) none_

/-- A quoted name without quotes is declared. -/
theorem declaredLayout?_quotedDeclaration {name : List Char} (nonempty : name ≠ [])
    (plain : ∀ c ∈ name, Text.isQuote c = false) :
    declaredLayout? (quotedDeclaration name) = some name := by
  have trimmed : Text.trimStart (' ' :: '"' :: (name ++ ['"'])) = '"' :: (name ++ ['"']) := rfl
  have inside : ∀ c ∈ name, (!Text.isQuote c) = true := by simpa using plain
  have stops : Text.StopsAt (!Text.isQuote ·) ['"'] := .cons rfl
  have taken := Text.takeWhile_run inside stops
  have left := Text.dropWhile_run inside stops
  obtain ⟨first, others, rfl⟩ := List.exists_cons_of_ne_nil nonempty
  have read : Text.readBetweenQuotes? ('"' :: (first :: others ++ ['"'])) =
      some (first :: others, []) := by
    rw [Text.readBetweenQuotes?, if_pos (show Text.isQuote '"' = true from rfl), taken, left]
  rw [declaredLayout?, behindWord?_quotedDeclaration, Option.bind_eq_bind, Option.bind_some,
    trimmed]
  change (Text.readBetweenQuotes? ('"' :: (first :: others ++ ['"']))).map (·.1) = _
  rw [read, Option.map_some]

/-- A line that opens a class declares no layout. -/
theorem declaredLayout?_of_isControllerClass {line : List Char}
    (opens : isControllerClass line = true) : declaredLayout? line = none := by
  unfold isControllerClass at opens
  split at opens
  · contradiction
  · next behind found =>
    have trimmed := List.isPrefixOf?_eq_some_iff_append_eq.1 found
    rw [declaredLayout?, behindWord?, ← trimmed]
    rfl

/-- A line that declares a layout by a quoted name opens no class. -/
theorem isControllerClass_quotedDeclaration (name : List Char) :
    isControllerClass (quotedDeclaration name) = false := by
  have other : behindWord? "class" (quotedDeclaration name) = none := rfl
  rw [isControllerClass, other]

end Call

namespace Finder

open Convention

/-- Without render calls, a finder of a layout accepts those lines of a Ruby file that declare the
layout and those that get it implicitly. -/
theorem usedBy_layout {finder : Finder} {file : Path} {content line : List Char}
    (kind : finder.kind = .layout) (ruby : file.extension? = some "rb".toList)
    (absent : ¬ "render".toList <:+: line) :
    finder.usedBy (finder.candidate file content) line =
      (finder.inLayoutDeclaration line ||
        finder.inImplicitLayout (finder.candidate file content) line) := by
  have references := Call.renderReferences_eq_nil absent
  have extension : (finder.candidate file content).extension = "rb".toList := by
    rw [candidate, ruby]
    rfl
  simp [usedBy, kind, inRenderCall, inLayoutOption, references, extension]

section Names

variable {project : Project} {name layout extensions : List Char}
  (canonical : project.IsCanonical) (isLayout : IsName layout) (separator : '/' ∉ extensions)
  (ends : extensions = [] ∨ extensions.head? = some '.')
include canonical isLayout separator ends

/-- A class line of a controller that declares nothing uses the layout of its own name, and the one
of all controllers. -/
theorem usedBy_classLine (isName : IsName name) {content line : List Char}
    (opens : Call.isControllerClass line = true) (absent : ¬ "render".toList <:+: line)
    (silent : Call.declaresLayout content = false) :
    let finder := new .layout project (layoutFile project layout extensions)
    finder.usedBy (finder.candidate (controllerFile project name) content) line = true ↔
      layout = name ∨ layout = defaultLayout := by
  intro finder
  have known : finder.layoutName = layout :=
    layoutName_new_layoutFile canonical.layouts isLayout separator ends
  have controller := controllerName?_controllerFile canonical.controllers isName
  have undeclared : finder.inLayoutDeclaration line = false := by
    rw [inLayoutDeclaration, Call.declaredLayout?_of_isControllerClass opens]
    rfl
  have lines : ∀ other ∈ Text.lines content, Call.isLayoutDeclaration other = false := by
    simpa [Call.declaresLayout] using silent
  have bound : finder.inImplicitLayout (finder.candidate (controllerFile project name) content)
      line = true ↔ layout = name ∨ layout = defaultLayout := by
    refine bindsImplicitly_iff.trans ?_
    change _ ∧ _ ∧ (∃ own, _ ∧ (finder.layoutName = own ∨ finder.layoutName = defaultLayout)) ↔ _
    rw [known, controller, and_iff_right lines, and_iff_right opens]
    simp only [Option.some_inj, exists_eq_left']
  rw [usedBy_layout rfl (extension?_of_controllerName? controller) absent, undeclared,
    Bool.false_or]
  exact bound

/-- A line that declares a layout by a quoted name uses the layout of that name. -/
theorem usedBy_quotedDeclaration (nonempty : name ≠ []) (plain : ∀ c ∈ name, Text.isQuote c = false)
    (absent : ¬ "render".toList <:+: name) {file : Path} (ruby : file.extension? = some "rb".toList)
    (content : List Char) :
    let finder := new .layout project (layoutFile project layout extensions)
    finder.usedBy (finder.candidate file content) (Call.quotedDeclaration name) = true ↔
      layout = name := by
  intro finder
  have known : finder.layoutName = layout :=
    layoutName_new_layoutFile canonical.layouts isLayout separator ends
  have unbound : finder.inImplicitLayout (finder.candidate file content)
      (Call.quotedDeclaration name) = false := by
    simp [inImplicitLayout, Call.isControllerClass_quotedDeclaration]
  rw [usedBy_layout rfl ruby (Call.not_infix_quotedDeclaration absent), unbound, Bool.or_false,
    inLayoutDeclaration, Call.declaredLayout?_quotedDeclaration nonempty plain, known, beq_iff_eq,
    Option.some_inj]
  exact eq_comm

end Names

/-- The conventions agree and separate. The controller of a name has that name and finds its views
in the directory of that name, and a layout of a name has that name whatever its extensions are. A
layout is used by the class line of a controller that declares none exactly if it is that of the
controller's name or that of all controllers, and by a declaration of a quoted name exactly if it is
that of the name. -/
theorem conventions_agree {project : Project} {name layout extensions : List Char}
    (canonical : project.IsCanonical) (isName : IsName name) (isLayout : IsName layout)
    (separator : '/' ∉ extensions) (ends : extensions = [] ∨ extensions.head? = some '.') :
    controllerName? project (controllerFile project name) = some name ∧
    viewsDir? project (controllerFile project name) = some (project.viewsDir.join ⟨name⟩) ∧
    layoutName? project.layoutsDir (layoutFile project layout extensions) = some layout ∧
    let finder := new .layout project (layoutFile project layout extensions)
    (∀ content line, Call.isControllerClass line = true → ¬ "render".toList <:+: line →
      Call.declaresLayout content = false →
      (finder.usedBy (finder.candidate (controllerFile project name) content) line = true ↔
        layout = name ∨ layout = defaultLayout)) ∧
    ((∀ c ∈ name, Text.isQuote c = false) → ¬ "render".toList <:+: name →
      ∀ file content, file.extension? = some "rb".toList →
        (finder.usedBy (finder.candidate file content) (Call.quotedDeclaration name) = true ↔
          layout = name)) :=
  ⟨controllerName?_controllerFile canonical.controllers isName,
    viewsDir?_controllerFile canonical.controllers isName,
    layoutName?_layoutFile canonical.layouts isLayout separator ends,
    fun _ _ => usedBy_classLine canonical isLayout separator ends isName,
    fun plain absent _ content ruby =>
      usedBy_quotedDeclaration canonical isLayout separator ends isName.ne_nil plain absent ruby
        content⟩

/-- The controller of users below `admin` uses the layout of its name and not that of users. -/
theorem conventions_agree_of_users :
    let project := Project.conventional (.ofString "/p")
    let file := controllerFile project "admin/users".toList
    let line := "class Admin::UsersController < ApplicationController".toList
    let own := new .layout project (layoutFile project "admin/users".toList ".html.erb".toList)
    let other := new .layout project (layoutFile project "users".toList ".html.erb".toList)
    controllerName? project file = some "admin/users".toList ∧
      own.usedBy (own.candidate file []) line = true ∧
      ¬ other.usedBy (other.candidate file []) line = true := by
  intro project file line own other
  have canonical : project.IsCanonical :=
    Project.isCanonical_conventional (by decide : (Path.ofString "/p").IsCanonical)
  have isName : IsName "admin/users".toList := by decide +kernel
  have isOther : IsName "users".toList := by decide +kernel
  have separator : '/' ∉ ".html.erb".toList := by decide +kernel
  have ends : ".html.erb".toList = [] ∨ ".html.erb".toList.head? = some '.' := by decide +kernel
  have opens : Call.isControllerClass line = true := by decide +kernel
  have absent : ¬ "render".toList <:+: line := by decide +kernel
  have agree := conventions_agree canonical isName isName separator ends
  have separate := conventions_agree canonical isName isOther separator ends
  refine ⟨agree.1, ?_, ?_⟩
  · exact (agree.2.2.2.1 [] line opens absent rfl).2 (.inl rfl)
  · rw [separate.2.2.2.1 [] line opens absent rfl]
    decide +kernel

end Finder

end AssetUsage
