import AssetUsage.Finder.Line
import AssetUsage.Proofs.Path.Ending
import Mathlib.Data.List.Basic

/-!
# Explicit and implicit layouts

A controller that decides about its layout gets none implicitly. A name directly behind the word
`layout` is the one spelling by which a line declares a layout without deciding about it
(`isLayoutDeclaration_iff_of_declaredLayout?`), and a file whose declarations are all spelled so
binds its class lines to a second layout (`bindsImplicitly_iff`).
-/

namespace AssetUsage

namespace Call

/-- The character opens a name: a string or a symbol. -/
def OpensName (c : Char) : Prop := Text.isQuote c = true ∨ c = ':'

/-- A name stands directly behind the word `layout`. -/
def IsAttached (line : List Char) : Prop :=
  ∃ blanks c rest, (∀ blank ∈ blanks, Text.isBlank blank = true) ∧
    line = blanks ++ ("layout".toList ++ c :: rest) ∧ OpensName c

/-- A name is opened by a quote of either kind or by a colon. -/
theorem opensName_iff {c : Char} : OpensName c ↔ c = '"' ∨ c = '\'' ∨ c = ':' := by
  simp [OpensName, Text.isQuote, or_assoc]

/-- What opens a name is not blank. -/
theorem OpensName.isBlank {c : Char} (h : OpensName c) : Text.isBlank c = false := by
  rcases opensName_iff.1 h with rfl | rfl | rfl <;> decide

/-- What opens a name is no parenthesis. -/
theorem OpensName.ne_parenthesis {c : Char} (h : OpensName c) : c ≠ '(' := by
  rcases opensName_iff.1 h with rfl | rfl | rfl <;> decide

/-- What stands behind the word follows blanks and the word. -/
theorem behindWord?_eq_some {word : String} {line behind : List Char}
    (h : behindWord? word line = some behind) :
    line = line.takeWhile Text.isBlank ++ (word.toList ++ behind) := by
  have whole : Text.trimStart line = word.toList ++ behind :=
    (List.isPrefixOf?_eq_some_iff_append_eq.1 h).symm
  rw [← whole]
  exact List.takeWhile_append_dropWhile.symm

/-- Behind blanks and a word that is not blank, the word is found. -/
theorem behindWord?_of_blanks {word : String} {c : Char} {letters blanks behind : List Char}
    (spelled : word.toList = c :: letters) (visible : Text.isBlank c = false)
    (blank : ∀ b ∈ blanks, Text.isBlank b = true) :
    behindWord? word (blanks ++ (word.toList ++ behind)) = some behind := by
  have trimmed : Text.trimStart (blanks ++ (word.toList ++ behind)) = word.toList ++ behind := by
    rw [Text.trimStart, List.dropWhile_append_of_pos blank, spelled, List.cons_append,
      List.dropWhile_cons_of_neg (by simp [visible])]
  rw [behindWord?, trimmed]
  exact List.isPrefixOf?_eq_some_iff_append_eq.2 rfl

/-- A line is attached if a quote or a colon comes first behind the word. -/
theorem isAttached_iff {line behind : List Char} (h : behindWord? "layout" line = some behind) :
    IsAttached line ↔ ∃ c rest, behind = c :: rest ∧ OpensName c := by
  constructor
  · rintro ⟨blanks, c, rest, blank, rfl, opens⟩
    rw [behindWord?_of_blanks (c := 'l') rfl (by decide) blank] at h
    exact ⟨c, rest, (Option.some.inj h).symm, opens⟩
  · rintro ⟨c, rest, rfl, opens⟩
    refine ⟨line.takeWhile Text.isBlank, c, rest, ?_, behindWord?_eq_some h, opens⟩
    exact fun blank mem => List.mem_takeWhile_imp mem

/-- A name that a line declares opens with a quote or a colon, behind blanks or a parenthesis. -/
theorem opens_of_declaredLayout? {line name : List Char} (h : declaredLayout? line = some name) :
    ∃ behind, behindWord? "layout" line = some behind ∧
      ((∃ rest, Text.trimStart behind = '(' :: rest) ∨
        ∃ c rest, Text.trimStart behind = c :: rest ∧ OpensName c) := by
  unfold declaredLayout? at h
  obtain ⟨behind, found, read⟩ := Option.bind_eq_some_iff.1 h
  refine ⟨behind, found, ?_⟩
  generalize Text.trimStart behind = operand at read
  cases operand with
  | nil => simp [Text.readBetweenQuotes?] at read
  | cons c rest =>
    by_cases parenthesis : c = '('
    · exact .inl ⟨rest, by rw [parenthesis]⟩
    · refine .inr ⟨c, rest, rfl, ?_⟩
      by_cases quote : Text.isQuote c = true
      · exact .inl quote
      · by_cases colon : c = ':'
        · exact .inr colon
        · simp [Text.readBetweenQuotes?, parenthesis, quote, colon] at read

/-- A line that declares a layout by name decides about it unless the name is attached. -/
theorem isLayoutDeclaration_iff_of_declaredLayout? {line name : List Char}
    (h : declaredLayout? line = some name) :
    isLayoutDeclaration line = true ↔ ¬ IsAttached line := by
  obtain ⟨behind, found, operand⟩ := opens_of_declaredLayout? h
  rw [isAttached_iff found]
  rcases operand with ⟨inside, trimmed⟩ | ⟨c, rest, trimmed, opens⟩
  · have declares : isLayoutDeclaration line = true := by
      simp [isLayoutDeclaration, found, trimmed]
    refine iff_of_true declares ?_
    rintro ⟨c, rest, rfl, opens⟩
    rw [Text.trimStart, List.dropWhile_cons_of_neg (by simp [opens.isBlank])] at trimmed
    exact opens.ne_parenthesis (List.head_eq_of_cons_eq trimmed)
  · have decides : isLayoutDeclaration line = behind.head?.any Text.isBlank := by
      rcases opensName_iff.1 opens with rfl | rfl | rfl <;>
        simp [isLayoutDeclaration, found, trimmed, startsOperand, Text.isQuote]
    rw [decides]
    cases behind with
    | nil => simp [Text.trimStart] at trimmed
    | cons first others =>
      by_cases blank : Text.isBlank first = true
      · refine iff_of_true blank ?_
        rintro ⟨c, rest, same, opens⟩
        rw [List.head_eq_of_cons_eq same, opens.isBlank] at blank
        contradiction
      · rw [Text.trimStart, List.dropWhile_cons_of_neg blank] at trimmed
        refine iff_of_false blank (not_not_intro ⟨c, rest, trimmed, opens⟩)

end Call

/-- A file that is a controller by its path is a Ruby file. -/
theorem Convention.extension?_of_controllerName? {project : Project} {file : Path}
    {name : List Char} (h : controllerName? project file = some name) :
    file.extension? = some "rb".toList := by
  obtain ⟨text, below, read⟩ := Option.bind_eq_some_iff.1 h
  obtain ⟨before, cut, -⟩ := Option.bind_eq_some_iff.1 read
  have ending : controllerSuffix <:+ text := by
    unfold beforeSuffix? at cut
    split at cut
    · next ends => exact List.isSuffixOf_iff_suffix.1 ends
    · contradiction
  obtain ⟨fileName, named, front, rfl⟩ :=
    Path.exists_fileName?_of_relativeTo? (by decide) (by decide) below ending
  have spelled : controllerSuffix.reverse = 'b' :: 'r' :: '.' :: "rellortnoc_".toList := by decide
  have extension : Path.extensionOfName (front ++ controllerSuffix) = some "rb".toList := by
    simp only [Path.extensionOfName, List.reverse_append, spelled]
    rfl
  rw [Path.extension?, named, Option.bind_some, extension]
  rfl

namespace Finder

/-- The line declares the layout at the target by its name. -/
def DeclaresExplicitly (project : Project) (target : Path) (line : List Char) : Prop :=
  (new .layout project target).inLayoutDeclaration line = true

/-- The line of a file with a content gets the layout at the target without a declaration. -/
def BindsImplicitly (project : Project) (file : Path) (content : List Char) (target : Path)
    (line : List Char) : Prop :=
  let finder := new .layout project target
  finder.inImplicitLayout (finder.candidate file content) line = true

/-- A controller declares a layout if one of its lines decides about it. -/
theorem declaresLayout_of_controllerName? {project : Project} {file : Path} {name : List Char}
    (h : Convention.controllerName? project file = some name) (target : Path)
    (content : List Char) :
    ((new .layout project target).candidate file content).declaresLayout =
      (Text.lines content).any Call.isLayoutDeclaration := by
  simp [candidate, new, Convention.extension?_of_controllerName? h, Call.declaresLayout]

/-- The class lines of a controller that decides nothing are bound to its own layout and to the
one of all controllers. -/
theorem bindsImplicitly_iff {project : Project} {file target : Path} {content line : List Char} :
    BindsImplicitly project file content target line ↔
      (∀ other ∈ Text.lines content, Call.isLayoutDeclaration other = false) ∧
      Call.isControllerClass line = true ∧
      ∃ name, Convention.controllerName? project file = some name ∧
        ((new .layout project target).layoutName = name ∨
          (new .layout project target).layoutName = Convention.defaultLayout) := by
  cases controller : Convention.controllerName? project file with
  | none => simp [BindsImplicitly, inImplicitLayout, candidate, new, controller]
  | some name =>
    have declares := declaresLayout_of_controllerName? controller target content
    have known : ((new .layout project target).candidate file content).controller = some name := by
      simp [candidate, new, AssetKind.isTemplate, controller]
    simp [BindsImplicitly, inImplicitLayout, declares, known, and_assoc]

/-- A named declaration decides about the layout of its file unless the name is attached; a file
with a named declaration that decides has no implicit layout; and the two exist side by side exactly
if every declaration is attached in a controller with a class line. -/
theorem explicit_and_implicit_layouts (project : Project) (file : Path) (content : List Char)
    (named implied : Path) :
    (∀ line name, Call.declaredLayout? line = some name →
      (Call.isLayoutDeclaration line = true ↔ ¬ Call.IsAttached line)) ∧
    (∀ line ∈ Text.lines content, DeclaresExplicitly project named line → ¬ Call.IsAttached line →
      ∀ other ∈ Text.lines content, ¬ BindsImplicitly project file content implied other) ∧
    ((∃ line ∈ Text.lines content, DeclaresExplicitly project named line) ∧
        (∃ line ∈ Text.lines content, BindsImplicitly project file content implied line) ↔
      (∃ line ∈ Text.lines content, DeclaresExplicitly project named line ∧
        Call.IsAttached line) ∧
      (∀ line ∈ Text.lines content, Call.isLayoutDeclaration line = false) ∧
      (∃ line ∈ Text.lines content, Call.isControllerClass line = true) ∧
      ∃ name, Convention.controllerName? project file = some name ∧
        ((new .layout project implied).layoutName = name ∨
          (new .layout project implied).layoutName = Convention.defaultLayout)) := by
  have decides : ∀ line, DeclaresExplicitly project named line → ¬ Call.IsAttached line →
      Call.isLayoutDeclaration line = true := by
    intro line explicit detached
    have declared := beq_iff_eq.1 explicit
    exact (Call.isLayoutDeclaration_iff_of_declaredLayout? declared).2 detached
  refine ⟨fun line name => Call.isLayoutDeclaration_iff_of_declaredLayout?, ?_, ?_, ?_⟩
  · intro line mem explicit detached other _ implicit
    have silent := (bindsImplicitly_iff.1 implicit).1 line mem
    rw [decides line explicit detached] at silent
    contradiction
  · rintro ⟨⟨line, mem, explicit⟩, other, otherMem, implicit⟩
    obtain ⟨silent, opensClass, bound⟩ := bindsImplicitly_iff.1 implicit
    have attached : Call.IsAttached line := by
      refine Classical.byContradiction fun detached => ?_
      have decided := decides line explicit detached
      rw [silent line mem] at decided
      contradiction
    exact ⟨⟨line, mem, explicit, attached⟩, silent, ⟨other, otherMem, opensClass⟩, bound⟩
  · rintro ⟨⟨line, mem, explicit, -⟩, silent, ⟨other, otherMem, opensClass⟩, bound⟩
    exact ⟨⟨line, mem, explicit⟩, other, otherMem,
      bindsImplicitly_iff.2 ⟨silent, opensClass, bound⟩⟩

/-- Behind `layout` a quote may follow at once, and then the declaration leaves the class line bound
to the layout of the controller's name. -/
theorem attached_declaration_beside_implicit_layout :
    ¬ ∀ (project : Project) (file : Path) (content : List Char) (named implied : Path),
      (Convention.controllerName? project file).isSome →
      (∃ line ∈ Text.lines content, DeclaresExplicitly project named line) →
      ∀ line ∈ Text.lines content, ¬ BindsImplicitly project file content implied line := by
  intro claim
  refine claim (.conventional (.ofString "/p"))
    (.ofString "/p/app/controllers/hello_controller.rb")
    "class HelloController < ApplicationController\n  layout\"main\"\nend\n".toList
    (.ofString "app/views/layouts/main.html.erb") (.ofString "app/views/layouts/hello.html.erb")
    ?_ ⟨"  layout\"main\"".toList, ?_, ?_⟩
    "class HelloController < ApplicationController".toList ?_ ?_
  · decide +kernel
  · decide +kernel
  · show _ = true
    decide +kernel
  · decide +kernel
  · show _ = true
    decide +kernel

end Finder

end AssetUsage
