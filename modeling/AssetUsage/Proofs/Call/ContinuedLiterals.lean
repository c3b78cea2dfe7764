import AssetUsage.Proofs.Call.Arguments

/-!
# Literals that are continued

A literal in front of an arrow is the key of an option, and one in front of an operator or of a
method is a part of an expression. Reading arguments looks at what follows a symbol, but not at
what follows a literal: a literal that it reaches is taken for an argument, continued or not, and is
the last one if it is continued (`readArguments_continued`).
-/

namespace AssetUsage.Call

open AssetUsage.Text (Blanks StopsAt isBlank isQuote isWord)

/-- The text behind a name that stands by itself, from the first argument on. -/
def readArgumentText? (helper : List Char) : Text.Reader (Option (List Char)) :=
  fun before text =>
    (helper.isPrefixOf? text).map fun behind =>
      if before.any continuesName || behind.head?.any continuesName then (none, behind)
      else (some (enterParenthesis behind), behind)

/-- The texts that the arguments of the calls of `helper` on a line are read from. -/
def argumentTexts (line helper : List Char) : List (List Char) :=
  (Text.findAll (readArgumentText? helper) line).filterMap id

/-- Each call has the arguments that are read from its text. -/
theorem helperCalls_eq_map (line helper : List Char) :
    helperCalls line helper = (argumentTexts line helper).map readArguments := by
  have same : ∀ before text, readHelperCall? helper before text =
      (readArgumentText? helper before text).map fun found =>
        (found.1.map readArguments, found.2) := by
    intro before text
    rw [readHelperCall?, readArgumentText?, Option.map_map]
    refine congrArg (fun read => (helper.isPrefixOf? text).map read) (funext fun behind => ?_)
    rw [Function.comp_apply]
    split <;> rfl
  rw [helperCalls, argumentTexts, Text.findAll, Text.findAll, Text.findAllFrom_map same,
    List.filterMap_map, List.map_filterMap]
  rfl

/-- The arguments are read from the front of the text, and the last text is left. -/
inductive ReadsUpTo : List Char → List Argument → List Char → Prop where
  | start (text : List Char) : ReadsUpTo text [] text
  | next {text behind left : List Char} {argument : Argument} {arguments : List Argument}
    (read : readArgument? text = some (argument, behind))
    (others : ReadsUpTo behind arguments left) : ReadsUpTo text (argument :: arguments) left

/-- Behind an argument reading goes on. -/
theorem readArguments_of_read {text behind : List Char} {argument : Argument}
    (read : readArgument? text = some (argument, behind)) :
    readArguments text = argument :: readArguments behind := by
  rw [readArguments_eq text, read]

/-- Where no argument is read there are none. -/
theorem readArguments_of_none {text : List Char} (none : readArgument? text = none) :
    readArguments text = [] := by
  rw [readArguments_eq text, none]

/-- What was read up to a place comes in front of what is read from there on. -/
theorem ReadsUpTo.readArguments_eq {text left : List Char} {arguments : List Argument}
    (reads : ReadsUpTo text arguments left) :
    readArguments text = arguments ++ readArguments left := by
  induction reads with
  | start => rfl
  | next read others ih => rw [readArguments_of_read read, ih, List.cons_append]

/-- What was read up to a place is all exactly if nothing is read there. -/
theorem ReadsUpTo.readArguments_eq_iff {text left : List Char} {arguments : List Argument}
    (reads : ReadsUpTo text arguments left) :
    readArguments text = arguments ↔ readArgument? left = none := by
  rw [reads.readArguments_eq, List.append_right_eq_self]
  constructor
  · intro none
    cases read : readArgument? left with
    | none => rfl
    | some result =>
      rw [readArguments_of_read read] at none
      contradiction
  · exact readArguments_of_none

/-- The text goes on with the literal in front of it: an arrow makes that one the key of an option,
an operator or a method makes it a part of an expression. -/
inductive IsContinued : List Char → Prop where
  | arrow {blanks rest : List Char} (blank : Blanks blanks) :
    IsContinued (blanks ++ '=' :: '>' :: rest)
  | sum {blanks rest : List Char} (blank : Blanks blanks) : IsContinued (blanks ++ '+' :: rest)
  | method {blanks rest : List Char} {c : Char} (blank : Blanks blanks) (name : isWord c = true) :
    IsContinued (blanks ++ '.' :: c :: rest)

/-- No argument starts with another visible character than a comma, a quote and a colon. -/
theorem readArgument?_eq_none {lead rest : List Char} {c : Char} (separates : Separates lead)
    (other : isBlank c = false ∧ c ≠ ',' ∧ isQuote c = false ∧ c ≠ ':') :
    readArgument? (lead ++ c :: rest) = none := by
  obtain ⟨visible, noComma, noQuote, noColon⟩ := other
  have skipped : skipComma (lead ++ c :: rest) = c :: rest :=
    skipComma_append separates (.cons visible) (.cons (by simpa using noComma))
  have unquoted : Text.readQuoted? (c :: rest) = none := by
    rw [Text.readQuoted?, if_neg (by simp [noQuote])]
  have noSymbol : readSymbol? (c :: rest) = none := by
    unfold readSymbol?
    split
    · next same => exact absurd (List.head_eq_of_cons_eq same) noColon
    · rfl
  rw [readArgument?, skipped]
  simp only [unquoted, noSymbol]

/-- No argument starts where a literal goes on. -/
theorem IsContinued.readArgument?_eq_none {text : List Char} (continued : IsContinued text) :
    readArgument? text = none := by
  cases continued with
  | arrow blank => exact Call.readArgument?_eq_none (.inl blank) (by decide)
  | sum blank => exact Call.readArgument?_eq_none (.inl blank) (by decide)
  | method blank => exact Call.readArgument?_eq_none (.inl blank) (by decide)

/-- A literal is read behind a separator, whatever follows. -/
theorem readArgument?_literal {lead value : List Char} {quote : Char} (separates : Separates lead)
    (quotes : isQuote quote = true) (plain : quote ∉ value) (behind : List Char) :
    readArgument? (lead ++ quote :: (value ++ quote :: behind)) =
      some (.literal value, behind) := by
  have spelled : SpellsArgument (.literal value) (quote :: (value ++ [quote])) := by
    rcases Text.eq_or_eq_of_isQuote quotes with rfl | rfl
    · exact .double plain
    · exact .single plain
  have read := @readArgument?_of_spells _ _ _ behind separates spelled nofun
  rwa [List.cons_append, List.append_assoc, List.singleton_append] at read

/-- On every line, a literal that is continued is the last argument of its call if reading reaches
it, and it is no argument if reading ends before it: what was read up to a place is all exactly if
nothing is read there. So nothing behind such a literal is an argument in either case. -/
theorem readArguments_continued (line helper : List Char) :
    helperCalls line helper = (argumentTexts line helper).map readArguments ∧
    ∀ text ∈ argumentTexts line helper, ∀ arguments left, ReadsUpTo text arguments left →
      (readArguments text = arguments ↔ readArgument? left = none) ∧
      ∀ lead quote value behind, Separates lead → isQuote quote = true → quote ∉ value →
        IsContinued behind → left = lead ++ quote :: (value ++ quote :: behind) →
        readArguments text = arguments ++ [.literal value] := by
  refine ⟨helperCalls_eq_map line helper, fun text _ arguments left reads =>
    ⟨reads.readArguments_eq_iff, ?_⟩⟩
  rintro lead quote value behind separates quotes plain continued rfl
  have read := readArgument?_literal separates quotes plain behind
  rw [reads.readArguments_eq, readArguments_of_read read,
    readArguments_of_none continued.readArgument?_eq_none]

/-- The literal is taken behind other arguments as well, and all that follows it is left out. -/
theorem readArguments_continued_of_method :
    helperCalls "image_tag('a.png', :b, \"logo.png\" .html_safe, 'c.png')".toList
      "image_tag".toList = [[.literal "a.png".toList, .symbol "b".toList,
        .literal "logo.png".toList]] := by
  let line := "image_tag('a.png', :b, \"logo.png\" .html_safe, 'c.png')".toList
  let text := "'a.png', :b, \"logo.png\" .html_safe, 'c.png')".toList
  have texts : argumentTexts line "image_tag".toList = [text] := by decide +kernel
  let left := ", ".toList ++ '"' :: ("logo.png".toList ++ '"' ::
    (" ".toList ++ '.' :: 'h' :: "tml_safe, 'c.png')".toList))
  have first : readArgument? text =
      some (.literal "a.png".toList, ", :b, \"logo.png\" .html_safe, 'c.png')".toList) := by
    decide +kernel
  have second : readArgument? ", :b, \"logo.png\" .html_safe, 'c.png')".toList =
      some (.symbol "b".toList, left) := by decide +kernel
  have reads : ReadsUpTo text [.literal "a.png".toList, .symbol "b".toList] left :=
    .next first (.next second (.start left))
  have separates : Separates ", ".toList := .inr ⟨[], " ".toList, .nil, by decide +kernel, rfl⟩
  obtain ⟨calls, arguments⟩ := readArguments_continued line "image_tag".toList
  have last := (arguments text (texts ▸ List.mem_cons_self) _ _ reads).2 _ _ _ _ separates
    (by decide) (by decide) (.method (by decide +kernel) (by decide +kernel)) rfl
  rw [calls, texts, List.map_singleton, last]
  rfl

/-- The key of an option is taken for an argument. -/
theorem readArguments_takes_literalKey :
    ¬ ∀ line helper, ∀ text ∈ argumentTexts line helper, ∀ arguments lead quote value behind,
      ReadsUpTo text arguments (lead ++ quote :: (value ++ quote :: behind)) → Separates lead →
      isQuote quote = true → quote ∉ value → IsContinued behind →
      readArguments text = arguments := by
  intro claim
  let line := "stylesheet_link_tag \"main\" => \"print\"".toList
  let text := "\"main\" => \"print\"".toList
  have texts : argumentTexts line "stylesheet_link_tag".toList = [text] := by decide +kernel
  have none := claim line "stylesheet_link_tag".toList text (texts ▸ List.mem_cons_self) [] [] '"'
    "main".toList (" ".toList ++ '=' :: '>' :: " \"print\"".toList) (.start _) (.inl .nil)
    (by decide) (by decide) (.arrow (by decide +kernel))
  have taken : readArguments text = [.literal "main".toList] := by decide +kernel
  rw [taken] at none
  contradiction

end AssetUsage.Call
