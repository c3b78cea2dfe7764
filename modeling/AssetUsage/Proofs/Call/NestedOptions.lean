import AssetUsage.Proofs.Call.SpelledRender

/-!
# Options nested in brackets

The end of the arguments of a render call is found with the depth of its brackets, but options are
searched in the arguments as a whole. So an option with a value in brackets adds the references
among the options in these brackets, and no others (`renderReferences_nested`).
-/

namespace AssetUsage.Call

open AssetUsage.Text (Blanks StopsAt isBlank isQuote isWord)

/-- The part of a text that the arguments of the last render call on the line in front of it
reach. -/
def reachedPart (line text : List Char) : List Char :=
  let front := (renderTexts line).getLast?.getD []
  (callArguments (front ++ text)).drop front.length

/-- A further option of a call: its value starts with a bracket and holds no render word. -/
structure NestedOption where
  separator : List Char
  key : List Char
  keyFront : List Char
  value : List Char
  separates : SeparatesArguments separator
  spells : SpellsKey key keyFront
  bracket : ∃ opening closing rest, BracketPair opening closing ∧ value = opening :: rest
  noRenderWord : ¬ HoldsRenderWord value

namespace NestedOption

variable (option : NestedOption)

/-- The option up to its value. -/
def front : List Char := option.separator ++ option.keyFront

/-- The option behind those of a call. -/
def text : List Char := option.front ++ option.value

/-- In front of the value stand no quotes. -/
theorem isQuote_of_mem_front : ∀ c ∈ option.front, isQuote c = false := by
  refine List.forall_mem_append.2 ⟨fun c mem => ?_, fun c mem => ?_⟩
  · exact (isMark_iff.1 (option.separates.isMark_of_mem c mem)).2.1
  · exact isQuote_of_isKeyChar (option.spells.isKeyChar_of_mem c mem)

/-- What stands in front of the value is passed. -/
theorem passes_front {parenthesized : Bool} {depth : Nat} :
    Passes parenthesized depth option.front :=
  option.separates.passes.append option.spells.passes

/-- In front of the value no word ends. -/
theorem exists_getLast?_front :
    ∃ c, option.front.getLast? = some c ∧ isWord c = false := by
  obtain ⟨lead, marks, whole, -, behindKey⟩ := option.spells.exists_append
  obtain ⟨c, last, outside⟩ := behindKey.exists_getLast?
  exact ⟨c, by simp [front, whole, last], outside⟩

/-- The front of an option holds a render word exactly if its key is one. -/
theorem nextRenderWord?_front_eq_none_iff :
    nextRenderWord? false option.front = none ↔ ¬ IsRenderWord option.key := by
  have marks : ∀ c ∈ option.separator, isWord c = false := fun c mem =>
    (isMark_iff.1 (option.separates.isMark_of_mem c mem)).1
  rw [front, nextRenderWord?_marks_append marks option.separates.ne_nil,
    option.spells.nextRenderWord?_eq_none_iff]

/-- A value starts with a character that belongs to no key and is no quote. -/
theorem stopsAt_value (behind : List Char) :
    StopsAt isKeyChar (option.value ++ behind) ∧ StopsAt isQuote (option.value ++ behind) := by
  obtain ⟨opening, closing, rest, pair, whole⟩ := option.bracket
  rw [whole]
  constructor <;> refine .cons ?_ <;> cases pair <;> decide +kernel

/-- Without a further word behind it, a value leads to no render word. -/
theorem nextRenderWord?_value {behind : List Char} (marks : ∀ c ∈ behind, isMark c = true) :
    nextRenderWord? false (option.value ++ behind) = none := by
  rw [nextRenderWord?_append_marks fun c mem => (isMark_iff.1 (marks c mem)).1,
    nextRenderWord?_eq_none_iff]
  exact option.noRenderWord

/-- In front of the value of an option no reference is found, wherever the whole is cut off. -/
theorem optionReferences_of_prefix {front behind cut : List Char}
    (noQuotes : ∀ c ∈ front, isQuote c = false) (noWord : front.getLast?.any isWord = false)
    (part : cut <+: front ++ (option.value ++ behind)) :
    optionReferences cut = optionReferences (cut.drop front.length) :=
  optionReferences_drop noQuotes noWord (option.stopsAt_value behind).1
    (option.stopsAt_value behind).2 part

end NestedOption

/-- Balanced brackets belong to the arguments that go on in front of them. -/
theorem optionReferences_of_goesBeyond {front value behind : List Char} (beyond : GoesBeyond front)
    (bracketed : Bracketed value) (noQuotes : ∀ c ∈ behind, isQuote c = false) :
    optionReferences ((callArguments (front ++ (value ++ behind))).drop front.length) =
      optionReferences value := by
  obtain ⟨parenthesized, depth, deep, reached⟩ := beyond
  have inBehind := cutArguments_isPrefix parenthesized .code depth behind
  rw [reached, List.drop_left, bracketed.passes deep,
    optionReferences_append_plain fun c mem => noQuotes c (inBehind.subset mem)]

/-- A key that is a render word opens a call of its own, which goes on behind the marks. -/
theorem IsBehindKey.goesBeyond {marks : List Char} (behindKey : IsBehindKey marks) :
    GoesBeyond marks := by
  obtain ⟨blanks, c, rest, whole, blank, either⟩ := behindKey.start
  have visible : isBlank c = false := by rcases either with rfl | rfl <;> decide
  have notBlanks : ¬ Blanks marks := fun all => by
    have here := all c (by simp [whole])
    rw [visible] at here
    contradiction
  have first : ((Text.trimStart marks).head? == some '(') = false := by
    rw [whole, Text.trimStart_append blank, Text.trimStart_of_stopsAt (.cons visible)]
    rcases either with rfl | rfl <;> rfl
  refine ⟨false, 0, nofun, fun text => ?_⟩
  have passes : Passes false 0 marks :=
    passes_of_plain fun c mem => isPlain_of_isKeyChar (behindKey.isKeyChar_of_mem c mem)
  rw [callArguments_append notBlanks, first, passes]

/-- Such a call has no bare argument. -/
theorem IsBehindKey.bareReference?_eq_none {marks behind cut : List Char}
    (behindKey : IsBehindKey marks) (part : cut <+: marks ++ behind) :
    bareReference? cut = none := by
  obtain ⟨blanks, c, rest, whole, blank, either⟩ := behindKey.start
  have opening : ∀ c ∈ blanks, isOpening c = true := fun c mem => by simp [isOpening, blank c mem]
  have outside : isOpening c = false ∧ isQuote c = false := by
    rcases either with rfl | rfl <;> decide +kernel
  rw [whole, List.append_assoc, List.cons_append] at part
  exact Call.bareReference?_eq_none opening (.cons outside.1) (.cons outside.2) part

section Calls

variable {call : SpelledCall} (option : NestedOption)
  (names : ∀ r ∈ call.references, ¬ HoldsRenderWord r.name)
include names

/-- In front of the value of a further option the call is not cut again, if the key is no render
word. -/
theorem renderTexts_of_otherKey (other : ¬ IsRenderWord option.key) :
    renderTexts (call.word ++ (call.front ++ option.front)) = [call.front ++ option.front] := by
  obtain ⟨quote, last, quotes⟩ := call.exists_getLast?_front
  refine renderTexts_of_single call.isRenderWord (call.stopsAt_front option.front) ?_
  exact (nextRenderWord?_append_of_getLast? (isWord_of_isQuote quotes) last).2
    ⟨call.nextRenderWord?_front_eq_none_iff.2 names,
      option.nextRenderWord?_front_eq_none_iff.2 other⟩

/-- Behind the options of a call, a further one with another key adds what its value spells. -/
theorem renderReferences_of_otherKey (other : ¬ IsRenderWord option.key) :
    renderReferences (call.line option.text) = renderReferences (call.line []) ++
      optionReferences ((callArguments (call.front ++ option.front ++
        (option.value ++ call.closing))).drop (call.front ++ option.front).length) := by
  obtain ⟨c, last, noWord⟩ := option.exists_getLast?_front
  have none : nextRenderWord? false (option.front ++ (option.value ++ call.closing)) = none :=
    (nextRenderWord?_append_of_getLast? noWord last).2
      ⟨option.nextRenderWord?_front_eq_none_iff.2 other,
        option.nextRenderWord?_value call.encloses.isMark_of_mem_closing⟩
  have whole : call.line option.text =
      call.word ++ (call.front ++ (option.front ++ (option.value ++ call.closing))) := by
    simp only [SpelledCall.line, NestedOption.text, List.append_assoc]
  have reached := (callArguments_isPrefix (call.front ++
    (option.front ++ (option.value ++ call.closing)))).drop call.front.length
  rw [List.drop_left] at reached
  have outside : option.front.getLast?.any isWord = false := by rw [last]; exact noWord
  rw [whole, SpelledCall.renderReferences_of_none names none, call.argumentReferences_append,
    SpelledCall.renderReferences_line_nil names,
    option.optionReferences_of_prefix option.isQuote_of_mem_front outside reached, List.drop_drop,
    List.length_append, List.append_assoc]

section RenderKey

variable {option}
variable (isRender : IsRenderWord option.key) {lead marks : List Char}
  (spelled : option.keyFront = lead ++ (option.key ++ marks)) (colon : lead = [] ∨ lead = [':'])
  (behindKey : IsBehindKey marks)
include isRender spelled colon behindKey

/-- A key that is a render word cuts the call in two. -/
theorem renderTexts_of_renderKey {text : List Char} (none : nextRenderWord? false text = none) :
    renderTexts (call.word ++ (call.front ++ (option.front ++ text))) =
      [call.front ++ (option.separator ++ lead), marks ++ text] := by
  have noWord : ∀ c ∈ option.separator ++ lead, isWord c = false := by
    refine List.forall_mem_append.2 ⟨fun c mem =>
      (isMark_iff.1 (option.separates.isMark_of_mem c mem)).1, ?_⟩
    rcases colon with rfl | rfl
    · exact List.forall_mem_nil _
    · exact List.forall_mem_singleton.2 (by decide +kernel)
  have nonempty : option.separator ++ lead ≠ [] :=
    List.append_ne_nil_of_left_ne_nil option.separates.ne_nil lead
  have last := List.getLast?_eq_some_getLast nonempty
  have outside := noWord _ (List.getLast_mem nonempty)
  have noneBefore : nextRenderWord? true (call.front ++ (option.separator ++ lead)) = Option.none :=
    (nextRenderWord?_append_marks noWord true call.front).2
      (call.nextRenderWord?_front_eq_none_iff.2 names)
  have noneBehind : nextRenderWord? true (marks ++ text) = Option.none :=
    (nextRenderWord?_marks_append behindKey.isWord_of_mem behindKey.ne_nil true text).2 none
  have stops : StopsAt isWord (marks ++ text) := by
    obtain ⟨c, rest, whole⟩ := List.exists_cons_of_ne_nil behindKey.ne_nil
    rw [whole]
    exact .cons (behindKey.isWord_of_mem c (whole ▸ List.mem_cons_self))
  have whole : call.front ++ (option.front ++ text) =
      call.front ++ (option.separator ++ lead) ++ (option.key ++ (marks ++ text)) := by
    simp only [NestedOption.front, spelled, List.append_assoc]
  exact renderTexts_of_second call.isRenderWord (call.stopsAt_front _) outside
    (by rw [List.getLast?_append, last]; rfl) noneBefore isRender stops noneBehind whole

/-- Behind the options of a call, a further one whose key is a render word adds what its value
spells. -/
theorem renderReferences_of_renderKey :
    renderReferences (call.line option.text) = renderReferences (call.line []) ++
      optionReferences ((callArguments (marks ++ (option.value ++ call.closing))).drop
        marks.length) := by
  have whole : call.line option.text =
      call.word ++ (call.front ++ (option.front ++ (option.value ++ call.closing))) := by
    simp only [SpelledCall.line, NestedOption.text, List.append_assoc]
  have texts := renderTexts_of_renderKey names isRender spelled colon behindKey
    (option.nextRenderWord?_value call.encloses.isMark_of_mem_closing)
  have noQuotes : ∀ c ∈ option.separator ++ lead, isQuote c = false := by
    refine List.forall_mem_append.2 ⟨fun c mem =>
      (isMark_iff.1 (option.separates.isMark_of_mem c mem)).2.1, ?_⟩
    rcases colon with rfl | rfl
    · exact List.forall_mem_nil _
    · exact List.forall_mem_singleton.2 rfl
  have noQuotesBehind : ∀ c ∈ marks, isQuote c = false := fun c mem =>
    isQuote_of_isKeyChar (behindKey.isKeyChar_of_mem c mem)
  obtain ⟨c, last, noWord⟩ := behindKey.exists_getLast?
  have outside : marks.getLast?.any isWord = false := by rw [last]; exact noWord
  have reached := callArguments_isPrefix (marks ++ (option.value ++ call.closing))
  rw [SpelledCall.renderReferences_line_nil names, whole, renderReferences, texts,
    List.flatMap_cons, List.flatMap_singleton,
    SpelledCall.argumentReferences_append_plain noQuotes, argumentReferences,
    argumentReferences, behindKey.bareReference?_eq_none reached, Option.toList_none,
    List.nil_append, option.optionReferences_of_prefix noQuotesBehind outside reached]

end RenderKey

/-- What a further option adds depends on the last render call in front of its value alone. -/
theorem exists_lastText :
    ∃ text, (renderTexts (call.word ++ (call.front ++ option.front))).getLast? = some text ∧
      renderReferences (call.line option.text) = renderReferences (call.line []) ++
        optionReferences ((callArguments (text ++ (option.value ++ call.closing))).drop
          text.length) ∧
      ((∀ r ∈ call.references, '\\' ∉ r.name) → GoesBeyond text) := by
  by_cases isRender : IsRenderWord option.key
  · obtain ⟨lead, marks, spelled, colon, behindKey⟩ := option.spells.exists_append
    have texts :=
      @renderTexts_of_renderKey _ option names isRender _ _ spelled colon behindKey [] rfl
    rw [List.append_nil, List.append_nil] at texts
    exact ⟨marks, by rw [texts]; rfl,
      renderReferences_of_renderKey names isRender spelled colon behindKey,
      fun _ => behindKey.goesBeyond⟩
  · have texts := renderTexts_of_otherKey option names isRender
    exact ⟨call.front ++ option.front, by rw [texts]; rfl,
      renderReferences_of_otherKey option names isRender,
      fun noEscapes => (call.goesBeyond_front noEscapes).append option.passes_front⟩

end Calls

/-- A further option adds the references among the options in its value, as far as the arguments
reach: the call gives the same as without it exactly if there are none. Where the names hold no
backslashes and the value is balanced, the arguments reach all of it. -/
theorem renderReferences_nested (call : SpelledCall) (option : NestedOption)
    (names : ∀ r ∈ call.references, ¬ HoldsRenderWord r.name) :
    let nested := optionReferences
      (reachedPart (call.word ++ (call.front ++ option.front)) (option.value ++ call.closing))
    renderReferences (call.line option.text) = renderReferences (call.line []) ++ nested ∧
      (renderReferences (call.line option.text) = renderReferences (call.line []) ↔ nested = []) ∧
      ((∀ r ∈ call.references, '\\' ∉ r.name) → Bracketed option.value →
        nested = optionReferences option.value) := by
  intro nested
  obtain ⟨text, last, added, beyond⟩ := exists_lastText option names
  have reached : nested = optionReferences
      ((callArguments (text ++ (option.value ++ call.closing))).drop text.length) := by
    simp only [nested, reachedPart, last, Option.getD_some]
  rw [← reached] at added
  refine ⟨added, ?_, fun noEscapes bracketed => ?_⟩
  · rw [added, List.append_right_eq_self]
  · rw [reached]
    exact optionReferences_of_goesBeyond (beyond noEscapes) bracketed fun c mem =>
      (isMark_iff.1 (call.encloses.isMark_of_mem_closing c mem)).2.1

/-- Lists, brackets in quotes and calls in the value of an option add nothing. -/
theorem renderReferences_nested_of_locals :
    renderReferences
        "render :partial => 'row', locals: \x7b :rows => [rows, \"a ]\"], :at => url(0) \x7d".toList =
      [⟨.partialTemplate, "row".toList⟩] := by
  let call := SpelledCall.single ⟨.partialTemplate, "row".toList⟩ (by decide)
  let inside := " :rows => ".toList ++ ('[' :: ("rows, ".toList ++
    ('"' :: ("a ]".toList ++ ['"']) ++ []) ++ [']']) ++ (", :at => url".toList ++
      ('(' :: ("0".toList ++ [] ++ [')']) ++ (" ".toList ++ []))))
  let option : NestedOption :=
    { separator := [] ++ ',' :: " ".toList
      key := "locals".toList
      keyFront := "locals".toList ++ ':' :: " ".toList
      value := '{' :: (inside ++ ['}'])
      separates := ⟨[], " ".toList, .nil, by decide +kernel, rfl⟩
      spells := .colon (by decide +kernel) (by decide +kernel)
      bracket := ⟨'{', '}', _, .curly, rfl⟩
      noRenderWord := by decide +kernel }
  have quoted : Balanced ('"' :: ("a ]".toList ++ ['"']) ++ []) :=
    .quoted rfl (.of_forall (by simp)) .nil
  have balanced : Balanced inside :=
    .plain_append (by decide) (.bracketed .square (.plain_append (by decide) quoted)
      (.plain_append (by decide) (.bracketed .round (.plain_append (by decide) .nil)
        (.plain_append (by decide) .nil))))
  have names : ∀ r ∈ call.references, ¬ HoldsRenderWord r.name := by decide +kernel
  obtain ⟨-, same, reached⟩ := renderReferences_nested call option names
  have none : optionReferences option.value = [] := by decide +kernel
  exact (same.2 ((reached (by decide) ⟨'{', '}', inside, .curly, balanced, rfl⟩).trans none)).trans
    (by decide +kernel)

/-- An option in brackets counts as one of the call. -/
theorem renderReferences_takes_nested_action :
    ¬ ∀ (call : SpelledCall) (option : NestedOption),
      (∀ r ∈ call.references, ¬ HoldsRenderWord r.name) → RenderKey.ofWord? option.key = none →
      Bracketed option.value →
      renderReferences (call.line option.text) = renderReferences (call.line []) := by
  intro claim
  let call := SpelledCall.single ⟨.partialTemplate, "row".toList⟩ (by decide)
  let inside := " :action => ".toList ++ ('\'' :: ("create".toList ++ ['\'']) ++ (" ".toList ++ []))
  let option : NestedOption :=
    { separator := [] ++ ',' :: " ".toList
      key := "locals".toList
      keyFront := ':' :: ("locals".toList ++ (" ".toList ++ '=' :: '>' :: " ".toList))
      value := '{' :: (inside ++ ['}'])
      separates := ⟨[], " ".toList, .nil, by decide +kernel, rfl⟩
      spells := .arrow (by decide +kernel) (by decide +kernel) (by decide +kernel)
      bracket := ⟨'{', '}', _, .curly, rfl⟩
      noRenderWord := by decide +kernel }
  have balanced : Balanced inside :=
    .plain_append (by decide) (.quoted rfl (.of_forall (by simp)) (.plain_append (by decide) .nil))
  have same :
      renderReferences "render :partial => 'row', :locals => \x7b :action => 'create' \x7d".toList =
        renderReferences "render :partial => 'row'".toList :=
    claim call option (by decide +kernel) (by decide +kernel)
      ⟨'{', '}', inside, .curly, balanced, rfl⟩
  exact absurd same (by decide +kernel)

end AssetUsage.Call
