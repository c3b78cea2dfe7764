import AssetUsage.Proofs.Call.RenderArguments
import AssetUsage.Proofs.Call.RenderOptions
import AssetUsage.Proofs.Call.RenderWords
import Mathlib.Data.List.Infix

/-!
# Spelled render calls

A render call that spells references as options gives these references exactly if none of the names
holds a render word (`renderReferences_spelled`): a line is cut at render words wherever they stand,
in quotes as well, and no name of a reference goes over a cut.
-/

namespace AssetUsage.Call

open AssetUsage.Text (Blanks FitsQuotes StopsAt isBlank isQuote isWord)

/-- What stands in front of the arguments of a call and behind them: blanks, or parentheses. -/
inductive Encloses : List Char → List Char → Prop where
  | bare {before behind : List Char} (nonempty : before ≠ []) (blank : Blanks before)
    (blankBehind : Blanks behind) : Encloses before behind
  | parenthesized {before inside behind : List Char} (blank : Blanks before)
    (blankInside : Blanks inside) (blankBehind : Blanks behind) :
    Encloses (before ++ '(' :: inside) (behind ++ [')'])

/-- A render call that spells references as options. -/
structure SpelledCall where
  word : List Char
  opening : List Char
  references : List RenderReference
  options : List Char
  closing : List Char
  isRenderWord : IsRenderWord word
  encloses : Encloses opening closing
  spells : SpellsReferences references options

namespace SpelledCall

/-- The text of the call behind its word, up to the end of its options. -/
def front (call : SpelledCall) : List Char := call.opening ++ call.options

/-- The call as a line, with more behind its options. -/
def line (call : SpelledCall) (more : List Char) : List Char :=
  call.word ++ (call.front ++ (more ++ call.closing))

/-- The plainest call: one reference with an arrow, between single quotes. -/
def single (reference : RenderReference) (fits : FitsQuotes reference.name) : SpelledCall where
  word := "render".toList
  opening := [' ']
  references := [reference]
  options := ':' :: (reference.key.word.toList ++ ([' '] ++ '=' :: '>' :: [' '])) ++
    '\'' :: (reference.name ++ ['\''])
  closing := []
  isRenderWord := .plain
  encloses := .bare (List.cons_ne_nil _ _) (by decide +kernel) .nil
  spells :=
    have isKey : IsKey reference.key.word.toList := by
      cases reference.key <;> decide +kernel
    .last (.intro (.arrow isKey (by decide +kernel) (by decide +kernel)) rfl fits)

end SpelledCall

/-- No key of a reference is a render word. -/
theorem not_isRenderWord_word (key : RenderKey) : ¬ IsRenderWord key.word.toList := by
  intro render
  have start := render.isPrefix
  cases key <;> exact absurd start (by decide)

/-- A spelled key holds a render word exactly if it is one. -/
theorem SpellsKey.nextRenderWord?_eq_none_iff {key front : List Char}
    (spelled : SpellsKey key front) : nextRenderWord? false front = none ↔ ¬ IsRenderWord key := by
  have isKey := spelled.isKey
  obtain ⟨lead, marks, rfl, colon, behindKey⟩ := spelled.exists_append
  have inside : nextRenderWord? false (key ++ marks) = none ↔ ¬ IsRenderWord key := by
    rw [nextRenderWord?_append_marks behindKey.isWord_of_mem, nextRenderWord?_of_isWord isKey.2]
  rcases colon with rfl | rfl
  · exact inside
  · rw [nextRenderWord?_marks_append (List.forall_mem_singleton.2 (by decide +kernel))
      (List.cons_ne_nil _ _), inside]

/-- A spelled reference holds a render word exactly if its name does. -/
theorem SpellsReference.nextRenderWord?_eq_none_iff {reference : RenderReference}
    {option : List Char} (spelled : SpellsReference reference option) :
    nextRenderWord? false option = none ↔ ¬ HoldsRenderWord reference.name := by
  obtain ⟨key, quotes, name⟩ := spelled
  have outside := isWord_of_isQuote quotes
  have noWord := key.nextRenderWord?_eq_none_iff.2 (not_isRenderWord_word reference.key)
  rw [nextRenderWord?_append_eq_none_iff outside, nextRenderWord?_append_eq_none_iff outside,
    ← Call.nextRenderWord?_eq_none_iff]
  exact (and_iff_right noWord).trans (and_iff_left rfl)

/-- Spelled references hold a render word exactly if one of the names does. -/
theorem SpellsReferences.nextRenderWord?_eq_none_iff {references : List RenderReference}
    {options : List Char} (spelled : SpellsReferences references options) :
    nextRenderWord? false options = none ↔ ∀ r ∈ references, ¬ HoldsRenderWord r.name := by
  induction spelled with
  | last spelled => rw [spelled.nextRenderWord?_eq_none_iff, List.forall_mem_singleton]
  | @cons reference references option separator options spelled separates _ ih =>
    obtain ⟨quote, last, quotes⟩ := spelled.exists_getLast?
    have marks : ∀ c ∈ separator, isWord c = false := fun c mem =>
      (isMark_iff.1 (separates.isMark_of_mem c mem)).1
    rw [nextRenderWord?_append_of_getLast? (isWord_of_isQuote quotes) last,
      spelled.nextRenderWord?_eq_none_iff, nextRenderWord?_marks_append marks separates.ne_nil, ih,
      List.forall_mem_cons]

/-- In front of arguments stand blanks and parentheses. -/
theorem Encloses.isOpening_of_mem {opening closing : List Char}
    (encloses : Encloses opening closing) : ∀ c ∈ opening, isOpening c = true := by
  have blank : ∀ {blanks}, Blanks blanks → ∀ c ∈ blanks, isOpening c = true :=
    fun blank c mem => by simp [isOpening, blank c mem]
  cases encloses with
  | bare _ blanks => exact blank blanks
  | parenthesized blanks blanksInside =>
    exact List.forall_mem_append.2 ⟨blank blanks, List.forall_mem_cons.2
      ⟨rfl, blank blanksInside⟩⟩

/-- Behind arguments stand marks. -/
theorem Encloses.isMark_of_mem_closing {opening closing : List Char}
    (encloses : Encloses opening closing) : ∀ c ∈ closing, isMark c = true := by
  cases encloses with
  | bare _ _ blanks => exact fun c mem => isMark_of_isBlank (blanks c mem)
  | parenthesized _ _ blanks =>
    exact List.forall_mem_append.2 ⟨fun c mem => isMark_of_isBlank (blanks c mem),
      List.forall_mem_singleton.2 (by decide +kernel)⟩

/-- Something opens the arguments. -/
theorem Encloses.ne_nil {opening closing : List Char} (encloses : Encloses opening closing) :
    opening ≠ [] := by
  cases encloses with
  | bare nonempty => exact nonempty
  | parenthesized => simp

section Passing

variable {parenthesized : Bool} {depth : Nat}

/-- Characters of keys neither end arguments nor open quotes or brackets. -/
theorem isPlain_of_isKeyChar {c : Char} (inside : isKeyChar c = true) : isPlain c = true := by
  by_contra special
  have listed : c ∈ ['"', '\'', '(', ')', '[', ']', '{', '}', ';', '#', '%'] := by
    simp [isPlain, isQuote, isBracket] at special ⊢
    tauto
  have others : ['"', '\'', '(', ')', '[', ']', '{', '}', ';', '#', '%'].all (!isKeyChar ·) := by
    decide +kernel
  have noKey := List.all_eq_true.1 others c listed
  rw [inside] at noKey
  contradiction

/-- A spelled key is passed. -/
theorem SpellsKey.passes {key front : List Char} (spelled : SpellsKey key front) :
    Passes parenthesized depth front :=
  passes_of_plain fun c mem => isPlain_of_isKeyChar (spelled.isKeyChar_of_mem c mem)

/-- A reader passes over blanks. -/
theorem passes_of_blanks {blanks : List Char} (blank : Blanks blanks) :
    Passes parenthesized depth blanks :=
  passes_of_plain fun c mem => isPlain_of_isKeyChar (by simp [isKeyChar, blank c mem])

/-- What separates arguments is passed. -/
theorem SeparatesArguments.passes {separator : List Char}
    (separates : SeparatesArguments separator) : Passes parenthesized depth separator := by
  obtain ⟨before, behind, blank, blankBehind, rfl⟩ := separates
  have comma : Passes parenthesized depth [','] :=
    passes_of_plain (List.forall_mem_singleton.2 (by decide))
  exact (passes_of_blanks blank).append (comma.append (passes_of_blanks blankBehind))

/-- A spelled reference whose name holds no backslash is passed. -/
theorem SpellsReference.passes {reference : RenderReference} {option : List Char}
    (spelled : SpellsReference reference option) (noEscape : '\\' ∉ reference.name) :
    Passes parenthesized depth option := by
  obtain ⟨key, quotes, name⟩ := spelled
  next front quote =>
  have quoted : QuotedText quote reference.name := .of_forall fun c mem => by
    refine ⟨?_, fun same => noEscape (same ▸ mem)⟩
    rintro rfl
    have plain := name.2 c mem
    rw [quotes] at plain
    contradiction
  exact key.passes.append (quoted.passes quotes)

/-- Spelled references whose names hold no backslashes are passed. -/
theorem SpellsReferences.passes {references : List RenderReference} {options : List Char}
    (spelled : SpellsReferences references options)
    (noEscapes : ∀ r ∈ references, '\\' ∉ r.name) : Passes parenthesized depth options := by
  induction spelled with
  | last spelled => exact spelled.passes (noEscapes _ List.mem_cons_self)
  | cons spelled separates others ih =>
    obtain ⟨first, later⟩ := List.forall_mem_cons.1 noEscapes
    exact (spelled.passes first).append (separates.passes.append (ih later))

end Passing

/-- In front of text that starts with neither a blank nor a parenthesis, the opening says whether
the call has parentheses, and leads into them. -/
theorem Encloses.exists_cutArguments {opening closing text : List Char}
    (encloses : Encloses opening closing) (stops : StopsAt isOpening text) :
    ∃ parenthesized depth, (parenthesized = true → 0 < depth) ∧
      ((Text.trimStart (opening ++ text)).head? == some '(') = parenthesized ∧
      ∀ rest, cutArguments parenthesized .code 0 (opening ++ rest) =
        opening ++ cutArguments parenthesized .code depth rest := by
  cases encloses with
  | bare _ blank =>
    refine ⟨false, 0, nofun, ?_, passes_of_blanks blank⟩
    rw [Text.trimStart_append blank]
    cases text with
    | nil => rfl
    | cons c rest =>
      have visible : isBlank c = false ∧ c ≠ '(' := by simpa [isOpening] using stops c rest rfl
      rw [Text.trimStart_of_stopsAt (.cons visible.1)]
      simpa using visible.2
  | @parenthesized before inside behind blank blankInside =>
    refine ⟨true, 1, fun _ => Nat.one_pos, ?_, fun rest => ?_⟩
    · rw [List.append_assoc, Text.trimStart_append blank, List.cons_append,
        Text.trimStart_of_stopsAt (.cons (by decide))]
      rfl
    · have opens : ∀ text, cutArguments true .code 0 ('(' :: text) =
          '(' :: cutArguments true .code 1 text := fun _ => rfl
      rw [List.append_assoc, passes_of_blanks blank, List.cons_append, opens,
        passes_of_blanks blankInside, List.append_assoc, List.cons_append]

namespace SpelledCall

variable (call : SpelledCall)

/-- The front of a call ends with a quote. -/
theorem exists_getLast?_front :
    ∃ quote, call.front.getLast? = some quote ∧ isQuote quote = true := by
  obtain ⟨quote, last, quotes⟩ := call.spells.exists_getLast?
  exact ⟨quote, by simp [front, last], quotes⟩

/-- The word of a call ends in front of its arguments. -/
theorem stopsAt_front (tail : List Char) : StopsAt isWord (call.front ++ tail) := by
  obtain ⟨c, rest, same⟩ := List.exists_cons_of_ne_nil call.encloses.ne_nil
  have first : c ∈ call.opening := same ▸ List.mem_cons_self
  rw [front, same]
  exact .cons (isMark_iff.1 (isMark_of_isOpening (call.encloses.isOpening_of_mem c first))).1

/-- A call holds a second render word exactly if one of its names does. -/
theorem nextRenderWord?_front_eq_none_iff :
    nextRenderWord? true call.front = none ↔ ∀ r ∈ call.references, ¬ HoldsRenderWord r.name := by
  have marks : ∀ c ∈ call.opening, isWord c = false := fun c mem =>
    (isMark_iff.1 (isMark_of_isOpening (call.encloses.isOpening_of_mem c mem))).1
  rw [front, nextRenderWord?_marks_append marks call.encloses.ne_nil,
    call.spells.nextRenderWord?_eq_none_iff]

/-- The references are read in order, and then those of what follows. -/
theorem optionReferences_front_append (behind : List Char) :
    optionReferences (call.front ++ behind) = call.references ++ optionReferences behind := by
  have marks : ∀ c ∈ call.opening, isMark c = true := fun c mem =>
    isMark_of_isOpening (call.encloses.isOpening_of_mem c mem)
  rw [front, List.append_assoc, optionReferences_of_marks _ marks,
    optionReferences_append call.spells]

/-- The options of a call start with neither a blank nor a parenthesis. -/
theorem exists_options_eq_cons :
    ∃ c rest, call.options = c :: rest ∧ isOpening c = false ∧ (c = ':' ∨ isWord c = true) := by
  obtain ⟨c, rest, start, either⟩ := call.spells.exists_cons
  refine ⟨c, rest, start, Bool.eq_false_iff.2 fun inside => ?_, either⟩
  have mark := isMark_iff.1 (isMark_of_isOpening inside)
  rcases either with colon | word
  · exact mark.2.2 colon
  · rw [mark.1] at word
    contradiction

/-- A call that spells options has no bare argument, wherever it is cut off. -/
theorem bareReference?_eq_none {cut behind : List Char} (part : cut <+: call.front ++ behind) :
    bareReference? cut = none := by
  obtain ⟨c, rest, start, noOpening, either⟩ := call.exists_options_eq_cons
  rw [front, List.append_assoc] at part
  have noQuote : isQuote c = false := by
    refine Bool.eq_false_iff.2 fun quote => ?_
    rcases either with rfl | word
    · contradiction
    · rw [isWord_of_isQuote quote] at word
      contradiction
  rw [start] at part
  exact Call.bareReference?_eq_none call.encloses.isOpening_of_mem (.cons noOpening) (.cons noQuote)
    part

/-- The front of a call holds a visible character. -/
theorem not_blanks_front : ¬ Blanks call.front := by
  intro blank
  obtain ⟨quote, last, quotes⟩ := call.exists_getLast?_front
  have mark := isMark_iff.1 (isMark_of_isBlank (blank quote (List.mem_of_getLast? last)))
  rw [quotes] at mark
  exact absurd mark.2.1 (by decide)

/-- Where no name holds a backslash, the arguments go on behind the front of a call. -/
theorem goesBeyond_front (noEscapes : ∀ r ∈ call.references, '\\' ∉ r.name) :
    GoesBeyond call.front := by
  obtain ⟨c, rest, start, noOpening, -⟩ := call.exists_options_eq_cons
  have stops : StopsAt isOpening call.options := start ▸ .cons noOpening
  obtain ⟨parenthesized, depth, deep, decided, enters⟩ := call.encloses.exists_cutArguments stops
  refine ⟨parenthesized, depth, deep, fun tail => ?_⟩
  have passes : Passes parenthesized depth call.options := call.spells.passes noEscapes
  rw [callArguments_append call.not_blanks_front, front, decided, List.append_assoc, enters,
    passes, List.append_assoc]

/-- Behind the front of a call, what follows adds the references of its own options, as far as the
arguments reach. -/
theorem argumentReferences_append (tail : List Char) :
    argumentReferences (callArguments (call.front ++ tail)) =
      argumentReferences (callArguments call.front) ++
        optionReferences ((callArguments (call.front ++ tail)).drop call.front.length) := by
  obtain ⟨quote, last, quotes⟩ := call.exists_getLast?_front
  have noPercent : call.front.getLast? ≠ some '%' := by
    rintro percent
    obtain rfl : quote = '%' := Option.some.inj (last.symm.trans percent)
    contradiction
  have noBare : ∀ tail, bareReference? (callArguments (call.front ++ tail)) = none := fun tail =>
    call.bareReference?_eq_none (callArguments_isPrefix _)
  have noBareFront : bareReference? (callArguments call.front) = none :=
    call.bareReference?_eq_none ((callArguments_isPrefix _).trans (List.prefix_append _ []))
  have arguments := callArguments_append call.not_blanks_front
  have argumentsFront := arguments []
  rw [List.append_nil] at argumentsFront
  rw [argumentReferences, argumentReferences, noBare, noBareFront, Option.toList_none,
    List.nil_append, List.nil_append]
  rcases cutArguments_append noPercent _ .code 0 with within | ⟨standing, depth, behind⟩
  · have same : callArguments (call.front ++ tail) = callArguments call.front := by
      rw [arguments, argumentsFront, within]
    have short := (callArguments_isPrefix call.front).length_le
    rw [same, List.drop_eq_nil_iff.2 short]
    exact (List.append_nil _).symm
  · have whole := behind []
    rw [List.append_nil, cutArguments, List.append_nil] at whole
    have own := call.optionReferences_front_append []
    rw [List.append_nil] at own
    rw [arguments, argumentsFront, behind, whole, List.drop_left,
      call.optionReferences_front_append, own, List.append_assoc]
    rfl

variable {call} in
/-- Text without quotes adds no reference behind the front of a call. -/
theorem argumentReferences_append_plain {tail : List Char}
    (noQuotes : ∀ c ∈ tail, isQuote c = false) :
    argumentReferences (callArguments (call.front ++ tail)) =
      argumentReferences (callArguments call.front) := by
  have reached := (callArguments_isPrefix (call.front ++ tail)).drop call.front.length
  rw [List.drop_left] at reached
  rw [call.argumentReferences_append,
    optionReferences_eq_nil fun c mem => noQuotes c (reached.subset mem), List.append_nil]

end SpelledCall

section Single

variable {call : SpelledCall} (names : ∀ r ∈ call.references, ¬ HoldsRenderWord r.name)
include names

/-- A call without further render words gives the references of its arguments. -/
theorem SpelledCall.renderReferences_of_none {tail : List Char}
    (none : nextRenderWord? false tail = none) :
    renderReferences (call.word ++ (call.front ++ tail)) =
      argumentReferences (callArguments (call.front ++ tail)) := by
  have stops := call.stopsAt_front tail
  obtain ⟨quote, last, quotes⟩ := call.exists_getLast?_front
  have single : nextRenderWord? true (call.front ++ tail) = Option.none :=
    (nextRenderWord?_append_of_getLast? (isWord_of_isQuote quotes) last).2
      ⟨call.nextRenderWord?_front_eq_none_iff.2 names, none⟩
  rw [renderReferences, renderTexts_of_single call.isRenderWord stops single,
    List.flatMap_singleton]

/-- A call with nothing behind its options gives the references of its front. -/
theorem SpelledCall.renderReferences_line_nil :
    renderReferences (call.line []) = argumentReferences (callArguments call.front) := by
  have marks := call.encloses.isMark_of_mem_closing
  have none : nextRenderWord? false call.closing = none :=
    nextRenderWord?_of_marks (fun c mem => (isMark_iff.1 (marks c mem)).1) false
  rw [line, List.nil_append, SpelledCall.renderReferences_of_none names none,
    argumentReferences_append_plain fun c mem => (isMark_iff.1 (marks c mem)).2.1]

end Single

/-- The name of a reference stands in the arguments, between quotes. -/
theorem exists_of_mem_argumentReferences {arguments : List Char} {reference : RenderReference}
    (mem : reference ∈ argumentReferences arguments) :
    ∃ front quote closing behind, isQuote quote = true ∧ isQuote closing = true ∧
      arguments = front ++ quote :: (reference.name ++ closing :: behind) := by
  rcases List.mem_append.1 mem with bare | option
  · obtain ⟨front, quote, closing, behind, -, opens, closes, -, whole⟩ :=
      exists_of_bareReference? (Option.mem_toList.1 bare)
    exact ⟨front, quote, closing, behind, opens, closes, whole⟩
  · obtain ⟨⟨key, name⟩, found, isReference⟩ := List.mem_filterMap.1 option
    obtain ⟨form, -, rfl⟩ := Option.map_eq_some_iff.1 isReference
    obtain ⟨before, rest, behind, rfl, read⟩ := Text.exists_of_mem_findAll found
    obtain ⟨front, quote, closing, -, -, opens, closes, -, rfl⟩ := readOption?_eq_some_iff.1 read
    exact ⟨before ++ front, quote, closing, behind, opens, closes, by simp⟩

/-- No name of a reference holds a render word: the line would have been cut there. -/
theorem not_holdsRenderWord_of_mem_renderReferences {line : List Char}
    {reference : RenderReference} (mem : reference ∈ renderReferences line) :
    ¬ HoldsRenderWord reference.name := by
  obtain ⟨text, isText, inText⟩ := List.mem_flatMap.1 mem
  have none := nextRenderWord?_of_mem_renderTexts isText
  obtain ⟨front, quote, closing, behind, opens, closes, arguments⟩ :=
    exists_of_mem_argumentReferences inText
  obtain ⟨rest, whole⟩ := callArguments_isPrefix text
  rw [← whole, arguments, List.append_assoc, List.cons_append, List.append_assoc,
    List.cons_append, nextRenderWord?_append_eq_none_iff (isWord_of_isQuote opens),
    nextRenderWord?_append_eq_none_iff (isWord_of_isQuote closes)] at none
  exact nextRenderWord?_eq_none_iff.1 none.2.1

/-- A call that spells references with names without backslashes gives exactly these, in order, if
and only if none of the names holds a render word. -/
theorem renderReferences_spelled (call : SpelledCall)
    (noEscapes : ∀ r ∈ call.references, '\\' ∉ r.name) :
    renderReferences (call.line []) = call.references ↔
      ∀ r ∈ call.references, ¬ HoldsRenderWord r.name := by
  constructor
  · intro same r mem
    exact not_holdsRenderWord_of_mem_renderReferences (same ▸ mem)
  · intro names
    have whole := (call.goesBeyond_front noEscapes).callArguments_eq
    have noBare : bareReference? call.front = none :=
      call.bareReference?_eq_none (List.prefix_append call.front [])
    have own := call.optionReferences_front_append []
    rw [List.append_nil] at own
    rw [SpelledCall.renderReferences_line_nil names, whole, argumentReferences, noBare, own]
    exact List.append_nil _

/-- What looks like the end of a call, or like its brackets, may stand in a name. -/
theorem renderReferences_spelled_of_marks :
    renderReferences "render_to_string( :template => \"a;b#c)/%>\" , layout:'prerender')".toList =
      [⟨.template, "a;b#c)/%>".toList⟩, ⟨.layout, "prerender".toList⟩] := by
  let call : SpelledCall :=
    { word := "render_".toList ++ "to_string".toList
      opening := "".toList ++ '(' :: " ".toList
      references := [⟨.template, "a;b#c)/%>".toList⟩, ⟨.layout, "prerender".toList⟩]
      options := ':' :: ("template".toList ++ (" ".toList ++ '=' :: '>' :: " ".toList)) ++
        '"' :: ("a;b#c)/%>".toList ++ ['"']) ++ ((" ".toList ++ ',' :: " ".toList) ++
          ("layout".toList ++ ':' :: [] ++ '\'' :: ("prerender".toList ++ ['\''])))
      closing := "".toList ++ [')']
      isRenderWord := .variant (by decide) (List.all_eq_true.1 (by decide +kernel))
      encloses := .parenthesized (by decide) (by decide +kernel) (by decide)
      spells := .cons
        (.intro (.arrow (by decide +kernel) (by decide +kernel) (by decide +kernel)) rfl
          (by decide))
        ⟨_, _, by decide +kernel, by decide +kernel, rfl⟩
        (.last (.intro (.colon (by decide +kernel) (by decide)) rfl (by decide))) }
  have noEscapes : ∀ r ∈ call.references, '\\' ∉ r.name := by decide
  have names : ∀ r ∈ call.references, ¬ HoldsRenderWord r.name := by decide +kernel
  exact (renderReferences_spelled call noEscapes).2 names

/-- A name that is a render word cuts the call in two, and no reference is left. -/
theorem renderReferences_misses_quoted_renderWord :
    ¬ ∀ call : SpelledCall, (∀ r ∈ call.references, '\\' ∉ r.name) →
      renderReferences (call.line []) = call.references := by
  intro claim
  have all : renderReferences "render :partial => 'render'".toList =
      [⟨.partialTemplate, "render".toList⟩] :=
    claim (.single ⟨.partialTemplate, "render".toList⟩ (by decide)) (by decide)
  have none : renderReferences "render :partial => 'render'".toList = [] := by decide +kernel
  rw [none] at all
  contradiction

end AssetUsage.Call
