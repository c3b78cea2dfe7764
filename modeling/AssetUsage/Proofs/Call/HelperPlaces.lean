import AssetUsage.Proofs.Call.ContinuedLiterals
import AssetUsage.Proofs.Call.RenderOptions

/-!
# Places of helper calls

A helper is called wherever its name stands by itself on a line (`StandsAlone`). Finding names
passes over what it takes, but inside a name a character of the name stands in front of every place,
so none where the name stands by itself is missed (`argumentTexts_eq`). A list of arguments is read
up to its end (`readArguments_of_spellsArgumentList`): a closing parenthesis, the end of the line,
or the key of an option behind a comma. So the calls of a line are known (`helperCalls_exact`).
-/

namespace AssetUsage.Call

open AssetUsage.Text (Blanks StopsAt isBlank isQuote isWord)

/-- The name of a helper stands at the place of the line, and no character next to it goes on with
it. -/
structure StandsAlone (line helper : List Char) (place : Nat) : Prop where
  here : helper <+: line.drop place
  noneBefore : (line.take place).getLast?.any continuesName = false
  noneBehind : (line.drop (place + helper.length)).head?.any continuesName = false

instance (line helper : List Char) (place : Nat) : Decidable (StandsAlone line helper place) :=
  decidable_of_iff (helper <+: line.drop place ∧
      (line.take place).getLast?.any continuesName = false ∧
      (line.drop (place + helper.length)).head?.any continuesName = false)
    ⟨fun h => ⟨h.1, h.2.1, h.2.2⟩, fun h => ⟨h.here, h.noneBefore, h.noneBehind⟩⟩

/-- The places of a line at which the name of a helper stands by itself, from left to right. -/
def callPlaces (line helper : List Char) : List Nat :=
  (List.range line.length).filter fun place => StandsAlone line helper place

/-- The text that the arguments of a call at the place are read from. -/
def argumentTextAt (line helper : List Char) (place : Nat) : List Char :=
  enterParenthesis (line.drop (place + helper.length))

/-- The places are those at which the name stands by itself. -/
theorem mem_callPlaces_iff {line helper : List Char} (nonempty : helper ≠ []) {place : Nat} :
    place ∈ callPlaces line helper ↔ StandsAlone line helper place := by
  rw [callPlaces, List.mem_filter, decide_eq_true_iff, List.mem_range]
  refine and_iff_right_of_imp fun alone => ?_
  have fits := alone.here.length_le
  have positive := List.length_pos_iff.2 nonempty
  rw [List.length_drop] at fits
  omega

/-- The places go from left to right. -/
theorem pairwise_callPlaces (line helper : List Char) :
    (callPlaces line helper).Pairwise (· < ·) :=
  List.pairwise_lt_range.filter _

/-- No name stands by itself inside of a name. -/
theorem not_standsAlone_inside {helper front behind : List Char} {place : Nat}
    (word : ∀ c ∈ helper, continuesName c = true) (after : front.length < place)
    (inside : place < front.length + helper.length) :
    ¬ StandsAlone (front ++ (helper ++ behind)) helper place := by
  intro alone
  obtain ⟨depth, rfl⟩ := Nat.exists_eq_add_of_lt after
  have taken : (front ++ (helper ++ behind)).take (front.length + depth + 1) =
      front ++ helper.take (depth + 1) := by
    rw [Nat.add_assoc, List.take_length_add_append, List.take_append_of_le_length (by omega)]
  have nonempty : helper.take (depth + 1) ≠ [] := by
    rw [Ne, List.take_eq_nil_iff]
    rintro (zero | rfl)
    · omega
    · simp at inside
      omega
  have before := alone.noneBefore
  rw [taken, List.getLast?_append_of_ne_nil _ nonempty, List.getLast?_eq_getLast_of_ne_nil nonempty,
    Option.any_some, word _ (List.mem_of_mem_take (List.getLast_mem nonempty))] at before
  contradiction

/-- A name that stands by itself behind a front starts the text there. -/
theorem StandsAlone.isPrefix {helper front text : List Char}
    (alone : StandsAlone (front ++ text) helper front.length) : helper <+: text := by
  have here := alone.here
  rwa [List.drop_left] at here

/-- Behind a front the name stands by itself if nothing continues it on either side. -/
theorem standsAlone_append_iff {helper front behind : List Char} :
    StandsAlone (front ++ (helper ++ behind)) helper front.length ↔
      front.getLast?.any continuesName = false ∧ behind.head?.any continuesName = false := by
  constructor
  · intro alone
    have noneBefore := alone.noneBefore
    have noneBehind := alone.noneBehind
    rw [List.take_left] at noneBefore
    rw [List.drop_length_add_append, List.drop_left] at noneBehind
    exact ⟨noneBefore, noneBehind⟩
  · rintro ⟨noneBefore, noneBehind⟩
    refine ⟨?_, ?_, ?_⟩
    · rw [List.drop_left]
      exact List.prefix_append helper behind
    · rw [List.take_left]
      exact noneBefore
    · rw [List.drop_length_add_append, List.drop_left]
      exact noneBehind

/-- The text that arguments are read from is entered behind the name. -/
theorem argumentTextAt_append (helper front behind : List Char) :
    argumentTextAt (front ++ (helper ++ behind)) helper front.length = enterParenthesis behind := by
  rw [argumentTextAt, List.drop_length_add_append, List.drop_left]

/-- The texts that the arguments of the calls at the places from `start` on are read from. -/
def argumentTextsFrom (line helper : List Char) (start count : Nat) : List (List Char) :=
  ((List.range' start count).filter fun place => StandsAlone line helper place).map
    (argumentTextAt line helper)

/-- A name that stands by itself is the first call. -/
theorem argumentTextsFrom_of_standsAlone {line helper : List Char} {start : Nat}
    (alone : StandsAlone line helper start) (count : Nat) :
    argumentTextsFrom line helper start (count + 1) =
      argumentTextAt line helper start :: argumentTextsFrom line helper (start + 1) count := by
  rw [argumentTextsFrom, List.range'_succ, List.filter_cons_of_pos (by simpa using alone),
    List.map_cons, argumentTextsFrom]

/-- A place at which no name stands by itself is passed. -/
theorem argumentTextsFrom_of_not {line helper : List Char} {start : Nat}
    (none : ¬ StandsAlone line helper start) (count : Nat) :
    argumentTextsFrom line helper start (count + 1) =
      argumentTextsFrom line helper (start + 1) count := by
  rw [argumentTextsFrom, List.range'_succ, List.filter_cons_of_neg (by simpa using none),
    argumentTextsFrom]

section Finding

variable {helper : List Char} (word : ∀ c ∈ helper, continuesName c = true)
include word

/-- Behind a front of the line the places at which the name stands by itself are found, if it does
so at none that is passed over. -/
theorem findAllFrom_readArgumentText?_eq {passed : Nat} {front text : List Char}
    (passes : ∀ place, front.length ≤ place → place < front.length + passed →
      ¬ StandsAlone (front ++ text) helper place) :
    (Text.findAllFrom (readArgumentText? helper) passed front.getLast? text).filterMap id =
      argumentTextsFrom (front ++ text) helper front.length text.length := by
  induction text generalizing front passed with
  | nil => rfl
  | cons c rest ih =>
    have whole : front ++ c :: rest = (front ++ [c]) ++ rest := by simp
    have last : (front ++ [c]).getLast? = some c := List.getLast?_concat
    have count : (front ++ [c]).length = front.length + 1 := List.length_append
    have next : ∀ {left : Nat}, (∀ place, front.length + 1 ≤ place →
          place < front.length + 1 + left → ¬ StandsAlone (front ++ c :: rest) helper place) →
        (Text.findAllFrom (readArgumentText? helper) left (some c) rest).filterMap id =
          argumentTextsFrom (front ++ c :: rest) helper (front.length + 1) rest.length := by
      intro left none
      have later := @ih left (front ++ [c])
      rw [last, count, ← whole] at later
      exact later none
    rw [List.length_cons]
    cases passed with
    | succ left =>
      have here := passes front.length le_rfl (by omega)
      rw [Text.findAllFrom, argumentTextsFrom_of_not here]
      exact next fun place after inside => passes place (by omega) (by omega)
    | zero =>
      rw [Text.findAllFrom, readArgumentText?]
      cases found : helper.isPrefixOf? (c :: rest) with
      | none =>
        have here : ¬ StandsAlone (front ++ c :: rest) helper front.length := by
          intro alone
          obtain ⟨behind, same⟩ := alone.isPrefix
          rw [List.isPrefixOf?_eq_some_iff_append_eq.2 same] at found
          contradiction
        rw [argumentTextsFrom_of_not here]
        exact next fun place after inside => absurd inside (Nat.not_lt_of_le after)
      | some behind =>
        have cut := List.isPrefixOf?_eq_some_iff_append_eq.1 found
        have lengths : helper.length + behind.length = rest.length + 1 := by
          simpa using congrArg List.length cut
        have later := @next (rest.length - behind.length) fun place after inside => by
          rw [← cut]
          exact not_standsAlone_inside word after (by omega)
        have alone := @standsAlone_append_iff helper front behind
        have entered := argumentTextAt_append helper front behind
        rw [cut] at alone entered
        by_cases continued : front.getLast?.any continuesName || behind.head?.any continuesName
        · have here : ¬ StandsAlone (front ++ c :: rest) helper front.length := by
            rw [alone, ← Bool.or_eq_false_iff, continued]
            decide
          rw [Option.map_some, if_pos continued, argumentTextsFrom_of_not here]
          exact later
        · have here : StandsAlone (front ++ c :: rest) helper front.length :=
            alone.2 (Bool.or_eq_false_iff.1 (Bool.eq_false_iff.2 continued))
          rw [Option.map_some, if_neg continued, argumentTextsFrom_of_standsAlone here, entered]
          exact congrArg (enterParenthesis behind :: ·) later

/-- The texts that arguments are read from are those behind the places. -/
theorem argumentTexts_eq (line : List Char) :
    argumentTexts line helper = (callPlaces line helper).map (argumentTextAt line helper) := by
  have whole := @findAllFrom_readArgumentText?_eq helper word 0 [] line
    fun place _ beyond => absurd beyond (Nat.not_lt_zero place)
  rw [List.nil_append, List.length_nil, argumentTextsFrom, ← List.range_eq_range'] at whole
  exact whole

end Finding

/-- The text spells a list of arguments with commas between them, and blanks anywhere around. -/
inductive SpellsArgumentList : List Argument → List Char → Prop where
  | empty {blanks : List Char} (blank : Blanks blanks) : SpellsArgumentList [] blanks
  | intro {arguments : List Argument} {last : Argument} {earlier before spelling behind : List Char}
    (others : SpellsArguments arguments earlier) (blankBefore : Blanks before)
    (spelled : SpellsArgument last spelling) (blankBehind : Blanks behind) :
    SpellsArgumentList (arguments ++ [last]) (earlier ++ (before ++ (spelling ++ behind)))

/-- The text may follow a list of arguments: nothing, a closing parenthesis, or the key of an option
behind a comma. -/
inductive EndsArgumentList : List Char → Prop where
  | line : EndsArgumentList []
  | parenthesis (rest : List Char) : EndsArgumentList (')' :: rest)
  | option {blanks key front : List Char} (blank : Blanks blanks) (spelled : SpellsKey key front)
    (rest : List Char) : EndsArgumentList (',' :: (blanks ++ (front ++ rest)))

/-- A word character starts no argument but a symbol behind a colon. -/
theorem startsNoArgument_of_isWord {c : Char} (word : isWord c = true) :
    isBlank c = false ∧ c ≠ ',' ∧ isQuote c = false ∧ c ≠ ':' := by
  have noMark : isMark c = false := by simp [isMark, word]
  refine ⟨Bool.eq_false_iff.2 fun blank => ?_, ?_, Bool.eq_false_iff.2 fun quote => ?_, ?_⟩
  · rw [isMark_of_isBlank blank] at noMark
    contradiction
  · rintro rfl
    revert noMark
    decide +kernel
  · rw [isWord_of_isQuote quote] at word
    contradiction
  · rintro rfl
    revert word
    decide +kernel

/-- No argument is read from the key of an option. -/
theorem SpellsKey.readArgument?_eq_none {lead key front : List Char} (separates : Separates lead)
    (spelled : SpellsKey key front) (rest : List Char) :
    readArgument? (lead ++ (front ++ rest)) = none := by
  obtain ⟨nonempty, inside⟩ := spelled.isKey
  obtain ⟨first, others, rfl⟩ := List.exists_cons_of_ne_nil nonempty
  obtain ⟨word, insideOthers⟩ := List.forall_mem_cons.1 inside
  cases spelled with
  | @arrow blanks behind isKey blank blankBehind =>
    let arrow := blanks ++ '=' :: '>' :: (behind ++ rest)
    have whole : ':' :: (first :: others ++ (blanks ++ '=' :: '>' :: behind)) ++ rest =
        ':' :: first :: (others ++ arrow) := by simp [arrow]
    have skipped : skipComma (lead ++ ':' :: first :: (others ++ arrow)) =
        ':' :: first :: (others ++ arrow) :=
      skipComma_append separates (.cons (by decide)) (.cons (by decide))
    have stops : StopsAt isWord arrow :=
      Text.stopsAt_isWord_of_blanks blank (.cons (by decide))
    have followed : followedByArrow arrow = true := by
      rw [followedByArrow, Text.trimStart_append blank,
        Text.trimStart_of_stopsAt (.cons (by decide))]
      rfl
    have unquoted : Text.readQuoted? (':' :: first :: (others ++ arrow)) = none := rfl
    rw [whole, readArgument?, skipped]
    simp only [unquoted, readSymbol?, Text.takeWhile_run insideOthers stops,
      Text.dropWhile_run insideOthers stops]
    by_cases start : first.isAlpha || first == '_'
    · simp only [if_pos start, followed, ↓reduceIte]
    · simp only [if_neg start]
  | @colon behind isKey blankBehind =>
    rw [List.cons_append, List.cons_append]
    exact Call.readArgument?_eq_none separates (startsNoArgument_of_isWord word)

namespace EndsArgumentList

variable {ending : List Char} (ends : EndsArgumentList ending)
include ends

/-- No argument is read behind the end of a list. -/
theorem readArgument?_eq_none {blanks : List Char} (blank : Blanks blanks) :
    readArgument? (blanks ++ ending) = none := by
  cases ends with
  | line =>
    have skipped : skipComma (blanks ++ []) = [] := skipComma_append (.inl blank) .nil .nil
    rw [readArgument?, skipped]
    rfl
  | parenthesis rest => exact Call.readArgument?_eq_none (.inl blank) (by decide)
  | @option blanksBehind key front blankBehind spelled rest =>
    have separates : Separates (blanks ++ ',' :: blanksBehind) :=
      .inr ⟨blanks, blanksBehind, blank, blankBehind, rfl⟩
    have none := spelled.readArgument?_eq_none separates rest
    rwa [List.append_assoc, List.cons_append] at none

/-- The end of a list starts neither with a blank nor with a word, and no arrow stands there. -/
theorem ends_symbol {blanks : List Char} (blank : Blanks blanks) :
    StopsAt isWord (blanks ++ ending) ∧ followedByArrow (blanks ++ ending) = false := by
  cases ends with
  | line => exact ends_of_blanks blank .nil .nil rfl
  | parenthesis rest => exact ends_of_blanks blank (.cons (by decide)) (.cons (by decide)) rfl
  | option => exact ends_of_blanks blank (.cons (by decide)) (.cons (by decide)) rfl

/-- No parenthesis opens at the end of a list. -/
theorem trimStart_ne {blanks : List Char} (blank : Blanks blanks) (rest : List Char) :
    Text.trimStart (blanks ++ ending) ≠ '(' :: rest := by
  rw [Text.trimStart_append blank]
  cases ends with
  | line => exact nofun
  | parenthesis more =>
    rw [Text.trimStart_of_stopsAt (.cons (by decide))]
    exact nofun
  | option =>
    rw [Text.trimStart_of_stopsAt (.cons (by decide))]
    exact nofun

end EndsArgumentList

/-- A spelled list of arguments is read up to its end. -/
theorem readArguments_of_spellsArgumentList {arguments : List Argument} {text ending : List Char}
    (spelled : SpellsArgumentList arguments text) (ends : EndsArgumentList ending) :
    readArguments (text ++ ending) = arguments := by
  cases spelled with
  | empty blank => exact readArguments_of_none (ends.readArgument?_eq_none blank)
  | @intro arguments last earlier before spelling behind others blankBefore spelled blankBehind =>
    obtain ⟨left, separates, same⟩ := readArguments_append (.inl .nil) others
      (before ++ (spelling ++ (behind ++ ending)))
    have read : readArgument? ((left ++ before) ++ (spelling ++ (behind ++ ending))) =
        some (last, behind ++ ending) :=
      readArgument?_of_spells (separates.append blankBefore) spelled fun _ _ =>
        ends.ends_symbol blankBehind
    have none := readArguments_of_none (ends.readArgument?_eq_none blankBehind)
    simp only [List.nil_append, List.append_assoc] at same read ⊢
    rw [same, readArguments_of_read read, none]

/-- A spelled list of arguments does not open with a parenthesis. -/
theorem trimStart_ne_of_spellsArgumentList {arguments : List Argument} {text ending : List Char}
    (spelled : SpellsArgumentList arguments text) (ends : EndsArgumentList ending)
    (rest : List Char) : Text.trimStart (text ++ ending) ≠ '(' :: rest := by
  cases spelled with
  | empty blank => exact ends.trimStart_ne blank rest
  | @intro arguments last earlier before spelling behind others blankBefore spelled blankBehind =>
    obtain ⟨front, c, more, blank, opener, starts⟩ :=
      others.exists_blanks blankBefore spelled (behind ++ ending)
    have visible : isBlank c = false := by rcases opener with rfl | rfl | rfl <;> decide
    have noParenthesis : c ≠ '(' := by rcases opener with rfl | rfl | rfl <;> decide
    simp only [List.append_assoc] at starts ⊢
    rw [starts, Text.trimStart_append blank, Text.trimStart_of_stopsAt (.cons visible)]
    exact fun same => noParenthesis (List.head_eq_of_cons_eq same)

/-- The calls of a helper on a line are the places at which its name stands by itself, from left to
right, none missed and none twice, and each has exactly the arguments of the list that is spelled
behind the name. -/
theorem helperCalls_exact {helper : List Char} (nonempty : helper ≠ [])
    (word : ∀ c ∈ helper, continuesName c = true) (line : List Char) :
    (callPlaces line helper).Pairwise (· < ·) ∧
      (∀ place, place ∈ callPlaces line helper ↔ StandsAlone line helper place) ∧
      helperCalls line helper =
        (callPlaces line helper).map (fun place =>
          readArguments (argumentTextAt line helper place)) ∧
      ∀ place opening arguments text ending, OpensArguments opening →
        SpellsArgumentList arguments text → EndsArgumentList ending →
        line.drop (place + helper.length) = opening ++ (text ++ ending) →
        readArguments (argumentTextAt line helper place) = arguments := by
  refine ⟨pairwise_callPlaces line helper, fun _ => mem_callPlaces_iff nonempty, ?_, ?_⟩
  · rw [helperCalls_eq_map, argumentTexts_eq word, List.map_map]
    rfl
  · intro place opening arguments text ending opens spelled ends same
    have entered := readArguments_enterParenthesis opens
      (trimStart_ne_of_spellsArgumentList spelled ends)
    rw [argumentTextAt, same, entered]
    exact readArguments_of_spellsArgumentList spelled ends

/-- Two calls are found beside a longer name, one up to its parenthesis and one up to its option. -/
theorem helperCalls_exact_of_two :
    helperCalls "tag( 'a.png', :b ) + my_tag 'c.png' + tag \"d.png\", size: 1".toList "tag".toList =
      [[.literal "a.png".toList, .symbol "b".toList], [.literal "d.png".toList]] := by
  let line := "tag( 'a.png', :b ) + my_tag 'c.png' + tag \"d.png\", size: 1".toList
  have word : ∀ c ∈ "tag".toList, continuesName c = true :=
    List.all_eq_true.1 (by decide +kernel)
  have blank : Blanks [' '] := List.all_eq_true.1 (by decide +kernel)
  obtain ⟨-, -, calls, lists⟩ := helperCalls_exact (by decide) word line
  have places : callPlaces line "tag".toList = [0, 38] := by decide +kernel
  have first := lists 0 "(".toList [.literal "a.png".toList, .symbol "b".toList]
    " 'a.png', :b ".toList ") + my_tag 'c.png' + tag \"d.png\", size: 1".toList
    (.inr ⟨[], .nil, rfl⟩)
    (.intro (.cons blank (.single (by decide)) .nil .nil) blank
      (.symbol (by decide) (List.all_eq_true.1 (by decide))) blank)
    (.parenthesis _) (by decide +kernel)
  have second := lists 38 " ".toList [.literal "d.png".toList] "\"d.png\"".toList
    ", size: 1".toList (.inl blank) (.intro .nil .nil (.double (by decide)) .nil)
    (.option blank (.colon (by decide +kernel : IsKey "size".toList) .nil) " 1".toList)
    (by decide +kernel)
  rw [calls, places]
  simp only [List.map_cons, List.map_nil, first, second]

end AssetUsage.Call
