import AssetUsage.Call.Helper
import AssetUsage.Proofs.Text.Places
import AssetUsage.Proofs.Text.Runs

/-!
# Spelled calls

A call is spelled by the name of a helper, with or without a parenthesis, and positional arguments
with commas between them. All arguments up to a literal are read, so the literal is among the
arguments of some call on every line on which the name stands by itself
(`exists_mem_helperCalls_of_spellsCall`). Finding names passes over what it takes, so an earlier
occurrence of the name must not reach into this one: it does not if no end of the name is also its
beginning (`HasNoBorder`).
-/

namespace AssetUsage.Call

open AssetUsage.Text (Blanks StopsAt)

/-- The text spells a positional argument. -/
inductive SpellsArgument : Argument → List Char → Prop where
  | double {value : List Char} (plain : '"' ∉ value) :
    SpellsArgument (.literal value) ('"' :: (value ++ ['"']))
  | single {value : List Char} (plain : '\'' ∉ value) :
    SpellsArgument (.literal value) ('\'' :: (value ++ ['\'']))
  | symbol {first : Char} {others : List Char} (start : (first.isAlpha || first == '_') = true)
    (word : ∀ c ∈ others, Text.isWord c = true) :
    SpellsArgument (.symbol (first :: others)) (':' :: first :: others)

/-- The text spells arguments, each between blanks and with a comma behind it. -/
inductive SpellsArguments : List Argument → List Char → Prop where
  | nil : SpellsArguments [] []
  | cons {argument : Argument} {arguments : List Argument}
    {before spelling behind text : List Char} (blankBefore : Blanks before)
    (spelled : SpellsArgument argument spelling) (blankBehind : Blanks behind)
    (others : SpellsArguments arguments text) :
    SpellsArguments (argument :: arguments) (before ++ (spelling ++ (behind ++ ',' :: text)))

/-- The text may stand between a name and its arguments: blanks, with or without a parenthesis. -/
def OpensArguments (text : List Char) : Prop :=
  Blanks text ∨ ∃ blanks, Blanks blanks ∧ text = blanks ++ ['(']

/-- The text spells a call up to a double-quoted literal. -/
inductive SpellsCall (helper value : List Char) : List Char → Prop where
  | intro {opening earlier blanks : List Char} {arguments : List Argument}
    (opens : OpensArguments opening) (spelled : SpellsArguments arguments earlier)
    (blank : Blanks blanks) (plain : '"' ∉ value) :
    SpellsCall helper value
      (helper ++ (opening ++ (earlier ++ (blanks ++ '"' :: (value ++ ['"'])))))

/-- No end of the text but the whole text is also its beginning. -/
def HasNoBorder (text : List Char) : Prop :=
  ∀ cut < text.length, 0 < cut → ¬ text.drop cut <+: text

instance (text : List Char) : Decidable (HasNoBorder text) :=
  inferInstanceAs (Decidable (∀ cut < text.length, 0 < cut → ¬ text.drop cut <+: text))

/-- What is left behind a comma is no longer than the text. -/
theorem length_skipComma_le (text : List Char) : (skipComma text).length ≤ text.length := by
  have trimmed : (Text.trimStart text).length ≤ text.length := List.length_dropWhile_le _ _
  unfold skipComma
  split
  · next rest found =>
    have inner : (Text.trimStart rest).length ≤ rest.length := List.length_dropWhile_le _ _
    rw [found, List.length_cons] at trimmed
    omega
  · exact trimmed

/-- A symbol takes at least its colon and a letter. -/
theorem length_lt_of_readSymbol? {text name behind : List Char}
    (read : readSymbol? text = some (name, behind)) : behind.length < text.length := by
  unfold readSymbol? at read
  split at read
  · next first others =>
    split at read
    · obtain ⟨-, rfl⟩ := Prod.mk.inj (Option.some.inj read)
      have left : (others.dropWhile Text.isWord).length ≤ others.length :=
        List.length_dropWhile_le _ _
      simp only [List.length_cons]
      omega
    · contradiction
  · contradiction

/-- An argument takes at least one character. -/
theorem length_lt_of_readArgument? {text behind : List Char} {argument : Argument}
    (read : readArgument? text = some (argument, behind)) : behind.length < text.length := by
  have skipped := length_skipComma_le text
  suffices shorter : behind.length < (skipComma text).length by omega
  unfold readArgument? at read
  dsimp only at read
  split at read
  · next value rest quoted =>
    obtain ⟨-, rfl⟩ := Prod.mk.inj (Option.some.inj read)
    exact Text.length_lt_of_readQuoted? quoted
  · split at read
    · next name rest symbol =>
      split at read
      · contradiction
      · obtain ⟨-, rfl⟩ := Prod.mk.inj (Option.some.inj read)
        exact length_lt_of_readSymbol? symbol
    · contradiction

/-- Arguments are read one after the other. -/
theorem readArguments_eq (text : List Char) :
    readArguments text =
      match readArgument? text with
      | none => []
      | some (argument, behind) => argument :: readArguments behind := by
  rw [readArguments]
  cases read : readArgument? text with
  | none => rfl
  | some result =>
    obtain ⟨argument, behind⟩ := result
    exact if_pos (length_lt_of_readArgument? read)

/-- Blanks in front make no difference to the arguments of a text. -/
theorem readArguments_trimStart (text : List Char) :
    readArguments (Text.trimStart text) = readArguments text := by
  have trimmed : Text.trimStart (Text.trimStart text) = Text.trimStart text :=
    Text.trimStart_of_stopsAt (Text.stopsAt_dropWhile text)
  have same : readArgument? (Text.trimStart text) = readArgument? text := by
    rw [readArgument?, readArgument?, skipComma, skipComma, trimmed]
  rw [readArguments_eq, same, ← readArguments_eq]

/-- The text may stand in front of an argument: blanks with at most one comma. -/
def Separates (text : List Char) : Prop :=
  Blanks text ∨ ∃ before behind, Blanks before ∧ Blanks behind ∧ text = before ++ ',' :: behind

/-- Blanks behind a separator belong to it. -/
theorem Separates.append {text blanks : List Char} (separates : Separates text)
    (blank : Blanks blanks) : Separates (text ++ blanks) := by
  rcases separates with blankText | ⟨before, behind, blankBefore, blankBehind, rfl⟩
  · exact .inl (blankText.append blank)
  · exact .inr ⟨before, behind ++ blanks, blankBefore, blankBehind.append blank, by simp⟩

/-- A separator is skipped. -/
theorem skipComma_append {lead text : List Char} (separates : Separates lead)
    (visible : StopsAt Text.isBlank text) (noComma : StopsAt (· == ',') text) :
    skipComma (lead ++ text) = text := by
  rcases separates with blank | ⟨before, behind, blankBefore, blankBehind, rfl⟩
  · rw [skipComma, Text.trimStart_append blank, Text.trimStart_of_stopsAt visible]
    split
    · next rest =>
      have comma := noComma ',' rest rfl
      contradiction
    · rfl
  · have front : Text.trimStart (before ++ ',' :: behind ++ text) = ',' :: (behind ++ text) := by
      rw [List.append_assoc, Text.trimStart_append blankBefore, List.cons_append,
        Text.trimStart_of_stopsAt (.cons (by decide))]
    rw [skipComma, front]
    exact (Text.trimStart_append blankBehind text).trans (Text.trimStart_of_stopsAt visible)

/-- A spelled argument is read behind a separator; neither more of its name nor an arrow may follow
a symbol. -/
theorem readArgument?_of_spells {argument : Argument} {lead spelling behind : List Char}
    (separates : Separates lead) (spelled : SpellsArgument argument spelling)
    (ends : ∀ name, argument = .symbol name →
      StopsAt Text.isWord behind ∧ followedByArrow behind = false) :
    readArgument? (lead ++ (spelling ++ behind)) = some (argument, behind) := by
  have skipped : skipComma (lead ++ (spelling ++ behind)) = spelling ++ behind := by
    apply skipComma_append separates
    · cases spelled <;> exact .cons (by decide)
    · cases spelled <;> exact .cons (by decide)
  have quoted : ∀ quote value, Text.isQuote quote = true → quote ∉ value →
      Text.readQuoted? (quote :: (value ++ [quote]) ++ behind) = some (value, behind) := by
    intro quote value isQuote plain
    have whole : quote :: (value ++ [quote]) ++ behind = quote :: (value ++ quote :: behind) := by
      simp
    rw [whole, Text.readQuoted?, if_pos isQuote]
    exact Text.upTo?_eq_some_iff.2 ⟨rfl, plain⟩
  rw [readArgument?, skipped]
  cases spelled with
  | double plain => rw [quoted '"' _ (by decide) plain]
  | single plain => rw [quoted '\'' _ (by decide) plain]
  | @symbol first others start word =>
    obtain ⟨ends, noArrow⟩ := ends _ rfl
    have unquoted : Text.readQuoted? (':' :: first :: others ++ behind) = none := rfl
    have symbol : readSymbol? (':' :: first :: others ++ behind) =
        some (first :: others, behind) := by
      rw [List.cons_append, List.cons_append, readSymbol?, if_pos start,
        Text.takeWhile_run word ends, Text.dropWhile_run word ends]
    simp only [unquoted, symbol, noArrow, Bool.false_eq_true, ↓reduceIte]

/-- Blanks end a symbol if neither more of its name nor an arrow stands behind them. -/
theorem ends_of_blanks {blanks text : List Char} (blank : Blanks blanks)
    (visible : StopsAt Text.isBlank text) (noWord : StopsAt Text.isWord text)
    (noArrow : "=>".toList.isPrefixOf text = false) :
    StopsAt Text.isWord (blanks ++ text) ∧ followedByArrow (blanks ++ text) = false := by
  refine ⟨Text.stopsAt_isWord_of_blanks blank noWord, ?_⟩
  rw [followedByArrow, Text.trimStart_append blank, Text.trimStart_of_stopsAt visible, noArrow]

/-- Spelled arguments are read one after the other, up to a separator behind the last comma. -/
theorem readArguments_append {arguments : List Argument} {lead earlier : List Char}
    (separates : Separates lead) (spelled : SpellsArguments arguments earlier) (text : List Char) :
    ∃ left, Separates left ∧
      readArguments (lead ++ (earlier ++ text)) = arguments ++ readArguments (left ++ text) := by
  induction spelled generalizing lead with
  | nil => exact ⟨lead, separates, rfl⟩
  | @cons argument arguments before spelling after others blankBefore spelled blankBehind _ ih =>
    have comma : Separates (after ++ [',']) := .inr ⟨after, [], blankBehind, .nil, rfl⟩
    obtain ⟨left, separatesLeft, later⟩ := ih comma
    let behind := after ++ ',' :: (others ++ text)
    have read : readArgument? ((lead ++ before) ++ (spelling ++ behind)) =
        some (argument, behind) :=
      readArgument?_of_spells (separates.append blankBefore) spelled
        fun _ _ => ends_of_blanks blankBehind (.cons (by decide)) (.cons (by decide)) rfl
    refine ⟨left, separatesLeft, ?_⟩
    simp only [List.append_assoc, List.cons_append, List.nil_append] at read later ⊢
    rw [readArguments_eq, read, ← later]

/-- A literal behind spelled arguments is among the arguments that are read. -/
theorem literal_mem_readArguments {arguments : List Argument}
    {lead earlier blanks value : List Char} (separates : Separates lead)
    (spelled : SpellsArguments arguments earlier) (blank : Blanks blanks) (plain : '"' ∉ value)
    (behind : List Char) :
    .literal value ∈
      readArguments (lead ++ (earlier ++ (blanks ++ ('"' :: (value ++ ['"']) ++ behind)))) := by
  obtain ⟨left, separatesLeft, same⟩ := readArguments_append separates spelled
    (blanks ++ ('"' :: (value ++ ['"']) ++ behind))
  have read : readArgument? ((left ++ blanks) ++ ('"' :: (value ++ ['"']) ++ behind)) =
      some (.literal value, behind) := by
    apply readArgument?_of_spells (separatesLeft.append blank) (.double plain)
    intro name same
    contradiction
  rw [same, ← List.append_assoc left, readArguments_eq (left ++ blanks ++ _), read]
  exact List.mem_append_right _ List.mem_cons_self

/-- What opens the arguments is passed. -/
theorem readArguments_enterParenthesis {opening text : List Char} (opens : OpensArguments opening)
    (noParenthesis : ∀ rest, Text.trimStart text ≠ '(' :: rest) :
    readArguments (enterParenthesis (opening ++ text)) = readArguments text := by
  rcases opens with blank | ⟨blanks, blank, rfl⟩
  · rw [enterParenthesis, Text.trimStart_append blank]
    split
    · next rest same => exact absurd same (noParenthesis rest)
    · exact readArguments_trimStart text
  · rw [enterParenthesis, List.append_assoc, Text.trimStart_append blank, List.singleton_append,
      Text.trimStart_of_stopsAt (.cons (by decide))]
    rfl

/-- What opens the arguments ends the name in front of it, and so does an argument behind blanks. -/
theorem head?_of_opensArguments {opening blanks text : List Char} (opens : OpensArguments opening)
    (blank : Blanks blanks) (ends : StopsAt continuesName text) :
    (opening ++ (blanks ++ text)).head?.any continuesName = false := by
  have apart : ∀ range ∈ Text.blankTable,
      ∀ code ∈ List.range' range.first (range.last + 1 - range.first),
      (!continuesName (Char.ofNat code)) = true := by decide +kernel
  have stops : StopsAt continuesName (opening ++ (blanks ++ text)) := by
    rcases opens with blankOpening | ⟨spaces, blankSpaces, rfl⟩
    · exact (ends.append_of_blanks apart blank).append_of_blanks apart blankOpening
    · rw [List.append_assoc]
      exact .append_of_blanks apart (.cons (by decide)) blankSpaces
  cases whole : opening ++ (blanks ++ text) with
  | nil => rfl
  | cons first others => exact stops first others whole

/-- An occurrence of a name without a border that starts earlier ends before the name. -/
theorem endsWithin_of_hasNoBorder {helper : List Char} (noBorder : HasNoBorder helper)
    (front more : List Char) :
    Text.EndsWithin (readHelperCall? helper) front (helper ++ more) := by
  intro before part value behind suffix nonempty read
  have whole : helper ++ behind = part ++ (helper ++ more) := by
    obtain ⟨rest, found, same⟩ := Option.map_eq_some_iff.1 read
    have cut := List.isPrefixOf?_eq_some_iff_append_eq.1 found
    split at same
    · rw [← (Prod.mk.inj same).2]
      exact cut
    · rw [← (Prod.mk.inj same).2]
      exact cut
  have lengths : helper.length + behind.length = part.length + (helper.length + more.length) := by
    simpa using congrArg List.length whole
  have positive : 0 < part.length := List.length_pos_iff.2 nonempty
  have reaches : ¬ part.length < helper.length := by
    intro short
    have front : part <+: helper := by
      refine List.prefix_of_prefix_length_le (List.prefix_append part (helper ++ more)) ?_
        (Nat.le_of_lt short)
      rw [← whole]
      exact List.prefix_append helper behind
    obtain ⟨tail, rfl⟩ := front
    have inner : tail ++ behind = part ++ tail ++ more := by
      rw [List.append_assoc] at whole
      exact List.append_cancel_left whole
    have border : tail <+: part ++ tail := by
      refine List.prefix_of_prefix_length_le (List.prefix_append tail behind) ?_ (by simp)
      rw [inner]
      exact List.prefix_append _ more
    have none := noBorder part.length short positive
    rw [List.drop_left] at none
    exact none border
  rw [List.length_append]
  omega

/-- An argument starts with a quote or a colon. -/
theorem SpellsArgument.exists_cons {argument : Argument} {spelling : List Char}
    (spelled : SpellsArgument argument spelling) :
    ∃ c rest, (c = '"' ∨ c = '\'' ∨ c = ':') ∧ spelling = c :: rest := by
  cases spelled with
  | double plain => exact ⟨'"', _, .inl rfl, rfl⟩
  | single plain => exact ⟨'\'', _, .inr (.inl rfl), rfl⟩
  | symbol start word => exact ⟨':', _, .inr (.inr rfl), rfl⟩

/-- Arguments open with blanks and the first character of an argument. -/
theorem SpellsArguments.exists_blanks {arguments : List Argument} {last : Argument}
    {earlier blanks spelling : List Char} (spelled : SpellsArguments arguments earlier)
    (blank : Blanks blanks) (spelledLast : SpellsArgument last spelling) (behind : List Char) :
    ∃ front c rest, Blanks front ∧ (c = '"' ∨ c = '\'' ∨ c = ':') ∧
      earlier ++ (blanks ++ (spelling ++ behind)) = front ++ c :: rest := by
  cases spelled with
  | nil =>
    obtain ⟨c, rest, opener, rfl⟩ := spelledLast.exists_cons
    exact ⟨blanks, c, rest ++ behind, blank, opener, rfl⟩
  | cons blankBefore spelled blankBehind others =>
    obtain ⟨c, rest, opener, rfl⟩ := spelled.exists_cons
    exact ⟨_, c, _, blankBefore, opener, by simp; rfl⟩

/-- The arguments of a spelled call include its literal, wherever its name stands by itself. -/
theorem exists_mem_helperCalls_of_spellsCall {helper value call before : List Char}
    (nonempty : helper ≠ []) (noBorder : HasNoBorder helper)
    (spelled : SpellsCall helper value call)
    (alone : before.getLast?.any continuesName = false) (behind : List Char) :
    ∃ arguments ∈ helperCalls (before ++ (call ++ behind)) helper, .literal value ∈ arguments := by
  obtain ⟨opens, spelled, blank, plain⟩ := spelled
  next opening earlier blanks arguments =>
  obtain ⟨front, c, rest, blankFront, opener, starts⟩ :=
    spelled.exists_blanks blank (.double plain) behind
  have mem := literal_mem_readArguments (.inl .nil) spelled blank plain behind
  rw [List.nil_append, starts] at mem
  have visible : Text.isBlank c = false := by rcases opener with rfl | rfl | rfl <;> decide
  have noParenthesis : ∀ more, Text.trimStart (front ++ c :: rest) ≠ '(' :: more := by
    intro more same
    rw [Text.trimStart_append blankFront, Text.trimStart_of_stopsAt (.cons visible)] at same
    rw [List.head_eq_of_cons_eq same] at opener
    revert opener
    decide
  have ended := head?_of_opensArguments opens blankFront
    (.cons (by rcases opener with rfl | rfl | rfl <;> decide) : StopsAt continuesName (c :: rest))
  have read : readHelperCall? helper before.getLast? (helper ++ (opening ++ (front ++ c :: rest))) =
      some (some (readArguments (front ++ c :: rest)), opening ++ (front ++ c :: rest)) := by
    rw [readHelperCall?, List.isPrefixOf?_eq_some_iff_append_eq.2 rfl, Option.map_some, alone,
      ended, readArguments_enterParenthesis opens noParenthesis]
    rfl
  have found := Text.mem_findAll_append (by simp [nonempty])
    (endsWithin_of_hasNoBorder noBorder before (opening ++ (front ++ c :: rest))) read
  refine ⟨_, List.mem_filterMap.2 ⟨_, ?_, rfl⟩, mem⟩
  have whole : helper ++ (opening ++ (earlier ++ (blanks ++ '"' :: (value ++ ['"'])))) ++ behind =
      helper ++ (opening ++ (front ++ c :: rest)) := by
    rw [← starts]
    simp
  rw [whole]
  exact found

end AssetUsage.Call
