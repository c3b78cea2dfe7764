import AssetUsage.Call.Render
import AssetUsage.Proofs.Text.Places
import AssetUsage.Proofs.Text.Runs

/-!
# Options of render calls

An option is a key, spelled with an arrow or with a colon, and a quoted value
(`readOption?_eq_some_iff`). Whether one starts at a place is decided by the characters up to the
next quote: only those of a key may stand there (`readOption?_eq_none`). So the options of a text
that spells references are these references, whatever follows (`optionReferences_append`).
-/

namespace AssetUsage.Call

open AssetUsage.Text (Blanks FitsQuotes StopsAt isBlank isQuote isWord)

/-- The text is a word, and so can be the key of an option. -/
def IsKey (key : List Char) : Prop := key ≠ [] ∧ ∀ c ∈ key, isWord c = true

instance (key : List Char) : Decidable (IsKey key) :=
  decidable_of_iff (key ≠ [] ∧ key.all isWord = true) (and_congr_right' List.all_eq_true)

/-- The text spells a key up to the value of its option. -/
inductive SpellsKey (key : List Char) : List Char → Prop where
  | arrow {blanks behind : List Char} (isKey : IsKey key) (blank : Blanks blanks)
    (blankBehind : Blanks behind) :
    SpellsKey key (':' :: (key ++ (blanks ++ '=' :: '>' :: behind)))
  | colon {behind : List Char} (isKey : IsKey key) (blankBehind : Blanks behind) :
    SpellsKey key (key ++ ':' :: behind)

/-- The text spells a reference as an option, with quotes of one kind around the name. -/
inductive SpellsReference (reference : RenderReference) : List Char → Prop where
  | intro {front : List Char} {quote : Char}
    (key : SpellsKey reference.key.word.toList front) (quotes : isQuote quote = true)
    (name : FitsQuotes reference.name) :
    SpellsReference reference (front ++ quote :: (reference.name ++ [quote]))

/-- The text may stand between two arguments: a comma between blanks. -/
def SeparatesArguments (text : List Char) : Prop :=
  ∃ before behind, Blanks before ∧ Blanks behind ∧ text = before ++ ',' :: behind

/-- The text spells references as options with separators between them, at least one. -/
inductive SpellsReferences : List RenderReference → List Char → Prop where
  | last {reference : RenderReference} {option : List Char}
    (spelled : SpellsReference reference option) : SpellsReferences [reference] option
  | cons {reference : RenderReference} {references : List RenderReference}
    {option separator options : List Char} (spelled : SpellsReference reference option)
    (separates : SeparatesArguments separator) (others : SpellsReferences references options) :
    SpellsReferences (reference :: references) (option ++ (separator ++ options))

/-- The character can stand between the start of an option and its value. -/
def isKeyChar (c : Char) : Bool := isWord c || isBlank c || c == ':' || c == '=' || c == '>'

/-- A key is spelled with nothing but characters of keys. -/
theorem SpellsKey.isKeyChar_of_mem {key front : List Char} (spelled : SpellsKey key front) :
    ∀ c ∈ front, isKeyChar c = true := by
  have word : ∀ c, isWord c = true → isKeyChar c = true := fun c inside => by
    simp [isKeyChar, inside]
  have blank : ∀ c, isBlank c = true → isKeyChar c = true := fun c inside => by
    simp [isKeyChar, inside]
  have marks : isKeyChar ':' = true ∧ isKeyChar '=' = true ∧ isKeyChar '>' = true := by
    simp [isKeyChar]
  obtain ⟨colon, equals, greater⟩ := marks
  cases spelled with
  | arrow isKey blanks blanksBehind =>
    refine List.forall_mem_cons.2 ⟨colon, List.forall_mem_append.2 ⟨?_, ?_⟩⟩
    · exact fun c mem => word c (isKey.2 c mem)
    · refine List.forall_mem_append.2 ⟨fun c mem => blank c (blanks c mem), ?_⟩
      exact List.forall_mem_cons.2 ⟨equals, List.forall_mem_cons.2 ⟨greater, fun c mem =>
        blank c (blanksBehind c mem)⟩⟩
  | colon isKey blanksBehind =>
    refine List.forall_mem_append.2 ⟨fun c mem => word c (isKey.2 c mem), ?_⟩
    exact List.forall_mem_cons.2 ⟨colon, fun c mem => blank c (blanksBehind c mem)⟩

/-- What is spelled as a key is a key. -/
theorem SpellsKey.isKey {key front : List Char} (spelled : SpellsKey key front) : IsKey key := by
  cases spelled with
  | arrow isKey => exact isKey
  | colon isKey => exact isKey

/-- Quotes do not belong to keys. -/
theorem isKeyChar_of_isQuote {c : Char} (quote : isQuote c = true) : isKeyChar c = false := by
  rcases Text.eq_or_eq_of_isQuote quote with rfl | rfl <;> decide +kernel

/-- What belongs to keys is no quote. -/
theorem isQuote_of_isKeyChar {c : Char} (inside : isKeyChar c = true) : isQuote c = false := by
  refine Bool.eq_false_iff.2 fun quote => ?_
  rw [isKeyChar_of_isQuote quote] at inside
  contradiction

/-- Quotes do not belong to words. -/
theorem isWord_of_isQuote {c : Char} (quote : isQuote c = true) : isWord c = false := by
  rcases Text.eq_or_eq_of_isQuote quote with rfl | rfl <;> decide +kernel

/-- A spelled key starts with a colon or a word character. -/
theorem SpellsKey.exists_cons {key front : List Char} (spelled : SpellsKey key front) :
    ∃ c rest, front = c :: rest ∧ (c = ':' ∨ isWord c = true) := by
  cases spelled with
  | arrow => exact ⟨':', _, rfl, .inl rfl⟩
  | colon isKey =>
    obtain ⟨nonempty, inside⟩ := isKey
    obtain ⟨first, others, rfl⟩ := List.exists_cons_of_ne_nil nonempty
    exact ⟨first, _, rfl, .inr (inside first List.mem_cons_self)⟩

/-- The character is a mark or a blank: it belongs to no word and is neither a quote nor a colon. -/
def isMark (c : Char) : Bool := !isWord c && (!isQuote c && c != ':')

/-- A mark is neither a word character, a quote, nor a colon. -/
theorem isMark_iff {c : Char} :
    isMark c = true ↔ isWord c = false ∧ isQuote c = false ∧ c ≠ ':' := by
  simp [isMark]

/-- Blanks are marks. -/
theorem isMark_of_isBlank {c : Char} (blank : isBlank c = true) : isMark c = true :=
  Text.of_isBlank isMark (by decide +kernel) blank

/-- Between two arguments stand marks only. -/
theorem SeparatesArguments.isMark_of_mem {separator : List Char}
    (separates : SeparatesArguments separator) : ∀ c ∈ separator, isMark c = true := by
  obtain ⟨before, behind, blank, blankBehind, rfl⟩ := separates
  refine List.forall_mem_append.2 ⟨fun c mem => isMark_of_isBlank (blank c mem), ?_⟩
  exact List.forall_mem_cons.2 ⟨by decide +kernel, fun c mem =>
    isMark_of_isBlank (blankBehind c mem)⟩

/-- Something stands between two arguments. -/
theorem SeparatesArguments.ne_nil {separator : List Char}
    (separates : SeparatesArguments separator) : separator ≠ [] := by
  obtain ⟨before, behind, -, -, rfl⟩ := separates
  simp

/-- What stands behind the word of a key: marks and blanks, first a colon or an equals sign. -/
structure IsBehindKey (marks : List Char) : Prop where
  isKeyChar_of_mem : ∀ c ∈ marks, isKeyChar c = true
  isWord_of_mem : ∀ c ∈ marks, isWord c = false
  start : ∃ blanks c rest, marks = blanks ++ c :: rest ∧ Blanks blanks ∧ (c = ':' ∨ c = '=')

/-- Something stands behind the word of a key. -/
theorem IsBehindKey.ne_nil {marks : List Char} (behindKey : IsBehindKey marks) : marks ≠ [] := by
  obtain ⟨blanks, c, rest, rfl, -⟩ := behindKey.start
  simp

/-- Behind the word of a key no word ends. -/
theorem IsBehindKey.exists_getLast? {marks : List Char} (behindKey : IsBehindKey marks) :
    ∃ c, marks.getLast? = some c ∧ isWord c = false := by
  have last := List.getLast?_eq_some_getLast behindKey.ne_nil
  exact ⟨_, last, behindKey.isWord_of_mem _ (List.getLast_mem behindKey.ne_nil)⟩

/-- A spelled key is its word between a colon or nothing and marks. -/
theorem SpellsKey.exists_append {key front : List Char} (spelled : SpellsKey key front) :
    ∃ lead marks, front = lead ++ (key ++ marks) ∧ (lead = [] ∨ lead = [':']) ∧
      IsBehindKey marks := by
  have inside := spelled.isKeyChar_of_mem
  have blank : ∀ {blanks}, Blanks blanks → ∀ c ∈ blanks, isWord c = false :=
    fun blank c mem => (isMark_iff.1 (isMark_of_isBlank (blank c mem))).1
  cases spelled with
  | @arrow blanks behind isKey blankBefore blankBehind =>
    refine ⟨[':'], blanks ++ '=' :: '>' :: behind, rfl, .inr rfl, ?_, ?_, ?_⟩
    · exact fun c mem => inside c (List.mem_cons_of_mem _ (List.mem_append_right _ mem))
    · exact List.forall_mem_append.2 ⟨blank blankBefore, List.forall_mem_cons.2 ⟨by decide +kernel,
        List.forall_mem_cons.2 ⟨by decide +kernel, blank blankBehind⟩⟩⟩
    · exact ⟨blanks, '=', '>' :: behind, rfl, blankBefore, .inr rfl⟩
  | @colon behind isKey blankBehind =>
    refine ⟨[], ':' :: behind, rfl, .inl rfl, ?_, ?_, ?_⟩
    · exact fun c mem => inside c (List.mem_append_right _ mem)
    · exact List.forall_mem_cons.2 ⟨by decide +kernel, blank blankBehind⟩
    · exact ⟨[], ':', behind, rfl, .nil, .inl rfl⟩

/-- The keys that are read, with the text behind the arrow or the colon. -/
theorem readOptionKey?_eq_some_iff {before : Option Char} {text key behind : List Char} :
    readOptionKey? before text = some (key, behind) ↔
      IsKey key ∧ ((∃ blanks, Blanks blanks ∧
          text = ':' :: (key ++ (blanks ++ '=' :: '>' :: behind))) ∨
        before.any isWord = false ∧ text = key ++ ':' :: behind) := by
  constructor
  · intro read
    unfold readOptionKey? at read
    split at read
    · next rest =>
      split at read
      · next first others more taken left =>
        obtain ⟨rfl, rfl⟩ := Prod.mk.inj (Option.some.inj read)
        refine ⟨⟨List.cons_ne_nil _ _, ?_⟩,
          .inl ⟨_, Text.blanks_takeWhile (rest.dropWhile isWord), ?_⟩⟩
        · intro c mem
          rw [← taken] at mem
          exact List.mem_takeWhile_imp mem
        · rw [← taken, ← left, Text.takeWhile_append_trimStart, List.takeWhile_append_dropWhile]
      · contradiction
    · next other =>
      split at read
      · contradiction
      · next outside =>
        split at read
        · next first others more taken left =>
          obtain ⟨rfl, rfl⟩ := Prod.mk.inj (Option.some.inj read)
          refine ⟨⟨List.cons_ne_nil _ _, ?_⟩, .inr ⟨by simpa using outside, ?_⟩⟩
          · intro c mem
            rw [← taken] at mem
            exact List.mem_takeWhile_imp mem
          · rw [← taken, ← left, List.takeWhile_append_dropWhile]
        · contradiction
  · rintro ⟨⟨nonempty, inside⟩, ⟨blanks, blank, rfl⟩ | ⟨outside, rfl⟩⟩
    · have stops : StopsAt isWord (blanks ++ '=' :: '>' :: behind) :=
        Text.stopsAt_isWord_of_blanks blank (.cons (by decide +kernel))
      have left : Text.trimStart (blanks ++ '=' :: '>' :: behind) = '=' :: '>' :: behind := by
        rw [Text.trimStart_append blank, Text.trimStart_of_stopsAt (.cons (by decide))]
      obtain ⟨first, others, rfl⟩ := List.exists_cons_of_ne_nil nonempty
      simp only [readOptionKey?, Text.takeWhile_run inside stops,
        Text.dropWhile_run inside stops, left]
    · have stops : StopsAt isWord (':' :: behind) := .cons (by decide +kernel)
      obtain ⟨first, others, rfl⟩ := List.exists_cons_of_ne_nil nonempty
      have other : first ≠ ':' := by
        rintro rfl
        exact absurd (inside ':' List.mem_cons_self) (by decide +kernel)
      unfold readOptionKey?
      split
      · next rest same => exact absurd (List.head_eq_of_cons_eq same) other
      · simp only [outside, Bool.false_eq_true, ↓reduceIte, Text.takeWhile_run inside stops,
          Text.dropWhile_run inside stops]

/-- The options that are read: a key, which a colon or no word stands in front of, and a value
between quotes of any kind. -/
theorem readOption?_eq_some_iff {before : Option Char} {text key value behind : List Char} :
    readOption? before text = some ((key, value), behind) ↔
      ∃ front quote closing, SpellsKey key front ∧
        (front.head? = some ':' ∨ before.any isWord = false) ∧ isQuote quote = true ∧
        isQuote closing = true ∧ FitsQuotes value ∧
        text = front ++ quote :: (value ++ closing :: behind) := by
  constructor
  · intro read
    obtain ⟨⟨found, rest⟩, readKey, read⟩ := Option.bind_eq_some_iff.1 read
    obtain ⟨⟨inside, more⟩, readValue, same⟩ := Option.bind_eq_some_iff.1 read
    obtain ⟨pair, rfl⟩ := Prod.mk.inj (Option.some.inj same)
    obtain ⟨rfl, rfl⟩ := Prod.mk.inj pair
    obtain ⟨quote, closing, opens, closes, fits, trimmed⟩ :=
      Text.readBetweenQuotes?_eq_some_iff.1 readValue
    have blank := Text.blanks_takeWhile rest
    have whole := Text.takeWhile_append_trimStart rest
    rw [trimmed] at whole
    obtain ⟨isKey, ⟨blanks, blankKey, rfl⟩ | ⟨outside, rfl⟩⟩ := readOptionKey?_eq_some_iff.1 readKey
    · refine ⟨_, quote, closing, .arrow isKey blankKey blank, .inl rfl, opens, closes, fits, ?_⟩
      simp only [List.cons_append, List.append_assoc, whole]
    · refine ⟨_, quote, closing, .colon isKey blank, .inr outside, opens, closes, fits, ?_⟩
      simp only [List.cons_append, List.append_assoc, whole]
  · rintro ⟨front, quote, closing, spelled, start, opens, closes, fits, rfl⟩
    have visible : StopsAt isBlank (quote :: (value ++ closing :: behind)) := by
      rcases Text.eq_or_eq_of_isQuote opens with rfl | rfl <;> exact .cons (by decide)
    have readValue : ∀ {blanks}, Blanks blanks → Text.readBetweenQuotes?
        (Text.trimStart (blanks ++ quote :: (value ++ closing :: behind))) =
          some (value, behind) := by
      intro blanks blank
      rw [Text.trimStart_append blank, Text.trimStart_of_stopsAt visible]
      exact Text.readBetweenQuotes?_eq_some_iff.2 ⟨quote, closing, opens, closes, fits, rfl⟩
    refine Option.bind_eq_some_iff.2 ?_
    cases spelled with
    | @arrow blanks blanksBehind isKey blank blankBehind =>
      refine ⟨(key, blanksBehind ++ quote :: (value ++ closing :: behind)),
        readOptionKey?_eq_some_iff.2 ⟨isKey, .inl ⟨blanks, blank, by simp⟩⟩, ?_⟩
      exact Option.bind_eq_some_iff.2 ⟨_, readValue blankBehind, rfl⟩
    | @colon blanksBehind isKey blankBehind =>
      have outside : before.any isWord = false := by
        refine start.resolve_left fun colon => ?_
        obtain ⟨first, others, rfl⟩ := List.exists_cons_of_ne_nil isKey.1
        have inside := isKey.2 first List.mem_cons_self
        rw [Option.some.inj colon] at inside
        exact absurd inside (by decide +kernel)
      refine ⟨(key, blanksBehind ++ quote :: (value ++ closing :: behind)),
        readOptionKey?_eq_some_iff.2 ⟨isKey, .inr ⟨outside, by simp⟩⟩, ?_⟩
      exact Option.bind_eq_some_iff.2 ⟨_, readValue blankBehind, rfl⟩

/-- No option starts where another character than those of keys comes before the next quote. -/
theorem readOption?_eq_none {before : Option Char} {part text : List Char}
    (plain : ∀ c ∈ part, isQuote c = false) (noKey : StopsAt isKeyChar text)
    (noQuote : StopsAt isQuote text) : readOption? before (part ++ text) = none := by
  refine Option.eq_none_iff_forall_ne_some.2 fun ⟨⟨key, value⟩, behind⟩ read => ?_
  obtain ⟨front, quote, closing, spelled, -, opens, -, -, whole⟩ := readOption?_eq_some_iff.1 read
  have reached : (part ++ text).dropWhile isKeyChar = quote :: (value ++ closing :: behind) := by
    rw [whole]
    exact Text.dropWhile_run spelled.isKeyChar_of_mem (.cons (isKeyChar_of_isQuote opens))
  have other : isQuote quote = false := by
    cases left : part.dropWhile isKeyChar with
    | nil =>
      rw [Text.dropWhile_run (List.dropWhile_eq_nil_iff.1 left) noKey] at reached
      exact noQuote quote _ reached
    | cons c rest =>
      rw [List.dropWhile_append, left, List.isEmpty_cons, if_neg Bool.false_ne_true,
        List.cons_append] at reached
      have mem : c ∈ part := (List.dropWhile_suffix isKeyChar).subset (left ▸ List.mem_cons_self)
      exact List.head_eq_of_cons_eq reached ▸ plain c mem
  rw [opens] at other
  contradiction

/-- No option starts with a character that is no colon and belongs to no word. -/
theorem readOption?_eq_none_of_start {before : Option Char} {c : Char} {rest : List Char}
    (colon : c ≠ ':') (outside : isWord c = false) : readOption? before (c :: rest) = none := by
  refine Option.eq_none_iff_forall_ne_some.2 fun ⟨⟨key, value⟩, behind⟩ read => ?_
  obtain ⟨front, quote, closing, spelled, -, -, -, -, whole⟩ := readOption?_eq_some_iff.1 read
  obtain ⟨first, others, rfl, start⟩ := spelled.exists_cons
  obtain rfl : c = first := List.head_eq_of_cons_eq whole
  rcases start with same | inside
  · exact colon same
  · rw [outside] at inside
    contradiction

/-- The word of a form stands for this form. -/
theorem RenderKey.ofWord?_word (key : RenderKey) : ofWord? key.word.toList = some key := by
  cases key <;> decide +kernel

/-- The search for options looks at the character before a text only to see whether a word ends
there. -/
theorem findAllFrom_readOption? {before : Option Char} (outside : before.any isWord = false)
    (text : List Char) :
    Text.findAllFrom readOption? 0 before text = Text.findAll readOption? text := by
  cases text with
  | nil => rfl
  | cons c rest =>
    have same : readOption? before (c :: rest) = readOption? none (c :: rest) := by
      simp only [readOption?, readOptionKey?, outside, Option.any_none]
    rw [Text.findAll, Text.findAllFrom, Text.findAllFrom, same]

/-- A text from no place of which an option is read adds no reference. -/
theorem optionReferences_of_none {front text : List Char}
    (none : ∀ before part, part <:+ front → part ≠ [] → readOption? before (part ++ text) = none)
    (outside : front.getLast?.any isWord = false) :
    optionReferences (front ++ text) = optionReferences text := by
  have behind : Text.findAll readOption? (front ++ text) = Text.findAll readOption? text := by
    rw [Text.findAll, Text.findAllFrom_of_none none, Option.or_none,
      findAllFrom_readOption? outside]
  rw [optionReferences, behind, optionReferences]

/-- Marks in front of a text add no reference. -/
theorem optionReferences_of_marks {front : List Char} (text : List Char)
    (marks : ∀ c ∈ front, isMark c = true) :
    optionReferences (front ++ text) = optionReferences text := by
  refine optionReferences_of_none ?_ ?_
  · intro before part suffix nonempty
    obtain ⟨c, rest, rfl⟩ := List.exists_cons_of_ne_nil nonempty
    have mark := isMark_iff.1 (marks c (suffix.subset List.mem_cons_self))
    exact readOption?_eq_none_of_start mark.2.2 mark.1
  · cases last : front.getLast? with
    | none => rfl
    | some c => exact (isMark_iff.1 (marks c (List.mem_of_getLast? last))).1

section Plain

variable {plain : List Char} (noQuotes : ∀ c ∈ plain, isQuote c = false)
include noQuotes

/-- Without quotes no option is found. -/
theorem findAllFrom_readOption?_of_plain (before : Option Char) :
    Text.findAllFrom readOption? 0 before plain = [] := by
  refine List.eq_nil_iff_forall_not_mem.2 fun found mem => ?_
  obtain ⟨front, rest, behind, rfl, read⟩ := Text.exists_of_mem_findAllFrom mem
  have noQuotesLater : ∀ c ∈ rest, isQuote c = false := fun c mem =>
    noQuotes c (List.mem_append_right _ mem)
  have absent := @readOption?_eq_none (front.getLast?.or before) rest [] noQuotesLater .nil .nil
  rw [List.append_nil, read] at absent
  contradiction

/-- Without quotes there are no references. -/
theorem optionReferences_eq_nil : optionReferences plain = [] := by
  have none : Text.findAll readOption? plain = [] := findAllFrom_readOption?_of_plain noQuotes none
  rw [optionReferences, none]
  rfl

/-- Text without quotes behind a place is not taken into an option there. -/
theorem readOption?_append_plain (before : Option Char) (text : List Char) :
    readOption? before (text ++ plain) =
      (readOption? before text).map fun found => (found.1, found.2 ++ plain) := by
  cases read : readOption? before text with
  | some found =>
    obtain ⟨⟨key, value⟩, behind⟩ := found
    obtain ⟨front, quote, closing, spelled, start, opens, closes, fits, rfl⟩ :=
      readOption?_eq_some_iff.1 read
    exact readOption?_eq_some_iff.2
      ⟨front, quote, closing, spelled, start, opens, closes, fits, by simp⟩
  | none =>
    refine Option.eq_none_iff_forall_ne_some.2 fun ⟨⟨key, value⟩, behind⟩ found => ?_
    obtain ⟨front, quote, closing, spelled, start, opens, closes, fits, whole⟩ :=
      readOption?_eq_some_iff.1 found
    have absent : ∀ rest, text ≠ front ++ quote :: (value ++ closing :: rest) := by
      rintro rest rfl
      have here : readOption? before _ = some ((key, value), rest) := readOption?_eq_some_iff.2
        ⟨front, quote, closing, spelled, start, opens, closes, fits, rfl⟩
      rw [here] at read
      contradiction
    have ends : text ++ plain = (front ++ quote :: value ++ [closing]) ++ behind := by
      rw [whole]
      simp
    obtain ⟨more, inFront, rfl⟩ | ⟨more, inText, -⟩ := List.append_eq_append_iff.1 ends
    · rcases List.eq_nil_or_concat more with rfl | ⟨others, last, rfl⟩
      · exact absent [] (by simpa using inFront.symm)
      · have lasts : front ++ quote :: value ++ [closing] = (text ++ others) ++ [last] := by
          simpa using inFront
        obtain rfl : closing = last := List.singleton_inj.1 (List.append_inj' lasts rfl).2
        rw [noQuotes closing (by simp)] at closes
        contradiction
    · exact absent more (by rw [inText]; simp)

/-- Behind a text, text without quotes adds no reference. -/
theorem optionReferences_append_plain (text : List Char) :
    optionReferences (text ++ plain) = optionReferences text := by
  have same : Text.findAll readOption? (text ++ plain) = Text.findAll readOption? text :=
    Text.findAllFrom_append_of_apart
      (fun before part _ _ => readOption?_append_plain noQuotes before part)
      (findAllFrom_readOption?_of_plain noQuotes) (Nat.zero_le _)
  rw [optionReferences, same, optionReferences]

end Plain

/-- Text without quotes in front of another character than those of keys adds no reference, wherever
the whole is cut off. -/
theorem optionReferences_drop {front text cut : List Char}
    (plain : ∀ c ∈ front, isQuote c = false) (outside : front.getLast?.any isWord = false)
    (noKey : StopsAt isKeyChar text) (noQuote : StopsAt isQuote text)
    (part : cut <+: front ++ text) :
    optionReferences cut = optionReferences (cut.drop front.length) := by
  obtain ⟨rest, whole⟩ := part
  obtain ⟨more, rfl, -⟩ | ⟨more, rfl, rfl⟩ := List.append_eq_append_iff.1 whole
  · have none : cut.drop (cut ++ more).length = [] := List.drop_eq_nil_iff.2 (by simp)
    rw [none, optionReferences_eq_nil fun c mem => plain c (List.mem_append_left _ mem)]
    rfl
  · rw [List.drop_left]
    have inText : more <+: more ++ rest := List.prefix_append more rest
    refine optionReferences_of_none (fun before part suffix _ => ?_) outside
    exact readOption?_eq_none (fun c mem => plain c (suffix.subset mem)) (noKey.of_prefix inText)
      (noQuote.of_prefix inText)

/-- A spelled reference ends with a quote. -/
theorem SpellsReference.exists_getLast? {reference : RenderReference} {option : List Char}
    (spelled : SpellsReference reference option) :
    ∃ quote, option.getLast? = some quote ∧ isQuote quote = true := by
  obtain ⟨key, quotes, name⟩ := spelled
  next front quote =>
  have last : front ++ quote :: (reference.name ++ [quote]) =
      front ++ quote :: reference.name ++ [quote] := by simp
  exact ⟨quote, last ▸ List.getLast?_concat, quotes⟩

/-- Spelled references end with a quote. -/
theorem SpellsReferences.exists_getLast? {references : List RenderReference} {options : List Char}
    (spelled : SpellsReferences references options) :
    ∃ quote, options.getLast? = some quote ∧ isQuote quote = true := by
  induction spelled with
  | last spelled => exact spelled.exists_getLast?
  | cons spelled separates others ih =>
    obtain ⟨quote, last, quotes⟩ := ih
    exact ⟨quote, by simp [last], quotes⟩

/-- Spelled references start with a colon or a word character. -/
theorem SpellsReferences.exists_cons {references : List RenderReference} {options : List Char}
    (spelled : SpellsReferences references options) :
    ∃ c rest, options = c :: rest ∧ (c = ':' ∨ isWord c = true) := by
  have first : ∀ {reference option}, SpellsReference reference option →
      ∃ c rest, option = c :: rest ∧ (c = ':' ∨ isWord c = true) := by
    rintro reference option ⟨key, -, -⟩
    obtain ⟨c, rest, rfl, start⟩ := key.exists_cons
    exact ⟨c, _, rfl, start⟩
  cases spelled with
  | last spelled => exact first spelled
  | cons spelled =>
    obtain ⟨c, rest, rfl, start⟩ := first spelled
    exact ⟨c, _, rfl, start⟩

/-- A spelled reference is read, whatever follows. -/
theorem optionReferences_of_spells {reference : RenderReference} {option : List Char}
    (spelled : SpellsReference reference option) (behind : List Char) :
    optionReferences (option ++ behind) = reference :: optionReferences behind := by
  obtain ⟨last, same, quoteLast⟩ := spelled.exists_getLast?
  have outside : option.getLast?.any isWord = false := by
    rw [same]
    exact isWord_of_isQuote quoteLast
  obtain ⟨key, quotes, name⟩ := spelled
  next front quote =>
  have read : readOption? none (front ++ quote :: (reference.name ++ [quote]) ++ behind) =
      some ((reference.key.word.toList, reference.name), behind) :=
    readOption?_eq_some_iff.2 ⟨front, quote, quote, key, .inr rfl, quotes, quotes, name, by simp⟩
  rw [optionReferences, Text.findAll, Text.findAllFrom_of_read (by simp) read,
    findAllFrom_readOption? outside, List.filterMap_cons]
  simp only [RenderKey.ofWord?_word, Option.map_some]
  rfl

/-- Spelled references are read in order, whatever follows. -/
theorem optionReferences_append {references : List RenderReference} {options : List Char}
    (spelled : SpellsReferences references options) (behind : List Char) :
    optionReferences (options ++ behind) = references ++ optionReferences behind := by
  induction spelled with
  | last spelled => exact optionReferences_of_spells spelled behind
  | cons spelled separates others ih =>
    rw [List.append_assoc, List.append_assoc, optionReferences_of_spells spelled,
      optionReferences_of_marks _ separates.isMark_of_mem, ih, List.cons_append]

/-- The character can stand between the word of a call and its arguments. -/
def isOpening (c : Char) : Bool := isBlank c || c == '('

/-- Opening brackets are marks. -/
theorem isMark_of_isOpening {c : Char} (inside : isOpening c = true) : isMark c = true := by
  have either : isBlank c = true ∨ c = '(' := by simpa [isOpening] using inside
  rcases either with blank | rfl
  · exact isMark_of_isBlank blank
  · decide +kernel

/-- A bare first argument stands behind blanks and a parenthesis. -/
theorem exists_of_bareReference? {arguments : List Char} {reference : RenderReference}
    (bare : bareReference? arguments = some reference) :
    ∃ front quote closing behind, (∀ c ∈ front, isOpening c = true) ∧ isQuote quote = true ∧
      isQuote closing = true ∧ FitsQuotes reference.name ∧
      arguments = front ++ quote :: (reference.name ++ closing :: behind) := by
  have opening : ∀ {blanks}, Blanks blanks → ∀ c ∈ blanks, isOpening c = true :=
    fun blank c mem => by simp [isOpening, blank c mem]
  unfold bareReference? at bare
  obtain ⟨⟨name, behind⟩, read, rfl⟩ := Option.map_eq_some_iff.1 bare
  obtain ⟨quote, closing, opens, closes, fits, inside⟩ := Text.readBetweenQuotes?_eq_some_iff.1 read
  have outer := Text.blanks_takeWhile arguments
  have whole := Text.takeWhile_append_trimStart arguments
  split at inside
  · next rest start =>
    have inner := Text.blanks_takeWhile rest
    have wholeInside := Text.takeWhile_append_trimStart rest
    refine ⟨arguments.takeWhile isBlank ++ '(' :: rest.takeWhile isBlank, quote, closing, behind,
      ?_, opens, closes, fits, ?_⟩
    · refine List.forall_mem_append.2 ⟨opening outer, ?_⟩
      exact List.forall_mem_cons.2 ⟨rfl, opening inner⟩
    · rw [List.append_assoc, List.cons_append, ← inside, wholeInside, ← start, whole]
  · next rest _ =>
    refine ⟨arguments.takeWhile isBlank, quote, closing, behind, opening outer, opens, closes, fits,
      ?_⟩
    rw [← inside, whole]

/-- No bare argument is found in front of another character than a quote, wherever the whole is cut
off. -/
theorem bareReference?_eq_none {opening text cut : List Char}
    (inside : ∀ c ∈ opening, isOpening c = true) (stops : StopsAt isOpening text)
    (noQuote : StopsAt isQuote text) (part : cut <+: opening ++ text) :
    bareReference? cut = none := by
  refine Option.eq_none_iff_forall_ne_some.2 fun reference bare => ?_
  obtain ⟨front, quote, closing, behind, insideFront, opens, -, -, rfl⟩ :=
    exists_of_bareReference? bare
  obtain ⟨more, whole⟩ := part
  have ends : isOpening quote = false := by
    rcases Text.eq_or_eq_of_isQuote opens with rfl | rfl <;> decide +kernel
  rw [List.append_assoc, List.cons_append] at whole
  have same : quote :: (reference.name ++ closing :: behind ++ more) = text := by
    rw [← Text.dropWhile_run insideFront (.cons ends), whole, Text.dropWhile_run inside stops]
  have other := noQuote quote _ same.symm
  rw [opens] at other
  contradiction

end AssetUsage.Call
