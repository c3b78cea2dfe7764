import AssetUsage.Markup
import AssetUsage.Proofs.Text.Runs

/-!
# The grammar of attributes

The text of a tag behind its name is a list of attributes in one of several spellings. The grammar
states these without the reader: `Spells pairs text` says that the text holds the attributes `pairs`
from left to right. One attribute is read exactly as the grammar spells it
(`spellsAttribute_of_readAttribute?`, `readAttribute?_of_spellsAttribute`).

A name alone and a name with a value share their first characters, and so do `/` as an ending and a
bare value that ends with `/`. No text is read in two ways all the same: behind a name alone there
is no `=`, and a bare value is as long as possible.
-/

namespace AssetUsage.Markup

open AssetUsage.Text (Blanks StopsAt)

/-- The text is the name of an attribute. -/
def IsName (name : List Char) : Prop :=
  ∃ first others, name = first :: others ∧ isNameStart first = true ∧
    ∀ c ∈ others, isNameChar c = true

/-- The text spells a value in front of `behind`. -/
inductive SpellsValue (behind value : List Char) : List Char → Prop where
  | double (plain : '"' ∉ value) : SpellsValue behind value ('"' :: (value ++ ['"']))
  | single (plain : '\'' ∉ value) : SpellsValue behind value ('\'' :: (value ++ ['\'']))
  /-- A bare value goes on as long as possible. -/
  | bare (nonempty : value ≠ []) (run : ∀ c ∈ value, isBareChar c = true)
    (maximal : StopsAt isBareChar behind) : SpellsValue behind value value

/-- The text spells an attribute, a name with its value, in front of `behind`. -/
inductive SpellsAttribute (behind name : List Char) : List Char → List Char → Prop where
  /-- A name alone has the empty value. -/
  | alone (named : IsName name) : SpellsAttribute behind name [] name
  | assigned {value spelling before after : List Char} (named : IsName name)
    (blankBefore : Blanks before) (blankAfter : Blanks after)
    (spelled : SpellsValue behind value spelling) :
    SpellsAttribute behind name value (name ++ (before ++ '=' :: (after ++ spelling)))

/-- The text may stand behind the last attribute. -/
inductive IsEnding : List Char → Prop where
  | blanks {text : List Char} (blank : Blanks text) : IsEnding text
  | slash : IsEnding ['/']
  | blanksSlash {before after : List Char} (nonempty : before ≠ []) (blankBefore : Blanks before)
    (blankAfter : Blanks after) : IsEnding (before ++ '/' :: after)

/-- The text spells attributes from its first character on. -/
inductive SpellsList : List (List Char × List Char) → List Char → Prop where
  | last {name value spelling ending : List Char}
    (spelled : SpellsAttribute ending name value spelling) (ends : IsEnding ending) :
    SpellsList [(name, value)] (spelling ++ ending)
  | more {name value spelling blanks text : List Char} {others : List (List Char × List Char)}
    (spelled : SpellsAttribute (blanks ++ text) name value spelling) (nonempty : blanks ≠ [])
    (blank : Blanks blanks) (list : SpellsList others text) :
    SpellsList ((name, value) :: others) (spelling ++ (blanks ++ text))

/-- The text spells the attributes, behind blanks. -/
def Spells (pairs : List (List Char × List Char)) (text : List Char) : Prop :=
  ∃ blanks list, Blanks blanks ∧ SpellsList pairs list ∧ text = blanks ++ list

/-- What can start an attribute name can stand in it. -/
theorem isNameChar_of_isNameStart {c : Char} (start : isNameStart c = true) :
    isNameChar c = true := by
  simp only [isNameStart, isNameChar, Char.isAlphanum, Bool.or_eq_true] at start ⊢
  rcases start with (letter | line) | colon
  · exact .inl (.inl (.inl (.inl (.inl letter))))
  · exact .inl (.inl (.inr line))
  · exact .inl (.inr colon)

/-- No character of a name is a blank. -/
theorem isBlank_of_isNameChar {c : Char} (inName : isNameChar c = true) :
    Text.isBlank c = false := by
  refine Bool.eq_false_iff.2 fun blank => ?_
  have outside := Text.of_isBlank (!isNameChar ·) (by decide +kernel) blank
  simp [inName] at outside

/-- A character that ends a name stops the reading of the name. -/
theorem stopsAt_isNameChar_of_isBlank {c : Char} {rest : List Char}
    (blank : Text.isBlank c = true) : StopsAt isNameChar (c :: rest) := by
  refine .cons (Bool.eq_false_iff.2 fun inName => ?_)
  rw [isBlank_of_isNameChar inName] at blank
  contradiction

/-- Behind an attribute the text is at its end, up to a last `/`, or goes on behind blanks. -/
theorem endAttribute?_eq_some_iff {text behind : List Char} :
    endAttribute? text = some behind ↔
      (text = [] ∧ behind = []) ∨ (text = ['/'] ∧ behind = []) ∨
        (∃ c rest, text = c :: rest ∧ Text.isBlank c = true) ∧ behind = Text.trimStart text := by
  have slash : Text.isBlank '/' = false := by decide
  constructor
  · intro ends
    unfold endAttribute? at ends
    split at ends
    · exact .inl ⟨rfl, (Option.some.inj ends).symm⟩
    · exact .inr (.inl ⟨rfl, (Option.some.inj ends).symm⟩)
    · next c rest _ =>
      split at ends
      · next blank =>
        refine .inr (.inr ⟨⟨c, rest, rfl, blank⟩, ?_⟩)
        rw [Text.trimStart, List.dropWhile_cons_of_pos blank]
        exact (Option.some.inj ends).symm
      · contradiction
  · rintro (⟨rfl, rfl⟩ | ⟨rfl, rfl⟩ | ⟨⟨c, rest, rfl, blank⟩, rfl⟩)
    · rfl
    · rfl
    · have other : c ≠ '/' := by
        rintro rfl
        rw [slash] at blank
        contradiction
      have trimmed : Text.trimStart (c :: rest) = Text.trimStart rest :=
        List.dropWhile_cons_of_pos blank
      rw [trimmed]
      unfold endAttribute?
      split
      · contradiction
      · next same => exact absurd (List.head_eq_of_cons_eq same) other
      · next first others _ same =>
        obtain ⟨rfl, rfl⟩ := List.cons_eq_cons.1 same
        exact if_pos blank

/-- Nothing that ends an attribute goes on with its name. -/
theorem stopsAt_isNameChar_of_endAttribute? {text behind : List Char}
    (ends : endAttribute? text = some behind) : StopsAt isNameChar text := by
  rcases endAttribute?_eq_some_iff.1 ends with ⟨rfl, -⟩ | ⟨rfl, -⟩ | ⟨⟨c, rest, rfl, blank⟩, -⟩
  · exact .nil
  · exact .cons (by decide)
  · exact stopsAt_isNameChar_of_isBlank blank

/-- What is left behind an attribute is no longer than what ends it. -/
theorem length_le_of_endAttribute? {text behind : List Char}
    (ends : endAttribute? text = some behind) : behind.length ≤ text.length := by
  rcases endAttribute?_eq_some_iff.1 ends with ⟨rfl, rfl⟩ | ⟨rfl, rfl⟩ | ⟨-, rfl⟩
  · exact Nat.le_refl _
  · exact Nat.zero_le _
  · exact List.length_dropWhile_le _ _

/-- A spelled value does not start with a blank. -/
theorem SpellsValue.stopsAt_isBlank {behind value spelling : List Char}
    (spelled : SpellsValue behind value spelling) : StopsAt Text.isBlank (spelling ++ behind) := by
  cases spelled with
  | double plain => exact .cons (by decide)
  | single plain => exact .cons (by decide)
  | bare nonempty run maximal =>
    obtain ⟨first, others, rfl⟩ := List.exists_cons_of_ne_nil nonempty
    have bare := run first List.mem_cons_self
    simp only [isBareChar, Bool.and_eq_true, Bool.not_eq_true'] at bare
    exact .cons bare.1.1

/-- A value is read exactly if it is spelled in front of what is left. -/
theorem readValue?_eq_some_iff {text value behind : List Char} :
    readValue? text = some (value, behind) ↔
      ∃ spelling, SpellsValue behind value spelling ∧ text = spelling ++ behind := by
  constructor
  · intro read
    unfold readValue? at read
    rcases Option.or_eq_some_iff.1 read with quoted | ⟨-, bare⟩
    · unfold Text.readQuoted? at quoted
      split at quoted
      · contradiction
      · next c rest =>
        split at quoted
        · next quote =>
          obtain ⟨whole, plain⟩ := Text.upTo?_eq_some_iff.1 quoted
          simp only [Text.isQuote, Bool.or_eq_true, beq_iff_eq] at quote
          rcases quote with rfl | rfl
          · exact ⟨_, .double plain, by simp [whole]⟩
          · exact ⟨_, .single plain, by simp [whole]⟩
        · contradiction
    · split at bare
      · contradiction
      · next nonempty =>
        obtain ⟨same, rfl⟩ := Prod.mk.inj (Option.some.inj bare)
        refine ⟨value, .bare ?_ ?_ (Text.stopsAt_dropWhile text), ?_⟩
        · rw [← same]
          exact nonempty
        · rw [← same]
          exact fun c mem => List.mem_takeWhile_imp mem
        · rw [← same, List.takeWhile_append_dropWhile]
  · rintro ⟨spelling, spelled, rfl⟩
    have readUpTo : ∀ quote ∉ value,
        Text.upTo? quote (value ++ quote :: behind) = some (value, behind) :=
      fun quote plain => Text.upTo?_eq_some_iff.2 ⟨rfl, plain⟩
    cases spelled with
    | double plain | single plain =>
      rw [List.cons_append, List.append_assoc, List.singleton_append, readValue?,
        Text.readQuoted?, if_pos (by decide), readUpTo _ plain, Option.some_or]
    | bare nonempty run maximal =>
      have unquoted : Text.readQuoted? (value ++ behind) = none := by
        obtain ⟨first, others, rfl⟩ := List.exists_cons_of_ne_nil nonempty
        have bare := run first List.mem_cons_self
        simp only [isBareChar, Bool.and_eq_true, Bool.not_eq_true'] at bare
        rw [List.cons_append, Text.readQuoted?, if_neg (by simp [bare.1.2])]
      rw [readValue?, unquoted, Option.none_or, Text.takeWhile_run run maximal,
        Text.dropWhile_run run maximal]
      split
      · contradiction
      · rfl

/-- An assignment is read exactly if `=` with blanks around it, a value and the end of an attribute
stand there. -/
theorem readAssignment?_eq_some_iff {text value rest : List Char} :
    readAssignment? text = some (value, rest) ↔
      ∃ before after spelling behind, Blanks before ∧ Blanks after ∧
        SpellsValue behind value spelling ∧ endAttribute? behind = some rest ∧
        text = before ++ '=' :: (after ++ (spelling ++ behind)) := by
  constructor
  · intro read
    unfold readAssignment? at read
    split at read
    · next inside found =>
      obtain ⟨⟨value', behind⟩, readValue, read⟩ := Option.bind_eq_some_iff.1 read
      obtain ⟨rest', ends, same⟩ := Option.bind_eq_some_iff.1 read
      obtain ⟨rfl, rfl⟩ := Prod.mk.inj (Option.some.inj same)
      obtain ⟨spelling, spelled, whole⟩ := readValue?_eq_some_iff.1 readValue
      refine ⟨text.takeWhile Text.isBlank, inside.takeWhile Text.isBlank, spelling, behind,
        Text.blanks_takeWhile text, Text.blanks_takeWhile inside, spelled, ends, ?_⟩
      rw [← whole, Text.takeWhile_append_trimStart, ← found, Text.takeWhile_append_trimStart]
    · contradiction
  · rintro ⟨before, after, spelling, behind, blankBefore, blankAfter, spelled, ends, rfl⟩
    have front : Text.trimStart (before ++ '=' :: (after ++ (spelling ++ behind))) =
        '=' :: (after ++ (spelling ++ behind)) := by
      rw [Text.trimStart_append blankBefore, Text.trimStart_of_stopsAt (.cons (by decide))]
    have inside : Text.trimStart (after ++ (spelling ++ behind)) = spelling ++ behind := by
      rw [Text.trimStart_append blankAfter, Text.trimStart_of_stopsAt spelled.stopsAt_isBlank]
    have readValue := readValue?_eq_some_iff.2 ⟨spelling, spelled, rfl⟩
    simp only [readAssignment?, front, inside, readValue, ends, Option.bind_eq_bind,
      Option.bind_some, Option.pure_def]

/-- What is read as an attribute is spelled in front of something that ends it. -/
theorem spellsAttribute_of_readAttribute? {text key value rest : List Char}
    (read : readAttribute? text = some ((key, value), rest)) :
    ∃ blanks name spelling behind, Blanks blanks ∧ SpellsAttribute behind name value spelling ∧
      endAttribute? behind = some rest ∧ key = name.map Char.toLower ∧
      text = blanks ++ (spelling ++ behind) := by
  unfold readAttribute? at read
  split at read
  · contradiction
  · next c others found =>
    split at read
    · next start =>
      have named : IsName (c :: others.takeWhile isNameChar) :=
        ⟨c, _, rfl, start, fun _ mem => List.mem_takeWhile_imp mem⟩
      have whole : text = text.takeWhile Text.isBlank ++
          ((c :: others.takeWhile isNameChar) ++ others.dropWhile isNameChar) := by
        rw [List.cons_append, List.takeWhile_append_dropWhile, ← found,
          Text.takeWhile_append_trimStart]
      refine ⟨text.takeWhile Text.isBlank, c :: others.takeWhile isNameChar, ?_⟩
      dsimp only at read
      split at read
      · next value' rest' assigned =>
        obtain ⟨⟨rfl, rfl⟩, rfl⟩ : (_ = key ∧ value' = value) ∧ rest' = rest := by
          simpa using read
        obtain ⟨before, after, spelling, behind, blankBefore, blankAfter, spelled, ends, same⟩ :=
          readAssignment?_eq_some_iff.1 assigned
        refine ⟨_, behind, Text.blanks_takeWhile text,
          .assigned named blankBefore blankAfter spelled, ends, rfl, ?_⟩
        refine whole.trans ?_
        rw [same]
        simp
      · obtain ⟨rest', ends, same⟩ := Option.map_eq_some_iff.1 read
        obtain ⟨⟨rfl, rfl⟩, rfl⟩ : (_ = key ∧ [] = value) ∧ rest' = rest := by
          simpa using same
        exact ⟨_, _, Text.blanks_takeWhile text, .alone named, ends, rfl, whole⟩
    · contradiction

/-- Behind a name that does not go on, an assignment is read, or else the end of the attribute. -/
theorem readAttribute?_of_isName {blanks name tail : List Char} (blank : Blanks blanks)
    (named : IsName name) (stops : StopsAt isNameChar tail) :
    readAttribute? (blanks ++ (name ++ tail)) =
      ((readAssignment? tail).map fun (value, rest) => ((name.map Char.toLower, value), rest)).or
        ((endAttribute? tail).map fun rest => ((name.map Char.toLower, []), rest)) := by
  obtain ⟨first, others, rfl, start, run⟩ := named
  have visible : Text.isBlank first = false :=
    isBlank_of_isNameChar (isNameChar_of_isNameStart start)
  rw [readAttribute?, Text.trimStart_append blank, List.cons_append,
    Text.trimStart_of_stopsAt (.cons visible)]
  simp only [start, ↓reduceIte, Text.takeWhile_run run stops, Text.dropWhile_run run stops]
  cases readAssignment? tail <;> rfl

/-- A spelled attribute is read in front of something that ends it, unless `=` follows. -/
theorem readAttribute?_of_spellsAttribute {blanks name value spelling behind rest : List Char}
    (blank : Blanks blanks) (spelled : SpellsAttribute behind name value spelling)
    (ends : endAttribute? behind = some rest)
    (unassigned : ∀ more, Text.trimStart behind ≠ '=' :: more) :
    readAttribute? (blanks ++ (spelling ++ behind)) =
      some ((name.map Char.toLower, value), rest) := by
  cases spelled with
  | alone named =>
    have none : readAssignment? behind = none := by
      refine Option.eq_none_iff_forall_ne_some.2 fun found read => ?_
      obtain ⟨before, after, spelling, tail, blankBefore, -, -, -, whole⟩ :=
        readAssignment?_eq_some_iff.1 read
      apply unassigned (after ++ (spelling ++ tail))
      rw [whole, Text.trimStart_append blankBefore, Text.trimStart_of_stopsAt (.cons (by decide))]
    have stops := stopsAt_isNameChar_of_endAttribute? ends
    rw [readAttribute?_of_isName blank named stops, none, ends, Option.map_none, Option.none_or,
      Option.map_some]
  | @assigned value spelling before after named blankBefore blankAfter spelled =>
    have stops : StopsAt isNameChar (before ++ '=' :: (after ++ (spelling ++ behind))) :=
      .append_of_blanks (by decide +kernel) (.cons (by decide)) blankBefore
    have assignment := readAssignment?_eq_some_iff.2
      ⟨before, after, spelling, behind, blankBefore, blankAfter, spelled, ends, rfl⟩
    simp only [List.append_assoc, List.cons_append]
    rw [readAttribute?_of_isName blank named stops, assignment, Option.map_some, Option.some_or]

end AssetUsage.Markup
