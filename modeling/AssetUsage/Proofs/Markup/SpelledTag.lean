import AssetUsage.Markup
import AssetUsage.Proofs.Markup.AttributeReading
import AssetUsage.Proofs.Text.Places

/-!
# Spelled tags

An opening tag is spelled by `<`, its name, blanks and attributes of the grammar, and `>`, with no
other `>` before. Such a tag is found on every line on which no earlier tag is still open
(`exists_mem_tags_of_spellsTag`): a reading that starts before it ends at the last `>` before it.
-/

namespace AssetUsage.Markup

open AssetUsage.Text (StopsAt)

/-- The text is the name of a tag. -/
def IsTagName (name : List Char) : Prop :=
  ∃ first others, name = first :: others ∧ first.isAlpha = true ∧
    ∀ c ∈ others, isTagNameChar c = true

/-- The text spells an opening tag with a name and attributes. -/
inductive SpellsTag (name : List Char) (pairs : List (List Char × List Char)) :
    List Char → Prop where
  | intro {blank : Char} {list : List Char} (named : IsTagName name)
    (separated : Text.isBlank blank = true) (spelled : Spells pairs (blank :: list))
    (plain : '>' ∉ blank :: list) : SpellsTag name pairs ('<' :: (name ++ (blank :: list ++ ['>'])))

/-- No tag is open at the end of the text. -/
def IsOutsideTags (text : List Char) : Prop := '<' ∉ text ∨ text.getLast? = some '>'

/-- The tag has the name, in lower case, and holds the attributes. -/
structure Tag.IsSpelledBy (tag : Tag) (name : List Char) (pairs : List (List Char × List Char)) :
    Prop where
  name_eq : tag.name = name.map Char.toLower
  holds : tag.attributes.Holds pairs

/-- A character of a name is no `>`. -/
theorem ne_of_isTagNameChar {c : Char} (inName : isTagNameChar c = true) : c ≠ '>' := by
  rintro rfl
  contradiction

/-- The body of a tag ends at the first `>`. -/
theorem readTagBody?_eq_some {text body behind : List Char}
    (read : readTagBody? text = some (body, behind)) :
    ∃ taken, text = taken ++ '>' :: behind ∧ '>' ∉ taken := by
  unfold readTagBody? at read
  split at read
  · obtain ⟨rfl, rfl⟩ := Prod.mk.inj (Option.some.inj read)
    exact ⟨[], rfl, List.not_mem_nil⟩
  · obtain ⟨rfl, rfl⟩ := Prod.mk.inj (Option.some.inj read)
    exact ⟨['/'], rfl, by decide⟩
  · split at read
    · exact ⟨body, Text.upTo?_eq_some_iff.1 read⟩
    · contradiction
  · contradiction

/-- A tag starts with `<` and ends at the first `>`. -/
theorem readTag?_eq_some {before : Option Char} {text behind : List Char} {tag : Tag}
    (read : readTag? before text = some (tag, behind)) :
    ∃ taken, text = '<' :: (taken ++ '>' :: behind) ∧ '>' ∉ taken := by
  unfold readTag? at read
  split at read
  · next c rest =>
    split at read
    · next letter =>
      obtain ⟨⟨body, behind'⟩, readBody, same⟩ := Option.map_eq_some_iff.1 read
      obtain ⟨-, rfl⟩ := Prod.mk.inj same
      obtain ⟨taken, whole, plain⟩ := readTagBody?_eq_some readBody
      refine ⟨c :: (rest.takeWhile isTagNameChar ++ taken), ?_, ?_⟩
      · rw [List.cons_append, List.append_assoc, ← whole, List.takeWhile_append_dropWhile]
      · intro mem
        rcases List.mem_cons.1 mem with rfl | mem
        · contradiction
        · rcases List.mem_append.1 mem with mem | mem
          · exact ne_of_isTagNameChar (List.mem_takeWhile_imp mem) rfl
          · exact plain mem
    · contradiction
  · contradiction

/-- Outside of tags, no tag reaches beyond the text. -/
theorem endsWithin_of_isOutsideTags {front : List Char} (outside : IsOutsideTags front)
    (text : List Char) : Text.EndsWithin readTag? front text := by
  intro before part tag behind suffix nonempty read
  obtain ⟨taken, whole, plain⟩ := readTag?_eq_some read
  obtain ⟨first, others, rfl⟩ := List.exists_cons_of_ne_nil nonempty
  obtain rfl : first = '<' := List.head_eq_of_cons_eq whole
  have inner : others ++ text = taken ++ '>' :: behind := List.tail_eq_of_cons_eq whole
  rcases outside with none | closed
  · exact absurd (suffix.subset List.mem_cons_self) none
  · have last : ('<' :: others).getLast? = some '>' := by
      obtain ⟨earlier, rfl⟩ := suffix
      rwa [List.getLast?_append_of_ne_nil _ nonempty] at closed
    have closes : '>' ∈ others := by
      rcases List.mem_cons.1 (List.mem_of_getLast? last) with same | mem
      · contradiction
      · exact mem
    have length : others.length + text.length = taken.length + (behind.length + 1) := by
      simpa using congrArg List.length inner
    have early : taken.length < others.length := by
      refine Nat.lt_of_not_le fun late => ?_
      have within : others <+: taken := by
        refine List.prefix_of_prefix_length_le (List.prefix_append others text) ?_ late
        rw [inner]
        exact List.prefix_append taken _
      exact plain (within.subset closes)
    omega

/-- A spelled tag is read wherever it stands. -/
theorem exists_readTag?_of_spellsTag {name text : List Char}
    {pairs : List (List Char × List Char)} (spelled : SpellsTag name pairs text) :
    ∃ tag : Tag, tag.IsSpelledBy name pairs ∧
      ∀ before behind, readTag? before (text ++ behind) = some (tag, behind) := by
  obtain ⟨named, separated, spelled, plain⟩ := spelled
  next blank list =>
  obtain ⟨first, others, rfl, letter, run⟩ := named
  refine ⟨⟨_, readAttributes (blank :: list)⟩, ⟨rfl, holds_of_spells spelled⟩, ?_⟩
  intro before behind
  have stops : StopsAt isTagNameChar (blank :: (list ++ '>' :: behind)) := by
    refine .cons (Bool.eq_false_iff.2 fun inName => ?_)
    have nameChar : isNameChar blank = true := by
      simp only [isTagNameChar, isNameChar, Bool.or_eq_true] at inName ⊢
      rcases inName with (alnum | colon) | hyphen
      · exact .inl (.inl (.inl (.inl alnum)))
      · exact .inl (.inr colon)
      · exact .inl (.inl (.inl (.inr hyphen)))
    rw [isBlank_of_isNameChar nameChar] at separated
    contradiction
  have readBody : readTagBody? (blank :: (list ++ '>' :: behind)) =
      some (blank :: list, behind) := by
    have upTo := Text.upTo?_eq_some_iff.2
      ⟨(rfl : blank :: (list ++ '>' :: behind) = (blank :: list) ++ '>' :: behind), plain⟩
    unfold readTagBody?
    split
    · next same =>
      rw [List.head_eq_of_cons_eq same] at separated
      contradiction
    · next same =>
      rw [List.head_eq_of_cons_eq same] at separated
      contradiction
    · next c rest _ _ same =>
      obtain ⟨rfl, rfl⟩ := List.cons_eq_cons.1 same
      rw [if_pos separated]
      exact upTo
    · contradiction
  have whole : '<' :: ((first :: others) ++ (blank :: list ++ ['>'])) ++ behind =
      '<' :: first :: (others ++ blank :: (list ++ '>' :: behind)) := by simp
  rw [whole, readTag?]
  simp only [letter, ↓reduceIte, Text.takeWhile_run run stops, Text.dropWhile_run run stops,
    readBody, Option.map_some]
  rfl

/-- A spelled tag is not empty. -/
theorem SpellsTag.ne_nil {name text : List Char} {pairs : List (List Char × List Char)}
    (spelled : SpellsTag name pairs text) : text ≠ [] := by
  cases spelled
  exact List.cons_ne_nil _ _

/-- A spelled tag is found on every line on which no tag is open before it. -/
theorem exists_mem_tags_of_spellsTag {name before text : List Char}
    {pairs : List (List Char × List Char)} (spelled : SpellsTag name pairs text)
    (outside : IsOutsideTags before) (behind : List Char) :
    ∃ tag ∈ tags (before ++ (text ++ behind)), tag.IsSpelledBy name pairs := by
  obtain ⟨tag, spelledBy, read⟩ := exists_readTag?_of_spellsTag spelled
  have nonempty : text ++ behind ≠ [] := by simp [spelled.ne_nil]
  exact ⟨tag, Text.mem_findAll_append nonempty (endsWithin_of_isOutsideTags outside _) (read _ _),
    spelledBy⟩

/-- A spelled tag is the only one on its line if it stands alone. -/
theorem exists_tags_eq_of_spellsTag {name text : List Char}
    {pairs : List (List Char × List Char)} (spelled : SpellsTag name pairs text) :
    ∃ tag : Tag, tags text = [tag] ∧ tag.IsSpelledBy name pairs := by
  obtain ⟨tag, spelledBy, read⟩ := exists_readTag?_of_spellsTag spelled
  have readAll := read none []
  rw [List.append_nil] at readAll
  exact ⟨tag, Text.findAll_of_read_all spelled.ne_nil readAll, spelledBy⟩

end AssetUsage.Markup
