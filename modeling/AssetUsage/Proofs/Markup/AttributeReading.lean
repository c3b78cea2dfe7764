import AssetUsage.Proofs.Markup.AttributeGrammar

/-!
# Reading attributes

Attributes are read one after the other until nothing but blanks or a last `/` is left. The reading
goes through exactly the texts of the grammar: whatever is spelled is read from left to right
(`readAttributesFrom_of_spellsList`), and what can be read is spelled, so that any other text leaves
no attributes at all (`readAttributesFrom_eq_empty`).
-/

namespace AssetUsage.Markup

open AssetUsage.Text (Blanks)

/-- The text has nothing left to be read: blanks, or a `/` between blanks. -/
def IsDone (text : List Char) : Prop := Text.trim text = [] ∨ Text.trim text = ['/']

/-- A text is done exactly if it holds blanks and at most one `/`. -/
theorem isDone_iff {text : List Char} :
    IsDone text ↔ Blanks text ∨
      ∃ before after, Blanks before ∧ Blanks after ∧ text = before ++ '/' :: after := by
  rw [IsDone, Text.trim_eq_nil_iff, Text.trim_eq_singleton_iff (by decide)]

/-- A text in which a name starts is not done. -/
theorem not_isDone_of_isNameStart {blanks rest : List Char} {c : Char}
    (start : isNameStart c = true) : ¬ IsDone (blanks ++ c :: rest) := by
  have visible := isBlank_of_isNameChar (isNameChar_of_isNameStart start)
  have noSlash : c ≠ '/' := by
    rintro rfl
    contradiction
  rw [isDone_iff]
  rintro (blank | ⟨before, after, blankBefore, blankAfter, same⟩)
  · rw [blank c (by simp)] at visible
    contradiction
  · have mem : c ∈ before ++ '/' :: after := same ▸ by simp
    rcases List.mem_append.1 mem with mem | mem
    · rw [blankBefore c mem] at visible
      contradiction
    · rcases List.mem_cons.1 mem with rfl | mem
      · exact noSlash rfl
      · rw [blankAfter c mem] at visible
        contradiction

/-- A spelled attribute starts with its name. -/
theorem SpellsAttribute.exists_cons {behind name value spelling : List Char}
    (spelled : SpellsAttribute behind name value spelling) :
    ∃ c rest, spelling = c :: rest ∧ isNameStart c = true := by
  cases spelled with
  | alone named =>
    obtain ⟨first, others, rfl, start, -⟩ := named
    exact ⟨first, others, rfl, start⟩
  | assigned named blankBefore blankAfter spelled =>
    obtain ⟨first, others, rfl, start, -⟩ := named
    exact ⟨first, _, rfl, start⟩

/-- Spelled attributes start with a name. -/
theorem SpellsList.exists_cons {pairs : List (List Char × List Char)} {text : List Char}
    (spelled : SpellsList pairs text) : ∃ c rest, text = c :: rest ∧ isNameStart c = true := by
  cases spelled with
  | last spelled ends =>
    obtain ⟨c, rest, rfl, start⟩ := spelled.exists_cons
    exact ⟨c, _, rfl, start⟩
  | more spelled nonempty blank list =>
    obtain ⟨c, rest, rfl, start⟩ := spelled.exists_cons
    exact ⟨c, _, rfl, start⟩

/-- An attribute is shorter than a text from which it is read. -/
theorem length_lt_of_readAttribute? {text behind : List Char} {pair : List Char × List Char}
    (read : readAttribute? text = some (pair, behind)) : behind.length < text.length := by
  obtain ⟨blanks, name, spelling, ending, -, spelled, ends, -, rfl⟩ :=
    spellsAttribute_of_readAttribute? read
  obtain ⟨c, rest, rfl, -⟩ := spelled.exists_cons
  have shorter := length_le_of_endAttribute? ends
  simp only [List.length_append, List.length_cons]
  omega

/-- Where reading is done, what has been found stays. -/
theorem readAttributesFrom_of_isDone (found : Attributes) {text : List Char}
    (done : IsDone text) : readAttributesFrom found text = found := by
  rw [readAttributesFrom]
  exact if_pos done

/-- Where an attribute can be read, reading goes on behind it. -/
theorem readAttributesFrom_of_readAttribute? (found : Attributes)
    {text name value behind : List Char} (undone : ¬ IsDone text)
    (read : readAttribute? text = some ((name, value), behind)) :
    readAttributesFrom found text = readAttributesFrom (found.set name value) behind := by
  have shorter := length_lt_of_readAttribute? read
  have unfinished : ¬ (Text.trim text = [] ∨ Text.trim text = ['/']) := undone
  rw [readAttributesFrom, if_neg unfinished, read]
  exact if_pos shorter

/-- What may stand behind the last attribute ends it, leaves nothing to be read and assigns
nothing. -/
theorem IsEnding.endAttribute? {ending : List Char} (ends : IsEnding ending) :
    (∃ rest, Markup.endAttribute? ending = some rest ∧ IsDone rest) ∧
      ∀ more, Text.trimStart ending ≠ '=' :: more := by
  cases ends with
  | blanks blank =>
    have trimmed := Text.trimStart_eq_nil_iff.2 blank
    refine ⟨⟨[], ?_, .inl rfl⟩, by simp [trimmed]⟩
    cases ending with
    | nil => rfl
    | cons c rest =>
      rw [← trimmed]
      exact endAttribute?_eq_some_iff.2
        (.inr (.inr ⟨⟨c, rest, rfl, blank c List.mem_cons_self⟩, rfl⟩))
  | slash =>
    refine ⟨⟨[], rfl, .inl rfl⟩, fun more same => ?_⟩
    rw [Text.trimStart_of_stopsAt (.cons (by decide))] at same
    simp at same
  | @blanksSlash before after nonempty blankBefore blankAfter =>
    have trimmed : Text.trimStart (before ++ '/' :: after) = '/' :: after := by
      rw [Text.trimStart_append blankBefore, Text.trimStart_of_stopsAt (.cons (by decide))]
    refine ⟨⟨'/' :: after, ?_, ?_⟩, by simp [trimmed]⟩
    · obtain ⟨first, others, rfl⟩ := List.exists_cons_of_ne_nil nonempty
      exact endAttribute?_eq_some_iff.2
        (.inr (.inr ⟨⟨first, _, rfl, blankBefore first List.mem_cons_self⟩, trimmed.symm⟩))
    · exact isDone_iff.2 (.inr ⟨[], after, .nil, blankAfter, rfl⟩)

/-- The attributes with a value for each name of the list, a later value in the place of an earlier
one. -/
def Attributes.setAll (attributes : Attributes) (pairs : List (List Char × List Char)) :
    Attributes :=
  pairs.foldl (fun attributes pair => attributes.set (pair.1.map Char.toLower) pair.2) attributes

/-- Every list of the grammar is read from left to right. -/
theorem readAttributesFrom_of_spellsList {pairs : List (List Char × List Char)} {text : List Char}
    (spelled : SpellsList pairs text) (found : Attributes) {blanks : List Char}
    (blank : Blanks blanks) :
    readAttributesFrom found (blanks ++ text) = found.setAll pairs := by
  have undone : ¬ IsDone (blanks ++ text) := by
    obtain ⟨c, rest, rfl, start⟩ := spelled.exists_cons
    exact not_isDone_of_isNameStart start
  induction spelled generalizing found blanks with
  | last spelled ends =>
    obtain ⟨⟨rest, ended, done⟩, unassigned⟩ := ends.endAttribute?
    have read := readAttribute?_of_spellsAttribute blank spelled ended unassigned
    rw [readAttributesFrom_of_readAttribute? found undone read,
      readAttributesFrom_of_isDone _ done]
    rfl
  | @more name value spelling separator text others spelled nonempty blankSeparator list ih =>
    obtain ⟨c, rest, rfl, start⟩ := list.exists_cons
    have visible := isBlank_of_isNameChar (isNameChar_of_isNameStart start)
    have trimmed : Text.trimStart (separator ++ c :: rest) = c :: rest := by
      rw [Text.trimStart_append blankSeparator, Text.trimStart_of_stopsAt (.cons visible)]
    have ended : endAttribute? (separator ++ c :: rest) = some (c :: rest) := by
      obtain ⟨first, others, rfl⟩ := List.exists_cons_of_ne_nil nonempty
      refine endAttribute?_eq_some_iff.2 (.inr (.inr ⟨⟨first, _, rfl, ?_⟩, trimmed.symm⟩))
      exact blankSeparator first List.mem_cons_self
    have unassigned : ∀ more, Text.trimStart (separator ++ c :: rest) ≠ '=' :: more := by
      intro more same
      rw [trimmed] at same
      rw [List.head_eq_of_cons_eq same] at start
      contradiction
    have read := readAttribute?_of_spellsAttribute blank spelled ended unassigned
    have undoneBehind : ¬ IsDone ([] ++ c :: rest) := not_isDone_of_isNameStart start
    rw [readAttributesFrom_of_readAttribute? found undone read]
    exact ih _ .nil undoneBehind

/-- An attribute in front of a text that is done is the last one of a list. -/
theorem spellsList_of_isDone {name value spelling behind rest : List Char}
    (spelled : SpellsAttribute behind name value spelling)
    (ends : endAttribute? behind = some rest) (done : IsDone rest) :
    SpellsList [(name, value)] (spelling ++ behind) := by
  apply SpellsList.last spelled
  rcases endAttribute?_eq_some_iff.1 ends with ⟨rfl, -⟩ | ⟨rfl, -⟩ | ⟨⟨c, others, rfl, blank⟩, rfl⟩
  · exact .blanks .nil
  · exact .slash
  · have whole := Text.takeWhile_append_trimStart (c :: others)
    have front := Text.blanks_takeWhile (c :: others)
    have nonempty : (c :: others).takeWhile Text.isBlank ≠ [] := by
      rw [List.takeWhile_cons_of_pos blank]
      exact List.cons_ne_nil _ _
    rcases isDone_iff.1 done with allBlank | ⟨before, after, blankBefore, blankAfter, same⟩
    · rw [← whole]
      exact .blanks (front.append allBlank)
    · rw [← whole, same, ← List.append_assoc]
      exact .blanksSlash (by simp [nonempty]) (front.append blankBefore) blankAfter

/-- An attribute in front of further ones belongs to one list with them. -/
theorem spellsList_of_spells {name value spelling behind rest : List Char}
    {others : List (List Char × List Char)} (spelled : SpellsAttribute behind name value spelling)
    (ends : endAttribute? behind = some rest) (further : Spells others rest) :
    SpellsList ((name, value) :: others) (spelling ++ behind) := by
  obtain ⟨blanks, list, blank, spelledList, rfl⟩ := further
  obtain ⟨c, more, rfl, -⟩ := spelledList.exists_cons
  rcases endAttribute?_eq_some_iff.1 ends with
    ⟨-, empty⟩ | ⟨-, empty⟩ | ⟨⟨first, tail, rfl, blankFirst⟩, same⟩
  · simp at empty
  · simp at empty
  · have whole := Text.takeWhile_append_trimStart (first :: tail)
    rw [← same, ← List.append_assoc] at whole
    rw [← whole] at spelled ⊢
    refine .more spelled ?_ ((Text.blanks_takeWhile _).append blank) spelledList
    rw [List.takeWhile_cons_of_pos blankFirst]
    exact List.cons_ne_nil _ _

/-- Reading gives up on every text that is neither done nor in the grammar. -/
theorem readAttributesFrom_eq_empty (found : Attributes) {text : List Char}
    (undone : ¬ IsDone text) (unspelled : ∀ pairs, ¬ Spells pairs text) :
    readAttributesFrom found text = .empty := by
  fun_induction readAttributesFrom found text with
  | case1 found text done => exact absurd done undone
  | case2 found text _ unread => rfl
  | case3 found text _ name value behind read shorter ih =>
    obtain ⟨blanks, source, spelling, ending, blank, spelled, ends, -, rfl⟩ :=
      spellsAttribute_of_readAttribute? read
    apply ih
    · intro done
      exact unspelled _ ⟨blanks, _, blank, spellsList_of_isDone spelled ends done, rfl⟩
    · intro others further
      exact unspelled _ ⟨blanks, _, blank, spellsList_of_spells spelled ends further, rfl⟩
  | case4 found text _ name value behind read longer => rfl

/-- The last value of a name in any case. -/
def lastValue? (pairs : List (List Char × List Char)) (key : List Char) : Option (List Char) :=
  (pairs.reverse.find? fun pair => pair.1.map Char.toLower == key).map (·.2)

/-- The attributes hold the last value of every name, and nothing else. -/
structure Attributes.Holds (attributes : Attributes) (pairs : List (List Char × List Char)) :
    Prop where
  /-- No name stands twice. -/
  nodup : (attributes.entries.map Prod.fst).Nodup
  /-- Every name has its last value. -/
  get?_eq : ∀ key, attributes.get? key = lastValue? pairs key

/-- The last value of a name is that in the rest of a list, if it stands there. -/
theorem lastValue?_cons (pair : List Char × List Char) (pairs : List (List Char × List Char))
    (key : List Char) :
    lastValue? (pair :: pairs) key =
      (lastValue? pairs key).or (if pair.1.map Char.toLower = key then some pair.2 else none) := by
  simp only [lastValue?, List.reverse_cons, List.find?_append, Option.map_or, List.find?_cons]
  by_cases same : pair.1.map Char.toLower = key
  · simp [same]
  · simp [same, beq_eq_false_iff_ne.2 same]

/-- A value that all attributes of a name have in common is its last one. -/
theorem lastValue?_eq_some {pairs : List (List Char × List Char)} {key value : List Char}
    (there : ∃ pair ∈ pairs, pair.1.map Char.toLower = key)
    (common : ∀ pair ∈ pairs, pair.1.map Char.toLower = key → pair.2 = value) :
    lastValue? pairs key = some value := by
  rw [lastValue?]
  cases found : pairs.reverse.find? fun pair => pair.1.map Char.toLower == key with
  | none =>
    obtain ⟨pair, mem, same⟩ := there
    have other := List.find?_eq_none.1 found pair (List.mem_reverse.2 mem)
    exact absurd (beq_iff_eq.2 same) other
  | some pair =>
    have mem : pair ∈ pairs := List.mem_reverse.1 (List.mem_of_find?_eq_some found)
    have same : pair.1.map Char.toLower = key := by simpa using List.find?_some found
    exact congrArg some (common pair mem same)

/-- A name without attributes has no last value. -/
theorem lastValue?_eq_none {pairs : List (List Char × List Char)} {key : List Char}
    (absent : ∀ pair ∈ pairs, pair.1.map Char.toLower ≠ key) : lastValue? pairs key = none := by
  have none : pairs.reverse.find? (fun pair => pair.1.map Char.toLower == key) = none :=
    List.find?_eq_none.2 fun pair mem => by simpa using absent pair (List.mem_reverse.1 mem)
  rw [lastValue?, none]
  rfl

/-- Setting a value changes that of its name alone. -/
theorem Attributes.get?_set (attributes : Attributes) (name value key : List Char) :
    (attributes.set name value).get? key =
      if name = key then some value else attributes.get? key := by
  have filtered : ∀ entries : List (List Char × List Char), name ≠ key →
      (entries.filter (·.1 != name)).lookup key = entries.lookup key := by
    intro entries other
    induction entries with
    | nil => rfl
    | cons entry others ih =>
      obtain ⟨first, content⟩ := entry
      by_cases same : first = name
      · subst same
        simp [ih, beq_eq_false_iff_ne.2 (Ne.symm other), List.lookup_cons]
      · simp [same, ih, List.lookup_cons]
  have absent : ∀ entries : List (List Char × List Char),
      (entries.filter (·.1 != name)).lookup name = none := by
    intro entries
    refine List.lookup_eq_none_iff.2 fun entry mem => ?_
    have other := bne_iff_ne.1 (List.mem_filter.1 mem).2
    simpa using Ne.symm other
  rw [get?, set, List.lookup_append]
  by_cases same : name = key
  · subst same
    simp [absent]
  · simp [same, filtered _ same, get?, List.lookup_cons, beq_eq_false_iff_ne.2 (Ne.symm same)]

/-- Setting a value keeps the names apart. -/
theorem Attributes.nodup_set {attributes : Attributes} (name value : List Char)
    (nodup : (attributes.entries.map Prod.fst).Nodup) :
    ((attributes.set name value).entries.map Prod.fst).Nodup := by
  have kept : ((attributes.entries.filter (·.1 != name)).map Prod.fst).Nodup :=
    nodup.sublist (List.filter_sublist.map _)
  rw [set, List.map_append, List.nodup_append]
  refine ⟨kept, by simp, ?_⟩
  intro first mem second single same
  obtain ⟨entry, filtered, rfl⟩ := List.mem_map.1 mem
  have other := bne_iff_ne.1 (List.mem_filter.1 filtered).2
  exact other (same.trans (List.mem_singleton.1 single))

/-- Once all values are set, every name has its last one, or the one it had before. -/
theorem Attributes.get?_setAll (attributes : Attributes)
    (pairs : List (List Char × List Char)) (key : List Char) :
    (attributes.setAll pairs).get? key = (lastValue? pairs key).or (attributes.get? key) := by
  induction pairs generalizing attributes with
  | nil => rfl
  | cons pair others ih =>
    rw [setAll, List.foldl_cons, ← setAll, ih, get?_set, lastValue?_cons, Option.or_assoc]
    split <;> simp

/-- Setting all values keeps the names apart. -/
theorem Attributes.nodup_setAll {attributes : Attributes} (pairs : List (List Char × List Char))
    (nodup : (attributes.entries.map Prod.fst).Nodup) :
    ((attributes.setAll pairs).entries.map Prod.fst).Nodup := by
  induction pairs generalizing attributes with
  | nil => exact nodup
  | cons pair others ih => exact ih (nodup_set _ _ nodup)

/-- A text of the grammar holds its attributes. -/
theorem holds_of_spells {pairs : List (List Char × List Char)} {text : List Char}
    (spelled : Spells pairs text) : (readAttributes text).Holds pairs := by
  obtain ⟨blanks, list, blank, spelledList, rfl⟩ := spelled
  rw [readAttributes, readAttributesFrom_of_spellsList spelledList .empty blank]
  refine ⟨Attributes.nodup_setAll pairs List.nodup_nil, fun key => ?_⟩
  rw [Attributes.get?_setAll]
  exact Option.or_none

/-- A text of the grammar holds exactly the attributes that it spells, and every other text holds
none. -/
theorem readAttributes_exact (text : List Char) :
    (∀ pairs, Spells pairs text → (readAttributes text).Holds pairs) ∧
      ((∀ pairs, ¬ Spells pairs text) → readAttributes text = .empty) := by
  refine ⟨fun pairs => holds_of_spells, fun unspelled => ?_⟩
  by_cases done : IsDone text
  · exact readAttributesFrom_of_isDone .empty done
  · exact readAttributesFrom_eq_empty .empty done unspelled

end AssetUsage.Markup
