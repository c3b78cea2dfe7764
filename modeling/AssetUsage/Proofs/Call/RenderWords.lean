import AssetUsage.Call.Render
import AssetUsage.Proofs.Text.Runs
import Mathlib.Data.List.Basic

/-!
# Render words

A render word is `render`, or `render_` with more word characters behind it, that no word character
continues on either side (`HoldsRenderWord`). A character that belongs to no word separates: the
render words of a text around one are those of its two parts (`nextRenderWord?_append`). A line is
cut at its render words, so none of the pieces holds one (`nextRenderWord?_of_mem_renderTexts`).
-/

namespace AssetUsage.Call

open AssetUsage.Text (StopsAt isWord)

/-- The word opens a render call. -/
inductive IsRenderWord : List Char → Prop where
  | plain : IsRenderWord "render".toList
  | variant {suffix : List Char} (nonempty : suffix ≠ []) (word : ∀ c ∈ suffix, isWord c = true) :
    IsRenderWord ("render_".toList ++ suffix)

/-- A render word stands somewhere in the text, with no word character next to it. -/
def HoldsRenderWord (text : List Char) : Prop :=
  ∃ before word behind, IsRenderWord word ∧ text = before ++ (word ++ behind) ∧
    before.getLast?.any isWord = false ∧ StopsAt isWord behind

/-- A render word consists of word characters. -/
theorem IsRenderWord.isWord_of_mem {word : List Char} (render : IsRenderWord word) :
    ∀ c ∈ word, isWord c = true := by
  cases render with
  | plain => exact List.all_eq_true.1 (by decide +kernel)
  | variant nonempty inside =>
    exact List.forall_mem_append.2 ⟨List.all_eq_true.1 (by decide +kernel), inside⟩

/-- A render word starts with `render`. -/
theorem IsRenderWord.isPrefix {word : List Char} (render : IsRenderWord word) :
    "render".toList <+: word := by
  cases render with
  | plain => exact List.prefix_refl _
  | variant => exact ⟨_, rfl⟩

/-- A render word is not empty. -/
theorem IsRenderWord.ne_nil {word : List Char} (render : IsRenderWord word) : word ≠ [] := by
  rintro rfl
  exact absurd render.isPrefix (by decide)

/-- A render word is read up to the first character that continues no word. -/
theorem readRenderWord?_eq_some_iff {text behind : List Char} :
    readRenderWord? text = some behind ↔
      ∃ word, IsRenderWord word ∧ text = word ++ behind ∧ StopsAt isWord behind := by
  constructor
  · intro read
    unfold readRenderWord? at read
    split at read
    · next c rest found =>
      split at read
      · next inside =>
        obtain rfl := Option.some.inj read
        have start := List.isPrefixOf?_eq_some_iff_append_eq.1 found
        refine ⟨"render_".toList ++ c :: rest.takeWhile isWord, .variant (List.cons_ne_nil _ _) ?_,
          ?_, Text.stopsAt_dropWhile rest⟩
        · exact List.forall_mem_cons.2 ⟨inside, fun _ mem => List.mem_takeWhile_imp mem⟩
        · rw [← start, List.append_assoc, List.cons_append, List.takeWhile_append_dropWhile]
          rfl
      · contradiction
    · next c rest _ found =>
      split at read
      · contradiction
      · next outside =>
        obtain rfl := Option.some.inj read
        exact ⟨_, .plain, (List.isPrefixOf?_eq_some_iff_append_eq.1 found).symm,
          .cons (by simpa using outside)⟩
    · next found =>
      obtain rfl := Option.some.inj read
      exact ⟨_, .plain, (List.isPrefixOf?_eq_some_iff_append_eq.1 found).symm, .nil⟩
    · contradiction
  · rintro ⟨word, render, rfl, stops⟩
    cases render with
    | plain =>
      have found : "render".toList.isPrefixOf? ("render".toList ++ behind) = some behind :=
        List.isPrefixOf?_eq_some_iff_append_eq.2 rfl
      rw [readRenderWord?, found]
      cases behind with
      | nil => rfl
      | cons c rest =>
        have outside := stops c rest rfl
        have other : c ≠ '_' := by
          rintro rfl
          exact absurd outside (by decide +kernel)
        simp [outside, other]
    | @variant suffix nonempty inside =>
      obtain ⟨c, rest, rfl⟩ := List.exists_cons_of_ne_nil nonempty
      have found : "render".toList.isPrefixOf? ("render_".toList ++ (c :: rest) ++ behind) =
          some ('_' :: c :: (rest ++ behind)) :=
        List.isPrefixOf?_eq_some_iff_append_eq.2 (by simp)
      obtain ⟨first, others⟩ := List.forall_mem_cons.1 inside
      rw [readRenderWord?, found]
      simp only [first, ↓reduceIte, Text.dropWhile_run others stops]

/-- A render word at the front of a text is its first one. -/
theorem nextRenderWord?_of_isRenderWord {word behind : List Char} (render : IsRenderWord word)
    (stops : StopsAt isWord behind) :
    nextRenderWord? false (word ++ behind) = some ([], behind) := by
  have here := readRenderWord?_eq_some_iff.2 ⟨word, render, rfl, stops⟩
  obtain ⟨c, rest, rfl⟩ := List.exists_cons_of_ne_nil render.ne_nil
  rw [List.cons_append] at here ⊢
  simp only [nextRenderWord?, Bool.false_eq_true, ↓reduceIte, here]

/-- What follows a separator makes no difference to a render word in front of it. -/
theorem readRenderWord?_append {c : Char} (outside : isWord c = false) (before behind : List Char) :
    readRenderWord? (before ++ c :: behind) =
      (readRenderWord? before).map (· ++ c :: behind) := by
  cases read : readRenderWord? before with
  | some rest =>
    obtain ⟨word, render, rfl, stops⟩ := readRenderWord?_eq_some_iff.1 read
    refine readRenderWord?_eq_some_iff.2 ⟨word, render, by simp, ?_⟩
    cases rest with
    | nil => exact .cons outside
    | cons first others => exact .cons (stops first others rfl)
  | none =>
    refine Option.eq_none_iff_forall_ne_some.2 fun rest found => ?_
    obtain ⟨word, render, whole, stops⟩ := readRenderWord?_eq_some_iff.1 found
    obtain ⟨more, rfl, tail⟩ | ⟨more, rfl, tail⟩ := List.append_eq_append_iff.1 whole
    · cases more with
      | nil =>
        rw [List.append_nil] at render
        have here := readRenderWord?_eq_some_iff.2 ⟨before, render, (List.append_nil _).symm, .nil⟩
        rw [here] at read
        contradiction
      | cons first others =>
        obtain ⟨rfl, -⟩ := List.cons.inj tail
        have inside := render.isWord_of_mem c (List.mem_append_right _ List.mem_cons_self)
        rw [outside] at inside
        contradiction
    · have ends : StopsAt isWord more := by
        rintro first others rfl
        exact stops first (others ++ c :: behind) tail
      have here := readRenderWord?_eq_some_iff.2 ⟨word, render, rfl, ends⟩
      rw [here] at read
      contradiction

/-- The first render word, the text before it and the text behind it. -/
theorem exists_of_nextRenderWord? {inWord : Bool} {text before behind : List Char}
    (found : nextRenderWord? inWord text = some (before, behind)) :
    ∃ word, IsRenderWord word ∧ text = before ++ (word ++ behind) ∧ StopsAt isWord behind ∧
      (before.getLast?.map isWord).getD inWord = false := by
  induction text generalizing inWord before with
  | nil => contradiction
  | cons c rest ih =>
    rw [nextRenderWord?] at found
    split at found
    · next later here =>
      obtain ⟨rfl, rfl⟩ := Prod.mk.inj (Option.some.inj found)
      cases inWord with
      | true => contradiction
      | false =>
        obtain ⟨word, render, whole, stops⟩ := readRenderWord?_eq_some_iff.1 here
        exact ⟨word, render, whole, stops, rfl⟩
    · obtain ⟨⟨front, later⟩, inside, same⟩ := Option.map_eq_some_iff.1 found
      obtain ⟨rfl, rfl⟩ := Prod.mk.inj same
      obtain ⟨word, render, rfl, stops, apart⟩ := ih inside
      refine ⟨word, render, rfl, stops, ?_⟩
      rw [List.getLast?_cons]
      cases last : front.getLast? <;> rw [last] at apart <;> exact apart

/-- A text in which the word does not occur holds no render word. -/
theorem nextRenderWord?_eq_none {text : List Char} (absent : ¬ "render".toList <:+: text)
    (inWord : Bool) : nextRenderWord? inWord text = none := by
  refine Option.eq_none_iff_forall_ne_some.2 fun ⟨before, behind⟩ found => absent ?_
  obtain ⟨word, render, rfl, -⟩ := exists_of_nextRenderWord? found
  exact render.isPrefix.isInfix.trans ⟨before, behind, List.append_assoc ..⟩

/-- Around a separator, the first render word is that of the text in front of it, and if there is
none, that of the text behind it. -/
theorem nextRenderWord?_append {c : Char} (outside : isWord c = false) (inWord : Bool)
    (before behind : List Char) :
    nextRenderWord? inWord (before ++ c :: behind) =
      ((nextRenderWord? inWord before).map fun found => (found.1, found.2 ++ c :: behind)).or
        ((nextRenderWord? false behind).map fun found => (before ++ c :: found.1, found.2)) := by
  induction before generalizing inWord with
  | nil =>
    have here : readRenderWord? (c :: behind) = none := readRenderWord?_append outside [] behind
    have step : nextRenderWord? inWord (c :: behind) =
        (nextRenderWord? false behind).map fun found => (c :: found.1, found.2) := by
      rw [nextRenderWord?, here, ite_self, outside]
    exact step
  | cons first others ih =>
    have here := readRenderWord?_append outside (first :: others) behind
    rw [List.cons_append] at here ⊢
    rw [nextRenderWord?, nextRenderWord?, here, ih]
    cases inWord with
    | true =>
      simp only [↓reduceIte]
      cases nextRenderWord? (isWord first) others <;>
        cases nextRenderWord? false behind <;> rfl
    | false =>
      simp only [Bool.false_eq_true, ↓reduceIte]
      cases readRenderWord? (first :: others) <;>
        cases nextRenderWord? (isWord first) others <;>
          cases nextRenderWord? false behind <;> rfl

/-- Around a separator, there is a render word exactly if one of the two parts has one. -/
theorem nextRenderWord?_append_eq_none_iff {c : Char} (outside : isWord c = false) {inWord : Bool}
    {before behind : List Char} :
    nextRenderWord? inWord (before ++ c :: behind) = none ↔
      nextRenderWord? inWord before = none ∧ nextRenderWord? false behind = none := by
  rw [nextRenderWord?_append outside, Option.or_eq_none_iff, Option.map_eq_none_iff,
    Option.map_eq_none_iff]

section Separators

variable {c : Char} (outside : isWord c = false) {front : List Char}
  (last : front.getLast? = some c) {inWord : Bool}
include outside last

/-- The first render word of a text that ends with a separator stays the first one in a longer
text. -/
theorem nextRenderWord?_append_of_some {before rest : List Char}
    (found : nextRenderWord? inWord front = some (before, rest)) (behind : List Char) :
    nextRenderWord? inWord (front ++ behind) = some (before, rest ++ behind) ∧
      rest.getLast? = some c := by
  obtain ⟨others, rfl⟩ := List.getLast?_eq_some_iff.1 last
  have nothing : nextRenderWord? false [] = none := rfl
  rw [nextRenderWord?_append outside, nothing, Option.map_none, Option.or_none,
    Option.map_eq_some_iff] at found
  obtain ⟨⟨lead, left⟩, inside, same⟩ := found
  obtain ⟨rfl, rfl⟩ := Prod.mk.inj same
  constructor
  · rw [List.append_assoc, List.singleton_append, nextRenderWord?_append outside, inside]
    simp
  · exact List.getLast?_concat

/-- If a text that ends with a separator holds no render word, the first one behind it is that of
the text that follows. -/
theorem nextRenderWord?_append_of_none (absent : nextRenderWord? inWord front = none)
    (behind : List Char) :
    nextRenderWord? inWord (front ++ behind) =
      (nextRenderWord? false behind).map fun found => (front ++ found.1, found.2) := by
  obtain ⟨others, rfl⟩ := List.getLast?_eq_some_iff.1 last
  have noneBefore := ((nextRenderWord?_append_eq_none_iff outside).1 absent).1
  rw [List.append_assoc, List.singleton_append, nextRenderWord?_append outside, noneBefore]
  simp

/-- Behind a text that ends with a separator, the text that follows is searched on its own. -/
theorem nextRenderWord?_append_of_getLast? {text : List Char} :
    nextRenderWord? inWord (front ++ text) = none ↔
      nextRenderWord? inWord front = none ∧ nextRenderWord? false text = none := by
  cases found : nextRenderWord? inWord front with
  | none =>
    rw [nextRenderWord?_append_of_none outside last found, Option.map_eq_none_iff]
    exact (and_iff_right rfl).symm
  | some result =>
    rw [(nextRenderWord?_append_of_some outside last found text).1]
    exact ⟨nofun, fun absent => absurd absent.1 nofun⟩

/-- A render word behind a separator is the first one if there is none in front of it. -/
theorem nextRenderWord?_append_word (none : nextRenderWord? inWord front = none)
    {word behind : List Char} (render : IsRenderWord word) (stops : StopsAt isWord behind) :
    nextRenderWord? inWord (front ++ (word ++ behind)) = some (front, behind) := by
  rw [nextRenderWord?_append_of_none outside last none,
    nextRenderWord?_of_isRenderWord render stops, Option.map_some, List.append_nil]

end Separators

/-- There is no render word in front of the first one. -/
theorem nextRenderWord?_before {inWord : Bool} {text before behind : List Char}
    (found : nextRenderWord? inWord text = some (before, behind)) :
    nextRenderWord? inWord before = none := by
  obtain ⟨word, render, rfl, stops, apart⟩ := exists_of_nextRenderWord? found
  rcases List.eq_nil_or_concat before with rfl | ⟨front, c, rfl⟩
  · rfl
  · rw [List.concat_eq_append] at found apart ⊢
    have outside : isWord c = false := by simpa using apart
    rw [List.append_assoc, List.singleton_append, nextRenderWord?_append outside] at found
    refine (nextRenderWord?_append_eq_none_iff outside).2 ⟨?_, rfl⟩
    refine Option.eq_none_iff_forall_ne_some.2 fun ⟨earlier, rest⟩ inside => ?_
    rw [inside] at found
    have same : earlier = front ++ [c] := congrArg Prod.fst (Option.some.inj found)
    obtain ⟨_, -, whole, -⟩ := exists_of_nextRenderWord? inside
    have lengths := congrArg List.length whole
    simp [same] at lengths

/-- The text has a render word exactly if one is found in it. -/
theorem nextRenderWord?_eq_none_iff {text : List Char} :
    nextRenderWord? false text = none ↔ ¬ HoldsRenderWord text := by
  constructor
  · rintro none ⟨before, word, behind, render, rfl, apart, stops⟩
    have here := nextRenderWord?_of_isRenderWord render stops
    rcases List.eq_nil_or_concat before with rfl | ⟨front, c, rfl⟩
    · rw [List.nil_append, here] at none
      contradiction
    · rw [List.concat_eq_append] at none apart
      have outside : isWord c = false := by simpa using apart
      rw [List.append_assoc, List.singleton_append] at none
      have later := ((nextRenderWord?_append_eq_none_iff outside).1 none).2
      rw [here] at later
      contradiction
  · intro absent
    refine Option.eq_none_iff_forall_ne_some.2 fun ⟨before, behind⟩ found => absent ?_
    obtain ⟨word, render, whole, stops, apart⟩ := exists_of_nextRenderWord? found
    refine ⟨before, word, behind, render, whole, ?_, stops⟩
    cases last : before.getLast? <;> rw [last] at apart <;> exact apart

instance (text : List Char) : Decidable (HoldsRenderWord text) :=
  decidable_of_iff (nextRenderWord? false text ≠ none)
    ((not_congr nextRenderWord?_eq_none_iff).trans not_not)

/-- A word is searched as a whole. -/
theorem nextRenderWord?_of_isWord {word : List Char} (inside : ∀ c ∈ word, isWord c = true) :
    nextRenderWord? false word = none ↔ ¬ IsRenderWord word := by
  constructor
  · intro none render
    have found := nextRenderWord?_of_isRenderWord render .nil
    rw [List.append_nil, none] at found
    contradiction
  · intro other
    refine Option.eq_none_iff_forall_ne_some.2 fun ⟨before, behind⟩ found => other ?_
    obtain ⟨render, isRender, rfl, stops, apart⟩ := exists_of_nextRenderWord? found
    have noneBehind : behind = [] := by
      cases behind with
      | nil => rfl
      | cons c rest =>
        have outside := stops c rest rfl
        rw [inside c (by simp)] at outside
        contradiction
    have noneBefore : before = [] := by
      rcases List.eq_nil_or_concat before with rfl | ⟨front, c, rfl⟩
      · rfl
      · have outside : isWord c = false := by simpa using apart
        rw [inside c (by simp)] at outside
        contradiction
    rwa [noneBefore, noneBehind, List.nil_append, List.append_nil]

section Marks

variable {marks : List Char} (outside : ∀ c ∈ marks, isWord c = false)
include outside

/-- Without word characters there is no render word. -/
theorem nextRenderWord?_of_marks (inWord : Bool) : nextRenderWord? inWord marks = none := by
  refine Option.eq_none_iff_forall_ne_some.2 fun ⟨before, behind⟩ found => ?_
  obtain ⟨word, render, rfl, -⟩ := exists_of_nextRenderWord? found
  obtain ⟨c, rest, rfl⟩ := List.exists_cons_of_ne_nil render.ne_nil
  have inside := render.isWord_of_mem c List.mem_cons_self
  rw [outside c (by simp)] at inside
  contradiction

/-- In front of a text, characters that belong to no word make no difference. -/
theorem nextRenderWord?_marks_append (nonempty : marks ≠ []) (inWord : Bool) (text : List Char) :
    nextRenderWord? inWord (marks ++ text) = none ↔ nextRenderWord? false text = none := by
  obtain ⟨front, c, rfl⟩ := (List.eq_nil_or_concat marks).resolve_left nonempty
  rw [List.concat_eq_append] at outside ⊢
  obtain ⟨others, last⟩ := List.forall_mem_append.1 outside
  rw [List.append_assoc, List.singleton_append,
    nextRenderWord?_append_eq_none_iff (last c List.mem_cons_self)]
  exact and_iff_right (nextRenderWord?_of_marks others inWord)

/-- Behind a text, characters that belong to no word make no difference. -/
theorem nextRenderWord?_append_marks (inWord : Bool) (text : List Char) :
    nextRenderWord? inWord (text ++ marks) = none ↔ nextRenderWord? inWord text = none := by
  cases marks with
  | nil => rw [List.append_nil]
  | cons c rest =>
    obtain ⟨first, others⟩ := List.forall_mem_cons.1 outside
    rw [nextRenderWord?_append_eq_none_iff first]
    exact and_iff_left (nextRenderWord?_of_marks others false)

end Marks

/-- What follows the first render word is shorter than the text. -/
theorem length_lt_of_nextRenderWord? {inWord : Bool} {text before behind : List Char}
    (found : nextRenderWord? inWord text = some (before, behind)) :
    behind.length < text.length := by
  obtain ⟨word, render, rfl, -⟩ := exists_of_nextRenderWord? found
  have positive := List.length_pos_iff.2 render.ne_nil
  simp only [List.length_append]
  omega

/-- A line is cut behind its first render word and in front of each further one. -/
theorem cutAtRenderWords_eq (text : List Char) :
    cutAtRenderWords text =
      match nextRenderWord? true text with
      | none => [text]
      | some (before, behind) => before :: cutAtRenderWords behind := by
  rw [cutAtRenderWords]
  cases found : nextRenderWord? true text with
  | none => rfl
  | some result =>
    exact if_pos (length_lt_of_nextRenderWord? found)

/-- No piece of a text that is cut at its render words holds one. -/
theorem nextRenderWord?_of_mem_cutAtRenderWords {text piece : List Char}
    (mem : piece ∈ cutAtRenderWords text) : nextRenderWord? true piece = none := by
  rw [cutAtRenderWords_eq] at mem
  cases found : nextRenderWord? true text with
  | none =>
    rw [found] at mem
    exact List.mem_singleton.1 mem ▸ found
  | some result =>
    obtain ⟨before, behind⟩ := result
    have shorter := length_lt_of_nextRenderWord? found
    rw [found] at mem
    rcases List.mem_cons.1 mem with rfl | later
    · exact nextRenderWord?_before found
    · exact nextRenderWord?_of_mem_cutAtRenderWords later
termination_by text.length

/-- The texts behind the render words of a line hold none themselves. -/
theorem nextRenderWord?_of_mem_renderTexts {line piece : List Char}
    (mem : piece ∈ renderTexts line) : nextRenderWord? true piece = none := by
  unfold renderTexts at mem
  split at mem
  · contradiction
  · exact nextRenderWord?_of_mem_cutAtRenderWords mem

/-- A line in which the word does not occur names nothing in render calls. -/
theorem renderReferences_eq_nil {line : List Char} (absent : ¬ "render".toList <:+: line) :
    renderReferences line = [] := by
  rw [renderReferences, renderTexts, nextRenderWord?_eq_none absent]
  rfl

section Lines

variable {word behind : List Char} (render : IsRenderWord word) (stops : StopsAt isWord behind)
include render stops

/-- Behind a render word at the front, a line is cut at its further ones. -/
theorem renderTexts_append : renderTexts (word ++ behind) = cutAtRenderWords behind := by
  rw [renderTexts, nextRenderWord?_of_isRenderWord render stops]

/-- A line with one render word, at its front, is not cut again. -/
theorem renderTexts_of_single (none : nextRenderWord? true behind = none) :
    renderTexts (word ++ behind) = [behind] := by
  rw [renderTexts_append render stops, cutAtRenderWords_eq, none]

/-- A line with one further render word is cut in front of it. -/
theorem renderTexts_of_second {c : Char} (outside : isWord c = false) {front : List Char}
    (last : front.getLast? = some c) (none : nextRenderWord? true front = none)
    {second rest : List Char} (renderSecond : IsRenderWord second)
    (stopsSecond : StopsAt isWord rest) (noneBehind : nextRenderWord? true rest = Option.none)
    (same : behind = front ++ (second ++ rest)) :
    renderTexts (word ++ behind) = [front, rest] := by
  have found := nextRenderWord?_append_word outside last none renderSecond stopsSecond
  have single : cutAtRenderWords rest = [rest] := by rw [cutAtRenderWords_eq, noneBehind]
  rw [renderTexts_append render stops, cutAtRenderWords_eq, same, found]
  exact congrArg (front :: ·) single

end Lines

end AssetUsage.Call
