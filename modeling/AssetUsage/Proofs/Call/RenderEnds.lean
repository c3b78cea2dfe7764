import AssetUsage.Proofs.Call.RenderArguments
import AssetUsage.Proofs.Call.RenderWords

/-!
# Text behind render calls

A line that ends with a character of no word is cut at its own render words and then at those of the
text behind it; only its last piece gets longer (`renderTexts_append_of_getLast?`). If the arguments
of that piece end at its last mark, they are the same behind which text ever, so the references of
the text behind come after those of the line and change none of them (`renderReferences_closed`).
-/

namespace AssetUsage.Call

open AssetUsage.Text (Blanks isBlank isWord)

/-- A longer text that is cut has the pieces of the text, the last one with more behind it, and then
those of what follows. -/
theorem cutAtRenderWords_append {c : Char} (outside : isWord c = false) {text : List Char}
    (last : text.getLast? = some c) (behind : List Char) :
    ∃ pieces piece lead, cutAtRenderWords text = pieces ++ [piece] ∧
      cutAtRenderWords (text ++ behind) = pieces ++ (piece ++ lead) :: renderTexts behind := by
  rw [cutAtRenderWords_eq text, cutAtRenderWords_eq (text ++ behind)]
  cases found : nextRenderWord? true text with
  | none =>
    rw [nextRenderWord?_append_of_none outside last found, renderTexts]
    cases later : nextRenderWord? false behind with
    | none => exact ⟨[], text, behind, rfl, rfl⟩
    | some result => exact ⟨[], text, result.1, rfl, rfl⟩
  | some result =>
    obtain ⟨before, rest⟩ := result
    have shorter := length_lt_of_nextRenderWord? found
    obtain ⟨longer, lastRest⟩ := nextRenderWord?_append_of_some outside last found behind
    obtain ⟨pieces, piece, lead, cut, cutLonger⟩ := cutAtRenderWords_append outside lastRest behind
    rw [longer]
    refine ⟨before :: pieces, piece, lead, ?_, ?_⟩
    · exact congrArg (before :: ·) cut
    · exact congrArg (before :: ·) cutLonger
termination_by text.length

/-- Cutting a text leaves at least one piece. -/
theorem cutAtRenderWords_ne_nil (text : List Char) : cutAtRenderWords text ≠ [] := by
  rw [cutAtRenderWords_eq]
  cases nextRenderWord? true text <;> exact List.cons_ne_nil _ _

/-- The last piece of a text that is cut stands at its end. -/
theorem suffix_of_cutAtRenderWords {text piece : List Char}
    (last : (cutAtRenderWords text).getLast? = some piece) : piece <:+ text := by
  rw [cutAtRenderWords_eq] at last
  cases found : nextRenderWord? true text with
  | none =>
    rw [found, List.getLast?_singleton, Option.some.injEq] at last
    exact last ▸ List.suffix_refl text
  | some result =>
    obtain ⟨before, rest⟩ := result
    have shorter := length_lt_of_nextRenderWord? found
    obtain ⟨word, -, rfl, -⟩ := exists_of_nextRenderWord? found
    have inside : piece <:+ rest := by
      refine suffix_of_cutAtRenderWords ?_
      rw [found] at last
      exact (List.getLast?_cons_of_ne_nil (cutAtRenderWords_ne_nil rest)).symm.trans last
    exact inside.trans ⟨before ++ word, by simp⟩
termination_by text.length

/-- The text behind the last render word of a line stands at its end. -/
theorem suffix_of_renderTexts {line text : List Char}
    (last : (renderTexts line).getLast? = some text) : text <:+ line := by
  unfold renderTexts at last
  split at last
  · contradiction
  · next before behind found =>
    obtain ⟨word, -, rfl, -⟩ := exists_of_nextRenderWord? found
    exact (suffix_of_cutAtRenderWords last).trans ⟨before ++ word, by simp⟩

/-- A longer line has the texts of the line, the last one with more behind it, and then those of
what follows. -/
theorem renderTexts_append_of_getLast? {c : Char} (outside : isWord c = false) {line : List Char}
    (last : line.getLast? = some c) {text : List Char}
    (lastText : (renderTexts line).getLast? = some text) (behind : List Char) :
    ∃ pieces lead, renderTexts line = pieces ++ [text] ∧
      renderTexts (line ++ behind) = pieces ++ (text ++ lead) :: renderTexts behind := by
  cases found : nextRenderWord? false line with
  | none =>
    rw [renderTexts, found] at lastText
    contradiction
  | some result =>
    obtain ⟨before, rest⟩ := result
    obtain ⟨longer, lastRest⟩ := nextRenderWord?_append_of_some outside last found behind
    obtain ⟨pieces, piece, lead, cut, cutLonger⟩ := cutAtRenderWords_append outside lastRest behind
    have texts : renderTexts line = pieces ++ [piece] := by rw [renderTexts, found, ← cut]
    have same : piece = text := by
      rw [texts, List.getLast?_concat] at lastText
      exact Option.some.inj lastText
    rw [← same]
    refine ⟨pieces, lead, texts, ?_⟩
    rw [renderTexts, longer, ← cutLonger]

/-- The text ends the arguments of a call: a closing bracket, a semicolon, the mark of a comment, or
the end of the code in a page. -/
inductive EndMark : List Char → Prop where
  | bracket {c : Char} (closes : c = ')' ∨ c = ']' ∨ c = '\x7d') : EndMark [c]
  | semicolon : EndMark [';']
  | comment : EndMark ['#']
  | page : EndMark ['%', '>']

/-- A mark ends with a visible character that belongs to no word and is no percent sign. -/
theorem EndMark.exists_getLast? {mark : List Char} (ends : EndMark mark) :
    ∃ c, mark.getLast? = some c ∧ isBlank c = false ∧ isWord c = false ∧ c ≠ '%' := by
  cases ends with
  | @bracket c closes => exact ⟨c, rfl, by rcases closes with rfl | rfl | rfl <;> decide⟩
  | semicolon => exact ⟨';', rfl, by decide⟩
  | comment => exact ⟨'#', rfl, by decide⟩
  | page => exact ⟨'>', rfl, by decide⟩

/-- Arguments that end in front of a mark are the same whatever follows the mark. -/
theorem callArguments_append_of_endMark {text mark : List Char} (ends : EndMark mark)
    (closes : text = callArguments text ++ mark) (behind : List Char) :
    callArguments (text ++ behind) = callArguments text := by
  obtain ⟨c, last, visible, -, noPercent⟩ := ends.exists_getLast?
  have nonempty : mark ≠ [] := by
    rintro rfl
    contradiction
  have lastText : text.getLast? = some c := by
    rw [closes, List.getLast?_append, last]
    rfl
  have notBlank : ¬ Blanks text := by
    intro blank
    rw [blank c (List.mem_of_getLast? lastText)] at visible
    contradiction
  have noPercentText : text.getLast? ≠ some '%' := by
    rw [lastText]
    exact fun same => noPercent (Option.some.inj same)
  have arguments := callArguments_append notBlank
  have alone := arguments []
  rw [List.append_nil] at alone
  rcases cutArguments_append noPercentText ((Text.trimStart text).head? == some '(') .code 0 with
    within | ⟨standing, depth, beyond⟩
  · rw [arguments, within, ← alone]
  · have reaches := beyond []
    rw [List.append_nil, cutArguments, List.append_nil, ← alone] at reaches
    rw [reaches] at closes
    exact absurd (List.append_right_eq_self.1 closes.symm) nonempty

/-- If the arguments of the last render call of a line end at the mark that closes the line, the
references of any text behind it come after those of the line, and a text in which `render` does not
occur adds none. -/
theorem renderReferences_closed {line text mark : List Char}
    (lastText : (renderTexts line).getLast? = some text) (ends : EndMark mark)
    (closes : text = callArguments text ++ mark) (behind : List Char) :
    renderReferences (line ++ behind) = renderReferences line ++ renderReferences behind ∧
      (¬ "render".toList <:+: behind →
        renderReferences (line ++ behind) = renderReferences line) := by
  obtain ⟨c, lastMark, -, outside, -⟩ := ends.exists_getLast?
  have last : line.getLast? = some c := by
    obtain ⟨front, rfl⟩ := suffix_of_renderTexts lastText
    rw [closes, List.getLast?_append, List.getLast?_append, lastMark]
    rfl
  have added : renderReferences (line ++ behind) =
      renderReferences line ++ renderReferences behind := by
    obtain ⟨pieces, lead, texts, longer⟩ :=
      renderTexts_append_of_getLast? outside last lastText behind
    have same := callArguments_append_of_endMark ends closes lead
    simp only [renderReferences, texts, longer, List.flatMap_append, List.flatMap_cons,
      List.flatMap_nil, List.append_nil, List.append_assoc, same]
  refine ⟨added, fun absent => ?_⟩
  rw [added, renderReferences_eq_nil absent, List.append_nil]

/-- Behind a call in a page, the options of other calls add nothing. -/
theorem renderReferences_closed_of_link :
    renderReferences
        "<%= render :partial => 'row' %> <%= link_to \"Show\", :action => 'show' %>".toList =
      [⟨.partialTemplate, "row".toList⟩] := by
  let line := "<%= render :partial => 'row' %>".toList
  let behind := " <%= link_to \"Show\", :action => 'show' %>".toList
  have lastText : (renderTexts line).getLast? = some " :partial => 'row' %>".toList := by
    decide +kernel
  have closes : " :partial => 'row' %>".toList =
      callArguments " :partial => 'row' %>".toList ++ ['%', '>'] := by decide +kernel
  have absent : ¬ "render".toList <:+: behind := by decide +kernel
  have same := (renderReferences_closed lastText .page closes behind).2 absent
  exact same.trans (by decide +kernel)

end AssetUsage.Call
