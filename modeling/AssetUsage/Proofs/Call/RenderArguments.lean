import AssetUsage.Call.Render
import AssetUsage.Proofs.Text.Runs

/-!
# The arguments of render calls

What a reader has passed says where it stands, so the end of the arguments behind a text depends on
that text only by where it leaves the reader (`cutArguments_append`). Quoted text leaves it where it
was, and so do brackets with balanced text between them (`Bracketed.passes`).
-/

namespace AssetUsage.Call

open AssetUsage.Text (Blanks isBlank isQuote isWord)

/-- A character ends the arguments or leads on from where the reader stands, whatever follows it;
the character behind a percent sign counts. -/
theorem cutArguments_step (parenthesized : Bool) (standing : Standing) (depth : Nat) (c : Char)
    (next : Option Char) :
    (∀ rest, c ≠ '%' ∨ rest.head? = next →
      cutArguments parenthesized standing depth (c :: rest) = []) ∨
    ∃ standing' depth', ∀ rest, c ≠ '%' ∨ rest.head? = next →
      cutArguments parenthesized standing depth (c :: rest) =
        c :: cutArguments parenthesized standing' depth' rest := by
  cases standing with
  | escaped quote => exact .inr ⟨.quoted quote, depth, fun _ _ => rfl⟩
  | quoted quote =>
    refine .inr ?_
    simp only [cutArguments]
    split_ifs with escape closes
    · exact ⟨.escaped quote, depth, fun _ _ => rfl⟩
    · exact ⟨.code, depth, fun _ _ => rfl⟩
    · exact ⟨.quoted quote, depth, fun _ _ => rfl⟩
  | code =>
    simp only [cutArguments]
    split_ifs with quote opens closes outermost ends
    · exact .inr ⟨.quoted c, depth, fun _ _ => rfl⟩
    · exact .inr ⟨.code, depth + 1, fun _ _ => rfl⟩
    · exact .inl fun _ _ => rfl
    · exact .inr ⟨.code, depth - 1, fun _ _ => rfl⟩
    · exact .inl fun _ _ => rfl
    · by_cases leaves : c = '%' ∧ next = some '>'
      · refine .inl fun rest same => if_pos ⟨leaves.1, ?_⟩
        rw [same.resolve_left (not_not_intro leaves.1), leaves.2]
      · refine .inr ⟨.code, depth, fun rest same => if_neg fun ⟨percent, follows⟩ => leaves ?_⟩
        exact ⟨percent, same.resolve_left (not_not_intro percent) ▸ follows⟩

/-- The arguments end within a text, whatever follows it, or the reader goes on behind it; a percent
sign at the end of the text leaves this open. -/
theorem cutArguments_append {text : List Char} (noPercent : text.getLast? ≠ some '%')
    (parenthesized : Bool) (standing : Standing) (depth : Nat) :
    (∀ rest, cutArguments parenthesized standing depth (text ++ rest) =
      cutArguments parenthesized standing depth text) ∨
    ∃ standing' depth', ∀ rest, cutArguments parenthesized standing depth (text ++ rest) =
      text ++ cutArguments parenthesized standing' depth' rest := by
  induction text generalizing standing depth with
  | nil => exact .inr ⟨standing, depth, fun _ => rfl⟩
  | cons c text ih =>
    have next : ∀ rest, c ≠ '%' ∨ (text ++ rest).head? = text.head? := by
      intro rest
      cases text with
      | nil => exact .inl fun percent => noPercent (by rw [percent]; rfl)
      | cons => exact .inr rfl
    have noPercentLater : text.getLast? ≠ some '%' := fun last =>
      noPercent (by rw [List.getLast?_cons, last]; rfl)
    rcases cutArguments_step parenthesized standing depth c text.head? with
      ends | ⟨standing, depth, step⟩
    · exact .inl fun rest => (ends _ (next rest)).trans (ends _ (.inr rfl)).symm
    · have here := fun rest => step (text ++ rest) (next rest)
      rcases ih noPercentLater standing depth with within | ⟨standing, depth, behind⟩
      · refine .inl fun rest => ?_
        rw [List.cons_append, here, within, step text (.inr rfl)]
      · refine .inr ⟨standing, depth, fun rest => ?_⟩
        rw [List.cons_append, here, behind, List.cons_append]

/-- The arguments stand at the front of the text. -/
theorem cutArguments_isPrefix (parenthesized : Bool) (standing : Standing) (depth : Nat)
    (text : List Char) : cutArguments parenthesized standing depth text <+: text := by
  induction text generalizing standing depth with
  | nil => exact List.nil_prefix
  | cons c rest ih =>
    rcases cutArguments_step parenthesized standing depth c rest.head? with
      ends | ⟨standing, depth, step⟩
    · rw [ends rest (.inr rfl)]
      exact List.nil_prefix
    · rw [step rest (.inr rfl)]
      exact List.cons_prefix_cons.2 ⟨rfl, ih standing depth⟩

/-- The arguments of a call stand at the start of the text behind it. -/
theorem callArguments_isPrefix (text : List Char) : callArguments text <+: text :=
  cutArguments_isPrefix _ _ _ text

/-- The first visible character says whether a call has parentheses. -/
theorem callArguments_append {front : List Char} (visible : ¬ Blanks front) (text : List Char) :
    callArguments (front ++ text) =
      cutArguments ((Text.trimStart front).head? == some '(') .code 0 (front ++ text) := by
  have nonempty : Text.trimStart front ≠ [] := mt Text.trimStart_eq_nil_iff.1 visible
  have first : (Text.trimStart (front ++ text)).head? = (Text.trimStart front).head? := by
    unfold Text.trimStart at nonempty ⊢
    rw [List.dropWhile_append, if_neg (by simpa [List.isEmpty_iff] using nonempty)]
    obtain ⟨c, rest, start⟩ := List.exists_cons_of_ne_nil nonempty
    rw [start]
    rfl
  rw [callArguments, first]

/-- The reader comes out of the text as it went in, outside of quotes and as many brackets deep. -/
def Passes (parenthesized : Bool) (depth : Nat) (text : List Char) : Prop :=
  ∀ rest, cutArguments parenthesized .code depth (text ++ rest) =
    text ++ cutArguments parenthesized .code depth rest

/-- The character opens or closes brackets. -/
def isBracket (c : Char) : Bool := c ∈ ['(', ')', '[', ']', '{', '}']

/-- The character neither ends arguments outside of quotes nor changes where a reader stands. -/
def isPlain (c : Char) : Bool :=
  !isQuote c && !isBracket c && c != ';' && c != '#' && c != '%'

/-- A plain character is neither a quote, a bracket, nor one of `;`, `#` and `%`. -/
theorem isPlain_iff {c : Char} : isPlain c = true ↔
    isQuote c = false ∧ isBracket c = false ∧ (c ≠ ';' ∧ c ≠ '#') ∧ c ≠ '%' := by
  simp [isPlain, and_assoc]

/-- The text may stand between two quotes of the given kind: such a quote in it and a backslash
follow a backslash. -/
inductive QuotedText (quote : Char) : List Char → Prop where
  | nil : QuotedText quote []
  | plain {c : Char} {text : List Char} (other : c ≠ quote) (noEscape : c ≠ '\\')
    (rest : QuotedText quote text) : QuotedText quote (c :: text)
  | escaped {c : Char} {text : List Char} (rest : QuotedText quote text) :
    QuotedText quote ('\\' :: c :: text)

/-- Characters that are neither quotes of the kind nor backslashes may stand between quotes. -/
theorem QuotedText.of_forall {quote : Char} {text : List Char}
    (plain : ∀ c ∈ text, c ≠ quote ∧ c ≠ '\\') : QuotedText quote text := by
  induction text with
  | nil => exact .nil
  | cons c rest ih =>
    obtain ⟨first, others⟩ := List.forall_mem_cons.1 plain
    exact .plain first.1 first.2 (ih others)

section Passing

variable {parenthesized : Bool} {depth : Nat}

/-- A reader that passes over two texts passes over the one behind the other. -/
theorem Passes.append {front text : List Char} (first : Passes parenthesized depth front)
    (second : Passes parenthesized depth text) : Passes parenthesized depth (front ++ text) := by
  intro rest
  rw [List.append_assoc, first, second, List.append_assoc]

/-- A character outside of quotes that is no bracket and ends no arguments is passed. -/
theorem cutArguments_code {c : Char} {rest : List Char} (noQuote : isQuote c = false)
    (noBracket : isBracket c = false) (inside : 0 < depth ∨ (c ≠ ';' ∧ c ≠ '#'))
    (stays : c ≠ '%' ∨ rest.head? ≠ some '>') :
    cutArguments parenthesized .code depth (c :: rest) =
      c :: cutArguments parenthesized .code depth rest := by
  have others : ¬ (c = '(' ∨ c = '[' ∨ c = '{') ∧ ¬ (c = ')' ∨ c = ']' ∨ c = '}') := by
    constructor <;> rintro (rfl | rfl | rfl) <;> contradiction
  have goesOn : ¬ (depth = 0 ∧ (c = ';' ∨ c = '#')) := by
    rintro ⟨rfl, rfl | rfl⟩ <;> simp at inside
  have inTemplate : ¬ (c = '%' ∧ rest.head? = some '>') := fun ⟨percent, follows⟩ =>
    stays.elim (· percent) (· follows)
  simp only [cutArguments, noQuote, Bool.false_eq_true, if_false, others, goesOn, inTemplate]

/-- Plain characters are passed. -/
theorem passes_of_plain {text : List Char} (plain : ∀ c ∈ text, isPlain c = true) :
    Passes parenthesized depth text := by
  intro rest
  induction text with
  | nil => rfl
  | cons c text ih =>
    obtain ⟨first, others⟩ := List.forall_mem_cons.1 plain
    obtain ⟨noQuote, noBracket, inside, noPercent⟩ := isPlain_iff.1 first
    rw [List.cons_append, cutArguments_code noQuote noBracket (.inr inside) (.inl noPercent),
      ih others, List.cons_append]

/-- Within quotes the reader stays within quotes. -/
theorem QuotedText.cutArguments_append {quote : Char} {text : List Char}
    (quoted : QuotedText quote text) (rest : List Char) :
    cutArguments parenthesized (.quoted quote) depth (text ++ rest) =
      text ++ cutArguments parenthesized (.quoted quote) depth rest := by
  induction quoted with
  | nil => rfl
  | plain other noEscape _ ih =>
    simp only [List.cons_append, cutArguments, noEscape, other, if_false, ih]
  | escaped _ ih =>
    simp only [List.cons_append, cutArguments, if_true, ih]

/-- Quoted text is passed. -/
theorem QuotedText.passes {quote : Char} {text : List Char} (quoted : QuotedText quote text)
    (quotes : isQuote quote = true) :
    Passes parenthesized depth (quote :: (text ++ [quote])) := by
  intro rest
  have noEscape : quote ≠ '\\' := by
    rintro rfl
    contradiction
  have closing : cutArguments parenthesized (.quoted quote) depth (quote :: rest) =
      quote :: cutArguments parenthesized .code depth rest := by
    simp only [cutArguments, noEscape, if_true, if_false]
  have opening : cutArguments parenthesized .code depth (quote :: (text ++ quote :: rest)) =
      quote :: cutArguments parenthesized (.quoted quote) depth (text ++ quote :: rest) := by
    simp only [cutArguments, quotes, if_true]
  rw [List.cons_append, List.append_assoc, List.singleton_append, opening,
    quoted.cutArguments_append, closing, List.cons_append, List.append_assoc, List.singleton_append]

end Passing

/-- The arguments of a call go on behind this text, outside of quotes and inside of the parentheses
of the call. -/
def GoesBeyond (front : List Char) : Prop :=
  ∃ parenthesized depth, (parenthesized = true → 0 < depth) ∧
    ∀ text, callArguments (front ++ text) = front ++ cutArguments parenthesized .code depth text

/-- A text that is passed does not end the arguments. -/
theorem GoesBeyond.append {front text : List Char} (beyond : GoesBeyond front)
    (passes : ∀ {parenthesized depth}, Passes parenthesized depth text) :
    GoesBeyond (front ++ text) := by
  obtain ⟨parenthesized, depth, deep, reached⟩ := beyond
  refine ⟨parenthesized, depth, deep, fun rest => ?_⟩
  rw [List.append_assoc, reached, passes, List.append_assoc]

/-- A text behind which the arguments go on belongs to them. -/
theorem GoesBeyond.callArguments_eq {front : List Char} (beyond : GoesBeyond front) :
    callArguments front = front := by
  obtain ⟨parenthesized, depth, -, reached⟩ := beyond
  have whole := reached []
  rwa [List.append_nil, cutArguments, List.append_nil] at whole

/-- The brackets go together. -/
inductive BracketPair : Char → Char → Prop where
  | round : BracketPair '(' ')'
  | square : BracketPair '[' ']'
  | curly : BracketPair '{' '}'

/-- Code in which brackets and quotes are balanced and no `%>` stands outside of quotes. -/
inductive Balanced : List Char → Prop where
  | nil : Balanced []
  | other {c : Char} {text : List Char} (noQuote : isQuote c = false)
    (noBracket : isBracket c = false) (stays : c ≠ '%' ∨ text.head? ≠ some '>')
    (rest : Balanced text) : Balanced (c :: text)
  | quoted {quote : Char} {inside text : List Char} (quotes : isQuote quote = true)
    (quoted : QuotedText quote inside) (rest : Balanced text) :
    Balanced (quote :: (inside ++ [quote]) ++ text)
  | bracketed {opening closing : Char} {inside text : List Char}
    (pair : BracketPair opening closing) (balanced : Balanced inside) (rest : Balanced text) :
    Balanced (opening :: (inside ++ [closing]) ++ text)

/-- Plain characters may stand in front of balanced code. -/
theorem Balanced.plain_append {front text : List Char} (plain : front.all isPlain = true)
    (balanced : Balanced text) : Balanced (front ++ text) := by
  induction front with
  | nil => exact balanced
  | cons c rest ih =>
    obtain ⟨first, others⟩ : isPlain c = true ∧ rest.all isPlain = true := by simpa using plain
    obtain ⟨noQuote, noBracket, -, noPercent⟩ := isPlain_iff.1 first
    exact .other noQuote noBracket (.inl noPercent) (ih others)

/-- Balanced code between two brackets that go together. -/
def Bracketed (text : List Char) : Prop :=
  ∃ opening closing inside, BracketPair opening closing ∧ Balanced inside ∧
    text = opening :: (inside ++ [closing])

section Brackets

variable {parenthesized : Bool} {depth : Nat}

/-- Brackets are passed with what is passed between them, unless they are those of the call. -/
theorem passes_bracketed {opening closing : Char} {inside : List Char}
    (pair : BracketPair opening closing) (deep : parenthesized = true → 0 < depth)
    (passes : ∀ rest, rest.head? ≠ some '>' →
      cutArguments parenthesized .code (depth + 1) (inside ++ rest) =
        inside ++ cutArguments parenthesized .code (depth + 1) rest) :
    Passes parenthesized depth (opening :: (inside ++ [closing])) := by
  intro rest
  have opens : ∀ text, cutArguments parenthesized .code depth (opening :: text) =
      opening :: cutArguments parenthesized .code (depth + 1) text := by
    intro text
    cases pair <;> rfl
  have notLast : ¬ (depth + 1 = 0 ∨ (depth + 1 = 1 ∧ parenthesized = true)) := by
    rintro (zero | ⟨one, enclosed⟩)
    · omega
    · have positive := deep enclosed
      omega
  have closes : cutArguments parenthesized .code (depth + 1) (closing :: rest) =
      closing :: cutArguments parenthesized .code depth rest := by
    cases pair <;> exact if_neg notLast
  have noPercent : (closing :: rest).head? ≠ some '>' := by cases pair <;> simp
  rw [List.cons_append, List.append_assoc, List.singleton_append, opens, passes _ noPercent, closes,
    List.cons_append, List.append_assoc, List.singleton_append]

/-- Within brackets balanced code is passed. -/
theorem Balanced.cutArguments_append {text : List Char} (balanced : Balanced text)
    (deep : 0 < depth) (rest : List Char) (noPercent : rest.head? ≠ some '>') :
    cutArguments parenthesized .code depth (text ++ rest) =
      text ++ cutArguments parenthesized .code depth rest := by
  induction balanced generalizing depth rest with
  | nil => rfl
  | @other c text noQuote noBracket stays _ ih =>
    have inTemplate : c ≠ '%' ∨ (text ++ rest).head? ≠ some '>' := by
      cases text with
      | nil => exact .inr noPercent
      | cons => exact stays
    rw [List.cons_append, cutArguments_code noQuote noBracket (.inl deep) inTemplate,
      ih deep rest noPercent, List.cons_append]
  | quoted quotes quoted _ ih =>
    rw [List.append_assoc, quoted.passes quotes, ih deep rest noPercent, List.append_assoc]
  | bracketed pair _ _ ihInside ih =>
    have brackets := passes_bracketed pair (fun _ => deep) (ihInside (Nat.succ_pos depth))
    rw [List.append_assoc, brackets, ih deep rest noPercent, List.append_assoc]

/-- Brackets with balanced code between them are passed, unless they are those of the call. -/
theorem Bracketed.passes {text : List Char} (bracketed : Bracketed text)
    (deep : parenthesized = true → 0 < depth) : Passes parenthesized depth text := by
  obtain ⟨opening, closing, inside, pair, balanced, rfl⟩ := bracketed
  exact passes_bracketed pair deep (balanced.cutArguments_append (Nat.succ_pos depth))

end Brackets

end AssetUsage.Call
