import AssetUsage.Proofs.Style.QuotedImages
import AssetUsage.Style

/-!
# Quoted imports

A stylesheet imports another one by its name in quotes, bare or in `url`. The name is read up to its
first character that ends a bare name, and the closing quote is never asked for: behind the part
that is read the line is searched on (`exists_importedNames_importLine`).
-/

namespace AssetUsage.Style

open AssetUsage.Text

/-- What may stand between the word of an import and the quote: nothing, or `url(` and blanks. -/
inductive IsImportOpening : List Char → Prop where
  | bare : IsImportOpening []
  | url {inside : List Char} (blank : Blanks inside) : IsImportOpening ("url(".toList ++ inside)

/-- The word of an import. -/
def importWord : List Char := "@import".toList

/-- An import of a quoted name, with the text behind the closing quote. -/
def importLine (blanks opening : List Char) (quote : Char) (reference behind : List Char) :
    List Char :=
  importWord ++ (blanks ++ (opening ++ quote :: (reference ++ quote :: behind)))

/-- The line imports the reference in quotes, and nothing starts an import behind them. -/
inductive QuotesImport (reference : List Char) : List Char → Prop where
  | intro {blanks opening behind : List Char} {quote : Char} (apart : blanks ≠ [])
    (blank : Blanks blanks) (opens : IsImportOpening opening) (quotes : isQuote quote = true)
    (alone : '@' ∉ behind) :
    QuotesImport reference (importLine blanks opening quote reference behind)

/-- What is read as the name of a quoted import: the reference up to its first character that ends a
bare name, or what opens the quoted name where nothing stands in front of that character. -/
def importFront (opening reference : List Char) : List Char :=
  match reference.takeWhile isImportChar with
  | [] => opening.takeWhile isImportChar
  | front => front

/-- What is left of the reference of a quoted import from its first character on that ends a bare
name. -/
def importRest (reference : List Char) : List Char := reference.dropWhile isImportChar

section Plain

variable {reference : List Char} (plain : ∀ c ∈ reference, isImportChar c = true)
include plain

/-- A reference that could stand bare is read whole. -/
theorem importFront_of_forall (nonempty : reference ≠ []) (opening : List Char) :
    importFront opening reference = reference := by
  obtain ⟨c, rest, rfl⟩ := List.exists_cons_of_ne_nil nonempty
  rw [importFront, List.takeWhile_eq_self_iff.2 plain]

/-- Nothing is left of a reference that could stand bare. -/
theorem importRest_of_forall : importRest reference = [] := List.dropWhile_eq_nil_iff.2 plain

end Plain

/-- No quote can stand in an imported name. -/
theorem isImportChar_of_isQuote {c : Char} (quote : isQuote c = true) : isImportChar c = false := by
  simp [isImportChar, quote]

/-- The word of an import starts with its sign. -/
theorem importWord_append (text : List Char) :
    importWord ++ text = '@' :: ("import".toList ++ text) := rfl

/-- An import starts with its word. -/
theorem readsFrom_readImport? : ReadsFrom readImport? '@' := readsFrom_of_word

section Name

variable {quote : Char} (quotes : isQuote quote = true) (reference behind : List Char)
include quotes

/-- A name behind a quote ends in front of the closing quote at the latest. -/
theorem readImportName?_of_quote :
    readImportName? (quote :: (reference ++ quote :: behind)) =
      if reference.takeWhile isImportChar = [] then none
      else some (reference.takeWhile isImportChar, importRest reference ++ quote :: behind) := by
  have ends : StopsAt isImportChar (importRest reference ++ quote :: behind) :=
    (stopsAt_dropWhile reference).append (.cons (isImportChar_of_isQuote quotes))
  have whole : reference ++ quote :: behind =
      reference.takeWhile isImportChar ++ (importRest reference ++ quote :: behind) := by
    rw [importRest, ← List.append_assoc, List.takeWhile_append_dropWhile]
  have inside : ∀ c ∈ reference.takeWhile isImportChar, isImportChar c = true :=
    fun _ => List.mem_takeWhile_imp
  simp only [readImportName?, if_pos quotes, whole, takeWhile_run inside ends,
    dropWhile_run inside ends]
  cases reference.takeWhile isImportChar with
  | nil => rfl
  | cons c rest => rw [if_neg (List.cons_ne_nil c rest)]

/-- Where no name can be read behind the quote, `url(` itself is read as the name. -/
theorem readImportName?_of_url {inside text : List Char} (blank : Blanks inside) :
    readImportName? ("url(".toList ++ (inside ++ quote :: text)) =
      some ("url(".toList, inside ++ quote :: text) := by
  have ends : StopsAt isImportChar (inside ++ quote :: text) :=
    .append_of_blanks (by decide +kernel) (.cons (isImportChar_of_isQuote quotes)) blank
  have named : ∀ c ∈ "url(".toList, isImportChar c = true := List.all_eq_true.1 (by decide)
  have plain : isQuote 'u' = false := by decide
  have whole : "url(".toList ++ (inside ++ quote :: text) =
      'u' :: ("rl(".toList ++ (inside ++ quote :: text)) := rfl
  rw [whole, readImportName?]
  simp only [plain, Bool.false_eq_true, ↓reduceIte]
  rw [← whole, takeWhile_run named ends, dropWhile_run named ends]
  rfl

end Name

/-- Behind the closing quote nothing is imported where no further import starts. -/
theorem importedNames_closing {quote : Char} {behind : List Char} (quotes : isQuote quote = true)
    (alone : '@' ∉ behind) : importedNames (quote :: behind) = [] := by
  rcases eq_or_eq_of_isQuote quotes with rfl | rfl <;>
    exact readsFrom_readImport?.findAll_eq_nil_of_notMem (by simp [alone])

section ImportLine

variable {blanks : List Char} {quote : Char} (apart : blanks ≠ []) (blank : Blanks blanks)
  (quotes : isQuote quote = true)
include apart blank

/-- Behind the word of an import and blanks the name is read, in `url` if this is there. -/
theorem readImport?_of_blanks {operand : List Char} (stops : StopsAt isBlank operand) :
    readImport? none (importWord ++ (blanks ++ operand)) =
      (("url(".toList.isPrefixOf? operand).bind fun inside =>
        readImportName? (trimStart inside)).or (readImportName? operand) := by
  have start : "@import".toList.isPrefixOf? (importWord ++ (blanks ++ operand)) =
      some (blanks ++ operand) := List.isPrefixOf?_eq_some_iff_append_eq.2 rfl
  have trimmed : trimStart (blanks ++ operand) = operand := by
    rw [trimStart_append blank, trimStart_of_stopsAt stops]
  have first : (blanks ++ operand).head?.any isBlank = true := by
    obtain ⟨c, rest, rfl⟩ := List.exists_cons_of_ne_nil apart
    exact blank c List.mem_cons_self
  simp only [readImport?, start, Option.bind_eq_bind, Option.bind_some, first, ↓reduceIte, trimmed]
  cases "url(".toList.isPrefixOf? operand with
  | none => rfl
  | some inside => rfl

include quotes

/-- A bare quoted name is read behind its quote. -/
theorem readImport?_bare (text : List Char) :
    readImport? none (importWord ++ (blanks ++ quote :: text)) =
      readImportName? (quote :: text) := by
  have noUrl : "url(".toList.isPrefixOf? (quote :: text) = none := by
    rcases eq_or_eq_of_isQuote quotes with rfl | rfl <;> rfl
  rw [readImport?_of_blanks apart blank (.cons (isBlank_of_isQuote quotes)), noUrl,
    Option.bind_none, Option.none_or]

/-- A quoted name in `url` is read behind its quote, or else `url(` is read as the name. -/
theorem readImport?_url {inside : List Char} (blankInside : Blanks inside) (text : List Char) :
    readImport? none (importWord ++ (blanks ++ ("url(".toList ++ (inside ++ quote :: text)))) =
      (readImportName? (quote :: text)).or (some ("url(".toList, inside ++ quote :: text)) := by
  have start : "url(".toList.isPrefixOf? ("url(".toList ++ (inside ++ quote :: text)) =
      some (inside ++ quote :: text) := List.isPrefixOf?_eq_some_iff_append_eq.2 rfl
  have trimmed : trimStart (inside ++ quote :: text) = quote :: text := by
    rw [trimStart_append blankInside, trimStart_of_stopsAt (.cons (isBlank_of_isQuote quotes))]
  have visible : StopsAt isBlank ("url(".toList ++ (inside ++ quote :: text)) := .cons (by decide)
  rw [readImport?_of_blanks apart blank visible, start, Option.bind_some, trimmed,
    readImportName?_of_url quotes blankInside]

/-- The quoted name is read up to its first character that ends a bare name, in either opening. -/
theorem readImport?_importLine {opening reference : List Char} (opens : IsImportOpening opening)
    (started : reference.takeWhile isImportChar ≠ []) (behind : List Char) :
    readImport? none (importLine blanks opening quote reference behind) =
      some (reference.takeWhile isImportChar, importRest reference ++ quote :: behind) := by
  have read : readImportName? (quote :: (reference ++ quote :: behind)) =
      some (reference.takeWhile isImportChar, importRest reference ++ quote :: behind) := by
    rw [readImportName?_of_quote quotes, if_neg started]
  cases opens with
  | bare => rw [importLine, List.nil_append, readImport?_bare apart blank quotes, read]
  | url blankInside =>
    rw [importLine, List.append_assoc, readImport?_url apart blank quotes blankInside, read,
      Option.some_or]

/-- Where nothing is read behind the quote, only `url(` is found, and the line is searched on. -/
theorem exists_importedNames_of_nil {opening reference : List Char}
    (opens : IsImportOpening opening) (stopped : reference.takeWhile isImportChar = [])
    (behind : List Char) :
    ∃ found, ReadFor found (importFront opening reference) ∧
      importedNames (importLine blanks opening quote reference behind) =
        found ++ importedNames (reference ++ quote :: behind) := by
  have read : readImportName? (quote :: (reference ++ quote :: behind)) = none := by
    rw [readImportName?_of_quote quotes, if_pos stopped]
  have noBlank : '@' ∉ blanks := blank.notMem (by decide)
  rw [importFront, stopped]
  cases opens with
  | bare =>
    refine ⟨[], ⟨fun _ mem => absurd mem List.not_mem_nil, fun _ => .nil⟩, ?_⟩
    have unread := readImport?_bare apart blank quotes (reference ++ quote :: behind)
    rw [read, importWord_append] at unread
    have passed : '@' ∉ "import".toList ++ (blanks ++ [quote]) := by
      rcases eq_or_eq_of_isQuote quotes with rfl | rfl <;> simp [noBlank]
    calc
      _ = findAll readImport? ('@' :: ("import".toList ++
          (blanks ++ quote :: (reference ++ quote :: behind)))) := by
        rw [← importWord_append]
        rfl
      _ = findAll readImport? (("import".toList ++ (blanks ++ [quote])) ++
          (reference ++ quote :: behind)) := by
        rw [readsFrom_readImport?.findAll_cons_of_none unread]
        simp
      _ = [] ++ findAll readImport? (reference ++ quote :: behind) :=
        readsFrom_readImport?.findAll_append_of_notMem passed
  | @url inside blankInside =>
    have named : ("url(".toList ++ inside).takeWhile isImportChar = "url(".toList :=
      takeWhile_run (List.all_eq_true.1 (by decide))
        (List.append_nil inside ▸ .append_of_blanks (by decide +kernel) .nil blankInside)
    refine ⟨["url(".toList], .singleton (by rw [named]), ?_⟩
    have taken := readImport?_url apart blank quotes blankInside (reference ++ quote :: behind)
    rw [read, Option.none_or, ← List.append_assoc, ← List.append_assoc] at taken
    have passed : '@' ∉ inside ++ [quote] := by
      have noInside : '@' ∉ inside := blankInside.notMem (by decide)
      rcases eq_or_eq_of_isQuote quotes with rfl | rfl <;> simp [noInside]
    calc
      _ = findAll readImport? (((importWord ++ blanks) ++ "url(".toList) ++
          (inside ++ quote :: (reference ++ quote :: behind))) := by
        simp [importedNames, importLine]
      _ = "url(".toList :: findAll readImport? ((inside ++ [quote]) ++
          (reference ++ quote :: behind)) := by
        rw [readsFrom_readImport?.findAll_of_read (by simp) taken]
        simp
      _ = ["url(".toList] ++ findAll readImport? (reference ++ quote :: behind) := by
        rw [readsFrom_readImport?.findAll_append_of_notMem passed]
        rfl

/-- The name of a quoted import is read up to its first character that ends a bare name, and behind
that the line is searched on. -/
theorem exists_importedNames_importLine {opening : List Char} (opens : IsImportOpening opening)
    (reference behind : List Char) :
    ∃ found, ReadFor found (importFront opening reference) ∧
      importedNames (importLine blanks opening quote reference behind) =
        found ++ importedNames (importRest reference ++ quote :: behind) := by
  have split : reference.takeWhile isImportChar ++ importRest reference = reference :=
    List.takeWhile_append_dropWhile
  by_cases stopped : reference.takeWhile isImportChar = []
  · have whole : importRest reference = reference := by rwa [stopped] at split
    rw [whole]
    exact exists_importedNames_of_nil apart blank quotes opens stopped behind
  · have front : importFront opening reference = reference.takeWhile isImportChar := by
      rw [importFront]
      split
      · contradiction
      · rfl
    have line : importLine blanks opening quote reference behind =
        (importWord ++ (blanks ++ (opening ++ quote :: reference.takeWhile isImportChar))) ++
          (importRest reference ++ quote :: behind) := by
      conv_lhs => rw [← split]
      simp [importLine]
    have read := readImport?_importLine apart blank quotes opens stopped behind
    rw [line] at read
    rw [front, importedNames, line]
    exact ⟨[reference.takeWhile isImportChar], .singleton rfl,
      readsFrom_readImport?.findAll_of_read (by simp) read⟩

end ImportLine

end AssetUsage.Style
