import AssetUsage.Proofs.Text.Places
import AssetUsage.Proofs.Text.Runs
import AssetUsage.Style

/-!
# Quoted images

A stylesheet names an image in quotes as the argument of `url` or as a background. A background is
read up to its closing quote (`imageNames_backgroundLine`). The argument of `url` is read up to its
first closing parenthesis, in quotes as well as bare, and behind that the line is searched on
(`exists_imageNames_urlLine`).
-/

namespace AssetUsage.Style

open AssetUsage.Text

/-- A quoted argument of `url`, with blanks around it in the parentheses. -/
def urlLine (before : List Char) (quote : Char) (reference behind : List Char) : List Char :=
  "url(".toList ++ (before ++ quote :: (reference ++ quote :: (behind ++ [')'])))

/-- The properties that show an image. -/
def backgroundProperties : List (List Char) := ["background", "background-image"].map String.toList

/-- A property with a quoted value, with blanks around the colon. -/
def backgroundLine (property before behind : List Char) (quote : Char) (reference : List Char) :
    List Char :=
  property ++ (before ++ ':' :: (behind ++ quote :: (reference ++ [quote])))

/-- The line names an image by the reference in quotes. -/
inductive QuotesImage (reference : List Char) : List Char → Prop where
  | url {before behind : List Char} {quote : Char} (blankBefore : Blanks before)
    (blankBehind : Blanks behind) (quotes : isQuote quote = true) :
    QuotesImage reference (urlLine before quote reference behind)
  | background {property before behind : List Char} {quote : Char}
    (listed : property ∈ backgroundProperties) (blankBefore : Blanks before)
    (blankBehind : Blanks behind) (quotes : isQuote quote = true) :
    QuotesImage reference (backgroundLine property before behind quote reference)

/-- What is read of a reference in `url`: the part in front of its first closing parenthesis. -/
def urlFront (reference : List Char) : List Char := reference.takeWhile (· != ')')

/-- What is left of a reference in `url` behind its first closing parenthesis. -/
def urlRest (reference : List Char) : List Char := (reference.dropWhile (· != ')')).tail

/-- Without the closing character, every character is another one. -/
theorem forall_bne_of_notMem {text : List Char} {close : Char} (absent : close ∉ text) :
    ∀ c ∈ text, (c != close) = true := by
  intro c mem
  simpa using fun same : c = close => absent (same ▸ mem)

/-- Without a closing parenthesis a reference is read whole. -/
theorem urlFront_of_notMem {reference : List Char} (absent : ')' ∉ reference) :
    urlFront reference = reference :=
  List.takeWhile_eq_self_iff.2 (forall_bne_of_notMem absent)

/-- Without a closing parenthesis nothing is left of a reference. -/
theorem urlRest_of_notMem {reference : List Char} (absent : ')' ∉ reference) :
    urlRest reference = [] := by
  rw [urlRest, List.dropWhile_eq_nil_iff.2 (forall_bne_of_notMem absent), List.tail_nil]

/-- No quote can stand in the argument of `url`. -/
theorem isUrlChar_of_isQuote {c : Char} (quote : isQuote c = true) : isUrlChar c = false := by
  simp [isUrlChar, quote]

/-- Blanks can stand in the argument of `url`. -/
theorem isUrlChar_of_isBlank {c : Char} (blank : isBlank c = true) : isUrlChar c = true :=
  of_isBlank isUrlChar (by decide +kernel) blank

/-- A text with neither quotes nor closing parentheses can be an argument of `url`. -/
theorem forall_isUrlChar {text : List Char} (plain : ∀ c ∈ text, isQuote c = false)
    (absent : ')' ∉ text) : ∀ c ∈ text, isUrlChar c = true := by
  intro c mem
  have other : c ≠ ')' := fun same => absent (same ▸ mem)
  simp [isUrlChar, plain c mem, other]

/-- A `url` starts with its word. -/
theorem readsFrom_readUrl? : ReadsFrom readUrl? 'u' := readsFrom_of_word

/-- A background starts with the name of a property. -/
theorem readsFrom_readBackground? : ReadsFrom readBackground? 'b' := readsFrom_of_word

/-- An argument of `url` in front of a closing parenthesis is read without the blanks at its end. -/
theorem readUrlArgument?_of_parenthesis {front behind : List Char} (nonempty : front ≠ [])
    (inside : ∀ c ∈ front, isUrlChar c = true) :
    readUrlArgument? (front ++ ')' :: behind) = some (bareArgument front, behind) := by
  have stops : StopsAt isUrlChar (')' :: behind) := .cons (by decide)
  obtain ⟨c, rest, rfl⟩ := List.exists_cons_of_ne_nil nonempty
  rw [readUrlArgument?, takeWhile_run inside stops, dropWhile_run inside stops]
  rfl

/-- An argument of `url` in front of a quote, blanks and a closing parenthesis is read whole. -/
theorem readUrlArgument?_of_quote {front blanks behind : List Char} {quote : Char}
    (nonempty : front ≠ []) (inside : ∀ c ∈ front, isUrlChar c = true)
    (quotes : isQuote quote = true) (blank : Blanks blanks) :
    readUrlArgument? (front ++ quote :: (blanks ++ ')' :: behind)) = some (front, behind) := by
  have stops : StopsAt isUrlChar (quote :: (blanks ++ ')' :: behind)) :=
    .cons (isUrlChar_of_isQuote quotes)
  have closing : trimStart (blanks ++ ')' :: behind) = ')' :: behind := by
    rw [trimStart_append blank, trimStart_of_stopsAt (.cons (by decide))]
  obtain ⟨c, rest, rfl⟩ := List.exists_cons_of_ne_nil nonempty
  rw [readUrlArgument?, takeWhile_run inside stops, dropWhile_run inside stops]
  rcases eq_or_eq_of_isQuote quotes with rfl | rfl <;> simp [closing]

/-- An argument of `url` is not empty. -/
theorem readUrlArgument?_of_stopsAt {text : List Char} (stops : StopsAt isUrlChar text) :
    readUrlArgument? text = none := by
  rw [readUrlArgument?, stops.takeWhile_eq_nil]

/-- An argument of `url` is followed by a closing parenthesis. -/
theorem mem_of_readUrlArgument? {text behind : List Char} {value : List Char}
    (read : readUrlArgument? text = some (value, behind)) : ')' ∈ text := by
  have left := List.dropWhile_suffix isUrlChar (l := text)
  unfold readUrlArgument? at read
  split at read
  · contradiction
  · next same _ =>
    rw [same] at left
    exact left.subset List.mem_cons_self
  · next closing _ same _ =>
    rw [same] at left
    split at read
    · next behind trimmed =>
      have more : ')' :: behind <:+ closing := trimmed ▸ List.dropWhile_suffix isBlank
      exact left.subset (List.mem_cons_of_mem _ (more.subset List.mem_cons_self))
    · contradiction
  · contradiction

/-- A quoted argument of `url` is read behind its quote, or else from the last blank in front of the
quote on. -/
theorem readUrlInside?_of_quote {blanks text : List Char} {quote : Char} (blank : Blanks blanks)
    (quotes : isQuote quote = true) :
    readUrlInside? (blanks ++ quote :: text) =
      (readUrlArgument? text).or
        (blanks.getLast?.bind fun last => readUrlArgument? (last :: quote :: text)) := by
  have stops : StopsAt isBlank (quote :: text) := .cons (isBlank_of_isQuote quotes)
  have operand : trimStart (blanks ++ quote :: text) = quote :: text := by
    rw [trimStart_append blank, trimStart_of_stopsAt stops]
  have unread : readUrlArgument? (quote :: text) = none :=
    readUrlArgument?_of_stopsAt (.cons (isUrlChar_of_isQuote quotes))
  simp only [readUrlInside?, operand, takeWhile_run blank stops, if_pos quotes, unread,
    Option.or_none]
  cases blanks.getLast? <;> rfl

/-- A `url` ends with a closing parenthesis. -/
theorem mem_of_readUrl? {before : Option Char} {text value behind : List Char}
    (read : readUrl? before text = some (value, behind)) : ')' ∈ text := by
  obtain ⟨inside, start, read⟩ := Option.bind_eq_some_iff.1 read
  have whole : inside <:+ text :=
    ⟨_, List.isPrefixOf?_eq_some_iff_append_eq.1 start⟩
  have operand : trimStart inside <:+ inside := List.dropWhile_suffix isBlank
  refine whole.subset (operand.subset ?_)
  unfold readUrlInside? at read
  rcases Option.or_eq_some_iff.1 read with read | ⟨-, read⟩
  · rcases Option.or_eq_some_iff.1 read with read | ⟨-, read⟩
    · split at read
      · next c rest same =>
        split at read
        · rw [same]
          exact List.mem_cons_of_mem _ (mem_of_readUrlArgument? read)
        · contradiction
      · contradiction
    · exact mem_of_readUrlArgument? read
  · split at read
    · next last found =>
      have blank : isBlank last = true :=
        List.mem_takeWhile_imp (List.mem_of_getLast? found)
      rcases List.mem_cons.1 (mem_of_readUrlArgument? read) with rfl | mem
      · contradiction
      · exact mem
    · contradiction

/-- Without a closing parenthesis no `url` is found. -/
theorem findAll_readUrl?_of_notMem {text : List Char} (absent : ')' ∉ text) :
    findAll readUrl? text = [] := by
  refine List.eq_nil_iff_forall_not_mem.2 fun name mem => ?_
  obtain ⟨front, rest, behind, rfl, read⟩ := exists_of_mem_findAll mem
  exact absent (List.mem_append_right _ (mem_of_readUrl? read))

/-- A background is a quoted value somewhere in the text. -/
theorem exists_suffix_of_readBackground? {before : Option Char} {text : List Char}
    {found : List Char × List Char} (read : readBackground? before text = some found) :
    ∃ rest, rest <:+ text ∧ readBetweenQuotes? rest = some found := by
  obtain ⟨named, start, read⟩ := Option.bind_eq_some_iff.1 read
  have afterWord : named <:+ text := ⟨_, List.isPrefixOf?_eq_some_iff_append_eq.1 start⟩
  have afterName : ("-image".toList.isPrefixOf? named).getD named <:+ named := by
    cases longer : "-image".toList.isPrefixOf? named with
    | none => exact List.suffix_refl named
    | some behind => exact ⟨_, List.isPrefixOf?_eq_some_iff_append_eq.1 longer⟩
  have trimmed : ∀ text, trimStart text <:+ text := fun _ => List.dropWhile_suffix isBlank
  dsimp only at read
  split at read
  · next rest colon =>
    refine ⟨trimStart rest, ?_, read⟩
    have afterColon : rest <:+ ("-image".toList.isPrefixOf? named).getD named :=
      (List.suffix_cons ':' rest).trans (colon ▸ trimmed _)
    exact (trimmed rest).trans (afterColon.trans (afterName.trans afterWord))
  · contradiction

/-- A background has two quotes at least. -/
theorem two_le_countP_of_readBackground? {before : Option Char} {text value behind : List Char}
    (read : readBackground? before text = some (value, behind)) : 2 ≤ text.countP isQuote := by
  obtain ⟨rest, ⟨front, rfl⟩, quoted⟩ := exists_suffix_of_readBackground? read
  obtain ⟨quote, closing, opens, closes, -, rfl⟩ := readBetweenQuotes?_eq_some_iff.1 quoted
  simp only [List.countP_append, List.countP_cons_of_pos opens, List.countP_cons_of_pos closes]
  omega

/-- With fewer than two quotes no background is found. -/
theorem findAll_readBackground?_of_countP {text : List Char} (few : text.countP isQuote < 2) :
    findAll readBackground? text = [] := by
  refine List.eq_nil_iff_forall_not_mem.2 fun name mem => ?_
  obtain ⟨front, rest, behind, rfl, read⟩ := exists_of_mem_findAll mem
  have two := two_le_countP_of_readBackground? read
  rw [List.countP_append] at few
  omega

/-- What is read behind `url(` is found, and the line is searched on behind it. -/
theorem findAll_readUrl?_of_read {front behind value : List Char}
    (read : readUrlInside? (front ++ behind) = some (value, behind)) :
    findAll readUrl? ("url(".toList ++ (front ++ behind)) = value :: findAll readUrl? behind := by
  have start : "url(".toList.isPrefixOf? ("url(".toList ++ (front ++ behind)) =
      some (front ++ behind) := List.isPrefixOf?_eq_some_iff_append_eq.2 rfl
  have readHere : readUrl? none ("url(".toList ++ (front ++ behind)) = some (value, behind) := by
    rw [readUrl?, start, Option.bind_some, read]
  rw [← List.append_assoc] at readHere ⊢
  exact readsFrom_readUrl?.findAll_of_read (by simp) readHere

/-- The blanks at the end of a bare argument make no difference. -/
theorem trim_bareArgument (argument : List Char) :
    trim (bareArgument argument) = trim argument := by
  cases argument with
  | nil => rfl
  | cons c rest =>
    obtain ⟨blanks, blank, whole⟩ := exists_append_trimEnd rest
    have split : bareArgument (c :: rest) ++ blanks = c :: rest := congrArg (c :: ·) whole
    rw [← trim_append blank, split]

/-- The names are read for the reference: they differ from it by blanks around it, and only blanks
may have no name. -/
structure ReadFor (names : List (List Char)) (reference : List Char) : Prop where
  same : ∀ name ∈ names, trim name = trim reference
  named : names = [] → Blanks reference

/-- One name is read for the reference that it differs from by blanks around it. -/
theorem ReadFor.singleton {name reference : List Char} (same : trim name = trim reference) :
    ReadFor [name] reference :=
  ⟨fun _ mem => List.mem_singleton.1 mem ▸ same, fun empty => absurd empty (List.cons_ne_nil _ _)⟩

/-- A text without the first letters of `url` and of the properties names no images. -/
theorem imageNames_of_notMem {text : List Char} (noUrl : 'u' ∉ text) (noProperty : 'b' ∉ text) :
    imageNames text = [] := by
  rw [imageNames, readsFrom_readUrl?.findAll_eq_nil_of_notMem noUrl,
    readsFrom_readBackground?.findAll_eq_nil_of_notMem noProperty, List.append_nil]

/-- A line with fewer than two quotes names only images in `url`. -/
theorem imageNames_of_countP {text : List Char} (few : text.countP isQuote < 2) :
    imageNames text = findAll readUrl? text := by
  rw [imageNames, findAll_readBackground?_of_countP few, List.append_nil]

/-- Around one character without quotes there are fewer than two. -/
theorem countP_isQuote_lt_two {front behind : List Char} (quote : Char)
    (plainFront : ∀ c ∈ front, isQuote c = false) (plainBehind : ∀ c ∈ behind, isQuote c = false) :
    (front ++ quote :: behind).countP isQuote < 2 := by
  have noneFront : front.countP isQuote = 0 := List.countP_eq_zero.2 (by simpa using plainFront)
  have noneBehind : behind.countP isQuote = 0 := List.countP_eq_zero.2 (by simpa using plainBehind)
  rw [List.countP_append, List.countP_cons, noneFront, noneBehind]
  split <;> decide

/-- What closes a quoted argument behind its quote holds no further quote. -/
theorem isQuote_closing {behind : List Char} (blankBehind : Blanks behind) :
    ∀ c ∈ behind ++ [')'], isQuote c = false := by
  intro c mem
  rcases List.mem_append.1 mem with mem | mem
  · refine Bool.eq_false_iff.2 fun quotes => ?_
    have visible := isBlank_of_isQuote quotes
    rw [blankBehind c mem] at visible
    contradiction
  · obtain rfl := List.mem_singleton.1 mem
    decide

/-- What closes a quoted argument names no images. -/
theorem imageNames_closing {behind : List Char} {quote : Char} (quotes : isQuote quote = true)
    (blankBehind : Blanks behind) : imageNames (quote :: (behind ++ [')'])) = [] := by
  have noUrl : 'u' ∉ behind := blankBehind.notMem (by decide)
  have noProperty : 'b' ∉ behind := blankBehind.notMem (by decide)
  rcases eq_or_eq_of_isQuote quotes with rfl | rfl <;>
    exact imageNames_of_notMem (by simp [noUrl]) (by simp [noProperty])

/-- Without a closing parenthesis a quoted value names no image in `url`. -/
theorem imageNames_value {reference : List Char} {quote : Char} (quotes : isQuote quote = true)
    (fits : FitsQuotes reference) (absent : ')' ∉ reference) :
    imageNames (reference ++ [quote]) = [] := by
  have few := countP_isQuote_lt_two quote fits.2 (fun _ mem => absurd mem List.not_mem_nil)
  have noClosing : ')' ∉ reference ++ [quote] := by
    rcases eq_or_eq_of_isQuote quotes with rfl | rfl <;> simp [absent]
  rw [imageNames_of_countP few, findAll_readUrl?_of_notMem noClosing]

/-- A parenthesis directly behind the quote closes an argument only behind a blank. -/
theorem exists_findAll_readUrl?_of_parenthesis {before : List Char} {quote : Char}
    (blankBefore : Blanks before) (quotes : isQuote quote = true) (left : List Char) :
    ∃ found, ReadFor found [] ∧
      findAll readUrl? ("url(".toList ++ (before ++ quote :: ')' :: left)) =
        found ++ findAll readUrl? left := by
  have unread : readUrlArgument? (')' :: left) = none :=
    readUrlArgument?_of_stopsAt (.cons (by decide))
  cases last : before.getLast? with
  | some blank =>
    have isBlank := blankBefore blank (List.mem_of_getLast? last)
    have inside : ∀ c ∈ [blank], isUrlChar c = true := fun c mem =>
      List.mem_singleton.1 mem ▸ isUrlChar_of_isBlank isBlank
    have readBlank : readUrlArgument? ([blank] ++ quote :: ([] ++ ')' :: left)) =
        some ([blank], left) :=
      readUrlArgument?_of_quote (List.cons_ne_nil _ _) inside quotes .nil
    have split : before ++ quote :: ')' :: left = (before ++ [quote, ')']) ++ left := by simp
    refine ⟨[[blank]], .singleton ?_, ?_⟩
    · rw [trim_eq_nil_iff.2 (fun c mem => List.mem_singleton.1 mem ▸ isBlank)]
      rfl
    · rw [split]
      refine findAll_readUrl?_of_read ?_
      rw [← split, readUrlInside?_of_quote blankBefore quotes, unread, Option.none_or, last,
        Option.bind_some]
      exact readBlank
  | none =>
    obtain rfl := List.getLast?_eq_none_iff.1 last
    refine ⟨[], ⟨fun _ mem => absurd mem List.not_mem_nil, fun _ => .nil⟩, ?_⟩
    have start : readUrl? none ('u' :: ("rl(".toList ++ quote :: ')' :: left)) = none := by
      change readUrlInside? ([] ++ quote :: ')' :: left) = none
      rw [readUrlInside?_of_quote blankBefore quotes, unread]
      rfl
    have passed : 'u' ∉ "rl(".toList ++ [quote, ')'] := by
      rcases eq_or_eq_of_isQuote quotes with rfl | rfl <;> decide
    calc
      _ = findAll readUrl? ('u' :: ("rl(".toList ++ quote :: ')' :: left)) := rfl
      _ = findAll readUrl? (("rl(".toList ++ [quote, ')']) ++ left) := by
        rw [readsFrom_readUrl?.findAll_cons_of_none start, List.append_assoc]
        rfl
      _ = [] ++ findAll readUrl? left := readsFrom_readUrl?.findAll_append_of_notMem passed

section UrlLine

variable {before behind reference : List Char} {quote : Char} (blankBefore : Blanks before)
  (quotes : isQuote quote = true) (fits : FitsQuotes reference)
include blankBefore quotes fits

/-- Without a closing parenthesis the argument is read whole. -/
theorem findAll_readUrl?_urlLine_of_notMem (blankBehind : Blanks behind)
    (absent : ')' ∉ reference) :
    findAll readUrl? (urlLine before quote reference behind) = [reference] := by
  have inside := forall_isUrlChar fits.2 absent
  have read : readUrlInside?
      ((before ++ quote :: (reference ++ quote :: (behind ++ [')']))) ++ []) =
        some (reference, []) := by
    rw [List.append_nil, readUrlInside?_of_quote blankBefore quotes,
      readUrlArgument?_of_quote fits.1 inside quotes blankBehind, Option.some_or]
  have found := findAll_readUrl?_of_read read
  rwa [List.append_nil] at found

/-- With a closing parenthesis, the argument ends in front of the first one. -/
theorem exists_findAll_readUrl?_urlLine {front rest : List Char}
    (whole : reference = front ++ ')' :: rest) (absent : ')' ∉ front) :
    ∃ found, ReadFor found front ∧ findAll readUrl? (urlLine before quote reference behind) =
      found ++ findAll readUrl? (rest ++ quote :: (behind ++ [')'])) := by
  subst whole
  obtain ⟨left, sameLeft⟩ : ∃ left, left = rest ++ quote :: (behind ++ [')']) := ⟨_, rfl⟩
  have line : urlLine before quote (front ++ ')' :: rest) behind =
      "url(".toList ++ (before ++ quote :: (front ++ ')' :: left)) := by
    simp [urlLine, sameLeft]
  rw [line, ← sameLeft]
  cases front with
  | nil => exact exists_findAll_readUrl?_of_parenthesis blankBefore quotes left
  | cons c others =>
    have inside : ∀ d ∈ c :: others, isUrlChar d = true :=
      forall_isUrlChar (fun d mem => fits.2 d (List.mem_append_left _ mem)) absent
    have split : before ++ quote :: (c :: others ++ ')' :: left) =
        (before ++ quote :: (c :: others ++ [')'])) ++ left := by simp
    refine ⟨[bareArgument (c :: others)], .singleton (trim_bareArgument _), ?_⟩
    rw [split]
    refine findAll_readUrl?_of_read ?_
    rw [← split, readUrlInside?_of_quote blankBefore quotes,
      readUrlArgument?_of_parenthesis (List.cons_ne_nil c others) inside, Option.some_or]

/-- A quoted argument of `url` is no background. -/
theorem findAll_readBackground?_urlLine (blankBehind : Blanks behind) :
    findAll readBackground? (urlLine before quote reference behind) = [] := by
  have passed : 'b' ∉ "url(".toList ++ (before ++ [quote]) := by
    have noBlank : 'b' ∉ before := blankBefore.notMem (by decide)
    rcases eq_or_eq_of_isQuote quotes with rfl | rfl <;> simp [noBlank]
  have few := countP_isQuote_lt_two quote fits.2 (isQuote_closing blankBehind)
  have line : urlLine before quote reference behind =
      ("url(".toList ++ (before ++ [quote])) ++ (reference ++ quote :: (behind ++ [')'])) := by
    simp [urlLine]
  rw [line, readsFrom_readBackground?.findAll_append_of_notMem passed,
    findAll_readBackground?_of_countP few]

/-- A quoted argument of `url` is read up to its first closing parenthesis, and behind that the line
is searched on. -/
theorem exists_imageNames_urlLine (blankBehind : Blanks behind) :
    ∃ found, ReadFor found (urlFront reference) ∧
      imageNames (urlLine before quote reference behind) =
        found ++ imageNames (urlRest reference ++ quote :: (behind ++ [')'])) := by
  rw [imageNames, findAll_readBackground?_urlLine blankBefore quotes fits blankBehind,
    List.append_nil]
  by_cases closed : ')' ∈ reference
  · obtain ⟨front, rest, whole, absent⟩ := List.eq_append_cons_of_mem closed
    have inside := forall_bne_of_notMem absent
    have stops : StopsAt (· != ')') (')' :: rest) := .cons (by decide)
    have frontRead : urlFront reference = front := by
      rw [urlFront, whole, takeWhile_run inside stops]
    have restLeft : urlRest reference = rest := by
      rw [urlRest, whole, dropWhile_run inside stops, List.tail_cons]
    have plain : ∀ c ∈ rest, isQuote c = false := by
      intro c mem
      exact fits.2 c (whole ▸ List.mem_append_right _ (List.mem_cons_of_mem _ mem))
    rw [frontRead, restLeft,
      imageNames_of_countP (countP_isQuote_lt_two quote plain (isQuote_closing blankBehind))]
    exact exists_findAll_readUrl?_urlLine blankBefore quotes fits whole absent
  · rw [urlFront_of_notMem closed, urlRest_of_notMem closed, List.nil_append,
      imageNames_closing quotes blankBehind,
      findAll_readUrl?_urlLine_of_notMem blankBefore quotes fits blankBehind closed]
    exact ⟨[reference], .singleton rfl, rfl⟩

end UrlLine

/-- In the name of a property no `url` starts. -/
theorem findAll_readUrl?_background (text : List Char) :
    findAll readUrl? ("background".toList ++ text) = findAll readUrl? text := by
  have unread : readUrl? none ('u' :: ("nd".toList ++ text)) = none := rfl
  calc
    _ = findAll readUrl? ("backgro".toList ++ 'u' :: ("nd".toList ++ text)) := rfl
    _ = findAll readUrl? ("nd".toList ++ text) := by
      rw [readsFrom_readUrl?.findAll_append_of_notMem (by decide),
        readsFrom_readUrl?.findAll_cons_of_none unread]
    _ = findAll readUrl? text := readsFrom_readUrl?.findAll_append_of_notMem (by decide)

section BackgroundLine

variable {property before behind reference : List Char} {quote : Char}
  (listed : property ∈ backgroundProperties) (blankBefore : Blanks before)
  (blankBehind : Blanks behind) (quotes : isQuote quote = true)
include listed blankBefore blankBehind quotes

/-- In front of the value of a background no `url` starts. -/
theorem findAll_readUrl?_backgroundLine :
    findAll readUrl? (backgroundLine property before behind quote reference) =
      findAll readUrl? (reference ++ [quote]) := by
  obtain ⟨suffix, rfl, plain⟩ : ∃ suffix, property = "background".toList ++ suffix ∧
      'u' ∉ suffix := by
    rcases List.mem_pair.1 listed with rfl | rfl
    · exact ⟨[], rfl, by decide⟩
    · exact ⟨"-image".toList, rfl, by decide⟩
  have passed : 'u' ∉ suffix ++ (before ++ ':' :: (behind ++ [quote])) := by
    have noBefore : 'u' ∉ before := blankBefore.notMem (by decide)
    have noBehind : 'u' ∉ behind := blankBehind.notMem (by decide)
    rcases eq_or_eq_of_isQuote quotes with rfl | rfl <;> simp [plain, noBefore, noBehind]
  have line : backgroundLine ("background".toList ++ suffix) before behind quote reference =
      "background".toList ++ ((suffix ++ (before ++ ':' :: (behind ++ [quote]))) ++
        (reference ++ [quote])) := by
    simp [backgroundLine]
  rw [line, findAll_readUrl?_background, readsFrom_readUrl?.findAll_append_of_notMem passed]

/-- The value of a background is read up to its closing quote. -/
theorem findAll_readBackground?_backgroundLine (fits : FitsQuotes reference) :
    findAll readBackground? (backgroundLine property before behind quote reference) =
      [reference] := by
  have value : readBetweenQuotes? (quote :: (reference ++ [quote])) = some (reference, []) :=
    readBetweenQuotes?_eq_some_iff.2 ⟨quote, quote, quotes, quotes, fits, rfl⟩
  have opening : trimStart (behind ++ quote :: (reference ++ [quote])) =
      quote :: (reference ++ [quote]) := by
    rw [trimStart_append blankBehind, trimStart_of_stopsAt (.cons (isBlank_of_isQuote quotes))]
  obtain ⟨rest, sameRest⟩ : ∃ rest, rest =
      before ++ ':' :: (behind ++ quote :: (reference ++ [quote])) := ⟨_, rfl⟩
  have colon : trimStart rest = ':' :: (behind ++ quote :: (reference ++ [quote])) := by
    rw [sameRest, trimStart_append blankBefore, trimStart_of_stopsAt (.cons (by decide))]
  have noImage : "-image".toList.isPrefixOf? rest = none := by
    rw [sameRest]
    cases before with
    | nil => rfl
    | cons c others =>
      have noDash : '-' ∉ c :: others := blankBefore.notMem (by decide)
      have other : '-' ≠ c := List.ne_of_not_mem_cons noDash
      simp [List.isPrefixOf?, other]
  have read : readBackground? none (property ++ rest) = some (reference, []) := by
    rcases List.mem_pair.1 listed with rfl | rfl
    · have start : "background".toList.isPrefixOf? ("background".toList ++ rest) = some rest :=
        List.isPrefixOf?_eq_some_iff_append_eq.2 rfl
      simp only [readBackground?, start, Option.bind_eq_bind, Option.bind_some, noImage,
        Option.getD_none, colon, opening, value]
    · have start : "background".toList.isPrefixOf? ("background-image".toList ++ rest) =
          some ("-image".toList ++ rest) := List.isPrefixOf?_eq_some_iff_append_eq.2 rfl
      have longer : "-image".toList.isPrefixOf? ("-image".toList ++ rest) = some rest :=
        List.isPrefixOf?_eq_some_iff_append_eq.2 rfl
      simp only [readBackground?, start, Option.bind_eq_bind, Option.bind_some, longer,
        Option.getD_some, colon, opening, value]
  have nonempty : property ++ rest ≠ [] := by simp [sameRest]
  rw [backgroundLine, ← sameRest]
  exact findAll_of_read_all nonempty read

/-- A background is read whole, and its value is searched for a `url` as well. -/
theorem imageNames_backgroundLine (fits : FitsQuotes reference) :
    imageNames (backgroundLine property before behind quote reference) =
      imageNames (reference ++ [quote]) ++ [reference] := by
  have few := countP_isQuote_lt_two quote fits.2 (fun _ mem => absurd mem List.not_mem_nil)
  rw [imageNames_of_countP few, imageNames,
    findAll_readUrl?_backgroundLine listed blankBefore blankBehind quotes,
    findAll_readBackground?_backgroundLine listed blankBefore blankBehind quotes fits]

end BackgroundLine

end AssetUsage.Style
