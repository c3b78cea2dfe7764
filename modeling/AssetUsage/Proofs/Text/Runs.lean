import AssetUsage.Text.Basic
import AssetUsage.Text.Word
import Mathlib.Data.List.TakeWhile

/-!
# Runs of characters

A reader takes a run of characters of one class up to the first character of another. A text that
is a run in front of a text that does not go on with the class is cut exactly there
(`takeWhile_run`, `dropWhile_run`), and trimming cuts runs of blanks (`trim_eq_nil_iff`,
`trim_eq_singleton_iff`). A text that shows everything holds no control character
(`control_not_mem_of_visible`).
-/

namespace AssetUsage.Text

/-- The text does not start with a character of the class. -/
def StopsAt (isInRun : Char → Bool) (text : List Char) : Prop :=
  ∀ c rest, text = c :: rest → isInRun c = false

/-- The text holds blanks only. -/
def Blanks (text : List Char) : Prop := ∀ c ∈ text, isBlank c = true

instance (text : List Char) : Decidable (Blanks text) :=
  decidable_of_iff (text.all isBlank = true) List.all_eq_true

section Runs

variable {isInRun : Char → Bool} {run rest : List Char}

/-- A run stops at the end of the text. -/
theorem StopsAt.nil : StopsAt isInRun [] := by
  intro c rest same
  contradiction

/-- A run stops at a character that is not in it. -/
theorem StopsAt.cons {c : Char} (outside : isInRun c = false) : StopsAt isInRun (c :: rest) := by
  intro first others same
  obtain rfl : c = first := List.head_eq_of_cons_eq same
  exact outside

/-- A run that stops at the start of a text stops at that of each part in front. -/
theorem StopsAt.of_prefix {front : List Char} (stops : StopsAt isInRun rest)
    (part : front <+: rest) : StopsAt isInRun front := by
  obtain ⟨more, rfl⟩ := part
  rintro c others rfl
  exact stops c (others ++ more) rfl

/-- A run that stops at the starts of two texts stops at that of the two in a row. -/
theorem StopsAt.append {text : List Char} (stops : StopsAt isInRun text)
    (stopsBehind : StopsAt isInRun rest) : StopsAt isInRun (text ++ rest) := by
  cases text with
  | nil => exact stopsBehind
  | cons c others => exact .cons (stops c others rfl)

/-- Where a run stops, none is taken. -/
theorem StopsAt.takeWhile_eq_nil (stops : StopsAt isInRun rest) : rest.takeWhile isInRun = [] := by
  cases rest with
  | nil => rfl
  | cons c others => exact List.takeWhile_cons_of_neg (by simp [stops c others rfl])

/-- Where a run stops, nothing is left out. -/
theorem StopsAt.dropWhile_eq_self (stops : StopsAt isInRun rest) :
    rest.dropWhile isInRun = rest := by
  cases rest with
  | nil => rfl
  | cons c others => exact List.dropWhile_cons_of_neg (by simp [stops c others rfl])

/-- What is left behind a run does not go on with it. -/
theorem stopsAt_dropWhile (text : List Char) : StopsAt isInRun (text.dropWhile isInRun) := by
  intro c others same
  have first := List.head?_dropWhile_not isInRun text
  rw [same] at first
  simpa using first

/-- A whole run is taken. -/
theorem takeWhile_run (inside : ∀ c ∈ run, isInRun c = true) (stops : StopsAt isInRun rest) :
    (run ++ rest).takeWhile isInRun = run := by
  rw [List.takeWhile_append_of_pos inside, stops.takeWhile_eq_nil, List.append_nil]

/-- What follows a run is left. -/
theorem dropWhile_run (inside : ∀ c ∈ run, isInRun c = true) (stops : StopsAt isInRun rest) :
    (run ++ rest).dropWhile isInRun = rest := by
  rw [List.dropWhile_append_of_pos inside, stops.dropWhile_eq_self]

end Runs

/-- Whatever holds of the characters in the table of blanks holds of every blank. -/
theorem of_isBlank (property : Char → Bool) {c : Char}
    (all : ∀ range ∈ blankTable, ∀ code ∈ List.range' range.first (range.last + 1 - range.first),
      property (Char.ofNat code) = true) (blank : isBlank c = true) : property c = true := by
  obtain ⟨range, mem, low, high⟩ := (inTable_iff blankTable c).1 blank
  have listed : c.toNat ∈ List.range' range.first (range.last + 1 - range.first) := by
    rw [List.mem_range'_1]
    omega
  have holds := all range mem c.toNat listed
  rwa [Char.ofNat_toNat] at holds

/-- A run to which no blank belongs stops in front of blanks. -/
theorem StopsAt.append_of_blanks {isInRun : Char → Bool} {blanks text : List Char}
    (apart : ∀ range ∈ blankTable, ∀ code ∈ List.range' range.first (range.last + 1 - range.first),
      (!isInRun (Char.ofNat code)) = true)
    (stops : StopsAt isInRun text) (blank : Blanks blanks) : StopsAt isInRun (blanks ++ text) := by
  cases blanks with
  | nil => exact stops
  | cons first others =>
    have outside := of_isBlank (!isInRun ·) apart (blank first List.mem_cons_self)
    exact .cons (by simpa using outside)

/-- A word does not go on behind blanks. -/
theorem stopsAt_isWord_of_blanks {blanks text : List Char} (blank : Blanks blanks)
    (stops : StopsAt isWord text) : StopsAt isWord (blanks ++ text) :=
  .append_of_blanks (by decide +kernel) stops blank

/-- A blank stays one in lower case. -/
theorem isBlank_toLower {c : Char} (blank : isBlank c = true) : isBlank c.toLower = true :=
  of_isBlank (fun c => isBlank c.toLower) (by decide +kernel) blank

/-- The empty text is blank. -/
theorem Blanks.nil : Blanks [] := by
  intro c mem
  contradiction

/-- Blanks behind blanks are blank. -/
theorem Blanks.append {first second : List Char} (left : Blanks first) (right : Blanks second) :
    Blanks (first ++ second) := List.forall_mem_append.2 ⟨left, right⟩

/-- Blanks hold no other character. -/
theorem Blanks.notMem {blanks : List Char} (blank : Blanks blanks) {c : Char}
    (visible : isBlank c = false) : c ∉ blanks := by
  intro mem
  rw [blank c mem] at visible
  contradiction

/-- The blanks in front of a text. -/
theorem blanks_takeWhile (text : List Char) : Blanks (text.takeWhile isBlank) :=
  fun _ mem => List.mem_takeWhile_imp mem

/-- A text is its blanks in front and what is left without them. -/
theorem takeWhile_append_trimStart (text : List Char) :
    text.takeWhile isBlank ++ trimStart text = text := List.takeWhile_append_dropWhile

/-- Blanks in front make no difference to what is left without them. -/
theorem trimStart_append {blanks : List Char} (blank : Blanks blanks) (text : List Char) :
    trimStart (blanks ++ text) = trimStart text := List.dropWhile_append_of_pos blank

/-- Without blanks in front nothing is taken away. -/
theorem trimStart_of_stopsAt {text : List Char} (stops : StopsAt isBlank text) :
    trimStart text = text := stops.dropWhile_eq_self

/-- Nothing is left of blanks. -/
theorem trimStart_eq_nil_iff {text : List Char} : trimStart text = [] ↔ Blanks text :=
  List.dropWhile_eq_nil_iff

/-- A text is what is left without its blanks at the end and these blanks. -/
theorem exists_append_trimEnd (text : List Char) :
    ∃ blanks, Blanks blanks ∧ trimEnd text ++ blanks = text := by
  refine ⟨(text.reverse.takeWhile isBlank).reverse, ?_, ?_⟩
  · intro c mem
    exact List.mem_takeWhile_imp (List.mem_reverse.1 mem)
  · rw [trimEnd, ← List.reverse_append, List.takeWhile_append_dropWhile, List.reverse_reverse]

/-- Blanks at the end make no difference to what is left without them. -/
theorem trimEnd_append {blanks : List Char} (blank : Blanks blanks) (text : List Char) :
    trimEnd (text ++ blanks) = trimEnd text := by
  have inside : ∀ c ∈ blanks.reverse, isBlank c = true := fun c mem =>
    blank c (List.mem_reverse.1 mem)
  rw [trimEnd, List.reverse_append, List.dropWhile_append_of_pos inside, trimEnd]

/-- Blanks at the end make no difference to what trimming leaves. -/
theorem trim_append {blanks : List Char} (blank : Blanks blanks) (text : List Char) :
    trim (text ++ blanks) = trim text := by
  have front : trimStart (text ++ blanks) =
      if (trimStart text).isEmpty then trimStart blanks else trimStart text ++ blanks :=
    List.dropWhile_append
  rw [trim, trim, front]
  cases trimStart text with
  | nil => rw [trimStart_eq_nil_iff.2 blank]; rfl
  | cons c rest => exact trimEnd_append blank (c :: rest)

/-- Trimming takes nothing away exactly if there are no blanks at the two ends. -/
theorem trim_eq_self_iff {text : List Char} :
    trim text = text ↔ StopsAt isBlank text ∧ StopsAt isBlank text.reverse := by
  constructor
  · intro same
    obtain ⟨blanks, -, whole⟩ := exists_append_trimEnd (trimStart text)
    have split := takeWhile_append_trimStart text
    rw [← trim, same] at whole
    have lengths := congrArg List.length split
    rw [← whole, List.length_append, List.length_append] at lengths
    have noFront : text.takeWhile isBlank = [] := List.length_eq_zero_iff.1 (by omega)
    rw [noFront, List.nil_append] at split
    have start : StopsAt isBlank text := split ▸ stopsAt_dropWhile text
    rw [trim, split, trimEnd] at same
    exact ⟨start, List.reverse_eq_iff.1 same ▸ stopsAt_dropWhile text.reverse⟩
  · rintro ⟨start, ending⟩
    rw [trim, trimStart_of_stopsAt start, trimEnd, ending.dropWhile_eq_self, List.reverse_reverse]

/-- A visible character in front leaves a text without blanks at the two ends. -/
theorem trim_cons {c : Char} (visible : isBlank c = false) {text : List Char}
    (trimmed : trim text = text) : trim (c :: text) = c :: text := by
  obtain ⟨-, ending⟩ := trim_eq_self_iff.1 trimmed
  refine trim_eq_self_iff.2 ⟨.cons visible, ?_⟩
  rw [List.reverse_cons]
  cases back : text.reverse with
  | nil => exact .cons visible
  | cons last others => exact .cons (ending last others back)

/-- Without blanks trimming takes nothing away. -/
theorem trim_of_forall {text : List Char} (visible : ∀ c ∈ text, isBlank c = false) :
    trim text = text := by
  have start : trimStart text = text := by
    refine trimStart_of_stopsAt fun c rest same => visible c ?_
    rw [same]
    exact List.mem_cons_self
  obtain ⟨blanks, blank, whole⟩ := exists_append_trimEnd text
  have none : blanks = [] := by
    refine List.eq_nil_iff_forall_not_mem.2 fun c mem => ?_
    have inText : c ∈ text := whole ▸ List.mem_append_right _ mem
    have isBlank := blank c mem
    rw [visible c inText] at isBlank
    contradiction
  rw [none, List.append_nil] at whole
  rw [trim, start, whole]

/-- Behind a text without blanks at its two ends, only blanks at the end are taken away. -/
theorem trim_append_of_trim_eq {text : List Char} (nonempty : text ≠ [])
    (trimmed : trim text = text) (behind : List Char) :
    trim (text ++ behind) = text ++ trimEnd behind := by
  obtain ⟨start, ending⟩ := trim_eq_self_iff.1 trimmed
  obtain ⟨blanks, blank, whole⟩ := exists_append_trimEnd behind
  have stays : trim (text ++ trimEnd behind) = text ++ trimEnd behind := by
    refine trim_eq_self_iff.2 ⟨?_, ?_⟩
    · obtain ⟨c, rest, rfl⟩ := List.exists_cons_of_ne_nil nonempty
      exact .cons (start c rest rfl)
    · rw [List.reverse_append, trimEnd, List.reverse_reverse]
      exact (stopsAt_dropWhile behind.reverse).append ending
  calc trim (text ++ behind)
      = trim (text ++ trimEnd behind ++ blanks) := by rw [List.append_assoc, whole]
    _ = text ++ trimEnd behind := by rw [trim_append blank, stays]

/-- What trimming leaves is a part of the text. -/
theorem isInfix_trim (text : List Char) : trim text <:+: text := by
  obtain ⟨blanks, -, whole⟩ := exists_append_trimEnd (trimStart text)
  have front : trim text <+: trimStart text := ⟨blanks, whole⟩
  exact front.isInfix.trans (List.dropWhile_suffix isBlank).isInfix

/-- Trimming leaves nothing of blanks, and of blanks alone. -/
theorem trim_eq_nil_iff {text : List Char} : trim text = [] ↔ Blanks text := by
  constructor
  · intro empty
    obtain ⟨blanks, blank, whole⟩ := exists_append_trimEnd (trimStart text)
    rw [trim] at empty
    rw [empty, List.nil_append] at whole
    rw [← takeWhile_append_trimStart text, ← whole]
    exact (blanks_takeWhile text).append blank
  · intro blank
    rw [trim, trimStart_eq_nil_iff.2 blank]
    rfl

/-- Trimming leaves a visible character alone exactly if all that stands around it is blank. -/
theorem trim_eq_singleton_iff {text : List Char} {c : Char} (visible : isBlank c = false) :
    trim text = [c] ↔
      ∃ before behind, Blanks before ∧ Blanks behind ∧ text = before ++ c :: behind := by
  constructor
  · intro left
    obtain ⟨blanks, blank, whole⟩ := exists_append_trimEnd (trimStart text)
    rw [trim] at left
    rw [left, List.singleton_append] at whole
    refine ⟨text.takeWhile isBlank, blanks, blanks_takeWhile text, blank, ?_⟩
    rw [whole, takeWhile_append_trimStart]
  · rintro ⟨before, behind, blankBefore, blankBehind, rfl⟩
    have front : trimStart (before ++ c :: behind) = [c] ++ behind := by
      rw [trimStart_append blankBefore, trimStart_of_stopsAt (.cons visible)]
      rfl
    rw [trim, front, trimEnd_append blankBehind, trimEnd, List.reverse_singleton,
      List.dropWhile_cons_of_neg (by simp [visible]), List.reverse_singleton]

/-- The text is read up to the first occurrence of the character. -/
theorem upTo?_eq_some_iff {close : Char} {text before behind : List Char} :
    upTo? close text = some (before, behind) ↔
      text = before ++ close :: behind ∧ close ∉ before := by
  constructor
  · intro read
    unfold upTo? at read
    split at read
    · contradiction
    · next c rest found =>
      obtain ⟨rfl, rfl⟩ := Prod.mk.inj (Option.some.inj read)
      have first : (c != close) = false := stopsAt_dropWhile text c rest found
      obtain rfl : c = close := by simpa using first
      refine ⟨?_, ?_⟩
      · rw [← found, List.takeWhile_append_dropWhile]
      · intro mem
        have other := List.mem_takeWhile_imp mem
        simp at other
  · rintro ⟨rfl, plain⟩
    have inside : ∀ c ∈ before, (c != close) = true := by
      intro c mem
      simpa using fun same : c = close => plain (same ▸ mem)
    have stops : StopsAt (· != close) (close :: behind) := .cons (by simp)
    rw [upTo?, dropWhile_run inside stops, takeWhile_run inside stops]

/-- A quoted value takes at least its quotes. -/
theorem length_lt_of_readQuoted? {text value behind : List Char}
    (read : readQuoted? text = some (value, behind)) : behind.length < text.length := by
  unfold readQuoted? at read
  split at read
  · contradiction
  · split at read
    · obtain ⟨rfl, -⟩ := upTo?_eq_some_iff.1 read
      simp only [List.length_cons, List.length_append]
      omega
    · contradiction

/-- A quote is a double or a single one. -/
theorem eq_or_eq_of_isQuote {c : Char} (quote : isQuote c = true) : c = '"' ∨ c = '\'' := by
  simpa [isQuote] using quote

/-- No quote is blank. -/
theorem isBlank_of_isQuote {c : Char} (quote : isQuote c = true) : isBlank c = false := by
  rcases eq_or_eq_of_isQuote quote with rfl | rfl <;> decide

/-- The text can stand between any two quotes: it is not empty and holds none itself. -/
def FitsQuotes (text : List Char) : Prop := text ≠ [] ∧ ∀ c ∈ text, isQuote c = false

instance (text : List Char) : Decidable (FitsQuotes text) :=
  decidable_of_iff (text ≠ [] ∧ text.all (!isQuote ·) = true)
    (and_congr_right' (by simp [List.all_eq_true]))

/-- A value between quotes of any kind is read up to the first of them. -/
theorem readBetweenQuotes?_eq_some_iff {text value behind : List Char} :
    readBetweenQuotes? text = some (value, behind) ↔
      ∃ quote closing, isQuote quote = true ∧ isQuote closing = true ∧ FitsQuotes value ∧
        text = quote :: (value ++ closing :: behind) := by
  constructor
  · intro read
    unfold readBetweenQuotes? at read
    split at read
    · contradiction
    · next quote rest =>
      split at read
      · next opens =>
        split at read
        · next first others closing more taken left =>
          obtain ⟨rfl, rfl⟩ := Prod.mk.inj (Option.some.inj read)
          have stops : (!isQuote closing) = false := stopsAt_dropWhile rest closing more left
          refine ⟨quote, closing, opens, by simpa using stops, ⟨List.cons_ne_nil _ _, ?_⟩, ?_⟩
          · intro c mem
            rw [← taken] at mem
            simpa using List.mem_takeWhile_imp mem
          · rw [← taken, ← left, List.takeWhile_append_dropWhile]
        · contradiction
      · contradiction
  · rintro ⟨quote, closing, opens, closes, ⟨nonempty, plain⟩, rfl⟩
    have inside : ∀ c ∈ value, (!isQuote c) = true := by simpa using plain
    have stops : StopsAt (!isQuote ·) (closing :: behind) := .cons (by simpa using closes)
    obtain ⟨first, others, rfl⟩ := List.exists_cons_of_ne_nil nonempty
    rw [readBetweenQuotes?, if_pos opens, takeWhile_run inside stops, dropWhile_run inside stops]

section Control

variable {control : Char} (isControl : control.toNat < 0x20)
include isControl

/-- A control character is no visible one. -/
theorem ne_of_isControl {c : Char} (visible : 0x20 ≤ c.toNat) : control ≠ c := by
  rintro rfl
  omega

/-- A visible text holds no control character. -/
theorem control_not_mem_of_visible {text : List Char}
    (visible : text.all (0x20 ≤ ·.toNat) = true) : control ∉ text := fun mem =>
  ne_of_isControl isControl (of_decide_eq_true (List.all_eq_true.1 visible control mem)) rfl

end Control

end AssetUsage.Text
