import AssetUsage.Proofs.Text.Digits
import AssetUsage.Proofs.Text.Runs
import AssetUsage.Report.Json
import Mathlib.Algebra.Field.Rat

/-!
# JSON tokens

A JSON text is a sequence of brackets, separators, strings, numbers and names with blanks between
them. The reader below takes all of JSON: every escape, pairs of escapes for characters beyond
U+FFFF, and numbers with a fraction and an exponent.

A text whose characters are escaped is read back up to the quote that closes it
(`readText?_escape`), and decimal digits are read as the number that they stand for
(`readWord?_decimal`).
-/

namespace AssetUsage.Json

/-- A value without parts. -/
inductive Atom where
  | null
  | bool (value : Bool)
  | number (value : ℚ)
  | text (value : List Char)
deriving DecidableEq

/-- A piece of a JSON text that blanks may surround. -/
inductive Token where
  | beginArray
  | endArray
  | beginObject
  | endObject
  /-- What stands between the name of a field and its value. -/
  | colon
  /-- What stands between two items or two fields. -/
  | comma
  | atom (value : Atom)
deriving DecidableEq

/-- The value of a hexadecimal digit. -/
def hexValue? (c : Char) : Option ℕ :=
  if c.isDigit then some (c.toNat - '0'.toNat)
  else if 'a' ≤ c ∧ c ≤ 'f' then some (c.toNat - 'a'.toNat + 10)
  else if 'A' ≤ c ∧ c ≤ 'F' then some (c.toNat - 'A'.toNat + 10)
  else none

/-- The number that four hexadecimal digits spell, and the text behind them. -/
def readHex? : List Char → Option (ℕ × List Char)
  | first :: second :: third :: fourth :: rest => do
    let high := (← hexValue? first) * 16 + (← hexValue? second)
    let low := (← hexValue? third) * 16 + (← hexValue? fourth)
    return (high * 256 + low, rest)
  | _ => none

/-- The character behind `\u`, which two escapes spell if it lies beyond U+FFFF, and the text behind
it. Half of such a pair is no character. -/
def readUnicode? (text : List Char) : Option (Char × List Char) := do
  let (code, rest) ← readHex? text
  if 0xD800 ≤ code ∧ code < 0xDC00 then
    match rest with
    | '\\' :: 'u' :: low =>
      let (other, behind) ← readHex? low
      if 0xDC00 ≤ other ∧ other < 0xE000 then
        some (Char.ofNat (0x10000 + (code - 0xD800) * 0x400 + (other - 0xDC00)), behind)
      else none
    | _ => none
  else if 0xDC00 ≤ code ∧ code < 0xE000 then none
  else some (Char.ofNat code, rest)

/-- The character that a letter behind a backslash stands for. -/
def unescaped? : Char → Option Char
  | '"' => some '"'
  | '\\' => some '\\'
  | '/' => some '/'
  | 'b' => some '\x08'
  | 'f' => some '\x0c'
  | 'n' => some '\n'
  | 'r' => some '\r'
  | 't' => some '\t'
  | _ => none

/-- The next character of a string, written as it is or escaped, and the text behind it. -/
def readChar? : List Char → Option (Char × List Char)
  | [] => none
  | '\\' :: 'u' :: rest => readUnicode? rest
  | '\\' :: c :: rest => (unescaped? c).map (·, rest)
  | c :: rest => if c = '\\' ∨ c = '"' ∨ c.toNat < 0x20 then none else some (c, rest)

/-- The characters of a string up to the quote that closes it, and the text behind that. -/
def readText? (text : List Char) : Option (List Char × List Char) :=
  match text with
  | [] => none
  | c :: rest =>
    if c = '"' then some ([], rest)
    else
      match readChar? (c :: rest) with
      | some (next, behind) =>
        if behind.length ≤ rest.length then
          (readText? behind).map fun (value, rest) => (next :: value, rest)
        else none
      | none => none
termination_by text.length

/-- The sign in front of a number. -/
def readSign : List Char → ℤ × List Char
  | '-' :: rest => (-1, rest)
  | rest => (1, rest)

/-- The digits of the fraction, if there is one, and the text behind it. -/
def readFraction? : List Char → Option (List Char × List Char)
  | '.' :: rest =>
    match rest.takeWhile Char.isDigit with
    | [] => none
    | digits => some (digits, rest.dropWhile Char.isDigit)
  | rest => some ([], rest)

/-- The exponent of a number with nothing behind it, which is zero if none is written. -/
def readExponent? : List Char → Option ℤ
  | [] => some 0
  | c :: rest =>
    let (sign, digits) :=
      match rest with
      | '+' :: digits => (1, digits)
      | rest => readSign rest
    if (c = 'e' ∨ c = 'E') ∧ digits ≠ [] ∧ digits.all Char.isDigit then
      some (sign * Text.valueOfDigits digits)
    else none

/-- The number that a word spells: a sign, digits without needless zeros in front, a fraction and
an exponent. -/
def readNumber? (word : List Char) : Option ℚ := do
  let (sign, unsigned) := readSign word
  let whole := unsigned.takeWhile Char.isDigit
  let (fraction, behind) ← readFraction? (unsigned.dropWhile Char.isDigit)
  let exponent ← readExponent? behind
  if whole = ['0'] ∨ (whole ≠ [] ∧ whole.head? ≠ some '0') then
    some (sign * Text.valueOfDigits (whole ++ fraction) * 10 ^ (exponent - fraction.length))
  else none

/-- The atom that a word stands for. -/
def readWord? (word : List Char) : Option Atom :=
  if word = "null".toList then some .null
  else if word = "true".toList then some (.bool true)
  else if word = "false".toList then some (.bool false)
  else (readNumber? word).map .number

/-- The character stands between tokens. -/
def isSpace (c : Char) : Bool := c == ' ' || c == '\n' || c == '\r' || c == '\t'

/-- The character is a part of a number or a name. -/
def isInWord (c : Char) : Bool := c.isAlphanum || c == '+' || c == '-' || c == '.'

/-- The token that a character is. -/
def Token.ofChar? : Char → Option Token
  | '[' => some .beginArray
  | ']' => some .endArray
  | '{' => some .beginObject
  | '}' => some .endObject
  | ':' => some .colon
  | ',' => some .comma
  | _ => none

/-- The token at the start of a text, and the text behind it. -/
def readToken? (text : List Char) : Option (Token × List Char) :=
  match text with
  | [] => none
  | '"' :: rest => (readText? rest).map fun (value, behind) => (.atom (.text value), behind)
  | c :: rest =>
    match Token.ofChar? c with
    | some token => some (token, rest)
    | none =>
      (readWord? (text.takeWhile isInWord)).map fun atom => (.atom atom, text.dropWhile isInWord)

/-- The tokens of a text. -/
def tokens? (text : List Char) : Option (List Token) :=
  match text with
  | [] => some []
  | c :: rest =>
    if isSpace c then tokens? rest
    else
      match readToken? (c :: rest) with
      | some (token, behind) =>
        if behind.length ≤ rest.length then (tokens? behind).map (token :: ·) else none
      | none => none
termination_by text.length

/-- A hexadecimal digit is read as its value. -/
theorem hexValue?_hexDigit {n : ℕ} (small : n < 16) : hexValue? (hexDigit n) = some n := by
  revert n
  decide

/-- A character in a string is a short escape, the code of a control character or the character
itself. -/
inductive EscapedAs (c : Char) : List Char → Prop
  | short {letter : Char} (meant : unescaped? letter = some c) : EscapedAs c ['\\', letter]
  | code (control : c.toNat < 0x20) :
      EscapedAs c ['\\', 'u', '0', '0', hexDigit (c.toNat / 16), hexDigit (c.toNat % 16)]
  | plain (quote : c ≠ '"') (backslash : c ≠ '\\') (visible : 0x20 ≤ c.toNat) : EscapedAs c [c]

/-- Every character is escaped in one of these ways. -/
theorem escapedAs_escape (c : Char) : EscapedAs c (escape c) := by
  unfold escape
  split_ifs with quote backslash backspace feed newline return_ tab control
  · subst quote
    exact .short rfl
  · subst backslash
    exact .short rfl
  · exact .short (backspace ▸ rfl)
  · exact .short (feed ▸ rfl)
  · exact .short (newline ▸ rfl)
  · exact .short (return_ ▸ rfl)
  · exact .short (tab ▸ rfl)
  · exact .code control
  · exact .plain quote backslash (Nat.not_lt.1 control)

/-- The code of a control character is read back. -/
theorem readUnicode?_of_control {c : Char} (control : c.toNat < 0x20) (rest : List Char) :
    readUnicode? ('0' :: '0' :: hexDigit (c.toNat / 16) :: hexDigit (c.toNat % 16) :: rest) =
      some (c, rest) := by
  have zero : hexValue? '0' = some 0 := rfl
  have sixteens := hexValue?_hexDigit (show c.toNat / 16 < 16 by omega)
  have ones := hexValue?_hexDigit (show c.toNat % 16 < 16 by omega)
  have whole : c.toNat / 16 * 16 + c.toNat % 16 = c.toNat := by omega
  have code : readHex? ('0' :: '0' :: hexDigit (c.toNat / 16) :: hexDigit (c.toNat % 16) :: rest) =
      some (c.toNat, rest) := by
    simp [readHex?, zero, sixteens, ones, whole]
  have high : ¬ (0xD800 ≤ c.toNat ∧ c.toNat < 0xDC00) := by omega
  have low : ¬ (0xDC00 ≤ c.toNat ∧ c.toNat < 0xE000) := by omega
  rw [readUnicode?, code, Option.bind_eq_bind, Option.bind_some]
  simp only [if_neg high, if_neg low, Char.ofNat_toNat]

/-- An escaped character is read back. -/
theorem readChar?_of_escapedAs {c : Char} {escaped : List Char} (form : EscapedAs c escaped)
    (rest : List Char) : readChar? (escaped ++ rest) = some (c, rest) := by
  cases form with
  | @short letter meant =>
    have other : letter ≠ 'u' := by
      rintro rfl
      contradiction
    rw [List.cons_append, List.cons_append, readChar?, meant]
    · rfl
    · exact other
  | code control => exact readUnicode?_of_control control rest
  | plain quote backslash visible =>
    have unescaped : ¬ (c = '\\' ∨ c = '"' ∨ c.toNat < 0x20) := by
      simp [quote, backslash, visible]
    rw [List.singleton_append, readChar?, if_neg unescaped]
    all_goals simp [backslash]

/-- An escaped character does not begin with a quote. -/
theorem EscapedAs.exists_cons {c : Char} {escaped : List Char} (form : EscapedAs c escaped) :
    ∃ first others, escaped = first :: others ∧ first ≠ '"' := by
  cases form with
  | short meant => exact ⟨_, _, rfl, by decide⟩
  | code control => exact ⟨_, _, rfl, by decide⟩
  | plain quote backslash visible => exact ⟨_, _, rfl, quote⟩

/-- An escaped text is read back up to the quote behind it. -/
theorem readText?_escape (text rest : List Char) :
    readText? (text.flatMap escape ++ '"' :: rest) = some (text, rest) := by
  induction text with
  | nil => rw [List.flatMap_nil, List.nil_append, readText?, if_pos rfl]
  | cons c others ih =>
    have next := readChar?_of_escapedAs (escapedAs_escape c)
      (others.flatMap escape ++ '"' :: rest)
    obtain ⟨first, escaped, form, other⟩ := (escapedAs_escape c).exists_cons
    rw [form, List.cons_append] at next
    rw [List.flatMap_cons, form, List.append_assoc, List.cons_append, readText?, if_neg other,
      next]
    simp [ih]

/-- A word of digits that does not begin with a needless zero is their number. -/
theorem readNumber?_of_digits {digits : List Char} (inside : ∀ c ∈ digits, c.isDigit = true)
    (form : digits = ['0'] ∨ (digits ≠ [] ∧ digits.head? ≠ some '0')) :
    readNumber? digits = some (Text.valueOfDigits digits : ℚ) := by
  have unsigned : readSign digits = (1, digits) := by
    unfold readSign
    split
    · have sign := inside '-' List.mem_cons_self
      contradiction
    · rfl
  have whole : digits.takeWhile Char.isDigit = digits :=
    List.takeWhile_eq_self_iff.2 inside
  have behind : digits.dropWhile Char.isDigit = [] := List.dropWhile_eq_nil_iff.2 inside
  simp [readNumber?, unsigned, whole, behind, readFraction?, readExponent?, form]

/-- The decimal digits of a number are read as that number. -/
theorem readWord?_decimal (n : ℕ) : readWord? (Text.decimal n) = some (.number n) := by
  have inside := Text.isDigit_of_mem_decimal n
  have form : Text.decimal n = ['0'] ∨
      (Text.decimal n ≠ [] ∧ (Text.decimal n).head? ≠ some '0') := by
    by_cases zero : n = 0
    · subst zero
      exact .inl (by rw [Text.decimal]; rfl)
    · exact .inr ⟨Text.decimal_ne_nil n, Text.head?_decimal_ne zero⟩
  have letters : ∀ name : List Char, (∃ c ∈ name, c.isDigit = false) → Text.decimal n ≠ name := by
    rintro name ⟨c, mem, letter⟩ rfl
    rw [inside c mem] at letter
    contradiction
  have noNull := letters "null".toList ⟨'n', by simp, rfl⟩
  have noTrue := letters "true".toList ⟨'t', by simp, rfl⟩
  have noFalse := letters "false".toList ⟨'f', by simp, rfl⟩
  rw [readWord?, if_neg noNull, if_neg noTrue, if_neg noFalse, readNumber?_of_digits inside form,
    Text.valueOfDigits_decimal, Option.map_some]

end AssetUsage.Json
