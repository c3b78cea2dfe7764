/-!
# Reading texts

What every reader of a text is made of. A character class is a table of inclusive ranges of code
points; the twenty-five characters with the property `White_Space` are such a class, and trimming
takes them away at the two ends of a text. A quoted value is read strictly, up to the quote that
opened it, or as a run without quotes of either kind between any two quotes.

A reader looks at one place of a text: it sees the character before the place and the text from
there on, and returns what it found together with the text behind it. `findAll` tries a reader at
every place from left to right and passes over what was taken.
-/

namespace AssetUsage.Text

/-- An inclusive range of code points. -/
structure CodeRange where
  first : Nat
  last : Nat
deriving DecidableEq, Repr

/-- The code point lies in the range. -/
def CodeRange.contains (range : CodeRange) (code : Nat) : Bool :=
  range.first ≤ code && code ≤ range.last

/-- Some range of the table holds the character. -/
def inTable (table : List CodeRange) (c : Char) : Bool :=
  table.any (·.contains c.toNat)

/-- A table membership names a range that holds the character. -/
theorem inTable_iff (table : List CodeRange) (c : Char) :
    inTable table c = true ↔ ∃ range ∈ table, range.first ≤ c.toNat ∧ c.toNat ≤ range.last := by
  simp [inTable, CodeRange.contains]

/-- Code points with the property `White_Space`. -/
def blankTable : List CodeRange :=
  [⟨0x9, 0xD⟩, ⟨0x20, 0x20⟩, ⟨0x85, 0x85⟩, ⟨0xA0, 0xA0⟩, ⟨0x1680, 0x1680⟩, ⟨0x2000, 0x200A⟩,
   ⟨0x2028, 0x2029⟩, ⟨0x202F, 0x202F⟩, ⟨0x205F, 0x205F⟩, ⟨0x3000, 0x3000⟩]

/-- The character is white space. -/
def isBlank (c : Char) : Bool := inTable blankTable c

/-- The text from its first character that is not blank. -/
def trimStart (text : List Char) : List Char := text.dropWhile isBlank

/-- The text up to its last character that is not blank. -/
def trimEnd (text : List Char) : List Char := (text.reverse.dropWhile isBlank).reverse

/-- The text between its first and its last character that are not blank. -/
def trim (text : List Char) : List Char := trimEnd (trimStart text)

/-- The character of a digit. -/
def digit (n : Nat) : Char := Char.ofNat ('0'.toNat + n)

/-- The decimal digits of a number. -/
def decimal (n : Nat) : List Char :=
  if n < 10 then [digit n] else decimal (n / 10) ++ [digit (n % 10)]

/-- The character is a double or a single quote. -/
def isQuote (c : Char) : Bool := c == '"' || c == '\''

/-- The text up to the next `close`, and what follows that character. -/
def upTo? (close : Char) (text : List Char) : Option (List Char × List Char) :=
  match text.dropWhile (· != close) with
  | [] => none
  | _ :: rest => some (text.takeWhile (· != close), rest)

/-- A quoted value that ends at the quote that opened it, and the text behind it. -/
def readQuoted? : List Char → Option (List Char × List Char)
  | [] => none
  | c :: rest => if isQuote c then upTo? c rest else none

/-- A nonempty run without quotes between any two quotes, and the text behind it. -/
def readBetweenQuotes? : List Char → Option (List Char × List Char)
  | [] => none
  | c :: rest =>
    if isQuote c then
      match rest.takeWhile (!isQuote ·), rest.dropWhile (!isQuote ·) with
      | value@(_ :: _), _ :: behind => some (value, behind)
      | _, _ => none
    else none

/-- Reads a value at one place of a text: from the character before the place and the text from it
on to the value and the text behind it. -/
abbrev Reader (α : Type) := Option Char → List Char → Option (α × List Char)

/-- What `read?` finds in a text behind its next `passed` characters, where `before` is the
character before the text. -/
def findAllFrom {α : Type} (read? : Reader α) (passed : Nat) (before : Option Char) :
    List Char → List α
  | [] => []
  | c :: rest =>
    match passed with
    | left + 1 => findAllFrom read? left (some c) rest
    | 0 =>
      match read? before (c :: rest) with
      | some (value, behind) =>
        value :: findAllFrom read? (rest.length - behind.length) (some c) rest
      | none => findAllFrom read? 0 (some c) rest

/-- What `read?` finds in a text, from left to right. -/
def findAll {α : Type} (read? : Reader α) (text : List Char) : List α :=
  findAllFrom read? 0 none text

end AssetUsage.Text
