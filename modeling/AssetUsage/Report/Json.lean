import AssetUsage.Text.Basic

/-!
# JSON records

Records with text and number fields are written as JSON objects, on one line each or indented in an
array. In a string only the quote, the backslash and control characters are escaped.
-/

namespace AssetUsage.Json

/-- The value of a field. -/
inductive Scalar where
  | text (value : List Char)
  | number (value : Nat)
deriving DecidableEq, Repr

/-- The fields of an object in order. -/
abbrev Record := List (List Char × Scalar)

/-- A hexadecimal digit in lower case. -/
def hexDigit (n : Nat) : Char := if n < 10 then Text.digit n else Char.ofNat ('a'.toNat + (n - 10))

/-- A character inside a string. -/
def escape (c : Char) : List Char :=
  if c = '"' then ['\\', '"']
  else if c = '\\' then ['\\', '\\']
  else if c = '\x08' then ['\\', 'b']
  else if c = '\x0c' then ['\\', 'f']
  else if c = '\n' then ['\\', 'n']
  else if c = '\r' then ['\\', 'r']
  else if c = '\t' then ['\\', 't']
  else if c.toNat < 0x20 then
    ['\\', 'u', '0', '0', hexDigit (c.toNat / 16), hexDigit (c.toNat % 16)]
  else [c]

/-- A text as a JSON string. -/
def encodeText (text : List Char) : List Char := '"' :: text.flatMap escape ++ ['"']

/-- A field value. -/
def Scalar.encode : Scalar → List Char
  | .text value => encodeText value
  | .number value => Text.decimal value

/-- A record on one line. -/
def compact (record : Record) : List Char :=
  let fields := record.map fun (name, value) => encodeText name ++ ':' :: value.encode
  '{' :: [','].intercalate fields ++ ['}']

/-- Records on lines of their own. -/
def compactLines (records : List Record) : List Char :=
  ['\n'].intercalate (records.map compact)

/-- The items between brackets, each on a line of its own with the given indentation and one more
step, or the bare brackets if there are none. -/
def block (opening closing : Char) (indentation : List Char) (items : List (List Char)) :
    List Char :=
  if items.isEmpty then [opening, closing]
  else
    let items := items.map fun item => indentation ++ "  ".toList ++ item
    opening :: '\n' :: ",\n".toList.intercalate items ++ '\n' :: indentation ++ [closing]

/-- A record over several lines. -/
def indented (indentation : List Char) (record : Record) : List Char :=
  block '{' '}' indentation (record.map fun (name, value) =>
    encodeText name ++ ": ".toList ++ value.encode)

/-- An array of records over several lines. -/
def indentedArray (records : List Record) : List Char :=
  block '[' ']' [] (records.map (indented "  ".toList))

end AssetUsage.Json
