/-!
# Output formats and colours

The seven forms in which usages are printed, known by name in any case. Coloured text stands between
the escape sequence of its colour and the reset sequence; a reset sequence inside the text would end
the colour early, so the colour is set again behind it.
-/

namespace AssetUsage

/-- A form of output. -/
inductive OutputFormat where
  /-- File, number and text of every line. -/
  | lines
  /-- Every file once. -/
  | files
  /-- Every file with the number of its usages. -/
  | count
  /-- The number of all usages. -/
  | total
  /-- A JSON object a line. -/
  | jsonl
  /-- A JSON array. -/
  | json
  /-- Sections and lists. -/
  | markdown
deriving DecidableEq, Repr

/-- A name that no format has. -/
structure UnknownFormat where
  name : List Char
deriving DecidableEq, Repr

/-- The text of the error. -/
def UnknownFormat.message (error : UnknownFormat) : List Char :=
  "Unknown format: ".toList ++ error.name

namespace OutputFormat

/-- The character in lower case, as far as that is an ASCII letter: beyond ASCII only the Kelvin
sign has such a form. -/
def lowerAscii (c : Char) : Char := if c = '\u212A' then 'k' else c.toLower

/-- The name of a format. -/
def word : OutputFormat → String
  | .lines => "lines"
  | .files => "files"
  | .count => "count"
  | .total => "total"
  | .jsonl => "jsonl"
  | .json => "json"
  | .markdown => "markdown"

/-- The format with a name, which for Markdown may be short. -/
def ofName (name : List Char) : Except UnknownFormat OutputFormat :=
  let lowered := name.map lowerAscii
  if lowered = "md".toList then .ok .markdown
  else
    match [lines, files, count, total, jsonl, json, markdown].find? (·.word.toList == lowered) with
    | some format => .ok format
    | none => .error ⟨name⟩

/-- The format prints the texts of lines. -/
def showsLineText : OutputFormat → Bool
  | .lines | .jsonl | .json | .markdown => true
  | .files | .count | .total => false

end OutputFormat

/-- A colour of output. -/
inductive Colour where
  /-- The colour of paths. -/
  | magenta
  /-- The colour of line numbers. -/
  | green
deriving DecidableEq, Repr

namespace Colour

/-- The escape sequence that sets the colour. -/
def sequence : Colour → List Char
  | .magenta => "\x1b[35m".toList
  | .green => "\x1b[32m".toList

/-- The escape sequence that ends every colour. -/
def reset : List Char := "\x1b[0m".toList

/-- The text with the colour set again behind each reset sequence. -/
def resume (colour : Colour) : List Char → List Char
  | '\x1b' :: '[' :: '0' :: 'm' :: rest => reset ++ colour.sequence ++ colour.resume rest
  | c :: rest => c :: colour.resume rest
  | [] => []

/-- The text in the colour. -/
def paint (colour : Colour) (text : List Char) : List Char :=
  colour.sequence ++ colour.resume text ++ reset

/-- The text in the colour if colours are on. -/
def paintIf (enabled : Bool) (colour : Colour) (text : List Char) : List Char :=
  if enabled then colour.paint text else text

end Colour

end AssetUsage
