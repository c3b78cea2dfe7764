import AssetUsage.Text.Basic

/-!
# Opening tags

An opening tag runs from `<` and a name to the next `>`, even if that stands in a quoted value. The
text behind its name is a list of attributes: names alone, or names with a value that is
double-quoted, single-quoted or bare, separated by blanks and possibly ended by `/`. Names do not
depend on case, and the last value of a name counts. A text of any other form holds no attributes
at all.
-/

namespace AssetUsage.Markup

/-- Attribute values by lower-case name, one for each name. -/
structure Attributes where
  entries : List (List Char × List Char)
deriving DecidableEq, Repr

namespace Attributes

/-- No attributes. -/
def empty : Attributes := ⟨[]⟩

/-- The value of a name. -/
def get? (attributes : Attributes) (name : List Char) : Option (List Char) :=
  attributes.entries.lookup name

/-- The attributes with a value for a name, in the place of an earlier one. -/
def set (attributes : Attributes) (name value : List Char) : Attributes :=
  ⟨attributes.entries.filter (·.1 != name) ++ [(name, value)]⟩

end Attributes

/-- The character can start an attribute name. -/
def isNameStart (c : Char) : Bool := c.isAlpha || c == '_' || c == ':'

/-- The character can stand in an attribute name. -/
def isNameChar (c : Char) : Bool :=
  c.isAlphanum || c == '-' || c == '_' || c == ':' || c == '.'

/-- The character can stand in a bare value. -/
def isBareChar (c : Char) : Bool := !Text.isBlank c && !Text.isQuote c && c != '>'

/-- What follows an attribute: blanks, which are taken away, or the end of the text, before which
one `/` may stand. -/
def endAttribute? : List Char → Option (List Char)
  | [] => some []
  | ['/'] => some []
  | c :: rest => if Text.isBlank c then some (Text.trimStart rest) else none

/-- A value: quoted, or a bare run as long as possible. -/
def readValue? (text : List Char) : Option (List Char × List Char) :=
  (Text.readQuoted? text).or <|
    match text.takeWhile isBareChar with
    | [] => none
    | value => some (value, text.dropWhile isBareChar)

/-- `=` and a value with the end of the attribute. -/
def readAssignment? (text : List Char) : Option (List Char × List Char) :=
  match Text.trimStart text with
  | '=' :: rest => do
    let (value, behind) ← readValue? (Text.trimStart rest)
    return (value, ← endAttribute? behind)
  | _ => none

/-- The first attribute of a text as a name and its value, which is empty for a name alone, and the
text behind it. -/
def readAttribute? (text : List Char) : Option ((List Char × List Char) × List Char) :=
  match Text.trimStart text with
  | [] => none
  | c :: rest =>
    if isNameStart c then
      let name := (c :: rest.takeWhile isNameChar).map Char.toLower
      let behind := rest.dropWhile isNameChar
      match readAssignment? behind with
      | some (value, behind) => some ((name, value), behind)
      | none => (endAttribute? behind).map fun behind => ((name, []), behind)
    else none

/-- The attributes read so far with those of the rest of the text. Every attribute takes at least
one character, so the text gets shorter. -/
def readAttributesFrom (found : Attributes) (text : List Char) : Attributes :=
  if Text.trim text = [] ∨ Text.trim text = ['/'] then found
  else
    match readAttribute? text with
    | none => .empty
    | some ((name, value), behind) =>
      if behind.length < text.length then readAttributesFrom (found.set name value) behind
      else .empty
termination_by text.length

/-- The attributes that a text holds. -/
def readAttributes (text : List Char) : Attributes := readAttributesFrom .empty text

/-- An opening tag. -/
structure Tag where
  /-- The lower-case name. -/
  name : List Char
  attributes : Attributes
deriving DecidableEq, Repr

/-- The character can stand in a tag name behind its first letter. -/
def isTagNameChar (c : Char) : Bool := c.isAlphanum || c == ':' || c == '-'

/-- The text of the attributes of a tag, from the end of its name to its `>`, and the text behind
the tag. -/
def readTagBody? : List Char → Option (List Char × List Char)
  | '>' :: behind => some ([], behind)
  | '/' :: '>' :: behind => some ([], behind)
  | c :: rest => if Text.isBlank c then Text.upTo? '>' (c :: rest) else none
  | [] => none

/-- The tag that starts here, and the text behind it. -/
def readTag? : Text.Reader Tag := fun _ text =>
  match text with
  | '<' :: c :: rest =>
    if c.isAlpha then
      (readTagBody? (rest.dropWhile isTagNameChar)).map fun (body, behind) =>
        let name := (c :: rest.takeWhile isTagNameChar).map Char.toLower
        (⟨name, readAttributes body⟩, behind)
    else none
  | _ => none

/-- The opening tags of a line. -/
def tags (line : List Char) : List Tag := Text.findAll readTag? line

/-- The opening tags with a name, whatever its case. -/
def tagsNamed (line name : List Char) : List Tag :=
  (tags line).filter (·.name == name.map Char.toLower)

end AssetUsage.Markup
