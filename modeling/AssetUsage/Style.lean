import AssetUsage.Text.Basic

/-!
# References of stylesheets

A stylesheet imports another one by `@import`, blanks, and a name that stands bare, behind a quote,
or behind `url(`. The name ends before a quote, a closing parenthesis, a blank or a semicolon.
Images are named in `url(…)`, bare or in quotes, and as the quoted value of `background` or
`background-image`; neither form of name holds a quote or, in `url(…)`, a closing parenthesis.
-/

namespace AssetUsage.Style

/-- The character can stand in an imported name. -/
def isImportChar (c : Char) : Bool :=
  !Text.isQuote c && c != ')' && !Text.isBlank c && c != ';'

/-- A name behind at most one quote, and the text behind the name. -/
def readImportName? (text : List Char) : Option (List Char × List Char) :=
  let inside := match text with
    | c :: rest => if Text.isQuote c then rest else text
    | [] => []
  match inside.takeWhile isImportChar with
  | [] => none
  | name => some (name, inside.dropWhile isImportChar)

/-- An import that starts here as the name that it imports, and the text behind the name. -/
def readImport? : Text.Reader (List Char) := fun _ text => do
  let behind ← "@import".toList.isPrefixOf? text
  if behind.head?.any Text.isBlank then
    let operand := Text.trimStart behind
    match "url(".toList.isPrefixOf? operand with
    | some inside => (readImportName? (Text.trimStart inside)).or (readImportName? operand)
    | none => readImportName? operand
  else none

/-- The names that a line imports. -/
def importedNames (line : List Char) : List (List Char) := Text.findAll readImport? line

/-- The character can stand in the argument of `url`. -/
def isUrlChar (c : Char) : Bool := !Text.isQuote c && c != ')'

/-- A bare argument without the blanks at its end, of which the first character always stays. -/
def bareArgument : List Char → List Char
  | [] => []
  | c :: rest => c :: Text.trimEnd rest

/-- An argument of `url` up to the closing parenthesis, which may follow at once or behind a quote
and blanks, and the text behind the parenthesis. -/
def readUrlArgument? (text : List Char) : Option (List Char × List Char) :=
  match text.takeWhile isUrlChar, text.dropWhile isUrlChar with
  | [], _ => none
  | run, ')' :: behind => some (bareArgument run, behind)
  | run, _ :: closing =>
    match Text.trimStart closing with
    | ')' :: behind => some (run, behind)
    | _ => none
  | _, [] => none

/-- The argument in the text behind `url(`: without the blanks and the quote before it, or, where
nothing else is left, the last of these blanks. -/
def readUrlInside? (inside : List Char) : Option (List Char × List Char) :=
  let operand := Text.trimStart inside
  let unquoted := match operand with
    | c :: rest => if Text.isQuote c then readUrlArgument? rest else none
    | [] => none
  let blankArgument := match (inside.takeWhile Text.isBlank).getLast? with
    | some blank => readUrlArgument? (blank :: operand)
    | none => none
  (unquoted.or (readUrlArgument? operand)).or blankArgument

/-- A `url(…)` that starts here as its argument, and the text behind it. -/
def readUrl? : Text.Reader (List Char) := fun _ text =>
  ("url(".toList.isPrefixOf? text).bind readUrlInside?

/-- A background that starts here as its quoted value, and the text behind it. -/
def readBackground? : Text.Reader (List Char) := fun _ text => do
  let behind ← "background".toList.isPrefixOf? text
  let behind := ("-image".toList.isPrefixOf? behind).getD behind
  match Text.trimStart behind with
  | ':' :: rest => Text.readBetweenQuotes? (Text.trimStart rest)
  | _ => none

/-- The names of images on a line of a stylesheet. -/
def imageNames (line : List Char) : List (List Char) :=
  Text.findAll readUrl? line ++ Text.findAll readBackground? line

end AssetUsage.Style
