import AssetUsage.Text.Alphanumeric
import AssetUsage.Text.Basic
import AssetUsage.Text.Word

/-!
# Helper calls

A view helper is called by its name, with or without parentheses, on a list of arguments. The
positional arguments at the front of the list are string literals and symbols; reading stops at
anything else, and at the key of an option, so no option is taken for an argument.
-/

namespace AssetUsage.Call

/-- A positional argument of a helper. -/
inductive Argument where
  /-- A quoted string. -/
  | literal (value : List Char)
  /-- A symbol, without its colon. -/
  | symbol (name : List Char)
deriving DecidableEq, Repr

/-- The text behind blanks, at most one comma, and blanks. -/
def skipComma (text : List Char) : List Char :=
  match Text.trimStart text with
  | ',' :: rest => Text.trimStart rest
  | rest => rest

/-- The text goes on with an arrow, so what stands before it is the key of an option. -/
def followedByArrow (text : List Char) : Bool := "=>".toList.isPrefixOf (Text.trimStart text)

/-- The name of a symbol, a letter or `_` and word characters behind the colon, and the text behind
it. -/
def readSymbol? : List Char → Option (List Char × List Char)
  | ':' :: c :: rest =>
    if c.isAlpha || c == '_' then
      some (c :: rest.takeWhile Text.isWord, rest.dropWhile Text.isWord)
    else none
  | _ => none

/-- The first argument of a text, and the text behind it. -/
def readArgument? (text : List Char) : Option (Argument × List Char) :=
  let text := skipComma text
  match Text.readQuoted? text with
  | some (value, behind) => some (.literal value, behind)
  | none =>
    match readSymbol? text with
    | some (name, behind) =>
      if followedByArrow behind then none else some (.symbol name, behind)
    | none => none

/-- The positional arguments at the front of a text. Every argument takes at least one character,
so the text gets shorter. -/
def readArguments (text : List Char) : List Argument :=
  match readArgument? text with
  | none => []
  | some (argument, behind) =>
    if behind.length < text.length then argument :: readArguments behind else [argument]
termination_by text.length

/-- The text behind blanks and at most one opening parenthesis. -/
def enterParenthesis (text : List Char) : List Char :=
  match Text.trimStart text with
  | '(' :: rest => rest
  | rest => rest

/-- The character continues the name of a helper. -/
def continuesName (c : Char) : Bool := Text.isAlphanumeric c || c == '_'

/-- An occurrence of the name `helper` here: the arguments if no name continues it on either side,
else nothing. -/
def readHelperCall? (helper : List Char) : Text.Reader (Option (List Argument)) :=
  fun before text =>
    (helper.isPrefixOf? text).map fun behind =>
      if before.any continuesName || behind.head?.any continuesName then (none, behind)
      else (some (readArguments (enterParenthesis behind)), behind)

/-- The arguments of each call of `helper` on a line. -/
def helperCalls (line helper : List Char) : List (List Argument) :=
  (Text.findAll (readHelperCall? helper) line).filterMap id

end AssetUsage.Call
