import AssetUsage.Text.Basic
import AssetUsage.Text.Word

/-!
# Render calls

A call of `render`, or of a variant such as `render_to_string`, names templates in its options and
in a bare first argument. A line is cut before each call; the arguments of a call end at the bracket
that closes it, at a bracket that was never opened, at `;`, at a comment and at `%>`.
-/

namespace AssetUsage.Call

/-- The form in which a render call names a file. -/
inductive RenderKey where
  /-- A template below the views directory. -/
  | template
  /-- A template in the views directory of the controller. -/
  | action
  | file
  | partialTemplate
  | layout
deriving DecidableEq, Repr

/-- The option key that stands for a form. -/
def RenderKey.word : RenderKey → String
  | .template => "template"
  | .action => "action"
  | .file => "file"
  | .partialTemplate => "partial"
  | .layout => "layout"

/-- The form that an option key stands for. -/
def RenderKey.ofWord? (word : List Char) : Option RenderKey :=
  [template, action, file, partialTemplate, layout].find? (·.word.toList == word)

/-- A name passed to a render call. -/
structure RenderReference where
  key : RenderKey
  name : List Char
deriving DecidableEq, Repr

/-- The text behind the word `render` or `render_` and more word characters, if that word starts
here. -/
def readRenderWord? (text : List Char) : Option (List Char) :=
  match "render".toList.isPrefixOf? text with
  | some ('_' :: c :: rest) => if Text.isWord c then some (rest.dropWhile Text.isWord) else none
  | some (c :: rest) => if Text.isWord c then none else some (c :: rest)
  | some [] => some []
  | none => none

/-- The first render word of a text as the text before it and the text behind it, where `inWord`
says that the text before continues a word. -/
def nextRenderWord? (inWord : Bool) : List Char → Option (List Char × List Char)
  | [] => none
  | c :: rest =>
    match if inWord then none else readRenderWord? (c :: rest) with
    | some behind => some ([], behind)
    | none =>
      (nextRenderWord? (Text.isWord c) rest).map fun (before, behind) => (c :: before, behind)

/-- The texts behind a render word and behind each further one, each up to the next. A render word
takes at least one character, so the text gets shorter. -/
def cutAtRenderWords (text : List Char) : List (List Char) :=
  match nextRenderWord? true text with
  | none => [text]
  | some (before, behind) =>
    if behind.length < text.length then before :: cutAtRenderWords behind else [before]
termination_by text.length

/-- The text behind each render word of a line, up to the next. -/
def renderTexts (line : List Char) : List (List Char) :=
  match nextRenderWord? false line with
  | none => []
  | some (_, behind) => cutAtRenderWords behind

/-- Where a reader stands in the text of a call. -/
inductive Standing where
  | code
  | quoted (quote : Char)
  /-- Inside quotes and behind a backslash. -/
  | escaped (quote : Char)
deriving DecidableEq, Repr

/-- The text up to the end of the arguments, `depth` open brackets deep. In a call with parentheses
the bracket that closes the first one is the end. -/
def cutArguments (parenthesized : Bool) (standing : Standing) (depth : Nat) :
    List Char → List Char
  | [] => []
  | c :: rest =>
    let continueWith (standing : Standing) (depth : Nat) :=
      c :: cutArguments parenthesized standing depth rest
    match standing with
    | .escaped quote => continueWith (.quoted quote) depth
    | .quoted quote =>
      if c = '\\' then continueWith (.escaped quote) depth
      else if c = quote then continueWith .code depth
      else continueWith (.quoted quote) depth
    | .code =>
      if Text.isQuote c then continueWith (.quoted c) depth
      else if c = '(' ∨ c = '[' ∨ c = '{' then continueWith .code (depth + 1)
      else if c = ')' ∨ c = ']' ∨ c = '}' then
        if depth = 0 ∨ (depth = 1 ∧ parenthesized) then []
        else continueWith .code (depth - 1)
      else if depth = 0 ∧ (c = ';' ∨ c = '#') then []
      else if c = '%' ∧ rest.head? = some '>' then []
      else continueWith .code depth

/-- The arguments at the front of the text behind a render word. -/
def callArguments (text : List Char) : List Char :=
  cutArguments ((Text.trimStart text).head? == some '(') .code 0 text

/-- A name given as a bare first argument: a template if it has a directory, else an action. -/
def bareReference? (arguments : List Char) : Option RenderReference :=
  let inside :=
    match Text.trimStart arguments with
    | '(' :: rest => Text.trimStart rest
    | rest => rest
  (Text.readBetweenQuotes? inside).map fun (name, _) =>
    ⟨if '/' ∈ name then .template else .action, name⟩

/-- The key of an option, written `:key =>` or `key:`, and the text behind it. -/
def readOptionKey? : Text.Reader (List Char) := fun before text =>
  match text with
  | ':' :: rest =>
    match rest.takeWhile Text.isWord, Text.trimStart (rest.dropWhile Text.isWord) with
    | key@(_ :: _), '=' :: '>' :: behind => some (key, behind)
    | _, _ => none
  | _ =>
    if before.any Text.isWord then none
    else
      match text.takeWhile Text.isWord, text.dropWhile Text.isWord with
      | key@(_ :: _), ':' :: behind => some (key, behind)
      | _, _ => none

/-- An option with a quoted value, and the text behind it. -/
def readOption? : Text.Reader (List Char × List Char) := fun before text => do
  let (key, behind) ← readOptionKey? before text
  let (value, behind) ← Text.readBetweenQuotes? (Text.trimStart behind)
  return ((key, value), behind)

/-- The references among the options of a call. -/
def optionReferences (arguments : List Char) : List RenderReference :=
  (Text.findAll readOption? arguments).filterMap fun (key, name) =>
    (RenderKey.ofWord? key).map (⟨·, name⟩)

/-- The references of a call with the given arguments. -/
def argumentReferences (arguments : List Char) : List RenderReference :=
  (bareReference? arguments).toList ++ optionReferences arguments

/-- The references of all render calls on a line. -/
def renderReferences (line : List Char) : List RenderReference :=
  (renderTexts line).flatMap fun text => argumentReferences (callArguments text)

end AssetUsage.Call
