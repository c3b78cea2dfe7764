import AssetUsage.Text.Basic
import AssetUsage.Text.Lines
import AssetUsage.Text.Word

/-!
# Layout declarations and controller classes

A class declares its layout on a line that starts with `layout`. A declaration names the layout by a
string or a symbol, or decides otherwise about it; a local variable of that name is none. A class
line of a controller starts with `class` and a name that ends with `Controller`.
-/

namespace AssetUsage.Call

/-- The text behind blanks and the word. -/
def behindWord? (word : String) (line : List Char) : Option (List Char) :=
  word.toList.isPrefixOf? (Text.trimStart line)

/-- The layout that a line declares by name. -/
def declaredLayout? (line : List Char) : Option (List Char) := do
  let behind ← behindWord? "layout" line
  let inside :=
    match Text.trimStart behind with
    | '(' :: rest => Text.trimStart rest
    | rest => rest
  match inside with
  | ':' :: rest =>
    match rest.takeWhile Text.isWord with
    | [] => none
    | name => some name
  | _ => (Text.readBetweenQuotes? inside).map (·.1)

/-- What follows the word `layout` and blanks in a declaration: a string, a symbol, a lambda or a
name. -/
def startsOperand : List Char → Bool
  | '-' :: '>' :: _ => true
  | c :: _ => Text.isQuote c || c == ':' || c.isAlpha || c == '_'
  | [] => false

/-- The line decides about the layout of its class. -/
def isLayoutDeclaration (line : List Char) : Bool :=
  match behindWord? "layout" line with
  | none => false
  | some behind =>
    match Text.trimStart behind with
    | [] => true
    | '(' :: _ => true
    | operand => behind.head?.any Text.isBlank && startsOperand operand

/-- Some line of the text decides about the layout of its class. -/
def declaresLayout (content : List Char) : Bool := (Text.lines content).any isLayoutDeclaration

/-- The name, made of word characters and colons, has a part that ends with `Controller`. -/
def hasControllerPart : List Char → Bool
  | [] => false
  | c :: rest =>
    match "Controller".toList.isPrefixOf? (c :: rest) with
    | some [] => true
    | some (':' :: _) => true
    | _ => hasControllerPart rest

/-- The line opens the class of a controller. -/
def isControllerClass (line : List Char) : Bool :=
  match behindWord? "class" line with
  | none => false
  | some behind =>
    behind.head?.any Text.isBlank &&
      hasControllerPart ((Text.trimStart behind).takeWhile fun c => Text.isWord c || c == ':')

end AssetUsage.Call
