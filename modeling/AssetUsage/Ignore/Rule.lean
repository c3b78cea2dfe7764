import AssetUsage.Ignore.GlobReader
import AssetUsage.Text.Basic

/-!
# Ignore rules

A rule ignores the paths that its glob matches, relative to the directory of its file, or keeps them
if it starts with `!`; one that ends with `/` is about directories alone. A glob without a separator
describes a name at any depth. Of several rules that match a path the last one counts.
-/

namespace AssetUsage.Ignore

/-- What rules say about a path. -/
inductive Verdict where
  | ignored
  | kept
deriving DecidableEq, Repr

/-- A rule of an ignore file. -/
structure Rule where
  glob : List GlobToken
  verdict : Verdict
  onlyDirectories : Bool

/-- The line without blanks at its end, unless it ends with an escaped space. -/
def trimRule (line : List Char) : List Char :=
  if "\\ ".toList.isSuffixOf line then line else Text.trimEnd line

/-- The text of the rule on a line; an empty line and a comment hold none. -/
def ruleText? (line : List Char) : Option (List Char) :=
  if line.head? = some '#' then none
  else
    match trimRule line with
    | [] => none
    | text => some text

/-- The text in front of a final `/`, which may have been escaped. -/
def beforeFinalSlash? (text : List Char) : Option (List Char) :=
  match text.reverse with
  | '/' :: '\\' :: before => some before.reverse
  | '/' :: before => some before.reverse
  | _ => none

/-- The verdict of a rule, whether it starts at the directory of its file, and the rest of its
text. -/
def readMarks : List Char → Verdict × Bool × List Char
  | '\\' :: '!' :: rest => (.ignored, false, '!' :: rest)
  | '\\' :: '#' :: rest => (.ignored, false, '#' :: rest)
  | '!' :: '/' :: rest => (.kept, true, rest)
  | '!' :: rest => (.kept, false, rest)
  | '/' :: rest => (.ignored, true, rest)
  | rest => (.ignored, false, rest)

/-- The text of the glob of a rule: one that names no directory holds at any depth, and one that
ends with `/**` is about what a directory holds and not the directory. -/
def globText (anchored : Bool) (text : List Char) : List Char :=
  let text :=
    if anchored || text.contains '/' || text = "**".toList then text else "**/".toList ++ text
  if "/**".toList.isSuffixOf text then text ++ "/*".toList else text

/-- The rule with a text. -/
def Rule.ofText (text : List Char) : Except GlobError Rule :=
  let (verdict, anchored, text) := readMarks text
  let before := beforeFinalSlash? text
  (readGlob (globText anchored (before.getD text))).map fun glob =>
    ⟨glob, verdict, before.isSome⟩

/-- What rules, the last first, say about a path. -/
def verdict? (rules : List Rule) (path : List UInt8) (directory : Bool) : Option Verdict :=
  (rules.find? fun rule =>
    (directory || !rule.onlyDirectories) && matchesGlob rule.glob path).map (·.verdict)

end AssetUsage.Ignore
