import AssetUsage.Ignore.Problem
import AssetUsage.Ignore.Rule
import AssetUsage.Text.Lines

/-!
# Ignore files

An ignore file has a rule on each line that is neither empty nor a comment. A line whose rule has no
glob is passed over, and a line that is not UTF-8 ends the file. The rules of a file hold together
or, if their globs have a fault, not at all.
-/

namespace AssetUsage.Ignore

/-- What an ignore file says. -/
structure RuleFile where
  /-- Its rules, the last first. -/
  rules : List Rule
  problems : List Problem

/-- A line of an ignore file that holds a rule. -/
structure RuleLine where
  /-- The number of the line, counted from 1. -/
  number : Nat
  text : List Char
  rule : Except GlobError Rule

/-- The lines that hold rules. -/
def ruleLines (lines : List (List Char)) : List RuleLine :=
  (lines.zipIdx 1).filterMap fun (line, number) =>
    (ruleText? line).map fun text => ⟨number, text, Rule.ofText text⟩

/-- What is wrong with the rule on a line of a file. -/
def RuleLine.problem? (file : Path) (line : RuleLine) : Option Problem :=
  match line.rule with
  | .ok _ => none
  | .error error => some (.line file line.number (.glob line.text error))

/-- The lines without the byte order marks at their start. -/
def withoutMark : List (List Char) → List (List Char)
  | [] => []
  | first :: others => first.dropWhile (· == '\uFEFF') :: others

namespace RuleFile

/-- An ignore file that is not there. -/
def empty : RuleFile := ⟨[], []⟩

/-- The problems of the lines of a file. A line that is not UTF-8 is no problem by itself. -/
def lineProblems (file : Path) (read : Text.SoundLines) (lines : List RuleLine) : List Problem :=
  match lines.filterMap (·.problem? file) with
  | [] => []
  | problems =>
    if read.broken then problems ++ [.line file (read.lines.length + 1) .notUtf8] else problems

/-- What the bytes of a file say. -/
def read (file : Path) (bytes : List UInt8) : RuleFile :=
  let read := Text.SoundLines.read bytes
  let lines := ruleLines (withoutMark read.lines)
  let problems := lineProblems file read lines
  let rules := lines.filterMap (·.rule.toOption)
  match globListFault? (rules.map (·.glob)) with
  | some fault => ⟨[], problems ++ [.globs fault]⟩
  | none => ⟨rules.reverse, problems⟩

end RuleFile

end AssetUsage.Ignore
