import AssetUsage.Ignore.ExcludeFile
import AssetUsage.Ignore.RuleFile

/-!
# Ignore files of a tree

Every directory may have three ignore files: `.ignore`, `.gitignore` and an exclude file. For each
of the three the nearest directory whose file says something about a path counts, from the directory
of the path up to the root of the file system; among the three `.ignore` is the strongest and the
exclude file the weakest. Weaker than all of them is git's global ignore file, whose rules hold for
paths relative to the working directory.
-/

namespace AssetUsage.Ignore

/-- The rules of git's global ignore file. -/
structure GlobalRules where
  /-- The directory that the rules are relative to, as bytes. -/
  base : List UInt8
  rules : List Rule

/-- The ignore rules that hold in one directory. -/
structure Level where
  /-- The number of names on the way to the directory. -/
  depth : Nat
  /-- The rules of `.ignore`. -/
  own : List Rule
  /-- The rules of `.gitignore`. -/
  shared : List Rule
  /-- The rules of the exclude file. -/
  excluded : List Rule
  /-- The rules of git's global ignore file. -/
  general : GlobalRules
  problems : List Problem

/-- What the ignore file at a path says; no file says nothing. -/
def ruleFileAt (tree : Tree) (file : Path) : RuleFile :=
  match tree.find file with
  | .ok (.file content) => .read file content.data.toList
  | _ => .empty

/-- What the exclude file of a directory says. -/
def excludeRules (tree : Tree) (dir : Path) : RuleFile :=
  match excludeFile? tree dir with
  | .ok (some file) => ruleFileAt tree file
  | .ok none => .empty
  | .error problem => ⟨[], [problem]⟩

/-- What git's global ignore file says. It is read only if there is a working directory. -/
def globalRules (tree : Tree) : GlobalRules :=
  match tree.workingDir with
  | some dir =>
    ⟨Text.Utf8.encode dir.text,
      ((tree.globalIgnore tree.root).elim .empty (ruleFileAt tree)).rules⟩
  | none => ⟨[], []⟩

/-- The ignore rules of the directory at the end of a chain of names. -/
def Level.of (tree : Tree) (names : List Segment) : Level :=
  let dir := Path.assemble .root names
  let own := ruleFileAt tree (dir.join (.ofString ".ignore"))
  let shared := ruleFileAt tree (dir.join (.ofString ".gitignore"))
  let excluded := excludeRules tree dir
  { depth := names.length
    own := own.rules
    shared := shared.rules
    excluded := excluded.rules
    general := globalRules tree
    problems := own.problems ++ shared.problems ++ excluded.problems }

/-- The levels of the directories above a place, the last first. -/
def levelsAbove (tree : Tree) (names : List Segment) : List Level :=
  (List.range names.length).reverse.map fun depth => Level.of tree (names.take depth)

/-- The levels that hold in a directory: its own one and those above it. -/
def levelsAt (tree : Tree) (names : List Segment) : List Level :=
  Level.of tree names :: levelsAbove tree names

/-- The problems of the levels above a place, the first directory first. -/
def problemsAbove (tree : Tree) (names : List Segment) : List Problem :=
  (levelsAbove tree names).reverse.flatMap (·.problems)

/-- The path behind the first names as bytes. -/
def relativeBytes (depth : Nat) (names : List Segment) : List UInt8 :=
  Text.Utf8.encode (['/'].intercalate (names.drop depth))

/-- What the levels, the nearest first, say about a path by one kind of ignore file. -/
def verdictOf (rules : Level → List Rule) (levels : List Level) (names : List Segment)
    (directory : Bool) : Option Verdict :=
  levels.findSome? fun level =>
    verdict? (rules level) (relativeBytes level.depth names) directory

/-- The byte of a separator. -/
def separator : UInt8 := 0x2F

/-- The path at the end of a chain of names behind the base, whose text is taken away as it stands
with one separator behind it; a path with another text stays whole. -/
def GlobalRules.behindBase (general : GlobalRules) (names : List Segment) : List UInt8 :=
  let path := Text.Utf8.encode (Path.assemble .root names).text
  match general.base.isPrefixOf? path with
  | some rest => if rest.head? = some separator then rest.tail else rest
  | none => path

/-- What git's global ignore file says about a path. -/
def GlobalRules.verdict? (general : GlobalRules) (names : List Segment) (directory : Bool) :
    Option Verdict :=
  Ignore.verdict? general.rules (general.behindBase names) directory

/-- The levels ignore a path. The global rules are the same at every level. -/
def isIgnored (levels : List Level) (names : List Segment) (directory : Bool) : Bool :=
  let verdict := (verdictOf Level.own levels names directory).or <|
    (verdictOf Level.shared levels names directory).or <|
      (verdictOf Level.excluded levels names directory).or <|
        levels.head?.bind fun level => level.general.verdict? names directory
  verdict == some .ignored

end AssetUsage.Ignore
