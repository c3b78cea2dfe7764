import AssetUsage.Path.Bytes
import AssetUsage.Report.Format
import AssetUsage.Report.Json
import AssetUsage.Text.Basic
import AssetUsage.Usage

/-!
# Rendering reports

Every format shows the same usages. Files are shown relative to the root of the project; `files` and
`count` list each shown file once, where it first occurs, and `count` and `total` count usages.
-/

namespace AssetUsage

/-- A target in a list of targets. -/
structure TargetRecord where
  /-- The target as shown. -/
  target : List Char
  /-- What is said about its kind, if anything. -/
  kind : Option (List Char)
deriving DecidableEq, Repr

/-- How output is rendered. -/
structure RenderStyle where
  format : OutputFormat
  colour : Bool
deriving DecidableEq, Repr

namespace Report

/-- The texts one a line, without a line end behind the last. -/
def joinLines (texts : List (List Char)) : List Char := ['\n'].intercalate texts

/-- A shown path, in its colour if colours are on. -/
def paintPath (style : RenderStyle) (path : List Char) : List Char :=
  Colour.magenta.paintIf style.colour path

/-- The fields of a usage. -/
def usageFields (record : UsageRecord) : Json.Record :=
  [("target".toList, .text record.target), ("path".toList, .text record.path),
   ("line".toList, .number record.line), ("text".toList, .text record.text)]

/-- The usages of all reports as records. -/
def records (tree : Tree) (root : Path) (reports : List UsageReport) : List UsageRecord :=
  reports.flatMap fun report => report.usages.map (·.record tree root report.target)

/-- The usages of all reports. -/
def usages (reports : List UsageReport) : List Usage := reports.flatMap (·.usages)

/-- Every text of a list once, where it first occurs, with the number of its occurrences. -/
def tally (texts : List (List Char)) : List (List Char × Nat) :=
  texts.eraseDups.map fun text => (text, texts.count text)

/-- The texts by which files are shown, with their numbers. -/
def fileEntries (root : OsPath) (files : List OsPath) : List (List Char × Nat) :=
  tally (files.map (·.shownFrom root))

/-- The files of the usages of all reports, one for each usage. -/
def usageFiles (reports : List UsageReport) : List OsPath := (usages reports).map (.ofPath ·.file)

/-- The shown referencing files with their numbers of usages. -/
def referencingFiles (root : Path) (reports : List UsageReport) : List (List Char × Nat) :=
  fileEntries (.ofPath root) (usageFiles reports)

/-- A usage in the format `lines`. -/
def lineEntry (tree : Tree) (root : Path) (style : RenderStyle) (usage : Usage) : List Char :=
  paintPath style (usage.file.shownFrom root) ++
    ':' :: Colour.green.paintIf style.colour (Text.decimal usage.number.toNat) ++
    ':' :: usage.lineText tree

/-- A usage in the format `markdown`. -/
def markdownEntry (tree : Tree) (root : Path) (usage : Usage) : List Char :=
  "- `".toList ++ usage.file.shownFrom root ++ ':' :: Text.decimal usage.number.toNat ++
    "`: `".toList ++ Text.trim (usage.lineText tree) ++ "`\n".toList

/-- A report in the format `markdown`. -/
def markdownSection (tree : Tree) (root : Path) (report : UsageReport) : List Char :=
  "## `".toList ++ report.target ++ "`\n\n".toList ++
    if report.isEmpty then "_No usages found._\n\n".toList
    else report.usages.flatMap (markdownEntry tree root) ++ ['\n']

/-- The reports in the format of the style. -/
def render (tree : Tree) (root : Path) (style : RenderStyle) (reports : List UsageReport) :
    List Char :=
  match style.format with
  | .lines => joinLines ((usages reports).map (lineEntry tree root style))
  | .files => joinLines ((referencingFiles root reports).map fun (path, _) =>
      paintPath style path)
  | .count => joinLines ((referencingFiles root reports).map fun (path, count) =>
      paintPath style path ++ ':' :: Text.decimal count)
  | .total => Text.decimal (usages reports).length
  | .jsonl => Json.compactLines ((records tree root reports).map usageFields)
  | .json => Json.indentedArray ((records tree root reports).map usageFields)
  | .markdown => reports.flatMap (markdownSection tree root)

/-- The fields of a target; a kind that is not there is left out. -/
def targetFields (record : TargetRecord) : Json.Record :=
  ("target".toList, .text record.target) ::
    (record.kind.map fun kind => ("kind".toList, Json.Scalar.text kind)).toList

/-- What follows a target when its kind is known. -/
def kindSuffix (record : TargetRecord) : List Char :=
  record.kind.elim [] (": ".toList ++ ·)

/-- The targets in the format of the style. -/
def renderTargets (style : RenderStyle) (targets : List TargetRecord) : List Char :=
  match style.format with
  | .jsonl => Json.compactLines (targets.map targetFields)
  | .json => Json.indentedArray (targets.map targetFields)
  | .total => Text.decimal targets.length
  | .markdown => targets.flatMap fun record =>
      "- `".toList ++ record.target ++ "`".toList ++ kindSuffix record ++ ['\n']
  | .lines | .files | .count => joinLines (targets.map fun record =>
      paintPath style record.target ++ kindSuffix record)

end Report

end AssetUsage
