import AssetUsage.Proofs.Report.JsonFormats
import AssetUsage.Proofs.Report.Tally

/-!
# What the formats have in common

Every format is about the same usages: the counts of `count` stand for the files that `files` lists
and add up to what `total` prints, and `jsonl`, `json` and `markdown` have an entry for each usage,
in order (`formats_agree`).
-/

namespace AssetUsage.Report

open Text

/-- The line that tells of a usage. -/
def bullet (record : UsageRecord) : List Char :=
  "- `".toList ++ record.path ++ ':' :: decimal record.line ++ "`: `".toList ++ trim record.text ++
    "`".toList

/-- The line begins as those that tell of a usage. -/
def isBullet (line : List Char) : Bool := "- `".toList.isPrefixOf line

/-- The line above a report. -/
def titleLine (target : List Char) : List Char := "## `".toList ++ target ++ "`".toList

/-- The line of a report without usages. -/
def noticeLine : List Char := "_No usages found._".toList

/-- The lines of a report. -/
def sectionLines (tree : Tree) (root : Path) (report : UsageReport) : List (List Char) :=
  [titleLine report.target, []] ++
    (if report.isEmpty then [noticeLine]
      else report.usages.map fun usage => bullet (usage.record tree root report.target)) ++ [[]]

/-- A bullet with its line feed is the entry of the usage. -/
theorem markdownEntry_eq (tree : Tree) (root : Path) (target : List Char) (usage : Usage) :
    markdownEntry tree root usage = bullet (usage.record tree root target) ++ ['\n'] := by
  rw [bullet, List.append_assoc]
  rfl

/-- A report is its lines, each with a line feed behind it. -/
theorem markdownSection_eq (tree : Tree) (root : Path) (report : UsageReport) :
    markdownSection tree root report = (sectionLines tree root report).flatMap (· ++ ['\n']) := by
  have ends : "`\n\n".toList = "`".toList ++ ['\n'] ++ ([] ++ ['\n']) := rfl
  have notice : "_No usages found._\n\n".toList = noticeLine ++ ['\n'] ++ ([] ++ ['\n']) := rfl
  have entries : markdownEntry tree root =
      fun usage => bullet (usage.record tree root report.target) ++ ['\n'] :=
    funext (markdownEntry_eq tree root report.target)
  rw [markdownSection, sectionLines, titleLine, ends, notice, entries]
  cases empty : report.isEmpty with
  | true => simp
  | false => simp [List.flatMap_map]

/-- The lines of a report that begin as bullets tell of its usages. -/
theorem filter_isBullet_sectionLines (tree : Tree) (root : Path) (report : UsageReport) :
    (sectionLines tree root report).filter isBullet =
      report.usages.map fun usage => bullet (usage.record tree root report.target) := by
  have bullets : ∀ record, isBullet (bullet record) = true := fun _ => rfl
  have title : isBullet (titleLine report.target) = false := rfl
  have notice : isBullet noticeLine = false := rfl
  have blank : isBullet [] = false := rfl
  rw [sectionLines]
  cases empty : report.isEmpty with
  | true =>
    have none_ : report.usages = [] := List.isEmpty_iff.1 empty
    simp [title, blank, notice, none_]
  | false => simp [title, blank, List.filter_map, Function.comp_def, bullets]

/-- A control character that is not in the target and not in what is told of the usages is not in
the lines of a report. -/
theorem control_not_mem_sectionLines {control : Char} (isControl : control.toNat < 0x20)
    {tree : Tree} {root : Path} {report : UsageReport} (target : control ∉ report.target)
    (told : ∀ usage ∈ report.usages,
      control ∉ usage.file.shownFrom root ∧ control ∉ usage.lineText tree) :
    ∀ line ∈ sectionLines tree root report, control ∉ line := by
  have apart : ∀ {text : List Char}, text.all (0x20 ≤ ·.toNat) = true → control ∉ text :=
    control_not_mem_of_visible isControl
  have bullets : ∀ usage ∈ report.usages,
      control ∉ bullet (usage.record tree root report.target) := by
    intro usage mem
    obtain ⟨path, text⟩ := told usage mem
    have trimmed : control ∉ trim (usage.lineText tree) := fun left =>
      text ((isInfix_trim _).subset left)
    have number := control_not_mem_decimal isControl usage.number.toNat
    have marks : control ∉ "- `:".toList := apart rfl
    simp only [String.reduceToList, List.mem_cons, List.not_mem_nil, or_false, not_or] at marks
    simp [bullet, Usage.record, path, trimmed, number, marks]
  have title : control ∉ titleLine report.target :=
    List.not_mem_append (List.not_mem_append (apart rfl) target) (apart rfl)
  have notice : control ∉ noticeLine := apart rfl
  rw [sectionLines]
  refine List.forall_mem_append.2 ⟨List.forall_mem_append.2 ⟨?_, ?_⟩, by simp⟩
  · simp [title]
  · split
    · simp [notice]
    · simpa using bullets

/-- Lines with a line feed behind each are told apart at the line feeds. -/
theorem splitOn_flatMap_lineFeed {lines : List (List Char)} (plain : ∀ line ∈ lines, '\n' ∉ line) :
    (lines.flatMap (· ++ ['\n'])).splitOn '\n' = lines ++ [[]] := by
  induction lines with
  | nil => rfl
  | cons line others ih =>
    obtain ⟨first, rest⟩ := List.forall_mem_cons.1 plain
    rw [List.flatMap_cons, List.append_assoc, List.singleton_append, List.splitOn_append_cons_self,
      List.splitOn_eq_singleton first, ih rest]
    rfl

/-- The bullets of reports without line feeds tell of all usages in order. -/
theorem filter_isBullet_markdown {tree : Tree} {root : Path} {reports : List UsageReport}
    (targets : ∀ report ∈ reports, '\n' ∉ report.target)
    (told : ∀ usage ∈ usages reports,
      '\n' ∉ usage.file.shownFrom root ∧ '\n' ∉ usage.lineText tree) :
    ((reports.flatMap (markdownSection tree root)).splitOn '\n').filter isBullet =
      (records tree root reports).map bullet := by
  have plain : ∀ line ∈ reports.flatMap (sectionLines tree root), '\n' ∉ line := by
    intro line mem
    obtain ⟨report, listed, part⟩ := List.mem_flatMap.1 mem
    exact control_not_mem_sectionLines (by decide) (targets report listed)
      (fun usage found => told usage (List.mem_flatMap.2 ⟨report, listed, found⟩)) line part
  have whole : reports.flatMap (markdownSection tree root) =
      (reports.flatMap (sectionLines tree root)).flatMap (· ++ ['\n']) := by
    rw [funext (markdownSection_eq tree root), List.flatMap_assoc]
  have blank : [[]].filter isBullet = [] := rfl
  rw [whole, splitOn_flatMap_lineFeed plain, List.filter_append, blank, List.append_nil,
    List.filter_flatMap, funext (filter_isBullet_sectionLines tree root), records,
    List.map_flatMap]
  simp only [List.map_map, Function.comp_def]

/-- The pieces between line feeds, none for the empty text. -/
def pieces (text : List Char) : List (List Char) :=
  if text.isEmpty then [] else text.splitOn '\n'

/-- Records one a line are the pieces between line feeds. -/
theorem pieces_compactLines (records : List Json.Record) :
    pieces (Json.compactLines records) = records.map Json.compact := by
  cases records with
  | nil => rfl
  | cons first others =>
    have filled : (Json.compactLines (first :: others)).isEmpty = false := by
      cases others with
      | nil => rw [Json.compactLines, List.map_singleton, List.intercalate_singleton]; rfl
      | cons second others =>
        rw [Json.compactLines, List.map_cons, List.map_cons, List.intercalate_cons_cons]
        rfl
    rw [pieces, filled]
    exact splitOn_compactLines (List.cons_ne_nil first others)

/-- All formats describe the same usages. The entries of `count` are a tally of the shown paths and
those of `files` are its paths; the counts add up to `total`; and the lines of `jsonl`, the array
of `json` and, where nothing holds a line feed, the bullets of `markdown` are as many and tell of
the usages in order. -/
theorem formats_agree (tree : Tree) (root : Path) (colour : Bool) (reports : List UsageReport) :
    let output := fun format => render tree root ⟨format, colour⟩ reports
    let paint := Colour.magenta.paintIf colour
    let told := reports.flatMap fun report => report.usages.map (·.record tree root report.target)
    let entries := referencingFiles root reports
    let total := (entries.map Prod.snd).sum
    Tallies ((usages reports).map (·.file.shownFrom root)) entries ∧
    output .count = joinLines (entries.map fun entry => paint entry.1 ++ ':' :: decimal entry.2) ∧
    output .files = joinLines ((entries.map Prod.fst).map paint) ∧
    output .total = decimal total ∧
    told.length = total ∧
    (pieces (output .jsonl)).map Json.decode? = told.map (some ·.toJson) ∧
    Json.decode? (output .json) = some (.array (told.map UsageRecord.toJson)) ∧
    ((∀ report ∈ reports, '\n' ∉ report.target) →
      (∀ record ∈ told, '\n' ∉ record.path ∧ '\n' ∉ record.text) →
      ((output .markdown).splitOn '\n').filter isBullet = told.map bullet) := by
  intro output paint told entries total
  have tallies := tallies_tally ((usages reports).map (·.file.shownFrom root))
  rw [← referencingFiles_eq] at tallies
  have counted : total = (usages reports).length := tallies.total.trans (List.length_map _)
  refine ⟨tallies, rfl, ?_, ?_, ?_, ?_, decode?_indentedArray_usageFields told, ?_⟩
  · rw [List.map_map]
    rfl
  · rw [counted]
    rfl
  · rw [counted]
    exact length_records tree root reports
  · change (pieces (Json.compactLines (told.map usageFields))).map _ = _
    rw [pieces_compactLines, map_decode?_compact]
  · intro targets plain
    refine filter_isBullet_markdown targets fun usage mem => ?_
    obtain ⟨report, listed, found⟩ := List.mem_flatMap.1 mem
    exact plain (usage.record tree root report.target)
      (List.mem_flatMap.2 ⟨report, listed, List.mem_map_of_mem found⟩)

end AssetUsage.Report
