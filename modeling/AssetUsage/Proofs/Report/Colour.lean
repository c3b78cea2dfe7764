import AssetUsage.Proofs.Path.Shown
import AssetUsage.Proofs.Report.Formats

/-!
# Output with and without colours

Colours put escape sequences into the output and change nothing else. As long as the paths and the
texts hold no escape character of their own, every escape character starts such a sequence, and
erasing the sequences goes through the output part by part (`ErasesTo.append`,
`ErasesTo.joinLines`).
-/

namespace AssetUsage

/-- The text without the sequences that set a colour or end it. -/
def withoutColour : List Char → List Char
  | '\x1b' :: '[' :: '3' :: '5' :: 'm' :: rest => withoutColour rest
  | '\x1b' :: '[' :: '3' :: '2' :: 'm' :: rest => withoutColour rest
  | '\x1b' :: '[' :: '0' :: 'm' :: rest => withoutColour rest
  | c :: rest => c :: withoutColour rest
  | [] => []

/-- Erasing the colours of a text leaves the plain text, whatever follows, and the plain text holds
no escape character. -/
structure ErasesTo (painted plain : List Char) : Prop where
  erased : ∀ rest, withoutColour (painted ++ rest) = plain ++ withoutColour rest
  visible : '\x1b' ∉ plain

/-- Only an escape character starts what is erased. -/
theorem withoutColour_cons {c : Char} (other : c ≠ '\x1b') (rest : List Char) :
    withoutColour (c :: rest) = c :: withoutColour rest := by
  rw [withoutColour] <;> exact fun _ escape => absurd escape other

/-- The sequence of a colour is erased. -/
theorem withoutColour_sequence (colour : Colour) (rest : List Char) :
    withoutColour (colour.sequence ++ rest) = withoutColour rest := by
  cases colour <;> rfl

/-- The sequence that ends the colours is erased. -/
theorem withoutColour_reset (rest : List Char) :
    withoutColour (Colour.reset ++ rest) = withoutColour rest := rfl

/-- In a text without escape characters no colour has to be set again. -/
theorem Colour.resume_of_not_mem (colour : Colour) {text : List Char} (visible : '\x1b' ∉ text) :
    colour.resume text = text := by
  induction text with
  | nil => rfl
  | cons c rest ih =>
    obtain ⟨other, visibleRest⟩ := List.ne_and_not_mem_of_not_mem_cons visible
    rw [resume, ih visibleRest]
    exact fun _ escape => absurd escape.symm other

namespace ErasesTo

variable {painted plain : List Char}

/-- Nothing is left of the colours in the whole text. -/
theorem whole (erases : ErasesTo painted plain) : withoutColour painted = plain := by
  have all := erases.erased []
  rwa [List.append_nil, withoutColour, List.append_nil] at all

/-- A text without escape characters stays as it is. -/
theorem of_not_mem (visible : '\x1b' ∉ plain) : ErasesTo plain plain := by
  refine ⟨fun rest => ?_, visible⟩
  induction plain with
  | nil => rfl
  | cons c others ih =>
    obtain ⟨other, visibleOthers⟩ := List.ne_and_not_mem_of_not_mem_cons visible
    rw [List.cons_append, withoutColour_cons other.symm, ih visibleOthers, List.cons_append]

/-- Colours are erased part by part. -/
theorem append {otherPainted otherPlain : List Char} (erases : ErasesTo painted plain)
    (others : ErasesTo otherPainted otherPlain) :
    ErasesTo (painted ++ otherPainted) (plain ++ otherPlain) := by
  refine ⟨fun rest => ?_, List.not_mem_append erases.visible others.visible⟩
  rw [List.append_assoc, erases.erased, others.erased, List.append_assoc]

/-- Colours are erased line by line. -/
theorem joinLines {ι : Type} {painted plain : ι → List Char} (items : List ι)
    (erases : ∀ item ∈ items, ErasesTo (painted item) (plain item)) :
    ErasesTo (Report.joinLines (items.map painted)) (Report.joinLines (items.map plain)) := by
  match items with
  | [] => exact of_not_mem List.not_mem_nil
  | [item] => simpa [Report.joinLines] using erases
  | item :: second :: others =>
    have ih := ErasesTo.joinLines (second :: others) fun item mem =>
      erases item (List.mem_cons_of_mem _ mem)
    have lineEnd : ErasesTo ['\n'] ['\n'] := of_not_mem (by decide)
    have first := (erases item List.mem_cons_self).append lineEnd
    simp only [Report.joinLines, List.map_cons, List.intercalate_cons_cons] at ih ⊢
    exact first.append ih

/-- A text in a colour is the text between sequences. -/
theorem paint (colour : Colour) (visible : '\x1b' ∉ plain) :
    ErasesTo (colour.paint plain) plain := by
  refine ⟨fun rest => ?_, visible⟩
  rw [Colour.paint, colour.resume_of_not_mem visible, List.append_assoc, List.append_assoc,
    withoutColour_sequence, (of_not_mem visible).erased, withoutColour_reset]

end ErasesTo

namespace Report

open Text

/-- The character that starts the sequences is a control character. -/
theorem isControl_escape : '\x1b'.toNat < 0x20 := by decide

section Reports

variable {tree : Tree} {reports : List UsageReport} (root : Path)
  (told : ∀ usage ∈ usages reports, '\x1b' ∉ usage.file.text ∧ '\x1b' ∉ usage.lineText tree)
include told

/-- The shown paths of the usages hold no escape character. -/
theorem escape_not_mem_shown :
    ∀ usage ∈ usages reports, '\x1b' ∉ usage.file.shownFrom root := fun usage mem =>
  Path.not_mem_shownFrom (by decide) (by decide) (told usage mem).1

/-- The entries of `files` and `count` hold no escape character. -/
theorem escape_not_mem_referencingFiles :
    ∀ entry ∈ referencingFiles root reports, '\x1b' ∉ entry.1 := by
  intro entry mem
  rw [referencingFiles_eq] at mem
  obtain ⟨text, listed, rfl⟩ := List.mem_map.1 mem
  obtain ⟨usage, found, rfl⟩ := List.mem_map.1 (List.mem_eraseDups.1 listed)
  exact escape_not_mem_shown root told usage found

/-- Without its colours a line of `lines` is the plain one. -/
theorem erasesTo_lineEntry (format : OutputFormat) :
    ∀ usage ∈ usages reports, ErasesTo (lineEntry tree root ⟨format, true⟩ usage)
      (lineEntry tree root ⟨format, false⟩ usage) := by
  intro usage mem
  have colon : ErasesTo [':'] [':'] := .of_not_mem (by decide)
  have path := ErasesTo.paint .magenta (escape_not_mem_shown root told usage mem)
  have line := ErasesTo.paint .green (control_not_mem_decimal isControl_escape usage.number.toNat)
  have text := ErasesTo.of_not_mem (told usage mem).2
  exact (path.append (colon.append line)).append (colon.append text)

/-- A report in Markdown holds no escape character. -/
theorem escape_not_mem_markdownSection (targets : ∀ report ∈ reports, '\x1b' ∉ report.target) :
    ∀ report ∈ reports, '\x1b' ∉ markdownSection tree root report := by
  intro report listed mem
  have toldHere : ∀ usage ∈ report.usages,
      '\x1b' ∉ usage.file.shownFrom root ∧ '\x1b' ∉ usage.lineText tree := by
    intro usage found
    have given := List.mem_flatMap.2 ⟨report, listed, found⟩
    exact ⟨escape_not_mem_shown root told usage given, (told usage given).2⟩
  have lines := control_not_mem_sectionLines isControl_escape (targets report listed) toldHere
  rw [markdownSection_eq] at mem
  obtain ⟨line, part, inside⟩ := List.mem_flatMap.1 mem
  rcases List.mem_append.1 inside with inLine | lineEnd
  · exact lines line part inLine
  · exact absurd lineEnd (by decide)

/-- Without its colours the output of reports is the plain one. -/
theorem erasesTo_render (targets : ∀ report ∈ reports, '\x1b' ∉ report.target)
    (format : OutputFormat) :
    ErasesTo (render tree root ⟨format, true⟩ reports)
      (render tree root ⟨format, false⟩ reports) := by
  have entries := escape_not_mem_referencingFiles root told
  cases format with
  | lines => exact .joinLines _ (erasesTo_lineEntry root told .lines)
  | files => exact .joinLines _ fun entry mem => .paint .magenta (entries entry mem)
  | count =>
    refine .joinLines _ fun entry mem => (ErasesTo.paint .magenta (entries entry mem)).append ?_
    have number := control_not_mem_decimal isControl_escape entry.2
    exact .of_not_mem (List.not_mem_cons_of_ne_of_not_mem (by decide) number)
  | total => exact .of_not_mem (control_not_mem_decimal isControl_escape _)
  | jsonl => exact .of_not_mem (Json.control_not_mem_compactLines isControl_escape (by decide) _)
  | json => exact .of_not_mem (Json.control_not_mem_indentedArray isControl_escape (by decide) _)
  | markdown =>
    refine .of_not_mem fun mem => ?_
    obtain ⟨report, listed, inside⟩ := List.mem_flatMap.1 mem
    exact escape_not_mem_markdownSection root told targets report listed inside

end Reports

section Targets

variable {listed : List TargetRecord}
  (visible : ∀ record ∈ listed, '\x1b' ∉ record.target ∧ ∀ kind ∈ record.kind, '\x1b' ∉ kind)
include visible

/-- What is said of the kinds of targets holds no escape character. -/
theorem escape_not_mem_kindSuffix : ∀ record ∈ listed, '\x1b' ∉ kindSuffix record := by
  intro record mem
  have kinds := (visible record mem).2
  unfold kindSuffix
  cases known : record.kind with
  | none => exact List.not_mem_nil
  | some kind => exact List.not_mem_append (by decide) (kinds kind known)

/-- Without its colours the output of targets is the plain one. -/
theorem erasesTo_renderTargets (format : OutputFormat) :
    ErasesTo (renderTargets ⟨format, true⟩ listed) (renderTargets ⟨format, false⟩ listed) := by
  have suffixes := escape_not_mem_kindSuffix visible
  have lines : ErasesTo
      (joinLines (listed.map fun record => Colour.magenta.paint record.target ++ kindSuffix record))
      (joinLines (listed.map fun record => record.target ++ kindSuffix record)) :=
    .joinLines _ fun record mem =>
      (ErasesTo.paint .magenta (visible record mem).1).append (.of_not_mem (suffixes record mem))
  cases format with
  | lines | files | count => exact lines
  | total => exact .of_not_mem (control_not_mem_decimal isControl_escape _)
  | jsonl => exact .of_not_mem (Json.control_not_mem_compactLines isControl_escape (by decide) _)
  | json => exact .of_not_mem (Json.control_not_mem_indentedArray isControl_escape (by decide) _)
  | markdown =>
    refine .of_not_mem fun mem => ?_
    obtain ⟨record, found, inside⟩ := List.mem_flatMap.1 mem
    have target := (visible record found).1
    simp [target, suffixes record found] at inside

end Targets

/-- Erasing the colours leaves the output without colours, for reports and for targets and in every
format, and that output holds no escape character. -/
theorem withoutColour_render {tree : Tree} {reports : List UsageReport}
    {listed : List TargetRecord} (targets : ∀ report ∈ reports, '\x1b' ∉ report.target)
    (told : ∀ usage ∈ usages reports, '\x1b' ∉ usage.file.text ∧ '\x1b' ∉ usage.lineText tree)
    (visible : ∀ record ∈ listed, '\x1b' ∉ record.target ∧ ∀ kind ∈ record.kind, '\x1b' ∉ kind)
    (root : Path) (format : OutputFormat) :
    (withoutColour (render tree root ⟨format, true⟩ reports) =
        render tree root ⟨format, false⟩ reports ∧
      '\x1b' ∉ render tree root ⟨format, false⟩ reports) ∧
    (withoutColour (renderTargets ⟨format, true⟩ listed) =
        renderTargets ⟨format, false⟩ listed ∧
      '\x1b' ∉ renderTargets ⟨format, false⟩ listed) := by
  have erasesReports := erasesTo_render root told targets format
  have erasesTargets := erasesTo_renderTargets visible format
  exact ⟨⟨erasesReports.whole, erasesReports.visible⟩, erasesTargets.whole, erasesTargets.visible⟩

/-- A usage whose path and text read like sequences without their escape characters. -/
def bracketReports : List UsageReport :=
  [⟨"public/a.css".toList, [⟨.ofString "/p/[35m/a.rb", 12, .captured "[0m".toList⟩]⟩]

/-- Texts that read like sequences are kept, as is a target without a path. -/
theorem withoutColour_render_of_brackets :
    withoutColour (render .empty (.ofString "/p") ⟨.lines, true⟩ bracketReports) =
        "[35m/a.rb:12:[0m".toList ∧
      withoutColour (renderTargets ⟨.lines, true⟩ [⟨[], none⟩, ⟨"[32m".toList, some ['m']⟩]) =
        "\n[32m: m".toList := by
  have targets : ∀ report ∈ bracketReports, '\x1b' ∉ report.target := by decide +kernel
  have told : ∀ usage ∈ usages bracketReports,
      '\x1b' ∉ usage.file.text ∧ '\x1b' ∉ usage.lineText .empty := by decide +kernel
  have visible : ∀ record ∈ [TargetRecord.mk [] none, ⟨"[32m".toList, some ['m']⟩],
      '\x1b' ∉ record.target ∧ ∀ kind ∈ record.kind, '\x1b' ∉ kind := by decide +kernel
  have erases := withoutColour_render targets told visible (.ofString "/p") .lines
  exact ⟨erases.1.1.trans (by decide +kernel), erases.2.1.trans (by decide +kernel)⟩

end Report

end AssetUsage
