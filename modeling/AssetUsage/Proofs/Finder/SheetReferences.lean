import AssetUsage.Proofs.Finder.TagReferences
import AssetUsage.Proofs.Style.QuotedImports

/-!
# References in stylesheets

In a stylesheet a line uses an image or another stylesheet if one of the names on it leads there
(`usedBy_image_iff`, `usedBy_stylesheet_iff`). A name in quotes is promised to be read whole. That
holds of backgrounds, and of `url` and `@import` where the name has no character that would end a
bare one; elsewhere its first part counts in its place, and so do the names in what is left of the
line (`quotedImages_exact`, `quotedImports_exact`).
-/

namespace AssetUsage.Finder

open AssetUsage.Scan (CountsExactlyIf countsExactlyIf_of_usedBy)
open AssetUsage.Style
open AssetUsage.Text (Blanks FitsQuotes isQuote)

variable {finder : Finder} {file : Path} {content line reference : List Char}

/-- One of the names leads to the target. -/
def AnyLeadsToTarget (finder : Finder) (file : Path) (names : List (List Char)) : Prop :=
  ∃ name ∈ names, finder.LeadsToTarget file name

instance : Decidable (finder.LeadsToTarget file reference) :=
  decidable_of_iff (finder.isNamed (finder.referenced? file reference) = true) isNamed_iff

instance (names : List (List Char)) : Decidable (finder.AnyLeadsToTarget file names) :=
  inferInstanceAs (Decidable (∃ name ∈ names, finder.LeadsToTarget file name))

/-- No names lead nowhere. -/
theorem not_anyLeadsToTarget_nil : ¬ finder.AnyLeadsToTarget file [] := by
  rintro ⟨name, mem, -⟩
  contradiction

/-- One of the names of two lists leads to the target if one of either list does. -/
theorem anyLeadsToTarget_append {names others : List (List Char)} :
    finder.AnyLeadsToTarget file (names ++ others) ↔
      finder.AnyLeadsToTarget file names ∨ finder.AnyLeadsToTarget file others := by
  simp only [AnyLeadsToTarget, List.mem_append, or_and_right, exists_or]

/-- Blanks around a name make no difference to where it leads. -/
theorem leadsToTarget_congr {name other : List Char} (same : Text.trim name = Text.trim other) :
    finder.LeadsToTarget file name ↔ finder.LeadsToTarget file other := by
  have cleaned : Reference.clean? name = Reference.clean? other := by
    rw [Reference.clean?, Reference.clean?, same]
  simp only [LeadsToTarget, referenced?, Reference.resolve?, Reference.resolveFromSite?, cleaned]

/-- Blanks lead nowhere. -/
theorem not_leadsToTarget_of_blanks {name : List Char} (blank : Blanks name) :
    ¬ finder.LeadsToTarget file name := by
  have cleaned : Reference.clean? name = none := by
    rw [Reference.clean?, Text.trim_eq_nil_iff.2 blank]
    rfl
  simp [LeadsToTarget, referenced?, Reference.resolve?, Reference.resolveFromSite?, cleaned]

/-- Names read for a reference lead where it leads. -/
theorem anyLeadsToTarget_iff_of_readFor {names : List (List Char)}
    (read : ReadFor names reference) :
    finder.AnyLeadsToTarget file names ↔ finder.LeadsToTarget file reference := by
  constructor
  · rintro ⟨name, mem, leads⟩
    exact (leadsToTarget_congr (read.same name mem)).1 leads
  · intro leads
    cases names with
    | nil => exact absurd leads (not_leadsToTarget_of_blanks (read.named rfl))
    | cons name others =>
      have same := read.same name List.mem_cons_self
      exact ⟨name, List.mem_cons_self, (leadsToTarget_congr same).2 leads⟩

section Sheet

variable (inSheet : file.extension?.getD [] ∈ AssetKind.sheetExtensions)
include inSheet

/-- In a stylesheet a line uses an image or another stylesheet exactly as the matcher of stylesheets
for its kind finds. -/
theorem usedBy_eq_of_inSheet :
    (finder.kind = .image → finder.usedBy (finder.candidate file content) line =
      finder.inStyleImage (finder.candidate file content) line) ∧
    (finder.kind = .stylesheet → finder.usedBy (finder.candidate file content) line =
      finder.inImport (finder.candidate file content) line) := by
  have apart : ∀ extension ∈ AssetKind.sheetExtensions,
      AssetKind.sheetExtensions.contains extension = true ∧
      AssetKind.codeExtensions.contains extension = false ∧
      AssetKind.pageExtensions.contains extension = false := by decide
  have extension : (finder.candidate file content).extension = file.extension?.getD [] := rfl
  obtain ⟨sheet, noCode, noPage⟩ := apart _ inSheet
  constructor <;> intro kind <;>
    simp only [usedBy, extension, kind, sheet, noCode, noPage, Bool.false_and, Bool.false_or,
      Bool.true_and, Bool.or_self]

/-- In a stylesheet a line uses an image exactly if one of the images on it leads there. -/
theorem usedBy_image_iff (kind : finder.kind = .image) :
    finder.usedBy (finder.candidate file content) line = true ↔
      finder.AnyLeadsToTarget file (imageNames line) := by
  have other : finder.kind ≠ .publicFile := by simp [kind]
  rw [(usedBy_eq_of_inSheet inSheet).1 kind, inStyleImage, List.any_eq_true]
  simp only [isNamedUrl_iff other, AnyLeadsToTarget]

/-- In a stylesheet a line uses another one exactly if one of its imports leads there. -/
theorem usedBy_stylesheet_iff (kind : finder.kind = .stylesheet) :
    finder.usedBy (finder.candidate file content) line = true ↔
      finder.AnyLeadsToTarget file (importedNames line) := by
  have other : finder.kind ≠ .publicFile := by simp [kind]
  rw [(usedBy_eq_of_inSheet inSheet).2 kind, inImport, List.any_eq_true]
  simp only [isNamedUrl_iff other, AnyLeadsToTarget]

section Image

variable (kind : finder.kind = .image) (fits : FitsQuotes reference)
include kind fits

/-- A quoted argument of `url` counts by its part in front of its first closing parenthesis and by
the images in what is left of the line. -/
theorem countsExactlyIf_urlLine {before behind : List Char} {quote : Char}
    (blankBefore : Blanks before) (quotes : isQuote quote = true) (blankBehind : Blanks behind) :
    CountsExactlyIf finder file (urlLine before quote reference behind)
      (finder.LeadsToTarget file (urlFront reference) ∨ finder.AnyLeadsToTarget file
        (imageNames (urlRest reference ++ quote :: (behind ++ [')'])))) := by
  obtain ⟨found, read, names⟩ := exists_imageNames_urlLine blankBefore quotes fits blankBehind
  refine countsExactlyIf_of_usedBy fun content => ?_
  rw [usedBy_image_iff inSheet kind, names, anyLeadsToTarget_append,
    anyLeadsToTarget_iff_of_readFor read]

/-- A quoted background counts by the reference and by the images in `url` in it. -/
theorem countsExactlyIf_backgroundLine {property before behind : List Char} {quote : Char}
    (listed : property ∈ backgroundProperties) (blankBefore : Blanks before)
    (blankBehind : Blanks behind) (quotes : isQuote quote = true) :
    CountsExactlyIf finder file (backgroundLine property before behind quote reference)
      (finder.LeadsToTarget file reference ∨ finder.AnyLeadsToTarget file
        (imageNames (reference ++ [quote]))) := by
  refine countsExactlyIf_of_usedBy fun content => ?_
  rw [usedBy_image_iff inSheet kind,
    imageNames_backgroundLine listed blankBefore blankBehind quotes fits, anyLeadsToTarget_append,
    anyLeadsToTarget_iff_of_readFor (.singleton rfl), or_comm]

/-- Without a closing parenthesis a quoted reference to an image counts as a whole. -/
theorem countsExactlyIf_of_quotesImage (quoted : QuotesImage reference line)
    (absent : ')' ∉ reference) :
    CountsExactlyIf finder file line (finder.LeadsToTarget file reference) := by
  cases quoted with
  | url blankBefore blankBehind quotes =>
    have counts := countsExactlyIf_urlLine inSheet kind fits blankBefore quotes blankBehind
    rw [urlFront_of_notMem absent, urlRest_of_notMem absent, List.nil_append,
      imageNames_closing quotes blankBehind] at counts
    exact counts.congr (or_iff_left not_anyLeadsToTarget_nil)
  | background listed blankBefore blankBehind quotes =>
    have counts := countsExactlyIf_backgroundLine inSheet kind fits listed blankBefore blankBehind
      quotes
    rw [imageNames_value quotes fits absent] at counts
    exact counts.congr (or_iff_left not_anyLeadsToTarget_nil)

end Image

/-- A quoted import counts by its part in front of the first character that ends a bare name and by
the imports in what is left of the line. -/
theorem countsExactlyIf_importLine (kind : finder.kind = .stylesheet)
    {blanks opening : List Char} {quote : Char} (apart : blanks ≠ []) (blank : Blanks blanks)
    (opens : IsImportOpening opening) (quotes : isQuote quote = true)
    (reference behind : List Char) :
    CountsExactlyIf finder file (importLine blanks opening quote reference behind)
      (finder.LeadsToTarget file (importFront opening reference) ∨ finder.AnyLeadsToTarget file
        (importedNames (importRest reference ++ quote :: behind))) := by
  obtain ⟨found, read, names⟩ :=
    exists_importedNames_importLine apart blank quotes opens reference behind
  refine countsExactlyIf_of_usedBy fun content => ?_
  rw [usedBy_stylesheet_iff inSheet kind, names, anyLeadsToTarget_append,
    anyLeadsToTarget_iff_of_readFor read]

/-- A quoted import counts as a whole if its name could stand bare. -/
theorem countsExactlyIf_of_quotesImport (kind : finder.kind = .stylesheet)
    (nonempty : reference ≠ []) (quoted : QuotesImport reference line)
    (plain : ∀ c ∈ reference, isImportChar c = true) :
    CountsExactlyIf finder file line (finder.LeadsToTarget file reference) := by
  cases quoted with
  | @intro blanks opening behind quote apart blank opens quotes alone =>
    have counts := countsExactlyIf_importLine inSheet kind apart blank opens quotes reference behind
    rw [importFront_of_forall plain nonempty, importRest_of_forall plain, List.nil_append,
      importedNames_closing quotes alone] at counts
    exact counts.congr (or_iff_left not_anyLeadsToTarget_nil)

end Sheet

/-- A quoted reference to an image counts as a whole if it holds no closing parenthesis. In general
a quoted argument of `url` counts by its part in front of its first closing parenthesis, and a
background by the reference; beside that, what is left of the one and the value of the other are
searched for images. -/
theorem quotedImages_exact (kind : finder.kind = .image)
    (inSheet : file.extension?.getD [] ∈ AssetKind.sheetExtensions) (fits : FitsQuotes reference) :
    (')' ∉ reference → ∀ line, QuotesImage reference line →
      CountsExactlyIf finder file line (finder.LeadsToTarget file reference)) ∧
    (∀ before behind quote, Blanks before → Blanks behind → isQuote quote = true →
      CountsExactlyIf finder file (urlLine before quote reference behind)
        (finder.LeadsToTarget file (urlFront reference) ∨ finder.AnyLeadsToTarget file
          (imageNames (urlRest reference ++ quote :: (behind ++ [')']))))) ∧
    ∀ property ∈ backgroundProperties, ∀ before behind quote,
      Blanks before → Blanks behind → isQuote quote = true →
      CountsExactlyIf finder file (backgroundLine property before behind quote reference)
        (finder.LeadsToTarget file reference ∨ finder.AnyLeadsToTarget file
          (imageNames (reference ++ [quote]))) := by
  refine ⟨fun absent line quoted => ?_, ?_, ?_⟩
  · exact countsExactlyIf_of_quotesImage inSheet kind fits quoted absent
  · intro before behind quote blankBefore blankBehind quotes
    exact countsExactlyIf_urlLine inSheet kind fits blankBefore quotes blankBehind
  · intro property listed before behind quote blankBefore blankBehind quotes
    exact countsExactlyIf_backgroundLine inSheet kind fits listed blankBefore blankBehind quotes

/-- A stylesheet that shows an image with a blank in its name, and one with parentheses. -/
def imageSheet : Content :=
  let lines := ["url( \"../images/my logo.png\" )", "url('../images/logo(1).png')"]
  ⟨(Text.Utf8.encode ("\n".intercalate lines).toList).toArray⟩

/-- The first image is reported, and the second one is not. -/
theorem quotedImages_of_imageSheet :
    let sheet := Path.ofString "/p/public/stylesheets/site.css"
    let tree := Tree.empty.write sheet imageSheet
    let project := Project.conventional (.ofString "/p")
    let spaced := Finder.new .image project (.ofString "public/images/my logo.png")
    let numbered := Finder.new .image project (.ofString "public/images/logo(1).png")
    Scan.Reports tree spaced {} sheet 1 ∧ ¬ Scan.Reports tree numbered {} sheet 2 := by
  intro sheet tree project spaced numbered
  have inSheet : sheet.extension?.getD [] ∈ AssetKind.sheetExtensions := by decide +kernel
  have reads : tree.ReadsAs defaultSizeLimit sheet imageSheet :=
    ⟨rfl, by decide +kernel, by decide +kernel⟩
  constructor
  · have isImage : spaced.kind = .image := rfl
    have fits : FitsQuotes "../images/my logo.png".toList := by decide
    have blank : Blanks " ".toList := by decide
    have counts := (quotedImages_exact isImage inSheet fits).1 (by decide) _
      (.url blank blank (by decide : isQuote '"' = true))
    refine (counts.reported tree {} 1 ?_).2 (by decide +kernel)
    exact ⟨by decide +kernel, by decide +kernel, by decide, imageSheet, reads, by decide +kernel⟩
  · have isImage : numbered.kind = .image := rfl
    have fits : FitsQuotes "../images/logo(1).png".toList := by decide
    have counts := (quotedImages_exact isImage inSheet fits).2.1 [] [] '\'' .nil .nil (by decide)
    refine fun reported => absurd ((counts.reported tree {} 2 ?_).1 reported) (by decide +kernel)
    exact ⟨by decide +kernel, by decide +kernel, by decide, imageSheet, reads, by decide +kernel⟩

/-- An image in quotes is missed if its name holds a closing parenthesis. -/
theorem quotedImage_misses_parenthesis :
    ¬ ∀ (finder : Finder) (file : Path) (reference line : List Char), finder.kind = .image →
      file.extension?.getD [] ∈ AssetKind.sheetExtensions → FitsQuotes reference →
      QuotesImage reference line → finder.LeadsToTarget file reference →
      ∀ content, finder.usedBy (finder.candidate file content) line = true := by
  intro claim
  let sheet := Path.ofString "/p/public/stylesheets/site.css"
  let image := Finder.new .image (.conventional (.ofString "/p"))
    (.ofString "public/images/logo(1).png")
  have quoted : QuotesImage "../images/logo(1).png".toList
      (urlLine [] '"' "../images/logo(1).png".toList []) := .url .nil .nil (by decide)
  have leads : image.LeadsToTarget sheet "../images/logo(1).png".toList := by decide +kernel
  have used := claim image sheet _ _ rfl (by decide +kernel) (by decide) quoted leads []
  have unused : image.usedBy (image.candidate sheet [])
      (urlLine [] '"' "../images/logo(1).png".toList []) = false := by decide +kernel
  exact Bool.false_ne_true (unused.symm.trans used)

/-- A quoted import counts as a whole if its name could stand bare. In general it counts by its part
in front of the first character that ends a bare name (by `url(` where that part is empty), and by
the imports in what is left of the line. -/
theorem quotedImports_exact (kind : finder.kind = .stylesheet)
    (inSheet : file.extension?.getD [] ∈ AssetKind.sheetExtensions) (fits : FitsQuotes reference) :
    ((∀ c ∈ reference, isImportChar c = true) → ∀ line, QuotesImport reference line →
      CountsExactlyIf finder file line (finder.LeadsToTarget file reference)) ∧
    ∀ blanks opening behind quote, blanks ≠ [] → Blanks blanks → IsImportOpening opening →
      isQuote quote = true →
      CountsExactlyIf finder file (importLine blanks opening quote reference behind)
        (finder.LeadsToTarget file (importFront opening reference) ∨ finder.AnyLeadsToTarget file
          (importedNames (importRest reference ++ quote :: behind))) := by
  refine ⟨fun plain line quoted => ?_, ?_⟩
  · exact countsExactlyIf_of_quotesImport inSheet kind fits.1 quoted plain
  · intro blanks opening behind quote apart blank opens quotes
    exact countsExactlyIf_importLine inSheet kind apart blank opens quotes reference behind

/-- A stylesheet with an import for one medium, and one of a name with a semicolon. -/
def importSheet : Content :=
  let lines := ["@import 'main.css' screen;", "@import url(\"main.css;old.css\");"]
  ⟨(Text.Utf8.encode ("\n".intercalate lines).toList).toArray⟩

/-- Both imports are reported for the stylesheet that the second one names only at its front. -/
theorem quotedImports_of_importSheet :
    let sheet := Path.ofString "/p/public/stylesheets/site.css"
    let tree := Tree.empty.write sheet importSheet
    let project := Project.conventional (.ofString "/p")
    let main := Finder.new .stylesheet project (.ofString "public/stylesheets/main.css")
    Scan.Reports tree main {} sheet 1 ∧ Scan.Reports tree main {} sheet 2 := by
  intro sheet tree project main
  have isSheet : main.kind = .stylesheet := rfl
  have inSheet : sheet.extension?.getD [] ∈ AssetKind.sheetExtensions := by decide +kernel
  have reads : tree.ReadsAs defaultSizeLimit sheet importSheet :=
    ⟨rfl, by decide +kernel, by decide +kernel⟩
  have blank : Blanks " ".toList := by decide
  constructor
  · have fits : FitsQuotes "main.css".toList := by decide
    have quoted : QuotesImport "main.css".toList
        (importLine " ".toList [] '\'' "main.css".toList " screen;".toList) :=
      .intro (by decide) blank .bare (by decide) (by decide)
    have counts := (quotedImports_exact isSheet inSheet fits).1
      (List.all_eq_true.1 (by decide +kernel)) _ quoted
    refine (counts.reported tree {} 1 ?_).2 (by decide +kernel)
    exact ⟨by decide +kernel, by decide +kernel, by decide, importSheet, reads, by decide +kernel⟩
  · have fits : FitsQuotes "main.css;old.css".toList := by decide
    have opens : IsImportOpening ("url(".toList ++ []) := .url .nil
    have counts := (quotedImports_exact isSheet inSheet fits).2 " ".toList _ ");".toList '"'
      (by decide) blank opens (by decide)
    refine (counts.reported tree {} 2 ?_).2 (by decide +kernel)
    exact ⟨by decide +kernel, by decide +kernel, by decide, importSheet, reads, by decide +kernel⟩

/-- An import in quotes is reported for a stylesheet that only the front of its name leads to. -/
theorem quotedImport_counts_by_front :
    ¬ ∀ (finder : Finder) (file : Path) (reference line : List Char), finder.kind = .stylesheet →
      file.extension?.getD [] ∈ AssetKind.sheetExtensions → FitsQuotes reference →
      QuotesImport reference line → ∀ content,
      finder.usedBy (finder.candidate file content) line = true →
      finder.LeadsToTarget file reference := by
  intro claim
  let sheet := Path.ofString "/p/public/stylesheets/site.css"
  let main := Finder.new .stylesheet (.conventional (.ofString "/p"))
    (.ofString "public/stylesheets/main.css")
  have quoted : QuotesImport "main.css;old.css".toList
      (importLine " ".toList [] '"' "main.css;old.css".toList ";".toList) :=
    .intro (by decide) (by decide) .bare (by decide) (by decide)
  have used : main.usedBy (main.candidate sheet [])
      (importLine " ".toList [] '"' "main.css;old.css".toList ";".toList) = true := by
    decide +kernel
  have leads := claim main sheet _ _ rfl (by decide +kernel) (by decide) quoted [] used
  exact absurd leads (by decide +kernel)

end AssetUsage.Finder
