import AssetUsage.Finder.Line
import AssetUsage.Proofs.Markup.SpelledTag
import AssetUsage.Proofs.Scan.ReportedLines

/-!
# References by tags

Stylesheets, scripts, images and public files are referenced by tags. A tag of the form that a kind
expects counts by its one reference (`referencesOf_eq_singleton`), wherever it stands on a line on
which no earlier tag is open, and on a page nothing else counts (`refersByTag_of_usedBy`). So a line
with such a tag uses the target if the reference leads there, and a line of a page that is only the
tag does so in no other case (`tagReferences_exact`).
-/

namespace AssetUsage

open AssetUsage.Markup (SpellsTag IsOutsideTags)

/-- The text is the word in any letter case. -/
def IsCaseOf (word : String) (text : List Char) : Prop := text.map Char.toLower = word.toList

/-- The names that an attribute without any part in references does not have. -/
def referenceNames : List (List Char) := ["src", "href", "rel"].map String.toList

/-- The attributes are, in any order, those that refer and further ones of other names. -/
def IsArrangedOf (pairs referring : List (List Char × List Char)) : Prop :=
  ∃ further, pairs.Perm (referring ++ further) ∧
    ∀ pair ∈ further, pair.1.map Char.toLower ∉ referenceNames

/-- A tag with the name and the attributes refers by `reference` in the way of the kind. -/
inductive RefersBy (reference : List Char) :
    AssetKind → List Char → List (List Char × List Char) → Prop where
  | stylesheet {name rel relation href : List Char} {pairs : List (List Char × List Char)}
    (link : IsCaseOf "link" name) (isRel : IsCaseOf "rel" rel)
    (sheet : IsCaseOf "stylesheet" relation) (isHref : IsCaseOf "href" href)
    (arranged : IsArrangedOf pairs [(rel, relation), (href, reference)]) :
    RefersBy reference .stylesheet name pairs
  | javascript {name src : List Char} {pairs : List (List Char × List Char)}
    (script : IsCaseOf "script" name) (isSrc : IsCaseOf "src" src)
    (arranged : IsArrangedOf pairs [(src, reference)]) : RefersBy reference .javascript name pairs
  | image {name src : List Char} {pairs : List (List Char × List Char)}
    (img : IsCaseOf "img" name) (isSrc : IsCaseOf "src" src)
    (arranged : IsArrangedOf pairs [(src, reference)]) : RefersBy reference .image name pairs
  /-- A public file is referenced by tags of all names. -/
  | publicFile {name key : List Char} {pairs : List (List Char × List Char)}
    (isKey : IsCaseOf "src" key ∨ IsCaseOf "href" key)
    (arranged : IsArrangedOf pairs [(key, reference)]) : RefersBy reference .publicFile name pairs

namespace Finder

/-- The file that a reference in a tag in `file` names: for public files a page elsewhere stands at
the root of the site. -/
def referenced? (finder : Finder) (file : Path) (reference : List Char) : Option Path :=
  if finder.kind = .publicFile ∧ finder.project.isPublic file = false then
    Reference.resolveFromSite? finder.project reference
  else Reference.resolve? finder.project reference file

/-- The reference in a tag in `file` leads to the target. -/
def LeadsToTarget (finder : Finder) (file : Path) (reference : List Char) : Prop :=
  ∃ path, finder.referenced? file reference = some path ∧ path.SamePath finder.target

/-- The references by which a tag counts for a kind of target. -/
def referencesOf (tag : Markup.Tag) : AssetKind → List (List Char)
  | .stylesheet =>
    if tag.name = "link".toList ∧ linksStylesheet tag = true then
      (tag.attributes.get? "href".toList).toList
    else []
  | .javascript =>
    if tag.name = "script".toList then (tag.attributes.get? "src".toList).toList else []
  | .image => if tag.name = "img".toList then (tag.attributes.get? "src".toList).toList else []
  | .publicFile =>
    (tag.attributes.get? "src".toList).toList ++ (tag.attributes.get? "href".toList).toList
  | .template | .partialTemplate | .layout => []

end Finder

namespace Markup

variable {attributes : Attributes} {pairs referring : List (List Char × List Char)}
  {key value : List Char}

/-- A name used in references belongs to one of the attributes that refer. -/
theorem mem_of_isArrangedOf (arranged : IsArrangedOf pairs referring) (used : key ∈ referenceNames)
    {pair : List Char × List Char} (mem : pair ∈ pairs) (same : pair.1.map Char.toLower = key) :
    pair ∈ referring := by
  obtain ⟨further, whole, other⟩ := arranged
  rcases List.mem_append.1 (whole.mem_iff.1 mem) with mem | mem
  · exact mem
  · exact absurd (same ▸ used) (other pair mem)

/-- The value of a name used in references is that of the attributes that refer. -/
theorem get?_of_isArrangedOf (holds : attributes.Holds pairs)
    (arranged : IsArrangedOf pairs referring) (used : key ∈ referenceNames)
    (there : ∃ pair ∈ referring, pair.1.map Char.toLower = key)
    (common : ∀ pair ∈ referring, pair.1.map Char.toLower = key → pair.2 = value) :
    attributes.get? key = some value := by
  rw [holds.get?_eq]
  apply lastValue?_eq_some
  · obtain ⟨pair, mem, same⟩ := there
    obtain ⟨further, whole, -⟩ := arranged
    exact ⟨pair, whole.mem_iff.2 (List.mem_append_left _ mem), same⟩
  · intro pair mem same
    exact common pair (mem_of_isArrangedOf arranged used mem same) same

/-- A name used in references that none of the attributes that refer has is not there. -/
theorem get?_eq_none_of_isArrangedOf (holds : attributes.Holds pairs)
    (arranged : IsArrangedOf pairs referring) (used : key ∈ referenceNames)
    (absent : ∀ pair ∈ referring, pair.1.map Char.toLower ≠ key) : attributes.get? key = none := by
  rw [holds.get?_eq]
  apply lastValue?_eq_none
  intro pair mem same
  exact absent pair (mem_of_isArrangedOf arranged used mem same) same

end Markup

namespace Finder

/-- A relation that is `stylesheet` in any case links a stylesheet. -/
theorem linksStylesheet_of_get? {tag : Markup.Tag} {relation : List Char}
    (sheet : IsCaseOf "stylesheet" relation)
    (value : tag.attributes.get? "rel".toList = some relation) : linksStylesheet tag = true := by
  have visible : ∀ c ∈ relation, Text.isBlank c = false := by
    intro c mem
    refine Bool.eq_false_iff.2 fun blank => ?_
    have lower : c.toLower ∈ "stylesheet".toList := sheet ▸ List.mem_map_of_mem mem
    have plain : "stylesheet".toList.all (!Text.isBlank ·) = true := by decide
    have visibleLower := List.all_eq_true.1 plain _ lower
    rw [Text.isBlank_toLower blank] at visibleLower
    contradiction
  rw [linksStylesheet, value, Option.any_some, Text.trim_of_forall visible, beq_iff_eq]
  exact sheet

/-- A tag that refers in the way of a kind counts by its reference alone. -/
theorem referencesOf_eq_singleton {tag : Markup.Tag} {kind : AssetKind}
    {name reference : List Char} {pairs : List (List Char × List Char)}
    (spelledBy : tag.IsSpelledBy name pairs) (refers : RefersBy reference kind name pairs) :
    referencesOf tag kind = [reference] := by
  obtain ⟨named, holds⟩ := spelledBy
  cases refers with
  | @stylesheet name rel relation href pairs link isRel sheet isHref arranged =>
    simp only [IsCaseOf] at link isRel isHref
    have relates : tag.attributes.get? "rel".toList = some relation :=
      Markup.get?_of_isArrangedOf holds arranged (by decide) ⟨_, List.mem_cons_self, isRel⟩
        (by simp [isHref])
    have links : tag.attributes.get? "href".toList = some reference :=
      Markup.get?_of_isArrangedOf holds arranged (by decide)
        ⟨_, List.mem_cons_of_mem _ List.mem_cons_self, isHref⟩ (by simp [isRel])
    have isSheet := linksStylesheet_of_get? sheet relates
    rw [referencesOf, if_pos ⟨named.trans link, isSheet⟩, links, Option.toList_some]
  | @javascript name src pairs script isSrc arranged =>
    have loads : tag.attributes.get? "src".toList = some reference :=
      Markup.get?_of_isArrangedOf holds arranged (by decide) ⟨_, List.mem_cons_self, isSrc⟩
        (by simp)
    rw [referencesOf, if_pos (named.trans script), loads, Option.toList_some]
  | @image name src pairs img isSrc arranged =>
    have shows : tag.attributes.get? "src".toList = some reference :=
      Markup.get?_of_isArrangedOf holds arranged (by decide) ⟨_, List.mem_cons_self, isSrc⟩
        (by simp)
    rw [referencesOf, if_pos (named.trans img), shows, Option.toList_some]
  | @publicFile name key pairs isKey arranged =>
    have one : ∀ used other : List Char, used ∈ referenceNames → other ∈ referenceNames →
        key.map Char.toLower = used → used ≠ other →
        tag.attributes.get? used = some reference ∧ tag.attributes.get? other = none := by
      intro used other usedListed otherListed same different
      constructor
      · exact Markup.get?_of_isArrangedOf holds arranged usedListed
          ⟨_, List.mem_cons_self, same⟩ (by simp)
      · exact Markup.get?_eq_none_of_isArrangedOf holds arranged otherListed
          (by simpa [same] using different)
    rcases isKey with isSrc | isHref
    · obtain ⟨source, link⟩ := one "src".toList "href".toList (by decide) (by decide) isSrc
        (by decide)
      rw [referencesOf, source, link]
      rfl
    · obtain ⟨link, source⟩ := one "href".toList "src".toList (by decide) (by decide) isHref
        (by decide)
      rw [referencesOf, source, link]
      rfl

variable {finder : Finder} {file : Path} {content line : List Char}

/-- A tag on the line refers to the target in the way of its kind. -/
def RefersByTag (finder : Finder) (file : Path) (line : List Char) : Prop :=
  ∃ tag ∈ Markup.tags line, ∃ reference ∈ referencesOf tag finder.kind,
    finder.LeadsToTarget file reference

/-- A file that is found is named exactly if it is the target. -/
theorem isNamed_iff {found : Option Path} :
    finder.isNamed found = true ↔ ∃ path, found = some path ∧ path.SamePath finder.target := by
  simp [isNamed, isTarget, Option.any_eq_true]

/-- A URL leads to the target if its kind is not that of public files. -/
theorem isNamedUrl_iff (other : finder.kind ≠ .publicFile) {reference : List Char} :
    finder.isNamedUrl (finder.candidate file content) reference = true ↔
      finder.LeadsToTarget file reference := by
  rw [isNamedUrl, isNamed_iff, LeadsToTarget, referenced?, if_neg fun both => other both.1]
  rfl

/-- A URL leads to a public file according to the place of the page. -/
theorem isNamedByPage_iff (isPublicFile : finder.kind = .publicFile) {reference : List Char} :
    finder.isNamedByPage (finder.candidate file content) reference = true ↔
      finder.LeadsToTarget file reference := by
  rw [LeadsToTarget, referenced?, ← isNamed_iff, isNamedByPage]
  by_cases inside : finder.project.isPublic file = true
  · simp [inside, candidate, isNamedUrl]
  · simp [inside, candidate, isPublicFile]

/-- The tags of a line refer to the target exactly as the line matcher of its kind finds. -/
theorem refersByTag_iff (finder : Finder) (file : Path) (content line : List Char) :
    finder.RefersByTag file line ↔
      match finder.kind with
      | .stylesheet => finder.inLinkTag (finder.candidate file content) line = true
      | .javascript => finder.inTag (finder.candidate file content) line "script" "src" = true
      | .image => finder.inTag (finder.candidate file content) line "img" "src" = true
      | .publicFile => finder.inSourceOrLink (finder.candidate file content) line = true
      | .template | .partialTemplate | .layout => False := by
  have named : ∀ word ∈ ["link", "script", "img"], ∀ tag,
      tag ∈ Markup.tagsNamed line word.toList ↔
        tag ∈ Markup.tags line ∧ tag.name = word.toList := by
    have lower : ∀ word ∈ ["link", "script", "img"],
        word.toList.map Char.toLower = word.toList := by decide
    intro word listed tag
    rw [Markup.tagsNamed, List.mem_filter, lower word listed, beq_iff_eq]
  unfold RefersByTag
  cases kind : finder.kind with
  | stylesheet =>
    have other : finder.kind ≠ .publicFile := by simp [kind]
    simp only [inLinkTag, List.any_eq_true, named "link" (by simp), Bool.and_eq_true,
      Option.any_eq_true, isNamedUrl_iff other, referencesOf, List.mem_ite_nil_right,
      Option.mem_toList, exists_and_left, and_assoc]
  | javascript =>
    have other : finder.kind ≠ .publicFile := by simp [kind]
    simp only [inTag, List.any_eq_true, named "script" (by simp), Option.any_eq_true,
      isNamedUrl_iff other, referencesOf, List.mem_ite_nil_right, Option.mem_toList,
      exists_and_left, and_assoc]
  | image =>
    have other : finder.kind ≠ .publicFile := by simp [kind]
    simp only [inTag, List.any_eq_true, named "img" (by simp), Option.any_eq_true,
      isNamedUrl_iff other, referencesOf, List.mem_ite_nil_right, Option.mem_toList,
      exists_and_left, and_assoc]
  | publicFile =>
    have keys : ∀ tag : Markup.Tag, referencesOf tag .publicFile =
        ["src", "href"].flatMap fun key => (tag.attributes.get? key.toList).toList := by
      intro tag
      rw [referencesOf, List.flatMap_cons, List.flatMap_cons, List.flatMap_nil, List.append_nil]
    simp only [inSourceOrLink, List.any_eq_true, keys, List.mem_flatMap, Option.any_eq_true,
      Option.mem_toList, isNamedByPage_iff kind]
    constructor
    · rintro ⟨tag, mem, reference, ⟨key, listed, value⟩, leads⟩
      exact ⟨tag, mem, key, listed, reference, value, leads⟩
    · rintro ⟨tag, mem, key, listed, reference, value, leads⟩
      exact ⟨tag, mem, reference, ⟨key, listed, value⟩, leads⟩
  | template | partialTemplate | layout => simp [referencesOf]

/-- In code and on pages a reference by a tag is a usage. -/
theorem usedBy_of_refersByTag
    (searched : file.extension?.getD [] ∈ AssetKind.codeExtensions ++ AssetKind.pageExtensions)
    (refers : finder.RefersByTag file line) :
    finder.usedBy (finder.candidate file content) line = true := by
  have codeOrPage : (finder.candidate file content).extension ∈ AssetKind.codeExtensions ∨
      (finder.candidate file content).extension ∈ AssetKind.pageExtensions :=
    List.mem_append.1 searched
  have byTag := (refersByTag_iff finder file content line).1 refers
  unfold usedBy
  cases kind : finder.kind with
  | stylesheet | javascript | image | publicFile =>
    rw [kind] at byTag
    simp [codeOrPage, byTag]
  | template | partialTemplate | layout =>
    rw [kind] at byTag
    contradiction

/-- On pages nothing else is a usage. -/
theorem refersByTag_of_usedBy (onPage : file.extension?.getD [] ∈ AssetKind.pageExtensions)
    (used : finder.usedBy (finder.candidate file content) line = true) :
    finder.RefersByTag file line := by
  have apart : ∀ extension ∈ AssetKind.pageExtensions,
      AssetKind.codeExtensions.contains extension = false ∧
      AssetKind.sheetExtensions.contains extension = false ∧
      AssetKind.renderingExtensions.contains extension = false ∧
      extension ≠ "rb".toList := by decide
  have extension : (finder.candidate file content).extension = file.extension?.getD [] := rfl
  obtain ⟨noCode, noSheet, noRendering, noRuby⟩ := apart _ onPage
  apply (refersByTag_iff finder file content line).2
  simp only [usedBy, extension, noCode, noSheet, noRendering, noRuby, decide_false,
    Bool.false_and, Bool.false_or, Bool.or_false] at used
  cases kind : finder.kind with
  | stylesheet | javascript | image | publicFile =>
    rw [kind] at used
    exact (Bool.and_eq_true_iff.1 used).2
  | template | partialTemplate | layout =>
    rw [kind] at used
    contradiction

/-- A spelled tag refers to the target on every line on which no tag is open before it, if its
reference leads there. -/
theorem refersByTag_of_spellsTag {name reference text before : List Char}
    {pairs : List (List Char × List Char)} (spelled : SpellsTag name pairs text)
    (refers : RefersBy reference finder.kind name pairs)
    (leads : finder.LeadsToTarget file reference) (outside : IsOutsideTags before)
    (behind : List Char) : finder.RefersByTag file (before ++ (text ++ behind)) := by
  obtain ⟨tag, mem, spelledBy⟩ := Markup.exists_mem_tags_of_spellsTag spelled outside behind
  refine ⟨tag, mem, reference, ?_, leads⟩
  rw [referencesOf_eq_singleton spelledBy refers]
  exact List.mem_singleton.2 rfl

/-- A spelled tag alone refers to the target only if its reference leads there. -/
theorem leadsToTarget_of_refersByTag {name reference text : List Char}
    {pairs : List (List Char × List Char)} (spelled : SpellsTag name pairs text)
    (refers : RefersBy reference finder.kind name pairs) (found : finder.RefersByTag file text) :
    finder.LeadsToTarget file reference := by
  obtain ⟨tag, only, spelledBy⟩ := Markup.exists_tags_eq_of_spellsTag spelled
  obtain ⟨other, mem, value, listed, leads⟩ := found
  rw [only] at mem
  obtain rfl := List.mem_singleton.1 mem
  rw [referencesOf_eq_singleton spelledBy refers] at listed
  obtain rfl := List.mem_singleton.1 listed
  exact leads

/-- In code and on pages, a tag in the way of the kind uses the target wherever it stands outside of
other tags, if its reference leads there; on pages, the tag alone does not use it otherwise. A scan
reports such lines accordingly. -/
theorem tagReferences_exact {name reference text : List Char}
    {pairs : List (List Char × List Char)}
    (searched : file.extension?.getD [] ∈ AssetKind.codeExtensions ++ AssetKind.pageExtensions)
    (spelled : SpellsTag name pairs text) (refers : RefersBy reference finder.kind name pairs) :
    (finder.LeadsToTarget file reference → ∀ before behind, IsOutsideTags before →
      (∀ content, finder.usedBy (finder.candidate file content)
        (before ++ (text ++ behind)) = true) ∧
      ∀ tree options number,
        Scan.ReadsLine tree finder options file number (before ++ (text ++ behind)) →
        Scan.Reports tree finder options file number) ∧
    (file.extension?.getD [] ∈ AssetKind.pageExtensions →
      ¬ finder.LeadsToTarget file reference →
      (∀ content, finder.usedBy (finder.candidate file content) text = false) ∧
      ∀ tree options number, Scan.ReadsLine tree finder options file number text →
        ¬ Scan.Reports tree finder options file number) := by
  constructor
  · intro leads before behind outside
    have used : ∀ content, finder.usedBy (finder.candidate file content)
        (before ++ (text ++ behind)) = true := fun content =>
      usedBy_of_refersByTag searched (refersByTag_of_spellsTag spelled refers leads outside behind)
    exact ⟨used, fun tree options number reads => Scan.reports_of_usedBy reads used⟩
  · intro onPage elsewhere
    have unused : ∀ content, finder.usedBy (finder.candidate file content) text = false := by
      intro content
      refine Bool.eq_false_iff.2 fun used => elsewhere ?_
      exact leadsToTarget_of_refersByTag spelled refers (refersByTag_of_usedBy onPage used)
    exact ⟨unused, fun tree options number reads => Scan.not_reports_of_usedBy reads unused⟩

/-- A page that shows two images, each by a tag on a line of its own. -/
def imagePage : Content :=
  let lines := ["<p><IMG alt=A SRC='images/a.png' /></p>", "<img src=\"images/b.png\">"]
  ⟨(Text.Utf8.encode ("\n".intercalate lines).toList).toArray⟩

/-- The first image is spelled with a bare and a single-quoted value. -/
theorem spellsTag_firstImage :
    SpellsTag "IMG".toList [("alt".toList, "A".toList), ("SRC".toList, "images/a.png".toList)]
      "<IMG alt=A SRC='images/a.png' />".toList := by
  have alt : Markup.IsName "alt".toList := ⟨_, _, rfl, by decide, List.all_eq_true.1 (by decide)⟩
  have src : Markup.IsName "SRC".toList := ⟨_, _, rfl, by decide, List.all_eq_true.1 (by decide)⟩
  have source : Markup.SpellsAttribute " /".toList "SRC".toList "images/a.png".toList
      "SRC='images/a.png'".toList := .assigned src .nil .nil (.single (by decide))
  have text : Markup.SpellsAttribute (" ".toList ++ "SRC='images/a.png' /".toList) "alt".toList
      "A".toList "alt=A".toList :=
    .assigned alt .nil .nil (.bare (by decide) (List.all_eq_true.1 (by decide)) (.cons (by decide)))
  have ending : Markup.IsEnding " /".toList :=
    .blanksSlash (List.cons_ne_nil ' ' []) (by decide) .nil
  have list := Markup.SpellsList.more text (by decide) (by decide) (.last source ending)
  have name : Markup.IsTagName "IMG".toList :=
    ⟨_, _, rfl, by decide, List.all_eq_true.1 (by decide)⟩
  exact .intro name (by decide) ⟨" ".toList, _, by decide, list, rfl⟩ (by decide)

/-- The second image is spelled with a double-quoted value. -/
theorem spellsTag_secondImage :
    SpellsTag "img".toList [("src".toList, "images/b.png".toList)]
      "<img src=\"images/b.png\">".toList := by
  have src : Markup.IsName "src".toList := ⟨_, _, rfl, by decide, List.all_eq_true.1 (by decide)⟩
  have source : Markup.SpellsAttribute [] "src".toList "images/b.png".toList
      "src=\"images/b.png\"".toList := .assigned src .nil .nil (.double (by decide))
  have list := Markup.SpellsList.last source (.blanks .nil)
  have name : Markup.IsTagName "img".toList :=
    ⟨_, _, rfl, by decide, List.all_eq_true.1 (by decide)⟩
  exact .intro name (by decide) ⟨" ".toList, _, by decide, list, rfl⟩ (by decide)

/-- On the page, the line of the first image is reported for it, and the other line is not. -/
theorem tagReferences_of_imagePage :
    let page := Path.ofString "/p/public/index.html"
    let tree := Tree.empty.write page imagePage
    let project := Project.conventional (.ofString "/p")
    let image := Finder.new .image project (.ofString "public/images/a.png")
    Scan.Reports tree image {} page 1 ∧ ¬ Scan.Reports tree image {} page 2 := by
  intro page tree project image
  have onPage : page.extension?.getD [] ∈ AssetKind.pageExtensions := by decide +kernel
  have searched := List.mem_append_right AssetKind.codeExtensions onPage
  have found : tree.find page = .ok (.file imagePage) := rfl
  have reads : tree.ReadsAs defaultSizeLimit page imagePage :=
    ⟨found, by decide +kernel, by decide +kernel⟩
  have isCandidate : page ∈ Scan.candidatesOf tree image {} := by decide +kernel
  have notTarget : ¬ page.SamePath image.target := by decide +kernel
  constructor
  · have img : IsCaseOf "img" "IMG".toList := rfl
    have src : IsCaseOf "src" "SRC".toList := rfl
    have refers := RefersBy.image img src
      ⟨[("alt".toList, "A".toList)], .swap ("SRC".toList, "images/a.png".toList) _ _, by decide⟩
    have leads : image.LeadsToTarget page "images/a.png".toList := by
      rw [LeadsToTarget, ← isNamed_iff]
      decide +kernel
    have outside : IsOutsideTags "<p>".toList := .inr (by decide)
    apply ((tagReferences_exact searched spellsTag_firstImage refers).1 leads _ "</p>".toList
      outside).2
    exact ⟨isCandidate, notTarget, by decide, imagePage, reads, by decide +kernel⟩
  · have img : IsCaseOf "img" "img".toList := rfl
    have src : IsCaseOf "src" "src".toList := rfl
    have refers := RefersBy.image img src
      ⟨[], .refl [("src".toList, "images/b.png".toList)], by decide⟩
    have elsewhere : ¬ image.LeadsToTarget page "images/b.png".toList := by
      rw [LeadsToTarget, ← isNamed_iff]
      decide +kernel
    apply ((tagReferences_exact searched spellsTag_secondImage refers).2 onPage elsewhere).2
    exact ⟨isCandidate, notTarget, by decide, imagePage, reads, by decide +kernel⟩

end Finder

end AssetUsage
