import AssetUsage.Proofs.Scan.Exactness

/-!
# Texts that are read again

A scan that leaves the texts of lines to be read again finds the same lines as one that keeps them.
A text that is read again is the kept one as long as the file is not larger than the default limit,
whatever the limit of the scan was: the limit of the scan is not known to a usage. In a larger file
the line counts as unavailable, which is never a kept text, because that text uses no target.
-/

namespace AssetUsage

/-- The usage with its text left to be read again. -/
def Usage.deferring (usage : Usage) : Usage := { usage with text := .deferred }

namespace Finder

/-- No kind of target is used by the text of an unavailable line, which is a tag without a source
or a link. -/
theorem usedBy_unavailable (finder : Finder) (candidate : Candidate) :
    finder.usedBy candidate Usage.unavailable = false := by
  have noCall : ∀ helper ∈ "stylesheet_link_tag" :: "javascript_include_tag" :: imageHelpers,
      argumentsOf Usage.unavailable helper = [] := by decide +kernel
  have noTag : ∀ name ∈ ["link", "script", "img"],
      Markup.tagsNamed Usage.unavailable name.toList = [] := by decide +kernel
  have noLink : ∀ tag ∈ Markup.tags Usage.unavailable, ∀ key ∈ ["src", "href"],
      tag.attributes.get? key.toList = none := by decide +kernel
  have noImport : Style.importedNames Usage.unavailable = [] := by decide +kernel
  have noImage : Style.imageNames Usage.unavailable = [] := by decide +kernel
  have noRender : Call.renderReferences Usage.unavailable = [] := by decide +kernel
  have noDeclaration : Call.declaredLayout? Usage.unavailable = none := by decide +kernel
  have noClass : Call.isControllerClass Usage.unavailable = false := by decide +kernel
  have noSource : finder.inSourceOrLink candidate Usage.unavailable = false := by
    refine List.any_eq_false.2 fun tag mem => ?_
    rw [Bool.not_eq_true]
    refine List.any_eq_false.2 fun key listed => ?_
    rw [noLink tag mem key listed]
    simp
  have noLinkTag : finder.inLinkTag candidate Usage.unavailable = false := by
    rw [inLinkTag, noTag "link" (by simp)]
    rfl
  have noScript : finder.inTag candidate Usage.unavailable "script" "src" = false := by
    rw [inTag, noTag "script" (by simp)]
    rfl
  have noPicture : finder.inTag candidate Usage.unavailable "img" "src" = false := by
    rw [inTag, noTag "img" (by simp)]
    rfl
  simp only [imageHelpers, List.forall_mem_cons, List.not_mem_nil] at noCall
  unfold usedBy
  cases finder.kind with
  | stylesheet => simp [inStylesheetHelper, inImport, noCall, noLinkTag, noImport]
  | javascript => simp [inScriptHelper, noCall, noScript]
  | image => simp [inImageHelper, imageHelpers, inStyleImage, noCall, noPicture, noImage]
  | template => simp [inRenderCall, noRender]
  | partialTemplate => simp [inRenderCall, inPartialCall, noRender]
  | layout =>
    simp [inRenderCall, inLayoutOption, inLayoutDeclaration, inImplicitLayout, noRender,
      noDeclaration, noClass]
  | publicFile => simp [noSource]

end Finder

namespace Scan

/-- A scan that defers texts finds what one that keeps them finds. -/
theorem usages_deferring (tree : Tree) (finder : Finder) (options : ScanOptions) :
    usages tree finder { options with captureText := false } =
      (usages tree finder { options with captureText := true }).map Usage.deferring := by
  unfold usages
  rw [List.map_flatMap]
  refine List.flatMap_congr fun file _ => ?_
  cases examine tree finder options.sizeLimit file with
  | target => rfl
  | skipped reason => rfl
  | searched text => simp [usagesIn, usageAt, Usage.deferring, Function.comp_def]

/-- A kept text is no unavailable line, and it is read again from a file that is not larger than the
default limit. -/
theorem lineText_deferring {tree : Tree} {finder : Finder} {options : ScanOptions} {usage : Usage}
    (mem : usage ∈ usages tree finder { options with captureText := true }) :
    ∃ content text, tree.find usage.file = .ok (.file content) ∧
      content.size ≤ options.sizeLimit ∧ usage.text = .captured text ∧ text ≠ Usage.unavailable ∧
      usage.deferring.lineText tree =
        if content.size ≤ defaultSizeLimit then text else Usage.unavailable := by
  obtain ⟨file, -, mem⟩ := List.mem_flatMap.1 mem
  obtain ⟨-, content, line, number, reads, positive, there, used, rfl⟩ := mem_usagesOfFile.1 mem
  refine ⟨content, line, reads.found, reads.small, rfl, ?_, ?_⟩
  · rintro rfl
    rw [Finder.usedBy_unavailable] at used
    contradiction
  · obtain ⟨index, rfl⟩ : ∃ index, number = index + 1 := ⟨number - 1, by omega⟩
    have again := Tree.readLine?_of_readsAs reads index
    rw [Nat.add_sub_cancel] at there
    simp only [Usage.deferring, Usage.lineText, usageAt, again, there]
    split <;> rfl

/-- Every file with a usage is no larger than the default limit. -/
def FitDefaultLimit (tree : Tree) (usages : List Usage) : Prop :=
  ∀ usage ∈ usages, ∀ content, tree.find usage.file = .ok (.file content) →
    content.size ≤ defaultSizeLimit

/-- A usage whose file is within the default limit has its kept text read again, and no other. -/
theorem lineText_deferring_eq_iff {tree : Tree} {finder : Finder} {options : ScanOptions}
    {usage : Usage} (mem : usage ∈ usages tree finder { options with captureText := true }) :
    usage.deferring.lineText tree = usage.lineText tree ↔
      ∀ content, tree.find usage.file = .ok (.file content) → content.size ≤ defaultSizeLimit := by
  obtain ⟨content, text, found, -, kept, available, again⟩ := lineText_deferring mem
  have captured : usage.lineText tree = text := by rw [Usage.lineText, kept]
  rw [again, captured]
  constructor
  · intro same other otherFound
    obtain rfl := Tree.content_unique found otherFound
    refine Classical.byContradiction fun large => ?_
    rw [if_neg large] at same
    exact available same.symm
  · intro small
    rw [if_pos (small content found)]

/-- All texts are read again as they were kept exactly if all files are within the default limit. -/
theorem texts_deferring_eq_iff (tree : Tree) (finder : Finder) (options : ScanOptions) :
    (usages tree finder { options with captureText := false }).map (·.lineText tree) =
        (usages tree finder { options with captureText := true }).map (·.lineText tree) ↔
      FitDefaultLimit tree (usages tree finder { options with captureText := true }) := by
  rw [usages_deferring, List.map_map, List.map_inj_left]
  exact forall₂_congr fun usage mem => lineText_deferring_eq_iff mem

/-- Files are within the default limit if the scan reads no larger ones. -/
theorem fitDefaultLimit_of_sizeLimit_le {tree : Tree} {finder : Finder} {options : ScanOptions}
    (small : options.sizeLimit ≤ defaultSizeLimit) :
    FitDefaultLimit tree (usages tree finder { options with captureText := true }) := by
  intro usage mem other otherFound
  obtain ⟨content, -, found, within, -⟩ := lineText_deferring mem
  obtain rfl := Tree.content_unique found otherFound
  exact Nat.le_trans within small

/-- Deferring texts changes no usage; the text of a usage is read again as it was kept if its file
is within the default limit and is unavailable if it is not, so all texts agree exactly if all files
are within it, and they do whenever the scan itself reads no larger files. -/
theorem deferred_texts (tree : Tree) (finder : Finder) (options : ScanOptions) :
    let kept := usages tree finder { options with captureText := true }
    let deferred := usages tree finder { options with captureText := false }
    deferred = kept.map Usage.deferring ∧
    (∀ usage ∈ kept, ∃ content text, tree.find usage.file = .ok (.file content) ∧
      content.size ≤ options.sizeLimit ∧ usage.text = .captured text ∧ text ≠ Usage.unavailable ∧
      usage.deferring.lineText tree =
        if content.size ≤ defaultSizeLimit then text else Usage.unavailable) ∧
    (deferred.map (·.lineText tree) = kept.map (·.lineText tree) ↔ FitDefaultLimit tree kept) ∧
    (options.sizeLimit ≤ defaultSizeLimit → FitDefaultLimit tree kept) :=
  ⟨usages_deferring tree finder options, fun _ => lineText_deferring,
    texts_deferring_eq_iff tree finder options, fitDefaultLimit_of_sizeLimit_le⟩

/-- A page that shows an image, with as many empty lines behind it as the default limit has
bytes. -/
def longPage : Content :=
  ⟨(Text.Utf8.encode "<img src=\"images/a.png\">\n".toList ++
    List.replicate defaultSizeLimit 10).toArray⟩

/-- The number of bytes of the long page. -/
theorem size_longPage : longPage.size = 25 + defaultSizeLimit := by
  have front : (Text.Utf8.encode "<img src=\"images/a.png\">\n".toList).length = 25 := by decide
  rw [longPage, ByteArray.size, List.size_toArray, List.length_append, front,
    List.length_replicate]

/-- The long page does not look binary. -/
theorem isBinary_longPage : longPage.isBinary = false := by
  refine Content.isBinary_eq_false_of_forall_ne ?_
  simp only [longPage, List.mem_toArray, List.forall_mem_append]
  exact ⟨by decide +kernel, fun byte mem => List.eq_of_mem_replicate mem ▸ by decide⟩

/-- The first line of the long page is its image. -/
theorem head_lines_longPage :
    (Text.lines longPage.text.content)[0]? = some "<img src=\"images/a.png\">".toList := by
  have read : ∀ rest, Text.Utf8.readFrom none
      (Text.Utf8.encode "<img src=\"images/a.png\">\n".toList ++ rest) =
      ("<img src=\"images/a.png\">".toList ++ ['\n']).map .char ++
        Text.Utf8.readFrom none rest := fun _ => rfl
  have content : longPage.text.content = "<img src=\"images/a.png\">".toList ++
      '\n' :: Text.Utf8.decodeLossy (List.replicate defaultSizeLimit 10) := by
    simp only [Content.text, longPage, Text.Utf8.decodeLossy, Text.Utf8.read_eq_readFrom, read,
      List.map_append, List.map_map, List.append_assoc]
    rfl
  rw [content, Text.lines_append_lineFeed (by decide), List.getElem?_cons_zero]
  rfl

/-- A scan with a raised limit finds the image on the long page, but cannot read its line again. -/
theorem deferred_text_of_longPage :
    ¬ ∀ (tree : Tree) (finder : Finder) (options : ScanOptions),
      (usages tree finder { options with captureText := false }).map (·.lineText tree) =
        (usages tree finder { options with captureText := true }).map (·.lineText tree) := by
  intro claim
  let page := Path.ofString "/p/public/index.html"
  let tree := Tree.empty.write page longPage
  let finder := Finder.new .image (.conventional (.ofString "/p")) (.ofString "public/images/a.png")
  let options : ScanOptions := { sizeLimit := 2 * defaultSizeLimit }
  have found : tree.find page = .ok (.file longPage) := rfl
  have reads : tree.ReadsAs options.sizeLimit page longPage := by
    refine ⟨found, ?_, isBinary_longPage⟩
    rw [size_longPage]
    decide
  have isUsage : IsUsage tree finder { options with captureText := true } page 1 :=
    ⟨by decide +kernel, by decide +kernel, Nat.le_refl 1, longPage, _, reads, head_lines_longPage,
      by decide +kernel⟩
  obtain ⟨usage, mem, file, -⟩ := exists_mem_usages_iff.2 isUsage
  have small := (texts_deferring_eq_iff tree finder options).1 (claim tree finder options) usage mem
    longPage (file ▸ found)
  rw [size_longPage] at small
  omega

end Scan

end AssetUsage
