import AssetUsage.Proofs.Path.ShownBytes
import AssetUsage.Proofs.Report.Tally
import Mathlib.Data.Finset.Card

/-!
# Files that share an entry

In `files` and `count` a usage is counted under the text by which its file is shown. Files behind
the root are shown by the same text exactly if their texts, with U+FFFD for what is not UTF-8,
differ in nothing but backslashes in the place of separators, so exactly these share an entry
(`shareEntry_iff_looksLike`). Each file has an entry of its own exactly if no two of them look
alike, in particular if all are UTF-8 and none has a backslash in its name (`fileEntries_exact`).
-/

namespace AssetUsage

namespace OsPath

/-- Of paths that are UTF-8 and without backslashes, only the path itself looks like it. -/
theorem lossy_looksLike_iff_of_plain {left right : OsPath}
    (leftText : left.isText = true ∧ backslash ∉ left.bytes)
    (rightText : right.isText = true ∧ backslash ∉ right.bytes) :
    left.lossy.LooksLike right.lossy ↔ left = right := by
  rw [Path.looksLike_iff_of_plain (backslash_not_mem_lossy leftText.2)
    (backslash_not_mem_lossy rightText.2), lossy_eq_iff leftText.1 rightText.1]

end OsPath

namespace Report

/-- The file is counted in the entry. -/
def IsCountedIn (root file : OsPath) (entry : List Char × ℕ) : Prop :=
  file.shownFrom root = entry.1

instance (root file : OsPath) (entry : List Char × ℕ) : Decidable (IsCountedIn root file entry) :=
  inferInstanceAs (Decidable (file.shownFrom root = entry.1))

/-- The files are counted in one entry. -/
def ShareEntry (root : OsPath) (files : List OsPath) (first second : OsPath) : Prop :=
  ∃ entry ∈ fileEntries root files, IsCountedIn root first entry ∧ IsCountedIn root second entry

variable {root : OsPath} {files : List OsPath}

/-- The entries are a tally of the texts by which files are shown. -/
theorem tallies_fileEntries (root : OsPath) (files : List OsPath) :
    Tallies (files.map (·.shownFrom root)) (fileEntries root files) :=
  tallies_tally _

/-- Every file is counted in an entry. -/
theorem exists_isCountedIn {file : OsPath} (mem : file ∈ files) :
    ∃ entry ∈ fileEntries root files, IsCountedIn root file entry := by
  have shown : file.shownFrom root ∈ files.map (·.shownFrom root) := List.mem_map_of_mem mem
  obtain ⟨entry, listed, same⟩ :=
    List.mem_map.1 (((tallies_fileEntries root files).mem_iff _).2 shown)
  exact ⟨entry, listed, same.symm⟩

/-- The number in an entry is that of the files that are counted in it. -/
theorem count_eq_countP {entry : List Char × ℕ} (listed : entry ∈ fileEntries root files) :
    entry.2 = files.countP (IsCountedIn root · entry) := by
  rw [((tallies_fileEntries root files).counts entry listed).2, List.count, List.countP_map]
  exact List.countP_congr fun file _ => beq_iff_eq.trans decide_eq_true_iff.symm

/-- Files share an entry exactly if they are shown by the same text. -/
theorem shareEntry_iff_shownFrom_eq {first second : OsPath} (mem : first ∈ files) :
    ShareEntry root files first second ↔ first.shownFrom root = second.shownFrom root := by
  constructor
  · rintro ⟨entry, -, counted, countedToo⟩
    exact Eq.trans counted (Eq.symm countedToo)
  · intro same
    obtain ⟨entry, listed, counted⟩ := exists_isCountedIn mem
    exact ⟨entry, listed, counted, same.symm.trans counted⟩

/-- There are as many entries as texts by which files are shown. -/
theorem length_fileEntries :
    (fileEntries root files).length = (files.toFinset.image (·.shownFrom root)).card := by
  have tallies := tallies_fileEntries root files
  have texts : ((fileEntries root files).map Prod.fst).toFinset =
      files.toFinset.image (·.shownFrom root) := by
    ext text
    rw [List.mem_toFinset, Finset.mem_image]
    refine (tallies.mem_iff text).trans ?_
    simp
  rw [← texts, List.toFinset_card_of_nodup tallies.distinct, List.length_map]

section Below

variable (below : ∀ file ∈ files, file.IsCanonical ∧ file.startsWith root = true)
include below

/-- Behind the root, files share an entry exactly if their texts look alike. -/
theorem shareEntry_iff_looksLike {first second : OsPath} (mem : first ∈ files)
    (memToo : second ∈ files) :
    ShareEntry root files first second ↔ first.lossy.LooksLike second.lossy := by
  obtain ⟨canonical, behind⟩ := below first mem
  obtain ⟨canonicalToo, behindToo⟩ := below second memToo
  rw [shareEntry_iff_shownFrom_eq mem]
  exact OsPath.shownFrom_eq_iff canonical canonicalToo behind behindToo

/-- Behind the root, there is an entry for each file exactly if no two files look alike. -/
theorem length_fileEntries_eq_card_iff :
    (fileEntries root files).length = files.toFinset.card ↔
      ∀ first ∈ files, ∀ second ∈ files,
        first.lossy.LooksLike second.lossy → first = second := by
  rw [length_fileEntries, Finset.card_image_iff]
  simp only [Set.InjOn, List.coe_toFinset, Set.mem_ofPred_eq]
  refine forall₂_congr fun first mem => forall₂_congr fun second memToo => ?_
  rw [← shareEntry_iff_looksLike below mem memToo, shareEntry_iff_shownFrom_eq mem]

end Below

/-- For files behind the root, whatever their bytes, the number in an entry is that of the files
counted in it. Files share an entry exactly if their texts, with U+FFFD for what is not UTF-8,
differ in nothing but backslashes in the place of separators; there are at most as many entries as
files, and as many exactly if no two files differ so. Where all files are UTF-8 and have no
backslashes, only one file is counted in an entry, and there is an entry for each file. In `files`
and `count` there is a line for each entry of the files of the usages, and usages share an entry by
their files. -/
theorem fileEntries_exact {root : OsPath} {files : List OsPath}
    (below : ∀ file ∈ files, file.IsCanonical ∧ file.startsWith root = true) :
    let entries := fileEntries root files
    (∀ entry ∈ entries, entry.2 = files.countP (IsCountedIn root · entry)) ∧
    (∀ first ∈ files, ∀ second ∈ files,
      (ShareEntry root files first second ↔ first.lossy.LooksLike second.lossy)) ∧
    entries.length ≤ files.toFinset.card ∧
    (entries.length = files.toFinset.card ↔ ∀ first ∈ files, ∀ second ∈ files,
      first.lossy.LooksLike second.lossy → first = second) ∧
    ((∀ file ∈ files, file.isText = true ∧ OsPath.backslash ∉ file.bytes) →
      (∀ first ∈ files, ∀ second ∈ files,
        (ShareEntry root files first second ↔ first = second)) ∧
      entries.length = files.toFinset.card) ∧
    ∀ (tree : Tree) (textRoot : Path) (reports : List UsageReport) (colour : Bool),
      root = .ofPath textRoot → files = usageFiles reports →
      let paint := Colour.magenta.paintIf colour
      render tree textRoot ⟨.files, colour⟩ reports = joinLines (entries.map (paint ·.1)) ∧
      render tree textRoot ⟨.count, colour⟩ reports =
        joinLines (entries.map fun entry => paint entry.1 ++ ':' :: Text.decimal entry.2) ∧
      (∀ first ∈ usages reports, ∀ second ∈ usages reports,
        (ShareEntry root files (.ofPath first.file) (.ofPath second.file) ↔
          first.file.LooksLike second.file)) ∧
      ((∀ usage ∈ usages reports, '\\' ∉ usage.file.text) →
        (∀ first ∈ usages reports, ∀ second ∈ usages reports,
          (ShareEntry root files (.ofPath first.file) (.ofPath second.file) ↔
            first.file = second.file)) ∧
        entries.length = files.toFinset.card) := by
  intro entries
  have apart : (∀ file ∈ files, file.isText = true ∧ OsPath.backslash ∉ file.bytes) →
      (∀ first ∈ files, ∀ second ∈ files,
        (ShareEntry root files first second ↔ first = second)) ∧
      entries.length = files.toFinset.card := by
    intro plain
    refine ⟨fun first mem second memToo => ?_, ?_⟩
    · rw [shareEntry_iff_looksLike below mem memToo]
      exact OsPath.lossy_looksLike_iff_of_plain (plain first mem) (plain second memToo)
    · refine (length_fileEntries_eq_card_iff below).2 fun first mem second memToo alike => ?_
      exact (OsPath.lossy_looksLike_iff_of_plain (plain first mem) (plain second memToo)).1 alike
  refine ⟨fun _ => count_eq_countP, fun _ mem _ memToo => shareEntry_iff_looksLike below mem memToo,
    length_fileEntries.trans_le Finset.card_image_le, length_fileEntries_eq_card_iff below, apart,
    ?_⟩
  rintro tree textRoot reports colour rfl rfl
  have listed : ∀ usage ∈ usages reports, OsPath.ofPath usage.file ∈ usageFiles reports :=
    fun _ mem => List.mem_map_of_mem mem
  refine ⟨rfl, rfl, fun first mem second memToo => ?_, fun plain => ?_⟩
  · rw [shareEntry_iff_looksLike below (listed first mem) (listed second memToo),
      OsPath.lossy_ofPath, OsPath.lossy_ofPath]
  · obtain ⟨own, count⟩ := apart (List.forall_mem_map.2 fun usage mem =>
      ⟨OsPath.isText_ofPath _, OsPath.backslash_not_mem_ofPath_iff.2 (plain usage mem)⟩)
    refine ⟨fun first mem second memToo => ?_, count⟩
    rw [own _ (listed first mem) _ (listed second memToo), OsPath.ofPath_injective.eq_iff]

/-- A usage in a file whose name has a backslash, and one in a file of a directory, as reported for
two targets. -/
def backslashReports : List UsageReport :=
  [⟨"public/a.css".toList, [⟨.ofString "/p/app\\b.rb", 1, .captured "a".toList⟩]⟩,
   ⟨"public/b.css".toList, [⟨.ofString "/p/app/b.rb", 4, .captured "b".toList⟩,
     ⟨.ofString "/p/c.rb", 2, .deferred⟩]⟩]

/-- Two files whose names are not UTF-8. -/
def brokenFiles : List OsPath :=
  [⟨[0x2F, 0x70, 0x2F, 0xFF, 0x2E, 0x72, 0x62]⟩, ⟨[0x2F, 0x70, 0x2F, 0xFE, 0x2E, 0x72, 0x62]⟩]

/-- There are fewer entries than files where two files look alike, be it by a backslash or by what
is not UTF-8. -/
theorem fileEntries_exact_of_backslash :
    let root := OsPath.ofPath (.ofString "/p")
    let files := usageFiles backslashReports
    ((∀ file ∈ files, file.IsCanonical ∧ file.startsWith root = true) ∧
      (fileEntries root files).length < files.toFinset.card) ∧
    (∀ file ∈ brokenFiles, file.IsCanonical ∧ file.startsWith root = true) ∧
      (fileEntries root brokenFiles).length < brokenFiles.toFinset.card := by
  intro root files
  have below : ∀ file ∈ files, file.IsCanonical ∧ file.startsWith root = true := by
    decide +kernel
  have belowBroken : ∀ file ∈ brokenFiles, file.IsCanonical ∧ file.startsWith root = true := by
    decide +kernel
  have alike : (Path.ofString "/p/app\\b.rb").LooksLike (.ofString "/p/app/b.rb") :=
    (Path.shown_eq_iff _ _).1 (by decide +kernel)
  have laws := fileEntries_exact below
  have lawsBroken := fileEntries_exact belowBroken
  refine ⟨⟨below, lt_of_le_of_ne laws.2.2.1 fun same => ?_⟩, belowBroken,
    lt_of_le_of_ne lawsBroken.2.2.1 fun same => ?_⟩
  · have equal := laws.2.2.2.1.1 same (.ofPath (.ofString "/p/app\\b.rb")) (by decide +kernel)
      (.ofPath (.ofString "/p/app/b.rb")) (by decide +kernel)
    rw [OsPath.lossy_ofPath, OsPath.lossy_ofPath] at equal
    exact absurd (equal alike) (by decide +kernel)
  · obtain ⟨first, mem, second, memToo, other, shown⟩ : ∃ first ∈ brokenFiles,
        ∃ second ∈ brokenFiles, first ≠ second ∧ first.lossy.shown = second.lossy.shown := by
      decide +kernel
    exact other (lawsBroken.2.2.2.1.1 same first mem second memToo
      ((Path.shown_eq_iff _ _).1 shown))

/-- Usages in different files may share an entry. -/
theorem fileEntries_merge_backslash :
    ¬ ∀ (root : Path) (reports : List UsageReport), root.IsCanonical →
      (∀ usage ∈ usages reports, usage.file.IsCanonical ∧ usage.file.startsWith root = true) →
      (∀ first ∈ usages reports, ∀ second ∈ usages reports,
        (ShareEntry (.ofPath root) (usageFiles reports) (.ofPath first.file) (.ofPath second.file) ↔
          first.file = second.file)) ∧
      (referencingFiles root reports).length = (usageFiles reports).toFinset.card := by
  intro claim
  have counted := (claim (.ofString "/p") backslashReports (by decide) (by decide +kernel)).2
  exact absurd counted (by decide +kernel)

end Report

end AssetUsage
