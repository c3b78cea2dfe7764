import AssetUsage.Proofs.Scan.WalkOrder
import AssetUsage.Proofs.Tree.Readable
import AssetUsage.Scan.Usages
import Mathlib.Data.List.Basic

/-!
# What a scan reports

A scan reports exactly the lines that use the target in the candidates that are read as text, each
once, in the order of files and then of lines. The order has two parts: candidates come in the order
of paths, and within a file the numbers of lines increase. A candidate that is skipped adds nothing,
and what stands in its place makes no difference to the usages in other files.
-/

namespace AssetUsage.Scan

/-- The scan options make the line with a number of a file a usage of the target. -/
structure IsUsage (tree : Tree) (finder : Finder) (options : ScanOptions) (file : Path)
    (number : Nat) : Prop where
  /-- The file is a candidate for the kind of the target. -/
  candidate : file ∈
    candidates tree finder.project.root finder.kind.extensions options.respectIgnore
  /-- The file is not the target. -/
  notTarget : ¬ file.SamePath finder.target
  /-- Lines are counted from 1. -/
  positive : 1 ≤ number
  /-- The file is read as text, and the line is accepted in the context of the whole content. -/
  accepted : ∃ content line, tree.ReadsAs options.sizeLimit file content ∧
    (Text.lines content.text.content)[number - 1]? = some line ∧
    finder.usedBy (finder.candidate file content.text.content) line = true

/-- The file is the target, or it is not read as text. -/
def IsSkipped (tree : Tree) (finder : Finder) (options : ScanOptions) (file : Path) : Prop :=
  file.SamePath finder.target ∨ ∀ content, ¬ tree.ReadsAs options.sizeLimit file content

/-- Apart from one file, two trees have the same candidates, and these are read alike. -/
structure AgreeApartFrom (file : Path) (tree other : Tree) (finder : Finder)
    (options : ScanOptions) : Prop where
  /-- The other candidates are the same. -/
  candidates : (candidatesOf other finder options).filter (· ≠ file) =
    (candidatesOf tree finder options).filter (· ≠ file)
  /-- The other candidates are read alike. -/
  texts : ∀ candidate ∈ candidatesOf tree finder options, candidate ≠ file →
    other.readText candidate options.sizeLimit = tree.readText candidate options.sizeLimit

/-- The usages that a scan finds in one candidate. -/
def usagesOfFile (tree : Tree) (finder : Finder) (options : ScanOptions) (file : Path) :
    List Usage :=
  usagesIn finder options.captureText file (examine tree finder options.sizeLimit file)

/-- A candidate is searched exactly if it is not the target and is read as text. -/
theorem examine_eq_searched_iff {tree : Tree} {finder : Finder} {sizeLimit : Nat} {file : Path}
    {text : FileText} :
    examine tree finder sizeLimit file = .searched text ↔
      ¬ file.SamePath finder.target ∧
        ∃ content, tree.ReadsAs sizeLimit file content ∧ content.text = text := by
  rw [← Tree.readText_eq_ok_iff]
  unfold examine Finder.isTarget
  split
  · next target => simp_all
  · next other =>
    split
    · next reason read => simp [read]
    · next found read =>
      rw [read]
      simp_all

/-- The lines of a content that use the target. -/
theorem mem_usingLinesOf {finder : Finder} {candidate : Candidate} {content line : List Char}
    {number : Nat} :
    (line, number) ∈ finder.usingLinesOf candidate content ↔
      1 ≤ number ∧ (Text.lines content)[number - 1]? = some line ∧
        finder.usedBy candidate line = true := by
  simp [Finder.usingLinesOf, List.mem_zipIdx_iff_le_and_getElem?_sub, and_assoc]

/-- The numbers of the lines that use the target increase. -/
theorem usingLinesOf_ordered (finder : Finder) (candidate : Candidate) (content : List Char) :
    (finder.usingLinesOf candidate content).Pairwise fun left right => left.2 < right.2 := by
  have numbers : ((Text.lines content).zipIdx 1).Pairwise fun left right => left.2 < right.2 := by
    rw [← List.pairwise_map (f := Prod.snd) (R := (· < ·)), List.zipIdx_map_snd]
    exact List.pairwise_lt_range'
  exact numbers.filter _

/-- The usages in a candidate are the lines that use the target, with the text kept or left. -/
theorem mem_usagesOfFile {tree : Tree} {finder : Finder} {options : ScanOptions} {file : Path}
    {usage : Usage} :
    usage ∈ usagesOfFile tree finder options file ↔
      ¬ file.SamePath finder.target ∧ ∃ content line number,
        tree.ReadsAs options.sizeLimit file content ∧ 1 ≤ number ∧
        (Text.lines content.text.content)[number - 1]? = some line ∧
        finder.usedBy (finder.candidate file content.text.content) line = true ∧
        usage = usageAt options.captureText file (line, number) := by
  constructor
  · intro mem
    unfold usagesOfFile usagesIn at mem
    split at mem
    · next text searched =>
      obtain ⟨notTarget, content, reads, rfl⟩ := examine_eq_searched_iff.1 searched
      obtain ⟨⟨line, number⟩, found, rfl⟩ := List.mem_map.1 mem
      obtain ⟨positive, there, used⟩ := mem_usingLinesOf.1 found
      exact ⟨notTarget, content, line, number, reads, positive, there, used, rfl⟩
    · contradiction
    · contradiction
  · rintro ⟨notTarget, content, line, number, reads, positive, there, used, rfl⟩
    have searched : examine tree finder options.sizeLimit file = .searched content.text :=
      examine_eq_searched_iff.2 ⟨notTarget, content, reads, rfl⟩
    unfold usagesOfFile
    rw [searched]
    exact List.mem_map_of_mem (mem_usingLinesOf.2 ⟨positive, there, used⟩)

/-- A usage found in a candidate is a line of it. -/
theorem file_of_mem_usagesOfFile {tree : Tree} {finder : Finder} {options : ScanOptions}
    {file : Path} {usage : Usage} (h : usage ∈ usagesOfFile tree finder options file) :
    usage.file = file := by
  obtain ⟨-, content, line, number, -, -, -, -, rfl⟩ := mem_usagesOfFile.1 h
  rfl

/-- Nothing is found in a file that is skipped. -/
theorem usagesOfFile_of_isSkipped {tree : Tree} {finder : Finder} {options : ScanOptions}
    {file : Path} (skipped : IsSkipped tree finder options file) :
    usagesOfFile tree finder options file = [] := by
  refine List.eq_nil_iff_forall_not_mem.2 fun usage mem => ?_
  obtain ⟨notTarget, content, line, number, reads, -⟩ := mem_usagesOfFile.1 mem
  rcases skipped with target | unread
  · exact notTarget target
  · exact unread content reads

/-- What is found in a file depends on the text that is read from it alone. -/
theorem usagesOfFile_congr {tree other : Tree} {finder : Finder} {options : ScanOptions}
    {file : Path}
    (same : other.readText file options.sizeLimit = tree.readText file options.sizeLimit) :
    usagesOfFile other finder options file = usagesOfFile tree finder options file := by
  simp only [usagesOfFile, examine, same]

/-- The usages in a candidate are in order. -/
theorem usagesOfFile_ordered (tree : Tree) (finder : Finder) (options : ScanOptions)
    (file : Path) :
    (usagesOfFile tree finder options file).Pairwise
      fun left right => compare left right = .lt := by
  unfold usagesOfFile usagesIn
  split
  · next text searched =>
    refine List.pairwise_map.2 ((usingLinesOf_ordered finder _ text.content).imp ?_)
    intro left right ordered
    have sameFile : compare file file = .eq := Path.compare_eq_eq_iff_samePath.2 (.refl file)
    rw [compare_usage]
    simp only [usageAt, sameFile, Ordering.eq_then]
    exact Nat.compare_eq_lt.2 ordered
  · exact List.Pairwise.nil
  · exact List.Pairwise.nil

/-- The usages of a target are in the order of files and then of lines. -/
theorem usages_ordered (tree : Tree) (finder : Finder) (options : ScanOptions) :
    (usages tree finder options).Pairwise fun left right => compare left right = .lt := by
  refine List.pairwise_flatMap.2 ⟨fun file _ => usagesOfFile_ordered tree finder options file, ?_⟩
  refine (candidates_ordered ..).imp ?_
  intro first second ordered left leftMem right rightMem
  rw [compare_usage, file_of_mem_usagesOfFile leftMem, file_of_mem_usagesOfFile rightMem, ordered]
  rfl

/-- The usages in certain files are those that are found in these candidates. -/
theorem filter_usages_file (tree : Tree) (finder : Finder) (options : ScanOptions)
    (keep : Path → Bool) :
    (usages tree finder options).filter (fun usage => keep usage.file) =
      ((candidatesOf tree finder options).filter keep).flatMap
        (usagesOfFile tree finder options) := by
  change ((candidatesOf tree finder options).flatMap (usagesOfFile tree finder options)).filter _ =
    _
  generalize candidatesOf tree finder options = files
  induction files with
  | nil => rfl
  | cons first others ih =>
    rw [List.flatMap_cons, List.filter_append, ih, List.filter_cons]
    by_cases kept : keep first = true
    · have all : (usagesOfFile tree finder options first).filter (fun usage => keep usage.file) =
          usagesOfFile tree finder options first :=
        List.filter_eq_self.2 fun usage mem => by simp [file_of_mem_usagesOfFile mem, kept]
      rw [all, if_pos kept, List.flatMap_cons]
    · have none : (usagesOfFile tree finder options first).filter (fun usage => keep usage.file) =
          [] :=
        List.filter_eq_nil_iff.2 fun usage mem => by simp [file_of_mem_usagesOfFile mem, kept]
      rw [none, if_neg kept, List.nil_append]

/-- The usages in other files than one are found in the other candidates. -/
theorem filter_usages (tree : Tree) (finder : Finder) (options : ScanOptions) (file : Path) :
    (usages tree finder options).filter (·.file ≠ file) =
      ((candidatesOf tree finder options).filter (· ≠ file)).flatMap
        (usagesOfFile tree finder options) :=
  filter_usages_file tree finder options (· ≠ file)

/-- A line is reported exactly if the scan options make it a usage. -/
theorem exists_mem_usages_iff {tree : Tree} {finder : Finder} {options : ScanOptions}
    {file : Path} {number : Nat} :
    (∃ usage ∈ usages tree finder options, usage.file = file ∧ usage.line = number) ↔
      IsUsage tree finder options file number := by
  constructor
  · rintro ⟨usage, mem, rfl, rfl⟩
    obtain ⟨file, candidate, mem⟩ := List.mem_flatMap.1 mem
    obtain ⟨notTarget, content, line, number, reads, positive, there, used, rfl⟩ :=
      mem_usagesOfFile.1 mem
    exact ⟨candidate, notTarget, positive, content, line, reads, there, used⟩
  · rintro ⟨candidate, notTarget, positive, content, line, reads, there, used⟩
    refine ⟨usageAt options.captureText file (line, number), ?_, rfl, rfl⟩
    refine List.mem_flatMap.2 ⟨file, candidate, mem_usagesOfFile.2 ?_⟩
    exact ⟨notTarget, content, line, number, reads, positive, there, used, rfl⟩

/-- A scan reports exactly the usages, strictly in order and hence each once, and a skipped file
neither adds a usage nor changes those in other files, whatever else may stand in its place. -/
theorem usages_exact (tree : Tree) (finder : Finder) (options : ScanOptions) :
    (∀ file number,
      (∃ usage ∈ usages tree finder options, usage.file = file ∧ usage.line = number) ↔
        IsUsage tree finder options file number) ∧
    (usages tree finder options).Pairwise (fun left right => compare left right = .lt) ∧
    ((usages tree finder options).map Usage.identity).Nodup ∧
    (∀ usage ∈ usages tree finder options, 1 ≤ usage.line) ∧
    ∀ file, IsSkipped tree finder options file →
      (∀ usage ∈ usages tree finder options, usage.file ≠ file) ∧
      ∀ other, AgreeApartFrom file tree other finder options →
        (usages other finder options).filter (·.file ≠ file) = usages tree finder options := by
  refine ⟨fun _ _ => exists_mem_usages_iff, usages_ordered tree finder options, ?_, ?_, ?_⟩
  · refine List.pairwise_map.2 ((usages_ordered tree finder options).imp ?_)
    intro left right ordered same
    have sameFile : compare left.file right.file = .eq :=
      Path.compare_eq_eq_iff_samePath.2 (congrArg Prod.fst same)
    have sameLine : left.line = right.line := congrArg Prod.snd same
    rw [compare_usage, sameFile, sameLine] at ordered
    simp at ordered
  · intro usage mem
    exact (exists_mem_usages_iff.1 ⟨usage, mem, rfl, rfl⟩).positive
  · intro file skipped
    have absent : ∀ usage ∈ usages tree finder options, usage.file ≠ file := by
      rintro usage mem rfl
      obtain ⟨file, -, mem⟩ := List.mem_flatMap.1 mem
      have same := file_of_mem_usagesOfFile mem
      rw [same] at skipped
      have empty := usagesOfFile_of_isSkipped skipped
      rw [usagesOfFile] at empty
      simp [empty] at mem
    refine ⟨absent, fun other agree => ?_⟩
    have whole : (usages tree finder options).filter (·.file ≠ file) =
        usages tree finder options :=
      List.filter_eq_self.2 fun usage mem => by simpa using absent usage mem
    rw [← whole, filter_usages, filter_usages, agree.candidates]
    refine List.flatMap_congr fun candidate mem => ?_
    obtain ⟨mem, differs⟩ := List.mem_filter.1 mem
    exact usagesOfFile_congr (agree.texts candidate mem (by simpa using differs))

end AssetUsage.Scan
