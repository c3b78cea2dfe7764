import AssetUsage.Proofs.Ignore.Editing
import AssetUsage.Proofs.Scan.Exactness

/-!
# Usages are local to their files

A scan of a project at a canonical root reports the same usages in a file whatever happens to
another one (`usages_local`): that file is neither read nor on the way, the other candidates stay
where they are, in the order of paths, and each is read on its own. With ignore files respected this
holds unless the other file is an ignore file, has a part in a link to version control data or
changes git's global ignore rules.
-/

namespace AssetUsage.Scan

open AssetUsage.Path (NamesEntry assemble)
open AssetUsage.Ignore (LinksKept IsIgnoreFile IsLinked globalRules)

variable {tree other : Tree} {place names : List Segment} {extensions : List (List Char)}
  {respectIgnore : Bool}

/-- The names on the way to a candidate below a canonical root can stand in directories. -/
theorem IsCandidate.namesEntry {chain : List Segment} (named : ∀ name ∈ names, NamesEntry name)
    (leads : IsCandidate tree (assemble .root names) extensions chain) :
    ∀ name ∈ names ++ chain, NamesEntry name := by
  obtain ⟨-, ⟨reached, content, located, entered⟩, -, -⟩ := leads
  obtain rfl : names = reached := ((Tree.locate_assemble_iff named).1 located).1.symm
  rw [Tree.entryAt?_eq_at?] at entered
  exact namesEntry_of_at? tree.wellFormed entered

/-- A candidate elsewhere stays one. -/
theorem IsCandidate.elsewhere {chain : List Segment} (same : tree.SameElsewhere other place)
    (named : ∀ name ∈ names, NamesEntry name) (elsewhere : names ++ chain ≠ place)
    (leads : IsCandidate tree (assemble .root names) extensions chain) :
    IsCandidate other (assemble .root names) extensions chain := by
  obtain ⟨below, ⟨reached, content, located, entered⟩, extension, visible⟩ := leads
  obtain ⟨found, usable, -⟩ := (Tree.locate_assemble_iff named).1 located
  obtain rfl : names = reached := found.symm
  have stays := (same _ content elsewhere).2 entered
  have there : (other.entryAt? names).isSome := by
    rw [Tree.entryAt?_append] at stays
    cases found : other.entryAt? names with
    | none => simp [found] at stays
    | some entry => rfl
  exact ⟨below, ⟨names, content, (Tree.locate_assemble_iff named).2 ⟨rfl, usable, there⟩, stays⟩,
    extension, visible⟩

/-- The candidates below a canonical root are the paths of those chains that are kept, as far as
ignore files are respected. -/
theorem mem_candidates_assemble_iff {file : Path} (named : ∀ name ∈ names, NamesEntry name) :
    file ∈ candidates tree (assemble .root names) extensions respectIgnore ↔
      ∃ chain, IsCandidate tree (assemble .root names) extensions chain ∧
        (respectIgnore = true → IsKept tree names chain) ∧
        file = assemble .root (names ++ chain) := by
  have paths {chain : List Segment}
      (leads : IsCandidate tree (assemble .root names) extensions chain) :
      (assemble .root names).join ⟨['/'].intercalate chain⟩ = assemble .root (names ++ chain) :=
    Path.join_assemble named leads.below
      (List.forall_mem_append.1 (leads.namesEntry named)).2
  cases respectIgnore with
  | false =>
    rw [mem_candidates_iff]
    refine exists_congr fun chain => and_congr_right fun leads => ?_
    rw [paths leads]
    simp
  | true =>
    cases located : tree.locate (assemble .root names) with
    | error error =>
      have none : candidates tree (assemble .root names) extensions true = [] := by
        simp [candidates, located]
      rw [none]
      refine iff_of_false List.not_mem_nil ?_
      rintro ⟨chain, ⟨-, ⟨reached, content, found, -⟩, -, -⟩, -⟩
      rw [located] at found
      contradiction
    | ok reached =>
      obtain rfl : names = reached := ((Tree.locate_assemble_iff named).1 located).1.symm
      rw [mem_candidates_respecting_iff located]
      refine exists_congr fun chain => and_congr_right fun leads => ?_
      rw [paths leads]
      simp

/-- A candidate elsewhere stays one if the ignore files that are respected say the same. -/
theorem mem_candidates_elsewhere {file : Path} (same : tree.SameElsewhere other place)
    (named : ∀ name ∈ names, NamesEntry name) (elsewhere : file.placeNames ≠ place)
    (respected : respectIgnore = true →
      ¬ IsIgnoreFile place ∧ LinksKept tree other names ∧ globalRules tree = globalRules other)
    (mem : file ∈ candidates tree (assemble .root names) extensions respectIgnore) :
    file ∈ candidates other (assemble .root names) extensions respectIgnore := by
  obtain ⟨chain, leads, kept, rfl⟩ := (mem_candidates_assemble_iff named).1 mem
  have namedAll := leads.namesEntry named
  rw [Path.placeNames_assemble namedAll] at elsewhere
  refine (mem_candidates_assemble_iff named).2
    ⟨chain, leads.elsewhere same named elsewhere, fun respects => ?_, rfl⟩
  obtain ⟨noIgnoreFile, links, general⟩ := respected respects
  refine (isKept_congr fun dir before => ?_).1 (kept respects)
  have comparable : dir <+: names ∨ names <+: dir :=
    List.prefix_or_prefix_of_prefix before (List.prefix_append names chain)
  exact Ignore.sameRules_of_sameElsewhere same noIgnoreFile
    (fun name mem => namedAll name (before.subset mem)) (links dir comparable) general

/-- The candidates elsewhere are the same, in the same order. -/
theorem filter_candidates_elsewhere (same : tree.SameElsewhere other place)
    (named : ∀ name ∈ names, NamesEntry name)
    (respected : respectIgnore = true →
      ¬ IsIgnoreFile place ∧ LinksKept tree other names ∧ globalRules tree = globalRules other) :
    (candidates other (assemble .root names) extensions respectIgnore).filter
        (·.placeNames ≠ place) =
      (candidates tree (assemble .root names) extensions respectIgnore).filter
        (·.placeNames ≠ place) := by
  have respectedBack : respectIgnore = true →
      ¬ IsIgnoreFile place ∧ LinksKept other tree names ∧ globalRules other = globalRules tree :=
    fun respects => (respected respects).imp_right fun kept => ⟨kept.1.symm, kept.2.symm⟩
  have ordered (tree : Tree) :
      ((candidates tree (assemble .root names) extensions respectIgnore).filter
        (·.placeNames ≠ place)).Pairwise fun left right => compare left right = .lt :=
    (candidates_ordered ..).filter _
  refine Path.eq_of_ordered (ordered other) (ordered tree) ?_
  intro file
  simp only [List.mem_filter, decide_eq_true_eq]
  refine and_congr_left fun elsewhere => ⟨?_, ?_⟩
  · exact mem_candidates_elsewhere same.symm named elsewhere respectedBack
  · exact mem_candidates_elsewhere same named elsewhere respected

/-- What is found in a file elsewhere is the same. -/
theorem usagesOfFile_elsewhere (same : tree.SameElsewhere other place) (finder : Finder)
    (options : ScanOptions) (named : ∀ name ∈ names, NamesEntry name) (elsewhere : names ≠ place) :
    usagesOfFile other finder options (assemble .root names) =
      usagesOfFile tree finder options (assemble .root names) := by
  by_cases there : ∃ content, tree.find (assemble .root names) = .ok (.file content)
  · obtain ⟨content, found⟩ := there
    have stays := (same.find_file_iff named elsewhere).2 found
    exact usagesOfFile_congr (by rw [Tree.readText, Tree.readText, found, stays])
  · have skipped : IsSkipped tree finder options (assemble .root names) :=
      .inr fun content reads => there ⟨content, reads.found⟩
    have skippedOther : IsSkipped other finder options (assemble .root names) :=
      .inr fun content reads =>
        there ⟨content, (same.find_file_iff named elsewhere).1 reads.found⟩
    rw [usagesOfFile_of_isSkipped skipped, usagesOfFile_of_isSkipped skippedOther]

/-- The content with a text. -/
def contentOf (text : String) : Content := ⟨(Text.Utf8.encode text.toList).toArray⟩

/-- A page that shows an image. -/
def shownImage : Content := contentOf "<img src=\"/images/a.png\">\n"

/-- The finder for the image, below a root with some spelling. -/
def imageFinder (root : String) : Finder :=
  .new .image (.conventional (.ofString root)) (.ofString "public/images/a.png")

/-- Where git's global ignore file is looked for. -/
def globalIgnoreFile : Path := .ofString "/home/.config/git/ignore"

/-- A tree without any file, where git looks for that file. -/
def treeUnderGit : Tree :=
  { Tree.empty with
    workingDir := some (.ofString "/p")
    globalIgnore := fun _ => some globalIgnoreFile }

/-- A page below the working directory. -/
def treeWithPage : Tree := treeUnderGit.write (.ofString "/p/page.html") shownImage

/-- Nothing is linked beside the page. -/
theorem not_isLinked_treeWithPage (dir : List Segment) : ¬ IsLinked treeWithPage dir := by
  have place : (Path.ofString "/p/page.html").placeNames =
      [] ++ "p".toList :: ["page.html".toList] := by decide +kernel
  have fresh : treeUnderGit.Edits (.ofString "/p/page.html") treeWithPage :=
    .write_new shownImage place rfl rfl
  rw [Ignore.isLinked_iff fresh.sameElsewhere (by decide +kernel)]
  rintro ⟨other, found⟩
  cases dir <;> contradiction

/-- Writing a global ignore file is an edit of one file. -/
theorem edits_globalIgnore (rules : Content) :
    treeWithPage.Edits globalIgnoreFile (treeWithPage.write globalIgnoreFile rules) := by
  have place : globalIgnoreFile.placeNames =
      [] ++ "home".toList :: [".config", "git", "ignore"].map String.toList := by decide +kernel
  have entered : treeWithPage.entryAt? [] = some (.directory treeWithPage.root) := rfl
  exact .write_new rules place entered (by decide +kernel)

/-- A page in a directory, and beside that a repository whose exclude file knows the page. -/
def treeBesideRepository : Tree :=
  ((Tree.empty.write (.ofString "/p/m/.git/info/exclude") (contentOf "page.html\n")).write
    (.ofString "/p/m/.git/worktrees/w/commondir") (contentOf "../..\n")).write
    (.ofString "/p/w/page.html") shownImage

/-- A file that makes a directory a worktree of the repository. -/
def worktreeLink : Content := contentOf "gitdir: /p/m/.git/worktrees/w\n"

/-- A page below the directory that `x/../q` means, as soon as there is an `x`. -/
def treeWithoutDetour : Tree := Tree.empty.write (.ofString "/p/q/page.html") shownImage

/-- Linking a directory is an edit of one file. -/
theorem edits_worktreeLink :
    treeBesideRepository.Edits (.ofString "/p/w/.git")
      (treeBesideRepository.write (.ofString "/p/w/.git") worktreeLink) := by
  have place : (Path.ofString "/p/w/.git").placeNames =
      ["p".toList, "w".toList] ++ ".git".toList :: [] := by decide +kernel
  have entered : treeBesideRepository.entryAt? ["p".toList, "w".toList] =
      some (.directory (.file "page.html".toList shownImage .nil)) := rfl
  exact .write_new worktreeLink place entered (by decide +kernel)

/-- Making the directory is an edit of one file in it. -/
theorem edits_detour :
    treeWithoutDetour.Edits (.ofString "/p/x/note")
      (treeWithoutDetour.write (.ofString "/p/x/note") shownImage) := by
  have place : (Path.ofString "/p/x/note").placeNames =
      ["p".toList] ++ "x".toList :: ["note".toList] := by decide +kernel
  have entered : treeWithoutDetour.entryAt? ["p".toList] = some (.directory
      (.directory "q".toList (.file "page.html".toList shownImage .nil) .nil)) := rfl
  exact .write_new shownImage place entered (by decide +kernel)

end AssetUsage.Scan
