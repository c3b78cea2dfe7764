import AssetUsage.Proofs.Scan.CandidateFiles

/-!
# Candidates that ignore files keep

With ignore files respected, a candidate is one of those without them that nothing on its way is
ignored for: neither the file nor a directory that leads to it below the root, each judged by the
ignore files of the directories above it (`mem_candidates_respecting_iff`). What they say is decided
by their rules (`isKept_congr`).
-/

namespace AssetUsage

namespace Ignore

/-- The directories whose ignore files hold in a directory: itself and those above it, the nearest
first. -/
def dirsAt (names : List Segment) : List (List Segment) :=
  names :: (List.range names.length).reverse.map names.take

/-- They all are on the way to the directory. -/
theorem prefix_of_mem_dirsAt {names dir : List Segment} (mem : dir ∈ dirsAt names) :
    dir <+: names := by
  rcases List.mem_cons.1 mem with rfl | mem
  · exact List.prefix_rfl
  · obtain ⟨depth, -, rfl⟩ := List.mem_map.1 mem
    exact List.take_prefix depth names

/-- The levels that hold in a directory are those of these directories. -/
theorem levelsAt_eq_map (tree : Tree) (names : List Segment) :
    levelsAt tree names = (dirsAt names).map (Level.of tree) := by
  rw [levelsAt, levelsAbove, dirsAt, List.map_cons, List.map_map]
  rfl

/-- One name further down, that directory is added. -/
theorem dirsAt_concat (names : List Segment) (name : Segment) :
    dirsAt (names ++ [name]) = (names ++ [name]) :: dirsAt names := by
  have shorter : ∀ depth ∈ (List.range names.length).reverse,
      (names ++ [name]).take depth = names.take depth := by
    intro depth mem
    have short := List.mem_range.1 (List.mem_reverse.1 mem)
    exact List.take_append_of_le_length (Nat.le_of_lt short)
  rw [dirsAt, dirsAt, List.length_append, List.length_singleton, List.range_succ,
    List.reverse_append, List.reverse_singleton, List.singleton_append, List.map_cons,
    List.take_left, List.map_congr_left shorter]

/-- One name further down, the ignore files there hold besides. -/
theorem levelsAt_concat (tree : Tree) (names : List Segment) (name : Segment) :
    levelsAt tree (names ++ [name]) =
      Level.of tree (names ++ [name]) :: levelsAt tree names := by
  rw [levelsAt_eq_map, dirsAt_concat, List.map_cons, ← levelsAt_eq_map]

/-- The ignore files that hold in a directory have the same rules in two trees. -/
structure SameRules (tree other : Tree) (dir : List Segment) : Prop where
  own : (Level.of tree dir).own = (Level.of other dir).own
  shared : (Level.of tree dir).shared = (Level.of other dir).shared
  excluded : (Level.of tree dir).excluded = (Level.of other dir).excluded
  general : globalRules tree = globalRules other

/-- What the ignore files of directories say is decided by their rules. -/
theorem verdictOf_congr {rules : Level → List Rule} {tree other : Tree}
    {dirs : List (List Segment)}
    (same : ∀ dir ∈ dirs, rules (Level.of tree dir) = rules (Level.of other dir))
    (path : List Segment) (directory : Bool) :
    verdictOf rules (dirs.map (Level.of tree)) path directory =
      verdictOf rules (dirs.map (Level.of other)) path directory := by
  induction dirs with
  | nil => rfl
  | cons first others ih =>
    obtain ⟨sameFirst, sameOthers⟩ := List.forall_mem_cons.1 same
    have depth : (Level.of tree first).depth = (Level.of other first).depth := rfl
    have later := ih sameOthers
    rw [verdictOf, verdictOf] at later ⊢
    rw [List.map_cons, List.map_cons, List.findSome?_cons, List.findSome?_cons, sameFirst, depth,
      later]

/-- What is ignored in a directory is decided by the rules of the directories on the way to it. -/
theorem isIgnored_levelsAt_congr {tree other : Tree} {names : List Segment}
    (same : ∀ dir, dir <+: names → SameRules tree other dir) (path : List Segment)
    (directory : Bool) :
    isIgnored (levelsAt tree names) path directory =
      isIgnored (levelsAt other names) path directory := by
  have onWay : ∀ dir ∈ dirsAt names, SameRules tree other dir := fun dir mem =>
    same dir (prefix_of_mem_dirsAt mem)
  have general : (levelsAt tree names).head?.map Level.general =
      (levelsAt other names).head?.map Level.general :=
    congrArg some (same names List.prefix_rfl).general
  have byHead (levels : List Level) :
      (levels.head?.bind fun level => level.general.verdict? path directory) =
        (levels.head?.map Level.general).bind (·.verdict? path directory) := by
    rw [Option.bind_map]
    rfl
  rw [isIgnored, isIgnored, byHead, byHead, general, levelsAt_eq_map, levelsAt_eq_map,
    verdictOf_congr fun dir mem => (onWay dir mem).own,
    verdictOf_congr fun dir mem => (onWay dir mem).shared,
    verdictOf_congr fun dir mem => (onWay dir mem).excluded]

end Ignore

namespace Scan

open Ignore

variable {tree : Tree} {extensions : List (List Char)}

/-- From a directory, nothing on the way along a chain of names is ignored: all but the last name
are those of directories. -/
def IsKept (tree : Tree) : List Segment → List Segment → Prop
  | _, [] => True
  | names, name :: more =>
    isIgnored (levelsAt tree names) (names ++ [name]) (!more.isEmpty) = false ∧
      IsKept tree (names ++ [name]) more

/-- The last name is that of a file. -/
theorem isKept_singleton {names : List Segment} {name : Segment} :
    IsKept tree names [name] ↔ isIgnored (levelsAt tree names) (names ++ [name]) false = false :=
  and_iff_left trivial

/-- A name in front of others is that of a directory. -/
theorem isKept_cons {names more : List Segment} {name : Segment} (others : more ≠ []) :
    IsKept tree names (name :: more) ↔
      isIgnored (levelsAt tree names) (names ++ [name]) true = false ∧
        IsKept tree (names ++ [name]) more := by
  rw [IsKept, List.isEmpty_eq_false_iff.2 others, Bool.not_false]

/-- Which candidates are kept is decided by the rules of the directories on the way to them. -/
theorem isKept_congr {other : Tree} {names chain : List Segment}
    (same : ∀ dir, dir <+: names ++ chain → SameRules tree other dir) :
    IsKept tree names chain ↔ IsKept other names chain := by
  induction chain generalizing names with
  | nil => exact Iff.rfl
  | cons name more ih =>
    have whole : names ++ name :: more = names ++ [name] ++ more := by simp
    have above : ∀ dir, dir <+: names → SameRules tree other dir := fun dir before =>
      same dir (before.trans (List.prefix_append names _))
    rw [IsKept, IsKept, isIgnored_levelsAt_congr above, ih (whole ▸ same)]

/-- With ignore files respected, a walk finds those chains that are kept. -/
theorem mem_walk_respecting_iff {names found : List Segment} {listing : Listing}
    (wellFormed : listing.WellFormed) :
    found ∈ walk tree extensions true names (levelsAt tree names) listing ↔
      ∃ chain, found = names ++ chain ∧ IsFoundIn extensions listing chain ∧
        IsKept tree names chain := by
  induction listing generalizing names with
  | nil =>
    refine iff_of_false List.not_mem_nil ?_
    rintro ⟨chain, -, found, -⟩
    exact not_isFoundIn_nil found
  | file name content rest ih =>
    obtain ⟨-, above, restWellFormed⟩ := wellFormed
    have chosen : (hasExtension extensions name &&
        !isIgnored (levelsAt tree names) (names ++ [name]) false) = true ↔
          hasExtension extensions name = true ∧ IsKept tree names [name] := by
      rw [Bool.and_eq_true, Bool.not_eq_true', isKept_singleton]
    simp only [walk, isFoundIn_file_iff above]
    split
    · next own =>
      have own := chosen.1 own
      rw [List.mem_cons, ih restWellFormed]
      constructor
      · rintro (rfl | ⟨chain, rfl, found, kept⟩)
        · exact ⟨[name], rfl, .inl ⟨rfl, own.1⟩, own.2⟩
        · exact ⟨chain, rfl, .inr found, kept⟩
      · rintro ⟨chain, rfl, ⟨rfl, -⟩ | found, kept⟩
        · exact .inl rfl
        · exact .inr ⟨chain, rfl, found, kept⟩
    · next left =>
      rw [ih restWellFormed]
      constructor
      · rintro ⟨chain, rfl, found, kept⟩
        exact ⟨chain, rfl, .inr found, kept⟩
      · rintro ⟨chain, rfl, ⟨rfl, extended⟩ | found, kept⟩
        · exact absurd (chosen.2 ⟨extended, kept⟩) left
        · exact ⟨chain, rfl, found, kept⟩
  | directory name inner rest innerIh restIh =>
    obtain ⟨-, above, innerWellFormed, restWellFormed⟩ := wellFormed
    simp only [walk, ↓reduceIte, Bool.or_eq_true, List.contains_iff_mem, ← levelsAt_concat,
      isFoundIn_directory_iff above]
    split
    · next left =>
      rw [restIh restWellFormed]
      constructor
      · rintro ⟨chain, rfl, found, kept⟩
        exact ⟨chain, rfl, .inr found, kept⟩
      · rintro ⟨chain, rfl, ⟨more, rfl, visible, found⟩ | found, kept⟩
        · have entered := ((isKept_cons found.ne_nil).1 kept).1
          exact absurd left (by simp [visible, entered])
        · exact ⟨chain, rfl, found, kept⟩
    · next entered =>
      obtain ⟨visible, entered⟩ := not_or.1 entered
      have entered := Bool.eq_false_iff.2 entered
      rw [List.mem_append, innerIh innerWellFormed, restIh restWellFormed]
      constructor
      · rintro (⟨more, rfl, found, kept⟩ | ⟨chain, rfl, found, kept⟩)
        · exact ⟨name :: more, by simp, .inl ⟨more, rfl, visible, found⟩,
            (isKept_cons found.ne_nil).2 ⟨entered, kept⟩⟩
        · exact ⟨chain, rfl, .inr found, kept⟩
      · rintro ⟨chain, rfl, ⟨more, rfl, -, found⟩ | found, kept⟩
        · exact .inl ⟨more, by simp, found, ((isKept_cons found.ne_nil).1 kept).2⟩
        · exact .inr ⟨chain, rfl, found, kept⟩

/-- With ignore files respected, the candidates are the paths of those chains that are kept. -/
theorem mem_candidates_respecting_iff {root file : Path} {names : List Segment}
    (located : tree.locate root = .ok names) :
    file ∈ candidates tree root extensions true ↔
      ∃ chain, IsCandidate tree root extensions chain ∧ IsKept tree names chain ∧
        file = root.join ⟨['/'].intercalate chain⟩ := by
  unfold candidates
  simp only [located]
  split
  · next listing entered =>
    have wellFormed : listing.WellFormed := Tree.wellFormed_of_entryAt? entered
    simp only [↓reduceIte, List.mem_map, mem_walk_respecting_iff wellFormed,
      isCandidate_iff located entered]
    constructor
    · rintro ⟨found, ⟨chain, rfl, leads, kept⟩, rfl⟩
      exact ⟨chain, leads, kept, by rw [List.drop_left]⟩
    · rintro ⟨chain, leads, kept, rfl⟩
      exact ⟨names ++ chain, ⟨chain, rfl, leads, kept⟩, by rw [List.drop_left]⟩
  · next noDirectory =>
    refine iff_of_false List.not_mem_nil ?_
    rintro ⟨chain, leads, -, -⟩
    obtain ⟨listing, entered⟩ := leads.root_directory located
    exact noDirectory listing entered

end Scan

end AssetUsage
