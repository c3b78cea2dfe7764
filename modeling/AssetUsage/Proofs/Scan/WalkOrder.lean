import AssetUsage.Proofs.Path.Joined
import AssetUsage.Proofs.Path.Order
import AssetUsage.Proofs.Sequences
import AssetUsage.Scan.Candidates

/-!
# The order of a walk

A walk goes through each directory by name and into every directory where it stands. Its candidates
come out in the order of paths, component by component: two candidates part at some directory, from
there the one goes on with an earlier name than the other, and what follows does not matter. Main
statement: `candidates_ordered`, by induction on the listing (`walk_ordered`).
-/

namespace AssetUsage.Scan

open AssetUsage.Path (Component NamesEntry)

/-- The chain goes on behind `names` with an entry of the listing, by names that can stand in
directories. -/
def LiesIn (names : List Segment) (listing : Listing) (found : List Segment) : Prop :=
  ∃ first others, found = names ++ first :: others ∧ first ∈ listing.names ∧
    ∀ name ∈ first :: others, NamesEntry name

/-- What lies in a part of a directory lies in the directory. -/
theorem LiesIn.mono {names found : List Segment} {part listing : Listing}
    (entries : ∀ name ∈ part.names, name ∈ listing.names) (h : LiesIn names part found) :
    LiesIn names listing found := by
  obtain ⟨first, others, same, entry, named⟩ := h
  exact ⟨first, others, same, entries first entry, named⟩

/-- What lies in a directory lies in every directory that has it as an entry. -/
theorem LiesIn.enter {names found : List Segment} {name : Segment} {inner listing : Listing}
    (named : NamesEntry name) (entry : name ∈ listing.names)
    (h : LiesIn (names ++ [name]) inner found) : LiesIn names listing found := by
  obtain ⟨first, others, rfl, -, namedOthers⟩ := h
  refine ⟨name, first :: others, by simp, entry, ?_⟩
  intro segment mem
  rcases List.mem_cons.1 mem with rfl | mem
  · exact named
  · exact namedOthers segment mem

variable {tree : Tree} {extensions : List (List Char)} {respectIgnore : Bool}

/-- Every candidate in a directory lies in its listing. -/
theorem liesIn_of_mem_walk {names found : List Segment} {levels : List Ignore.Level}
    {listing : Listing} (wellFormed : listing.WellFormed)
    (h : found ∈ walk tree extensions respectIgnore names levels listing) :
    LiesIn names listing found := by
  induction listing generalizing names levels with
  | nil => simp [walk] at h
  | file name content rest ih =>
    obtain ⟨named, -, restWellFormed⟩ := wellFormed
    have later (mem : found ∈ walk tree extensions respectIgnore names levels rest) :
        LiesIn names (.file name content rest) found :=
      (ih restWellFormed mem).mono fun _ => List.mem_cons_of_mem _
    simp only [walk] at h
    split at h
    · rcases List.mem_cons.1 h with rfl | h
      · exact ⟨name, [], rfl, List.mem_cons_self, by simpa using named⟩
      · exact later h
    · exact later h
  | directory name inner rest innerIh restIh =>
    obtain ⟨named, -, innerWellFormed, restWellFormed⟩ := wellFormed
    have later (mem : found ∈ walk tree extensions respectIgnore names levels rest) :
        LiesIn names (.directory name inner rest) found :=
      (restIh restWellFormed mem).mono fun _ => List.mem_cons_of_mem _
    simp only [walk] at h
    split at h
    · exact later h
    · rcases List.mem_append.1 h with h | h
      · exact (innerIh innerWellFormed h).enter named List.mem_cons_self
      · exact later h

/-- What lies behind one entry of a directory comes before all that lies behind later entries. -/
theorem walk_after {names rest : List Segment} {name : Segment} {levels : List Ignore.Level}
    {listing : Listing} (wellFormed : listing.WellFormed) (above : Listing.Above name listing) :
    ∀ found ∈ walk tree extensions respectIgnore names levels listing,
      compare (names ++ name :: rest) found = .lt := by
  intro found mem
  obtain ⟨first, others, rfl, entry, -⟩ := liesIn_of_mem_walk wellFormed mem
  rw [Sequence.compare_append_left]
  exact Sequence.compare_cons_of_lt _ _ (above first entry)

/-- The candidates in a directory are found in the order of their chains of names. -/
theorem walk_ordered {names : List Segment} {levels : List Ignore.Level} {listing : Listing}
    (wellFormed : listing.WellFormed) :
    (walk tree extensions respectIgnore names levels listing).Pairwise
      fun left right => compare left right = .lt := by
  induction listing generalizing names levels with
  | nil => exact List.Pairwise.nil
  | file name content rest ih =>
    obtain ⟨-, above, restWellFormed⟩ := wellFormed
    simp only [walk]
    split
    · exact List.pairwise_cons.2 ⟨walk_after restWellFormed above, ih restWellFormed⟩
    · exact ih restWellFormed
  | directory name inner rest innerIh restIh =>
    obtain ⟨-, above, innerWellFormed, restWellFormed⟩ := wellFormed
    simp only [walk]
    split
    · exact restIh restWellFormed
    · refine List.pairwise_append.2 ⟨innerIh innerWellFormed, restIh restWellFormed, ?_⟩
      intro left leftMem right rightMem
      obtain ⟨first, others, rfl, -, -⟩ := liesIn_of_mem_walk innerWellFormed leftMem
      rw [List.append_assoc]
      exact walk_after restWellFormed above right rightMem

/-- The path below a root of a chain of names, of which the first `depth` lead to the root. -/
def pathBelow (root : Path) (depth : Nat) (found : List Segment) : Path :=
  root.join ⟨['/'].intercalate (found.drop depth)⟩

/-- The components of the path of what lies in the directory at a root. -/
theorem components_pathBelow {root : Path} {names found : List Segment} {listing : Listing}
    (nonempty : root.text ≠ []) (h : LiesIn names listing found) :
    (pathBelow root names.length found).components =
      root.components ++ (found.drop names.length).map Component.name := by
  obtain ⟨first, others, rfl, -, named⟩ := h
  rw [pathBelow, List.drop_left, Path.components_join_names nonempty (List.cons_ne_nil _ _) named]

/-- Paths below a root are in the order of the chains of names. -/
theorem compare_pathBelow {root : Path} {names left right : List Segment} {listing : Listing}
    (nonempty : root.text ≠ []) (leftIn : LiesIn names listing left)
    (rightIn : LiesIn names listing right) :
    compare (pathBelow root names.length left) (pathBelow root names.length right) =
      compare left right := by
  change compare (pathBelow root names.length left).components
    (pathBelow root names.length right).components = compare left right
  rw [components_pathBelow nonempty leftIn, components_pathBelow nonempty rightIn,
    Sequence.compare_append_left, Path.compare_map_name]
  obtain ⟨first, others, rfl, -, -⟩ := leftIn
  obtain ⟨second, more, rfl, -, -⟩ := rightIn
  rw [List.drop_left, List.drop_left, Sequence.compare_append_left]

/-- The candidates below a root are in the order of paths. -/
theorem candidates_ordered (tree : Tree) (root : Path) (extensions : List (List Char))
    (respectIgnore : Bool) :
    (candidates tree root extensions respectIgnore).Pairwise
      fun left right => compare left right = .lt := by
  unfold candidates
  split
  · exact List.Pairwise.nil
  · next names located =>
    split
    · next listing found =>
      have nonempty := Tree.text_ne_nil_of_locate located
      have wellFormed : listing.WellFormed := Tree.wellFormed_of_entryAt? found
      refine List.pairwise_map.2 ((walk_ordered wellFormed).imp_of_mem ?_)
      intro left right leftMem rightMem ordered
      have same := compare_pathBelow nonempty (liesIn_of_mem_walk wellFormed leftMem)
        (liesIn_of_mem_walk wellFormed rightMem)
      exact same.trans ordered
    · exact List.Pairwise.nil

end AssetUsage.Scan
