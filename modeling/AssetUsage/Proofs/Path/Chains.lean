import AssetUsage.Path.Name
import AssetUsage.Proofs.Path.Canonical
import AssetUsage.Proofs.Text.Runs

/-!
# Chains of names

A canonical path is a chain of names from the root. What is left of it behind a canonical directory
are the names behind that directory (`stripPrefix?_assemble`), and without its extensions its last
name is cut at the first dot (`withoutExtensions_assemble`).
-/

namespace AssetUsage.Path

/-- As many segments are left out as are asked for, if all of them are significant. -/
theorem dropSignificant_append {front rest : List Segment}
    (significant : ∀ segment ∈ front ++ rest, isSignificant segment = true) :
    dropSignificant front.length (front ++ rest) = rest := by
  induction front with
  | nil =>
    cases rest with
    | nil => rfl
    | cons first others =>
      exact List.dropWhile_cons_of_neg (by simp [significant first (by simp)])
  | cons first others ih =>
    rw [List.length_cons, dropSignificant, List.cons_append,
      List.dropWhile_cons_of_neg (by simp [significant first (by simp)]), List.tail_cons]
    exact ih fun segment mem => significant segment (List.mem_cons_of_mem _ mem)

/-- The body of a chain of names from the root are the names. -/
theorem body_assemble {names : List Segment} (nonempty : names ≠ [])
    (named : ∀ name ∈ names, NamesEntry name) : (assemble .root names).body = names := by
  have chain : (['/'].intercalate names).splitOn '/' = names :=
    List.splitOn_intercalate '/' (fun name mem => (named name mem).2.2) nonempty
  rw [body, start_assemble_root, segments_assemble_root, chain]
  rfl

/-- What is left behind a base depends on its components alone. -/
theorem stripPrefix?_congr (path : Path) {base other : Path} (same : base.SamePath other) :
    path.stripPrefix? base = path.stripPrefix? other := by
  have components : base.components = other.components := same
  simp only [stripPrefix?, startsWith, components]

/-- Behind a chain of names the further names of a path are left, if there are any. -/
theorem stripPrefix?_assemble {front names : List Segment}
    (named : ∀ name ∈ front ++ names, NamesEntry name) :
    (assemble .root (front ++ names)).stripPrefix? (assemble .root front) =
      some ⟨['/'].intercalate names⟩ := by
  by_cases nonempty : front ++ names = []
  · obtain ⟨rfl, rfl⟩ := List.append_eq_nil_iff.1 nonempty
    rfl
  · obtain ⟨namedFront, namedRest⟩ := List.forall_mem_append.1 named
    have below : (assemble .root (front ++ names)).startsWith (assemble .root front) = true := by
      rw [startsWith, components_assemble_names named, components_assemble_names namedFront,
        List.map_append]
      exact List.isPrefixOf_iff_prefix.2
        (List.prefix_append (Component.root :: front.map Component.name) _)
    have depth : (assemble .root front).components.length = front.length + 1 := by
      rw [components_assemble_names namedFront, List.length_cons, List.length_map]
    have left : dropSignificant front.length (front ++ names) = names :=
      dropSignificant_append fun name mem => (named name mem).1
    have kept : dropTrailing names = names :=
      dropTrailing_eq_self fun name mem => (namedRest name mem).1
    rw [stripPrefix?, if_pos below, depth, start_assemble_root, body_assemble nonempty named]
    simp only [Nat.add_one_ne_zero, if_false, Start.components, List.length_singleton,
      Nat.add_sub_cancel, left, kept]
    rfl

/-- Names behind a canonical directory are what is left behind it. -/
theorem stripPrefix?_join {dir : Path} {names : List Segment} (canonical : dir.IsCanonical)
    (nonempty : names ≠ []) (named : ∀ name ∈ names, NamesEntry name) :
    (dir.join ⟨['/'].intercalate names⟩).stripPrefix? dir = some ⟨['/'].intercalate names⟩ := by
  obtain ⟨front, namedFront, rfl⟩ := canonical.exists_names
  rw [join_assemble namedFront nonempty named]
  exact stripPrefix?_assemble (List.forall_mem_append.2 ⟨namedFront, named⟩)

/-- Without backslashes a path is shown as it is. -/
theorem shown_of_plain {path : Path} (plain : '\\' ∉ path.text) : path.shown = path.text := by
  have same : path.text.map (fun c => if c = '\\' then '/' else c) = path.text.map id := by
    refine List.map_congr_left fun c mem => if_neg ?_
    rintro rfl
    exact plain mem
  rw [shown, same, List.map_id]

/-- Without its extensions, a name behind a chain of names is left up to its first dot. -/
theorem withoutExtensions_assemble {names : List Segment} {last ending : List Char}
    (named : ∀ name ∈ names ++ [last ++ ending], NamesEntry name) (namedLast : NamesEntry last)
    (stem : '.' ∉ last) (extensions : ending = [] ∨ ending.head? = some '.') :
    (assemble .root (names ++ [last ++ ending])).withoutExtensions =
      assemble .root (names ++ [last]) := by
  have namedFront : ∀ name ∈ names, NamesEntry name := (List.forall_mem_append.1 named).1
  have fileName : (assemble .root (names ++ [last ++ ending])).fileName? =
      some (last ++ ending) := by
    rw [fileName?, components_assemble_names named, List.map_append, ← List.cons_append,
      List.map_singleton, List.getLast?_concat]
  have visible : (last ++ ending).head? ≠ some '.' := by
    obtain ⟨first, others, rfl⟩ := List.exists_cons_of_ne_nil
      (fun empty : last = [] => absurd (empty ▸ namedLast).1 (by decide))
    rw [List.cons_append, List.head?_cons]
    exact fun dot => stem (Option.some.inj dot ▸ List.mem_cons_self)
  have stops : Text.StopsAt (· != '.') ending := by
    rintro c rest rfl
    obtain same | same := extensions
    · contradiction
    · simpa using same
  have inside : ∀ c ∈ last, (c != '.') = true := by
    intro c mem
    simpa using fun dot : c = '.' => stem (dot ▸ mem)
  have cut : stemOfName (last ++ ending) = last := by
    rw [stemOfName, if_neg visible, Text.takeWhile_run inside stops]
  rw [withoutExtensions, parent?_assemble named, Path.stem, fileName, Option.getD_some, cut]
  exact join_assemble_name namedFront namedLast

end AssetUsage.Path
