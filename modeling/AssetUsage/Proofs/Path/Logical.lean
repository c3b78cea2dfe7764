import AssetUsage.Proofs.Path.Below
import AssetUsage.Proofs.Path.Canonical
import Mathlib.Data.List.Basic

/-!
# What a logical path names

A logical path names the paths that continue its text with `.`. Among canonical paths these are the
logical path itself, the ones next to it whose file names continue its own (`Extends`), and all that
lie below a directory of such a name (`namedBy_iff`): behind the extensions of a name the text may
go on into a directory.
-/

namespace AssetUsage.Path

/-- The path goes on behind the last name of the logical one with `.`: it stands in the same
directory and has a longer name. An entry of the root goes on behind the root itself. -/
inductive Extends (logical path : Path) : Prop where
  | sibling {dir : Path} {stem extensions : Segment} (dirLogical : logical.parent? = some dir)
    (nameLogical : logical.fileName? = some stem) (dirPath : path.parent? = some dir)
    (namePath : path.fileName? = some (stem ++ '.' :: extensions))
  | entry {extensions : Segment} (root : logical.parent? = none)
    (dirPath : path.parent? = some logical) (namePath : path.fileName? = some ('.' :: extensions))

/-- The path lies below the directory, at any depth. -/
def LiesBelow (path dir : Path) : Prop := path ≠ dir ∧ path.startsWith dir = true

/-- The files of a logical path: the path itself, those next to it whose names continue its own with
`.`, and those below a directory with such a name. -/
def LogicallyNames (logical path : Path) : Prop :=
  path = logical ∨ Extends logical path ∨
    ∃ dir : Path, dir.IsCanonical ∧ Extends logical dir ∧ path.LiesBelow dir

/-- A chain starts with `.` or is empty exactly if its first segment does or is all of it. -/
theorem intercalate_continues_iff {ending : Segment} {more : List Segment} :
    (['/'].intercalate (ending :: more) = [] ∨
        (['/'].intercalate (ending :: more)).head? = some '.') ↔
      (ending = [] ∧ more = [] ∨ ending.head? = some '.') := by
  cases more with
  | nil => simp
  | cons second others =>
    rw [List.intercalate_cons_cons]
    cases ending <;> simp

/-- A path is named by a logical path that its text continues with `.` or not at all. -/
theorem namedBy_eq_true_iff {path logical : Path} :
    path.namedBy logical = true ↔
      ∃ rest, logical.text ++ rest = path.text ∧ (rest = [] ∨ rest.head? = some '.') := by
  unfold namedBy
  constructor
  · intro named
    split at named
    · next rest found =>
      exact ⟨rest, List.isPrefixOf?_eq_some_iff_append_eq.1 found, by simpa using named⟩
    · contradiction
  · rintro ⟨rest, whole, ends⟩
    rw [List.isPrefixOf?_eq_some_iff_append_eq.2 whole]
    simpa using ends

/-- Where a logical path is a chain up to some stem, the chains that it names go on behind the stem
with `.`, in the same name. -/
theorem namedBy_assemble_iff {init names : List Segment} {stem : Segment}
    (namedInit : ∀ name ∈ init, NamesEntry name) (plain : '/' ∉ stem) (nonempty : names ≠ [])
    (named : ∀ name ∈ names, NamesEntry name) :
    (assemble .root names).namedBy (assemble .root (init ++ [stem])) = true ↔
      ∃ ending more, names = init ++ (stem ++ ending) :: more ∧
        (ending = [] ∧ more = [] ∨ ending.head? = some '.') := by
  have text : ∀ segments, (assemble .root segments).text = '/' :: ['/'].intercalate segments :=
    fun _ => rfl
  rw [namedBy_eq_true_iff]
  constructor
  · rintro ⟨rest, whole, ends⟩
    obtain ⟨ending, more, cut⟩ := List.exists_cons_of_ne_nil (List.splitOn_ne_nil '/' rest)
    have inRest : ['/'].intercalate (ending :: more) = rest := by
      rw [← cut]
      exact List.intercalate_splitOn '/'
    have plainRest : ∀ segment ∈ ending :: more, '/' ∉ segment := fun segment mem =>
      @separator_not_mem_of_mem_segments ⟨rest⟩ segment (by rw [segments, cut]; exact mem)
    have plainAll : ∀ segment ∈ init ++ (stem ++ ending) :: more, '/' ∉ segment := by
      obtain ⟨plainEnding, plainMore⟩ := List.forall_mem_cons.1 plainRest
      have plainName : '/' ∉ stem ++ ending := fun mem =>
        (List.mem_append.1 mem).elim plain plainEnding
      exact List.forall_mem_append.2 ⟨fun name mem => (namedInit name mem).2.2,
        List.forall_mem_cons.2 ⟨plainName, plainMore⟩⟩
    have chains :
        ['/'].intercalate (init ++ (stem ++ ending) :: more) = ['/'].intercalate names := by
      rw [text, text, List.cons_append, ← inRest, intercalate_append_cons] at whole
      exact List.tail_eq_of_cons_eq whole
    have same := congrArg (List.splitOn '/') chains
    rw [List.splitOn_intercalate '/' plainAll (by simp),
      List.splitOn_intercalate '/' (fun name mem => (named name mem).2.2) nonempty] at same
    exact ⟨ending, more, same.symm, intercalate_continues_iff.1 (inRest.symm ▸ ends)⟩
  · rintro ⟨ending, more, rfl, ends⟩
    refine ⟨['/'].intercalate (ending :: more), ?_, intercalate_continues_iff.2 ends⟩
    rw [text, text, List.cons_append, intercalate_append_cons]

/-- A canonical path has a parent and a file name exactly if it is the chain of both. -/
theorem IsCanonical.parent?_fileName?_iff {path : Path} {names : List Segment} {name : Segment}
    (canonical : path.IsCanonical) (named : ∀ name ∈ names, NamesEntry name) :
    path.parent? = some (assemble .root names) ∧ path.fileName? = some name ↔
      NamesEntry name ∧ path = assemble .root (names ++ [name]) := by
  constructor
  · rintro ⟨parent, fileName⟩
    rcases canonical.eq_root_or_join with rfl | ⟨base, last, canonicalBase, namedLast, rfl⟩
    · contradiction
    · rw [canonicalBase.parent?_join_name namedLast] at parent
      rw [canonicalBase.fileName?_join_name namedLast] at fileName
      obtain rfl := Option.some.inj parent
      obtain rfl := Option.some.inj fileName
      exact ⟨namedLast, join_assemble_name named namedLast⟩
  · rintro ⟨namedLast, rfl⟩
    rw [← join_assemble_name named namedLast]
    exact ⟨(isCanonical_assemble named).parent?_join_name namedLast,
      (isCanonical_assemble named).fileName?_join_name namedLast⟩

/-- A logical path is a chain up to a stem, which is empty for the root, and what extends it is the
same chain with a longer last name. -/
theorem IsCanonical.exists_stem {logical : Path} (canonical : logical.IsCanonical) :
    ∃ init stem, (∀ name ∈ init, NamesEntry name) ∧ '/' ∉ stem ∧
      logical = assemble .root (init ++ [stem]) ∧
      ∀ dir : Path, dir.IsCanonical → (Extends logical dir ↔
        ∃ extensions, NamesEntry (stem ++ '.' :: extensions) ∧
          dir = assemble .root (init ++ [stem ++ '.' :: extensions])) := by
  obtain ⟨names, named, rfl⟩ := canonical.exists_names
  rcases List.eq_nil_or_concat names with rfl | ⟨init, last, rfl⟩
  · refine ⟨[], [], named, List.not_mem_nil, rfl, fun dir canonicalDir => ?_⟩
    have chain := fun extensions =>
      @canonicalDir.parent?_fileName?_iff _ [] ('.' :: extensions) named
    constructor
    · rintro (⟨parent, -, -, -⟩ | ⟨-, parent, fileName⟩)
      · contradiction
      · exact ⟨_, (chain _).1 ⟨parent, fileName⟩⟩
    · rintro ⟨extensions, found⟩
      obtain ⟨parent, fileName⟩ := (chain extensions).2 found
      exact .entry rfl parent fileName
  · rw [List.concat_eq_append] at named canonical ⊢
    obtain ⟨namedInit, namedLast⟩ := List.forall_mem_append.1 named
    have namedLast := List.forall_mem_singleton.1 namedLast
    obtain ⟨ownParent, ownName⟩ :=
      (canonical.parent?_fileName?_iff namedInit).2 ⟨namedLast, rfl⟩
    refine ⟨init, last, namedInit, namedLast.2.2, rfl, fun dir canonicalDir => ?_⟩
    have chain := fun extensions =>
      @canonicalDir.parent?_fileName?_iff _ init (last ++ '.' :: extensions) namedInit
    constructor
    · rintro (⟨parent, stem, dirParent, dirName⟩ | ⟨root, -, -⟩)
      · obtain rfl := Option.some.inj (ownParent.symm.trans parent)
        obtain rfl := Option.some.inj (ownName.symm.trans stem)
        exact ⟨_, (chain _).1 ⟨dirParent, dirName⟩⟩
      · rw [ownParent] at root
        contradiction
    · rintro ⟨extensions, found⟩
      obtain ⟨parent, fileName⟩ := (chain extensions).2 found
      exact .sibling ownParent ownName parent fileName

/-- Among chains of names, a path starts with those whose names it starts with. -/
theorem startsWith_assemble_iff {names dirNames : List Segment}
    (named : ∀ name ∈ names, NamesEntry name) (namedDir : ∀ name ∈ dirNames, NamesEntry name) :
    (assemble .root names).startsWith (assemble .root dirNames) = true ↔ dirNames <+: names := by
  rw [startsWith, components_assemble_names named, components_assemble_names namedDir,
    List.isPrefixOf_iff_prefix, List.cons_prefix_cons, and_iff_right rfl]
  constructor
  · rintro ⟨rest, whole⟩
    obtain ⟨front, more, rfl, same, -⟩ := List.map_eq_append_iff.1 whole.symm
    have injective : Function.Injective Component.name := fun _ _ => Component.name.inj
    rw [List.map_injective_iff.2 injective same]
    exact List.prefix_append dirNames more
  · rintro ⟨rest, rfl⟩
    rw [List.map_append]
    exact List.prefix_append _ _

/-- A logical path names a canonical one that starts with a path that extends it, and itself. -/
theorem namedBy_iff_startsWith {logical path : Path} (canonical : logical.IsCanonical)
    (canonicalPath : path.IsCanonical) :
    path.namedBy logical = true ↔ path = logical ∨
      ∃ dir : Path, dir.IsCanonical ∧ Extends logical dir ∧ path.startsWith dir = true := by
  obtain ⟨init, stem, namedInit, plain, rfl, extended⟩ := canonical.exists_stem
  obtain ⟨names, named, rfl⟩ := canonicalPath.exists_names
  constructor
  · intro found
    by_cases root : names = []
    · subst root
      obtain ⟨rest, whole, -⟩ := namedBy_eq_true_iff.1 found
      have text : (assemble .root (init ++ [stem])).text ++ rest = ['/'] := whole
      have none : ['/'].intercalate (init ++ [stem]) = [] :=
        (List.append_eq_nil_iff.1 (List.tail_eq_of_cons_eq text)).1
      exact .inl (by rw [assemble, assemble, none]; rfl)
    · obtain ⟨ending, more, rfl, ⟨rfl, rfl⟩ | dot⟩ :=
        (namedBy_assemble_iff namedInit plain root named).1 found
      · exact .inl (by rw [List.append_nil])
      · obtain ⟨extensions, rfl⟩ := List.head?_eq_some_iff.1 dot
        have namedLast := named (stem ++ '.' :: extensions) (by simp)
        have namedFront := List.forall_mem_append.2
          ⟨namedInit, List.forall_mem_singleton.2 namedLast⟩
        refine .inr ⟨assemble .root (init ++ [stem ++ '.' :: extensions]),
          isCanonical_assemble namedFront, ?_, ?_⟩
        · exact (extended _ (isCanonical_assemble namedFront)).2
            ⟨extensions, namedLast, rfl⟩
        · exact (startsWith_assemble_iff named namedFront).2 ⟨more, by simp⟩
  · rintro (same | ⟨dir, canonicalDir, extendsStem, starts⟩)
    · rw [same]
      exact namedBy_eq_true_iff.2 ⟨[], List.append_nil _, .inl rfl⟩
    · obtain ⟨extensions, namedLast, rfl⟩ := (extended dir canonicalDir).1 extendsStem
      have namedDir := List.forall_mem_append.2
        ⟨namedInit, List.forall_mem_singleton.2 namedLast⟩
      obtain ⟨more, rfl⟩ := (startsWith_assemble_iff named namedDir).1 starts
      exact (namedBy_assemble_iff namedInit plain (by simp) named).2
        ⟨'.' :: extensions, more, by simp, .inr rfl⟩

/-- A canonical logical path names itself, the canonical paths next to it whose names continue its
own with `.`, and what lies below such a path. -/
theorem namedBy_iff {logical path : Path} (canonical : logical.IsCanonical)
    (canonicalPath : path.IsCanonical) :
    path.namedBy logical = true ↔ LogicallyNames logical path := by
  rw [namedBy_iff_startsWith canonical canonicalPath, LogicallyNames]
  refine or_congr_right ⟨?_, ?_⟩
  · rintro ⟨dir, canonicalDir, extended, starts⟩
    by_cases same : path = dir
    · exact .inl (same ▸ extended)
    · exact .inr ⟨dir, canonicalDir, extended, same, starts⟩
  · rintro (extended | ⟨dir, canonicalDir, extended, -, starts⟩)
    · exact ⟨path, canonicalPath, extended, List.isPrefixOf_iff_prefix.2 (List.prefix_refl _)⟩
    · exact ⟨dir, canonicalDir, extended, starts⟩

end AssetUsage.Path
