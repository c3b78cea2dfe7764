import AssetUsage.Proofs.Path.Bytes

/-!
# Shown paths in bytes

A path is shown by the text of what is left of it behind the root, or else of the whole path
(`behind`). Resolved from the root again, this text leads to the path exactly if no byte of that
part had to be replaced (`absolutize_shownFrom_eq_iff`), and it is shown as itself unless a path
beside the root is written below it once bytes are replaced (`shownFrom_again_eq_iff`). Paths below
the root are shown alike exactly if their texts look alike (`shownFrom_eq_iff`).
-/

namespace AssetUsage

/-- What is left of a canonical path behind a canonical base leads from there to the path. -/
theorem Path.absolutize_of_stripPrefix? {base path rest : Path} (canonicalBase : base.IsCanonical)
    (canonical : path.IsCanonical) (stripped : path.stripPrefix? base = some rest) :
    base.absolutize rest = path :=
  absolutize_of_isBehind canonicalBase canonical
    (isBehind_of_stripPrefix? canonicalBase.components_ne_nil stripped)

namespace OsPath

/-- What of the path is shown: what is left of it behind the root, or else all of it. -/
def behind (path root : OsPath) : OsPath := (path.stripPrefix? root).getD path

variable {root path : OsPath}

/-- A path that does not lie below the root is shown as a whole. -/
theorem behind_of_not_startsWith (outside : path.startsWith root = false) :
    path.behind root = path := by
  rw [behind, stripPrefix?_eq_none_iff.2 outside, Option.getD_none]

/-- The text by which a path is shown is that of the part that is shown. -/
theorem shownFrom_eq_shown_behind (path root : OsPath) :
    path.shownFrom root = (path.behind root).shown := by
  rw [shownFrom, relativeTo?, behind]
  cases path.stripPrefix? root <;> rfl

/-- The part that is shown holds bytes of the path, and separators and dots. -/
theorem backslash_not_mem_behind (plain : backslash ∉ path.bytes) :
    backslash ∉ (path.behind root).bytes := by
  rw [behind]
  cases stripped : path.stripPrefix? root with
  | none => exact plain
  | some rest =>
    have units := congrArg (Option.map units) stripped
    rw [map_units_stripPrefix?, Option.map_some] at units
    rw [Option.getD_some, ← mem_units_iff]
    exact Path.not_mem_of_stripPrefix? (by decide) (by decide) units (mt mem_units_iff.1 plain)

/-- Without backslashes a path is shown by the text of its part. -/
theorem shownFrom_of_plain (plain : backslash ∉ path.bytes) :
    path.shownFrom root = (path.behind root).lossy.text := by
  rw [shownFrom_eq_shown_behind]
  exact Path.shown_of_plain (backslash_not_mem_lossy (backslash_not_mem_behind plain))

/-- The text of names behind a root is written with names. -/
theorem exists_names_written {front names : List Segment}
    (named : ∀ name ∈ front ++ names, Path.NamesEntry name)
    (isPath : path.units = .assemble .root (front ++ names)) {rest : OsPath}
    (isRest : rest.units = ⟨['/'].intercalate names⟩) :
    ∃ written : List Segment, (∀ name ∈ written, Path.NamesEntry name) ∧
      (ofPath rest.lossy).units = ⟨['/'].intercalate written⟩ := by
  have namedLossy : ∀ name ∈ names.map lossyName, Path.NamesEntry name := by
    refine List.forall_mem_map.2 fun name mem => ?_
    have inPath : name ∈ front ++ names := List.mem_append_right _ mem
    have segment := isPath ▸ Path.mem_segments_assemble named inPath
    exact (path.keepsMeaning_units name segment).namesEntry (named name inPath)
  refine ⟨(names.map lossyName).map encodedName, List.forall_mem_map.2 fun name mem => ?_, ?_⟩
  · exact (keepsMeaning_encodedName (namedLossy name mem).2.2).namesEntry (namedLossy name mem)
  · have plain : ∀ name ∈ names, '/' ∉ name := fun name mem =>
      (named name (List.mem_append_right _ mem)).2.2
    rw [units_ofPath, lossy_eq_respell, isRest, Path.respell_intercalate rfl plain,
      Path.respell_intercalate rfl fun name mem => (namedLossy name mem).2.2]

/-- Names behind the root lead to a path that has them for its part. -/
theorem behind_absolutize (canonicalRoot : root.IsCanonical) {front names : List Segment}
    (named : ∀ name ∈ front ++ names, Path.NamesEntry name)
    (isRoot : root.units = .assemble .root front) {rest : OsPath}
    (isRest : rest.units = ⟨['/'].intercalate names⟩) :
    (root.absolutize rest).behind root = rest := by
  have stripped := Path.stripPrefix?_assemble named
  have whole : (root.absolutize rest).units = .assemble .root (front ++ names) := by
    rw [units_absolutize canonicalRoot.absolute, isRest]
    exact Path.absolutize_of_stripPrefix? canonicalRoot (Path.isCanonical_assemble named)
      (isRoot ▸ stripped)
  have left := map_units_stripPrefix? (root.absolutize rest) root
  rw [whole, isRoot, stripped, ← isRest] at left
  obtain ⟨part, isPart, units⟩ := Option.map_eq_some_iff.1 left
  rw [behind, isPart, Option.getD_some, units_injective units]

section Again

variable (canonicalRoot : root.IsCanonical) (canonical : path.IsCanonical)
include canonicalRoot canonical

/-- Below the root, the names that are left behind it are the part that is shown. -/
theorem exists_names_behind (below : path.startsWith root = true) :
    ∃ front names : List Segment, (∀ name ∈ front ++ names, Path.NamesEntry name) ∧
      root.units = .assemble .root front ∧ path.units = .assemble .root (front ++ names) ∧
      (path.behind root).units = ⟨['/'].intercalate names⟩ := by
  obtain ⟨front, namedFront, isRoot⟩ := Path.IsCanonical.exists_names canonicalRoot
  obtain ⟨all, named, isPath⟩ := Path.IsCanonical.exists_names canonical
  rw [startsWith, isRoot, isPath, Path.startsWith_assemble_iff named namedFront] at below
  obtain ⟨names, rfl⟩ := below
  have left := map_units_stripPrefix? path root
  rw [isRoot, isPath, Path.stripPrefix?_assemble named] at left
  obtain ⟨rest, stripped, units⟩ := Option.map_eq_some_iff.1 left
  refine ⟨front, names, named, isRoot, isPath, ?_⟩
  rw [behind, stripped, Option.getD_some, units]

/-- The part that is shown leads from the root to the path. -/
theorem absolutize_behind : root.absolutize (path.behind root) = path := by
  apply units_injective
  rw [units_absolutize canonicalRoot.absolute, behind]
  cases stripped : path.stripPrefix? root with
  | none => exact Path.IsCanonical.absolutize_eq canonical root.units
  | some rest =>
    have units := congrArg (Option.map units) stripped
    rw [map_units_stripPrefix?, Option.map_some] at units
    exact Path.absolutize_of_stripPrefix? canonicalRoot canonical units

/-- Below the root, the text of the part that is shown leads to a path below it that has this text
for its own part. -/
theorem behind_again_of_startsWith (below : path.startsWith root = true) :
    (root.absolutize (ofPath (path.behind root).lossy)).behind root =
      ofPath (path.behind root).lossy := by
  obtain ⟨front, names, named, isRoot, isPath, isBehind⟩ :=
    exists_names_behind canonicalRoot canonical below
  obtain ⟨written, namedWritten, isWritten⟩ := exists_names_written named isPath isBehind
  have namedAgain := List.forall_mem_append.2 ⟨(List.forall_mem_append.1 named).1, namedWritten⟩
  exact behind_absolutize canonicalRoot namedAgain isRoot isWritten

/-- Beside the root, the text of the path leads to the path that it is written with. -/
theorem absolutize_behind_of_not_startsWith (outside : path.startsWith root = false) :
    root.absolutize (ofPath (path.behind root).lossy) = ofPath path.lossy := by
  have written := isCanonical_ofPath (IsCanonical.lossy canonical)
  apply units_injective
  rw [units_absolutize canonicalRoot.absolute, behind_of_not_startsWith outside]
  exact Path.IsCanonical.absolutize_eq written root.units

variable (plain : backslash ∉ path.bytes)
include plain

/-- Of the canonical paths without backslashes, those below the root are shown by a relative path.
-/
theorem isAbsolute_shownFrom :
    (Path.mk (path.shownFrom root)).isAbsolute = !path.startsWith root := by
  have plainLossy := backslash_not_mem_lossy plain
  cases below : path.startsWith root with
  | true =>
    rw [shownFrom_of_startsWith below,
      Path.isAbsolute_shownFrom canonicalRoot.lossy plainLossy canonical.lossy,
      startsWith_lossy below]
  | false =>
    rw [shownFrom_of_not_startsWith below, Path.shown_of_plain plainLossy]
    exact canonical.lossy.absolute

/-- The text by which a path is shown leads to the path exactly if its part is UTF-8. -/
theorem absolutize_shownFrom_eq_iff :
    root.absolutize (ofPath ⟨path.shownFrom root⟩) = path ↔ (path.behind root).isText = true := by
  rw [shownFrom_of_plain plain, ← ofPath_lossy_iff]
  constructor
  · intro same
    cases below : path.startsWith root with
    | true =>
      have again := behind_again_of_startsWith canonicalRoot canonical below
      exact (same ▸ again).symm
    | false =>
      have again := absolutize_behind_of_not_startsWith canonicalRoot canonical below
      rw [same] at again
      rw [behind_of_not_startsWith below]
      exact again.symm
  · intro same
    exact (congrArg root.absolutize same).trans (absolutize_behind canonicalRoot canonical)

/-- The text by which a path is shown is shown as itself exactly if the path lies below the root, or
not even the path that its text is written with does. -/
theorem shownFrom_again_eq_iff :
    (root.absolutize (ofPath ⟨path.shownFrom root⟩)).shownFrom root = path.shownFrom root ↔
      path.startsWith root = true ∨ (ofPath path.lossy).startsWith root = false := by
  rw [shownFrom_of_plain plain]
  cases below : path.startsWith root with
  | true =>
    have again := behind_again_of_startsWith canonicalRoot canonical below
    refine iff_of_true ?_ (.inl rfl)
    rw [shownFrom_eq_shown_behind, again, shown, lossy_ofPath]
    exact Path.shown_of_plain (backslash_not_mem_lossy (backslash_not_mem_behind plain))
  | false =>
    have again : root.absolutize (ofPath ⟨(path.behind root).lossy.text⟩) = ofPath path.lossy :=
      absolutize_behind_of_not_startsWith canonicalRoot canonical below
    have written := isCanonical_ofPath canonical.lossy
    have plainWritten : backslash ∉ (ofPath path.lossy).bytes :=
      backslash_not_mem_ofPath_iff.2 (backslash_not_mem_lossy plain)
    rw [again, behind_of_not_startsWith below]
    cases inside : (ofPath path.lossy).startsWith root with
    | true =>
      have relative := isAbsolute_shownFrom canonicalRoot written plainWritten
      refine iff_of_false (fun same => ?_) (by simp)
      rw [same, inside] at relative
      exact absurd canonical.lossy.absolute (by simp [relative])
    | false =>
      refine iff_of_true ?_ (.inr rfl)
      rw [shownFrom_of_plain plainWritten, behind_of_not_startsWith inside, lossy_ofPath]

end Again

/-- Two canonical paths below one root are shown by the same text exactly if their texts look
alike. -/
theorem shownFrom_eq_iff {left right : OsPath} (canonicalLeft : left.IsCanonical)
    (canonicalRight : right.IsCanonical) (belowLeft : left.startsWith root = true)
    (belowRight : right.startsWith root = true) :
    left.shownFrom root = right.shownFrom root ↔ left.lossy.LooksLike right.lossy := by
  rw [shownFrom_of_startsWith belowLeft, shownFrom_of_startsWith belowRight]
  exact Path.shownFrom_eq_iff canonicalLeft.lossy canonicalRight.lossy (startsWith_lossy belowLeft)
    (startsWith_lossy belowRight)

end OsPath

end AssetUsage
