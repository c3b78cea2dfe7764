import AssetUsage.Proofs.Finder.HelperNames
import AssetUsage.Proofs.Reference.DocumentRoot
import AssetUsage.Text.Alphanumeric

/-!
# Assets that helpers name

A name given to a helper is cleaned, gets the extension that is asked for and is put behind the
document root or the directory of the helper's assets. A clean name stays clean with an extension
(`clean?_append_extension`) and with a query or a fragment (`clean?_append`), so it makes no
difference whether the extension is written out. What is put behind the base is a relative path
whatever the name is (`isAbsolute_assetPath`), and holds no `..` unless the name does, so that it
stays in the base (`resolveAsset?_stable`).
-/

namespace AssetUsage.Reference

open AssetUsage.Text (StopsAt)

/-- A part occurs in a text exactly if the text goes through it. -/
theorem occursIn_iff {part text : List Char} : occursIn part text = true ↔ part <:+: text := by
  induction text with
  | nil => rw [occursIn, List.isEmpty_iff, List.infix_nil]
  | cons c rest ih =>
    rw [occursIn, Bool.or_eq_true, List.isPrefixOf_iff_prefix, ih, List.infix_cons_iff]

/-- Two characters that stand side by side in a joined text do so in a part of it or where the parts
meet. -/
theorem pair_infix_append {a b : Char} {front behind : List Char}
    (occurs : [a, b] <:+: front ++ behind) :
    [a, b] <:+: front ∨ [a, b] <:+: behind ∨ a ∈ front ∧ behind.head? = some b := by
  induction front with
  | nil => exact .inr (.inl occurs)
  | cons c rest ih =>
    rw [List.cons_append, List.infix_cons_iff] at occurs
    rcases occurs with starts | later
    · obtain ⟨rfl, next⟩ := List.cons_prefix_cons.1 starts
      cases rest with
      | nil =>
        obtain ⟨more, rfl⟩ := next
        exact .inr (.inr ⟨List.mem_cons_self, rfl⟩)
      | cons second more =>
        obtain ⟨rfl, -⟩ := List.cons_prefix_cons.1 next
        exact .inl (List.IsPrefix.isInfix ⟨more, rfl⟩)
    · rcases ih later with inFront | inBehind | ⟨mem, meets⟩
      · exact .inl (List.infix_cons inFront)
      · exact .inr (.inl inBehind)
      · exact .inr (.inr ⟨List.mem_cons_of_mem _ mem, meets⟩)

/-- A reference is computed if a mark of a computed part occurs in it. -/
theorem isInterpolated_eq_false_iff {text : List Char} :
    isInterpolated text = false ↔
      ¬ ['#', '\x7b'] <:+: text ∧ ¬ ['<', '%'] <:+: text := by
  rw [isInterpolated, Bool.or_eq_false_iff, Bool.eq_false_iff, Bool.eq_false_iff, ne_eq, ne_eq,
    occursIn_iff, occursIn_iff]
  rfl

/-- Within a text without computed parts there are none. -/
theorem isInterpolated_of_infix {part text : List Char} (inside : part <:+: text)
    (plain : isInterpolated text = false) : isInterpolated part = false := by
  obtain ⟨noHash, noTag⟩ := isInterpolated_eq_false_iff.1 plain
  exact isInterpolated_eq_false_iff.2
    ⟨fun occurs => noHash (occurs.trans inside), fun occurs => noTag (occurs.trans inside)⟩

/-- Texts without computed parts make none together, unless the two characters of a mark meet. -/
theorem isInterpolated_append {front behind : List Char} (plain : isInterpolated front = false)
    (plainBehind : isInterpolated behind = false) (noHash : '#' ∉ front)
    (noPercent : behind.head? ≠ some '%') : isInterpolated (front ++ behind) = false := by
  rw [isInterpolated_eq_false_iff] at plain plainBehind ⊢
  constructor
  · intro occurs
    rcases pair_infix_append occurs with inFront | inBehind | ⟨hash, -⟩
    · exact plain.1 inFront
    · exact plainBehind.1 inBehind
    · exact noHash hash
  · intro occurs
    rcases pair_infix_append occurs with inFront | inBehind | ⟨-, percent⟩
    · exact plain.2 inFront
    · exact plainBehind.2 inBehind
    · exact noPercent percent

/-- What may stand behind a name without a difference: nothing, or a query or a fragment without
computed parts. -/
structure IsDecoration (text : List Char) : Prop where
  decorates : StopsAt isUndecorated text
  plain : isInterpolated text = false

/-- No decoration. -/
theorem IsDecoration.nil : IsDecoration [] := ⟨.nil, rfl⟩

/-- The text can be an extension: letters and numerals, at least one. -/
def IsExtension (text : List Char) : Prop := text ≠ [] ∧ ∀ c ∈ text, Text.isAlphanumeric c = true

instance (text : List Char) : Decidable (IsExtension text) :=
  decidable_of_iff (text ≠ [] ∧ text.all Text.isAlphanumeric = true)
    (and_congr_right fun _ => List.all_eq_true)

/-- A letter or numeral is not blank. -/
theorem isBlank_of_isAlphanumeric {c : Char} (letter : Text.isAlphanumeric c = true) :
    Text.isBlank c = false := by
  refine Bool.eq_false_iff.2 fun blank => ?_
  have other := Text.of_isBlank (!Text.isAlphanumeric ·) (by decide +kernel) blank
  simp [letter] at other

/-- A character that is no letter or numeral and no dot is not in what an extension adds. -/
theorem IsExtension.notMem_cons {extension : List Char} (letters : IsExtension extension) {c : Char}
    (other : Text.isAlphanumeric c = false) (apart : c ≠ '.') : c ∉ '.' :: extension := by
  refine List.not_mem_cons_of_ne_of_not_mem apart fun mem => ?_
  exact Bool.false_ne_true (other.symm.trans (letters.2 c mem))

section Clean

variable {name : List Char} (found : clean? name = some name)
include found

/-- A clean name has no blanks around it. -/
theorem trim_of_clean? : Text.trim name = name := by
  obtain ⟨decoration, whole, -⟩ := exists_of_clean? found
  have length := (Text.isInfix_trim name).length_le
  rw [whole, List.length_append] at length
  have none : decoration = [] := List.length_eq_zero_iff.1 (by omega)
  rw [whole, none, List.append_nil]

/-- A clean name leads to no other host and holds no computed part. -/
theorem isPlain_of_clean? : isExternal name = false ∧ isInterpolated name = false := by
  have plain := (clean?_eq_some_iff.1 found).1
  rwa [trim_of_clean? found] at plain

/-- A clean name holds no query and no fragment. -/
theorem isUndecorated_of_clean? : ∀ c ∈ name, isUndecorated c = true := by
  obtain ⟨-, -, -, inside⟩ := exists_of_clean? found
  exact inside

/-- A clean name holds no `#`, with which a mark of a computed part could start. -/
theorem hash_notMem_of_clean? : '#' ∉ name := fun mem =>
  absurd (isUndecorated_of_clean? found '#' mem) (by decide)

/-- A clean name leads to no other host, whatever stands behind it in the place of a decoration or
an extension. -/
theorem isExternal_append_of_clean? {behind : List Char} (stops : StopsAt isInOrigin behind) :
    isExternal (name ++ behind) = false := by
  refine Bool.eq_false_iff.2 fun external => ?_
  have alone := isExternal_append stops external []
  rw [List.append_nil, (isPlain_of_clean? found).1] at alone
  contradiction

/-- A decoration behind a clean name is taken away. -/
theorem clean?_append {decoration : List Char} (decorated : IsDecoration decoration) :
    clean? (name ++ decoration) = some name := by
  obtain ⟨decorates, plain⟩ := decorated
  obtain ⟨blanks, -, split⟩ := Text.exists_append_trimEnd decoration
  have front : Text.trimEnd decoration <+: decoration := ⟨blanks, split⟩
  have stops := decorates.of_prefix front
  have noPercent : (Text.trimEnd decoration).head? ≠ some '%' := by
    intro percent
    obtain ⟨rest, same⟩ := List.head?_eq_some_iff.1 percent
    exact absurd (stops '%' rest same) (by decide)
  refine clean?_eq_some_iff.2 ?_
  rw [Text.trim_append_of_trim_eq (ne_nil_of_clean found) (trim_of_clean? found),
    Text.takeWhile_run (isUndecorated_of_clean? found) stops]
  have plainFront := isInterpolated_of_infix front.isInfix plain
  exact ⟨⟨isExternal_append_of_clean? found (stopsAt_isInOrigin stops),
    isInterpolated_append (isPlain_of_clean? found).2 plainFront (hash_notMem_of_clean? found)
      noPercent⟩, ne_nil_of_clean found, rfl⟩

/-- A clean name stays clean with an extension. -/
theorem clean?_append_extension {extension : List Char} (letters : IsExtension extension) :
    clean? (name ++ '.' :: extension) = some (name ++ '.' :: extension) := by
  have visible : ∀ c ∈ '.' :: extension, Text.isBlank c = false :=
    List.forall_mem_cons.2 ⟨by decide, fun c mem => isBlank_of_isAlphanumeric (letters.2 c mem)⟩
  have trimmed : Text.trimEnd ('.' :: extension) = '.' :: extension := by
    have whole := Text.trim_of_forall visible
    rwa [Text.trim, Text.trimStart_of_stopsAt (.cons (by decide))] at whole
  have noQuestion : '?' ∉ '.' :: extension := letters.notMem_cons (by decide) (by decide)
  have noHash : '#' ∉ '.' :: extension := letters.notMem_cons (by decide) (by decide)
  have noAngle : '<' ∉ '.' :: extension := letters.notMem_cons (by decide) (by decide)
  have undecorated : ∀ c ∈ name ++ '.' :: extension, isUndecorated c = true := by
    refine List.forall_mem_append.2 ⟨isUndecorated_of_clean? found, fun c mem => ?_⟩
    have question : c ≠ '?' := fun same => noQuestion (same ▸ mem)
    have hash : c ≠ '#' := fun same => noHash (same ▸ mem)
    simp [isUndecorated, question, hash]
  have plain : isInterpolated ('.' :: extension) = false :=
    isInterpolated_eq_false_iff.2 ⟨fun occurs => noHash (occurs.subset List.mem_cons_self),
      fun occurs => noAngle (occurs.subset List.mem_cons_self)⟩
  have noPercent : ('.' :: extension).head? ≠ some '%' := by simp
  refine clean?_eq_some_iff.2 ?_
  rw [Text.trim_append_of_trim_eq (ne_nil_of_clean found) (trim_of_clean? found), trimmed,
    List.takeWhile_eq_self_iff.2 undecorated]
  exact ⟨⟨isExternal_append_of_clean? found (.cons (by decide)),
    isInterpolated_append (isPlain_of_clean? found).2 plain (hash_notMem_of_clean? found)
      noPercent⟩,
    List.append_ne_nil_of_left_ne_nil (ne_nil_of_clean found) _, rfl⟩

end Clean

/-- The directory behind which a name is put. -/
def assetBase (project : Project) (dir : Path) (name : List Char) : Path :=
  if name.head? = some '/' then project.publicDir else dir

/-- The path that is put behind it: the name without a separator in front. -/
def assetPath (name : List Char) : Path := ⟨if name.head? = some '/' then name.tail else name⟩

/-- Behind the first character of a name, only its end changes with an extension. -/
theorem withExtension_cons (c : Char) (rest : List Char) (asked : Option (List Char)) :
    ∃ more, withExtension (c :: rest) asked = c :: (rest ++ more) ∧
      (more = [] ∨ ∃ extension ∈ asked, more = '.' :: extension) := by
  rcases withExtension_eq (c :: rest) asked with ⟨-, same⟩ | ⟨-, extension, listed, longer⟩
  · exact ⟨[], by rw [same, List.append_nil], .inl rfl⟩
  · exact ⟨_, longer, .inr ⟨extension, listed, rfl⟩⟩

/-- What a reference with a clean name leads to. -/
theorem resolveAsset?_of_clean? {project : Project} {dir : Path} {reference name : List Char}
    {asked : Option (List Char)} (found : clean? reference = some name) :
    resolveAsset? project reference dir asked =
      some ((assetBase project dir name).join
        (assetPath (withExtension name asked))).normalize := by
  obtain ⟨-, -, nonempty, -⟩ := exists_of_clean? found
  obtain ⟨c, rest, rfl⟩ := List.exists_cons_of_ne_nil nonempty
  obtain ⟨more, longer, -⟩ := withExtension_cons c rest asked
  rw [resolveAsset?, found, Option.map_some, longer, assetBase, assetPath, List.head?_cons,
    List.head?_cons, List.tail_cons]
  by_cases separator : c = '/'
  · subst separator
    rfl
  · have other : some c ≠ some '/' := fun same => separator (Option.some.inj same)
    rw [if_neg other, if_neg other]
    split
    · next same _ => exact absurd (List.head_eq_of_cons_eq same) separator
    · rfl

/-- The segments behind a separator in front. -/
theorem segments_cons_separator (text : List Char) :
    (Path.mk ('/' :: text)).segments = [] :: (Path.mk text).segments := by
  rw [Path.segments, List.splitOn_cons_eq_if_modifyHead, if_pos (by simp), Path.segments]

/-- What is put behind the base is a relative path. -/
theorem isAbsolute_assetPath {name : List Char} {asked : Option (List Char)}
    (found : clean? name = some name) :
    (assetPath (withExtension name asked)).isAbsolute = false := by
  obtain ⟨c, rest, rfl⟩ := List.exists_cons_of_ne_nil (ne_nil_of_clean found)
  obtain ⟨more, longer, ends⟩ := withExtension_cons c rest asked
  rw [longer, assetPath, List.head?_cons, List.tail_cons]
  by_cases separator : c = '/'
  · subst separator
    have stopsMore : StopsAt (· == '/') more := by
      rcases ends with rfl | ⟨extension, -, rfl⟩
      · exact .nil
      · exact .cons (by decide)
    have stops := (stopsAt_separator_of_clean? found).append stopsMore
    rw [if_pos rfl]
    cases whole : rest ++ more with
    | nil => rfl
    | cons first others => simpa [Path.isAbsolute] using stops first others whole
  · have other : some c ≠ some '/' := fun same => separator (Option.some.inj same)
    simp [Path.isAbsolute, separator]

section Extensions

variable {name : List Char} {asked : Option (List Char)}
  (letters : ∀ extension ∈ asked, IsExtension extension)
include letters

/-- With an extension, no segment of a name becomes `..`. -/
theorem noParent_withExtension (noParent : ['.', '.'] ∉ (Path.mk name).segments) :
    ['.', '.'] ∉ (Path.mk (withExtension name asked)).segments := by
  rcases withExtension_eq name asked with ⟨-, same⟩ | ⟨-, extension, listed, longer⟩
  · rwa [same]
  · have spelled := letters extension listed
    have plain : '/' ∉ '.' :: extension := spelled.notMem_cons (by decide) (by decide)
    obtain ⟨init, last, split⟩ := (List.eq_nil_or_concat (Path.mk name).segments).resolve_left
      (Path.segments_ne_nil _)
    rw [List.concat_eq_append] at split
    rw [split] at noParent
    rw [longer, Path.segments_append split plain]
    intro mem
    rcases List.mem_append.1 mem with mem | mem
    · exact noParent (List.mem_append_left _ mem)
    · obtain ⟨c, rest, rfl⟩ := List.exists_cons_of_ne_nil spelled.1
      have inside : c ∈ last ++ '.' :: c :: rest := by simp
      rw [← List.mem_singleton.1 mem] at inside
      have dot : c = '.' := by simpa using inside
      have letter := spelled.2 c List.mem_cons_self
      rw [dot] at letter
      contradiction

/-- What is put behind the base holds no `..` unless the name does. -/
theorem noParent_assetPath (noParent : ['.', '.'] ∉ (Path.mk name).segments) :
    ['.', '.'] ∉ (assetPath (withExtension name asked)).segments := by
  have whole := noParent_withExtension letters noParent
  unfold assetPath
  split
  · next separator =>
    obtain ⟨rest, same⟩ := List.head?_eq_some_iff.1 separator
    rw [same, segments_cons_separator] at whole
    rw [same, List.tail_cons]
    exact fun mem => whole (List.mem_cons_of_mem _ mem)
  · exact whole

end Extensions

/-- A name leads to the same file with the extension written out, and with any query and fragment
behind either. What it leads to is a relative path behind the base, and in the base if the name
holds no `..`, whether an extension is asked for or not. -/
theorem resolveAsset?_stable {project : Project} {dir : Path} {name extension : List Char}
    (canonical : project.IsCanonical) (canonicalDir : dir.IsCanonical)
    (letters : IsExtension extension) (found : clean? name = some name) :
    (¬ '.' :: extension <:+ name → ∀ first second, IsDecoration first → IsDecoration second →
      resolveAsset? project (name ++ first) dir (some extension) =
        resolveAsset? project (name ++ '.' :: extension ++ second) dir (some extension)) ∧
      ∀ asked decoration, asked = none ∨ asked = some extension → IsDecoration decoration →
        let base := assetBase project dir name
        let path := assetPath (withExtension name asked)
        resolveAsset? project (name ++ decoration) dir asked = some (base.join path).normalize ∧
          path.isAbsolute = false ∧
          (['.', '.'] ∉ (Path.mk name).segments →
            (base.join path).normalize.startsWith base = true) := by
  constructor
  · intro bare first second decorated decoratedLong
    have long := clean?_append_extension found letters
    have added : withExtension name (some extension) = name ++ '.' :: extension := by
      rw [withExtension, if_neg (by rwa [List.isSuffixOf_iff_suffix])]
    have kept : withExtension (name ++ '.' :: extension) (some extension) =
        name ++ '.' :: extension := by
      rw [withExtension, if_pos (by rw [List.isSuffixOf_iff_suffix]; exact ⟨name, rfl⟩)]
    have sameBase : assetBase project dir (name ++ '.' :: extension) =
        assetBase project dir name := by
      rw [assetBase, List.head?_append_of_ne_nil _ (ne_nil_of_clean found), assetBase]
    rw [resolveAsset?_of_clean? (clean?_append found decorated),
      resolveAsset?_of_clean? (clean?_append long decoratedLong), added, kept, sameBase]
  · intro asked decoration choice decorated
    have lettersAsked : ∀ other ∈ asked, IsExtension other := by
      rcases choice with rfl | rfl
      · exact nofun
      · intro other same
        rwa [← Option.some.inj same]
    have canonicalBase : (assetBase project dir name).IsCanonical := by
      rw [assetBase]
      split
      · exact canonical.publicFiles
      · exact canonicalDir
    have relative : (assetPath (withExtension name asked)).isAbsolute = false :=
      isAbsolute_assetPath found
    refine ⟨resolveAsset?_of_clean? (clean?_append found decorated), relative, fun noParent => ?_⟩
    exact Path.startsWith_normalize_join_of_climb_eq_zero canonicalBase relative
      (Path.climb_eq_zero_of_noParent (noParent_assetPath lettersAsked noParent))

/-- A name that ends with a dot leads to the same file below the document root, whether the
extension is written out or not. -/
theorem resolveAsset?_stable_of_dot :
    let project := Project.conventional (.ofString "/p")
    let dir := Path.ofString "/p/public/stylesheets"
    resolveAsset? project "/admin/.".toList dir (some "css".toList) =
        resolveAsset? project "/admin/..css#top".toList dir (some "css".toList) ∧
      resolveAsset? project "/admin/.?1".toList dir (some "css".toList) =
        some (.ofString "/p/public/admin/..css") ∧
      (Path.ofString "/p/public/admin/..css").startsWith project.publicDir = true := by
  intro project dir
  have canonical : project.IsCanonical := by decide +kernel
  have canonicalDir : dir.IsCanonical := by decide +kernel
  have version : IsDecoration "?1".toList := ⟨.cons (by decide), by decide⟩
  have anchor : IsDecoration "#top".toList := ⟨.cons (by decide), by decide⟩
  obtain ⟨same, within⟩ := resolveAsset?_stable canonical canonicalDir
    (by decide +kernel : IsExtension "css".toList)
    (by decide +kernel : clean? "/admin/.".toList = some "/admin/.".toList)
  obtain ⟨found, -, below⟩ := within (some "css".toList) "?1".toList (.inr rfl) version
  have base : assetBase project dir "/admin/.".toList = project.publicDir := by decide +kernel
  have place : (project.publicDir.join
      (assetPath (withExtension "/admin/.".toList (some "css".toList)))).normalize =
        .ofString "/p/public/admin/..css" := by decide +kernel
  rw [base, place] at found below
  exact ⟨same (by decide) [] "#top".toList .nil anchor, found, below (by decide)⟩

end AssetUsage.Reference
