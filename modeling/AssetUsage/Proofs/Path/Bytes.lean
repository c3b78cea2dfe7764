import AssetUsage.Path.Bytes
import AssetUsage.Proofs.Path.Logical
import AssetUsage.Proofs.Path.Respelled
import AssetUsage.Proofs.Path.Shown
import AssetUsage.Proofs.Text.LossyText

/-!
# Paths in bytes and their texts

The text of a path is the text with one character for each of its bytes, with its segments respelled
(`lossy_eq_respell`), and so is a path that is written with the bytes of a text (`units_ofPath`). So
paths in bytes are resolved from a base as their texts are (`lossy_absolutize`), and those below a
base are stripped of it as their texts are (`map_lossy_stripPrefix?`). Paths that are UTF-8 behave
as the texts that they are written with (`absolutize_ofPath`, `shownFrom_ofPath`).
-/

namespace AssetUsage.OsPath

open AssetUsage.Path (KeepsMeaning)
open Text.Utf8 (encode decodeLossy isWellFormed)

/-- The byte of a separator. -/
def separator : UInt8 := 0x2F

section Units

/-- The number of the character of a byte is that of the byte. -/
theorem toNat_unitOf (byte : UInt8) : (unitOf byte).toNat = byte.toNat :=
  Text.Utf8.toNat_ofNat_byte byte

/-- A byte is had back from its character. -/
theorem byteOf_unitOf (byte : UInt8) : byteOf (unitOf byte) = byte := by
  rw [byteOf, toNat_unitOf, UInt8.ofNat_toNat]

/-- Different bytes have different characters. -/
theorem unitOf_injective : Function.Injective unitOf :=
  Function.LeftInverse.injective byteOf_unitOf

/-- A character that stands for a byte is had back from it. -/
theorem unitOf_byteOf {c : Char} (small : c.toNat < 0x100) : unitOf (byteOf c) = c := by
  rw [← Char.toNat_inj, toNat_unitOf, byteOf]
  exact UInt8.toNat_ofNat_of_lt' small

/-- Every character of the text stands for a byte. -/
def IsUnits (text : List Char) : Prop := ∀ c ∈ text, c.toNat < 0x100

/-- Bytes are had back from their characters. -/
theorem map_byteOf_map_unitOf (bytes : List UInt8) : (bytes.map unitOf).map byteOf = bytes := by
  simp [Function.comp_def, byteOf_unitOf]

/-- Characters that stand for bytes are had back from these. -/
theorem map_unitOf_map_byteOf {text : List Char} (units : IsUnits text) :
    (text.map byteOf).map unitOf = text := by
  have each : text.map (unitOf ∘ byteOf) = text.map id :=
    List.map_congr_left fun c mem => unitOf_byteOf (units c mem)
  rw [List.map_map, each, List.map_id]

/-- The characters of bytes stand for bytes. -/
theorem isUnits_map_unitOf (bytes : List UInt8) : IsUnits (bytes.map unitOf) :=
  List.forall_mem_map.2 fun byte _ => (toNat_unitOf byte).trans_lt byte.toNat_lt

variable {path base : OsPath}

/-- A path is had back from its units. -/
theorem ofUnits_units (path : OsPath) : ofUnits path.units = path :=
  congrArg mk (map_byteOf_map_unitOf path.bytes)

/-- Different paths have different units. -/
theorem units_injective : Function.Injective units :=
  Function.LeftInverse.injective ofUnits_units

/-- A text of units is had back from its bytes. -/
theorem units_ofUnits {path : Path} (isUnits : IsUnits path.text) : (ofUnits path).units = path :=
  congrArg Path.mk (map_unitOf_map_byteOf isUnits)

/-- What holds no further characters than units is made of units. -/
theorem isUnits_of_not_mem {text : List Char}
    (apart : ∀ c : Char, c ≠ '/' → c ≠ '.' → ¬ c.toNat < 0x100 → c ∉ text) : IsUnits text := by
  intro c mem
  by_contra large
  refine apart c ?_ ?_ large mem <;>
  · rintro rfl
    exact large (by decide)

/-- A joined path is made of units exactly if its parts are. -/
theorem isUnits_join_iff {base path : Path} (relative : path.isAbsolute = false) :
    IsUnits (base.join path).text ↔ IsUnits base.text ∧ IsUnits path.text := by
  rw [Path.join, if_neg (Bool.eq_false_iff.1 relative)]
  split <;> simp [IsUnits, or_imp, forall_and]

/-- The units of a resolved path. -/
theorem units_absolutize (absolute : base.units.isAbsolute = true) :
    (base.absolutize path).units = base.units.absolutize path.units := by
  refine units_ofUnits (isUnits_of_not_mem fun c separator dot large => ?_)
  have apart : ∀ path : OsPath, c ∉ path.units.text := fun path mem =>
    large (isUnits_map_unitOf path.bytes c mem)
  exact Path.not_mem_normalize separator dot
    (Path.isAbsolute_join_of_base absolute _) (Path.not_mem_join separator (apart _) (apart _))

/-- The units of what is left of a path behind a base. -/
theorem map_units_stripPrefix? (path base : OsPath) :
    (path.stripPrefix? base).map units = path.units.stripPrefix? base.units := by
  rw [stripPrefix?, Option.map_map]
  cases stripped : path.units.stripPrefix? base.units with
  | none => rfl
  | some rest =>
    refine congrArg some (units_ofUnits (isUnits_of_not_mem fun c separator dot large => ?_))
    exact Path.not_mem_of_stripPrefix? separator dot stripped fun mem =>
      large (isUnits_map_unitOf path.bytes c mem)

end Units

section Names

/-- The text of a segment, read from its units. -/
def lossyName (segment : Segment) : Segment := decodeLossy (segment.map byteOf)

/-- The units of a segment, as it is written. -/
def encodedName (segment : Segment) : Segment := (encode segment).map unitOf

/-- Different segments are written differently. -/
theorem encodedName_injective : Function.Injective encodedName := fun _ _ same =>
  Text.Utf8.encode_injective (List.map_injective_iff.2 unitOf_injective same)

/-- The segments between separators mean the same where they are written in bytes. -/
theorem keepsMeaning_encodedName {segment : Segment} (plain : '/' ∉ segment) :
    KeepsMeaning encodedName segment where
  separator := by
    intro mem
    obtain ⟨byte, mem, same⟩ := List.mem_map.1 mem
    have mark : byte = separator := unitOf_injective same
    exact plain ((Text.Utf8.mark_mem_encode_iff (by decide)).1 (mark ▸ mem))
  empty := encodedName_injective.eq_iff (b := [])
  current := encodedName_injective.eq_iff (b := ['.'])
  parent := encodedName_injective.eq_iff (b := ['.', '.'])

/-- A segment is written with units. -/
theorem isUnits_encodedName (segment : Segment) : IsUnits (encodedName segment) :=
  isUnits_map_unitOf (encode segment)

/-- A text of units that stand for a text without U+FFFD is that which is written. -/
theorem lossyName_eq_iff {segment text : Segment} (units : IsUnits segment)
    (plain : '\uFFFD' ∉ text) : lossyName segment = text ↔ segment = encodedName text := by
  rw [lossyName, Text.Utf8.decodeLossy_eq_iff plain, encodedName]
  constructor
  · intro same
    rw [← same, map_unitOf_map_byteOf units]
  · rintro rfl
    exact map_byteOf_map_unitOf _

/-- The segments between separators mean the same where they are read lossily. -/
theorem keepsMeaning_lossyName {segment : Segment} (units : IsUnits segment)
    (plain : '/' ∉ segment) : KeepsMeaning lossyName segment where
  separator := by
    intro mem
    have mark : separator ∈ segment.map byteOf :=
      (Text.Utf8.mark_mem_decodeLossy_iff (by decide)).1 mem
    have inside := List.mem_map_of_mem (f := unitOf) mark
    rw [map_unitOf_map_byteOf units] at inside
    exact plain inside
  empty := lossyName_eq_iff units (by decide)
  current := lossyName_eq_iff units (by decide)
  parent := lossyName_eq_iff units (by decide)

/-- A segment is read from the units in which it is written. -/
theorem lossyName_encodedName (segment : Segment) : lossyName (encodedName segment) = segment := by
  rw [lossyName, encodedName, map_byteOf_map_unitOf, Text.Utf8.decodeLossy_encode]

variable (path : OsPath)

/-- The segments of the units of a path. -/
theorem segments_units : path.units.segments = (path.bytes.splitOn separator).map (·.map unitOf) :=
  Sequence.splitOn_map unitOf_injective separator path.bytes

/-- The segments of the text of a path. -/
theorem segments_lossy : path.lossy.segments = (path.bytes.splitOn separator).map decodeLossy :=
  @Text.Utf8.splitOn_decodeLossy separator (by decide) path.bytes

/-- A text is read segment by segment. -/
theorem lossy_eq_respell : path.lossy = path.units.respell lossyName := by
  have whole : ['/'].intercalate path.lossy.segments = path.lossy.text :=
    List.intercalate_splitOn '/'
  have each : (path.bytes.splitOn separator).map (lossyName ∘ (·.map unitOf)) =
      (path.bytes.splitOn separator).map decodeLossy :=
    List.map_congr_left fun bytes _ => congrArg decodeLossy (map_byteOf_map_unitOf bytes)
  rw [Path.respell, segments_units, List.map_map, each, ← segments_lossy, whole]

/-- A text is written segment by segment. -/
theorem units_ofPath (path : Path) : (ofPath path).units = path.respell encodedName := by
  have whole : ['/'].intercalate (ofPath path).units.segments = (ofPath path).units.text :=
    List.intercalate_splitOn '/'
  have split : (encode path.text).splitOn separator = path.segments.map encode :=
    Text.Utf8.splitOn_encode (by decide) path.text
  rw [segments_units, ofPath, split, List.map_map] at whole
  exact congrArg Path.mk whole.symm

/-- The segments of a text of bytes mean the same where it is read lossily. -/
theorem keepsMeaning_units : ∀ segment ∈ path.units.segments, KeepsMeaning lossyName segment := by
  intro segment mem
  have plain := Path.separator_not_mem_of_mem_segments mem
  rw [segments_units] at mem
  obtain ⟨bytes, -, rfl⟩ := List.mem_map.1 mem
  exact keepsMeaning_lossyName (isUnits_map_unitOf bytes) plain

/-- The segments of a text mean the same where it is written in bytes. -/
theorem keepsMeaning_segments (path : Path) :
    ∀ segment ∈ path.segments, KeepsMeaning encodedName segment := fun _ mem =>
  keepsMeaning_encodedName (Path.separator_not_mem_of_mem_segments mem)

end Names

/-- A text is read from the bytes that it is written with. -/
theorem lossy_ofPath (path : Path) : (ofPath path).lossy = path :=
  congrArg Path.mk (Text.Utf8.decodeLossy_encode path.text)

/-- Different texts are written with different bytes. -/
theorem ofPath_injective : Function.Injective ofPath := Function.LeftInverse.injective lossy_ofPath

/-- A path is written with its own bytes exactly if these are UTF-8. -/
theorem ofPath_lossy_iff {path : OsPath} : ofPath path.lossy = path ↔ path.isText = true := by
  rw [isText, ← Text.Utf8.encode_decodeLossy_eq_iff]
  exact ⟨congrArg bytes, congrArg mk⟩

/-- Texts are UTF-8. -/
theorem isText_ofPath (path : Path) : (ofPath path).isText = true :=
  Text.Utf8.isWellFormed_encode path.text

/-- Of paths that are UTF-8, different ones have different texts. -/
theorem lossy_eq_iff {left right : OsPath} (leftText : left.isText = true)
    (rightText : right.isText = true) : left.lossy = right.lossy ↔ left = right := by
  constructor
  · intro same
    rw [← ofPath_lossy_iff.2 leftText, same, ofPath_lossy_iff.2 rightText]
  · exact congrArg lossy

/-- The byte of a backslash. -/
def backslash : UInt8 := 0x5C

/-- Without the byte of a backslash, the text holds none. -/
theorem backslash_not_mem_lossy {path : OsPath} (plain : backslash ∉ path.bytes) :
    '\\' ∉ path.lossy.text :=
  mt (@Text.Utf8.mark_mem_decodeLossy_iff backslash (by decide) path.bytes).1 plain

/-- A text is written without the byte of a backslash if it holds none. -/
theorem backslash_not_mem_ofPath_iff {path : Path} :
    backslash ∉ (ofPath path).bytes ↔ '\\' ∉ path.text :=
  not_congr (@Text.Utf8.mark_mem_encode_iff backslash (by decide) path.text)

/-- A path with the character of a byte among its units holds the byte. -/
theorem mem_units_iff {path : OsPath} {byte : UInt8} :
    unitOf byte ∈ path.units.text ↔ byte ∈ path.bytes :=
  List.mem_map_of_injective unitOf_injective

/-- The path is absolute and spelled normally. -/
def IsCanonical (path : OsPath) : Prop := path.units.IsCanonical

instance (path : OsPath) : Decidable path.IsCanonical :=
  inferInstanceAs (Decidable path.units.IsCanonical)

/-- A canonical path other than the root is a name behind a canonical path. -/
theorem IsCanonical.eq_root_or_join {path : OsPath} (canonical : path.IsCanonical) :
    path.units = ⟨['/']⟩ ∨ ∃ (dir : OsPath) (name : Segment), dir.IsCanonical ∧ IsUnits name ∧
      Path.NamesEntry name ∧ path.units = dir.units.join ⟨name⟩ := by
  rcases Path.IsCanonical.eq_root_or_join canonical with root | ⟨base, name, isDir, named, whole⟩
  · exact .inl root
  · have units : IsUnits (base.join ⟨name⟩).text := whole ▸ isUnits_map_unitOf path.bytes
    obtain ⟨unitsBase, unitsName⟩ := (isUnits_join_iff named.not_isAbsolute).1 units
    obtain ⟨dir, rfl⟩ : ∃ dir : OsPath, dir.units = base := ⟨_, units_ofUnits unitsBase⟩
    exact .inr ⟨dir, name, isDir, unitsName, named, whole⟩

/-- A name behind a canonical path in bytes is read where it stands. -/
theorem lossy_ofUnits_join {dir : OsPath} (canonical : dir.IsCanonical) {name : Segment}
    (units : IsUnits name) (named : Path.NamesEntry name) :
    (ofUnits (dir.units.join ⟨name⟩)).lossy = dir.lossy.join ⟨lossyName name⟩ := by
  have whole : IsUnits (dir.units.join ⟨name⟩).text :=
    (isUnits_join_iff named.not_isAbsolute).2 ⟨isUnits_map_unitOf dir.bytes, units⟩
  rw [lossy_eq_respell, units_ofUnits whole, Path.respell_join_name canonical named
    dir.keepsMeaning_units (keepsMeaning_lossyName units named.2.2) rfl, ← lossy_eq_respell]

section Resolved

variable {base path : OsPath}

/-- The text of a canonical path is canonical. -/
theorem IsCanonical.lossy (canonical : path.IsCanonical) : path.lossy.IsCanonical :=
  lossy_eq_respell path ▸ Path.IsCanonical.respell path.keepsMeaning_units canonical rfl

/-- A canonical text is a canonical path. -/
theorem isCanonical_ofPath {path : Path} (canonical : path.IsCanonical) :
    (ofPath path).IsCanonical := by
  rw [IsCanonical, units_ofPath]
  exact canonical.respell (keepsMeaning_segments path) rfl

/-- Whatever is resolved from a canonical base is canonical. -/
theorem isCanonical_absolutize (canonical : base.IsCanonical) (path : OsPath) :
    (base.absolutize path).IsCanonical := by
  rw [IsCanonical, units_absolutize canonical.absolute]
  exact Path.isCanonical_absolutize canonical.absolute path.units

/-- The text of a resolved path is resolved from that of the base. -/
theorem lossy_absolutize (canonical : base.IsCanonical) (path : OsPath) :
    (base.absolutize path).lossy = base.lossy.absolutize path.lossy := by
  rw [lossy_eq_respell, lossy_eq_respell base, lossy_eq_respell path,
    units_absolutize canonical.absolute]
  exact (Path.absolutize_respell base.keepsMeaning_units path.keepsMeaning_units
    canonical.absolute rfl).symm

/-- Texts are resolved in bytes as they are resolved as texts. -/
theorem absolutize_ofPath {base : Path} (canonical : base.IsCanonical) (path : Path) :
    (ofPath base).absolutize (ofPath path) = ofPath (base.absolutize path) := by
  apply units_injective
  rw [units_absolutize (isCanonical_ofPath canonical).absolute, units_ofPath, units_ofPath,
    units_ofPath]
  exact Path.absolutize_respell (keepsMeaning_segments base) (keepsMeaning_segments path)
    canonical.absolute rfl

end Resolved

section Stripped

variable {path root : OsPath}

/-- Below a base lies the text of what lies below it. -/
theorem startsWith_lossy (below : path.startsWith root = true) :
    path.lossy.startsWith root.lossy = true := by
  rw [lossy_eq_respell path, lossy_eq_respell root]
  exact Path.startsWith_respell root.keepsMeaning_units path.keepsMeaning_units below

/-- Below a base, the text of what is left behind it is what is left of the text. -/
theorem map_lossy_stripPrefix? (below : path.startsWith root = true) :
    (path.stripPrefix? root).map lossy = path.lossy.stripPrefix? root.lossy := by
  rw [lossy_eq_respell path, lossy_eq_respell root,
    Path.stripPrefix?_respell root.keepsMeaning_units path.keepsMeaning_units rfl rfl below,
    ← map_units_stripPrefix?, Option.map_map]
  exact congrArg (Option.map · _) (funext lossy_eq_respell)

/-- A path that does not lie below a base has nothing behind it. -/
theorem stripPrefix?_eq_none_iff :
    path.stripPrefix? root = none ↔ path.startsWith root = false := by
  rw [startsWith, ← Path.stripPrefix?_eq_none_iff, stripPrefix?, Option.map_eq_none_iff]

/-- A path below the root is shown as its text is. -/
theorem shownFrom_of_startsWith (below : path.startsWith root = true) :
    path.shownFrom root = path.lossy.shownFrom root.lossy := by
  rw [Path.shownFrom, Path.relativeTo?, ← map_lossy_stripPrefix? below, Option.map_map]
  rfl

/-- A path that does not lie below the root is shown by its whole text. -/
theorem shownFrom_of_not_startsWith (outside : path.startsWith root = false) :
    path.shownFrom root = path.lossy.shown := by
  rw [shownFrom, relativeTo?, stripPrefix?_eq_none_iff.2 outside]
  rfl

/-- Texts lie below each other in bytes as they do as texts. -/
theorem startsWith_ofPath (path root : Path) :
    (ofPath path).startsWith (ofPath root) = path.startsWith root := by
  rw [startsWith, units_ofPath, units_ofPath]
  exact Path.startsWith_respell_eq (keepsMeaning_segments root) (keepsMeaning_segments path)
    encodedName_injective

/-- Texts are shown in bytes as they are shown as texts. -/
theorem shownFrom_ofPath (path root : Path) :
    (ofPath path).shownFrom (ofPath root) = path.shownFrom root := by
  have same := startsWith_ofPath path root
  cases below : path.startsWith root with
  | true =>
    rw [shownFrom_of_startsWith (same.trans below), lossy_ofPath, lossy_ofPath]
  | false =>
    rw [shownFrom_of_not_startsWith (same.trans below), lossy_ofPath, Path.shownFrom,
      Path.relativeTo?, Path.stripPrefix?_eq_none_iff.2 below]
    rfl

end Stripped

end AssetUsage.OsPath
