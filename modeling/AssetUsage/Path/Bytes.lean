import AssetUsage.Path.Name
import AssetUsage.Path.Normal
import AssetUsage.Text.Utf8

/-!
# Paths in bytes

The file system knows a path as bytes, which need not be UTF-8. Separators and dots are single
bytes, so such a path has the segments and components of the text with one character for each byte
(`units`), and paths in bytes are joined, normalised and stripped as these texts are. Where a path
becomes a text, for output or to be compared with a logical path, U+FFFD stands for whatever is not
UTF-8, so different paths may become the same text.
-/

namespace AssetUsage

/-- A path as the file system knows it. -/
structure OsPath where
  /-- The bytes of the path. -/
  bytes : List UInt8
deriving DecidableEq, Repr

namespace OsPath

/-- The path whose text is UTF-8. -/
def ofPath (path : Path) : OsPath := ⟨Text.Utf8.encode path.text⟩

/-- The text of the path, with U+FFFD for every stretch of bytes that is not UTF-8. -/
def lossy (path : OsPath) : Path := ⟨Text.Utf8.decodeLossy path.bytes⟩

/-- The bytes of the path are UTF-8. -/
def isText (path : OsPath) : Bool := Text.Utf8.isWellFormed path.bytes

/-- The character with the number of a byte. -/
def unitOf (byte : UInt8) : Char := Char.ofNat byte.toNat

/-- The byte with the number of a character. -/
def byteOf (unit : Char) : UInt8 := UInt8.ofNat unit.toNat

/-- The text with one character for each byte. -/
def units (path : OsPath) : Path := ⟨path.bytes.map unitOf⟩

/-- The path with one byte for each character. -/
def ofUnits (path : Path) : OsPath := ⟨path.text.map byteOf⟩

/-- The path is the base or lies below it, component by component. -/
def startsWith (path base : OsPath) : Bool := path.units.startsWith base.units

/-- What is left of a path behind a base. -/
def stripPrefix? (path base : OsPath) : Option OsPath :=
  (path.units.stripPrefix? base.units).map ofUnits

/-- The normal form of a path that is relative to a base. -/
def absolutize (base path : OsPath) : OsPath := ofUnits (base.units.absolutize path.units)

/-- The text of a path with every backslash turned into a separator. -/
def shown (path : OsPath) : List Char := path.lossy.shown

/-- The shown text of a path relative to a root that it lies below. -/
def relativeTo? (path root : OsPath) : Option (List Char) := (path.stripPrefix? root).map shown

/-- The shown text of a path, relative to the root where possible. -/
def shownFrom (path root : OsPath) : List Char := (path.relativeTo? root).getD path.shown

/-- The text by which output shows a target that is relative to a root. -/
def displayed (root target : OsPath) : List Char := (root.absolutize target).shownFrom root

/-- The text of the path is that of the logical one, or continues it with `.`. -/
def namedBy (path logical : OsPath) : Bool := path.lossy.namedBy logical.lossy

/-- The path of a partial: the text of its last component stands behind `_`. -/
def underscored? (path : OsPath) : Option OsPath := do
  let name ← path.units.fileName?
  let parent ← path.units.parent?
  let partialName := ofPath ⟨'_' :: (ofUnits ⟨name⟩).lossy.text⟩
  return ofUnits (parent.join partialName.units).normalize

end OsPath

end AssetUsage
