import AssetUsage.Path.Basic

/-!
# File names and shown paths

A file name may carry several extensions, each behind a `.`; a leading `.` starts no extension. A
*logical* path leaves them out: it names every file whose path continues it with `.`. In output a
path stands with `/` in the place of every `\`, and relative to the root directory when it lies
below it.
-/

namespace AssetUsage.Path

/-- The extension of a file name: what follows its last `.`, if that is not its first character. -/
def extensionOfName (name : Segment) : Option (List Char) :=
  let reversed := name.reverse
  match reversed.dropWhile (· != '.') with
  | '.' :: _ :: _ => some (reversed.takeWhile (· != '.')).reverse
  | _ => none

/-- The last extension of the path, in lower case. -/
def extension? (path : Path) : Option (List Char) :=
  path.fileName?.bind fun name => (extensionOfName name).map (·.map Char.toLower)

/-- A file name up to its first `.`; a name that starts with `.` is its own stem. -/
def stemOfName (name : Segment) : List Char :=
  if name.head? = some '.' then name else name.takeWhile (· != '.')

/-- The stem of the file name, empty for a path without a file name. -/
def stem (path : Path) : List Char := stemOfName (path.fileName?.getD [])

/-- The path with the stem in the place of its last component. -/
def withoutExtensions (path : Path) : Path :=
  match path.parent? with
  | some parent => parent.join ⟨path.stem⟩
  | none => ⟨path.stem⟩

/-- The path is the logical one, or continues its text with `.`. -/
def namedBy (path logical : Path) : Bool :=
  match logical.text.isPrefixOf? path.text with
  | some rest => rest = [] || rest.head? = some '.'
  | none => false

/-- The text of a path with every backslash turned into a separator. -/
def shown (path : Path) : List Char := path.text.map fun c => if c = '\\' then '/' else c

/-- The shown text of a path relative to a root that it lies below. -/
def relativeTo? (path root : Path) : Option (List Char) := (path.stripPrefix? root).map shown

/-- The shown text of a path, relative to the root where possible. -/
def shownFrom (path root : Path) : List Char := (path.relativeTo? root).getD path.shown

end AssetUsage.Path
