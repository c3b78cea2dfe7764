import AssetUsage.Ignore.Level
import AssetUsage.Path.Name
import AssetUsage.Tree.Reading

/-!
# Candidates of a scan

The candidates below a root are its files with certain extensions, in the order of a walk that goes
through each directory by name and into every directory where it stands. Directories of version
control are passed over, and so is what ignore files say, if they are respected.
-/

namespace AssetUsage

/-- How a scan goes. -/
structure ScanOptions where
  respectIgnore : Bool := true
  /-- The texts of lines are kept; otherwise they are read again when they are asked for. -/
  captureText : Bool := true
  /-- The number of bytes up to which files are read. -/
  sizeLimit : Nat := defaultSizeLimit
deriving DecidableEq, Repr

namespace Scan

/-- Names of directories in which version control keeps its data. -/
def versionControlNames : List Segment := [".git", ".svn", ".hg"].map String.toList

/-- The file name has one of the extensions. -/
def hasExtension (extensions : List (List Char)) (name : Segment) : Bool :=
  ((Path.extensionOfName name).map (·.map Char.toLower)).any extensions.contains

/-- The names on the way to every candidate in a directory, given by the names on the way to it,
its listing and the ignore files that hold there. -/
def walk (tree : Tree) (extensions : List (List Char)) (respectIgnore : Bool)
    (names : List Segment) (levels : List Ignore.Level) : Listing → List (List Segment)
  | .nil => []
  | .file name _ rest =>
    let others := walk tree extensions respectIgnore names levels rest
    if hasExtension extensions name && !Ignore.isIgnored levels (names ++ [name]) false then
      (names ++ [name]) :: others
    else others
  | .directory name inner rest =>
    let others := walk tree extensions respectIgnore names levels rest
    if versionControlNames.contains name || Ignore.isIgnored levels (names ++ [name]) true then
      others
    else
      let below :=
        if respectIgnore then Ignore.Level.of tree (names ++ [name]) :: levels else []
      walk tree extensions respectIgnore (names ++ [name]) below inner ++ others

/-- The candidates below a root. -/
def candidates (tree : Tree) (root : Path) (extensions : List (List Char))
    (respectIgnore : Bool) : List Path :=
  match tree.locate root with
  | .error _ => []
  | .ok names =>
    match tree.entryAt? names with
    | some (.directory listing) =>
      let levels := if respectIgnore then Ignore.levelsAt tree names else []
      (walk tree extensions respectIgnore names levels listing).map fun found =>
        root.join ⟨['/'].intercalate (found.drop names.length)⟩
    | _ => []

/-- What is wrong with the ignore files above a root, as far as they are respected. -/
def problemsAbove (tree : Tree) (root : Path) (respectIgnore : Bool) : List Ignore.Problem :=
  match tree.locate root with
  | .ok names => if respectIgnore then Ignore.problemsAbove tree names else []
  | .error _ => []

end Scan

end AssetUsage
