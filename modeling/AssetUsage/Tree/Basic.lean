import AssetUsage.Path.Normal
import AssetUsage.Text.Utf8
import AssetUsage.Tree.Listing

/-!
# File trees

A file tree is the listing of its root directory, with the directory that relative paths start from
if there is one. A path is followed from the root, segment by segment, through directories that are
there: unlike normalising, which looks at the text alone, this fails for `x/..` when there is no
directory `x`. There are no links, so a place has one spelling, its canonical path.

Which file holds git's ignore rules for all repositories depends on the environment and on files of
its configuration, and is left open here: any function of the files may say so.
-/

namespace AssetUsage

/-- A file tree. -/
structure Tree where
  root : Listing
  /-- Every name can stand in a directory, and the names are in order at every level. -/
  wellFormed : root.WellFormed
  /-- The absolute path of the directory that relative paths start from. -/
  workingDir : Option Path
  /-- The path of git's global ignore file, by the environment and the files that configure git. -/
  globalIgnore : Listing → Option Path

/-- Why a path leads to no file, or to none that can be read. -/
inductive AccessError where
  | missing
  /-- A file is used as a directory. -/
  | notDirectory
  /-- A directory is used as a file. -/
  | isDirectory
  | tooLong
  | nulInPath
deriving DecidableEq, Repr

/-- The text of an error. -/
def AccessError.message : AccessError → List Char
  | .missing => "No such file or directory (os error 2)".toList
  | .notDirectory => "Not a directory (os error 20)".toList
  | .isDirectory => "Is a directory (os error 21)".toList
  | .tooLong => "File name too long (os error 36)".toList
  | .nulInPath => "file name contained an unexpected NUL byte".toList

namespace Tree

/-- The tree without any file, where git has no global ignore file. -/
def empty : Tree := ⟨.nil, trivial, none, fun _ => none⟩

/-- The tree whose relative paths start from a directory. -/
def enter (tree : Tree) (dir : Path) : Tree := { tree with workingDir := some dir }

/-- The entry at the end of a chain of names. -/
def entryAt? (tree : Tree) (names : List Segment) : Option Entry :=
  names.foldlM (fun entry name =>
    match entry with
    | .directory inner => inner.find? name
    | .file _ => none) (.directory tree.root)

/-- An entry of a tree is well formed. -/
theorem wellFormed_of_entryAt? {tree : Tree} {names : List Segment} {entry : Entry}
    (h : tree.entryAt? names = some entry) : entry.WellFormed := by
  have reached : ∀ (names : List Segment) (start : Entry), start.WellFormed →
      names.foldlM (fun entry name =>
        match entry with
        | .directory inner => inner.find? name
        | .file _ => none) start = some entry → entry.WellFormed := by
    intro names
    induction names with
    | nil =>
      intro start wellFormed same
      exact Option.some.inj same ▸ wellFormed
    | cons name more ih =>
      intro start wellFormed same
      rw [List.foldlM_cons] at same
      obtain ⟨next, found, others⟩ := Option.bind_eq_some_iff.1 same
      cases start with
      | file content => contradiction
      | directory inner => exact ih next (Listing.wellFormed_of_find? wellFormed found) others
  exact reached names (.directory tree.root) tree.wellFormed h

/-- The number of bytes above which a name is too long. -/
def nameLimit : Nat := 255

/-- The number of bytes from which on a path is too long. -/
def pathLimit : Nat := 4096

/-- The place that one more segment leads to from a place. -/
def follow (tree : Tree) (names : List Segment) (segment : Segment) :
    Except AccessError (List Segment) :=
  match tree.entryAt? names with
  | some (.directory inner) =>
    if !Path.isSignificant segment then .ok names
    else if segment = ['.', '.'] then .ok names.dropLast
    else if (Text.Utf8.encode segment).length > nameLimit then .error .tooLong
    else if (inner.find? segment).isSome then .ok (names ++ [segment])
    else .error .missing
  | some (.file _) => .error .notDirectory
  | none => .error .missing

/-- The segments that a path leads through from the root. A path that is empty leads nowhere, and so
does a relative one without a directory to start from. -/
def route (tree : Tree) (path : Path) : Except AccessError (List Segment) :=
  if '\x00' ∈ path.text then .error .nulInPath
  else if path.text = [] then .error .missing
  else if path.isAbsolute then .ok path.body
  else
    match tree.workingDir with
    | some dir => .ok (dir.join path).body
    | none => .error .missing

/-- The text is too long for a path. -/
def isTooLong (text : List Char) : Bool := (Text.Utf8.encode text).length ≥ pathLimit

/-- The names of the place that a path leads to, if the whole text of the path may be used. -/
def locate (tree : Tree) (path : Path) : Except AccessError (List Segment) := do
  let segments ← tree.route path
  if isTooLong path.text then .error .tooLong else segments.foldlM tree.follow []

/-- A path that leads somewhere is not empty. -/
theorem text_ne_nil_of_locate {tree : Tree} {path : Path} {names : List Segment}
    (h : tree.locate path = .ok names) : path.text ≠ [] := by
  intro empty
  simp [locate, route, empty, bind, Except.bind] at h

/-- The entry that a path leads to. -/
def find (tree : Tree) (path : Path) : Except AccessError Entry := do
  match tree.entryAt? (← tree.locate path) with
  | some entry => .ok entry
  | none => .error .missing

/-- The path leads to a file or a directory. -/
def contains (tree : Tree) (path : Path) : Bool := (tree.find path).isOk

/-- The path leads to a directory. -/
def isDirectory (tree : Tree) (path : Path) : Bool :=
  match tree.find path with
  | .ok (.directory _) => true
  | _ => false

/-- The place that one more segment leads to, if the canonical path of that place may be used. -/
def resolve (tree : Tree) (names : List Segment) (segment : Segment) :
    Except AccessError (List Segment) :=
  if Path.isSignificant segment && segment != ['.', '.'] &&
      isTooLong (Path.assemble .root (names ++ [segment])).text then .error .tooLong
  else tree.follow names segment

/-- The canonical spelling of the place that a path leads to. The path may have any length, because
only canonical paths on the way are used. -/
def canonical (tree : Tree) (path : Path) : Except AccessError Path := do
  return .assemble .root (← (← tree.route path).foldlM tree.resolve [])

/-- The tree with a file at the place that a path leads to by its text alone. -/
def write (tree : Tree) (path : Path) (content : Content) : Tree :=
  { tree with
    root := tree.root.write content path.placeNames
    wellFormed := Listing.wellFormed_write tree.wellFormed fun _ => Path.namesEntry_of_mem_place }

/-- The tree with a directory at the place that a path leads to by its text alone. -/
def makeDirectory (tree : Tree) (path : Path) : Tree :=
  { tree with
    root := tree.root.makeDirectories path.placeNames
    wellFormed :=
      Listing.wellFormed_makeDirectories tree.wellFormed fun _ => Path.namesEntry_of_mem_place }

/-- The tree without what is at the place that a path leads to by its text alone. -/
def remove (tree : Tree) (path : Path) : Tree :=
  { tree with
    root := tree.root.remove path.placeNames
    wellFormed := Listing.wellFormed_remove tree.wellFormed fun _ => Path.namesEntry_of_mem_place }

end Tree

end AssetUsage
