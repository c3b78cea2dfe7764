import AssetUsage.Ignore.Problem
import AssetUsage.Text.Basic
import AssetUsage.Text.Lines

/-!
# Exclude files

The exclude file of a directory lies in its `.git` directory. Where `.git` is a file, it names the
data directory of a worktree, whose file `commondir` names the directory that several worktrees
share, and the exclude file lies there.
-/

namespace AssetUsage.Ignore

/-- The first line of a file, if it has one. -/
def firstLine? (file : Path) (content : Content) : Except Problem (Option (List Char)) :=
  let read := Text.SoundLines.read content.data.toList
  match read.lines with
  | first :: _ => .ok (some first)
  | [] => if read.broken then .error (.link file .notUtf8) else .ok none

/-- What a worktree's `.git` file has in front of the path of the data directory. -/
def dataDirMark : List Char := "gitdir: ".toList

/-- The directory that a line of `commondir` names; what starts with `.` is relative to the data
directory. -/
def commonDir (dataDir : Path) (line : List Char) : Path :=
  if line.head? = some '.' then dataDir.join ⟨line⟩ else ⟨line⟩

/-- The directory that the worktree with a data directory shares, if it names one. -/
def commonDir? (tree : Tree) (dataDir : Path) : Except Problem (Option Path) :=
  let file := dataDir.join (.ofString "commondir")
  match tree.find file with
  | .error _ => .ok none
  | .ok (.directory _) => .error (.link file (.access .isDirectory))
  | .ok (.file content) => return (← firstLine? file content).map (commonDir dataDir)

/-- The directory with the version control data that hold for a directory. -/
def controlDir? (tree : Tree) (dir : Path) : Except Problem (Option Path) := do
  let place := dir.join (.ofString ".git")
  match tree.find place with
  | .ok (.file content) =>
    match (← firstLine? place content).bind dataDirMark.isPrefixOf? with
    | some dataDir => commonDir? tree ⟨dataDir⟩
    | none => return none
  | _ => return some place

/-- The exclude file of a directory, which need not be there. -/
def excludeFile? (tree : Tree) (dir : Path) : Except Problem (Option Path) :=
  return (← controlDir? tree dir).map (·.join (.ofString "info/exclude"))

end AssetUsage.Ignore
