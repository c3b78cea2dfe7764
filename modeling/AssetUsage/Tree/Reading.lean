import AssetUsage.Text.Basic
import AssetUsage.Text.Lines
import AssetUsage.Tree.Basic

/-!
# Reading files as text

A file is read unless it is larger than a limit or looks binary, which it does when a zero byte is
among its first ones. What is not UTF-8 in it is replaced, and the reader is told so.
-/

namespace AssetUsage

/-- Why a file was not read. -/
inductive SkipReason where
  | unreadable (cause : List Char)
  | tooLarge (size : Nat)
  | binary
deriving DecidableEq, Repr

/-- The text of a reason. -/
def SkipReason.message : SkipReason → List Char
  | .unreadable cause => "cannot read file: ".toList ++ cause
  | .tooLarge size => "file too large (".toList ++ Text.decimal size ++ " bytes)".toList
  | .binary => "binary file".toList

/-- The text of a file. -/
structure FileText where
  content : List Char
  /-- Some of them stand for bytes that are not UTF-8. -/
  lossy : Bool
deriving DecidableEq, Repr

/-- The number of bytes that are searched for a zero byte. -/
def binaryWindow : Nat := 8192

/-- The number of bytes up to which files are read. -/
def defaultSizeLimit : Nat := 16 * 1024 * 1024

/-- The number of bytes of a directory. -/
def directorySize : Nat := 4096

/-- The file looks binary. -/
def Content.isBinary (content : Content) : Bool := (content.extract 0 binaryWindow).data.contains 0

/-- A content without zero bytes does not look binary. -/
theorem Content.isBinary_eq_false_of_forall_ne {content : Content}
    (nonzero : ∀ byte ∈ content.data, byte ≠ 0) : content.isBinary = false := by
  refine Bool.eq_false_iff.2 fun zero => ?_
  rw [isBinary, Array.contains_iff_mem, ByteArray.data_extract] at zero
  obtain ⟨index, bound, same⟩ := Array.mem_extract_iff_getElem.1 zero
  exact nonzero 0 (same ▸ Array.getElem_mem _) rfl

/-- The text of a file that does not look binary. -/
def Content.text (content : Content) : FileText :=
  let bytes := content.data.toList
  ⟨Text.Utf8.decodeLossy bytes, !Text.Utf8.isWellFormed bytes⟩

/-- A file read under a limit on its size. -/
def Content.read (content : Content) (sizeLimit : Nat) : Except SkipReason FileText :=
  if content.size > sizeLimit then .error (.tooLarge content.size)
  else if content.isBinary then .error .binary
  else .ok content.text

/-- A directory read under a limit on its size, which is that of one block. -/
def readDirectory (sizeLimit : Nat) : SkipReason :=
  if directorySize > sizeLimit then .tooLarge directorySize
  else .unreadable AccessError.isDirectory.message

namespace Tree

/-- The file at a path, read under a limit on its size. -/
def readText (tree : Tree) (path : Path) (sizeLimit : Nat) : Except SkipReason FileText :=
  match tree.find path with
  | .error error => .error (.unreadable error.message)
  | .ok (.directory _) => .error (readDirectory sizeLimit)
  | .ok (.file content) => content.read sizeLimit

/-- A line of the file at a path, counted from 1, if the file is read and has that line. -/
def readLine? (tree : Tree) (path : Path) (number : Nat) : Option (List Char) :=
  match number, tree.readText path defaultSizeLimit with
  | index + 1, .ok text => (Text.lines text.content)[index]?
  | _, _ => none

end Tree

end AssetUsage
