import AssetUsage.Ignore.GlobList
import AssetUsage.Ignore.GlobReader
import AssetUsage.Tree.Basic

/-!
# Problems of ignore files

What is wrong in an ignore file does not stop a scan: what can be used of the file is used, and the
problem is reported. A text tells the place of a problem in front of its cause.
-/

namespace AssetUsage.Ignore

/-- Why lines cannot be read from a file. -/
inductive ReadFault where
  | notUtf8
  /-- There are no lines. -/
  | access (error : AccessError)
deriving DecidableEq, Repr

/-- The text of a fault. -/
def ReadFault.message : ReadFault → List Char
  | .notUtf8 => "stream did not contain valid UTF-8".toList
  | .access error => error.message

/-- Why a line of an ignore file holds no rule. -/
inductive LineFault where
  | glob (rule : List Char) (error : GlobError)
  | notUtf8
deriving DecidableEq, Repr

/-- The text of a fault. -/
def LineFault.message : LineFault → List Char
  | .glob rule error => "error parsing glob '".toList ++ rule ++ "': ".toList ++ error.message
  | .notUtf8 => ReadFault.notUtf8.message

/-- What is wrong in an ignore file, or on the way to one. -/
inductive Problem where
  | line (file : Path) (number : Nat) (fault : LineFault)
  /-- A file that leads to an ignore file cannot be read. -/
  | link (file : Path) (fault : ReadFault)
  /-- The globs of the rules have a fault, and none of the rules holds. -/
  | globs (fault : GlobListFault)
deriving DecidableEq, Repr

/-- The text of a problem. -/
def Problem.message : Problem → List Char
  | .line file number fault =>
    file.text ++ ": line ".toList ++ Text.decimal number ++ ": ".toList ++ fault.message
  | .link file fault => file.text ++ ": ".toList ++ fault.message
  | .globs fault => fault.message

end AssetUsage.Ignore
