import AssetUsage.Ignore.Machine
import AssetUsage.Ignore.Pattern
import AssetUsage.Text.Basic

/-!
# Lists of globs

The globs of a list hold together or not at all. A glob that is a plain name, path or extension
needs no pattern. One that names an extension has a pattern and a machine for itself, made before
all others; the others have one machine for all their patterns. A pattern that nests too deeply or a
machine that grows too large is a fault of the whole list.
-/

namespace AssetUsage.Ignore

/-- The token is a character that stands for itself and is none of the excepted ones. -/
def GlobToken.isLiteral (excepted : List Char) : GlobToken → Bool
  | .literal c => !excepted.contains c
  | _ => false

/-- The glob needs no pattern: it is a path, a path or a name at any depth, or an extension. -/
def isPlainGlob : List GlobToken → Bool
  | [] | [.anyNamesFirst] => false
  | .anyNamesFirst :: .anyInName :: .literal '.' :: extension =>
    extension.all (·.isLiteral ['.', '/'])
  | .anyNamesFirst :: tokens | tokens => tokens.all (·.isLiteral [])

/-- The paths that the glob matches have an extension that it names. -/
def namesExtension (glob : List GlobToken) : Bool :=
  match glob.reverse.dropWhile (·.isLiteral ['.', '/']) with
  | .literal '.' :: _ => true
  | _ => false

/-- Why there is no machine for some patterns. -/
inductive MachineFault where
  /-- The pattern at a place among them nests too deeply. -/
  | nesting (index : Nat)
  | size
deriving DecidableEq, Repr

/-- The text of a fault. -/
def MachineFault.message : MachineFault → List Char
  | .nesting index => "error parsing pattern ".toList ++ Text.decimal index
  | .size => "error building NFA".toList

/-- What is wrong with a machine for some globs. Nesting is looked at before the size. -/
def machineFault? (globs : List (List GlobToken)) : Option MachineFault :=
  match globs.findIdx? nestsTooDeep with
  | some index => some (.nesting index)
  | none => if Machine.size globs > Machine.sizeLimit then some .size else none

/-- What is wrong with a list of globs. -/
inductive GlobListFault where
  | alone (pattern : List Char) (fault : MachineFault)
  | together (fault : MachineFault)
deriving DecidableEq, Repr

/-- The text of a fault. -/
def GlobListFault.message : GlobListFault → List Char
  | .alone pattern fault =>
    "error parsing glob '".toList ++ pattern ++ "': ".toList ++ fault.message
  | .together fault => fault.message

/-- What is wrong with the pattern of one glob. -/
def globFault? (glob : List GlobToken) : Option GlobListFault :=
  (machineFault? [glob]).map (.alone (globPattern glob))

/-- The first fault of a list of globs. -/
def globListFault? (globs : List (List GlobToken)) : Option GlobListFault :=
  let (extensions, others) := (globs.filter (!isPlainGlob ·)).partition namesExtension
  (extensions.findSome? globFault?).or ((machineFault? others).map .together)

end AssetUsage.Ignore
