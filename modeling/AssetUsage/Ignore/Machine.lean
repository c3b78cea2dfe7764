import AssetUsage.Ignore.Glob

/-!
# Machines of globs

The pattern of a glob is run by a machine whose states read one byte each or join others. A state
takes room, and a machine may have only so much of it.
-/

namespace AssetUsage.Ignore.Machine

/-- The bytes that a state takes. -/
def stateSize : Nat := 32

/-- The bytes of a part that reads one byte out of some ranges of bytes. -/
def byteSetSize (ranges : Nat) : Nat := 2 * stateSize + 8 * ranges

/-- The bytes of the states that lead into several parts and out of them. -/
def joinSize (parts : Nat) : Nat := if parts ≤ 1 then 0 else 2 * stateSize + 4 * parts

/-- The bytes of the state that leads into a part again and again. -/
def loopSize : Nat := stateSize + 2 * 4

/-- The number of ranges of neighbouring bytes that are accepted. -/
def acceptedRanges (accepts : UInt8 → Bool) : Nat :=
  let bytes := (List.range 256).map fun b => accepts (UInt8.ofNat b)
  ((false :: bytes).zip bytes).count (false, true)

/-- The bytes of a part that reads one byte: a single state if it reads no other byte. -/
def byteSize (accepts : UInt8 → Bool) : Nat :=
  if ((List.range 256).countP fun b => accepts (UInt8.ofNat b)) = 1 then stateSize
  else byteSetSize (acceptedRanges accepts)

/-- The byte of a branch that is one ASCII character. -/
def asciiByte? : List GlobToken → Option UInt8
  | [.literal c] => if c.toNat < 0x80 then some (UInt8.ofNat c.toNat) else none
  | _ => none

mutual

/-- The bytes of the states of a token. Branches that are one byte each are read as a set. -/
def tokenSize : GlobToken → Nat
  | .literal c => stateSize * (String.utf8EncodeChar c).length
  | .anyByte => byteSetSize 2
  | .anyInName => loopSize + byteSetSize 2
  | .anyNamesFirst =>
    joinSize 2 + (2 * stateSize + 2 * 4 + stateSize) + (loopSize + byteSetSize 1 + stateSize)
  | .anyNamesLast => stateSize + loopSize + byteSetSize 1
  | .anyNamesBetween => joinSize 2 + stateSize + (2 * stateSize + loopSize + byteSetSize 1)
  | .oneOf negated ranges => byteSize (inByteSet negated ranges)
  | .choice branches =>
    let solid := branches.filter (!isVoidGlob ·)
    match solid.mapM asciiByte? with
    | some bytes => if bytes.isEmpty then 0 else byteSize bytes.contains
    | none => joinSize solid.length + branchesSize branches

/-- The bytes of the states of tokens one after the other. -/
def tokensSize : List GlobToken → Nat
  | [] => 0
  | token :: tokens => tokenSize token + tokensSize tokens

/-- The bytes of the states of all branches. -/
def branchesSize : List (List GlobToken) → Nat
  | [] => 0
  | branch :: branches => tokensSize branch + branchesSize branches

end

/-- The bytes of the states of a glob as a whole: two mark the span of a match, two its borders, and
one that there is a match. -/
def globSize (glob : List GlobToken) : Nat := 5 * stateSize + tokensSize glob

/-- The bytes of a machine that runs several globs together, with its first state. -/
def size (globs : List (List GlobToken)) : Nat :=
  stateSize + joinSize globs.length + globs.foldr (fun glob bytes => globSize glob + bytes) 0

/-- The bytes that a machine may have. -/
def sizeLimit : Nat := 10 * 1024 * 1024

end AssetUsage.Ignore.Machine
