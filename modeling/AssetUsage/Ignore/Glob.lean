import AssetUsage.Text.Utf8

/-!
# Globs

A glob describes paths whose names are separated by `/`. It is matched against the bytes of a path
as a whole: `?` and `*` stay inside one name, `**` between separators crosses them, a set in
brackets takes one byte of any kind, and braces hold alternatives. Matching keeps the list of what
the glob can leave of the path; the glob matches if it can leave nothing.
-/

namespace AssetUsage.Ignore

/-- A part of a glob. -/
inductive GlobToken where
  /-- A character that stands for itself. -/
  | literal (c : Char)
  /-- One byte of a name. -/
  | anyByte
  /-- Any part of a name. -/
  | anyInName
  /-- Any number of names at the start of the path. -/
  | anyNamesFirst
  /-- A separator and anything behind it. -/
  | anyNamesLast
  /-- A separator, or any number of names between two separators. -/
  | anyNamesBetween
  /-- One byte of some ranges of characters, or one byte outside them. -/
  | oneOf (negated : Bool) (ranges : List (Char × Char))
  /-- Any of several globs. -/
  | choice (branches : List (List GlobToken))

/-- The byte that separates names. -/
def separatorByte : UInt8 := 0x2F

/-- The ends of the text behind each separator. -/
def behindSeparators : List UInt8 → List (List UInt8)
  | [] => []
  | byte :: rest =>
    if byte = separatorByte then rest :: behindSeparators rest else behindSeparators rest

/-- All ends of a text, the text itself first. -/
def ends : List UInt8 → List (List UInt8)
  | [] => [[]]
  | byte :: rest => (byte :: rest) :: ends rest

/-- The ends of a text that start in its first name. -/
def endsInName : List UInt8 → List (List UInt8)
  | [] => [[]]
  | byte :: rest =>
    (byte :: rest) :: if byte = separatorByte then [] else endsInName rest

/-- The byte is one of the bytes of a range of characters. Of the characters at the two ends the
bytes next to each other bound a range of bytes, and all others stand for themselves. -/
def inByteRange (range : Char × Char) (byte : UInt8) : Bool :=
  let first := String.utf8EncodeChar range.1
  let last := String.utf8EncodeChar range.2
  if range.1 = range.2 then first.contains byte
  else
    first.dropLast.contains byte || last.tail.contains byte ||
      first.getLast?.any (· ≤ byte) && last.head?.any (byte ≤ ·)

/-- The byte is one of the ranges, or none of them if the set is negated. -/
def inByteSet (negated : Bool) (ranges : List (Char × Char)) (byte : UInt8) : Bool :=
  (ranges.any (inByteRange · byte)) != negated

/-- What a text leaves behind its first byte, if that is accepted. -/
def restOfByte (accepts : UInt8 → Bool) : List UInt8 → Option (List UInt8)
  | [] => none
  | byte :: rest => if accepts byte then some rest else none

mutual

/-- The token matches nothing but the empty text, because it holds no part that could match more. -/
def GlobToken.isVoid : GlobToken → Bool
  | .choice branches => areAllVoid branches
  | _ => false

/-- All tokens of a glob are void. -/
def isVoidGlob : List GlobToken → Bool
  | [] => true
  | token :: tokens => token.isVoid && isVoidGlob tokens

/-- All branches are void. -/
def areAllVoid : List (List GlobToken) → Bool
  | [] => true
  | branch :: branches => isVoidGlob branch && areAllVoid branches

end

mutual

/-- What a token can leave of some texts. Void branches of a choice do not count unless there are no
others. -/
def GlobToken.rests : GlobToken → List (List UInt8) → List (List UInt8)
  | .literal c, texts => texts.filterMap (String.utf8EncodeChar c).isPrefixOf?
  | .anyByte, texts => texts.filterMap (restOfByte (· != separatorByte))
  | .anyInName, texts => texts.flatMap endsInName
  | .anyNamesFirst, texts => texts.flatMap fun text => text :: behindSeparators text
  | .anyNamesLast, texts =>
    (texts.filterMap (restOfByte (· == separatorByte))).flatMap ends
  | .anyNamesBetween, texts =>
    (texts.filter (·.head? == some separatorByte)).flatMap behindSeparators
  | .oneOf negated ranges, texts =>
    texts.filterMap (restOfByte (inByteSet negated ranges))
  | .choice branches, texts => if areAllVoid branches then texts else restsOfBranches branches texts

/-- What a glob can leave of some texts. Texts that are left in several ways are kept once, so that
there are never more of them than ends of the texts. -/
def restsOfGlob : List GlobToken → List (List UInt8) → List (List UInt8)
  | [], texts => texts
  | token :: tokens, texts => restsOfGlob tokens (token.rests texts).eraseDups

/-- What the branches that are not void can leave of some texts. -/
def restsOfBranches : List (List GlobToken) → List (List UInt8) → List (List UInt8)
  | [], _ => []
  | branch :: branches, texts =>
    (if isVoidGlob branch then [] else restsOfGlob branch texts) ++ restsOfBranches branches texts

end

/-- The glob matches the whole path. A glob of nothing but any names at the start matches every
path. -/
def matchesGlob (glob : List GlobToken) (path : List UInt8) : Bool :=
  match glob with
  | [.anyNamesFirst] => true
  | _ => (restsOfGlob glob [path]).contains []

end AssetUsage.Ignore
