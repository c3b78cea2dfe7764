import AssetUsage.Ignore.Glob

/-!
# Patterns of globs

The pattern of a glob is a regular expression on the bytes of a path. Its parts may lie inside each
other only up to a limit.
-/

namespace AssetUsage.Ignore

/-- The characters that stand for themselves in a pattern only behind a backslash. -/
def patternMarks : List Char := "\\.+*?()|[]\x7b\x7d^$#&-~".toList

/-- The pattern of one byte, a pair of hexadecimal digits beyond ASCII. -/
def bytePattern (byte : UInt8) : List Char :=
  if byte < 0x80 then
    let c := Char.ofNat byte.toNat
    if patternMarks.contains c then ['\\', c] else [c]
  else '\\' :: 'x' :: Nat.toDigits 16 byte.toNat

/-- The pattern of a character, byte by byte. -/
def charPattern (c : Char) : List Char := (String.utf8EncodeChar c).flatMap bytePattern

/-- The pattern of a range inside a set. -/
def rangePattern (range : Char × Char) : List Char :=
  if range.1 = range.2 then charPattern range.1
  else charPattern range.1 ++ '-' :: charPattern range.2

mutual

/-- The pattern of a token; a void token has none. -/
def GlobToken.pattern : GlobToken → List Char
  | .literal c => charPattern c
  | .anyByte => "[^/]".toList
  | .anyInName => "[^/]*".toList
  | .anyNamesFirst => "(?:/?|.*/)".toList
  | .anyNamesLast => "/.*".toList
  | .anyNamesBetween => "(?:/|/.*/)".toList
  | .oneOf negated ranges =>
    '[' :: (if negated then ['^'] else []) ++ ranges.flatMap rangePattern ++ [']']
  | .choice branches =>
    if areAllVoid branches then []
    else "(?:".toList ++ ['|'].intercalate (branchPatterns branches) ++ [')']

/-- The patterns of tokens one after the other. -/
def tokensPattern : List GlobToken → List Char
  | [] => []
  | token :: tokens => token.pattern ++ tokensPattern tokens

/-- The patterns of the branches that are not void. -/
def branchPatterns : List (List GlobToken) → List (List Char)
  | [] => []
  | branch :: branches =>
    if isVoidGlob branch then branchPatterns branches
    else tokensPattern branch :: branchPatterns branches

end

/-- The pattern of a glob, for a whole path as bytes. -/
def globPattern (glob : List GlobToken) : List Char :=
  let inner := match glob with
    | [.anyNamesFirst] => ".*".toList
    | _ => tokensPattern glob
  "(?-u)^".toList ++ inner ++ ['$']

/-- The number of members that a range adds to a set of bytes. -/
def rangeMembers (range : Char × Char) : Nat :=
  let first := (String.utf8EncodeChar range.1).length
  if range.1 = range.2 then first else first + (String.utf8EncodeChar range.2).length - 1

/-- The number of parts that a token adds to a sequence. -/
def GlobToken.parts : GlobToken → Nat
  | .literal c => (String.utf8EncodeChar c).length
  | .anyNamesLast => 2
  | token => if token.isVoid then 0 else 1

/-- The levels that a sequence of parts has of its own: one part is no sequence. -/
def sequenceNesting (glob : List GlobToken) : Nat :=
  if glob.foldr (fun token count => token.parts + count) 0 ≤ 1 then 0 else 1

/-- The levels that a choice has of its own: a group, and the choice itself if there is one. -/
def choiceNesting (branches : List (List GlobToken)) : Nat :=
  match branches.filter (!isVoidGlob ·) with
  | [] => 0
  | [_] => 1
  | _ => 2

mutual

/-- How many levels of the pattern of a token lie inside each other. A repetition, a set of bytes
and a union of members of a set are levels too. -/
def GlobToken.nesting : GlobToken → Nat
  | .literal _ => 0
  | .anyByte | .anyNamesLast => 1
  | .anyInName => 2
  | .anyNamesFirst | .anyNamesBetween => 4
  | .oneOf _ ranges =>
    if ranges.foldr (fun range count => rangeMembers range + count) 0 ≤ 1 then 1 else 2
  | .choice branches => choiceNesting branches + branchesNesting branches

/-- The levels of the deepest token. -/
def tokensNesting : List GlobToken → Nat
  | [] => 0
  | token :: tokens => max token.nesting (tokensNesting tokens)

/-- The levels of the deepest branch. -/
def branchesNesting : List (List GlobToken) → Nat
  | [] => 0
  | branch :: branches =>
    max (sequenceNesting branch + tokensNesting branch) (branchesNesting branches)

end

/-- The number of levels that may lie inside each other. -/
def nestingLimit : Nat := 250

/-- The pattern of the glob, itself a sequence, has too many levels. -/
def nestsTooDeep (glob : List GlobToken) : Bool := 1 + tokensNesting glob > nestingLimit

end AssetUsage.Ignore
