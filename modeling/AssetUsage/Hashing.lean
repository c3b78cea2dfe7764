import AssetUsage.Text.Utf8
import AssetUsage.Usage

/-!
# What usages are hashed by

A usage is fed to a hasher as its file and then the number of its line; the text of the line has no
part in it. A path is not taken apart into components for that: its text is read once, and each run
of characters between separators is fed as a chunk, without a `.` behind a separator, which names
nothing. A word at the end tells paths apart whose chunks join to the same bytes.
-/

namespace AssetUsage

/-- What a hasher is fed in one step. -/
inductive Fed where
  | bytes (bytes : List UInt8)
  | word (word : BitVec 64)
  | line (number : Nat)
deriving DecidableEq, Repr, Hashable

/-- The hash of everything that has been fed, in this order. -/
abbrev Hasher := List Fed → UInt64

namespace Path

/-- A text that follows a separator starts with a `.` that stands alone. -/
def startsWithCurrent : List Char → Bool
  | ['.'] => true
  | '.' :: '/' :: _ => true
  | _ => false

/-- The chunk that ends here, if it has any characters. -/
def completed (chunk : Segment) : List Segment := if chunk = [] then [] else [chunk]

/-- The chunks of a text, where `chunk` has been read in front of it. The first character of the
text is passed over if `skips` says so. -/
def chunksFrom (chunk : Segment) (skips : Bool) : List Char → List Segment
  | [] => completed chunk
  | c :: rest =>
    if skips then chunksFrom chunk false rest
    else if c = '/' then completed chunk ++ chunksFrom [] (startsWithCurrent rest) rest
    else chunksFrom (chunk ++ [c]) false rest

/-- The chunks of the path's text. -/
def chunks (path : Path) : List Segment := chunksFrom [] false path.text

/-- The lengths of chunks in one word: each is added, and the sum is turned to the right by two
bits. -/
def lengthWord (chunks : List (List UInt8)) : BitVec 64 :=
  chunks.foldl (fun word chunk => (word + BitVec.ofNat 64 chunk.length).rotateRight 2) 0

/-- What a hasher is fed for the path: each chunk, and the word of their lengths. -/
def fed (path : Path) : List Fed :=
  let encoded := path.chunks.map Text.Utf8.encode
  encoded.map .bytes ++ [.word (lengthWord encoded)]

end Path

namespace Usage

/-- What a hasher is fed for the usage. -/
def fed (usage : Usage) : List Fed := usage.file.fed ++ [.line usage.line]

/-- Usages are hashed by what the hasher is fed for them. -/
abbrev hashable (hasher : Hasher) : Hashable Usage := ⟨fun usage => hasher usage.fed⟩

end Usage

end AssetUsage
