/-!
# Reading UTF-8

Bytes are read as UTF-8 one at a time. What is not part of a well-formed character is malformed: a
byte that cannot start a character, and the start of a character that breaks off, each for itself
and as long as it could still have become a character. Lossy reading puts U+FFFD in the place of
every malformed stretch, strict reading refuses them.
-/

namespace AssetUsage.Text.Utf8

/-- The bytes of a text. -/
def encode (text : List Char) : List UInt8 := text.flatMap String.utf8EncodeChar

/-- The start of a character of several bytes. -/
structure Pending where
  /-- The bits of the code point read so far. -/
  bits : Nat
  /-- How many bytes follow. -/
  missing : Nat
  /-- The least value that the next byte may have. -/
  least : Nat
  /-- The greatest value that the next byte may have. -/
  greatest : Nat
deriving DecidableEq, Repr

/-- A character, or a malformed stretch of bytes. -/
inductive Item where
  | char (c : Char)
  | malformed
deriving DecidableEq, Repr

/-- A byte between characters: a character of its own, malformed, or the start of a longer one. The
bounds of the second byte keep out overlong forms, surrogates and what lies beyond U+10FFFF. -/
def readFirst (byte : UInt8) : Item ⊕ Pending :=
  let b := byte.toNat
  if b < 0x80 then .inl (.char (Char.ofNat b))
  else if b < 0xC2 then .inl .malformed
  else if b < 0xE0 then .inr ⟨b - 0xC0, 1, 0x80, 0xBF⟩
  else if b = 0xE0 then .inr ⟨b - 0xE0, 2, 0xA0, 0xBF⟩
  else if b = 0xED then .inr ⟨b - 0xE0, 2, 0x80, 0x9F⟩
  else if b < 0xF0 then .inr ⟨b - 0xE0, 2, 0x80, 0xBF⟩
  else if b = 0xF0 then .inr ⟨b - 0xF0, 3, 0x90, 0xBF⟩
  else if b < 0xF4 then .inr ⟨b - 0xF0, 3, 0x80, 0xBF⟩
  else if b = 0xF4 then .inr ⟨b - 0xF0, 3, 0x80, 0x8F⟩
  else .inl .malformed

/-- The byte may be the next one of the character. -/
def Pending.accepts (pending : Pending) (byte : UInt8) : Bool :=
  pending.least ≤ byte.toNat && byte.toNat ≤ pending.greatest

/-- The code point with the bits of a further byte. -/
def Pending.bitsWith (pending : Pending) (byte : UInt8) : Nat :=
  pending.bits * 64 + (byte.toNat - 0x80)

/-- The items of the bytes, where `pending` is the start of a character in front of them. -/
def readFrom : Option Pending → List UInt8 → List Item
  | none, [] => []
  | some _, [] => [.malformed]
  | none, byte :: rest =>
    match readFirst byte with
    | .inl item => item :: readFrom none rest
    | .inr pending => readFrom (some pending) rest
  | some pending, byte :: rest =>
    if pending.accepts byte then
      if pending.missing ≤ 1 then
        .char (Char.ofNat (pending.bitsWith byte)) :: readFrom none rest
      else readFrom (some ⟨pending.bitsWith byte, pending.missing - 1, 0x80, 0xBF⟩) rest
    else
      match readFirst byte with
      | .inl item => .malformed :: item :: readFrom none rest
      | .inr pending => .malformed :: readFrom (some pending) rest

/-- The items of the bytes behind the items that have been read, the last of them first. It gives
the list of `readFrom` without a nested call for every byte of a large file. -/
def readOnto (items : List Item) : Option Pending → List UInt8 → List Item
  | none, [] => items.reverse
  | some _, [] => (.malformed :: items).reverse
  | none, byte :: rest =>
    match readFirst byte with
    | .inl item => readOnto (item :: items) none rest
    | .inr pending => readOnto items (some pending) rest
  | some pending, byte :: rest =>
    if pending.accepts byte then
      if pending.missing ≤ 1 then
        readOnto (.char (Char.ofNat (pending.bitsWith byte)) :: items) none rest
      else readOnto items (some ⟨pending.bitsWith byte, pending.missing - 1, 0x80, 0xBF⟩) rest
    else
      match readFirst byte with
      | .inl item => readOnto (item :: .malformed :: items) none rest
      | .inr pending => readOnto (.malformed :: items) (some pending) rest

/-- The items of the bytes come behind those that have been read. -/
theorem readOnto_eq (items : List Item) (pending : Option Pending) (bytes : List UInt8) :
    readOnto items pending bytes = items.reverse ++ readFrom pending bytes := by
  induction bytes generalizing items pending with
  | nil => cases pending <;> simp [readOnto, readFrom]
  | cons byte rest ih =>
    cases pending with
    | none =>
      simp only [readOnto, readFrom]
      split <;> simp [ih]
    | some pending =>
      simp only [readOnto, readFrom]
      split
      · split <;> simp [ih]
      · split <;> simp [ih]

/-- The characters and malformed stretches of the bytes. -/
def read (bytes : List UInt8) : List Item := readOnto [] none bytes

/-- The bytes are read from between two characters. -/
theorem read_eq_readFrom (bytes : List UInt8) : read bytes = readFrom none bytes :=
  readOnto_eq [] none bytes

/-- The character that stands for an item in a text. -/
def Item.shown : Item → Char
  | .char c => c
  | .malformed => '\uFFFD'

/-- The text of the bytes, with U+FFFD for every malformed stretch. -/
def decodeLossy (bytes : List UInt8) : List Char := (read bytes).map Item.shown

/-- No stretch of the bytes is malformed. -/
def isWellFormed (bytes : List UInt8) : Bool := (read bytes).all (· != .malformed)

end AssetUsage.Text.Utf8
