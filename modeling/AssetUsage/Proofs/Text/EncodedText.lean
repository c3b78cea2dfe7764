import AssetUsage.Text.Utf8
import Mathlib.Algebra.Group.Nat.Defs
import Mathlib.Data.List.Basic

/-!
# Characters and the bytes that they are written with

Reading cuts bytes into stretches (`cuts_readFrom`): a character that is read stands in the bytes
as it is written, and each malformed stretch takes at least one byte. Conversely, a character that
is written is read again, whatever follows (`readFrom_encode`). So a text is written with the bytes
it was read from exactly if these are well formed (`encode_decodeLossy_eq_iff`).
-/

namespace AssetUsage.Text.Utf8

/-- The bytes of a code point with its last bits, six in each. -/
def continuation (code : Nat) : Nat → List UInt8
  | 0 => []
  | count + 1 => UInt8.ofNat (code / 64 ^ count % 64 + 0x80) :: continuation code count

/-- The code point has the bits of the pending start, and its next byte is in the bounds. -/
structure Pending.Covers (pending : Pending) (code : Nat) : Prop where
  positive : 1 ≤ pending.missing
  bits : code / 64 ^ pending.missing = pending.bits
  least : pending.least ≤ code / 64 ^ (pending.missing - 1) % 64 + 0x80
  greatest : code / 64 ^ (pending.missing - 1) % 64 + 0x80 ≤ pending.greatest

/-- Dividing by one more power. -/
theorem div_pow_succ (code count : Nat) : code / 64 ^ (count + 1) = code / 64 ^ count / 64 := by
  rw [Nat.pow_succ, Nat.div_div_eq_div_mul]

/-- A code point that the start covers is read from the bytes with its last bits. -/
theorem readFrom_continuation {pending : Pending} {code : Nat} (covers : pending.Covers code)
    (rest : List UInt8) :
    readFrom (some pending) (continuation code pending.missing ++ rest) =
      .char (Char.ofNat code) :: readFrom none rest := by
  obtain ⟨bits, missing, least, greatest⟩ := pending
  obtain ⟨positive, same, above, below⟩ := covers
  dsimp only at positive same above below ⊢
  induction missing generalizing bits least greatest with
  | zero => contradiction
  | succ count ih =>
    rw [Nat.add_sub_cancel] at above below
    have value : (UInt8.ofNat (code / 64 ^ count % 64 + 0x80)).toNat =
        code / 64 ^ count % 64 + 0x80 :=
      UInt8.toNat_ofNat_of_lt' (by simp only [UInt8.size]; omega)
    rw [continuation, List.cons_append]
    generalize UInt8.ofNat (code / 64 ^ count % 64 + 0x80) = byte at value
    rw [← value] at above below
    rw [div_pow_succ] at same
    have accepted : (Pending.mk bits (count + 1) least greatest).accepts byte = true := by
      simp [Pending.accepts, above, below]
    have next : (Pending.mk bits (count + 1) least greatest).bitsWith byte = code / 64 ^ count := by
      unfold Pending.bitsWith
      dsimp only
      omega
    rw [readFrom, if_pos accepted, next]
    cases count with
    | zero => simp [continuation]
    | succ more =>
      have last : 0x80 ≤ code / 64 ^ more % 64 + 0x80 := Nat.le_add_left _ _
      have lessOne : code / 64 ^ more % 64 < 64 := Nat.mod_lt _ (by decide)
      rw [if_neg (by simp)]
      exact ih _ _ _ (Nat.le_add_left 1 more) rfl last (Nat.add_le_add_right (by omega) 0x80)

/-- How many bytes follow the first one of a character of several bytes. -/
def followers (code : Nat) : Nat :=
  if code < 0x800 then 1 else if code < 0x10000 then 2 else 3

/-- The first byte of a character of several bytes. -/
def leadByte (code : Nat) : Nat :=
  if code < 0x800 then code / 64 + 0xC0
  else if code < 0x10000 then code / 4096 + 0xE0 else code / 262144 + 0xF0

/-- A character of several bytes is written with its first byte and those with its last bits. -/
theorem encodeChar_eq {c : Char} (long : 0x80 ≤ c.toNat) :
    String.utf8EncodeChar c =
      UInt8.ofNat (leadByte c.toNat) :: continuation c.toNat (followers c.toNat) := by
  have valid : c.toNat < 0xD800 ∨ 0xDFFF < c.toNat ∧ c.toNat < 0x110000 := c.valid
  have value : c.val.toNat = c.toNat := rfl
  unfold String.utf8EncodeChar leadByte followers
  simp only [value]
  generalize c.toNat = code at *
  rw [if_neg (by omega)]
  by_cases two : code < 0x800
  · have bits : code / 64 % 32 = code / 64 := by omega
    rw [if_pos (by omega), if_pos two, if_pos two, bits]
    simp [continuation]
  · rw [if_neg (by omega), if_neg two, if_neg two]
    by_cases three : code < 0x10000
    · have bits : code / 4096 % 16 = code / 4096 := by omega
      rw [if_pos (by omega), if_pos three, if_pos three, bits]
      simp [continuation]
    · have bits : code / 262144 % 8 = code / 262144 := by omega
      rw [if_neg (by omega), if_neg three, if_neg three, bits]
      simp [continuation]

section FirstBytes

variable {byte : UInt8}

/-- A byte below 0x80 is a character of its own. -/
theorem readFirst_of_lt (single : byte.toNat < 0x80) :
    readFirst byte = .inl (.char (Char.ofNat byte.toNat)) := by
  unfold readFirst
  dsimp only
  rw [if_pos single]

/-- No character starts with a byte between those of one byte and those of two, or beyond all. -/
theorem readFirst_of_malformed
    (outside : 0x80 ≤ byte.toNat ∧ byte.toNat < 0xC2 ∨ 0xF4 < byte.toNat) :
    readFirst byte = .inl .malformed := by
  unfold readFirst
  dsimp only
  split_ifs <;> first | omega | rfl

/-- The start of a character of two bytes. -/
theorem readFirst_of_two (least : 0xC2 ≤ byte.toNat) (greatest : byte.toNat < 0xE0) :
    readFirst byte = .inr ⟨byte.toNat - 0xC0, 1, 0x80, 0xBF⟩ := by
  unfold readFirst
  dsimp only
  split_ifs <;> first | omega | rfl

/-- The start of a character of three bytes. -/
theorem readFirst_of_three (least : 0xE0 ≤ byte.toNat) (greatest : byte.toNat < 0xF0) :
    readFirst byte = .inr ⟨byte.toNat - 0xE0, 2, if byte.toNat = 0xE0 then 0xA0 else 0x80,
      if byte.toNat = 0xED then 0x9F else 0xBF⟩ := by
  unfold readFirst
  dsimp only
  split_ifs <;> first | omega | rfl

/-- The start of a character of four bytes. -/
theorem readFirst_of_four (least : 0xF0 ≤ byte.toNat) (greatest : byte.toNat ≤ 0xF4) :
    readFirst byte = .inr ⟨byte.toNat - 0xF0, 3, if byte.toNat = 0xF0 then 0x90 else 0x80,
      if byte.toNat = 0xF4 then 0x8F else 0xBF⟩ := by
  unfold readFirst
  dsimp only
  split_ifs <;> first | omega | rfl

end FirstBytes

/-- The first byte of a character starts it, and the start covers its code point. -/
theorem exists_pending {code : Nat} (long : 0x80 ≤ code) (valid : code.isValidChar) :
    ∃ pending, readFirst (UInt8.ofNat (leadByte code)) = .inr pending ∧
      pending.missing = followers code ∧ pending.Covers code := by
  have small : leadByte code < UInt8.size := by
    simp only [leadByte, UInt8.size]
    split_ifs <;> omega
  have value : (UInt8.ofNat (leadByte code)).toNat = leadByte code :=
    UInt8.toNat_ofNat_of_lt' small
  unfold followers
  unfold leadByte at value ⊢
  by_cases two : code < 0x800
  · rw [if_pos two] at value ⊢
    rw [if_pos two]
    refine ⟨_, readFirst_of_two (by omega) (by omega), rfl, by simp, ?_, ?_, ?_⟩ <;>
      simp only [Nat.reduceSub, Nat.reducePow]
    · omega
    · omega
    · omega
  · rw [if_neg two] at value ⊢
    rw [if_neg two]
    by_cases three : code < 0x10000
    · rw [if_pos three] at value ⊢
      rw [if_pos three]
      refine ⟨_, readFirst_of_three (by omega) (by omega), rfl, by simp, ?_, ?_, ?_⟩ <;>
        simp only [Nat.reduceSub, Nat.reducePow]
      · omega
      · split <;> omega
      · split <;> omega
    · rw [if_neg three] at value ⊢
      rw [if_neg three]
      refine ⟨_, readFirst_of_four (by omega) (by omega), rfl, by simp, ?_, ?_, ?_⟩ <;>
        simp only [Nat.reduceSub, Nat.reducePow]
      · omega
      · split <;> omega
      · split <;> omega

/-- A start of a character is one of two, three or four bytes. -/
theorem readFirst_eq_inr {byte : UInt8} {pending : Pending}
    (starts : readFirst byte = .inr pending) :
    0xC2 ≤ byte.toNat ∧ byte.toNat < 0xE0 ∨ 0xE0 ≤ byte.toNat ∧ byte.toNat < 0xF0 ∨
      0xF0 ≤ byte.toNat ∧ byte.toNat ≤ 0xF4 := by
  by_cases single : byte.toNat < 0x80
  · rw [readFirst_of_lt single] at starts
    contradiction
  · by_cases outside : byte.toNat < 0xC2 ∨ 0xF4 < byte.toNat
    · rw [readFirst_of_malformed (by omega)] at starts
      contradiction
    · omega

/-- What the start of a character covers is the code point of a character that starts with it. -/
theorem exists_char_of_covers {byte : UInt8} {pending : Pending} {code : Nat}
    (starts : readFirst byte = .inr pending) (covers : pending.Covers code) :
    ∃ c : Char, c.toNat = code ∧ 0x80 ≤ code ∧ leadByte code = byte.toNat ∧
      followers code = pending.missing := by
  suffices shape : code.isValidChar ∧ 0x80 ≤ code ∧ leadByte code = byte.toNat ∧
      followers code = pending.missing from ⟨Char.ofNatAux code shape.1, rfl, shape.2⟩
  obtain ⟨-, bits, least, greatest⟩ := covers
  unfold leadByte followers Nat.isValidChar
  rcases readFirst_eq_inr starts with ⟨low, high⟩ | ⟨low, high⟩ | ⟨low, high⟩
  · rw [readFirst_of_two low high] at starts
    obtain rfl := Sum.inr.inj starts
    simp only [Nat.reduceSub, Nat.reducePow, Nat.div_one] at bits least greatest
    have two : code < 0x800 := by omega
    simp only [two, ↓reduceIte, and_true]
    omega
  · rw [readFirst_of_three low high] at starts
    obtain rfl := Sum.inr.inj starts
    simp only [Nat.reduceSub, Nat.reducePow] at bits least greatest
    split at least <;> split at greatest <;>
    · have two : ¬ code < 0x800 := by omega
      have three : code < 0x10000 := by omega
      simp only [two, three, ↓reduceIte, and_true]
      omega
  · rw [readFirst_of_four low high] at starts
    obtain rfl := Sum.inr.inj starts
    simp only [Nat.reduceSub, Nat.reducePow] at bits least greatest
    split at least <;> split at greatest <;>
    · have two : ¬ code < 0x800 := by omega
      have three : ¬ code < 0x10000 := by omega
      simp only [two, three, ↓reduceIte, and_true]
      omega

/-- The bytes start a character that is pending: what this covers is written with them in front. -/
structure Pending.Follows (pending : Pending) (start : List UInt8) : Prop where
  nonempty : start ≠ []
  positive : 1 ≤ pending.missing
  least : 0x80 ≤ pending.least
  greatest : pending.greatest ≤ 0xBF
  written : ∀ code, pending.Covers code → ∃ c : Char, c.toNat = code ∧
    String.utf8EncodeChar c = start ++ continuation code pending.missing

/-- A first byte starts what is pending behind it. -/
theorem follows_of_readFirst {byte : UInt8} {pending : Pending}
    (starts : readFirst byte = .inr pending) : pending.Follows [byte] := by
  have bounds : 1 ≤ pending.missing ∧ 0x80 ≤ pending.least ∧ pending.greatest ≤ 0xBF := by
    rcases readFirst_eq_inr starts with ⟨low, high⟩ | ⟨low, high⟩ | ⟨low, high⟩
    · rw [readFirst_of_two low high] at starts
      obtain rfl := Sum.inr.inj starts
      simp
    · rw [readFirst_of_three low high] at starts
      obtain rfl := Sum.inr.inj starts
      refine ⟨by simp, ?_, ?_⟩ <;> dsimp only <;> split <;> omega
    · rw [readFirst_of_four low high] at starts
      obtain rfl := Sum.inr.inj starts
      refine ⟨by simp, ?_, ?_⟩ <;> dsimp only <;> split <;> omega
  refine ⟨List.cons_ne_nil _ _, bounds.1, bounds.2.1, bounds.2.2, fun code covers => ?_⟩
  obtain ⟨c, rfl, long, lead, count⟩ := exists_char_of_covers starts covers
  refine ⟨c, rfl, ?_⟩
  rw [encodeChar_eq long, lead, count, UInt8.ofNat_toNat]
  rfl

section Bytes

variable {pending : Pending} {start : List UInt8} {byte : UInt8}

/-- A byte that is accepted carries the next bits of the code points that it leaves. -/
theorem Pending.Follows.covers (follows : pending.Follows start)
    (accepted : pending.accepts byte = true) {code : Nat}
    (left : code / 64 ^ (pending.missing - 1) = pending.bitsWith byte) :
    pending.Covers code ∧
      continuation code pending.missing = byte :: continuation code (pending.missing - 1) := by
  obtain ⟨-, positive, least, greatest, -⟩ := follows
  obtain ⟨bits, missing, low, high⟩ := pending
  obtain ⟨count, rfl⟩ : ∃ count, missing = count + 1 := Nat.exists_eq_add_of_le' positive
  simp only [Pending.accepts, Bool.and_eq_true, decide_eq_true_eq] at accepted
  have count_eq : count + 1 - 1 = count := rfl
  unfold Pending.bitsWith at left
  dsimp only at left least greatest ⊢
  rw [count_eq] at left ⊢
  have digit : code / 64 ^ count % 64 + 0x80 = byte.toNat := by omega
  have whole : code / 64 ^ (count + 1) = bits := by
    rw [div_pow_succ]
    omega
  refine ⟨⟨positive, whole, ?_, ?_⟩, ?_⟩
  · dsimp only
    rw [Nat.add_sub_cancel, digit]
    exact accepted.1
  · dsimp only
    rw [Nat.add_sub_cancel, digit]
    exact accepted.2
  · exact congrArg₂ List.cons (by rw [digit, UInt8.ofNat_toNat]) rfl

/-- A byte that is accepted goes on with what is pending. -/
theorem Pending.Follows.concat (follows : pending.Follows start)
    (accepted : pending.accepts byte = true) (more : ¬ pending.missing ≤ 1) :
    (Pending.mk (pending.bitsWith byte) (pending.missing - 1) 0x80 0xBF).Follows
      (start ++ [byte]) := by
  refine ⟨by simp, by dsimp only; omega, Nat.le_refl _, Nat.le_refl _, fun code covers => ?_⟩
  obtain ⟨covered, next⟩ := follows.covers accepted covers.bits
  obtain ⟨c, same, written⟩ := follows.written code covered
  refine ⟨c, same, ?_⟩
  rw [written, next, List.append_assoc]
  rfl

/-- The last byte that is accepted ends a character. -/
theorem Pending.Follows.encodeChar (follows : pending.Follows start)
    (accepted : pending.accepts byte = true) (last : pending.missing ≤ 1) :
    String.utf8EncodeChar (Char.ofNat (pending.bitsWith byte)) = start ++ [byte] := by
  have positive := follows.positive
  obtain one : pending.missing = 1 := by omega
  have bits : pending.bitsWith byte / 64 ^ (pending.missing - 1) = pending.bitsWith byte := by
    rw [one, Nat.sub_self, Nat.pow_zero, Nat.div_one]
  obtain ⟨covered, next⟩ := follows.covers accepted bits
  obtain ⟨c, same, written⟩ := follows.written _ covered
  rw [← same, Char.ofNat_toNat, written, next, one]
  rfl

end Bytes

/-- The items cut the bytes into stretches: a character is written as its stretch, and a malformed
stretch holds at least one byte. -/
inductive Cuts : List Item → List UInt8 → Prop where
  | nil : Cuts [] []
  | char (c : Char) {items : List Item} {rest : List UInt8} (others : Cuts items rest) :
    Cuts (.char c :: items) (String.utf8EncodeChar c ++ rest)
  | malformed {stretch : List UInt8} (nonempty : stretch ≠ []) {items : List Item}
    {rest : List UInt8} (others : Cuts items rest) : Cuts (.malformed :: items) (stretch ++ rest)

/-- Every byte is the number of a character. -/
theorem toNat_ofNat_byte (byte : UInt8) : (Char.ofNat byte.toNat).toNat = byte.toNat := by
  have small := byte.toNat_lt
  rw [Char.ofNat, dif_pos (.inl (by omega) : byte.toNat.isValidChar)]
  rfl

/-- A single byte is the character with its value. -/
theorem encodeChar_of_lt {byte : UInt8} (single : byte.toNat < 0x80) :
    String.utf8EncodeChar (Char.ofNat byte.toNat) = [byte] := by
  have value : (Char.ofNat byte.toNat).val.toNat = byte.toNat := toNat_ofNat_byte byte
  unfold String.utf8EncodeChar
  simp only [value]
  rw [if_pos (by omega), UInt8.ofNat_toNat]

/-- A byte that does not go on with a character is read as one between characters. -/
theorem readFrom_of_rejected {pending : Pending} {byte : UInt8}
    (rejected : ¬ pending.accepts byte = true) (rest : List UInt8) :
    readFrom (some pending) (byte :: rest) = .malformed :: readFrom none (byte :: rest) := by
  cases starts : readFirst byte <;> simp [readFrom, rejected, starts]

/-- A byte that is an item of its own is malformed, or a character that is written with it. -/
theorem readFirst_eq_inl {byte : UInt8} {item : Item} (single : readFirst byte = .inl item) :
    item = .malformed ∨ ∃ c, item = .char c ∧ String.utf8EncodeChar c = [byte] := by
  by_cases low : byte.toNat < 0x80
  · rw [readFirst_of_lt low] at single
    exact .inr ⟨_, (Sum.inl.inj single).symm, encodeChar_of_lt low⟩
  · left
    unfold readFirst at single
    dsimp only at single
    rw [if_neg low] at single
    split_ifs at single <;> exact (Sum.inl.inj single).symm

/-- A byte that is an item of its own is a stretch. -/
theorem cuts_first {byte : UInt8} {item : Item} (single : readFirst byte = .inl item)
    {items : List Item} {rest : List UInt8} (others : Cuts items rest) :
    Cuts (item :: items) (byte :: rest) := by
  rcases readFirst_eq_inl single with rfl | ⟨c, rfl, written⟩
  · exact .malformed (List.cons_ne_nil byte []) others
  · have cut := Cuts.char c others
    rwa [written] at cut

/-- The items of bytes cut the bytes, together with the start of a character in front of them. -/
theorem cuts_readFrom (bytes : List UInt8) :
    Cuts (readFrom none bytes) bytes ∧ ∀ (pending : Pending) (start : List UInt8),
      pending.Follows start → Cuts (readFrom (some pending) bytes) (start ++ bytes) := by
  induction bytes with
  | nil => exact ⟨.nil, fun _ _ follows => .malformed follows.nonempty .nil⟩
  | cons byte rest ih =>
    obtain ⟨between, inside⟩ := ih
    have first : Cuts (readFrom none (byte :: rest)) (byte :: rest) := by
      rw [readFrom]
      split
      · next item single => exact cuts_first single between
      · next pending starts => exact inside pending [byte] (follows_of_readFirst starts)
    refine ⟨first, fun pending start follows => ?_⟩
    by_cases accepted : pending.accepts byte = true
    · rw [readFrom, if_pos accepted]
      split
      · next last =>
        have cut := Cuts.char (Char.ofNat (pending.bitsWith byte)) between
        rwa [follows.encodeChar accepted last, List.append_assoc] at cut
      · next more =>
        have cut := inside _ _ (follows.concat accepted more)
        rwa [List.append_assoc] at cut
    · rw [readFrom_of_rejected accepted]
      exact .malformed follows.nonempty first

/-- Without malformed stretches the characters are written with the bytes. -/
theorem Cuts.encode_eq {items : List Item} {bytes : List UInt8} (cuts : Cuts items bytes)
    (sound : .malformed ∉ items) : encode (items.map Item.shown) = bytes := by
  induction cuts with
  | nil => rfl
  | char c others ih =>
    rw [List.map_cons, encode, List.flatMap_cons]
    exact congrArg _ (ih fun mem => sound (List.mem_cons_of_mem _ mem))
  | malformed nonempty others ih => exact absurd List.mem_cons_self sound

/-- The bytes with which a character that is read is written are among the bytes. -/
theorem Cuts.subset {items : List Item} {bytes : List UInt8} (cuts : Cuts items bytes) {c : Char}
    (mem : .char c ∈ items) : String.utf8EncodeChar c ⊆ bytes := by
  induction cuts with
  | nil => contradiction
  | char other others ih =>
    rcases List.mem_cons.1 mem with same | mem
    · obtain rfl := Item.char.inj same
      exact List.subset_append_left _ _
    · exact List.subset_append_of_subset_right _ (ih mem)
  | malformed nonempty others ih =>
    rcases List.mem_cons.1 mem with same | mem
    · contradiction
    · exact List.subset_append_of_subset_right _ (ih mem)

/-- A character that is written is read again, whatever follows. -/
theorem readFrom_encodeChar (c : Char) (rest : List UInt8) :
    readFrom none (String.utf8EncodeChar c ++ rest) = .char c :: readFrom none rest := by
  by_cases long : 0x80 ≤ c.toNat
  · obtain ⟨pending, starts, count, covers⟩ := exists_pending long c.valid
    rw [encodeChar_eq long, List.cons_append, readFrom, starts]
    dsimp only
    rw [← count, readFrom_continuation covers, Char.ofNat_toNat]
  · have value : (UInt8.ofNat c.toNat).toNat = c.toNat :=
      UInt8.toNat_ofNat_of_lt' (by simp only [UInt8.size]; omega)
    have single : (UInt8.ofNat c.toNat).toNat < 0x80 := by omega
    have written := encodeChar_of_lt single
    rw [value, Char.ofNat_toNat] at written
    rw [written, List.singleton_append, readFrom, readFirst_of_lt single, value, Char.ofNat_toNat]

/-- A text that is written is read again, whatever follows. -/
theorem readFrom_encode (text : List Char) (rest : List UInt8) :
    readFrom none (encode text ++ rest) = text.map .char ++ readFrom none rest := by
  induction text with
  | nil => rfl
  | cons c others ih =>
    rw [encode, List.flatMap_cons, List.append_assoc, readFrom_encodeChar]
    exact congrArg _ ih

/-- Different texts are written with different bytes. -/
theorem encode_injective : Function.Injective encode := by
  intro left right same
  have read := readFrom_encode left []
  rw [same, readFrom_encode, List.append_left_inj] at read
  have char : Function.Injective Item.char := fun _ _ => Item.char.inj
  exact (char.list_map read).symm

/-- The text that is read from bytes is written with them exactly if the bytes are well formed. -/
theorem encode_decodeLossy_eq_iff {bytes : List UInt8} :
    encode (decodeLossy bytes) = bytes ↔ isWellFormed bytes = true := by
  have sound : isWellFormed bytes = true ↔ .malformed ∉ readFrom none bytes := by
    rw [isWellFormed, read_eq_readFrom]
    simp [List.forall_mem_ne']
  rw [sound, decodeLossy, read_eq_readFrom]
  constructor
  · intro same mem
    have again := readFrom_encode ((readFrom none bytes).map Item.shown) []
    rw [List.append_nil, same] at again
    rw [again] at mem
    simp [readFrom] at mem
  · exact (cuts_readFrom bytes).1.encode_eq

end AssetUsage.Text.Utf8
