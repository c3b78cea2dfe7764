import AssetUsage.Proofs.Text.EncodedText
import Mathlib.Data.List.Basic

/-!
# Marks in lossy texts

A byte below `0x80` is a character wherever it stands: no byte of a longer character is one, and it
ends whatever is pending. So bytes that are not well formed are cut at such a mark as others are,
and the stretches of the text are the texts of the stretches of the bytes (`splitOn_decodeLossy`). A
text without U+FFFD is read from the bytes that it is written with and from no others
(`decodeLossy_eq_iff`).
-/

namespace AssetUsage.Text.Utf8

/-- A text is read from the bytes that it is written with. -/
theorem decodeLossy_encode (text : List Char) : decodeLossy (encode text) = text := by
  have read := readFrom_encode text []
  rw [List.append_nil] at read
  rw [decodeLossy, read_eq_readFrom, read]
  simp [readFrom, Function.comp_def, Item.shown]

/-- Texts are well formed. -/
theorem isWellFormed_encode (text : List Char) : isWellFormed (encode text) = true := by
  rw [← encode_decodeLossy_eq_iff, decodeLossy_encode]

/-- A text without U+FFFD is read only from the bytes that it is written with. -/
theorem decodeLossy_eq_iff {bytes : List UInt8} {text : List Char} (plain : '\uFFFD' ∉ text) :
    decodeLossy bytes = text ↔ bytes = encode text := by
  constructor
  · rintro rfl
    refine (encode_decodeLossy_eq_iff.2 (List.all_eq_true.2 fun item mem => ?_)).symm
    rw [bne_iff_ne]
    rintro rfl
    exact plain (List.mem_map.2 ⟨.malformed, mem, rfl⟩)
  · rintro rfl
    exact decodeLossy_encode text

/-- Texts behind each other are written behind each other. -/
theorem encode_append (front behind : List Char) :
    encode (front ++ behind) = encode front ++ encode behind := List.flatMap_append

section Marks

variable {mark : UInt8} (ascii : mark.toNat < 0x80)
include ascii

/-- The character of a mark is no replacement. -/
theorem ofNat_mark_ne : Char.ofNat mark.toNat ≠ '\uFFFD' := by
  intro same
  have number := toNat_ofNat_byte mark
  rw [same] at number
  have replacement : '\uFFFD'.toNat = 0xFFFD := rfl
  omega

/-- Between characters a mark is read as itself. -/
theorem readFrom_mark (rest : List UInt8) :
    readFrom none (mark :: rest) = .char (Char.ofNat mark.toNat) :: readFrom none rest := by
  rw [readFrom, readFirst_of_lt ascii]

/-- A mark ends what stands in front of it, be it well formed or not. -/
theorem readFrom_append_mark {pending : Option Pending} (bytes rest : List UInt8)
    (least : ∀ start ∈ pending, 0x80 ≤ start.least) :
    readFrom pending (bytes ++ mark :: rest) =
      readFrom pending bytes ++ .char (Char.ofNat mark.toNat) :: readFrom none rest := by
  induction bytes generalizing pending with
  | nil =>
    cases pending with
    | none => exact readFrom_mark ascii rest
    | some pending =>
      have above := least pending rfl
      have rejected : ¬ pending.accepts mark = true := by
        simp only [Pending.accepts, Bool.and_eq_true, decide_eq_true_eq]
        omega
      rw [List.nil_append, readFrom_of_rejected rejected, readFrom_mark ascii]
      rfl
  | cons byte others ih =>
    have between : readFrom none (byte :: others ++ mark :: rest) =
        readFrom none (byte :: others) ++ .char (Char.ofNat mark.toNat) :: readFrom none rest := by
      rw [List.cons_append, readFrom, readFrom]
      cases starts : readFirst byte with
      | inl item => exact congrArg _ (ih (by simp))
      | inr pending =>
        exact ih fun start same => Option.some.inj same ▸ (follows_of_readFirst starts).least
    cases pending with
    | none => exact between
    | some pending =>
      by_cases accepted : pending.accepts byte = true
      · rw [List.cons_append, readFrom, if_pos accepted, readFrom, if_pos accepted]
        split
        · exact congrArg _ (ih (by simp))
        · exact ih fun start same => Option.some.inj same ▸ Nat.le_refl _
      · rw [readFrom_of_rejected accepted, List.cons_append, readFrom_of_rejected accepted]
        exact congrArg _ between

/-- The text of bytes is cut at every mark, whatever stands around it. -/
theorem decodeLossy_append_mark (bytes rest : List UInt8) :
    decodeLossy (bytes ++ mark :: rest) =
      decodeLossy bytes ++ Char.ofNat mark.toNat :: decodeLossy rest := by
  simp only [decodeLossy, read_eq_readFrom]
  rw [readFrom_append_mark ascii bytes rest (by simp), List.map_append]
  rfl

/-- A text holds a mark exactly if the bytes do. -/
theorem mark_mem_decodeLossy_iff {bytes : List UInt8} :
    Char.ofNat mark.toNat ∈ decodeLossy bytes ↔ mark ∈ bytes := by
  constructor
  · intro mem
    rw [decodeLossy, read_eq_readFrom] at mem
    obtain ⟨item, mem, shown⟩ := List.mem_map.1 mem
    cases item with
    | malformed => exact absurd shown.symm (ofNat_mark_ne ascii)
    | char c =>
      obtain rfl : c = Char.ofNat mark.toNat := shown
      have written := (cuts_readFrom bytes).1.subset mem
      rw [encodeChar_of_lt ascii] at written
      exact written List.mem_cons_self
  · intro mem
    obtain ⟨front, rest, rfl, -⟩ := List.eq_append_cons_of_mem mem
    rw [decodeLossy_append_mark ascii]
    exact List.mem_append_right _ List.mem_cons_self

/-- A text is written with a mark exactly if it holds it. -/
theorem mark_mem_encode_iff {text : List Char} :
    mark ∈ encode text ↔ Char.ofNat mark.toNat ∈ text := by
  rw [← mark_mem_decodeLossy_iff ascii, decodeLossy_encode]

/-- The stretches of a text between marks are the texts of those of the bytes. -/
theorem splitOn_decodeLossy (bytes : List UInt8) :
    (decodeLossy bytes).splitOn (Char.ofNat mark.toNat) = (bytes.splitOn mark).map decodeLossy := by
  by_cases cut : mark ∈ bytes
  · obtain ⟨line, rest, rfl, plain⟩ := List.eq_append_cons_of_mem cut
    rw [decodeLossy_append_mark ascii, List.splitOn_append_cons_self,
      List.splitOn_append_cons_self, List.splitOn_eq_singleton plain,
      List.splitOn_eq_singleton (mt (mark_mem_decodeLossy_iff ascii).1 plain),
      splitOn_decodeLossy rest]
    rfl
  · rw [List.splitOn_eq_singleton cut,
      List.splitOn_eq_singleton (mt (mark_mem_decodeLossy_iff ascii).1 cut)]
    rfl
termination_by bytes.length
decreasing_by
  subst_vars
  simp only [List.length_append, List.length_cons]
  omega

/-- The stretches of the bytes of a text are written as those of the text. -/
theorem splitOn_encode (text : List Char) :
    (encode text).splitOn mark = (text.splitOn (Char.ofNat mark.toNat)).map encode := by
  have written : encode [Char.ofNat mark.toNat] = [mark] := by
    rw [encode, List.flatMap_singleton, encodeChar_of_lt ascii]
  by_cases cut : Char.ofNat mark.toNat ∈ text
  · obtain ⟨front, rest, rfl, plain⟩ := List.eq_append_cons_of_mem cut
    rw [← List.singleton_append, encode_append, encode_append, written, List.singleton_append,
      List.singleton_append, List.splitOn_append_cons_self, List.splitOn_append_cons_self,
      List.splitOn_eq_singleton plain,
      List.splitOn_eq_singleton (mt (mark_mem_encode_iff ascii).1 plain), splitOn_encode rest]
    rfl
  · rw [List.splitOn_eq_singleton cut,
      List.splitOn_eq_singleton (mt (mark_mem_encode_iff ascii).1 cut)]
    rfl
termination_by text.length
decreasing_by
  subst_vars
  simp only [List.length_append, List.length_cons]
  omega

end Marks

end AssetUsage.Text.Utf8
