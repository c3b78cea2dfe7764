import AssetUsage.Proofs.Scan.ReportedLines
import AssetUsage.Proofs.Text.RawLines

/-!
# Bytes, texts and line numbers

What is read from a file is decided by its size, by the zero bytes among its first ones, and by its
bytes alone. The text may differ from the bytes where these are not well formed, and then it is
marked as lossy; but it is cut into lines where the bytes are. So the number under which a scan
reports a line is that of the line in the file, as far as 32 bits can hold it (`readText_exact`).
-/

namespace AssetUsage

open AssetUsage.Text (IsLineOf)
open AssetUsage.Text.Utf8 (lineFeed decodeLossy encode)

/-- The bytes of a file. -/
def Content.bytes (content : Content) : List UInt8 := content.data.toList

/-- A file looks binary exactly if a zero byte is among the bytes that are searched for one. -/
theorem Content.isBinary_iff {content : Content} :
    content.isBinary = true ↔ 0 ∈ content.bytes.take binaryWindow := by
  rw [isBinary, Array.contains_iff_mem, ByteArray.data_extract, ← Array.mem_toList_iff,
    Array.toList_extract, List.extract_eq_take_drop]
  rfl

/-- The text of a file is lossy exactly if it is written with other bytes. -/
theorem Content.lossy_iff {content : Content} :
    content.text.lossy = true ↔ encode (decodeLossy content.bytes) ≠ content.bytes := by
  rw [ne_eq, Text.Utf8.encode_decodeLossy_eq_iff, text, Bool.not_eq_eq_eq_not, Bool.not_true,
    Bool.not_eq_true]
  rfl

namespace Tree

variable {tree : Tree} {file : Path} {content : Content}
  (found : tree.find file = .ok (.file content))
include found

/-- A file is too large exactly if it has more bytes than the limit, and then says how many. -/
theorem readText_eq_tooLarge_iff {sizeLimit size : Nat} :
    tree.readText file sizeLimit = .error (.tooLarge size) ↔
      sizeLimit < content.size ∧ size = content.size := by
  simp only [readText, found, Content.read]
  by_cases large : content.size > sizeLimit
  · rw [if_pos large]
    simp only [Except.error.injEq, SkipReason.tooLarge.injEq]
    exact ⟨fun same => ⟨large, same.symm⟩, fun both => both.2.symm⟩
  · rw [if_neg large]
    constructor
    · intro read
      split at read <;> simp at read
    · intro both
      exact absurd both.1 large

/-- A file counts as binary exactly if it is not too large and has an early zero byte. -/
theorem readText_eq_binary_iff {sizeLimit : Nat} :
    tree.readText file sizeLimit = .error .binary ↔
      content.size ≤ sizeLimit ∧ 0 ∈ content.bytes.take binaryWindow := by
  simp only [readText, found, Content.read, ← Content.isBinary_iff]
  by_cases large : content.size > sizeLimit
  · simp [large, Nat.not_le.2 large]
  · rw [if_neg large]
    cases content.isBinary <;> simp [Nat.not_lt.1 large]

/-- A file gives a text exactly if it is neither too large nor binary, and this is that of its
bytes. -/
theorem readText_eq_ok_iff_bytes {sizeLimit : Nat} {text : FileText} :
    tree.readText file sizeLimit = .ok text ↔
      content.size ≤ sizeLimit ∧ 0 ∉ content.bytes.take binaryWindow ∧ content.text = text := by
  rw [readText_eq_ok_iff, ← Content.isBinary_iff, Bool.not_eq_true]
  constructor
  · rintro ⟨other, reads, same⟩
    obtain rfl := content_unique found reads.found
    exact ⟨reads.small, reads.textual, same⟩
  · rintro ⟨small, textual, same⟩
    exact ⟨content, ⟨found, small, textual⟩, same⟩

/-- A line that is read by its number is the line with that number in the bytes. -/
theorem isLineOf_of_readLine? {number : Nat} {shown : List Char}
    (read : tree.readLine? file number = some shown) : IsLineOf content.bytes number shown := by
  unfold readLine? at read
  split at read
  · next index text readable =>
    obtain ⟨-, -, rfl⟩ := (readText_eq_ok_iff_bytes found).1 readable
    exact Text.isLineOf_of_lines read
  · contradiction

end Tree

/-- The number that is shown is one more than that of the lines in front, in 32 bits. -/
theorem Usage.number_eq {usage : Usage} (positive : 1 ≤ usage.line) :
    usage.number = UInt32.ofNat (usage.line - 1) + 1 := by
  obtain ⟨index, line⟩ := Nat.exists_eq_add_of_le' positive
  rw [number, line, Nat.add_sub_cancel, UInt32.ofNat_add]
  rfl

/-- The number that is shown is that of the line exactly if 32 bits hold it. -/
theorem Usage.toNat_number_eq_iff (usage : Usage) :
    usage.number.toNat = usage.line ↔ usage.line < 2 ^ 32 := by
  rw [number, UInt32.toNat_ofNat']
  exact Nat.mod_eq_iff_lt (by decide)

/-- The lines of a file are numbered from 1 up to one more than it has line feeds. -/
theorem Text.IsLineOf.number_mem {bytes : List UInt8} {number : Nat} {shown : List Char}
    (isLine : IsLineOf bytes number shown) : 1 ≤ number ∧ number ≤ bytes.count lineFeed + 1 := by
  obtain ⟨before, line, behind, rfl, -, -, -, rfl, -⟩ := isLine
  rw [List.count_append]
  omega

/-- A line that a scan reports is that with its number in the bytes of the file. -/
theorem Scan.exists_isLineOf_of_mem_usages {tree : Tree} {finder : Finder} {options : ScanOptions}
    {content : Content} {usage : Usage} (found : tree.find usage.file = .ok (.file content))
    (mem : usage ∈ usages tree finder options) :
    ∃ shown, IsLineOf content.bytes usage.line shown ∧
      finder.usedBy (finder.candidate usage.file (decodeLossy content.bytes)) shown = true ∧
      (options.captureText = true → usage.text = .captured shown) := by
  obtain ⟨file, -, mem⟩ := List.mem_flatMap.1 mem
  obtain ⟨-, other, shown, number, reads, positive, there, used, rfl⟩ := mem_usagesOfFile.1 mem
  obtain rfl := Tree.content_unique found reads.found
  obtain ⟨index, rfl⟩ : ∃ index, number = index + 1 := Nat.exists_eq_add_of_le' positive
  refine ⟨shown, Text.isLineOf_of_lines there, used, fun captures => ?_⟩
  simp only [usageAt, captures, ↓reduceIte]

/-- A page whose first line ends with a character that breaks off, and whose second one shows an
image. -/
def brokenPage : Content :=
  ⟨#[0x63, 0x61, 0x66, 0xC3, 0x0A] ++ (encode "<img src=\"images/a.png\">\n".toList).toArray⟩

end AssetUsage
