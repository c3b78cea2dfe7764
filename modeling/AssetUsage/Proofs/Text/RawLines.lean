import AssetUsage.Proofs.Text.LossyText
import AssetUsage.Text.Lines

/-!
# Lines of bytes

Bytes are cut at line feeds as their text is, be they well formed or not (`splitOn_lineFeed`). Hence
the number of a line of the text counts the line feeds in front of its bytes (`isLineOf_of_lines`).
-/

namespace AssetUsage.Text

namespace Utf8

/-- The byte of a line feed. -/
def lineFeed : UInt8 := 0x0A

/-- The stretches of a text between line feeds are the texts of those of the bytes. -/
theorem splitOn_lineFeed (bytes : List UInt8) :
    (decodeLossy bytes).splitOn '\n' = (bytes.splitOn lineFeed).map decodeLossy :=
  @splitOn_decodeLossy lineFeed (by decide) bytes

end Utf8

open Utf8 (lineFeed decodeLossy)

/-- The line with the number, from 1 on, of a file with the bytes is shown as `shown`: its bytes
stand behind that many line feeds less one and hold none themselves, and a carriage return at their
end is left out if a line feed follows. -/
def IsLineOf (bytes : List UInt8) (number : Nat) (shown : List Char) : Prop :=
  ∃ before line behind, bytes = before ++ (line ++ behind) ∧
    (before = [] ∨ before.getLast? = some lineFeed) ∧ lineFeed ∉ line ∧
    (behind = [] ∨ behind.head? = some lineFeed) ∧ number = before.count lineFeed + 1 ∧
    shown = if behind = [] then decodeLossy line else dropReturn (decodeLossy line)

/-- A stretch between line feeds stands behind as many of them as stretches come before it. -/
theorem exists_of_getElem?_splitOn {bytes line : List UInt8} {index : Nat}
    (there : (bytes.splitOn lineFeed)[index]? = some line) :
    ∃ before behind, bytes = before ++ (line ++ behind) ∧
      (before = [] ∨ before.getLast? = some lineFeed) ∧ lineFeed ∉ line ∧
      (behind = [] ∨ behind.head? = some lineFeed) ∧ before.count lineFeed = index ∧
      (behind = [] ↔ index + 1 = (bytes.splitOn lineFeed).length) := by
  by_cases cut : lineFeed ∈ bytes
  · obtain ⟨first, rest, rfl, plain⟩ := List.eq_append_cons_of_mem cut
    have split : (first ++ lineFeed :: rest).splitOn lineFeed = first :: rest.splitOn lineFeed := by
      rw [List.splitOn_append_cons_self, List.splitOn_eq_singleton plain, List.singleton_append]
    rw [split] at there ⊢
    cases index with
    | zero =>
      obtain rfl := Option.some.inj there
      have more := List.length_pos_iff.2 (List.splitOn_ne_nil lineFeed rest)
      refine ⟨[], lineFeed :: rest, rfl, .inl rfl, plain, .inr rfl, rfl, ?_⟩
      simp only [List.length_cons]
      constructor
      · intro none
        contradiction
      · intro last
        omega
    | succ index =>
      rw [List.getElem?_cons_succ] at there
      obtain ⟨before, behind, whole, starts, free, ends, count, last⟩ :=
        exists_of_getElem?_splitOn there
      refine ⟨first ++ lineFeed :: before, behind, ?_, .inr ?_, free, ends, ?_, ?_⟩
      · rw [whole, List.append_assoc, List.cons_append]
      · rcases starts with rfl | ended
        · exact List.getLast?_concat
        · rw [List.getLast?_append, List.getLast?_cons, ended]
          rfl
      · rw [List.count_append, List.count_eq_zero.2 plain, List.count_cons_self, count,
          Nat.zero_add]
      · rw [last, List.length_cons, Nat.add_right_cancel_iff]
  · rw [List.splitOn_eq_singleton cut] at there ⊢
    cases index with
    | zero =>
      obtain rfl := Option.some.inj there
      exact ⟨[], [], by simp, .inl rfl, cut, .inl rfl, rfl, by simp⟩
    | succ index => simp at there
termination_by bytes.length
decreasing_by
  subst_vars
  simp only [List.length_append, List.length_cons]
  omega

/-- A line is a stretch, without the carriage return at its end unless it is the last one. -/
theorem exists_of_getElem?_lines {text shown : List Char} {index : Nat}
    (there : (lines text)[index]? = some shown) :
    ∃ stretch, (text.splitOn '\n')[index]? = some stretch ∧
      shown = if index + 1 = (text.splitOn '\n').length then stretch else dropReturn stretch := by
  rw [lines] at there
  generalize text.splitOn '\n' = stretches at *
  induction stretches generalizing index with
  | nil => contradiction
  | cons stretch others ih =>
    cases others with
    | nil =>
      rw [linesOfStretches] at there
      split at there
      · contradiction
      · cases index with
        | zero => exact ⟨stretch, rfl, (Option.some.inj there).symm⟩
        | succ index => contradiction
    | cons next more =>
      change (dropReturn stretch :: linesOfStretches (next :: more))[index]? = some shown at there
      cases index with
      | zero => exact ⟨stretch, rfl, (Option.some.inj there).symm.trans (by simp)⟩
      | succ index =>
        obtain ⟨found, same, shows⟩ := ih there
        exact ⟨found, same, by simpa using shows⟩

/-- The number of a line of the text of bytes is its number in the bytes. -/
theorem isLineOf_of_lines {bytes : List UInt8} {shown : List Char} {index : Nat}
    (there : (lines (decodeLossy bytes))[index]? = some shown) :
    IsLineOf bytes (index + 1) shown := by
  obtain ⟨stretch, found, shows⟩ := exists_of_getElem?_lines there
  rw [Utf8.splitOn_lineFeed, List.getElem?_map, Option.map_eq_some_iff] at found
  obtain ⟨line, found, rfl⟩ := found
  obtain ⟨before, behind, whole, starts, free, ends, count, last⟩ :=
    exists_of_getElem?_splitOn found
  refine ⟨before, line, behind, whole, starts, free, ends, by rw [count], ?_⟩
  rw [shows, Utf8.splitOn_lineFeed, List.length_map]
  simp only [last]

end AssetUsage.Text
