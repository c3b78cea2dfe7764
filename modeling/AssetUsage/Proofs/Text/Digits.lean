import AssetUsage.Text.Basic
import Mathlib.Data.Nat.Notation

/-!
# The value of decimal digits

The decimal digits of a number stand for that number (`valueOfDigits_decimal`), and they begin with
a zero only if the number is zero.
-/

namespace AssetUsage.Text

/-- The number that decimal digits stand for. -/
def valueOfDigits (digits : List Char) : ℕ :=
  digits.foldl (fun value c => value * 10 + (c.toNat - '0'.toNat)) 0

/-- One more digit counts once and moves the others up. -/
theorem valueOfDigits_concat (digits : List Char) (c : Char) :
    valueOfDigits (digits ++ [c]) = valueOfDigits digits * 10 + (c.toNat - '0'.toNat) := by
  rw [valueOfDigits, List.foldl_append]
  rfl

/-- The character of a digit is one and has its value. -/
theorem digit_spec {n : ℕ} (small : n < 10) :
    (digit n).isDigit = true ∧ (digit n).toNat - '0'.toNat = n ∧ (digit n = '0' → n = 0) := by
  revert n
  decide

/-- Every character of a number is a digit. -/
theorem isDigit_of_mem_decimal (n : ℕ) : ∀ c ∈ decimal n, c.isDigit = true := by
  induction n using Nat.strongRecOn with
  | ind n ih =>
    rw [decimal]
    split
    · next small => exact List.forall_mem_singleton.2 (digit_spec small).1
    · have last := digit_spec (Nat.mod_lt n (by decide : 0 < 10))
      have front := ih (n / 10) (by omega)
      exact List.forall_mem_append.2 ⟨front, List.forall_mem_singleton.2 last.1⟩

/-- A number holds no control character. -/
theorem control_not_mem_decimal {control : Char} (isControl : control.toNat < 0x20) (n : ℕ) :
    control ∉ decimal n := by
  intro mem
  have digit := isDigit_of_mem_decimal n _ mem
  simp only [Char.isDigit, Bool.and_eq_true, decide_eq_true_eq] at digit
  have low : 48 ≤ control.toNat := digit.1
  omega

/-- The digits of a number stand for it. -/
theorem valueOfDigits_decimal (n : ℕ) : valueOfDigits (decimal n) = n := by
  induction n using Nat.strongRecOn with
  | ind n ih =>
    rw [decimal]
    split
    · next small =>
      have value := (digit_spec small).2.1
      simpa [valueOfDigits] using value
    · have last := (digit_spec (Nat.mod_lt n (by decide : 0 < 10))).2.1
      rw [valueOfDigits_concat, ih (n / 10) (by omega), last]
      omega

/-- Every number has a digit. -/
theorem decimal_ne_nil (n : ℕ) : decimal n ≠ [] := by
  rw [decimal]
  split
  · exact List.cons_ne_nil _ _
  · exact List.append_ne_nil_of_right_ne_nil _ (List.cons_ne_nil _ _)

/-- The first digit of a number other than zero is not zero. -/
theorem head?_decimal_ne {n : ℕ} (positive : n ≠ 0) : (decimal n).head? ≠ some '0' := by
  induction n using Nat.strongRecOn with
  | ind n ih =>
    rw [decimal]
    split
    · next small =>
      intro zero
      exact positive ((digit_spec small).2.2 (Option.some.inj zero))
    · have front := ih (n / 10) (by omega) (by omega)
      obtain ⟨first, others, digits⟩ := List.exists_cons_of_ne_nil (decimal_ne_nil (n / 10))
      rw [digits] at front ⊢
      exact front

end AssetUsage.Text
