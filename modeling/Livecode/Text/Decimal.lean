import Livecode.Text.Basic

/-!
# Decimal numbers

Natural numbers as ASCII digits, without leading zeros.

## Main results

* `ofDecimal?_decimal` — reading a written number gives it back.
-/

namespace Livecode.Text

/-- The digits of a number, none superfluous. -/
def decimal (n : Nat) : Text := Nat.toDigits 10 n

/-- The number that ASCII digits stand for, leading zeros allowed; no number if there is another
character or none at all. -/
def ofDecimal? (t : Text) : Option Nat :=
  if t ≠ [] ∧ t.all Char.isDigit then some (Nat.ofDigitChars 10 t 0) else none

theorem decimal_ne_nil (n : Nat) : decimal n ≠ [] := Nat.toDigits_ne_nil

theorem isDigit_of_mem_decimal {n : Nat} {c : Char} (h : c ∈ decimal n) : c.isDigit = true :=
  Nat.isDigit_of_mem_toDigits (by omega) (by omega) h

/-- A number above zero is written without a zero in front. -/
theorem exists_decimal_eq_cons {n : Nat} (h : 0 < n) :
    ∃ d ds, decimal n = d :: ds ∧ d ≠ '0' := by
  induction n using Nat.strongRecOn with
  | ind n ih =>
    by_cases hsmall : n < 10
    · have hdigit : ∀ m < 10, 0 < m → Nat.digitChar m ≠ '0' := by decide
      exact ⟨_, _, Nat.toDigits_of_lt_base hsmall, hdigit n hsmall h⟩
    · obtain ⟨d, ds, hds, hd⟩ := ih (n / 10) (by omega) (by omega)
      refine ⟨d, ds ++ [(n % 10).digitChar], ?_, hd⟩
      rw [decimal, Nat.toDigits_of_base_le (by omega) (by omega), ← decimal, hds, List.cons_append]

/-- Reading a written number gives it back. -/
@[simp] theorem ofDecimal?_decimal (n : Nat) : ofDecimal? (decimal n) = some n := by
  have h : (decimal n).all Char.isDigit = true :=
    List.all_eq_true.2 fun c hc => isDigit_of_mem_decimal hc
  rw [ofDecimal?, if_pos ⟨decimal_ne_nil n, h⟩]
  exact congrArg some (Nat.ofDigitChars_toDigits (by omega) (by omega))

end Livecode.Text
