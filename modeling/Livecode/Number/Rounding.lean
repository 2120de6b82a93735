/-!
# Rounding

Quotients of natural numbers rounded to the nearest integer, or to a number of significant binary
digits; a value halfway between two goes to the even one.
-/

namespace Livecode.Number

/-- `num / den` rounded to the nearest integer, a tie to the even one. -/
def roundDiv (num den : Nat) : Nat :=
  let q := num / den
  let twice := 2 * (num % den)
  if twice < den ∨ (twice = den ∧ q % 2 = 0) then q else q + 1

/-- `num / den` rounded to `bits` significant binary digits, provided that it has as many before
the point. -/
def roundRatio (bits num den : Nat) : Nat :=
  let drop := (num / den).log2 + 1 - bits
  roundDiv num (den <<< drop) <<< drop

/-- A natural number rounded to `bits` significant binary digits. -/
def roundBits (bits n : Nat) : Nat := roundRatio bits n 1

end Livecode.Number
