import Livecode.Number.Rounding
import Livecode.Text.Decimal

/-!
# JSON numbers

A number literal is either a natural number of 64 bits, written without sign, fraction and
exponent, or some other number, of which no more is kept. A literal too large for a
double-precision float is none.
-/

namespace Livecode.Json

/-- How far a number literal has been read. -/
inductive NumberPhase where
  /-- After the minus sign; a digit is due. -/
  | minus
  /-- After a leading zero; no digit may follow. -/
  | zero
  | whole
  /-- After the point; a digit is due. -/
  | point
  | fraction
  /-- After the exponent mark; a sign or a digit is due. -/
  | mark
  /-- After the sign of the exponent; a digit is due. -/
  | markSign
  | exponent
  deriving DecidableEq, Repr

namespace NumberPhase

/-- The phase in which a literal starts, if the character can start one. -/
def ofFirst? (c : Char) : Option NumberPhase :=
  if c = '-' then some .minus
  else if c = '0' then some .zero
  else if c.isDigit then some .whole
  else none

/-- The literal may end here. -/
def isComplete : NumberPhase → Bool
  | .zero | .whole | .fraction | .exponent => true
  | _ => false

/-- The phase after a further character; none if the character does not belong to the literal. -/
def next? : NumberPhase → Char → Option NumberPhase
  | .minus, c => if c = '0' then some .zero else if c.isDigit then some .whole else none
  | .zero, c =>
    if c = '.' then some .point else if c = 'e' ∨ c = 'E' then some .mark else none
  | .whole, c =>
    if c.isDigit then some .whole
    else if c = '.' then some .point
    else if c = 'e' ∨ c = 'E' then some .mark
    else none
  | .point, c => if c.isDigit then some .fraction else none
  | .fraction, c =>
    if c.isDigit then some .fraction else if c = 'e' ∨ c = 'E' then some .mark else none
  | .mark, c =>
    if c.isDigit then some .exponent else if c = '+' ∨ c = '-' then some .markSign else none
  | .markSign, c => if c.isDigit then some .exponent else none
  | .exponent, c => if c.isDigit then some .exponent else none

end NumberPhase

/-- A decimal number `significand * 10 ^ exponent`. -/
structure Scientific where
  significand : Nat
  exponent : Int
  deriving DecidableEq, Repr

namespace Scientific

/-- Numbers from here on do not fit a word. -/
def wordBound : Nat := UInt64.size

/-- Digits before the point. From the first that makes the significand too large for a word on,
they only raise the exponent. -/
def addWhole (s : Scientific) : Text → Scientific
  | [] => s
  | c :: digits =>
    let larger := 10 * s.significand + (c.toNat - '0'.toNat)
    if larger < wordBound then addWhole ⟨larger, s.exponent⟩ digits
    else ⟨s.significand, s.exponent + (digits.length + 1)⟩

/-- Digits after the point. From the first that makes the significand too large for a word on,
they count for nothing. -/
def addFraction (s : Scientific) : Text → Scientific
  | [] => s
  | c :: digits =>
    let larger := 10 * s.significand + (c.toNat - '0'.toNat)
    if larger < wordBound then addFraction ⟨larger, s.exponent - 1⟩ digits else s

/-- Whether the number is infinite as a double-precision float: the significand and the power of
ten are rounded to 53 binary digits, and so is their product. -/
def isInfinite (s : Scientific) : Bool :=
  if s.significand = 0 ∨ s.exponent < 0 then false
  else if 308 < s.exponent then true
  else
    let power := Number.roundBits 53 (Nat.pow 10 s.exponent.toNat)
    let product := Number.roundBits 53 (Number.roundBits 53 s.significand * power)
    1 <<< 1024 ≤ product

end Scientific

/-- What a number literal stands for. -/
inductive NumberValue where
  /-- A natural number that fits a word, written as such. -/
  | natural (n : Nat)
  | other
  /-- Too large for any number. -/
  | infinite
  deriving DecidableEq, Repr

/-- Reads a complete number literal. -/
def numberValue (literal : Text) : NumberValue :=
  match Text.ofDecimal? literal with
  | some n =>
    if n < Scientific.wordBound then .natural n
    else if (Scientific.addWhole ⟨0, 0⟩ literal).isInfinite then .infinite
    else .other
  | none =>
    let unsigned := literal.dropWhile (· == '-')
    let whole := unsigned.takeWhile Char.isDigit
    let rest := unsigned.dropWhile Char.isDigit
    let fraction := match rest with
      | '.' :: t => t.takeWhile Char.isDigit
      | _ => []
    let power := match rest.dropWhile (fun c => c ≠ 'e' ∧ c ≠ 'E') with
      | _ :: '-' :: t => - (Int.ofNat (Nat.ofDigitChars 10 t 0))
      | _ :: '+' :: t => Int.ofNat (Nat.ofDigitChars 10 t 0)
      | _ :: t => Int.ofNat (Nat.ofDigitChars 10 t 0)
      | [] => 0
    let s := (Scientific.addWhole ⟨0, 0⟩ whole).addFraction fraction
    if Scientific.isInfinite ⟨s.significand, s.exponent + power⟩ then .infinite else .other

end Livecode.Json
