import Livecode.Text.Decimal

/-!
# Writing JSON

Compact JSON texts. In a string the quote, the backslash and the control characters below `U+0020`
are escaped, everything else stands for itself.

## Main results

* `not_control_of_mem_quote` — a written string holds no control character.
-/

namespace Livecode.Json

/-- The digit of a number below sixteen. -/
private def hexDigit (n : Nat) : Char := Nat.digitChar n

/-- A character inside a string. -/
def escapeChar (c : Char) : Text :=
  match c with
  | '"' => ['\\', '"']
  | '\\' => ['\\', '\\']
  | '\x08' => ['\\', 'b']
  | '\x0c' => ['\\', 'f']
  | '\n' => ['\\', 'n']
  | '\r' => ['\\', 'r']
  | '\t' => ['\\', 't']
  | c =>
    if c.toNat < 0x20 then
      ['\\', 'u', '0', '0', hexDigit (c.toNat / 16), hexDigit (c.toNat % 16)]
    else [c]

/-- A string. -/
def quote (t : Text) : Text := '"' :: (t.flatMap escapeChar ++ ['"'])

/-- A natural number. -/
def natural (n : Nat) : Text := Text.decimal n

def null : Text := "null"

/-- Some written fields, separated by commas. -/
def fieldList : List (Text × Text) → Text
  | [] => []
  | [(k, v)] => quote k ++ ':' :: v
  | (k, v) :: f :: fs => quote k ++ ':' :: v ++ ',' :: fieldList (f :: fs)

/-- An object of fields whose values are written already. -/
def object (fields : List (Text × Text)) : Text := '{' :: (fieldList fields ++ ['}'])

private theorem control_hexDigit (n : Nat) (h : n < 16) : 0x20 ≤ (hexDigit n).toNat := by
  have : ∀ m < 16, 0x20 ≤ (hexDigit m).toNat := by decide
  exact this n h

theorem not_control_of_mem_escapeChar {c d : Char} (h : d ∈ escapeChar c) : 0x20 ≤ d.toNat := by
  unfold escapeChar at h
  split at h
  case h_8 =>
    split at h
    · simp only [List.mem_cons, List.not_mem_nil, or_false] at h
      rcases h with rfl | rfl | rfl | rfl | rfl | rfl
      · decide
      · decide
      · decide
      · decide
      · exact control_hexDigit _ (by omega)
      · exact control_hexDigit _ (by omega)
    · simp only [List.mem_cons, List.not_mem_nil, or_false] at h
      subst h
      omega
  all_goals
    simp only [List.mem_cons, List.not_mem_nil, or_false] at h
    rcases h with rfl | rfl <;> decide

/-- A written string holds no control character. -/
theorem not_control_of_mem_quote {t : Text} {d : Char} (h : d ∈ quote t) : 0x20 ≤ d.toNat := by
  simp only [quote, List.mem_cons, List.mem_append, List.mem_flatMap, List.not_mem_nil,
    or_false] at h
  rcases h with rfl | ⟨c, -, hd⟩ | rfl
  · decide
  · exact not_control_of_mem_escapeChar hd
  · decide

end Livecode.Json
