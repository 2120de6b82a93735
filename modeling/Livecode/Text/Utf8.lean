import Livecode.Text.Basic

/-!
# UTF-8

A machine that reads bytes one at a time and gives out the characters they encode. Where the bytes
encode nothing, each longest start of a character that cannot be completed, and each byte that can
start none, gives out one *fault* instead. Strict decoding accepts no fault; lossy decoding puts a
replacement character for each.

## Main results

* `decodeLossy_of_decode?` — where strict decoding succeeds, lossy decoding agrees with it.
-/

namespace Livecode.Utf8

/-- Where the machine stands between two bytes. -/
inductive State where
  /-- Between characters. -/
  | ready
  /-- Within a character: `more` bytes are due after the next one, which must lie from `low` to
  `high`, and `value` collects the bits read so far. -/
  | within (more : Nat) (low high : UInt8) (value : Nat)
  deriving DecidableEq, Repr

/-- What is given out: a character, or `none` for a fault. -/
abbrev Unit := Option Char

/-- Reads the first byte of a character. -/
def lead (b : UInt8) : List Unit × State :=
  if b < 0x80 then ([some (Char.ofNat b.toNat)], .ready)
  else if b < 0xC2 then ([none], .ready)
  else if b < 0xE0 then ([], .within 0 0x80 0xBF (b.toNat - 0xC0))
  else if b < 0xF0 then
    ([], .within 1 (if b = 0xE0 then 0xA0 else 0x80) (if b = 0xED then 0x9F else 0xBF)
      (b.toNat - 0xE0))
  else if b < 0xF5 then
    ([], .within 2 (if b = 0xF0 then 0x90 else 0x80) (if b = 0xF4 then 0x8F else 0xBF)
      (b.toNat - 0xF0))
  else ([none], .ready)

/-- Reads one byte. A byte that cannot continue the character begun ends it with a fault and is
read afresh. -/
def step : State → UInt8 → List Unit × State
  | .ready, b => lead b
  | .within more low high value, b =>
    if low ≤ b ∧ b ≤ high then
      let value := value * 64 + (b.toNat - 0x80)
      match more with
      | 0 => ([some (Char.ofNat value)], .ready)
      | more + 1 => ([], .within more 0x80 0xBF value)
    else (none :: (lead b).1, (lead b).2)

section
variable {more : Nat} {low high b : UInt8} {value : Nat}

/-- The last byte of a character that was begun. -/
theorem step_within_last (h : low ≤ b ∧ b ≤ high) :
    step (.within 0 low high value) b =
      ([some (Char.ofNat (value * 64 + (b.toNat - 0x80)))], .ready) := if_pos h

/-- A byte that more bytes follow. -/
theorem step_within_more (h : low ≤ b ∧ b ≤ high) :
    step (.within (more + 1) low high value) b =
      ([], .within more 0x80 0xBF (value * 64 + (b.toNat - 0x80))) := if_pos h

/-- A byte that cannot continue the character begun. -/
theorem step_within_stray (h : ¬ (low ≤ b ∧ b ≤ high)) :
    step (.within more low high value) b = (none :: (lead b).1, (lead b).2) := if_neg h

end

/-- What some bytes give out. A character that the end cuts short is a fault. -/
def units : State → List UInt8 → List Unit
  | .ready, [] => []
  | .within .., [] => [none]
  | s, b :: bs => (step s b).1 ++ units (step s b).2 bs

theorem units_cons (s : State) (b : UInt8) (bs : List UInt8) :
    units s (b :: bs) = (step s b).1 ++ units (step s b).2 bs := by
  cases s <;> rfl

/-- Stands for a fault. -/
def replacement : Char := '\uFFFD'

/-- The text that bytes encode, a replacement character for each fault. -/
def decodeLossy (bs : List UInt8) : Text := (units .ready bs).map (·.getD replacement)

/-- The text that bytes encode, if there is no fault in them. -/
def decode? (bs : List UInt8) : Option Text := (units .ready bs).mapM id

/-- The bytes of a text. -/
def encode (t : Text) : List UInt8 := t.flatMap String.utf8EncodeChar

private theorem map_getD_of_mapM {us : List Unit} {t : Text} (h : us.mapM id = some t) :
    us.map (·.getD replacement) = t := by
  induction us generalizing t with
  | nil => simp_all
  | cons u us ih =>
    simp only [List.mapM_cons, Option.bind_eq_bind, Option.bind_eq_some_iff, id] at h
    obtain ⟨c, rfl, t', ht, heq⟩ := h
    cases heq
    simp [ih ht]

/-- Where strict decoding succeeds, lossy decoding agrees with it. -/
theorem decodeLossy_of_decode? {bs : List UInt8} {t : Text} (h : decode? bs = some t) :
    decodeLossy bs = t := map_getD_of_mapM h

end Livecode.Utf8
