import Livecode.Text.Line
import Livecode.Text.Utf8

/-!
# Encoding and decoding

Decoding reads back what was encoded: each encoded character takes the machine from between two
characters to there again and gives out that character. Encoding also leaves lines alone: the byte
of a line feed is part of no other character, so the bytes of a text are cut into lines where the
text is.

## Main results

* `decode?_encode`, `decodeLossy_encode` — the bytes of a text are read as that text.
* `pieces_encode` — the lines of the bytes are the bytes of the lines.
-/

namespace Livecode.Utf8

/-! ## One character -/

private theorem toNat_ofNat {n : Nat} (h : n < 256) : (UInt8.ofNat n).toNat = n :=
  UInt8.toNat_ofNat_of_lt' h

private theorem mem_range_ofNat {low high : UInt8} {x : Nat} (hx : x < 64)
    (hlow : low.toNat ≤ x + 128) (hhigh : x + 128 ≤ high.toNat) :
    low ≤ UInt8.ofNat (x + 128) ∧ UInt8.ofNat (x + 128) ≤ high := by
  rw [UInt8.le_iff_toNat_le, UInt8.le_iff_toNat_le, toNat_ofNat (by omega)]
  exact ⟨hlow, hhigh⟩

private theorem step_last {low high : UInt8} {value x : Nat} (hx : x < 64)
    (hlow : low.toNat ≤ x + 128) (hhigh : x + 128 ≤ high.toNat) :
    step (.within 0 low high value) (UInt8.ofNat (x + 128)) =
      ([some (Char.ofNat (value * 64 + x))], .ready) := by
  rw [step_within_last (mem_range_ofNat hx hlow hhigh), toNat_ofNat (by omega), Nat.add_sub_cancel]

private theorem step_more {more : Nat} {low high : UInt8} {value x : Nat} (hx : x < 64)
    (hlow : low.toNat ≤ x + 128) (hhigh : x + 128 ≤ high.toNat) :
    step (.within (more + 1) low high value) (UInt8.ofNat (x + 128)) =
      ([], .within more 0x80 0xBF (value * 64 + x)) := by
  rw [step_within_more (mem_range_ofNat hx hlow hhigh), toNat_ofNat (by omega), Nat.add_sub_cancel]

private theorem lead_eq {n : Nat} (h : n < 256) :
    lead (UInt8.ofNat n) =
      if n < 0x80 then ([some (Char.ofNat n)], .ready)
      else if n < 0xC2 then ([none], .ready)
      else if n < 0xE0 then ([], .within 0 0x80 0xBF (n - 0xC0))
      else if n < 0xF0 then
        ([], .within 1 (if n = 0xE0 then 0xA0 else 0x80) (if n = 0xED then 0x9F else 0xBF)
          (n - 0xE0))
      else if n < 0xF5 then
        ([], .within 2 (if n = 0xF0 then 0x90 else 0x80) (if n = 0xF4 then 0x8F else 0xBF)
          (n - 0xF0))
      else ([none], .ready) := by
  have hb : (UInt8.ofNat n).toNat = n := toNat_ofNat h
  have heq : ∀ k : UInt8, UInt8.ofNat n = k ↔ n = k.toNat := by
    intro k
    rw [← UInt8.toNat_inj, hb]
  simp only [lead, UInt8.lt_iff_toNat_lt, heq, hb]
  rfl

/-- An encoded character is given out as it was, and nothing is owed after it. -/
theorem units_utf8EncodeChar (c : Char) (bs : List UInt8) :
    units .ready (String.utf8EncodeChar c ++ bs) = some c :: units .ready bs := by
  have hvalid : c.toNat < 0xD800 ∨ 0xDFFF < c.toNat ∧ c.toNat < 0x110000 := c.valid
  have hc : c.val.toNat = c.toNat := rfl
  have hchar : ∀ n, n = c.toNat → Char.ofNat n = c := fun n hn => by rw [hn, Char.ofNat_toNat]
  simp only [String.utf8EncodeChar, hc]
  generalize hv : c.toNat = v at *
  split
  · rw [List.singleton_append, units_cons]
    simp only [step]
    rw [lead_eq (by omega), if_pos (by omega), hchar v rfl]
    rfl
  split
  · simp only [List.cons_append, List.nil_append]
    rw [units_cons]
    simp only [step]
    rw [lead_eq (by omega), if_neg (by omega), if_neg (by omega), if_pos (by omega), units_cons,
      step_last (by omega) (by simp) (by simp; omega), hchar _ (by omega)]
    rfl
  split
  · simp only [List.cons_append, List.nil_append]
    rw [units_cons]
    simp only [step]
    rw [lead_eq (by omega), if_neg (by omega), if_neg (by omega), if_neg (by omega),
      if_pos (by omega), units_cons,
      step_more (by omega) (by split <;> simp only [UInt8.reduceToNat] <;> omega)
        (by split <;> simp only [UInt8.reduceToNat] <;> omega), units_cons,
      step_last (by omega) (by simp) (by simp; omega), hchar _ (by omega)]
    rfl
  · simp only [List.cons_append, List.nil_append]
    rw [units_cons]
    simp only [step]
    rw [lead_eq (by omega), if_neg (by omega), if_neg (by omega), if_neg (by omega),
      if_neg (by omega), if_pos (by omega), units_cons,
      step_more (by omega) (by split <;> simp only [UInt8.reduceToNat] <;> omega)
        (by split <;> simp only [UInt8.reduceToNat] <;> omega), units_cons,
      step_more (by omega) (by simp) (by simp; omega), units_cons,
      step_last (by omega) (by simp) (by simp; omega), hchar _ (by omega)]
    rfl

/-! ## Texts -/

@[simp] theorem encode_append (a b : Text) : encode (a ++ b) = encode a ++ encode b :=
  List.flatMap_append ..

theorem encode_cons (c : Char) (t : Text) :
    encode (c :: t) = String.utf8EncodeChar c ++ encode t := rfl

theorem units_encode (t : Text) : units .ready (encode t) = t.map some := by
  induction t with
  | nil => rfl
  | cons c t ih => rw [encode_cons, units_utf8EncodeChar, ih, List.map_cons]

/-- Strict decoding reads back what was encoded. -/
theorem decode?_encode (t : Text) : decode? (encode t) = some t := by
  rw [decode?, units_encode]
  induction t with
  | nil => rfl
  | cons c t ih => simp [List.mapM_cons, ih]

/-- The bytes of a text are read as that text. -/
theorem decodeLossy_encode (t : Text) : decodeLossy (encode t) = t :=
  decodeLossy_of_decode? (decode?_encode t)

/-! ## Line feeds -/

private theorem lineFeed_ne_ofNat {n : Nat} (h : n < 256) (h10 : n ≠ 10) :
    (0x0A : UInt8) ≠ UInt8.ofNat n := by
  intro heq
  have := congrArg UInt8.toNat heq
  rw [toNat_ofNat h] at this
  exact h10 this.symm

/-- The byte of a line feed is part of no other character. -/
theorem lineFeed_not_mem_utf8EncodeChar {c : Char} (h : c ≠ '\n') :
    (0x0A : UInt8) ∉ String.utf8EncodeChar c := by
  have hne : c.toNat ≠ 10 := fun heq => h (by rw [← Char.ofNat_toNat c, heq])
  have hc : c.val.toNat = c.toNat := rfl
  intro hmem
  simp only [String.utf8EncodeChar, hc] at hmem
  generalize c.toNat = v at *
  split at hmem
  · exact lineFeed_ne_ofNat (by omega) hne (List.mem_singleton.1 hmem)
  -- The bytes of all other characters lie above the ASCII range.
  split at hmem
  · simp only [List.mem_cons, List.not_mem_nil, or_false] at hmem
    rcases hmem with hmem | hmem <;> exact lineFeed_ne_ofNat (by omega) (by omega) hmem
  split at hmem
  · simp only [List.mem_cons, List.not_mem_nil, or_false] at hmem
    rcases hmem with hmem | hmem | hmem <;> exact lineFeed_ne_ofNat (by omega) (by omega) hmem
  · simp only [List.mem_cons, List.not_mem_nil, or_false] at hmem
    rcases hmem with hmem | hmem | hmem | hmem <;>
      exact lineFeed_ne_ofNat (by omega) (by omega) hmem

theorem lineFeed_not_mem_encode {t : Text} (h : '\n' ∉ t) : (0x0A : UInt8) ∉ encode t := by
  intro hmem
  obtain ⟨c, hc, hb⟩ := List.mem_flatMap.1 hmem
  exact lineFeed_not_mem_utf8EncodeChar (fun heq => h (heq ▸ hc)) hb

/-- The lines of the bytes are the bytes of the lines. -/
theorem pieces_encode (t : Text) :
    Text.pieces 0x0A (encode t) = (Text.pieces '\n' t).map encode := by
  refine Text.pieces_map '\n' (fun a b => ?_) (fun _ => lineFeed_not_mem_encode) t
  rw [encode_append, encode_cons]
  rfl

end Livecode.Utf8
