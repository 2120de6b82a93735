import Livecode.Text.Line
import Livecode.Text.Utf8

/-!
# Decoding and line feeds

Bytes may be decoded as a whole or line by line, however malformed they are. No byte of a character
of several bytes lies in the ASCII range. So a line feed ends whatever has been begun, as the end of
the bytes does, and it is itself given out as it is; and a line feed is given out for no other
byte.

Both facts rest on what the machine may stand at: within a character, neither the byte that is due
nor the character that it can end in is an ASCII one (`State.Multibyte`).

## Main results

* `decodeLossy_append_lineFeed` — what stands before a line feed and what follows it are decoded
  apart.
* `pieces_decodeLossy` — the lines of what is decoded are the lines of the bytes, decoded.
-/

namespace Livecode.Utf8

/-! ## The states of the machine -/

/-- Within a character the next byte due is no ASCII byte, and the bits collected so far, or those
that the next byte must bring, are not all zero. -/
def State.Multibyte : State → Prop
  | .ready => True
  | .within more low _ value => 0x80 ≤ low.toNat ∧ (0 < value ∨ 0 < more ∧ 0x80 < low.toNat)

theorem multibyte_lead (b : UInt8) : (lead b).2.Multibyte := by
  unfold lead
  simp only [UInt8.lt_iff_toNat_lt, UInt8.reduceToNat]
  split
  · trivial
  split
  · trivial
  split
  · exact ⟨by decide, .inl (by omega)⟩
  split
  · by_cases hb : b = 0xE0
    · rw [if_pos hb]
      exact ⟨by decide, .inr (by decide)⟩
    · have hne : b.toNat ≠ 0xE0 := fun h => hb (UInt8.toNat_inj.mp h)
      rw [if_neg hb]
      exact ⟨by decide, .inl (by omega)⟩
  split
  · by_cases hb : b = 0xF0
    · rw [if_pos hb]
      exact ⟨by decide, .inr (by decide)⟩
    · have hne : b.toNat ≠ 0xF0 := fun h => hb (UInt8.toNat_inj.mp h)
      rw [if_neg hb]
      exact ⟨by decide, .inl (by omega)⟩
  · trivial

/-- The bits collected so far, or those of the next byte, are not all zero. -/
theorem pos_of_multibyte {more : Nat} {low high b : UInt8} {value : Nat}
    (h : (State.within more low high value).Multibyte) (hb : low ≤ b) :
    0 < value * 64 + (b.toNat - 0x80) := by
  rw [UInt8.le_iff_toNat_le] at hb
  obtain ⟨-, hvalue | ⟨-, hlow⟩⟩ := h <;> omega

/-- Every byte leads from such a state to one again. -/
theorem State.Multibyte.step {s : State} (h : s.Multibyte) (b : UInt8) :
    (Utf8.step s b).2.Multibyte := by
  cases s with
  | ready => exact multibyte_lead b
  | within more low high value =>
    by_cases hin : low ≤ b ∧ b ≤ high
    · cases more with
      | zero =>
        rw [step_within_last hin]
        trivial
      | succ more =>
        rw [step_within_more hin]
        exact ⟨by decide, .inl (pos_of_multibyte h hin.1)⟩
    · rw [step_within_stray hin]
      exact multibyte_lead b

/-! ## A line feed ends what has been begun -/

/-- A line feed is given out as it is, behind the fault of a character that it cuts short. -/
theorem units_lineFeed {s : State} (h : s.Multibyte) (bs : List UInt8) :
    units s (0x0A :: bs) = units s [] ++ some '\n' :: units .ready bs := by
  rw [units_cons]
  cases s with
  | ready => rfl
  | within more low high value =>
    have hout : ¬ (low ≤ 0x0A ∧ 0x0A ≤ high) := by
      rintro ⟨hlow, -⟩
      have hle : low.toNat ≤ 0x0A := UInt8.le_iff_toNat_le.mp hlow
      have hmulti := h.1
      omega
    rw [step_within_stray hout]
    rfl

theorem units_append_lineFeed {s : State} (h : s.Multibyte) (as bs : List UInt8) :
    units s (as ++ 0x0A :: bs) = units s as ++ some '\n' :: units .ready bs := by
  induction as generalizing s with
  | nil => exact units_lineFeed h bs
  | cons a as ih => rw [List.cons_append, units_cons, units_cons, ih (h.step a), List.append_assoc]

/-- What stands before a line feed and what follows it are decoded apart. -/
theorem decodeLossy_append_lineFeed (as bs : List UInt8) :
    decodeLossy (as ++ 0x0A :: bs) = decodeLossy as ++ '\n' :: decodeLossy bs := by
  have hready : State.ready.Multibyte := trivial
  rw [decodeLossy, units_append_lineFeed hready, List.map_append, List.map_cons]
  rfl

/-! ## No other byte gives out a line feed -/

theorem ofNat_ne_lineFeed {n : Nat} (h : n ≠ 0x0A) : Char.ofNat n ≠ '\n' := by
  intro heq
  by_cases hvalid : n.isValidChar
  · have hn : (Char.ofNat n).toNat = n := by
      rw [Char.ofNat, dif_pos hvalid]
      rfl
    rw [heq] at hn
    exact h hn.symm
  · rw [Char.ofNat, dif_neg hvalid] at heq
    exact absurd heq (by decide)

theorem lineFeed_not_mem_lead {b : UInt8} (hb : b ≠ 0x0A) : some '\n' ∉ (lead b).1 := by
  have hne : b.toNat ≠ 0x0A := fun h => hb (UInt8.toNat_inj.mp h)
  unfold lead
  split
  · simpa using (ofNat_ne_lineFeed hne).symm
  repeat' split
  all_goals simp

theorem lineFeed_not_mem_step {s : State} (h : s.Multibyte) {b : UInt8} (hb : b ≠ 0x0A) :
    some '\n' ∉ (step s b).1 := by
  cases s with
  | ready => exact lineFeed_not_mem_lead hb
  | within more low high value =>
    by_cases hin : low ≤ b ∧ b ≤ high
    · cases more with
      | zero =>
        -- The last byte: the bits before it already exceed the ASCII range.
        have hvalue : 0 < value := h.2.resolve_right fun hmore => absurd hmore.1 (Nat.lt_irrefl 0)
        have hne : value * 64 + (b.toNat - 0x80) ≠ 0x0A := by omega
        rw [step_within_last hin]
        simpa using (ofNat_ne_lineFeed hne).symm
      | succ more =>
        rw [step_within_more hin]
        exact List.not_mem_nil
    · rw [step_within_stray hin, List.mem_cons, not_or]
      exact ⟨nofun, lineFeed_not_mem_lead hb⟩

theorem lineFeed_not_mem_units {s : State} (h : s.Multibyte) {bs : List UInt8}
    (hbs : (0x0A : UInt8) ∉ bs) : some '\n' ∉ units s bs := by
  induction bs generalizing s with
  | nil => cases s <;> simp [units]
  | cons b bs ih =>
    rw [List.mem_cons, not_or] at hbs
    rw [units_cons, List.mem_append, not_or]
    exact ⟨lineFeed_not_mem_step h (Ne.symm hbs.1), ih (h.step b) hbs.2⟩

theorem lineFeed_not_mem_decodeLossy {bs : List UInt8} (h : (0x0A : UInt8) ∉ bs) :
    '\n' ∉ decodeLossy bs := by
  intro hmem
  obtain ⟨u, hu, hc⟩ := List.mem_map.mp hmem
  cases u with
  | none => exact absurd hc (by decide)
  | some c =>
    have hready : State.ready.Multibyte := trivial
    obtain rfl : c = '\n' := hc
    exact lineFeed_not_mem_units hready h hu

/-! ## Lines -/

theorem units_within_ne_nil (more : Nat) (low high : UInt8) (value : Nat) (bs : List UInt8) :
    units (.within more low high value) bs ≠ [] := by
  induction bs generalizing more low high value with
  | nil => exact List.cons_ne_nil _ _
  | cons b bs ih =>
    rw [units_cons]
    by_cases hin : low ≤ b ∧ b ≤ high
    · cases more with
      | zero =>
        rw [step_within_last hin]
        exact List.cons_ne_nil _ _
      | succ more =>
        rw [step_within_more hin]
        exact ih _ _ _ _
    · rw [step_within_stray hin]
      exact List.cons_ne_nil _ _

/-- A first byte that gives out nothing begins a character. -/
theorem lead_ne_ready {b : UInt8} (h : (lead b).1 = []) : (lead b).2 ≠ .ready := by
  revert h
  unfold lead
  repeat' split
  all_goals simp

/-- Whatever the bytes are, something is given out for them. -/
theorem decodeLossy_eq_nil_iff {bs : List UInt8} : decodeLossy bs = [] ↔ bs = [] := by
  refine ⟨fun h => ?_, fun h => h ▸ rfl⟩
  cases bs with
  | nil => rfl
  | cons b bs =>
    rw [decodeLossy, List.map_eq_nil_iff, units_cons, List.append_eq_nil_iff] at h
    obtain ⟨hnone, hrest⟩ := h
    cases hstate : (step .ready b).2 with
    | ready => exact absurd hstate (lead_ne_ready hnone)
    | within more low high value =>
      rw [hstate] at hrest
      exact absurd hrest (units_within_ne_nil _ _ _ _ _)

/-- The lines of what is decoded are the lines of the bytes, decoded. -/
theorem pieces_decodeLossy (bs : List UInt8) :
    Text.pieces '\n' (decodeLossy bs) = (Text.pieces 0x0A bs).map decodeLossy :=
  Text.pieces_map 0x0A decodeLossy_append_lineFeed (fun _ => lineFeed_not_mem_decodeLossy) bs

end Livecode.Utf8
