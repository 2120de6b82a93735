/-!
# Text

Every text in this library — source code, wire messages, program output — is a list of
characters. Scanners recurse on it directly, and a `String` appears only where text enters or
leaves the program.

## Main results

* `trim_idem` — trimming twice is trimming once.
-/

namespace Livecode

/-- Text as its list of Unicode scalar values. -/
abbrev Text := List Char

/-- String literals are read as texts. -/
instance : Coe String Text := ⟨String.toList⟩

namespace Text

/-! ## Blanks -/

/-- A character with the Unicode property White_Space. -/
def isBlank (c : Char) : Bool :=
  let n := c.toNat
  (0x09 ≤ n && n ≤ 0x0D) || n == 0x20 || n == 0x85 || n == 0xA0 || n == 0x1680 ||
    (0x2000 ≤ n && n ≤ 0x200A) || n == 0x2028 || n == 0x2029 || n == 0x202F || n == 0x205F ||
    n == 0x3000

/-- No character but blanks. -/
def isAllBlank (t : Text) : Bool := t.all isBlank

/-! ## Trimming -/

/-- Drops the longest run of characters satisfying `p` at the end. -/
def dropEndWhile (p : Char → Bool) (t : Text) : Text :=
  (t.reverse.dropWhile p).reverse

@[simp] theorem dropEndWhile_nil (p : Char → Bool) : dropEndWhile p [] = [] := rfl

theorem dropEndWhile_append_singleton (p : Char → Bool) (t : Text) (c : Char) :
    dropEndWhile p (t ++ [c]) = if p c then dropEndWhile p t else t ++ [c] := by
  by_cases h : p c <;> simp [dropEndWhile, h]

theorem dropEndWhile_eq_self {p : Char → Bool} {t : Text}
    (h : ∀ c, t.getLast? = some c → p c = false) : dropEndWhile p t = t := by
  cases hc : t.getLast? with
  | none => rw [List.getLast?_eq_none_iff.1 hc, dropEndWhile_nil]
  | some c =>
    obtain ⟨s, rfl⟩ := List.getLast?_eq_some_iff.1 hc
    rw [dropEndWhile_append_singleton, h c hc, if_neg Bool.false_ne_true]

/-- Without the blanks at both ends. -/
def trim (t : Text) : Text := dropEndWhile isBlank (t.dropWhile isBlank)

private theorem dropWhile_idem (p : Char → Bool) (t : Text) :
    (t.dropWhile p).dropWhile p = t.dropWhile p := by
  induction t with
  | nil => rfl
  | cons c t ih => by_cases h : p c <;> simp [h, ih]

theorem dropEndWhile_idem (p : Char → Bool) (t : Text) :
    dropEndWhile p (dropEndWhile p t) = dropEndWhile p t := by
  simp [dropEndWhile, dropWhile_idem]

/-- What is left after dropping at the end is a prefix. -/
theorem dropEndWhile_isPrefix (p : Char → Bool) (t : Text) : dropEndWhile p t <+: t := by
  have h := List.dropWhile_suffix (l := t.reverse) p
  simpa [dropEndWhile] using List.reverse_prefix.2 h

private theorem dropWhile_eq_self_of_isPrefix {p : Char → Bool} {s t : Text} (hs : s <+: t)
    (h : t.dropWhile p = t) : s.dropWhile p = s := by
  obtain ⟨r, rfl⟩ := hs
  cases s with
  | nil => rfl
  | cons c s =>
    by_cases hc : p c
    · have hlen := congrArg List.length h
      have := (List.dropWhile_suffix (l := s ++ r) p).length_le
      simp [hc] at hlen this
      omega
    · simp [hc]

/-- Trimming twice is trimming once. -/
theorem trim_idem (t : Text) : trim (trim t) = trim t := by
  unfold trim
  rw [dropWhile_eq_self_of_isPrefix (dropEndWhile_isPrefix _ _) (dropWhile_idem _ _),
    dropEndWhile_idem]

end Text
end Livecode
