/-!
# Positions and selections

A position is a zero-based line and column, columns counted in characters. Positions are ordered
by line and then by column. A selection is the span between a fixed end, the *anchor*, and the end
where the cursor sits, the *active* one; either may come first.
-/

namespace Livecode

/-- A place in a buffer; it may lie outside of it. -/
structure Position where
  line : Nat
  column : Nat
  deriving DecidableEq, Repr, Inhabited

namespace Position

/-- Earlier line, or the same line and no later column. -/
protected def le (p q : Position) : Prop :=
  p.line < q.line ∨ (p.line = q.line ∧ p.column ≤ q.column)

instance : LE Position := ⟨Position.le⟩

theorem le_def {p q : Position} :
    p ≤ q ↔ p.line < q.line ∨ (p.line = q.line ∧ p.column ≤ q.column) := Iff.rfl

protected theorem le_trans {p q r : Position} (hpq : p ≤ q) (hqr : q ≤ r) : p ≤ r := by
  rw [le_def] at hpq hqr ⊢
  omega

theorem origin_le (p : Position) : (⟨0, 0⟩ : Position) ≤ p := by
  rw [le_def]
  simp only
  omega

instance (p q : Position) : Decidable (p ≤ q) :=
  inferInstanceAs (Decidable (_ ∨ _))

instance : Min Position := ⟨fun p q => if p ≤ q then p else q⟩
instance : Max Position := ⟨fun p q => if p ≤ q then q else p⟩

theorem min_le_max (p q : Position) : min p q ≤ max p q := by
  simp only [min, max]
  split
  · assumption
  · next h =>
    rw [le_def] at h ⊢
    omega

/-- The largest coordinate a position can have. -/
def limit : Nat := UInt64.size - 1

end Position

/-- An editor selection; `active` is where the cursor sits. -/
structure Selection where
  anchor : Position
  active : Position
  deriving DecidableEq, Repr, Inhabited

namespace Selection

/-- A collapsed selection: just a cursor. -/
def caret (p : Position) : Selection := ⟨p, p⟩

/-- Nothing lies between the two ends. -/
def isEmpty (s : Selection) : Bool := s.anchor == s.active

/-- The earlier end. -/
def start (s : Selection) : Position := min s.anchor s.active

/-- The later end. -/
def finish (s : Selection) : Position := max s.anchor s.active

@[simp] theorem isEmpty_caret (p : Position) : (caret p).isEmpty = true := by
  simp [caret, isEmpty]

end Selection
end Livecode
