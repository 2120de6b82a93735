import Livecode.Text.Basic

/-!
# Statements

A statement is one complete unit of visual code: a text without surrounding blanks that is not
empty. Both facts are part of the type.
-/

namespace Livecode

/-- One unit of visual code. -/
structure Statement where
  text : Text
  trim_text : Text.trim text = text
  text_ne_nil : text ≠ []

namespace Statement

instance : DecidableEq Statement := fun a b =>
  decidable_of_iff (a.text = b.text) <| by
    cases a; cases b; simp

/-- Trims a text; nothing is left of a blank one. -/
def ofText? (t : Text) : Option Statement :=
  if h : Text.trim t = [] then none else some ⟨Text.trim t, Text.trim_idem t, h⟩

theorem text_ofText? (t : Text) :
    (ofText? t).map text = if Text.trim t = [] then none else some (Text.trim t) := by
  unfold ofText?
  split <;> simp_all

end Statement
end Livecode
