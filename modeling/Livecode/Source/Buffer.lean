import Livecode.Text.Line
import Livecode.Source.Position

/-!
# Source buffers

Editor text as an ordered list of lines. A position addresses an *offset* in the text of the
buffer; positions past the end of a line or of the buffer are clamped. The text between two
positions is the slice of the buffer's text between their offsets.

## Main results

* `textBetween_comm` — the order of the two positions does not matter.
-/

namespace Livecode

/-- The lines of an editor text, without their terminators. -/
structure Buffer where
  lines : List Text
  deriving DecidableEq, Repr, Inhabited

namespace Buffer

/-- Reads a text as lines. -/
def ofText (t : Text) : Buffer := ⟨Text.lines t⟩

/-- The whole text, lines separated by line feeds. -/
def text (b : Buffer) : Text := Text.unlines b.lines

/-- No characters at all. -/
def isEmpty (b : Buffer) : Bool := b.lines.all List.isEmpty

/-! ## Spans -/

/-- The offset of a line and column in the joined text of some lines. A column past its line
stands for the line's end, and a line past the last one for the end of the text. -/
def offsetIn : List Text → (line column : Nat) → Nat
  | [], _, _ => 0
  | l :: _, 0, column => min column l.length
  | [l], _ + 1, _ => l.length
  | l :: m :: ls, line + 1, column => l.length + 1 + offsetIn (m :: ls) line column

/-- The offset that a position addresses. -/
def offset (b : Buffer) (p : Position) : Nat := offsetIn b.lines p.line p.column

/-- The text from the earlier position up to the later one. -/
def textBetween (b : Buffer) (p q : Position) : Text :=
  let first := b.offset (min p q)
  let last := b.offset (max p q)
  (b.text.drop first).take (last - first)

/-- The text of a selection. -/
def selectedText (b : Buffer) (s : Selection) : Text := b.textBetween s.start s.finish

/-- The text that an evaluation of visual code runs on: the selected text, or the whole text when
nothing is selected. -/
def evaluationText (b : Buffer) : Option Selection → Text
  | none => b.text
  | some s =>
    let selected := if s.isEmpty then [] else b.selectedText s
    if selected = [] then b.text else selected

theorem textBetween_comm (b : Buffer) (p q : Position) : b.textBetween p q = b.textBetween q p := by
  have hmin : min p q = min q p := by
    simp only [min, Position.le_def]
    obtain ⟨pl, pc⟩ := p
    obtain ⟨ql, qc⟩ := q
    simp only
    split <;> split <;> simp only [Position.mk.injEq] <;> omega
  have hmax : max p q = max q p := by
    simp only [max, Position.le_def]
    obtain ⟨pl, pc⟩ := p
    obtain ⟨ql, qc⟩ := q
    simp only
    split <;> split <;> simp only [Position.mk.injEq] <;> omega
  simp only [textBetween, hmin, hmax]

end Buffer
end Livecode
