import Livecode.Statement
import Livecode.Statement.Redirect
import Livecode.Source.Buffer

/-!
# Reading statements from visual code

Lines are read one at a time. A comment line is dropped, every other line is redirected and, unless
it is blank, joined to the code still *pending*; the pending code is cut at each terminator `';'`.
What follows the last terminator of the text never becomes a statement.

A line counts as a comment when it has `//` and no `://`: `x = "http://a" // note` is kept whole,
and `a(); // note` is dropped whole.

## Main results

* `toList_of_next?` — the statements of a stream are its next one and those of what is left.
* `toList_of_next?_none` — a stream without a next statement has none.
-/

namespace Livecode

/-- A text being read: its lines not yet read, the code not yet terminated, and the statements
completed but not yet handed out. -/
structure StatementStream where
  redirect : Redirect
  lines : List Text
  pending : Text
  ready : List Statement

namespace StatementStream

/-! ## One line -/

/-- Ends a statement. -/
def terminator : Char := ';'

/-- A line with `//` and without `://`. -/
def isComment (line : Text) : Bool :=
  !Text.contains "://" line && Text.contains "//" line

/-- What a line adds to the pending code; nothing if it is a comment or blank. -/
def contribution (r : Redirect) (line : Text) : Text :=
  let line := Text.dropReturn line
  if isComment line then []
  else
    let line := r.apply line
    if Text.isAllBlank line then [] else line

/-- The statements that a piece of code completes, and the code after its last terminator. -/
def cut (code : Text) : List Statement × Text :=
  let pieces := Text.pieces terminator code
  (pieces.dropLast.filterMap Statement.ofText?, pieces.getLast (Text.pieces_ne_nil _ _))

/-! ## The stream -/

/-- Starts reading a text. -/
def ofText (r : Redirect) (t : Text) : StatementStream :=
  { redirect := r, lines := Text.pieces '\n' t, pending := [], ready := [] }

/-- Reads lines until a statement is ready. -/
def pull (r : Redirect) : List Text → Text → List Statement → Option (Statement × StatementStream)
  | lines, pending, s :: ready => some (s, ⟨r, lines, pending, ready⟩)
  | [], _, [] => none
  | line :: lines, pending, [] =>
    let c := cut (pending ++ contribution r line)
    pull r lines c.2 c.1

/-- The next statement, and the stream after it. -/
def next? (s : StatementStream) : Option (Statement × StatementStream) :=
  pull s.redirect s.lines s.pending s.ready

private theorem pull_lt {r : Redirect} {lines : List Text} {pending : Text}
    {ready : List Statement} {st : Statement} {s : StatementStream}
    (h : pull r lines pending ready = some (st, s)) :
    s.lines.length < lines.length ∨
      (s.lines.length = lines.length ∧ s.ready.length < ready.length) := by
  induction lines generalizing pending ready with
  | nil =>
    cases ready with
    | nil => simp [pull] at h
    | cons q qs =>
      simp only [pull, Option.some.injEq, Prod.mk.injEq] at h
      obtain ⟨-, rfl⟩ := h
      simp
  | cons l ls ih =>
    cases ready with
    | nil =>
      simp only [pull] at h
      have := ih h
      simp only [List.length_cons]
      omega
    | cons q qs =>
      simp only [pull, Option.some.injEq, Prod.mk.injEq] at h
      obtain ⟨-, rfl⟩ := h
      simp

/-- All statements that are left in the stream. -/
def toList (s : StatementStream) : List Statement :=
  match _h : s.next? with
  | none => []
  | some (st, s') => st :: toList s'
termination_by (s.lines.length, s.ready.length)
decreasing_by
  have := pull_lt _h
  rcases this with h | ⟨h, h'⟩
  · exact Prod.Lex.left _ _ h
  · rw [h]; exact Prod.Lex.right _ h'

theorem toList_of_next?_none {s : StatementStream} (h : s.next? = none) : s.toList = [] := by
  unfold toList
  split <;> simp_all

theorem toList_of_next? {s s' : StatementStream} {st : Statement}
    (h : s.next? = some (st, s')) : s.toList = st :: s'.toList := by
  rw [toList]
  split <;> simp_all

end StatementStream

namespace Statement

/-- The statements of a text, in order. -/
def segment (r : Redirect) (t : Text) : List Statement := (StatementStream.ofText r t).toList

/-- The statements of the selected text, or of the whole buffer when nothing is selected. -/
def segmentSelection (r : Redirect) (b : Buffer) (selection : Option Selection) :
    List Statement :=
  segment r (b.evaluationText selection)

end Statement
end Livecode
