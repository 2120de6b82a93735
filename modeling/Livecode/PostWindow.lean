import Livecode.Text.Line

/-!
# The post window

The user-visible log. It keeps the last lines posted, up to a capacity of at least one line, and
passes every line on to an echo, whether or not the line is kept.

## Main results

* `recent_post` — posting puts the lines of a text in front and keeps the last ones.
-/

namespace Livecode

/-- Where posted lines are copied to. -/
inductive Echo where
  | absent
  /-- Every write fails; nothing arrives. -/
  | failing
  /-- The lines that have arrived, newest first. -/
  | working (arrived : List Text)
  deriving DecidableEq, Repr

namespace Echo

/-- Copies some lines. -/
def write (ls : List Text) : Echo → Echo
  | .absent => .absent
  | .failing => .failing
  | .working arrived => .working (ls.reverse ++ arrived)

/-- The lines that have arrived, oldest first. -/
def lines : Echo → List Text
  | .working arrived => arrived.reverse
  | _ => []

end Echo

/-- A bounded log of lines. -/
structure PostWindow where
  capacity : Nat
  /-- Newest first. -/
  recent : List Text
  echo : Echo
  capacity_pos : 0 < capacity
  deriving DecidableEq, Repr

namespace PostWindow

/-- The capacity of a window that is not given one. -/
def defaultCapacity : Nat := 10000

/-- An empty window; it keeps one line at least. -/
def empty (capacity : Nat) (echo : Echo) : PostWindow :=
  ⟨max capacity 1, [], echo, by omega⟩

instance : Inhabited PostWindow := ⟨empty defaultCapacity .absent⟩

/-- The lines kept, oldest first. -/
def lines (w : PostWindow) : List Text := w.recent.reverse

/-- The last line kept. -/
def lastLine? (w : PostWindow) : Option Text := w.recent.head?

def length (w : PostWindow) : Nat := w.recent.length

def isEmpty (w : PostWindow) : Bool := w.recent.isEmpty

/-- The lines that have reached the echo. -/
def echoed (w : PostWindow) : List Text := w.echo.lines

/-- Posts every line of a text; what exceeds the capacity is forgotten, oldest lines first. -/
def post (w : PostWindow) (t : Text) : PostWindow :=
  let recent := (Text.lines t).reverse ++ w.recent
  { w with
    recent := if recent.length ≤ w.capacity then recent else recent.take w.capacity
    echo := w.echo.write (Text.lines t) }

/-- Posts one text after the other. -/
def postAll (w : PostWindow) (ts : List Text) : PostWindow := ts.foldl post w

theorem postAll_append (w : PostWindow) (ts us : List Text) :
    w.postAll (ts ++ us) = (w.postAll ts).postAll us := List.foldl_append

@[simp] theorem capacity_post (w : PostWindow) (t : Text) : (w.post t).capacity = w.capacity := rfl

/-- Posting puts the lines of a text in front and keeps the last ones. -/
theorem recent_post (w : PostWindow) (t : Text) :
    (w.post t).recent = ((Text.lines t).reverse ++ w.recent).take w.capacity := by
  unfold post
  dsimp only
  split
  · next h => exact (List.take_of_length_le h).symm
  · rfl

end PostWindow
end Livecode
