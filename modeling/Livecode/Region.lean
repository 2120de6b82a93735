import Livecode.Scope.Classifier

/-!
# Regions

A region is a top-level group of balanced parentheses, given by the lines of its first and its last
parenthesis. Parentheses in comments, strings, symbols and character literals do not count. A
stray closing parenthesis is passed over, and a group that never closes is no region.

## Main results

* `extract?_eq_find?` — the region at a cursor is the first one whose lines contain the cursor's.
-/

namespace Livecode

/-- The lines of a group of parentheses, both included. -/
structure Region where
  startLine : Nat
  endLine : Nat
  deriving DecidableEq, Repr

/-- A parenthesis. -/
inductive Bracket where
  | opening
  | closing
  deriving DecidableEq, Repr

namespace Bracket

def ofChar? : Char → Option Bracket
  | '(' => some .opening
  | ')' => some .closing
  | _ => none

/-- The parentheses of a line that carry structure. A character that the map does not cover counts
as code. -/
def inLine (m : ScopeMap) (line : Nat) (t : Text) : List Bracket :=
  t.zipIdx.filterMap fun (c, column) =>
    if (m.at? ⟨line, column⟩).all ScopeStack.isSignificant then ofChar? c else none

/-- The parentheses of a buffer that carry structure, in reading order, each with its line. -/
def inBuffer (b : Buffer) (m : ScopeMap) : List (Bracket × Nat) :=
  b.lines.zipIdx.flatMap fun (t, line) => (inLine m line t).map (·, line)

end Bracket

namespace Region

/-- Whether a line belongs to the region. -/
def contains (r : Region) (line : Nat) : Bool := r.startLine ≤ line && line ≤ r.endLine

/-- Groups the parentheses that are left, of which `depth` are open, the outermost on line
`start`. -/
def groups : (depth start : Nat) → List (Bracket × Nat) → List Region
  | _, _, [] => []
  | 0, _, (.opening, line) :: bs => groups 1 line bs
  | 0, start, (.closing, _) :: bs => groups 0 start bs
  | depth + 1, start, (.opening, _) :: bs => groups (depth + 2) start bs
  | 1, start, (.closing, line) :: bs => ⟨start, line⟩ :: groups 0 start bs
  | depth + 2, start, (.closing, _) :: bs => groups (depth + 1) start bs

/-- The regions of a buffer, in the order of their ends. -/
def find (b : Buffer) (m : ScopeMap) : List Region := groups 0 0 (Bracket.inBuffer b m)

/-- The region at a cursor, if there is one. -/
def extract? (k : Classifier) (b : Buffer) (cursor : Position) :
    Except ScopeError (Option Region) :=
  (k.classifyBuffer b).map fun m => (find b m).find? (·.contains cursor.line)

theorem extract?_eq_find? {k : Classifier} {b : Buffer} {m : ScopeMap} (cursor : Position)
    (h : k.classifyBuffer b = .ok m) :
    extract? k b cursor = .ok ((find b m).find? (·.contains cursor.line)) := by
  simp [extract?, h, Except.map]

/-- The whole lines of the region. -/
def text (b : Buffer) (r : Region) : Text :=
  b.textBetween ⟨r.startLine, 0⟩ ⟨r.endLine, Position.limit⟩

end Region
end Livecode
