import Livecode.Scope.Scan
import Livecode.Text.Decimal

/-!
# The SuperCollider classifier

Classifies characters by scanning. A single position is classified by scanning the lines up to its
own; a buffer in one pass.

## Main results

* `scanPosition_eq_ok_iff` — a single position has the scopes that it has in the map of its buffer.
-/

namespace Livecode.Classifier

/-- Scans line after line until the one asked for. -/
private def classifyFrom (p : Position) (s : ScanState) : (line : Nat) → List Text →
    Except ScopeError ScopeStack
  | _, [] =>
    .error ⟨"line ".toList ++ Text.decimal p.line ++ " is past the end of the buffer"⟩
  | 0, l :: _ =>
    match (s.scan l).1[p.column]? with
    | some k => .ok k.scopes
    | none =>
      .error ⟨"column ".toList ++ Text.decimal p.column ++ " is past the end of line "
        ++ Text.decimal p.line⟩
  | line + 1, l :: ls => classifyFrom p (s.scan l).2 line ls

/-- The scopes of the character at a position. -/
def scanPosition (b : Buffer) (p : Position) : Except ScopeError ScopeStack :=
  classifyFrom p .code p.line b.lines

/-- The scopes of all characters of a buffer. -/
def scanBuffer (b : Buffer) : ScopeMap :=
  ⟨(ScanState.scanLines .code b.lines).map (·.map Lexeme.scopes)⟩

/-- Scopes by scanning, a buffer in a single pass. -/
def scanning : Classifier := ⟨scanPosition, fun b => .ok (scanBuffer b)⟩

private theorem classifyFrom_eq_ok_iff {p : Position} {s : ScanState} {line : Nat} {ls : List Text}
    {scopes : ScopeStack} :
    classifyFrom p s line ls = .ok scopes ↔
      ((s.scanLines ls).map (·.map Lexeme.scopes))[line]?.bind (·[p.column]?) = some scopes := by
  induction ls generalizing s line with
  | nil => simp [classifyFrom, ScanState.scanLines]
  | cons l ls ih =>
    cases line with
    | zero =>
      simp only [classifyFrom, ScanState.scanLines]
      cases h : (s.scan l).1[p.column]? <;> simp [h]
    | succ line =>
      simp only [classifyFrom, ScanState.scanLines, ih]
      simp

/-- A position that is asked for by itself has the scopes that it has in the map. -/
theorem scanPosition_eq_ok_iff {b : Buffer} {p : Position} {scopes : ScopeStack} :
    scanPosition b p = .ok scopes ↔ (scanBuffer b).at? p = some scopes :=
  classifyFrom_eq_ok_iff

end Livecode.Classifier
