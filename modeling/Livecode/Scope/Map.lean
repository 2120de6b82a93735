import Livecode.Scope.Label
import Livecode.Source.Buffer

/-!
# Scope maps and classifiers

A scope map gives the scopes of the characters of a buffer, by line and column. A classifier
produces scopes; it may fail, and it may keep a state of its own of type `σ`.
-/

namespace Livecode

/-- Scope stacks by line and column. It may cover less than the buffer it was made for. -/
structure ScopeMap where
  lines : List (List ScopeStack)
  deriving DecidableEq

namespace ScopeMap

/-- The scopes at a position that the map covers. -/
def at? (m : ScopeMap) (p : Position) : Option ScopeStack :=
  m.lines[p.line]?.bind (·[p.column]?)

end ScopeMap

/-- Why no scopes could be given. -/
structure ScopeError where
  message : Text
  deriving DecidableEq, Repr

namespace ScopeError

/-- The wording of a region search that found no scopes. -/
def unavailable (e : ScopeError) : Text := "scope classification unavailable: " ++ e.message

end ScopeError

/-- A source of scopes: of the character at a position, and of a whole buffer. -/
structure Classifier where
  classify : Buffer → Position → Except ScopeError ScopeStack
  classifyBuffer : Buffer → Except ScopeError ScopeMap

namespace Classifier

/-- The scopes of every character of a buffer, asked for one position after the other; the first
failure ends it. -/
def eachPosition (classify : Buffer → Position → Except ScopeError ScopeStack) (b : Buffer) :
    Except ScopeError ScopeMap :=
  ScopeMap.mk <$> b.lines.zipIdx.mapM fun (line, i) =>
    (List.range line.length).mapM fun column => classify b ⟨i, column⟩

/-- A classifier that knows single positions only. -/
def ofPositions (classify : Buffer → Position → Except ScopeError ScopeStack) : Classifier :=
  ⟨classify, eachPosition classify⟩

end Classifier
end Livecode
