import Livecode.Text.Basic

/-!
# Scope labels

Lexical scopes are named in the scheme of editor grammars. The scopes active at a character form a
stack, and its innermost label alone decides whether brackets there carry structure.
-/

namespace Livecode

/-- A lexical scope name, such as `comment.single.supercollider`. -/
structure ScopeLabel where
  name : Text
  deriving DecidableEq, Repr

namespace ScopeLabel

def source : ScopeLabel := ⟨"source.supercollider"⟩
def lineComment : ScopeLabel := ⟨"comment.single.supercollider"⟩
def blockComment : ScopeLabel := ⟨"comment.multiline.supercollider"⟩
def string : ScopeLabel := ⟨"string.quoted.double.supercollider"⟩
def symbol : ScopeLabel := ⟨"entity.name.symbol.supercollider"⟩
def escape : ScopeLabel := ⟨"constant.character.escape.supercollider"⟩

/-- A comment, string, symbol or character literal: brackets in it carry no structure. -/
def isInert (l : ScopeLabel) : Bool :=
  l ∈ [lineComment, blockComment, string, symbol, escape]

end ScopeLabel

/-- The scopes active at one character, outermost first, at least one. -/
structure ScopeStack where
  labels : List ScopeLabel
  labels_ne_nil : labels ≠ []

namespace ScopeStack

instance : DecidableEq ScopeStack := fun a b =>
  decidable_of_iff (a.labels = b.labels) <| by
    cases a; cases b; simp

/-- A stack of the given labels, unless there are none. -/
def ofLabels? (ls : List ScopeLabel) : Option ScopeStack :=
  if h : ls = [] then none else some ⟨ls, h⟩

/-- Plain code. -/
def code : ScopeStack := ⟨[.source], by simp⟩

/-- One scope inside plain code. -/
def nested (inner : ScopeLabel) : ScopeStack := ⟨[.source, inner], by simp⟩

/-- The label that decides. -/
def innermost (s : ScopeStack) : ScopeLabel := s.labels.getLast s.labels_ne_nil

/-- Whether a bracket here carries structure. -/
def isSignificant (s : ScopeStack) : Bool := !s.innermost.isInert

end ScopeStack
end Livecode
