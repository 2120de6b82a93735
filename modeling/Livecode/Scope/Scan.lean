import Livecode.Scope.Map
import Livecode.Text.Numeral

/-!
# Scanning SuperCollider source

A machine that reads one character at a time, with one character of lookahead, gives each character
of a line its lexical kind. What is open at the end of a line and may continue on the next is
carried over: a block comment with its nesting, or a string. Line comments, symbols and character
literals end with their line.

## Main results

* `length_scan` — a line gets exactly one kind for each of its characters.
* `scan_cons` — the kinds of a line are that of its first character and those of the rest.
-/

namespace Livecode

/-- What a character belongs to. -/
inductive Lexeme where
  | source
  | lineComment
  | blockComment
  | string
  | symbol
  | escape
  deriving DecidableEq, Repr

namespace Lexeme

/-- The scopes of a character of each kind. -/
def scopes : Lexeme → ScopeStack
  | .source => .code
  | .lineComment => .nested .lineComment
  | .blockComment => .nested .blockComment
  | .string => .nested .string
  | .symbol => .nested .symbol
  | .escape => .nested .escape

end Lexeme

/-- What is open between two characters of a line. Block comments nest: `outer` counts the comments
around the innermost one. -/
inductive ScanState where
  | code
  | lineComment
  | block (outer : Nat)
  /-- Between the two characters that open a block comment. -/
  | openBlock (outer : Nat)
  /-- Between the two characters that close one. -/
  | closeBlock (outer : Nat)
  | string
  /-- After a backslash in a string. -/
  | stringEscape
  | quotedSymbol
  /-- After a backslash in a quoted symbol. -/
  | quotedEscape
  /-- In the name of a symbol written with a backslash. -/
  | symbolName
  /-- After the `$` of a character literal. -/
  | charLiteral
  /-- After the `$\` of a character literal. -/
  | charEscape
  deriving DecidableEq, Repr

namespace ScanState

/-- May stand in the name of a symbol. -/
def isNameChar (c : Char) : Bool := Text.isAlphanumeric c || c == '_'

/-- May start the name of a symbol. -/
def isNameStart (c : Char) : Bool := Text.isAlphabetic c || c == '_'

/-- The innermost of `outer + 1` nested block comments ends. -/
def leaveBlock : (outer : Nat) → ScanState
  | 0 => .code
  | outer + 1 => .block outer

/-- Reads a character of plain code. -/
def codeStep (c : Char) (next : Option Char) : Lexeme × ScanState :=
  if c = '/' ∧ next = some '/' then (.lineComment, .lineComment)
  else if c = '/' ∧ next = some '*' then (.blockComment, .openBlock 0)
  else if c = '"' then (.string, .string)
  else if c = '\'' then (.symbol, .quotedSymbol)
  else if c = '\\' ∧ next.any isNameStart then (.symbol, .symbolName)
  else if c = '$' ∧ next.isSome then (.escape, .charLiteral)
  else (.source, .code)

/-- Reads one character: its kind, and what is open after it. `next` is the character that
follows on the line. -/
def step (s : ScanState) (c : Char) (next : Option Char) : Lexeme × ScanState :=
  match s with
  | .code => codeStep c next
  | .lineComment => (.lineComment, .lineComment)
  | .block outer =>
    (.blockComment,
      if c = '*' ∧ next = some '/' then .closeBlock outer
      else if c = '/' ∧ next = some '*' then .openBlock (outer + 1)
      else .block outer)
  | .openBlock outer => (.blockComment, .block outer)
  | .closeBlock outer => (.blockComment, leaveBlock outer)
  | .string =>
    if c = '\\' then (.escape, .stringEscape)
    else (.string, if c = '"' then .code else .string)
  | .stringEscape => (.escape, .string)
  | .quotedSymbol =>
    (.symbol,
      if c = '\\' then .quotedEscape
      else if c = '\'' then .code
      else .quotedSymbol)
  | .quotedEscape => (.symbol, .quotedSymbol)
  | .symbolName => if isNameChar c then (.symbol, .symbolName) else codeStep c next
  | .charLiteral => (.escape, if c = '\\' then .charEscape else .code)
  | .charEscape => (.escape, .code)

/-- What is still open on the next line. -/
def carry : ScanState → ScanState
  | .block outer => .block outer
  | .openBlock outer => .block outer
  | .closeBlock outer => leaveBlock outer
  | .string => .string
  | .stringEscape => .string
  | _ => .code

/-- The kinds of the characters of a line, and what the next line starts in. -/
def scan (s : ScanState) : Text → List Lexeme × ScanState
  | [] => ([], s.carry)
  | c :: t =>
    let first := s.step c t.head?
    let rest := scan first.2 t
    (first.1 :: rest.1, rest.2)

@[simp] theorem scan_nil (s : ScanState) : s.scan [] = ([], s.carry) := rfl

/-- The kinds of a line are that of its first character and those of the rest. -/
theorem scan_cons (s : ScanState) (c : Char) (t : Text) :
    s.scan (c :: t) =
      ((s.step c t.head?).1 :: ((s.step c t.head?).2.scan t).1,
        ((s.step c t.head?).2.scan t).2) := rfl

/-- A line gets exactly one kind for each of its characters. -/
theorem length_scan (s : ScanState) (t : Text) : (s.scan t).1.length = t.length := by
  induction t generalizing s with
  | nil => rfl
  | cons c t ih => simp [scan_cons, ih]

/-- The kinds of the characters of consecutive lines. -/
def scanLines (s : ScanState) : List Text → List (List Lexeme)
  | [] => []
  | l :: ls => (s.scan l).1 :: scanLines (s.scan l).2 ls

end ScanState
end Livecode
