import Livecode.Json.Number

/-!
# JSON tokens

A JSON text is read by a pushdown machine, one character at a time, into tokens. The machine keeps
the grammar: tokens come only in an order that some value allows. The first offence ends the tokens
with a fault, as does an end of the text within a value. Whoever reads the tokens thus meets faults
of the text and faults of its own in the order of the text.

## Main results

* `read_cons` — the tokens of a text are those of its first character and those of the rest.
-/

namespace Livecode.Json

/-- Why a text is refused. -/
inductive Fault where
  /-- No JSON. -/
  | malformed
  /-- The text ends within a value. -/
  | unfinished
  /-- JSON, but not of the shape asked for. -/
  | unexpected
  deriving DecidableEq, Repr

inductive Token where
  | objectStart
  | objectEnd
  | arrayStart
  | arrayEnd
  | comma
  /-- A string in front of a colon. -/
  | key (t : Text)
  | string (t : Text)
  /-- A number; its value if that is natural and fits a word. -/
  | number (n : Option Nat)
  | bool (b : Bool)
  | null
  /-- The text is refused here; no token follows. -/
  | bad (f : Fault)
  deriving DecidableEq, Repr

/-! ## States -/

/-- What encloses the current place. -/
inductive Frame where
  | array
  | object
  deriving DecidableEq, Repr

/-- Where in the escapes of a string the machine is. -/
inductive StringPhase where
  | plain
  | backslash
  /-- Collects the code of a `\u` escape; `lead` is the first half of a surrogate pair. -/
  | unicode (lead : Option Nat) (code : Text)
  /-- After the first half of a surrogate pair; the second must follow. -/
  | pairBackslash (lead : Nat)
  | pairMark (lead : Nat)
  deriving DecidableEq, Repr

/-- What the machine is reading. -/
inductive ReadState where
  /-- A value is due. -/
  | value
  /-- The first item of an array, or its end. -/
  | firstItem
  /-- The first key of an object, or its end. -/
  | firstKey
  | key
  | colon
  /-- A value has ended. -/
  | after
  /-- In a string; its characters so far, the last one first. -/
  | string (isKey : Bool) (phase : StringPhase) (read : Text)
  /-- In a number; its characters so far, the last one first. -/
  | number (phase : NumberPhase) (read : Text)
  /-- In a word of which `due` is left. -/
  | word (due : Text) (token : Token)
  /-- The text has been refused. -/
  | refused
  deriving DecidableEq, Repr

/-- The machine between two characters. -/
structure Reader where
  stack : List Frame
  state : ReadState
  deriving DecidableEq, Repr

namespace Reader

/-- A value is due, and nothing encloses it. -/
def start : Reader := ⟨[], .value⟩

/-- Values may be nested less deeply than this. -/
def depthLimit : Nat := 128

/-! ## Steps -/

/-- Refuses the text. -/
def refuse (r : Reader) (f : Fault) : List Token × Reader :=
  ([.bad f], { r with state := .refused })

/-- Moves on without a token. -/
def goto (r : Reader) (s : ReadState) : List Token × Reader := ([], { r with state := s })

/-- Enters an array or object, unless it lies too deep. -/
def enter (r : Reader) (f : Frame) (t : Token) (s : ReadState) : List Token × Reader :=
  if depthLimit ≤ r.stack.length + 1 then r.refuse .malformed else ([t], ⟨f :: r.stack, s⟩)

/-- Leaves the innermost array or object. -/
def leave (r : Reader) (t : Token) : List Token × Reader := ([t], ⟨r.stack.tail, .after⟩)

/-- May stand between tokens. -/
def isSpace (c : Char) : Bool := c == ' ' || c == '\n' || c == '\t' || c == '\r'

/-- Starts a value. -/
def startValue (r : Reader) (c : Char) : List Token × Reader :=
  if c = '"' then r.goto (.string false .plain [])
  else if c = '[' then r.enter .array .arrayStart .firstItem
  else if c = '{' then r.enter .object .objectStart .firstKey
  else if c = 't' then r.goto (.word "rue" (.bool true))
  else if c = 'f' then r.goto (.word "alse" (.bool false))
  else if c = 'n' then r.goto (.word "ull" .null)
  else match NumberPhase.ofFirst? c with
    | some p => r.goto (.number p [c])
    | none => r.refuse .malformed

/-- Reads a character after a value. -/
def stepAfter (r : Reader) (c : Char) : List Token × Reader :=
  if isSpace c then r.goto .after
  else match r.stack, c with
    | .array :: _, ',' => ([.comma], { r with state := .value })
    | .array :: _, ']' => r.leave .arrayEnd
    | .object :: _, ',' => ([.comma], { r with state := .key })
    | .object :: _, '}' => r.leave .objectEnd
    | _, _ => r.refuse .malformed

/-- The token of a string that has ended. -/
def endString (r : Reader) (isKey : Bool) (read : Text) : List Token × Reader :=
  if isKey then ([.key read.reverse], { r with state := .colon })
  else ([.string read.reverse], { r with state := .after })

/-- The character that a one-letter escape stands for. -/
def unescape? : Char → Option Char
  | '"' => some '"'
  | '\\' => some '\\'
  | '/' => some '/'
  | 'b' => some '\x08'
  | 'f' => some '\x0c'
  | 'n' => some '\n'
  | 'r' => some '\r'
  | 't' => some '\t'
  | _ => none

/-- The value of a hexadecimal digit. -/
def hexValue? (c : Char) : Option Nat :=
  if '0' ≤ c ∧ c ≤ '9' then some (c.toNat - '0'.toNat)
  else if 'a' ≤ c ∧ c ≤ 'f' then some (c.toNat - 'a'.toNat + 10)
  else if 'A' ≤ c ∧ c ≤ 'F' then some (c.toNat - 'A'.toNat + 10)
  else none

/-- The number that four hexadecimal digits stand for. -/
def hexCode? (code : Text) : Option Nat :=
  if code.length = 4 then
    (code.mapM hexValue?).map (·.foldl (fun n d => 16 * n + d) 0)
  else none

/-- Takes a complete `\u` escape. Halves of surrogate pairs must come in order and in pairs. -/
def takeCode (r : Reader) (isKey : Bool) (lead : Option Nat) (code read : Text) :
    List Token × Reader :=
  match hexCode? code with
  | none => r.refuse .malformed
  | some n =>
    match lead with
    | none =>
      if 0xDC00 ≤ n ∧ n < 0xE000 then r.refuse .malformed
      else if 0xD800 ≤ n ∧ n < 0xDC00 then r.goto (.string isKey (.pairBackslash n) read)
      else r.goto (.string isKey .plain (Char.ofNat n :: read))
    | some first =>
      if 0xDC00 ≤ n ∧ n < 0xE000 then
        let c := Char.ofNat (0x10000 + (first - 0xD800) * 0x400 + (n - 0xDC00))
        r.goto (.string isKey .plain (c :: read))
      else r.refuse .malformed

/-- Reads a character of a string. -/
def stepString (r : Reader) (isKey : Bool) (phase : StringPhase) (read : Text) (c : Char) :
    List Token × Reader :=
  match phase with
  | .plain =>
    if c = '"' then r.endString isKey read
    else if c = '\\' then r.goto (.string isKey .backslash read)
    else if c.toNat < 0x20 then r.refuse .malformed
    else r.goto (.string isKey .plain (c :: read))
  | .backslash =>
    if c = 'u' then r.goto (.string isKey (.unicode none []) read)
    else match unescape? c with
      | some d => r.goto (.string isKey .plain (d :: read))
      | none => r.refuse .malformed
  | .unicode lead code =>
    -- a code is the next four bytes, whatever they are
    let code := code ++ [c]
    if 4 ≤ (String.ofList code).utf8ByteSize then r.takeCode isKey lead code read
    else r.goto (.string isKey (.unicode lead code) read)
  | .pairBackslash lead =>
    if c = '\\' then r.goto (.string isKey (.pairMark lead) read) else r.refuse .malformed
  | .pairMark lead =>
    if c = 'u' then r.goto (.string isKey (.unicode (some lead) []) read)
    else r.refuse .malformed

/-- The token of a number that has ended, and what comes next. -/
def endNumber (r : Reader) (read : Text) : List Token × Reader :=
  match numberValue read.reverse with
  | .natural n => ([.number (some n)], { r with state := .after })
  | .other => ([.number none], { r with state := .after })
  | .infinite => r.refuse .malformed

/-- Reads one character. -/
def step (r : Reader) (c : Char) : List Token × Reader :=
  match r.state with
  | .value => if isSpace c then ([], r) else r.startValue c
  | .firstItem =>
    if isSpace c then ([], r)
    else if c = ']' then r.leave .arrayEnd
    else r.startValue c
  | .firstKey =>
    if isSpace c then ([], r)
    else if c = '"' then r.goto (.string true .plain [])
    else if c = '}' then r.leave .objectEnd
    else r.refuse .malformed
  | .key =>
    if isSpace c then ([], r)
    else if c = '"' then r.goto (.string true .plain [])
    else r.refuse .malformed
  | .colon =>
    if isSpace c then ([], r) else if c = ':' then r.goto .value else r.refuse .malformed
  | .after => r.stepAfter c
  | .string isKey phase read => r.stepString isKey phase read c
  | .number phase read =>
    match phase.next? c with
    | some p => r.goto (.number p (c :: read))
    | none =>
      if phase = .zero ∧ c.isDigit then r.refuse .malformed
      else if phase.isComplete then
        let ended := r.endNumber read
        if ended.2.state = .refused then ended
        else
          let next := ended.2.stepAfter c
          (ended.1 ++ next.1, next.2)
      else r.refuse .malformed
  | .word due token =>
    match due with
    | [] => r.refuse .malformed
    | [d] => if c = d then ([token], { r with state := .after }) else r.refuse .malformed
    | d :: due => if c = d then r.goto (.word due token) else r.refuse .malformed
  | .refused => ([], r)

/-- The tokens at the end of the text. -/
def finish (r : Reader) : List Token :=
  match r.state with
  | .refused => []
  | .after => if r.stack = [] then [] else [.bad .unfinished]
  | .number phase read =>
    if phase.isComplete then
      let ended := r.endNumber read
      if ended.2.state = .refused ∨ r.stack = [] then ended.1
      else ended.1 ++ [.bad .unfinished]
    else [.bad .unfinished]
  | _ => [.bad .unfinished]

/-- The tokens of the rest of a text. -/
def read (r : Reader) : Text → List Token
  | [] => r.finish
  | c :: t => (r.step c).1 ++ read (r.step c).2 t

theorem read_cons (r : Reader) (c : Char) (t : Text) :
    r.read (c :: t) = (r.step c).1 ++ (r.step c).2.read t := rfl

end Reader

/-- The tokens of a text. -/
def tokens (t : Text) : List Token := Reader.start.read t

end Livecode.Json
