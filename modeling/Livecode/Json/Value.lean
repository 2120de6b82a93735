import Livecode.Json.Token

/-!
# JSON values

Values are put together from tokens as those come in, with the arrays and objects that are still
open on a stack.
-/

namespace Livecode.Json

/-- A JSON value; the fields of an object in the order of the text. -/
inductive Value where
  | null
  | bool (b : Bool)
  /-- A number; its value if that is natural and fits a word. -/
  | number (n : Option Nat)
  | string (t : Text)
  | array (items : List Value)
  | object (fields : List (Text × Value))
  deriving Repr

/-- An array or object that is still open; its items so far, the last one first. -/
inductive OpenValue where
  | array (items : List Value)
  /-- `key` names the field whose value comes next. -/
  | object (fields : List (Text × Value)) (key : Text)
  deriving Repr

/-- What comes of a token. -/
inductive Built where
  /-- More tokens are due; the open values, innermost first. -/
  | more (stack : List OpenValue)
  /-- The value is complete. -/
  | complete (v : Value)
  | bad (f : Fault)

namespace Built

/-- Adds a complete value to the innermost open one. -/
def add (v : Value) : List OpenValue → Built
  | [] => .complete v
  | .array items :: stack => .more (.array (v :: items) :: stack)
  | .object fields key :: stack => .more (.object ((key, v) :: fields) [] :: stack)

/-- Takes a token. -/
def take (stack : List OpenValue) : Token → Built
  | .objectStart => .more (.object [] [] :: stack)
  | .arrayStart => .more (.array [] :: stack)
  | .comma => .more stack
  | .key t =>
    match stack with
    | .object fields _ :: stack => .more (.object fields t :: stack)
    | _ => .bad .malformed
  | .objectEnd =>
    match stack with
    | .object fields _ :: stack => add (.object fields.reverse) stack
    | _ => .bad .malformed
  | .arrayEnd =>
    match stack with
    | .array items :: stack => add (.array items.reverse) stack
    | _ => .bad .malformed
  | .string t => add (.string t) stack
  | .number n => add (.number n) stack
  | .bool b => add (.bool b) stack
  | .null => add .null stack
  | .bad f => .bad f

end Built

namespace Value

/-! ## Shapes -/

/-- The value of a required field; none if the field is missing or given twice. -/
def field? (fields : List (Text × Value)) (name : Text) : Option Value :=
  match fields.filter (·.1 = name) with
  | [f] => some f.2
  | _ => none

/-- The value of a field that may be missing; `null` stands for a missing one. None if the field
is given twice. -/
def optionalField? (fields : List (Text × Value)) (name : Text) : Option Value :=
  match fields.filter (·.1 = name) with
  | [] => some .null
  | [f] => some f.2
  | _ => none

def string? : Value → Option Text
  | .string t => some t
  | _ => none

def natural? : Value → Option Nat
  | .number n => n
  | _ => none

end Value
end Livecode.Json
