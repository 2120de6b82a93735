import Livecode.Json.Value

/-!
# Tagged objects

A value that names its variant: an object in which the field `tag` holds the name, or an array
whose first item is the name. The name is judged as soon as it is read, before anything that
follows it; all other fields or items are collected as values.
-/

namespace Livecode.Json

/-- What stands beside the name of a variant. -/
inductive Body where
  | fields (fs : List (Text × Value))
  | items (vs : List Value)

/-- Where in a tagged object the reading is. -/
inductive TagState where
  | between
  /-- The name of the variant is due. -/
  | name
  /-- In the value of a field. -/
  | value (key : Text) (stack : List OpenValue)

variable {α : Type}

/-- Reads the fields of a tagged object: its variant, the other fields, and the tokens after it. A
second tag is refused. -/
def readFields (tag : Text) (variant? : Text → Option α) (found : Option α)
    (fields : List (Text × Value)) : TagState → List Token →
    Except Fault (α × Body × List Token)
  | _, [] => .error .unfinished
  | .between, .comma :: ts => readFields tag variant? found fields .between ts
  | .between, .key k :: ts =>
    if k = tag then
      if found.isSome then .error .unexpected
      else readFields tag variant? found fields .name ts
    else readFields tag variant? found fields (.value k []) ts
  | .between, .objectEnd :: ts =>
    match found with
    | some a => .ok (a, .fields fields.reverse, ts)
    | none => .error .unexpected
  | .between, .bad f :: _ => .error f
  | .between, _ :: _ => .error .malformed
  | .name, .string s :: ts =>
    match variant? s with
    | some a => readFields tag variant? (some a) fields .between ts
    | none => .error .unexpected
  | .name, .bad f :: _ => .error f
  | .name, _ :: _ => .error .unexpected
  | .value k stack, t :: ts =>
    match Built.take stack t with
    | .more stack => readFields tag variant? found fields (.value k stack) ts
    | .complete v => readFields tag variant? found ((k, v) :: fields) .between ts
    | .bad f => .error f

/-- Reads the items of an array up to its end; `stack` holds the open parts of an item. -/
def readItems (items : List Value) : List OpenValue → List Token →
    Except Fault (List Value × List Token)
  | _, [] => .error .unfinished
  | [], .comma :: ts => readItems items [] ts
  | [], .arrayEnd :: ts => .ok (items.reverse, ts)
  | stack, t :: ts =>
    match Built.take stack t with
    | .more stack => readItems items stack ts
    | .complete v => readItems (v :: items) [] ts
    | .bad f => .error f

/-- Reads a tagged object or array: its variant, what stands beside the name, and the tokens after
it. -/
def readTagged (tag : Text) (variant? : Text → Option α) :
    List Token → Except Fault (α × Body × List Token)
  | .objectStart :: ts => readFields tag variant? none [] .between ts
  | .arrayStart :: .string s :: ts =>
    match variant? s with
    | some a => (readItems [] [] ts).map fun r => (a, .items r.1, r.2)
    | none => .error .unexpected
  | .arrayStart :: .bad f :: _ => .error f
  | .bad f :: _ => .error f
  | _ => .error .unexpected

/-- Only spaces may follow a value. -/
def noMore : List Token → Except Fault Unit
  | [] => .ok ()
  | .bad f :: _ => .error f
  | _ :: _ => .error .malformed

/-- Reads a whole text as a tagged object. What is wrong with the variant's own fields is found
before anything that follows the object. -/
def decodeTagged {β : Type} (tag : Text) (variant? : Text → Option α) (build : α → Body → Option β)
    (t : Text) : Except Fault β := do
  let (a, body, rest) ← readTagged tag variant? (tokens t)
  match build a body with
  | some b => do noMore rest; return b
  | none => .error .unexpected

end Livecode.Json
