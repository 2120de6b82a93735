import Livecode.Toml.Item
import Livecode.Toml.Lexical

/-!
# Reading TOML

Values and whole documents. A document is read expression by expression: key and value pairs go to
the table under construction, and a header puts that table in its place and opens the next one.
-/

namespace Livecode.Toml

/-! ## Values -/

/-- A value that is one word. -/
def ofWord? (word : Text) : Option Item :=
  if word = "true".toList then some (.boolean true)
  else if word = "false".toList then some (.boolean false)
  else if isMoment word then some .moment
  else if isFloat word then some .float
  else (integer? word).map .integer

/-- A number, date, time or truth value. A date may be followed by a space and a time. -/
def scalar? (t : Text) : Option (Item × Text) :=
  let word := t.takeWhile isWordChar
  let rest := t.dropWhile isWordChar
  let joined : Option (Item × Text) :=
    match date? word, rest with
    | some [], ' ' :: u =>
      let time := u.takeWhile isWordChar
      if (time? time).any (isOffset ·) then some (.moment, u.dropWhile isWordChar) else none
    | _, _ => none
  match joined with
  | some r => some r
  | none => (ofWord? word).map (·, rest)

/-- The items of an array after its bracket, up to its end. A comma may follow the last. -/
def arrayItems? (value : Text → Option (Item × Text)) (t : Text) : Option (List Item × Text) :=
  match skipBlank t with
  | ']' :: rest => some ([], rest)
  | start => do
    let (item, rest) ← value start
    match skipBlank rest with
    | ']' :: rest => some ([item], rest)
    | ',' :: rest =>
      -- the rest is always shorter; the test only shows that the reading ends
      if rest.length < t.length then do
        let (items, rest) ← arrayItems? value rest
        return (item :: items, rest)
      else none
    | _ => none
termination_by t.length

/-- A key, an equals sign and a value. -/
def assignment? (value : Text → Option (Item × Text)) (t : Text) :
    Option ((List Text × Text × Item) × Text) := do
  let ((path, k), rest) ← key? t
  match rest with
  | '=' :: rest => do
    let (item, rest) ← value (skipSpaces rest)
    return ((path, k, item), skipSpaces rest)
  | _ => none

/-- The assignments of a table in braces, up to its end; at least one. -/
def assignments? (value : Text → Option (Item × Text)) (t : Text) :
    Option (List (List Text × Text × Item) × Text) := do
  let (a, rest) ← assignment? value t
  match rest with
  | '}' :: rest => some ([a], rest)
  | ',' :: rest =>
    -- the rest is always shorter; the test only shows that the reading ends
    if rest.length < t.length then do
      let (as, rest) ← assignments? value rest
      return (a :: as, rest)
    else none
  | _ => none
termination_by t.length

/-- A value that holds no others. -/
def simpleValue? (t : Text) : Option (Item × Text) :=
  match t with
  | '"' :: _ | '\'' :: _ => (string? t).map fun r => (.string r.1, r.2)
  | t => scalar? t

/-- A value with arrays and tables in braces nested at most to a depth. -/
def value? : (depth : Nat) → Text → Option (Item × Text)
  | 0, t => simpleValue? t
  | depth + 1, t =>
    match t with
    | '[' :: rest => (arrayItems? (value? depth) rest).map fun r => (.array r.1, r.2)
    | '{' :: rest =>
      match skipSpaces rest with
      | '}' :: rest => some (.inline .explicit [], rest)
      | rest => do
        let (as, rest) ← assignments? (value? depth) rest
        return (← inlineTable? as, rest)
    | t => simpleValue? t

/-! ## Documents -/

/-- One expression of a document. -/
inductive Expression where
  | assign (path : List Text) (k : Text) (i : Item)
  /-- `[path.k]` -/
  | header (path : List Text) (k : Text)
  /-- `[[path.k]]` -/
  | arrayHeader (path : List Text) (k : Text)

/-- An expression, up to the end of its line. -/
def expression? (t : Text) : Option (Expression × Text) :=
  match t with
  | '[' :: '[' :: rest => do
    let ((path, k), rest) ← key? rest
    match rest with
    | ']' :: ']' :: rest => return (.arrayHeader path k, ← lineEnd? rest)
    | _ => none
  | '[' :: rest => do
    let ((path, k), rest) ← key? rest
    match rest with
    | ']' :: rest => return (.header path k, ← lineEnd? rest)
    | _ => none
  | t => do
    let ((path, k, i), rest) ← assignment? (value? (depthLimit - 1)) t
    return (.assign path k i, ← lineEnd? rest)

/-- The expressions of a text. -/
def expressions? (t : Text) : Option (List Expression) :=
  match skipBlank t with
  | [] => some []
  | '#' :: rest => if (rest.dropWhile isPlain) = [] then some [] else none
  | start => do
    let (e, rest) ← expression? start
    -- the rest is always shorter; the test only shows that the reading ends
    if rest.length < t.length then do
      let es ← expressions? rest
      return e :: es
    else none
termination_by t.length

/-! ## Building -/

/-- A document under construction: the tables in their places, and the table that assignments go
to now with its place. -/
structure Builder where
  root : Entries
  current : Entries
  place : Option (List Text × Text)
  /-- The current table is one of an array. -/
  inArray : Bool

namespace Builder

def fresh : Builder := ⟨[], [], none, false⟩

/-- Puts the current table in its place. -/
def settle? (b : Builder) : Option Builder :=
  match b.place with
  | none => some ⟨b.current, [], none, false⟩
  | some (path, k) => do
    let root ← onTable false (fun _ es =>
      if b.inArray then
        match es.get? k with
        | none => some (es.put k (.tables [b.current]))
        | some (.tables ts) => some (es.put k (.tables (b.current :: ts)))
        | some _ => none
      else es.set? k (.table .explicit b.current)) path .explicit b.root
    return ⟨root, [], none, false⟩

/-- The entries of a table that a header names, taken from its place. Only one that has merely
been passed through by headers may be there already. -/
def claim? (path : List Text) (k : Text) (root : Entries) : Option (Entries × Entries) := do
  let root ← onTable false (fun _ es => some es) path .explicit root
  let found ← lookup path root
  match found.get? k with
  | none => return ([], root)
  | some (.table o inner) =>
    if o.implicit && !o.dotted then
      return (inner, ← onTable false (fun _ es => some (es.remove k)) path .explicit root)
    else none
  | some _ => none
where
  /-- The entries at the end of a path. -/
  lookup : List Text → Entries → Option Entries
    | [], es => some es
    | k :: path, es =>
      match es.get? k with
      | some (.table _ inner) => lookup path inner
      | some (.tables (last :: _)) => lookup path last
      | _ => none

/-- Opens the table of a header. -/
def openTable? (b : Builder) (path : List Text) (k : Text) : Option Builder := do
  let b ← b.settle?
  let (entries, root) ← claim? path k b.root
  return ⟨root, entries, some (path, k), false⟩

/-- Opens a table of an array. -/
def openArray? (b : Builder) (path : List Text) (k : Text) : Option Builder := do
  let b ← b.settle?
  let root ← onTable false (fun _ es =>
    match es.get? k with
    | none | some (.tables _) => some es
    | some _ => none) path .explicit b.root
  return ⟨root, [], some (path, k), true⟩

/-- Adds an expression. -/
def add? (b : Builder) : Expression → Option Builder
  | .assign path k i => do
    let current ← setDotted path k i .explicit b.current
    return { b with current := current }
  | .header path k => b.openTable? path k
  | .arrayHeader path k => b.openArray? path k

end Builder

/-- The table of a document; a byte order mark may precede the text. -/
def document? (t : Text) : Option Entries := do
  let t := match t with
    | '\uFEFF' :: t => t
    | t => t
  let b ← (← expressions? t).foldlM Builder.add? .fresh
  return (← b.settle?).root

end Livecode.Toml
