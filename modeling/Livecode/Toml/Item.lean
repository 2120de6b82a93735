import Livecode.Text.Basic

/-!
# TOML documents

A document is a table. Keys are dotted paths; the tables on the way to a key come into being as
needed. What may be extended later depends on how a table came into being: a table that was only
passed through by a header may still get a header of its own, one made by a dotted key may be
extended by dotted keys beside it, and a table that has been spelled out is closed.
-/

namespace Livecode.Toml

/-- Whether a table was only passed through, and whether by a dotted key. -/
structure Origin where
  implicit : Bool
  dotted : Bool
  deriving DecidableEq, Repr

namespace Origin

/-- Spelled out, by a header or in braces. -/
def explicit : Origin := ⟨false, false⟩

/-- Passed through on a path. -/
def onPath (dotted : Bool) : Origin := ⟨true, dotted⟩

end Origin

/-- What a key stands for. -/
inductive Item where
  | string (t : Text)
  | integer (n : Int)
  | float
  | boolean (b : Bool)
  /-- A date, a time of day, or both. -/
  | moment
  | array (items : List Item)
  /-- A table in braces. -/
  | inline (origin : Origin) (entries : List (Text × Item))
  /-- A table with a header, or on the path of one. -/
  | table (origin : Origin) (entries : List (Text × Item))
  /-- The tables of a double-bracket header, the last one first. -/
  | tables (all : List (List (Text × Item)))
  deriving Repr

/-- The entries of a table, in no particular order, with distinct keys. -/
abbrev Entries := List (Text × Item)

namespace Entries

def get? (es : Entries) (k : Text) : Option Item := (es.find? (·.1 = k)).map (·.2)

/-- The entries with those of a key replaced by one. -/
def put (es : Entries) (k : Text) (i : Item) : Entries := (k, i) :: es.filter (·.1 ≠ k)

def remove (es : Entries) (k : Text) : Entries := es.filter (·.1 ≠ k)

/-- Sets a key that is not there yet. -/
def set? (es : Entries) (k : Text) (i : Item) : Option Entries :=
  match es.get? k with
  | none => some (es.put k i)
  | some _ => none

end Entries

/-! ## Paths -/

/-- Changes the table at the end of a path. With `dotted` the path is that of a dotted key, which
must not lead through tables that have been spelled out. -/
def onTable (dotted : Bool) (change : Origin → Entries → Option Entries) :
    (path : List Text) → Origin → Entries → Option Entries
  | [], o, es => change o es
  | k :: path, _, es =>
    match es.get? k with
    | none => do
      let inner ← onTable dotted change path (.onPath dotted) []
      return es.put k (.table (.onPath dotted) inner)
    | some (.table o inner) =>
      if dotted && !o.implicit then none
      else do
        let inner ← onTable dotted change path o inner
        return es.put k (.table o inner)
    | some (.tables (last :: before)) => do
      let last ← onTable dotted change path .explicit last
      return es.put k (.tables (last :: before))
    | some _ => none

/-- Sets a key in a table that a path of dotted keys has led to. Only tables made by dotted keys
can be reached by them. -/
def setKey (path : List Text) (k : Text) (i : Item) (o : Origin) (es : Entries) :
    Option Entries :=
  if o.dotted = path.isEmpty then none else es.set? k i

/-- Sets a dotted key in a table. -/
def setDotted (path : List Text) (k : Text) (i : Item) (o : Origin) (es : Entries) :
    Option Entries :=
  onTable true (setKey path k i) path o es

/-- Changes the table in braces at the end of a path. -/
def onInline (dotted : Bool) (change : Origin → Entries → Option Entries) :
    (path : List Text) → Origin → Entries → Option Entries
  | [], o, es => change o es
  | k :: path, _, es =>
    match es.get? k with
    | none => do
      let inner ← onInline dotted change path ⟨dotted, dotted⟩ []
      return es.put k (.inline ⟨dotted, dotted⟩ inner)
    | some (.inline o inner) =>
      if dotted && !o.implicit then none
      else do
        let inner ← onInline dotted change path o inner
        return es.put k (.inline o inner)
    | some _ => none

/-- The table in braces with the given assignments, each a path and a key. -/
def inlineTable? (assignments : List (List Text × Text × Item)) : Option Item := do
  let es ← assignments.foldlM
    (fun es a => onInline (!a.1.isEmpty) (setKey a.1 a.2.1 a.2.2) a.1 .explicit es) []
  return .inline .explicit es

end Livecode.Toml
