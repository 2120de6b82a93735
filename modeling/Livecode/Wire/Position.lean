import Livecode.Json.Value
import Livecode.Json.Writer
import Livecode.Source.Position
import Livecode.Region

/-!
# Positions and selections on the wire

Each is an object of its fields; it may also be given as the array of their values in order.
-/

namespace Livecode

namespace Position

/-- A position as JSON. -/
def encode (p : Position) : Text :=
  Json.object [("line", Json.natural p.line), ("column", Json.natural p.column)]

def ofValue? : Json.Value → Option Position
  | .object fs => do
    let line ← Json.Value.field? fs "line"
    let column ← Json.Value.field? fs "column"
    return ⟨← line.natural?, ← column.natural?⟩
  | .array [line, column] => do return ⟨← line.natural?, ← column.natural?⟩
  | _ => none

end Position

namespace Selection

/-- A selection as JSON. -/
def encode (s : Selection) : Text :=
  Json.object [("anchor", s.anchor.encode), ("active", s.active.encode)]

def ofValue? : Json.Value → Option Selection
  | .object fs => do
    let anchor ← Json.Value.field? fs "anchor"
    let active ← Json.Value.field? fs "active"
    return ⟨← Position.ofValue? anchor, ← Position.ofValue? active⟩
  | .array [anchor, active] => do
    return ⟨← Position.ofValue? anchor, ← Position.ofValue? active⟩
  | _ => none

/-- A selection that may be absent, which is written `null`. -/
def encodeOption : Option Selection → Text
  | some s => s.encode
  | none => Json.null

def optionOfValue? : Json.Value → Option (Option Selection)
  | .null => some none
  | v => (ofValue? v).map some

end Selection

namespace Region

/-- A region as JSON. -/
def encode (r : Region) : Text :=
  Json.object [("start_line", Json.natural r.startLine), ("end_line", Json.natural r.endLine)]

end Region
end Livecode
