import Livecode.Broadcast.Notice
import Livecode.Json.Tagged
import Livecode.Json.Writer

/-!
# Notices and signals on the wire

Notices and signals are tagged objects: the field `event` names what happened. A listener's name on
its own is its number.
-/

namespace Livecode

/-! ## Names of listeners -/

namespace ListenerId

/-- A listener's name as JSON. -/
def encode (id : ListenerId) : Text := Json.natural id.number.toNat

def ofValue? (v : Json.Value) : Option ListenerId :=
  v.natural?.map fun n => ⟨UInt64.ofNat n⟩

/-- Reads a listener's name. -/
def decode (t : Text) : Except Json.Fault ListenerId :=
  match Json.tokens t with
  | .number (some n) :: rest => do
    Json.noMore rest
    return ⟨UInt64.ofNat n⟩
  | .bad f :: _ => .error f
  | _ => .error .unexpected

end ListenerId

/-! ## Notices -/

namespace Notice

inductive Kind where
  | hello
  | statement
  | pong
  | shutdown
  deriving DecidableEq, Repr

namespace Kind

def all : List Kind := [.hello, .statement, .pong, .shutdown]

/-- The name of a kind. -/
def name : Kind → Text
  | .hello => "hello"
  | .statement => "new-command"
  | .pong => "pong"
  | .shutdown => "shutdown"

def ofName? (t : Text) : Option Kind := all.find? (·.name = t)

theorem ofName?_name (k : Kind) : ofName? k.name = some k := by cases k <;> decide

end Kind

/-- The kind of a notice. -/
def kind : Notice → Kind
  | .hello _ => .hello
  | .statement _ => .statement
  | .pong => .pong
  | .shutdown => .shutdown

/-- The fields of a notice beside its name. -/
def fields : Notice → List (Text × Text)
  | .hello id => [("client", id.encode)]
  | .statement code => [("data", Json.quote code)]
  | _ => []

/-- A notice as JSON. -/
def encode (n : Notice) : Text := Json.object (("event", Json.quote n.kind.name) :: n.fields)

/-- A notice with one field. -/
private def withField? (name : Text) (make : Json.Value → Option Notice) :
    Json.Body → Option Notice
  | .fields fs => (Json.Value.field? fs name).bind make
  | .items [v] => make v
  | .items _ => none

/-- A notice without fields. -/
private def plain? (n : Notice) : Json.Body → Option Notice
  | .fields _ => some n
  | .items [] => some n
  | .items _ => none

/-- The notice of a kind with the given fields. -/
def build? : Kind → Json.Body → Option Notice
  | .hello => withField? "client" fun v => (ListenerId.ofValue? v).map .hello
  | .statement => withField? "data" fun v => v.string?.map .statement
  | .pong => plain? .pong
  | .shutdown => plain? .shutdown

/-- Reads a notice. -/
def decode (t : Text) : Except Json.Fault Notice :=
  Json.decodeTagged "event" Kind.ofName? build? t

end Notice

/-! ## Signals -/

namespace Signal

def all : List Signal := [.ping, .goodbye]

/-- The name of a signal. -/
def name : Signal → Text
  | .ping => "ping"
  | .goodbye => "goodbye"

def ofName? (t : Text) : Option Signal := all.find? (·.name = t)

theorem ofName?_name (s : Signal) : ofName? s.name = some s := by cases s <;> decide

/-- A signal as JSON. -/
def encode (s : Signal) : Text := Json.object [("event", Json.quote s.name)]

private def build? (s : Signal) : Json.Body → Option Signal
  | .fields _ => some s
  | .items [] => some s
  | .items _ => none

/-- Reads a signal. -/
def decode (t : Text) : Except Json.Fault Signal := Json.decodeTagged "event" ofName? build? t

end Signal
end Livecode
