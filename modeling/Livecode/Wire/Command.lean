import Livecode.Control.Command
import Livecode.Json.Tagged
import Livecode.Wire.Position

/-!
# Commands on the wire

A command is a tagged object: the field `command` names it, and its other fields follow. A missing
selection is the same as none; fields that a command does not have are ignored.
-/

namespace Livecode.Command

/-- The kinds of commands. -/
inductive Kind where
  | startEnvironment
  | stopEnvironment
  | evaluateStatements
  | evaluate
  | evaluateRegion
  | evaluateDetached
  | startInterpreter
  | stopInterpreter
  | toggleInterpreter
  | interpreterStatus
  | hush
  | bootServer
  | quitServer
  | toggleServer
  deriving DecidableEq, Repr

namespace Kind

def all : List Kind :=
  [.startEnvironment, .stopEnvironment, .evaluateStatements, .evaluate, .evaluateRegion,
    .evaluateDetached, .startInterpreter, .stopInterpreter, .toggleInterpreter, .interpreterStatus,
    .hush, .bootServer, .quitServer, .toggleServer]

/-- The name of a kind. -/
def name : Kind → Text
  | .startEnvironment => "start-environment"
  | .stopEnvironment => "stop-environment"
  | .evaluateStatements => "evaluate-statements"
  | .evaluate => "evaluate"
  | .evaluateRegion => "evaluate-region"
  | .evaluateDetached => "evaluate-detached"
  | .startInterpreter => "start-interpreter"
  | .stopInterpreter => "stop-interpreter"
  | .toggleInterpreter => "toggle-interpreter"
  | .interpreterStatus => "interpreter-status"
  | .hush => "hush"
  | .bootServer => "boot-server"
  | .quitServer => "quit-server"
  | .toggleServer => "toggle-server"

def ofName? (t : Text) : Option Kind := all.find? (·.name = t)

theorem ofName?_name (k : Kind) : ofName? k.name = some k := by cases k <;> decide

end Kind

/-- The kind of a command. -/
def kind : Command → Kind
  | .startEnvironment => .startEnvironment
  | .stopEnvironment => .stopEnvironment
  | .evaluateStatements .. => .evaluateStatements
  | .evaluate .. => .evaluate
  | .evaluateRegion .. => .evaluateRegion
  | .evaluateDetached .. => .evaluateDetached
  | .startInterpreter => .startInterpreter
  | .stopInterpreter => .stopInterpreter
  | .toggleInterpreter => .toggleInterpreter
  | .interpreterStatus => .interpreterStatus
  | .hush => .hush
  | .bootServer => .bootServer
  | .quitServer => .quitServer
  | .toggleServer => .toggleServer

/-- The fields of a command beside its name. -/
def fields : Command → List (Text × Text)
  | .evaluateStatements text selection =>
    [("text", Json.quote text), ("selection", Selection.encodeOption selection)]
  | .evaluate text selection =>
    [("text", Json.quote text), ("selection", Selection.encodeOption selection)]
  | .evaluateDetached text selection =>
    [("text", Json.quote text), ("selection", Selection.encodeOption selection)]
  | .evaluateRegion text cursor =>
    [("text", Json.quote text), ("cursor", cursor.encode)]
  | _ => []

/-- A command as JSON. -/
def encode (c : Command) : Text :=
  Json.object (("command", Json.quote c.kind.name) :: c.fields)

/-- A command with a text and a selection. -/
private def withSelection? (make : Text → Option Selection → Command) : Json.Body → Option Command
  | .fields fs => do
    let text ← Json.Value.field? fs "text"
    let selection ← Json.Value.optionalField? fs "selection"
    return make (← text.string?) (← Selection.optionOfValue? selection)
  | .items [text] => do return make (← text.string?) none
  | .items [text, selection] => do
    return make (← text.string?) (← Selection.optionOfValue? selection)
  | .items _ => none

/-- A command with a text and a cursor. -/
private def withCursor? (make : Text → Position → Command) : Json.Body → Option Command
  | .fields fs => do
    let text ← Json.Value.field? fs "text"
    let cursor ← Json.Value.field? fs "cursor"
    return make (← text.string?) (← Position.ofValue? cursor)
  | .items [text, cursor] => do return make (← text.string?) (← Position.ofValue? cursor)
  | .items _ => none

/-- A command without fields. -/
private def plain? (c : Command) : Json.Body → Option Command
  | .fields _ => some c
  | .items [] => some c
  | .items _ => none

/-- The command of a kind with the given fields. -/
def build? : Kind → Json.Body → Option Command
  | .startEnvironment => plain? .startEnvironment
  | .stopEnvironment => plain? .stopEnvironment
  | .evaluateStatements => withSelection? .evaluateStatements
  | .evaluate => withSelection? .evaluate
  | .evaluateRegion => withCursor? .evaluateRegion
  | .evaluateDetached => withSelection? .evaluateDetached
  | .startInterpreter => plain? .startInterpreter
  | .stopInterpreter => plain? .stopInterpreter
  | .toggleInterpreter => plain? .toggleInterpreter
  | .interpreterStatus => plain? .interpreterStatus
  | .hush => plain? .hush
  | .bootServer => plain? .bootServer
  | .quitServer => plain? .quitServer
  | .toggleServer => plain? .toggleServer

/-- Reads a command. -/
def decode (t : Text) : Except Json.Fault Command :=
  Json.decodeTagged "command" Kind.ofName? build? t

end Livecode.Command
