import Livecode.Interpreter.Error
import Livecode.Interpreter.Reader
import Livecode.Interpreter.Request

/-!
# Waiting for answers

One side of the conversation with a running interpreter: requests are numbered, events arrive in an
inbox at any time, and a request waits until the inbox holds its own answer or the end of the
interpreter's output. Answers to other requests, given up earlier, are thrown away on the way.

## Main results

* `awaitReply_reply_self` — an answer to the request waited for is taken.
-/

namespace Livecode

/-- What waiting on an inbox comes to. -/
inductive Wait (α : Type) where
  | got (a : α)
  /-- The output of the interpreter has ended. -/
  | ended
  /-- Nothing of use has arrived. -/
  | nothing
  deriving DecidableEq, Repr

/-- The state of the conversation. -/
structure Session where
  nextId : RequestId
  /-- Events that have arrived and not been taken, oldest first. -/
  inbox : List InterpreterEvent
  /-- The end of the output has been taken from the inbox. -/
  ended : Bool
  /-- How long a request waits for its answer; without a limit it waits for ever. -/
  patience : Option Duration
  deriving DecidableEq, Repr

namespace Session

/-- A conversation in which nothing has been said. -/
def fresh (patience : Option Duration) : Session := ⟨0, [], false, patience⟩

/-- Some events arrive. -/
def arrive (s : Session) (es : List InterpreterEvent) : Session := { s with inbox := s.inbox ++ es }

/-! ## Waiting -/

/-- Takes events until the answer to a request or the end of the output. -/
def awaitReply (id : RequestId) : List InterpreterEvent → Wait Answer × List InterpreterEvent
  | [] => (.nothing, [])
  | .exited :: es => (.ended, es)
  | .ready :: es => awaitReply id es
  | .reply r :: es => if r.id = id then (.got r.answer, es) else awaitReply id es

/-- Takes events until the boot banner or the end of the output. -/
def awaitReady : List InterpreterEvent → Wait Unit × List InterpreterEvent
  | [] => (.nothing, [])
  | .exited :: es => (.ended, es)
  | .ready :: es => (.got (), es)
  | .reply _ :: es => awaitReady es

theorem awaitReply_reply_self (id : RequestId) (a : Answer) (es : List InterpreterEvent) :
    awaitReply id (.reply ⟨id, a⟩ :: es) = (.got a, es) := by simp [awaitReply]

/-- Waits for the interpreter to boot, at most for the given time. -/
def boot (s : Session) (limit : Duration) : Except SessionError Unit × Session :=
  let w := awaitReady s.inbox
  let s := { s with inbox := w.2 }
  match w.1 with
  | .got () => (.ok (), s)
  | .ended => (.error (.launch "sclang exited during boot"), { s with ended := true })
  | .nothing =>
    (.error (if s.ended then .launch "sclang exited during boot"
      else .launch ("sclang did not boot within ".toList ++ Text.decimal (limit.millis / 1000)
        ++ "s")), s)

/-- What becomes of a request for evaluation that was `written` to the interpreter, or was not,
while some events arrive. Without a limit on waiting there is no outcome until something of use
has arrived. -/
def interpret (s : Session) (written : Except Text Unit) (arrivals : List InterpreterEvent) :
    Option (Except EvalError Text) × Session :=
  let id := s.nextId
  let s := { s.arrive arrivals with nextId := id + 1 }
  match written with
  | .error reason => (some (.error (.io reason)), s)
  | .ok () =>
    let w := awaitReply id s.inbox
    let s := { s with inbox := w.2 }
    match w.1 with
    | .got (.result t) => (some (.ok t), s)
    | .got (.failure t) => (some (.error (.failed t)), s)
    | .ended => (some (.error .disconnected), { s with ended := true })
    | .nothing =>
      (if s.ended then some (.error .disconnected) else s.patience.map (.error <| .timeout ·), s)

/-- What becomes of code that is sent without waiting for an answer. -/
def send (s : Session) (written : Except Text Unit) (arrivals : List InterpreterEvent) :
    Except EvalError Unit × Session :=
  (written.mapError .io, s.arrive arrivals)

end Session
end Livecode
