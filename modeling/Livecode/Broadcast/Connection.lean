import Livecode.Broadcast.Server
import Livecode.Wire.Notice

/-!
# Connections

A connection carries frames between a mailbox and a listener. The server writes each notice of the
mailbox as a text frame, and reports what it reads to the server loop. A *subscriber* is a
listener's end of a connection: it reads notices and sends signals.

## Main results

* `Subscriber.length_recv` — reading a notice uses up what was read.
-/

namespace Livecode

/-! ## Frames -/

/-- What comes over a connection at a time. -/
inductive Frame where
  | text (t : Text)
  | close
  /-- Any other frame; nobody looks into it. -/
  | other
  deriving DecidableEq, Repr

/-- Why a connection gives no frame. -/
inductive ConnectionFault where
  /-- The connection was closed before. -/
  | closed
  | io (reason : Text)
  | other (reason : Text)
  deriving DecidableEq, Repr

/-- What comes of reading from a connection once. -/
abbrev Reading := Except ConnectionFault Frame

/-- A notice on its way to a listener. -/
def Notice.frame (n : Notice) : Frame := .text n.encode

/-- A signal on its way to the server. -/
def Signal.frame (s : Signal) : Frame := .text s.encode

/-! ## The end of the server -/

namespace Connection

/-- What is reported of a listener's connection. A text that is no signal is skipped. Nothing is
reported after a goodbye or the end of the connection. -/
def reports (id : ListenerId) : List Reading → List ConnectionEvent
  | [] => []
  | .ok (.text t) :: rest =>
    match Signal.decode t with
    | .ok .ping => .signalled id .ping :: reports id rest
    | .ok .goodbye => [.signalled id .goodbye]
    | .error _ => reports id rest
  | .ok .close :: _ => [.disconnected id]
  | .ok .other :: rest => reports id rest
  | .error _ :: _ => [.disconnected id]

end Connection

/-! ## The end of a listener -/

/-- Why a subscriber was given no notice. -/
inductive SubscriberFault where
  | aborted (reason : Text)
  /-- A text that is no notice. -/
  | invalid (f : Json.Fault)
  | io (reason : Text)
  | other (reason : Text)
  deriving DecidableEq, Repr

def ConnectionFault.toSubscriberFault : ConnectionFault → SubscriberFault
  | closed => .aborted "connection closed"
  | io reason => .io reason
  | other reason => .other reason

/-- The listener's end of a connection. -/
structure Subscriber where
  /-- What the connection will give. -/
  incoming : List Reading
  /-- The name that the server has given the listener, once it is known. -/
  client : Option ListenerId

/-- What a listener knows of its name after a notice. -/
def Notice.introduce (client : Option ListenerId) : Notice → Option ListenerId
  | hello id => some id
  | _ => client

namespace Subscriber

/-- Reads up to the next notice; no answer while the connection gives nothing more. -/
def recvFrom (client : Option ListenerId) :
    List Reading → Option (Except SubscriberFault Notice) × Subscriber
  | [] => (none, ⟨[], client⟩)
  | .ok (.text t) :: rest =>
    match Notice.decode t with
    | .ok n => (some (.ok n), ⟨rest, n.introduce client⟩)
    | .error f => (some (.error (.invalid f)), ⟨rest, client⟩)
  | .ok .close :: rest =>
    (some (.error (.aborted "server closed the connection")), ⟨rest, client⟩)
  | .ok .other :: rest => recvFrom client rest
  | .error f :: rest => (some (.error f.toSubscriberFault), ⟨rest, client⟩)

/-- The next notice. -/
def recv (s : Subscriber) : Option (Except SubscriberFault Notice) × Subscriber :=
  recvFrom s.client s.incoming

theorem length_recvFrom {client : Option ListenerId} {rs : List Reading} {s : Subscriber}
    {r : Except SubscriberFault Notice} (h : recvFrom client rs = (some r, s)) :
    s.incoming.length < rs.length := by
  fun_induction recvFrom client rs with
  | case1 => cases h
  | case5 rest ih => exact Nat.lt_succ_of_lt (ih h)
  | _ =>
    cases h
    exact Nat.lt_succ_self _

/-- Reading a notice uses up what was read. -/
theorem length_recv {s s' : Subscriber} {r : Except SubscriberFault Notice}
    (h : s.recv = (some r, s')) : s'.incoming.length < s.incoming.length := length_recvFrom h

/-- The next statement; `none` if the server is going away. Other notices are skipped. -/
def nextStatement (s : Subscriber) : Option (Except SubscriberFault (Option Text)) × Subscriber :=
  match _h : s.recv with
  | (none, s) => (none, s)
  | (some (.error f), s) => (some (.error f), s)
  | (some (.ok (.statement code)), s) => (some (.ok (some code)), s)
  | (some (.ok .shutdown), s) => (some (.ok none), s)
  | (some (.ok (.hello _)), s) => s.nextStatement
  | (some (.ok .pong), s) => s.nextStatement
termination_by s.incoming.length
decreasing_by
  · exact length_recv _h
  · exact length_recv _h

end Subscriber
end Livecode
