import Livecode.Broadcast.Audience

/-!
# The broadcast server

A server on one port. Whatever happens on its connections is reported as events: a connection
completes its handshake and becomes a listener with a bounded mailbox, a listener signals, or a
connection ends. A notice that has been put into a mailbox is written to the connection later; a
listener that stops reading fills its mailbox and is removed.
-/

namespace Livecode

/-- Something that happened on a connection. -/
inductive ConnectionEvent where
  | connected
  | signalled (id : ListenerId) (s : Signal)
  | disconnected (id : ListenerId)
  deriving DecidableEq, Repr

/-- A running server. -/
structure Server where
  audience : Audience
  deriving DecidableEq, Repr

namespace Server

/-- How many notices may wait for one listener before it counts as stalled. -/
def mailboxDepth : Nat := 64

/-- A server without connections. -/
def fresh : Server := ⟨.empty⟩

/-- Registers a connection and greets it. -/
def welcome (s : Server) : ListenerId × Server :=
  let r := s.audience.register (some mailboxDepth)
  (r.1, ⟨(r.2.sendTo r.1 (.hello r.1)).2⟩)

/-- Acts on an event. Events of listeners that are gone change nothing. -/
def handle (s : Server) : ConnectionEvent → Server
  | .connected => s.welcome.2
  | .signalled id .ping => ⟨(s.audience.sendTo id .pong).2⟩
  | .signalled id .goodbye => ⟨s.audience.unregister id⟩
  | .disconnected id => ⟨s.audience.unregister id⟩

/-- Acts on events in order. -/
def poll (s : Server) (es : List ConnectionEvent) : Server := es.foldl handle s

/-- Sends a statement to every listener; says how many accepted it. -/
def publish (s : Server) (st : Statement) : Nat × Server :=
  let r := s.audience.publish st
  (r.1, ⟨r.2⟩)

def count (s : Server) : Nat := s.audience.count

/-- Tells every listener that the server is going away, and removes them all. -/
def shutdown (s : Server) : Server := ⟨(s.audience.broadcast .shutdown).2.clear⟩

/-- The end of the server: listeners that are left are told. -/
def finish (s : Server) : Server := if 0 < s.count then s.shutdown else s

end Server
end Livecode
