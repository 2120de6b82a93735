import Livecode.Broadcast.Notice
import Livecode.Statement

/-!
# The audience

Listeners register and get a mailbox each. A notice is put into the mailbox of every registered
listener; one whose mailbox refuses a notice is removed at once. Nothing is kept for later: a
listener sees only what is sent while it is registered. A listener that was removed can still take
what its mailbox holds.

## Main results

* `count_broadcast` — a broadcast reports the number of listeners that are left after it.
-/

namespace Livecode

/-! ## Mailboxes -/

/-- Where the notices for one listener wait. -/
structure Mailbox where
  /-- How many notices may wait; without a bound, any number. -/
  capacity : Option Nat
  /-- The notices that wait, oldest first. -/
  waiting : List Notice
  /-- The owner has gone; nothing can be delivered any more. -/
  closed : Bool
  deriving DecidableEq, Repr

namespace Mailbox

def empty (capacity : Option Nat) : Mailbox := ⟨capacity, [], false⟩

/-- Whether the next notice will be accepted. -/
def hasRoom (b : Mailbox) : Bool :=
  !b.closed && b.capacity.all (b.waiting.length < ·)

/-- The mailbox with a notice added, unless it refuses the notice. -/
def push? (b : Mailbox) (n : Notice) : Option Mailbox :=
  if b.hasRoom then some { b with waiting := b.waiting ++ [n] } else none

/-- Takes the oldest notices, at most `limit`. -/
def take (b : Mailbox) (limit : Nat) : List Notice × Mailbox :=
  (b.waiting.take limit, { b with waiting := b.waiting.drop limit })

/-- The owner goes away. -/
def close (b : Mailbox) : Mailbox := { b with waiting := [], closed := true }

end Mailbox

/-! ## Listeners -/

/-- Someone who has registered. -/
structure Listener where
  id : ListenerId
  mailbox : Mailbox
  /-- Still registered. -/
  enrolled : Bool
  deriving DecidableEq, Repr

namespace Listener

/-- Puts a notice into the mailbox; a refusal removes the listener. -/
def deliver (l : Listener) (n : Notice) : Listener :=
  if l.enrolled then
    match l.mailbox.push? n with
    | some b => { l with mailbox := b }
    | none => { l with enrolled := false }
  else l

/-- Removes the listener. -/
def leave (l : Listener) : Listener := { l with enrolled := false }

end Listener

/-! ## The registry -/

/-- Everyone who has ever registered, in order of registration. -/
structure Audience where
  listeners : List Listener
  nextId : UInt64
  deriving DecidableEq, Repr

namespace Audience

instance : Inhabited Audience := ⟨⟨[], 0⟩⟩

/-- Nobody has registered yet. -/
def empty : Audience := default

/-- Changes the listeners with the given name. -/
def adjust (a : Audience) (id : ListenerId) (f : Listener → Listener) : Audience :=
  { a with listeners := a.listeners.map fun l => if l.id = id then f l else l }

/-- Removes a listener; an unknown name changes nothing. -/
def unregister (a : Audience) (id : ListenerId) : Audience := a.adjust id Listener.leave

/-- Registers a listener with a mailbox of the given capacity. Names are counted with 64 bits; should
a name come round again, whoever still holds it gives way. -/
def register (a : Audience) (capacity : Option Nat) : ListenerId × Audience :=
  let id : ListenerId := ⟨a.nextId⟩
  (id, { listeners := (a.unregister id).listeners ++ [⟨id, .empty capacity, true⟩],
         nextId := a.nextId + 1 })

/-- Whether a listener is registered. -/
def isRegistered (a : Audience) (id : ListenerId) : Bool :=
  a.listeners.any fun l => l.id = id ∧ l.enrolled

/-- The registered listeners, in order of registration. -/
def registered (a : Audience) : List ListenerId :=
  (a.listeners.filter (·.enrolled)).map (·.id)

/-- How many listeners are registered. -/
def count (a : Audience) : Nat := a.listeners.countP (·.enrolled)

/-- Sends a notice to one listener; says whether it was accepted. A refusal removes the
listener. -/
def sendTo (a : Audience) (id : ListenerId) (n : Notice) : Bool × Audience :=
  let b := a.adjust id (·.deliver n)
  (b.isRegistered id, b)

/-- Sends a notice to every registered listener and removes those that refuse it; says how many
accepted it. -/
def broadcast (a : Audience) (n : Notice) : Nat × Audience :=
  let b := { a with listeners := a.listeners.map (·.deliver n) }
  (b.count, b)

/-- Sends a statement to every registered listener. -/
def publish (a : Audience) (st : Statement) : Nat × Audience := a.broadcast (.statement st.text)

/-- Removes every listener without a notice. -/
def clear (a : Audience) : Audience := { a with listeners := a.listeners.map Listener.leave }

/-- A broadcast reports the number of listeners that are left after it. -/
theorem count_broadcast (a : Audience) (n : Notice) :
    (a.broadcast n).1 = (a.broadcast n).2.count := rfl

/-! ## The owners' side -/

/-- Changes the mailbox of the listener that registered at the given turn. -/
def onMailbox (a : Audience) (turn : Nat) (f : Mailbox → Mailbox) : Audience :=
  { a with listeners := a.listeners.modify turn fun l => { l with mailbox := f l.mailbox } }

/-- The listener that registered at the given turn takes notices from its mailbox; nothing can be
taken from a closed one. -/
def take (a : Audience) (turn limit : Nat) : Option (List Notice) × Audience :=
  match a.listeners[turn]? with
  | none => (none, a)
  | some l =>
    if l.mailbox.closed then (none, a)
    else (some (l.mailbox.take limit).1, a.onMailbox turn fun b => (b.take limit).2)

end Audience
end Livecode
