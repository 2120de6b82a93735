import Livecode.Broadcast.Server
import Livecode.Interpreter.Error
import Livecode.Text.Line

/-!
# Outlets

Where statements go: something with states `σ` that is brought up and taken down with the
environment. An audience is an outlet that is always up. A *station* is a server bound to an
address while it is up.

## Main results

* `isUp_stop` — a station that was taken down is down.
-/

namespace Livecode

/-- The behaviour of an outlet. -/
structure Outlet (σ : Type) where
  /-- Makes ready for listeners. -/
  start : σ → Except CommandError Unit × σ
  /-- Lets go of every listener. -/
  stop : σ → σ
  /-- Sends a statement out; says how many listeners it reached. -/
  publish : Statement → σ → Nat × σ
  /-- Attends to connections between commands. -/
  pump : σ → σ
  /-- How many listeners there are. -/
  count : σ → Nat

namespace Outlet

/-- An audience in the same program. -/
def audience : Outlet Audience where
  start a := (.ok (), a)
  stop a := a.clear
  publish st a := a.publish st
  pump a := a
  count a := a.count

end Outlet

/-! ## Addresses -/

namespace Address

/-- A port: a number of 16 bits in decimal digits; a plus sign may precede it. -/
def isPort (t : Text) : Bool :=
  let digits := match t with
    | '+' :: t => t
    | t => t
  (Text.ofDecimal? digits).any (· < UInt16.size)

/-- What is wrong with the form of an address `host:port`, if anything is. -/
def fault? (address : Text) : Option Text :=
  match (Text.pieces ':' address).reverse with
  | port :: _ :: _ => if isPort port then none else some "invalid port value"
  | _ => some "invalid socket address"

end Address

/-! ## Stations -/

/-- The behaviour of a network with states `ν`. -/
structure Network (ν : Type) where
  /-- Listens on an address, or says why that is impossible. -/
  bind : Text → ν → Except Text Unit × ν
  /-- What has happened on the connections since it was asked last. -/
  events : ν → List ConnectionEvent × ν
  /-- Stops listening; what the mailboxes of the server still hold is written, and then its
  connections are closed. -/
  close : Server → ν → ν

/-- A network on which any well-formed address can be listened on, and nobody ever connects. -/
def Network.silent : Network Unit where
  bind address ν :=
    match Address.fault? address with
    | some reason => (.error reason, ν)
    | none => (.ok (), ν)
  events ν := ([], ν)
  close _ ν := ν

/-- A place for a server on a network. -/
structure Station (ν : Type) where
  address : Text
  server : Option Server
  network : ν

namespace Station

variable {ν : Type} (N : Network ν)

/-- Nothing listens yet. -/
def idle (address : Text) (network : ν) : Station ν := ⟨address, none, network⟩

def isUp (s : Station ν) : Bool := s.server.isSome

/-- Listens on the address, unless that is done already. -/
def start (s : Station ν) : Except CommandError Unit × Station ν :=
  match s.server with
  | some _ => (.ok (), s)
  | none =>
    match N.bind s.address s.network with
    | (.ok (), network) => (.ok (), ⟨s.address, some .fresh, network⟩)
    | (.error reason, network) =>
      (.error (.broadcast ("cannot listen on ".toList ++ s.address ++ ": ".toList ++ reason)),
        ⟨s.address, none, network⟩)

/-- Shuts the server down. -/
def stop (s : Station ν) : Station ν :=
  match s.server with
  | some server => ⟨s.address, none, N.close server.shutdown s.network⟩
  | none => s

/-- Sends a statement out. -/
def publish (st : Statement) (s : Station ν) : Nat × Station ν :=
  match s.server with
  | some server =>
    let r := server.publish st
    (r.1, { s with server := some r.2 })
  | none => (0, s)

/-- Acts on what has happened on the connections. -/
def pump (s : Station ν) : Station ν :=
  match s.server with
  | some server =>
    let r := N.events s.network
    ⟨s.address, some (server.poll r.1), r.2⟩
  | none => s

def count (s : Station ν) : Nat :=
  match s.server with
  | some server => server.count
  | none => 0

/-- A station that was taken down is down. -/
@[simp] theorem isUp_stop (s : Station ν) : (s.stop N).isUp = false := by
  unfold stop
  split <;> simp_all [isUp]

end Station

/-- A station as an outlet. -/
def Outlet.station {ν : Type} (N : Network ν) : Outlet (Station ν) where
  start s := s.start N
  stop s := s.stop N
  publish st s := s.publish st
  pump s := s.pump N
  count s := s.count

end Livecode
