import Livecode.Text.Decimal

/-!
# Messages between the broadcast server and its listeners
-/

namespace Livecode

/-- Names one listener for the lifetime of its connection. -/
structure ListenerId where
  number : UInt64
  deriving DecidableEq, Repr

namespace ListenerId

/-- How a listener is shown. -/
def display (id : ListenerId) : Text := "client#".toList ++ Text.decimal id.number.toNat

end ListenerId

/-- What listeners are told. -/
inductive Notice where
  /-- Sent once, right after a listener is registered. -/
  | hello (id : ListenerId)
  /-- A statement to execute. -/
  | statement (code : Text)
  /-- The answer to a ping. -/
  | pong
  /-- The server is going away. -/
  | shutdown
  deriving DecidableEq, Repr

/-- What listeners tell the server. -/
inductive Signal where
  | ping
  | goodbye
  deriving DecidableEq, Repr

end Livecode
