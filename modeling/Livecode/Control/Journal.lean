import Livecode.Interpreter.Machine
import Livecode.Statement

/-!
# The journal

A record of every effect that carrying out commands has had, in order: what was asked of the
machine and what it answered, what was posted, and what was asked of the outlet and the classifier.

## Main results

* `posted_append`, `quits_append` — the views of a journal are read piece by piece.
-/

namespace Livecode

/-- One effect. -/
inductive JournalEntry where
  | posted (t : Text)
  | launched (s : SessionId) (result : Except SessionError Unit)
  | probed (s : SessionId) (alive : Bool)
  | interpreted (s : SessionId) (code : Text) (result : Except EvalError Text)
  | sent (s : SessionId) (code : Text) (result : Except EvalError Unit)
  | quit (s : SessionId) (result : Except EvalError Unit)
  | released (s : SessionId)
  | classified
  | opened (result : Except CommandError Unit)
  | closed
  | published (statement : Statement) (reached : Nat)

/-- Effects, oldest first. -/
abbrev Journal := List JournalEntry

namespace Journal

/-- The texts posted. -/
def posted (j : Journal) : List Text :=
  j.filterMap fun
    | .posted t => some t
    | _ => none

/-- The code that was evaluated waiting for a result. -/
def interpreted (j : Journal) : List Text :=
  j.filterMap fun
    | .interpreted _ code _ => some code
    | _ => none

/-- The code that was evaluated without waiting. -/
def sent (j : Journal) : List Text :=
  j.filterMap fun
    | .sent _ code _ => some code
    | _ => none

/-- The number of sessions launched. -/
def launches (j : Journal) : Nat :=
  j.countP fun
    | .launched _ (.ok _) => true
    | _ => false

/-- The number of sessions shut down. -/
def quits (j : Journal) : Nat :=
  j.countP fun
    | .quit .. => true
    | _ => false

/-- The statements handed to the outlet. -/
def published (j : Journal) : List Statement :=
  j.filterMap fun
    | .published st _ => some st
    | _ => none

@[simp] theorem posted_append (i j : Journal) : posted (i ++ j) = posted i ++ posted j :=
  List.filterMap_append

@[simp] theorem quits_append (i j : Journal) : quits (i ++ j) = quits i + quits j :=
  List.countP_append

end Journal
end Livecode
