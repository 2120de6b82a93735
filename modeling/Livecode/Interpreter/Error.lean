import Livecode.Number.Rounding
import Livecode.Text.Decimal
import Livecode.Scope.Map

/-!
# Failures

What can go wrong in three layers — one request to an interpreter, the supervision of its session,
and the handling of an editor command — each as its causes, its wording, and how it appears in the
layer above.
-/

namespace Livecode

/-! ## Durations -/

/-- A span of time in milliseconds. -/
structure Duration where
  millis : Nat
  deriving DecidableEq, Repr

namespace Duration

def ofSeconds (s : Nat) : Duration := ⟨1000 * s⟩

/-- Fractions of a second are counted in units of `1 / unit`. -/
private def unit : Nat := 1 <<< 64

/-- The span as a single-precision number of seconds: whole seconds and nanoseconds are rounded
to 24 binary digits each, as are the quotient that turns nanoseconds into seconds and the sum.
The result counts units. -/
private def singleSeconds (d : Duration) : Nat :=
  let whole := Number.roundBits 24 (d.millis / 1000)
  let nanos := Number.roundBits 24 (d.millis % 1000 * 1000000)
  let fraction := Number.roundRatio 24 (nanos * unit) 1000000000
  Number.roundBits 24 (whole * unit + fraction)

/-- The single-precision seconds to one decimal place, a tie to the even digit. -/
def tenths (d : Duration) : Text :=
  let t := Number.roundDiv (10 * d.singleSeconds) unit
  Text.decimal (t / 10) ++ '.' :: Text.decimal (t % 10)

end Duration

/-! ## A request to the interpreter -/

/-- Why a request to an interpreter has no result. -/
inductive EvalError where
  /-- The interpreter reported an error for the input. -/
  | failed (detail : Text)
  /-- No answer came in the time allowed. -/
  | timeout (allowed : Duration)
  /-- The process went away before answering. -/
  | disconnected
  /-- The pipe to the process failed. -/
  | io (reason : Text)
  deriving DecidableEq, Repr

/-- The wording of a failed input or output operation. -/
def ioMessage (reason : Text) : Text := "IO error: " ++ reason

namespace EvalError

def message : EvalError → Text
  | .failed detail => detail
  | .timeout allowed => "no reply from sclang after ".toList ++ allowed.tenths ++ "s"
  | .disconnected => "sclang exited"
  | .io reason => ioMessage reason

end EvalError

/-! ## The session -/

/-- Why the supervisor of the interpreter could not do what it was asked. -/
inductive SessionError where
  /-- No interpreter is running; nothing was sent. -/
  | noSession
  /-- The interpreter rejected or failed on the input. -/
  | evaluation (detail : Text)
  /-- The interpreter could not be started. -/
  | launch (reason : Text)
  | io (reason : Text)
  deriving DecidableEq, Repr

namespace SessionError

def message : SessionError → Text
  | .noSession => "sclang not started"
  | .evaluation detail => detail
  | .launch reason => "Error booting sclang: " ++ reason
  | .io reason => ioMessage reason

end SessionError

/-- A failed request as the supervisor reports it. -/
def EvalError.toSessionError : EvalError → SessionError
  | .io reason => .io reason
  | e => .evaluation e.message

/-! ## A command -/

/-- Why a command was not carried out. -/
inductive CommandError where
  /-- The environment is not started. -/
  | notReady
  | noSession
  | evaluation (detail : Text)
  /-- There is no region at the cursor. -/
  | noRegion
  /-- The scopes of the buffer could not be had. -/
  | noScopes (cause : ScopeError)
  | broadcast (reason : Text)
  deriving DecidableEq, Repr

namespace CommandError

def message : CommandError → Text
  | .notReady => "ENVIL environment is not started"
  | .noSession => "sclang not started, cannot evaluate supercollider code"
  | .evaluation detail => detail
  | .noRegion => "no bracket region at cursor"
  | .noScopes cause => cause.unavailable
  | .broadcast reason => "broadcast error: " ++ reason

/-- A missing region is no fault of the user's and is not reported. -/
def isSilent (e : CommandError) : Bool := e = .noRegion

end CommandError

/-- A failure of the session as the command reports it. -/
def SessionError.toCommandError : SessionError → CommandError
  | .noSession => .noSession
  | .evaluation detail => .evaluation detail
  | e => .evaluation e.message

end Livecode
