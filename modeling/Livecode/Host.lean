import Livecode.Config
import Livecode.Control.Controller
import Livecode.Wire.Command

/-!
# The host

Reads commands, one JSON text per line of its input, and carries them out. A line that is not a
command is skipped. Input that is not UTF-8 ends at the first line that is none. Between lines the
outlet is attended to, and at the end of the input the environment is stopped.
-/

namespace Livecode.Host

/-! ## Input -/

/-- The lines of the input, up to the first that is not UTF-8. -/
def inputLines (input : List UInt8) : List Text :=
  (((Text.records newline input).map Utf8.decode?).takeWhile Option.isSome).filterMap id

/-- The command that a line gives, if it gives one. -/
def command? (line : Text) : Option Command :=
  match Command.decode (Text.trim line) with
  | .ok c => some c
  | .error _ => none

/-! ## Running -/

variable {ω σ : Type} (S : Studio ω σ)

/-- Carries out a line, and attends to the outlet. -/
def carryOutLine (line : Text) : Controlled ω σ Unit := do
  match command? line with
  | some c => let _ ← Controller.dispatch S c
  | none => pure ()
  Controller.pump S

/-- Carries out lines in order. -/
def carryOut : List Text → Controlled ω σ Unit
  | [] => pure ()
  | line :: lines => do carryOutLine S line; carryOut lines

/-- What happens before the first line. -/
def start (config : Config) : Controlled ω σ Unit := do
  if config.activeOnLaunch then
    let _ ← Controller.startEnvironment S

/-- What happens after the last line. -/
def stop : Controlled ω σ Unit := do
  let _ ← Controller.stopEnvironment S
  Controller.finish S

/-- A whole run. -/
def run (config : Config) (input : List UInt8) : Controlled ω σ Unit := do
  start S config
  carryOut S (inputLines input)
  stop S

/-- Takes the lines that have been posted since they were taken last. -/
def takeEcho : Controlled ω σ (List Text) :=
  modifyGet fun c =>
    let post := c.supervisor.post
    (post.echoed,
      { c with supervisor := { c.supervisor with post := { post with echo := .working [] } } })

/-! ## A host without interpreters and connections -/

/-- What a host works with on a machine without interpreters and a network without listeners. -/
def studio (config : Config) : Studio Unit (Station Unit) where
  machine := .bare
  outlet := .station .silent
  classifier := .scanning
  redirect := config.redirect

/-- The controller of such a host; whatever is posted is echoed. -/
def controller (config : Config) : Controller Unit (Station Unit) :=
  .fresh (.fresh () (.empty PostWindow.defaultCapacity (.working [])) config.bootsServer)
    (.idle config.broadcastAddress ())

end Livecode.Host
