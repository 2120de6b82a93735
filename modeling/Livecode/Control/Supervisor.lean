import Livecode.Control.Journal
import Livecode.PostWindow

/-!
# The supervisor

Owner of the one interpreter session and of what may be done with it. A supervisor holds at most
one session. Whenever it is asked for something it first looks whether the process still runs, and
lets go of a session whose process has exited. It also keeps track of the audio server that the
interpreter boots.
-/

namespace Livecode

/-- A supervisor of interpreters on a machine with states `ω`. -/
structure Supervisor (ω : Type) where
  machine : ω
  post : PostWindow
  journal : Journal
  /-- The session, once launched and until it ends. -/
  session : Option SessionId
  /-- How many launches there have been; numbers the next session. -/
  launches : Nat
  /-- The audio server was booted in this session. -/
  serverRunning : Bool
  /-- Whether starting the interpreter also boots the audio server. -/
  bootsServer : Bool

/-- Whether a session runs. -/
inductive SessionStatus where
  | stopped
  | running
  deriving DecidableEq, Repr

/-- What a request to start or stop something did. -/
inductive Lifecycle where
  | started
  | alreadyRunning
  | stopped
  | notRunning
  deriving DecidableEq, Repr

/-- Actions of a supervisor. -/
abbrev Supervised (ω : Type) := StateM (Supervisor ω)

namespace Supervisor

variable {ω : Type} (M : Machine ω)

/-- A supervisor without a session. -/
def fresh (machine : ω) (post : PostWindow) (bootsServer : Bool) : Supervisor ω :=
  { machine, post, journal := [], session := none, launches := 0, serverRunning := false,
    bootsServer }

/-! ## Single effects -/

/-- Enters an effect in the journal. -/
def enter (e : JournalEntry) : Supervised ω Unit :=
  modify fun s => { s with journal := s.journal ++ [e] }

/-- Posts a text. -/
def say (t : Text) : Supervised ω Unit := do
  modify fun s => { s with post := s.post.post t }
  enter (.posted t)

/-- Posts what an interpreter printed. -/
def sayAll : List Text → Supervised ω Unit
  | [] => pure ()
  | t :: ts => do say t; sayAll ts

/-- Asks the machine for something. -/
def ask {α : Type} (call : ω → α × ω) : Supervised ω α :=
  modifyGet fun s => ((call s.machine).1, { s with machine := (call s.machine).2 })

/-- Launches an interpreter; it becomes the session if that succeeds. -/
def launch : Supervised ω (Except SessionError Unit) := do
  let id : SessionId := ⟨(← get).launches⟩
  let served ← ask (M.launch id)
  modify fun s => { s with launches := s.launches + 1 }
  enter (.launched id served.result)
  sayAll served.printed
  if served.result.isOk then
    modify fun s => { s with session := some id }
  return served.result

/-- Looks whether the process of a session still runs. -/
def probe (id : SessionId) : Supervised ω Bool := do
  let alive ← ask (M.isAlive id)
  enter (.probed id alive)
  return alive

/-- Has a session evaluate code and waits for the result. -/
def interpret (id : SessionId) (code : Text) : Supervised ω (Except EvalError Text) := do
  let served ← ask (M.interpret id code)
  enter (.interpreted id code served.result)
  sayAll served.printed
  return served.result

/-- Has a session evaluate code without waiting. -/
def send (id : SessionId) (code : Text) : Supervised ω (Except EvalError Unit) := do
  let served ← ask (M.send id code)
  enter (.sent id code served.result)
  sayAll served.printed
  return served.result

/-- Shuts a session down; the supervisor no longer holds it. -/
def shutDown (id : SessionId) : Supervised ω (Except EvalError Unit) := do
  modify fun s => { s with session := none }
  let served ← ask (M.quit id)
  enter (.quit id served.result)
  sayAll served.printed
  return served.result

/-- Lets go of a session, and of the audio server with it. -/
def release (id : SessionId) : Supervised ω Unit := do
  modify fun s => { s with
    session := none
    serverRunning := false
    machine := M.release id s.machine }
  enter (.released id)

/-! ## The session -/

/-- The session, if its process still runs. One whose process has exited is let go of. -/
def liveSession : Supervised ω (Option SessionId) := do
  match (← get).session with
  | none => return none
  | some id =>
    if ← probe M id then return some id
    else
      say "sclang exited"
      release M id
      return none

/-- Whether a session runs. -/
def status : Supervised ω SessionStatus := do
  match ← liveSession M with
  | some _ => return .running
  | none => return .stopped

/-- Evaluates code and gives its result without surrounding blanks. A session that is lost in the
course of it is let go of. -/
def evaluate (code : Text) : Supervised ω (Except SessionError Text) := do
  match ← liveSession M with
  | none => return .error .noSession
  | some id =>
    match ← interpret M id code with
    | .ok result => return .ok (Text.trim result)
    | .error .disconnected =>
      release M id
      return .error EvalError.disconnected.toSessionError
    | .error e => return .error e.toSessionError

/-- Evaluates code without waiting; its output still reaches the post window. -/
def evaluateDetached (code : Text) : Supervised ω (Except SessionError Unit) := do
  match ← liveSession M with
  | none => return .error .noSession
  | some id => return (← send M id code).mapError EvalError.toSessionError

/-- Stops all sound. -/
def hush : Supervised ω (Except SessionError Text) := do
  match ← liveSession M with
  | none =>
    say "sclang not started, cannot hush"
    return .error .noSession
  | some _ => evaluate M "CmdPeriod.run"

/-! ## The audio server -/

/-- Boots the audio server through the interpreter. -/
def bootServer : Supervised ω (Except SessionError Lifecycle) := do
  match ← liveSession M with
  | none =>
    say "sclang not started, cannot boot scsynth"
    return .error .noSession
  | some _ =>
    if (← get).serverRunning then
      say "there is already an instance of scsynth running"
      return .ok .alreadyRunning
    else
      say "Booting scsynth"
      match ← evaluate M "s.boot" with
      | .ok result =>
        unless result = [] do say result
        modify fun s => { s with serverRunning := true }
        say "Successfully booted scsynth"
        return .ok .started
      | .error e =>
        say "Error booting scsynth"
        say e.message
        return .error e

/-- Quits the audio server. It counts as gone even if that fails. -/
def quitServer : Supervised ω (Except SessionError Lifecycle) := do
  if (← get).serverRunning then
    let result ← evaluate M "Server.killAll"
    modify fun s => { s with serverRunning := false }
    match result with
    | .ok _ => return .ok .stopped
    | .error e =>
      say e.message
      return .error e
  else return .ok .notRunning

/-- Boots or quits the audio server, whichever is due. -/
def toggleServer : Supervised ω (Except SessionError Lifecycle) := do
  if (← get).serverRunning then quitServer M else bootServer M

/-! ## The interpreter -/

/-- Starts the interpreter, and the audio server with it if so configured; an audio server that
does not boot leaves the interpreter running. -/
def start : Supervised ω (Except SessionError Lifecycle) := do
  match ← status M with
  | .running =>
    say "there is already an instance of sclang running"
    return .ok .alreadyRunning
  | .stopped =>
    say "Booting sclang"
    match ← launch M with
    | .error e =>
      say "Error booting sclang"
      say e.message
      return .error e
    | .ok () =>
      say "Successfully booted sclang"
      if (← get).bootsServer then
        let _ ← bootServer M
      return .ok .started

/-- Quits the audio server and the interpreter. -/
def stop : Supervised ω (Except SessionError Lifecycle) := do
  match ← status M with
  | .stopped => return .ok .notRunning
  | .running =>
    if (← get).serverRunning then
      let _ ← quitServer M
    let result ← match (← get).session with
      | some id => shutDown M id
      | none => pure (.ok ())
    modify fun s => { s with serverRunning := false }
    match result with
    | .ok () =>
      say "sclang stopped"
      return .ok .stopped
    | .error e =>
      say e.message
      return .error e.toSessionError

/-- Starts or stops the interpreter, whichever is due. -/
def toggle : Supervised ω (Except SessionError Lifecycle) := do
  match ← status M with
  | .stopped => start M
  | .running => stop M

/-- The end of the supervisor: a session it still holds is shut down. -/
def finish : Supervised ω Unit := do
  match (← get).session with
  | some id => let _ ← shutDown M id
  | none => pure ()

end Supervisor
end Livecode
