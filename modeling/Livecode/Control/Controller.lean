import Livecode.Broadcast.Outlet
import Livecode.Control.Command
import Livecode.Control.Supervisor
import Livecode.Region
import Livecode.Statement.Stream

/-!
# The controller

Carries out editor commands. Visual code is cut into statements that go to the outlet; sound code
is cut to the selection or the region at the cursor and goes to the interpreter. Commands other
than starting the environment do nothing until it is started. A failure ends as at most one line in
the post window.

## Main results

* `dispatch_of_inactive` — while the environment is not started, every command that is not about
  it is rejected.
-/

namespace Livecode

/-- What a controller works with: a machine with states `ω`, an outlet with states `σ`, a source of
scopes, and the redirect for visual code. -/
structure Studio (ω σ : Type) where
  machine : Machine ω
  outlet : Outlet σ
  classifier : Classifier
  redirect : Redirect

/-- Whether code of a language is being handled. -/
inductive Activity where
  | idle
  | dispatching
  deriving DecidableEq, Repr

/-- What a command ended up doing. -/
inductive Outcome where
  /-- So many statements were handed to the outlet. -/
  | published (count : Nat)
  /-- The result of an evaluation, without surrounding blanks. -/
  | evaluated (result : Text)
  /-- There is no region at the cursor; nothing happened. -/
  | noRegion
  /-- Code was sent without waiting for its result. -/
  | sent
  | lifecycle (message : Text)
  | rejected (e : CommandError)
  deriving DecidableEq

/-- The state of a controller. -/
structure Controller (ω σ : Type) where
  supervisor : Supervisor ω
  outlet : σ
  /-- The environment is started. -/
  active : Bool
  visual : Activity
  sound : Activity

/-- Actions of a controller. -/
abbrev Controlled (ω σ : Type) := StateM (Controller ω σ)

namespace Controller

variable {ω σ : Type} (S : Studio ω σ)

/-- A controller whose environment is not started. -/
def fresh (supervisor : Supervisor ω) (outlet : σ) : Controller ω σ :=
  { supervisor, outlet, active := false, visual := .idle, sound := .idle }

/-- Whether code of a language is being handled. -/
def activity (c : Controller ω σ) : Language → Activity
  | .hydra => c.visual
  | .superCollider => c.sound

/-! ## Single effects -/

/-- Has the supervisor do something. -/
def supervised {α : Type} (act : Supervised ω α) : Controlled ω σ α :=
  modifyGet fun c => ((act.run c.supervisor).1, { c with supervisor := (act.run c.supervisor).2 })

/-- Posts a text. -/
def say (t : Text) : Controlled ω σ Unit := supervised (Supervisor.say t)

/-- Enters an effect in the journal. -/
def enter (e : JournalEntry) : Controlled ω σ Unit := supervised (Supervisor.enter e)

/-- Has the outlet do something. -/
def onOutlet {α : Type} (call : σ → α × σ) : Controlled ω σ α :=
  modifyGet fun c => ((call c.outlet).1, { c with outlet := (call c.outlet).2 })

/-- Notes whether code of a language is being handled. -/
def setActivity (l : Language) (a : Activity) : Controlled ω σ Unit :=
  modify fun c =>
    match l with
    | .hydra => { c with visual := a }
    | .superCollider => { c with sound := a }

/-- Reports why a command was not carried out. A missing region is not reported. -/
def reject (e : CommandError) : Controlled ω σ Outcome := do
  if e.isSilent then return .noRegion
  else
    say e.message
    return .rejected e

/-- Does something only if the environment is started. -/
def whenReady (act : Controlled ω σ Outcome) : Controlled ω σ Outcome := do
  if (← get).active then act else reject .notReady

/-- Handles code of a language: the language is busy meanwhile, and idle again whatever comes of
it. -/
def handling (l : Language) (act : Controlled ω σ (Except CommandError Outcome)) :
    Controlled ω σ Outcome :=
  whenReady do
    setActivity l .dispatching
    let result ← act
    setActivity l .idle
    match result with
    | .ok outcome => return outcome
    | .error e => reject e

/-! ## The environment -/

/-- Brings the outlet up. -/
def startEnvironment : Controlled ω σ Outcome := do
  if (← get).active then return .lifecycle "ENVIL environment is already started"
  else
    let result ← onOutlet S.outlet.start
    enter (.opened result)
    match result with
    | .error e => reject e
    | .ok () =>
      modify fun c => { c with active := true }
      say "ENVIL environment started"
      return .lifecycle "ENVIL environment started"

/-- Stops the interpreter and takes the outlet down. -/
def stopEnvironment : Controlled ω σ Outcome := do
  if (← get).active then
    let _ ← supervised (Supervisor.stop S.machine)
    onOutlet fun o => ((), S.outlet.stop o)
    enter .closed
    modify fun c => { c with active := false }
    say "ENVIL environment stopped"
    return .lifecycle "ENVIL environment stopped"
  else return .lifecycle "ENVIL environment is not started"

/-! ## Visual code -/

/-- Hands statements to the outlet, one after the other. -/
def publishAll : List Statement → Controlled ω σ Unit
  | [] => pure ()
  | st :: sts => do
    let reached ← onOutlet (S.outlet.publish st)
    enter (.published st reached)
    publishAll sts

/-- Publishes the statements of the selected text, or of the whole text. -/
def evaluateStatements (text : Text) (selection : Option Selection) : Controlled ω σ Outcome :=
  handling .hydra do
    let statements := Statement.segmentSelection S.redirect (.ofText text) selection
    publishAll S statements
    return .ok (.published statements.length)

/-! ## Sound code -/

/-- Whether there is a session to evaluate in. -/
def requireSession : Controlled ω σ (Except CommandError Unit) := do
  match ← supervised (Supervisor.status S.machine) with
  | .running => return .ok ()
  | .stopped => return .error .noSession

/-- The text of the region at a cursor. -/
def regionCode (text : Text) (cursor : Position) : Controlled ω σ (Except CommandError Text) := do
  let buffer := Buffer.ofText text
  enter .classified
  match Region.extract? S.classifier buffer cursor with
  | .error e => return .error (.noScopes e)
  | .ok none => return .error .noRegion
  | .ok (some region) => return .ok (region.text buffer)

/-- Evaluates code and posts its result, if there is any. -/
def evaluateCode (code : Text) : Controlled ω σ (Except CommandError Outcome) := do
  match ← supervised (Supervisor.evaluate S.machine code) with
  | .error e => return .error e.toCommandError
  | .ok result =>
    unless result = [] do say result
    return .ok (.evaluated result)

/-- Evaluates the region at a cursor. Without a session no region is looked for. -/
def evaluateRegion (text : Text) (cursor : Position) : Controlled ω σ Outcome :=
  handling .superCollider do
    match ← requireSession S with
    | .error e => return .error e
    | .ok () =>
      match ← regionCode S text cursor with
      | .error e => return .error e
      | .ok code => evaluateCode S code

/-- Evaluates the selected text as it is; if nothing is selected, the region at the cursor.
Without a cursor there is no region. -/
def evaluate (text : Text) : Option Selection → Controlled ω σ Outcome
  | none => handling .superCollider (return .error .noRegion)
  | some s =>
    if s.isEmpty then evaluateRegion S text s.active
    else handling .superCollider (evaluateCode S ((Buffer.ofText text).selectedText s))

/-- The code that `evaluate` would evaluate. -/
def chosenCode (text : Text) : Option Selection → Controlled ω σ (Except CommandError Text)
  | none => return .error .noRegion
  | some s =>
    if s.isEmpty then regionCode S text s.active
    else return .ok ((Buffer.ofText text).selectedText s)

/-- Sends code to the interpreter without waiting for its result. -/
def evaluateDetached (text : Text) (selection : Option Selection) : Controlled ω σ Outcome :=
  handling .superCollider do
    match ← requireSession S with
    | .error e => return .error e
    | .ok () =>
      match ← chosenCode S text selection with
      | .error e => return .error e
      | .ok code =>
        match ← supervised (Supervisor.evaluateDetached S.machine code) with
        | .error e => return .error e.toCommandError
        | .ok () => return .ok .sent

/-! ## The interpreter and its audio server -/

/-- What happened to a program, in words. -/
def describe (program : Text) : Lifecycle → Text
  | .started => program ++ " started"
  | .alreadyRunning => program ++ " is already running"
  | .stopped => program ++ " stopped"
  | .notRunning => program ++ " is not running"

/-- Starts or stops a program. The supervisor posts its own failures. -/
def lifecycle (program : Text) (act : Supervised ω (Except SessionError Lifecycle)) :
    Controlled ω σ Outcome :=
  whenReady do
    match ← supervised act with
    | .ok l => return .lifecycle (describe program l)
    | .error e => return .rejected e.toCommandError

/-- Stops all sound. A missing session has been posted already. -/
def hush : Controlled ω σ Outcome :=
  whenReady do
    match ← supervised (Supervisor.hush S.machine) with
    | .ok result => return .evaluated result
    | .error .noSession => return .rejected .noSession
    | .error e => reject e.toCommandError

/-- Reports what runs. -/
def interpreterStatus : Controlled ω σ Outcome :=
  whenReady do
    let status ← supervised (Supervisor.status S.machine)
    let interpreter : Text := match status with
      | .running => "running"
      | .stopped => "stopped"
    let server : Text := if (← get).supervisor.serverRunning then "running" else "stopped"
    let line := "sclang ".toList ++ interpreter ++ ", scsynth ".toList ++ server
    say line
    return .lifecycle line

/-! ## Commands -/

/-- Carries out a command. -/
def dispatch : Command → Controlled ω σ Outcome
  | .startEnvironment => startEnvironment S
  | .stopEnvironment => stopEnvironment S
  | .evaluateStatements text selection => evaluateStatements S text selection
  | .evaluate text selection => evaluate S text selection
  | .evaluateRegion text cursor => evaluateRegion S text cursor
  | .evaluateDetached text selection => evaluateDetached S text selection
  | .startInterpreter => lifecycle "sclang" (Supervisor.start S.machine)
  | .stopInterpreter => lifecycle "sclang" (Supervisor.stop S.machine)
  | .toggleInterpreter => lifecycle "sclang" (Supervisor.toggle S.machine)
  | .interpreterStatus => interpreterStatus S
  | .hush => hush S
  | .bootServer => lifecycle "scsynth" (Supervisor.bootServer S.machine)
  | .quitServer => lifecycle "scsynth" (Supervisor.quitServer S.machine)
  | .toggleServer => lifecycle "scsynth" (Supervisor.toggleServer S.machine)

/-- Attends to the outlet between commands. -/
def pump : Controlled ω σ Unit := onOutlet fun o => ((), S.outlet.pump o)

/-- The end of the controller: a session that is left is shut down. -/
def finish : Controlled ω σ Unit := supervised (Supervisor.finish S.machine)

/-- What an action does while the environment is not started. -/
theorem whenReady_of_inactive {c : Controller ω σ} (act : Controlled ω σ Outcome)
    (h : c.active = false) : (whenReady act).run c = (reject .notReady).run c := by
  show StateT.run (if c.active then act else reject .notReady) c = _
  rw [if_neg (by simp [h])]

/-- While the environment is not started, every command that is not about it is rejected. -/
theorem dispatch_of_inactive {c : Controller ω σ} {cmd : Command} (h : c.active = false)
    (hl : cmd.language? ≠ none) : (dispatch S cmd).run c = (reject .notReady).run c := by
  cases cmd with
  | startEnvironment => simp [Command.language?] at hl
  | stopEnvironment => simp [Command.language?] at hl
  | evaluate text selection =>
    cases selection with
    | none => exact whenReady_of_inactive _ h
    | some s =>
      simp only [dispatch, evaluate]
      split
      · exact whenReady_of_inactive _ h
      · exact whenReady_of_inactive _ h
  | _ => exact whenReady_of_inactive _ h

end Controller
end Livecode
