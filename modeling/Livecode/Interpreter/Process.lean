import Livecode.Interpreter.Machine
import Livecode.Interpreter.Session
import Livecode.PostWindow

/-!
# Interpreter processes

A child process that reads requests and prints. What a child does is given by a `ChildProgram`: to
each payload it answers with a *burst* of output and may exit with it. A process reads the output,
posts what is to be posted, and holds the conversation in its `Session`.
-/

namespace Livecode

/-- What a child prints at one go, its error output first, and whether it exits afterwards. -/
structure Burst where
  stderr : List UInt8
  stdout : List UInt8
  exits : Bool
  deriving DecidableEq, Repr

/-- The behaviour of a child process with states `κ`. -/
structure ChildProgram (κ : Type) where
  /-- What it prints when it starts. -/
  boot : κ → Burst × κ
  /-- What it does with a payload. -/
  receive : Text → κ → Burst × κ

/-- How interpreters are launched. -/
structure LaunchOptions where
  /-- The executable; without one the usual places are tried. -/
  executable : Option Text
  /-- The language configuration file. -/
  configFile : Option Text
  bootTimeout : Duration
  evalTimeout : Option Duration
  deriving DecidableEq, Repr

namespace LaunchOptions

instance : Inhabited LaunchOptions := ⟨⟨none, none, .ofSeconds 10, none⟩⟩

/-- The usual places of the executable. -/
def usualPlaces : List Text :=
  ["sclang", "/Applications/SuperCollider.app/Contents/MacOS/sclang", "/usr/local/bin/sclang",
    "/usr/bin/sclang"]

/-- The executables to try, in order. -/
def candidates (o : LaunchOptions) : List Text :=
  match o.executable with
  | some path => [path]
  | none => usualPlaces

/-- The arguments of the child. -/
def arguments (o : LaunchOptions) : List Text :=
  match o.configFile with
  | some path => ["-i", "envil", "-l", path]
  | none => ["-i", "envil"]

/-- No executable could be started. -/
def notFound : SessionError := .launch "Could not find sclang. Install SuperCollider."

end LaunchOptions

/-- A machine on which no interpreter can be started. -/
def Machine.bare : Machine Unit where
  launch _ ω := (⟨.error LaunchOptions.notFound, []⟩, ω)
  isAlive _ ω := (false, ω)
  interpret _ _ ω := (⟨.error .disconnected, []⟩, ω)
  send _ _ ω := (⟨.error .disconnected, []⟩, ω)
  quit _ ω := (⟨.ok (), []⟩, ω)
  release _ ω := ω

/-- A child together with what has been read from it. -/
structure InterpreterProcess (κ : Type) where
  child : κ
  alive : Bool
  stdout : OutputReader
  /-- A line of error output without its end. -/
  stderr : List UInt8
  session : Session
  post : PostWindow

namespace InterpreterProcess

variable {κ : Type} (program : ChildProgram κ)

/-- Writing to a child that has exited. -/
def brokenPipe : Text := "Broken pipe (os error 32)"

/-- Error output is posted line by line without surrounding blanks; blank lines are skipped. -/
def postErrors (w : PostWindow) (lines : List Text) : PostWindow :=
  w.postAll ((lines.map Text.trim).filter (· ≠ []))

/-- The child's output pipes are closed: what is left in them is read. -/
def hangUp (p : InterpreterProcess κ) : InterpreterProcess κ :=
  let out := p.stdout.finish
  { p with
    alive := false
    stdout := .fresh
    stderr := []
    post := (postErrors p.post (outputLines p.stderr)).postAll (out.filterMap Output.posted?)
    session := p.session.arrive (out.filterMap Output.event?) }

/-- Reads a burst of output. -/
def read (p : InterpreterProcess κ) (b : Burst) : InterpreterProcess κ :=
  let errors := Text.pieces newline (p.stderr ++ b.stderr)
  let out := p.stdout.receive b.stdout
  let p := { p with
    stdout := out.2
    stderr := errors.getLast (Text.pieces_ne_nil _ _)
    post := (postErrors p.post (errors.dropLast.map decodeLine)).postAll
      (out.1.filterMap Output.posted?)
    session := p.session.arrive (out.1.filterMap Output.event?) }
  if b.exits then p.hangUp else p

/-- Writes a program to the child, which acts on it at once. -/
def write (p : InterpreterProcess κ) (code : Text) : Except Text Unit × InterpreterProcess κ :=
  if p.alive then
    let r := program.receive (Request.payload code) p.child
    (.ok (), { p with child := r.2 }.read r.1)
  else (.error brokenPipe, p)

/-- Starts a child and waits for it to boot. A child that does not is killed. -/
def start (child : κ) (options : LaunchOptions) (post : PostWindow) :
    Except SessionError Unit × InterpreterProcess κ :=
  let r := program.boot child
  let p : InterpreterProcess κ :=
    InterpreterProcess.read ⟨r.2, true, .fresh, [], .fresh options.evalTimeout, post⟩ r.1
  let ready := p.session.boot options.bootTimeout
  let p := { p with session := ready.2 }
  (ready.1, match ready.1 with
    | .ok () => p
    | .error _ => if p.alive then p.hangUp else p)

/-- Evaluates code and waits for the answer. -/
def interpret (p : InterpreterProcess κ) (code : Text) :
    Option (Except EvalError Text) × InterpreterProcess κ :=
  let w := write program p (Request.program p.session.nextId code)
  let r := w.2.session.interpret w.1 []
  (r.1, { w.2 with session := r.2 })

/-- Evaluates code without waiting. -/
def send (p : InterpreterProcess κ) (code : Text) : Except EvalError Unit × InterpreterProcess κ :=
  let w := write program p code
  let r := w.2.session.send w.1 []
  (r.1, { w.2 with session := r.2 })

/-- Asks the child to exit, and kills it if it does not. -/
def quit (p : InterpreterProcess κ) : InterpreterProcess κ :=
  let p := (write program p "0.exit;").2
  if p.alive then p.hangUp else p

end InterpreterProcess
end Livecode
