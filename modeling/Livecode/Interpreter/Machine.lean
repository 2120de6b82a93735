import Livecode.Interpreter.Error

/-!
# Machines that run interpreters

What a supervisor can ask of the machine that its interpreters run on. A machine has states `ω` of
its own and may answer anything: a launch may fail, a session may die at any moment, and every
request may fail in each of its ways. A launched session is named by its number.
-/

namespace Livecode

/-- A launched session. -/
structure SessionId where
  number : Nat
  deriving DecidableEq, Repr

/-- What came of a call, and the texts that the interpreter printed meanwhile. -/
structure Served (α : Type) where
  result : α
  printed : List Text
  deriving DecidableEq, Repr

/-- The behaviour of a machine. -/
structure Machine (ω : Type) where
  /-- Starts an interpreter; it becomes the session with the given number. -/
  launch : SessionId → ω → Served (Except SessionError Unit) × ω
  /-- Whether the process of a session still runs. -/
  isAlive : SessionId → ω → Bool × ω
  /-- Evaluates code and waits for its result. -/
  interpret : SessionId → Text → ω → Served (Except EvalError Text) × ω
  /-- Evaluates code without waiting. -/
  send : SessionId → Text → ω → Served (Except EvalError Unit) × ω
  /-- Shuts a session down. -/
  quit : SessionId → ω → Served (Except EvalError Unit) × ω
  /-- Lets go of a session without shutting it down. -/
  release : SessionId → ω → ω

end Livecode
