import Livecode.Source.Position
import Livecode.Text.Basic

/-!
# Editor commands
-/

namespace Livecode

/-- The language that code is written in. -/
inductive Language where
  /-- Visual code. -/
  | hydra
  /-- Sound code. -/
  | superCollider
  deriving DecidableEq, Repr

namespace Language

/-- How a language is shown. -/
def display : Language → Text
  | .hydra => "hydra"
  | .superCollider => "supercollider"

end Language

/-- What an editor asks for. -/
inductive Command where
  | startEnvironment
  | stopEnvironment
  /-- Send the statements of visual code to the listeners. -/
  | evaluateStatements (text : Text) (selection : Option Selection)
  /-- Evaluate the selected sound code, or the region at the cursor. -/
  | evaluate (text : Text) (selection : Option Selection)
  | evaluateRegion (text : Text) (cursor : Position)
  /-- Like `evaluate`, without waiting for a result. -/
  | evaluateDetached (text : Text) (selection : Option Selection)
  | startInterpreter
  | stopInterpreter
  | toggleInterpreter
  | interpreterStatus
  /-- Stop all sound. -/
  | hush
  | bootServer
  | quitServer
  | toggleServer
  deriving DecidableEq, Repr

namespace Command

/-- The language a command is about; none for commands about the environment. -/
def language? : Command → Option Language
  | .startEnvironment | .stopEnvironment => none
  | .evaluateStatements .. => some .hydra
  | _ => some .superCollider

end Command
end Livecode
