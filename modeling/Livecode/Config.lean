import Livecode.Interpreter.Process
import Livecode.Statement.Redirect
import Livecode.Text.Utf8
import Livecode.Toml.Document

/-!
# Configuration

Settings come from a TOML text with three sections; a setting that it does not give keeps its
default. Settings and sections of other names are ignored, and so is what is outside of a section.
-/

namespace Livecode

/-! ## Reading settings -/

namespace Toml.Item

def string? : Item → Option Text
  | .string t => some t
  | _ => none

def boolean? : Item → Option Bool
  | .boolean b => some b
  | _ => none

/-- A natural number below a bound. -/
def naturalBelow? (bound : Nat) : Item → Option Nat
  | .integer n => if 0 ≤ n ∧ n < bound then some n.toNat else none
  | _ => none

end Toml.Item

/-- A section as it is given: by names, or as the array of all its settings in order. -/
inductive Section where
  | named (entries : Toml.Entries)
  | positional (items : List Toml.Item)

namespace Section

/-- The section that an item makes. A date or time makes one without settings. -/
def ofItem? : Toml.Item → Option Section
  | .inline _ es => some (.named es)
  | .table _ es => some (.named es)
  | .moment => some (.named [])
  | .array items => some (.positional items)
  | _ => none

/-- The section of a name; one that is missing is without settings. -/
def get? (document : Toml.Entries) (name : Text) : Option Section :=
  match document.get? name with
  | none => some (.named [])
  | some i => ofItem? i

/-- A setting by its name and its place; the inner option is empty if a setting is not given. An
array must give every setting. -/
def setting? {α : Type} (s : Section) (name : Text) (place : Nat) (read? : Toml.Item → Option α) :
    Option (Option α) :=
  match s with
  | .named es =>
    match es.get? name with
    | none => some none
    | some i => (read? i).map some
  | .positional items => do
    let i ← items[place]?
    return some (← read? i)

end Section

/-! ## Settings -/

/-- Settings, each of which may be left open. -/
structure Settings where
  localMarker : Option Text
  fileHost : Option Text
  filePort : Option Nat
  fileRoute : Option Text
  broadcastHost : Option Text
  broadcastPort : Option Nat
  interpreter : Option Text
  interpreterConfig : Option Text
  bootTimeout : Option Nat
  evalTimeout : Option Nat
  bootsServer : Option Bool
  activeOnLaunch : Option Bool
  deriving DecidableEq, Repr

namespace Settings

/-- The settings of a TOML document. -/
def ofDocument? (document : Toml.Entries) : Option Settings := do
  let hydra ← Section.get? document "hydra"
  let superCollider ← Section.get? document "supercollider"
  let environment ← Section.get? document "environment"
  let port := Toml.Item.naturalBelow? UInt16.size
  let seconds := Toml.Item.naturalBelow? UInt64.size
  return {
    localMarker := ← hydra.setting? "local_marker" 0 Toml.Item.string?
    fileHost := ← hydra.setting? "file_host" 1 Toml.Item.string?
    filePort := ← hydra.setting? "file_port" 2 port
    fileRoute := ← hydra.setting? "file_route" 3 Toml.Item.string?
    broadcastHost := ← hydra.setting? "broadcast_host" 4 Toml.Item.string?
    broadcastPort := ← hydra.setting? "broadcast_port" 5 port
    interpreter := ← superCollider.setting? "sclang" 0 Toml.Item.string?
    interpreterConfig := ← superCollider.setting? "sclang_conf" 1 Toml.Item.string?
    bootTimeout := ← superCollider.setting? "boot_timeout_secs" 2 seconds
    evalTimeout := ← superCollider.setting? "eval_timeout_secs" 3 seconds
    bootsServer := ← superCollider.setting? "boot_server_on_start" 4 Toml.Item.boolean?
    activeOnLaunch := ← environment.setting? "active_on_launch" 0 Toml.Item.boolean? }

end Settings

/-! ## The configuration -/

/-- All settings. -/
structure Config where
  /-- The path prefix in visual code that stands for local files. -/
  localMarker : Text
  fileHost : Text
  filePort : Nat
  fileRoute : Text
  broadcastHost : Text
  broadcastPort : Nat
  /-- The executable of the interpreter; without one the usual places are tried. -/
  interpreter : Option Text
  /-- The interpreter's own configuration file. -/
  interpreterConfig : Option Text
  /-- How many seconds the interpreter may take to boot. -/
  bootTimeout : Nat
  /-- How many seconds an evaluation may take; without a limit, any number. -/
  evalTimeout : Option Nat
  /-- Whether starting the interpreter also boots the audio server. -/
  bootsServer : Bool
  /-- Whether the environment is started at once. -/
  activeOnLaunch : Bool
  deriving DecidableEq, Repr

/-- Why there is no configuration. -/
inductive ConfigError where
  | io (reason : Text)
  /-- The text is no TOML, or a setting is not of its type. -/
  | malformed
  deriving DecidableEq, Repr

namespace Config

/-- The configuration when nothing is set. -/
def default : Config where
  localMarker := "local/files/"
  fileHost := "localhost"
  filePort := 3000
  fileRoute := "/files/"
  broadcastHost := "127.0.0.1"
  broadcastPort := 3001
  interpreter := none
  interpreterConfig := none
  bootTimeout := 10
  evalTimeout := none
  bootsServer := true
  activeOnLaunch := false

instance : Inhabited Config := ⟨default⟩

/-- Replaces what some settings give. -/
def overlay (c : Config) (s : Settings) : Config where
  localMarker := s.localMarker.getD c.localMarker
  fileHost := s.fileHost.getD c.fileHost
  filePort := s.filePort.getD c.filePort
  fileRoute := s.fileRoute.getD c.fileRoute
  broadcastHost := s.broadcastHost.getD c.broadcastHost
  broadcastPort := s.broadcastPort.getD c.broadcastPort
  interpreter := s.interpreter <|> c.interpreter
  interpreterConfig := s.interpreterConfig <|> c.interpreterConfig
  bootTimeout := s.bootTimeout.getD c.bootTimeout
  evalTimeout := s.evalTimeout <|> c.evalTimeout
  bootsServer := s.bootsServer.getD c.bootsServer
  activeOnLaunch := s.activeOnLaunch.getD c.activeOnLaunch

/-- The defaults with the settings of a TOML text. -/
def ofToml (t : Text) : Except ConfigError Config :=
  match (Toml.document? t).bind Settings.ofDocument? with
  | some s => .ok (default.overlay s)
  | none => .error .malformed

/-- The defaults with the settings of a file; `none` stands for a file that does not exist. -/
def ofFile : Option (List UInt8) → Except ConfigError Config
  | none => .error (.io "No such file or directory (os error 2)")
  | some bytes =>
    match Utf8.decode? bytes with
    | none => .error (.io "stream did not contain valid UTF-8")
    | some t => ofToml t

/-- The defaults with the settings of the user's own file; one that is missing or cannot be read
is passed over. -/
def ofUserFile (file : Option (List UInt8)) : Config :=
  match ofFile file with
  | .ok c => c
  | .error _ => default

/-- The configuration of a program that was told to use a file, `some none` being one that does not
exist. Where that file cannot be used, the user's own one is. -/
def choose (named : Option (Option (List UInt8))) (user : Option (List UInt8)) : Config :=
  match named with
  | none => ofUserFile user
  | some file =>
    match ofFile file with
    | .ok c => c
    | .error _ => ofUserFile user

/-! ## Derived settings -/

/-- Without the slashes at both ends. -/
private def trimSlashes (t : Text) : Text :=
  Text.dropEndWhile (· == '/') (t.dropWhile (· == '/'))

/-- The address of the static file server. -/
def fileServerUrl (c : Config) : Text :=
  let base := "http://".toList ++ c.fileHost ++ ':' :: Text.decimal c.filePort ++ "/"
  match trimSlashes c.fileRoute with
  | [] => base
  | route => base ++ route ++ "/"

/-- The redirect for visual code. -/
def redirect (c : Config) : Redirect := ⟨c.localMarker, c.fileServerUrl⟩

/-- The address of the broadcast server. -/
def broadcastAddress (c : Config) : Text :=
  c.broadcastHost ++ ':' :: Text.decimal c.broadcastPort

/-- How interpreters are launched; one is given a second to boot at least. -/
def launchOptions (c : Config) : LaunchOptions where
  executable := c.interpreter
  configFile := c.interpreterConfig
  bootTimeout := .ofSeconds (max c.bootTimeout 1)
  evalTimeout := c.evalTimeout.map .ofSeconds

end Config
end Livecode
