import Livecode.Host

/-!
# The command line

Reads commands from the standard input and writes posted lines to the standard output. With
`--config FILE` the settings come from that file, otherwise from the file of the user.
-/

namespace Livecode

/-- The bytes of a file, if it can be read. -/
def readFile? (path : String) : IO (Option (List UInt8)) := do
  try
    return some (← IO.FS.readBinFile path).toList
  catch _ => return none

/-- The user's own configuration file. -/
def userFile? : IO (Option (List UInt8)) := do
  let home ← IO.getEnv "HOME"
  let base := match ← IO.getEnv "XDG_CONFIG_HOME" with
    | some dir => if dir.startsWith "/" then some dir else home.map (· ++ "/.config")
    | none => home.map (· ++ "/.config")
  match base with
  | some dir => readFile? (dir ++ "/envil/config.toml")
  | none => return none

/-- The argument after `--config`, and its file. -/
def namedFile? : List String → IO (Option (Option (List UInt8)))
  | "--config" :: path :: _ => return some (← readFile? path)
  | _ :: args => namedFile? args
  | [] => return none

/-- Runs an action and prints what it posts. -/
def perform (c : Controller Unit (Station Unit))
    (act : Controlled Unit (Station Unit) Unit) : IO (Controller Unit (Station Unit)) := do
  let (lines, c) := (do act; Host.takeEcho).run c
  let out ← IO.getStdout
  for line in lines do
    out.putStrLn (String.ofList line)
  out.flush
  return c

/-- The bytes of the next line, without its newline, given those read of it so far, the last one
first; none at the end of the input. -/
partial def nextRecord? (input : IO.FS.Stream) (read : List UInt8) : IO (Option (List UInt8)) := do
  match (← input.read 1).toList with
  | [] => return if read.isEmpty then none else some read.reverse
  | b :: _ => if b = newline then return some read.reverse else nextRecord? input (b :: read)

/-- Carries out lines until the input ends or a line is not UTF-8. -/
partial def serve (S : Studio Unit (Station Unit)) (input : IO.FS.Stream)
    (c : Controller Unit (Station Unit)) : IO (Controller Unit (Station Unit)) := do
  match (← nextRecord? input []).bind Utf8.decode? with
  | none => return c
  | some line => serve S input (← perform c (Host.carryOutLine S line))

end Livecode

open Livecode in
def main (args : List String) : IO Unit := do
  let config := Config.choose (← namedFile? args) (← userFile?)
  let S := Host.studio config
  let c ← perform (Host.controller config) (Host.start S config)
  let c ← serve S (← IO.getStdin) c
  let _ ← perform c (Host.stop S)
