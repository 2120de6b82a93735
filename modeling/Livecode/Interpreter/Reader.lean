import Livecode.Interpreter.Transcript
import Livecode.Text.Line
import Livecode.Text.Utf8

/-!
# Reading an interpreter's output

The bytes that an interpreter prints are cut into lines, decoded, and read as a transcript. Plain
output goes to the post window; the boot banner, the answers and the end of the output are *events*
for whoever waits on the interpreter.
-/

namespace Livecode

/-- What may be waited for. -/
inductive InterpreterEvent where
  /-- The interpreter has booted. -/
  | ready
  | reply (r : Reply)
  /-- The output has ended. -/
  | exited
  deriving DecidableEq, Repr

/-- Where a part of the output goes. -/
inductive Output where
  | post (t : Text)
  | event (e : InterpreterEvent)
  deriving DecidableEq, Repr

namespace Output

def posted? : Output → Option Text
  | .post t => some t
  | .event _ => none

def event? : Output → Option InterpreterEvent
  | .post _ => none
  | .event e => some e

end Output

/-! ## Lines of bytes -/

/-- Ends a line of output. -/
def newline : UInt8 := 0x0A

/-- A line of bytes as text, faults replaced, without carriage returns and line feeds at its
end. -/
def decodeLine (bs : List UInt8) : Text :=
  Text.dropEndWhile (fun c => c == '\n' || c == '\r') (Utf8.decodeLossy bs)

/-- The lines of some output; what follows the last newline is a line unless it is empty. -/
def outputLines (bs : List UInt8) : List Text := (Text.records newline bs).map decodeLine

/-! ## The reader -/

/-- Printed once the interpreter has booted. -/
def bootBanner : Text := "Welcome to SuperCollider"

/-- What has been read but not yet passed on: the bytes of a line without its end, and an open
answer. -/
structure OutputReader where
  partialLine : List UInt8
  openAnswer : Option OpenAnswer
  deriving DecidableEq, Repr

namespace OutputReader

/-- Nothing has been read. -/
def fresh : OutputReader := ⟨[], none⟩

instance : Inhabited OutputReader := ⟨fresh⟩

/-- Where an item of the transcript goes. -/
def route : TranscriptItem → Output
  | .post t => .post t
  | .reply r => .event (.reply r)

/-- Reads one line. The boot banner is announced before anything else on its line. -/
def readLine (a : Option OpenAnswer) (line : Text) : List Output × Option OpenAnswer :=
  let r := Transcript.readLine a line
  ((if Text.contains bootBanner line then [.event .ready] else []) ++ r.1.map route, r.2)

/-- Reads lines one after another. -/
def readLines (a : Option OpenAnswer) : List Text → List Output × Option OpenAnswer
  | [] => ([], a)
  | line :: lines =>
    let first := readLine a line
    let rest := readLines first.2 lines
    (first.1 ++ rest.1, rest.2)

/-- Takes in some bytes; the lines they complete are read. -/
def receive (r : OutputReader) (bs : List UInt8) : List Output × OutputReader :=
  let pieces := Text.pieces newline (r.partialLine ++ bs)
  let out := readLines r.openAnswer (pieces.dropLast.map decodeLine)
  (out.1, ⟨pieces.getLast (Text.pieces_ne_nil _ _), out.2⟩)

/-- The end of the output: a line without its end is read, and the exit is announced. -/
def finish (r : OutputReader) : List Output :=
  let rest := if r.partialLine = [] then [] else [decodeLine r.partialLine]
  (readLines r.openAnswer rest).1 ++ [.event .exited]

/-- Reads the whole output of an interpreter. -/
def readAll (bs : List UInt8) : List Output :=
  (readLines none (outputLines bs)).1 ++ [.event .exited]

end OutputReader
end Livecode
