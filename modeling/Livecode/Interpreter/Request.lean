import Livecode.Interpreter.Marker

/-!
# Requests

A request is a small interpreter program that compiles the code to evaluate, runs it, and prints
the outcome between markers. The code is embedded as a string literal. The interpreter evaluates
what it has read when it meets a form feed, so no form feed may occur in a program, and each ends
with one.

## Main results

* `formFeed_not_mem_escape` — escaped code holds no form feed.
-/

namespace Livecode.Request

/-- Makes the interpreter evaluate what it has read. -/
def formFeed : Char := '\x0c'

/-- A character of code inside a string literal. -/
def escapeChar (c : Char) : Text :=
  if c = '\\' then ['\\', '\\']
  else if c = '"' then ['\\', '"']
  else if c = formFeed then []
  else [c]

/-- Code as the inside of a string literal. -/
def escape (code : Text) : Text := code.flatMap escapeChar

/-- The line of the program that prints an answer of one kind. -/
def printed (id : RequestId) (kind : AnswerKind) (expression : Text) : Text :=
  "(\"".toList ++ Marker.start ⟨id, kind⟩ ++ "\" ++ ".toList ++ expression ++ " ++ \"".toList ++
    Marker.finish id ++ "\").postln;\n"

/-- The part of the program before the embedded code. -/
def head : Text :=
  "\x7b\n    var envilFn = thisProcess.interpreter.compile(\""

/-- The part of the program after the embedded code. -/
def tail (id : RequestId) : Text :=
  "\");\n    if(envilFn.isNil) \x7b\n        \"".toList ++
    Marker.start ⟨id, .failure⟩ ++ "syntax error".toList ++ Marker.finish id ++
    "\".postln;\n    \x7d \x7b\n        \x7b\n".toList ++
    "            var envilResult = envilFn.value;\n            ".toList ++
    printed id .result "envilResult.asString" ++
    "        \x7d.try \x7b |envilErr|\n            ".toList ++
    printed id .failure "envilErr.errorString" ++
    "        \x7d;\n    \x7d;\n    nil\n\x7d.value;\n"

/-- The program that evaluates code and prints a marked answer. -/
def program (id : RequestId) (code : Text) : Text := head ++ escape code ++ tail id

/-- What is written to the interpreter to make it run a program. -/
def payload (program : Text) : Text := program.filter (· ≠ formFeed) ++ [formFeed]

/-- Escaped code holds no form feed. -/
theorem formFeed_not_mem_escape (code : Text) : formFeed ∉ escape code := by
  intro h
  obtain ⟨c, -, hc⟩ := List.mem_flatMap.1 h
  unfold escapeChar at hc
  split at hc
  · simp [formFeed] at hc
  · split at hc
    · simp [formFeed] at hc
    · split at hc <;> simp_all

end Livecode.Request
