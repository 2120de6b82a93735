import Livecode.Interpreter.Marker

/-!
# Transcripts

What an interpreter prints mixes plain output with the answers to requests. A transcript is read
line by line: text outside of the markers is posted, and text between a start marker and the first
end marker of the same number is the answer to that request, even if it runs over several lines.

## Main results

* `readLine_none` — a line that starts outside of an answer is scanned as it stands.
-/

namespace Livecode

/-- What a request came to. -/
inductive Answer where
  | result (t : Text)
  | failure (t : Text)
  deriving DecidableEq, Repr

/-- An answer together with the request that it answers. -/
structure Reply where
  id : RequestId
  answer : Answer
  deriving DecidableEq, Repr

/-- One item of a transcript. -/
inductive TranscriptItem where
  | post (t : Text)
  | reply (r : Reply)
  deriving DecidableEq, Repr

/-- An answer whose end marker has not been read yet. -/
structure OpenAnswer where
  marker : Marker
  text : Text
  deriving DecidableEq, Repr

namespace Marker

/-- The reply that a start marker and the text after it make. -/
def reply (m : Marker) (t : Text) : Reply :=
  ⟨m.id, match m.kind with | .result => .result t | .failure => .failure t⟩

end Marker

namespace Transcript

/-- Text outside of answers is posted unless there is none. -/
def posts (t : Text) : List TranscriptItem := if t = [] then [] else [.post t]

private theorem length_cutAt? {needle t before after : Text}
    (h : Text.cutAt? needle t = some (before, after)) : after.length ≤ t.length := by
  simp only [Text.cutAt?_eq_some h, List.length_append]
  omega

/-- Reads a piece of a line that lies outside of any answer. -/
def scan (t : Text) : List TranscriptItem × Option OpenAnswer :=
  match _hm : Marker.first? t with
  | none => (posts t, none)
  | some (before, m, after) =>
    match _hc : Text.cutAt? (Marker.finish m.id) after with
    | none => (posts before, some ⟨m, after⟩)
    | some (inner, rest) =>
      let r := scan rest
      (posts before ++ .reply (m.reply inner) :: r.1, r.2)
termination_by t.length
decreasing_by
  have := Marker.length_after_lt _hm
  have := length_cutAt? _hc
  omega

/-- Reads one line, given the answer that is open before it; also gives the answer that is open
after it. -/
def readLine : Option OpenAnswer → Text → List TranscriptItem × Option OpenAnswer
  | none, line => scan line
  | some a, line =>
    match Text.cutAt? (Marker.finish a.marker.id) line with
    | none => ([], some ⟨a.marker, a.text ++ '\n' :: line⟩)
    | some (inner, rest) =>
      let r := scan rest
      (.reply (a.marker.reply (a.text ++ '\n' :: inner)) :: r.1, r.2)

theorem readLine_none (line : Text) : readLine none line = scan line := rfl

/-- Reads lines one after another, starting outside of any answer; the items of each line, and the
answer left open. -/
def readLines (a : Option OpenAnswer) : List Text → List (List TranscriptItem) × Option OpenAnswer
  | [] => ([], a)
  | line :: lines =>
    let first := readLine a line
    let rest := readLines first.2 lines
    (first.1 :: rest.1, rest.2)

end Transcript
end Livecode
