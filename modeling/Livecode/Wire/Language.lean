import Livecode.Control.Command
import Livecode.Json.Tagged
import Livecode.Json.Writer

/-!
# Languages on the wire

A language is the string of its name; it may also be given as an object whose one field has that
name and the value `null`.
-/

namespace Livecode.Language

def all : List Language := [.hydra, .superCollider]

/-- The name of a language. -/
def name : Language → Text
  | .hydra => "hydra"
  | .superCollider => "super-collider"

def ofName? (t : Text) : Option Language := all.find? (·.name = t)

/-- A language as JSON. -/
def encode (l : Language) : Text := Json.quote l.name

/-- Reads the rest of an object whose first key names a language. -/
private def decodeObject (l : Language) : List Json.Token → Except Json.Fault Language
  | .null :: .objectEnd :: rest => do
    Json.noMore rest
    return l
  | .null :: .bad f :: _ => .error f
  | .null :: _ => .error .malformed
  | .bad f :: _ => .error f
  | _ => .error .unexpected

/-- Reads a language from its tokens. -/
private def decodeTokens : List Json.Token → Except Json.Fault Language
  | .string s :: rest =>
    match ofName? s with
    | some l => do
      Json.noMore rest
      return l
    | none => .error .unexpected
  | .objectStart :: .key s :: rest =>
    match ofName? s with
    | some l => decodeObject l rest
    | none => .error .unexpected
  | .objectStart :: .bad f :: _ => .error f
  | .bad f :: _ => .error f
  | _ => .error .malformed

/-- Reads a language. -/
def decode (t : Text) : Except Json.Fault Language :=
  match t.dropWhile Json.Reader.isSpace with
  | [] => .error .unfinished
  | c :: _ => if c = '"' ∨ c = '{' then decodeTokens (Json.tokens t) else .error .malformed

end Livecode.Language
