import Livecode.Json.Token
import Livecode.Text.Numeral

/-!
# Words of TOML

Strings, keys, numbers, dates and times. A parser gives what it has read and the rest of the text,
or nothing.
-/

namespace Livecode.Toml

/-! ## Blanks and comments -/

/-- May stand between the words of a line. -/
def isSpace (c : Char) : Bool := c == ' ' || c == '\t'

/-- The rest after a line break. -/
def lineBreak? : Text → Option Text
  | '\n' :: t => some t
  | '\r' :: '\n' :: t => some t
  | _ => none

/-- May stand in comments and strings: no control character but the tab. -/
def isPlain (c : Char) : Bool :=
  c == '\t' || (0x20 ≤ c.toNat && c.toNat ≤ 0x7E) || 0x80 ≤ c.toNat

/-- The rest after spaces. -/
def skipSpaces (t : Text) : Text := t.dropWhile isSpace

/-- The rest after spaces and a comment. -/
def skipComment (t : Text) : Text :=
  match skipSpaces t with
  | '#' :: t => t.dropWhile isPlain
  | t => t

/-- The rest after the end of a line or of the text, with a comment before it. -/
def lineEnd? (t : Text) : Option Text :=
  match skipComment t with
  | [] => some []
  | t => lineBreak? t

theorem length_lineBreak? {t rest : Text} (h : lineBreak? t = some rest) :
    rest.length < t.length := by
  unfold lineBreak? at h
  split at h
  · cases h
    exact Nat.lt_succ_self _
  · cases h
    exact Nat.lt_succ_of_lt (Nat.lt_succ_self _)
  · simp at h

theorem length_skipComment (t : Text) : (skipComment t).length ≤ t.length := by
  have h := (List.dropWhile_suffix (l := t) isSpace).length_le
  unfold skipComment
  split
  · next u hu =>
    have := (List.dropWhile_suffix (l := u) isPlain).length_le
    rw [skipSpaces] at hu
    rw [hu, List.length_cons] at h
    omega
  · exact h

/-- The rest after spaces, comments and line breaks. -/
def skipBlank (t : Text) : Text :=
  match _h : lineBreak? (skipComment t) with
  | some rest => skipBlank rest
  | none => skipSpaces t
termination_by t.length
decreasing_by
  have := length_lineBreak? _h
  have := length_skipComment t
  omega

/-! ## Strings -/

/-- The character with a hexadecimal code. -/
def ofCode? (code : Text) : Option Char := do
  let n := (← code.mapM Json.Reader.hexValue?).foldl (fun n d => 16 * n + d) 0
  if h : n.isValidChar then some (Char.ofNatAux n h) else none

/-- The character that a one-letter escape stands for. -/
def unescape? : Char → Option Char
  | 'b' => some '\x08'
  | 't' => some '\t'
  | 'n' => some '\n'
  | 'f' => some '\x0c'
  | 'r' => some '\r'
  | '"' => some '"'
  | '\\' => some '\\'
  | _ => none

/-- Puts a character in front of what is read after it. -/
def prepend (c : Option Char) (r : Option (Text × Text)) : Option (Text × Text) := do
  let c ← c
  let (read, rest) ← r
  return (c :: read, rest)

/-- A string up to its closing quote. -/
def basicString : Text → Option (Text × Text)
  | [] => none
  | '"' :: t => some ([], t)
  | '\\' :: 'u' :: a :: b :: c :: d :: t => prepend (ofCode? [a, b, c, d]) (basicString t)
  | '\\' :: 'U' :: a :: b :: c :: d :: e :: f :: g :: h :: t =>
    prepend (ofCode? [a, b, c, d, e, f, g, h]) (basicString t)
  | '\\' :: c :: t => prepend (unescape? c) (basicString t)
  | c :: t => if isPlain c then prepend (some c) (basicString t) else none

/-- A string without escapes up to its closing quote. -/
def literalString : Text → Option (Text × Text)
  | [] => none
  | '\'' :: t => some ([], t)
  | c :: t => if isPlain c then prepend (some c) (literalString t) else none

/-- The end of a string in triple quotes, after three of them: up to two more belong to the
string. -/
def closeTriple (quote : Char) (t : Text) : Text × Text :=
  match t with
  | a :: b :: rest =>
    if a = quote ∧ b = quote then ([quote, quote], rest)
    else if a = quote then ([quote], b :: rest)
    else ([], t)
  | [a] => if a = quote then ([quote], []) else ([], t)
  | [] => ([], [])

/-- Where in a line continuation a string in triple quotes is. -/
inductive Continuation where
  | none
  /-- After the backslash; a line break is due. -/
  | opened
  /-- After the line break; blanks are dropped. -/
  | dropping
  deriving DecidableEq, Repr

/-- A string in triple quotes up to its end. A backslash at the end of a line joins the line with
the next text. -/
def tripleString : Continuation → Text → Option (Text × Text)
  | _, [] => none
  | .opened, '\n' :: t => tripleString .dropping t
  | .opened, '\r' :: '\n' :: t => tripleString .dropping t
  | .opened, c :: t => if isSpace c then tripleString .opened t else none
  | .dropping, '\n' :: t => tripleString .dropping t
  | .dropping, '\r' :: '\n' :: t => tripleString .dropping t
  | .dropping, ' ' :: t => tripleString .dropping t
  | .dropping, '\t' :: t => tripleString .dropping t
  | _, '"' :: '"' :: '"' :: t => some (closeTriple '"' t)
  | _, '\\' :: 'u' :: a :: b :: c :: d :: t =>
    prepend (ofCode? [a, b, c, d]) (tripleString .none t)
  | _, '\\' :: 'U' :: a :: b :: c :: d :: e :: f :: g :: h :: t =>
    prepend (ofCode? [a, b, c, d, e, f, g, h]) (tripleString .none t)
  | _, '\\' :: '\n' :: t => tripleString .dropping t
  | _, '\\' :: '\r' :: '\n' :: t => tripleString .dropping t
  | _, '\\' :: c :: t =>
    if isSpace c then tripleString .opened t
    else prepend (unescape? c) (tripleString .none t)
  | _, '\n' :: t => prepend (some '\n') (tripleString .none t)
  | _, '\r' :: '\n' :: t => prepend (some '\n') (tripleString .none t)
  | _, c :: t => if isPlain c then prepend (some c) (tripleString .none t) else none

/-- A string without escapes in triple quotes up to its end. -/
def tripleLiteral : Text → Option (Text × Text)
  | [] => none
  | '\'' :: '\'' :: '\'' :: t => some (closeTriple '\'' t)
  | '\n' :: t => prepend (some '\n') (tripleLiteral t)
  | '\r' :: '\n' :: t => prepend (some '\n') (tripleLiteral t)
  | c :: t => if isPlain c then prepend (some c) (tripleLiteral t) else none

/-- The text after a line break right behind opening triple quotes. -/
def afterOpening (t : Text) : Text := (lineBreak? t).getD t

/-- A string of any of the four kinds. -/
def string? : Text → Option (Text × Text)
  | '"' :: '"' :: '"' :: t => tripleString .none (afterOpening t)
  | '"' :: t => basicString t
  | '\'' :: '\'' :: '\'' :: t => tripleLiteral (afterOpening t)
  | '\'' :: t => literalString t
  | _ => none

/-! ## Keys -/

/-- May stand in a bare key. -/
def isBare (c : Char) : Bool := c.isAlphanum || c == '_' || c == '-'

/-- A part of a key. -/
def simpleKey? : Text → Option (Text × Text)
  | '"' :: t => basicString t
  | '\'' :: t => literalString t
  | t =>
    let bare := t.takeWhile isBare
    if bare = [] then none else some (bare, t.dropWhile isBare)

/-- Keys may have less parts, and values may be nested less deeply, than this. -/
def depthLimit : Nat := 80

/-- The parts of a key, at most `limit` of them. -/
def keyParts? : (limit : Nat) → Text → Option (List Text × Text)
  | 0, _ => none
  | limit + 1, t => do
    let (part, t) ← simpleKey? (skipSpaces t)
    match skipSpaces t with
    | '.' :: t => do
      let (parts, t) ← keyParts? limit t
      return (part :: parts, t)
    | t => return ([part], t)

/-- A key: the path of its table, and its last part. -/
def key? (t : Text) : Option ((List Text × Text) × Text) := do
  let (parts, t) ← keyParts? (depthLimit - 1) t
  let last ← parts.getLast?
  return ((parts.dropLast, last), t)

/-! ## Numbers -/

/-- Digits, of the kind that `p` describes, between which single underscores may stand. -/
def isDigitRun (p : Char → Bool) : Text → Bool
  | [] => false
  | [c] => p c
  | c :: '_' :: t => p c && isDigitRun p t
  | c :: t => p c && isDigitRun p t

/-- The number that a run of digits stands for. -/
def runValue (base : Nat) (t : Text) : Nat :=
  (t.filterMap Json.Reader.hexValue?).foldl (fun n d => base * n + d) 0

/-- A decimal integer without sign: no zero in front of another digit. -/
def isWhole (t : Text) : Bool :=
  match t with
  | ['0'] => true
  | '0' :: _ => false
  | t => isDigitRun Char.isDigit t

/-- Whether a word starts with a minus sign, and the word without its sign. -/
def unsign : Text → Bool × Text
  | '-' :: t => (true, t)
  | '+' :: t => (false, t)
  | t => (false, t)

/-- A number that fits a signed word. -/
def fitting? (n : Int) : Option Int :=
  if Int64.minValue.toInt ≤ n ∧ n ≤ Int64.maxValue.toInt then some n else none

/-- An integer. -/
def integer? (word : Text) : Option Int :=
  match word with
  | '0' :: 'x' :: t =>
    if isDigitRun (fun c => (Json.Reader.hexValue? c).isSome) t then fitting? (runValue 16 t)
    else none
  | '0' :: 'o' :: t =>
    if isDigitRun (fun c => '0' ≤ c ∧ c ≤ '7') t then fitting? (runValue 8 t) else none
  | '0' :: 'b' :: t =>
    if isDigitRun (fun c => c = '0' ∨ c = '1') t then fitting? (runValue 2 t) else none
  | word =>
    let (negative, digits) := unsign word
    if isWhole digits then
      fitting? (if negative then - Int.ofNat (runValue 10 digits) else runValue 10 digits)
    else none

/-- Whether `significand * 10 ^ exponent` is rounded to infinity as a double-precision float. Far
from the bound the number of digits decides. -/
def isInfinite (significand : Nat) (exponent : Int) : Bool :=
  let bound := (1 <<< 1024) - (1 <<< 970)
  let digits : Int := (Text.decimal significand).length
  if significand = 0 then false
  else if 400 < digits + exponent then true
  else if digits + exponent < 300 then false
  else if 0 ≤ exponent then bound ≤ significand * Nat.pow 10 exponent.toNat
  else bound * Nat.pow 10 (-exponent).toNat ≤ significand

/-- The exponent of a float after its mark. -/
def exponent? (t : Text) : Option Int :=
  let (negative, digits) := unsign t
  if isDigitRun Char.isDigit digits then
    some (if negative then - Int.ofNat (runValue 10 digits) else runValue 10 digits)
  else none

/-- A float. One that is too large is none, unless it is negative. -/
def isFloat (word : Text) : Bool :=
  let (negative, t) := unsign word
  if t = "inf".toList ∨ t = "nan".toList then true
  else
    let isMark := fun c => c == 'e' || c == 'E'
    let whole := t.takeWhile fun c => c.isDigit || c == '_'
    let rest := t.drop whole.length
    let (fraction, rest) := match rest with
      | '.' :: u => (some (u.takeWhile (!isMark ·)), u.dropWhile (!isMark ·))
      | u => (none, u)
    let exponent := match rest with
      | [] => if fraction.isSome then some 0 else none
      | c :: u => if isMark c then exponent? u else none
    match exponent with
    | none => false
    | some e =>
      let digits := (whole ++ fraction.getD []).filter Char.isDigit
      let shift := ((fraction.getD []).filter Char.isDigit).length
      isWhole whole && fraction.all (isDigitRun Char.isDigit) &&
        (negative || !isInfinite (runValue 10 digits) (e - shift))

/-! ## Dates and times -/

/-- Two digits that make a number from `low` to `high`. -/
def twoDigits? (low high : Nat) : Text → Option (Nat × Text)
  | a :: b :: t =>
    let n := runValue 10 [a, b]
    if a.isDigit ∧ b.isDigit ∧ low ≤ n ∧ n ≤ high then some (n, t) else none
  | _ => none

/-- The number of days of a month. -/
def monthDays (year month : Nat) : Nat :=
  if month = 2 then
    if year % 4 = 0 ∧ (year % 100 ≠ 0 ∨ year % 400 = 0) then 29 else 28
  else if month ∈ [4, 6, 9, 11] then 30
  else 31

/-- The rest after a calendar date. -/
def date? : Text → Option Text
  | a :: b :: c :: d :: '-' :: t => do
    if [a, b, c, d].all Char.isDigit then
      let (month, t) ← twoDigits? 1 12 t
      match t with
      | '-' :: t => do
        let (_, t) ← twoDigits? 1 (monthDays (runValue 10 [a, b, c, d]) month) t
        return t
      | _ => none
    else none
  | _ => none

/-- The rest after a time of day. -/
def time? (t : Text) : Option Text := do
  let (_, t) ← twoDigits? 0 23 t
  match t with
  | ':' :: t => do
    let (_, t) ← twoDigits? 0 59 t
    match t with
    | ':' :: t => do
      let (_, t) ← twoDigits? 0 60 t
      match t with
      | '.' :: t =>
        if t.takeWhile Char.isDigit = [] then none else some (t.dropWhile Char.isDigit)
      | t => some t
    | _ => none
  | _ => none

/-- The distance from universal time, or nothing. -/
def isOffset : Text → Bool
  | [] => true
  | ['Z'] => true
  | ['z'] => true
  | '+' :: t => isClock t
  | '-' :: t => isClock t
  | _ => false
where
  /-- Hours and minutes. -/
  isClock (t : Text) : Bool :=
    match twoDigits? 0 23 t with
    | some (_, ':' :: t) => (twoDigits? 0 59 t).any (·.2.isEmpty)
    | _ => false

/-- A date and time, a date, or a time, as one word. -/
def isMoment (word : Text) : Bool :=
  match date? word with
  | some [] => true
  | some (c :: t) => (c == 'T' || c == 't') && (time? t).any isOffset
  | none => time? word = some []

/-- May stand in a number, date, time or truth value. -/
def isWordChar (c : Char) : Bool :=
  c.isAlphanum || c == '_' || c == '+' || c == '-' || c == '.' || c == ':'

end Livecode.Toml
