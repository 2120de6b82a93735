import Livecode.Text.Decimal
import Livecode.Text.Numeral
import Livecode.Text.Search

/-!
# Reply markers

The answer to a request is printed between two markers that carry the request's number. A start
marker `<<envil:7:result>>` or `<<envil:7:error>>` also says whether the answer is a result; the
end marker is `<<envil:7:end>>`. The number of a start marker may be any run of decimal digits; one
that is not an ASCII number of 64 bits is read as `0`.

## Main results

* `length_after_lt` — what follows the first start marker is shorter than the whole.
-/

namespace Livecode

/-- The number of a request. -/
abbrev RequestId := UInt64

/-- Whether the answer to a request is a result or an error. -/
inductive AnswerKind where
  | result
  | failure
  deriving DecidableEq, Repr

namespace AnswerKind

/-- The word that names the kind in a start marker. -/
def word : AnswerKind → Text
  | .result => "result"
  | .failure => "error"

end AnswerKind

/-- What a start marker says. -/
structure Marker where
  id : RequestId
  kind : AnswerKind
  deriving DecidableEq, Repr

namespace Marker

/-- How every marker begins. -/
def opening : Text := "<<envil:"

/-- The marker after which an answer stands. -/
def start (m : Marker) : Text :=
  opening ++ Text.decimal m.id.toNat ++ ':' :: m.kind.word ++ ">>"

/-- The marker that ends an answer. -/
def finish (id : RequestId) : Text := opening ++ Text.decimal id.toNat ++ ":end>>"

/-- The number that a run of digits names. -/
def readId (digits : Text) : RequestId :=
  match Text.ofDecimal? digits with
  | some n => if n < UInt64.size then UInt64.ofNat n else 0
  | none => 0

/-- What follows the number of a start marker. -/
def readKind? (t : Text) : Option (AnswerKind × Text) :=
  match Text.dropPrefix? ":result>>" t with
  | some rest => some (.result, rest)
  | none => (Text.dropPrefix? ":error>>" t).map (.failure, ·)

/-- Reads a start marker at the beginning of a text; also gives what follows it. -/
def ofPrefix? (t : Text) : Option (Marker × Text) := do
  let t ← Text.dropPrefix? opening t
  let digits := t.takeWhile Text.isDecimalDigit
  if digits = [] then none
  else
    let (kind, rest) ← readKind? (t.dropWhile Text.isDecimalDigit)
    some (⟨readId digits, kind⟩, rest)

/-- The leftmost start marker: what precedes it, what it says, and what follows it. -/
def first? : Text → Option (Text × Marker × Text)
  | [] => none
  | c :: t =>
    match ofPrefix? (c :: t) with
    | some (m, rest) => some ([], m, rest)
    | none => (first? t).map fun f => (c :: f.1, f.2)

private theorem length_readKind? {t rest : Text} {k : AnswerKind}
    (h : readKind? t = some (k, rest)) : rest.length < t.length := by
  unfold readKind? at h
  split at h
  · next r hr =>
    simp only [Option.some.injEq, Prod.mk.injEq] at h
    obtain ⟨-, rfl⟩ := h
    simp only [Text.dropPrefix?_eq_some.1 hr, List.length_append]
    exact Nat.lt_add_of_pos_left (by decide)
  · simp only [Option.map_eq_some_iff, Prod.mk.injEq] at h
    obtain ⟨r, hr, -, rfl⟩ := h
    simp only [Text.dropPrefix?_eq_some.1 hr, List.length_append]
    exact Nat.lt_add_of_pos_left (by decide)

private theorem length_ofPrefix? {t rest : Text} {m : Marker}
    (h : ofPrefix? t = some (m, rest)) : rest.length < t.length := by
  simp only [ofPrefix?, Option.bind_eq_bind, Option.bind_eq_some_iff] at h
  obtain ⟨u, hu, h⟩ := h
  split at h
  · simp at h
  · simp only [Option.bind_eq_some_iff, Option.some.injEq, Prod.mk.injEq] at h
    obtain ⟨⟨k, r⟩, hk, -, rfl⟩ := h
    have h1 := length_readKind? hk
    have h2 := (List.dropWhile_suffix (l := u) Text.isDecimalDigit).length_le
    have h3 : u.length ≤ t.length := by simp [Text.dropPrefix?_eq_some.1 hu]
    exact Nat.lt_of_lt_of_le h1 (Nat.le_trans h2 h3)

/-- What follows the first start marker is shorter than the whole. -/
theorem length_after_lt {t before after : Text} {m : Marker}
    (h : first? t = some (before, m, after)) : after.length < t.length := by
  induction t generalizing before with
  | nil => simp [first?] at h
  | cons c t ih =>
    unfold first? at h
    split at h
    · next hm =>
      simp only [Option.some.injEq, Prod.mk.injEq] at h
      obtain ⟨-, -, rfl⟩ := h
      exact length_ofPrefix? hm
    · simp only [Option.map_eq_some_iff, Prod.mk.injEq] at h
      obtain ⟨f, hf, rfl, hfm⟩ := h
      have := @ih f.1 (by rw [hf, ← hfm])
      simp only [List.length_cons]
      omega

end Marker
end Livecode
