import Livecode.Interpreter.Session

/-!
# The interpreter's side

What an interpreter may do while requests are written to it: it answers what it was asked, in any
order and after any delay, each request once at most; it prints its boot banner; and it leaves. It
keeps a *ledger* of what it was asked and what it answered. A session hears of all this only through
events that carry numbers. Here the events are compared with the ledger.

## Main results

* `Course.exited_mem` — the end of the output is heard last.
* `Course.reply_mem_iff` — the events tell of a request what the ledger does.
-/

namespace Livecode

namespace Answer

/-- What a call returns on an answer. -/
def outcome : Answer → Except EvalError Text
  | .result t => .ok t
  | .failure t => .error (.failed t)

end Answer

/-! ## The interpreter's side -/

/-- A request as the interpreter reads it: the number and the code in its program. -/
structure Asked where
  id : RequestId
  code : Text
  deriving DecidableEq, Repr

/-- The interpreter's side of a dialogue, and its ledger. -/
structure Partner where
  /-- The requests written to it, oldest first. -/
  asked : List Asked
  /-- The answers it gave. -/
  answer? : Nat → Option Answer
  left : Bool

namespace Partner

/-- Nothing was said yet. -/
def fresh : Partner := ⟨[], fun _ => none, false⟩

/-- A request was written to it. -/
def ask (p : Partner) (q : Asked) : Partner := { p with asked := p.asked ++ [q] }

/-- It gave an answer. -/
def give (p : Partner) (n : Nat) (a : Answer) : Partner :=
  { p with answer? := fun m => if m = n then some a else p.answer? m }

@[simp] theorem give_self (p : Partner) (n : Nat) (a : Answer) :
    (p.give n a).answer? n = some a := if_pos rfl

theorem give_of_ne (p : Partner) {m n : Nat} (a : Answer) (h : m ≠ n) :
    (p.give n a).answer? m = p.answer? m := if_neg h

/-- What an interpreter may do on its own, and what is heard of it. It answers only what it was
asked, answers nothing twice, and does nothing after it has left. -/
inductive Course : Partner → List InterpreterEvent → Partner → Prop where
  | silent {p : Partner} : Course p [] p
  /-- It prints the boot banner. -/
  | announce {p p' : Partner} {es : List InterpreterEvent} (hleft : p.left = false)
      (h : Course p es p') : Course p (.ready :: es) p'
  /-- It answers one of the requests written to it, counted from the first. -/
  | answer {p p' : Partner} {es : List InterpreterEvent} {n : Nat} {q : Asked} (a : Answer)
      (hleft : p.left = false) (hasked : p.asked[n]? = some q) (hnew : p.answer? n = none)
      (h : Course (p.give n a) es p') : Course p (.reply ⟨q.id, a⟩ :: es) p'
  /-- It ends its output. -/
  | leave {p : Partner} (hleft : p.left = false) : Course p [.exited] { p with left := true }

/-- What a call may return for a request, going by the ledger: the answer, if it was given; else
that the interpreter is gone, or that patience has run out. -/
def verdict (p : Partner) (patience : Option Duration) (n : Nat) :
    Option (Except EvalError Text) :=
  match p.answer? n with
  | some a => some a.outcome
  | none => if p.left then some (.error .disconnected) else patience.map (.error <| .timeout ·)

/-- The ledger only grew. -/
structure Extends (p' p : Partner) : Prop where
  asked : ∀ (n : Nat) (q : Asked), p.asked[n]? = some q → p'.asked[n]? = some q
  answered : ∀ n a, p.answer? n = some a → p'.answer? n = some a

theorem Extends.refl (p : Partner) : p.Extends p := ⟨fun _ _ h => h, fun _ _ h => h⟩

theorem Extends.trans {p₁ p₂ p₃ : Partner} (h₁ : p₁.Extends p₂) (h₂ : p₂.Extends p₃) :
    p₁.Extends p₃ :=
  ⟨fun n q h => h₁.asked n q (h₂.asked n q h), fun n a h => h₁.answered n a (h₂.answered n a h)⟩

namespace Course

variable {p p' : Partner} {es : List InterpreterEvent}

/-- Nothing is heard of an interpreter that has left. -/
theorem of_left (h : Course p es p') (hleft : p.left = true) : es = [] ∧ p' = p := by
  cases h with
  | silent => exact ⟨rfl, rfl⟩
  | announce hstay h => simp [hleft] at hstay
  | answer a hstay hasked hnew h => simp [hleft] at hstay
  | leave hstay => simp [hleft] at hstay

theorem asked_eq (h : Course p es p') : p'.asked = p.asked := by
  induction h with
  | silent => rfl
  | announce hleft h ih => exact ih
  | answer a hleft hasked hnew h ih => exact ih
  | leave hleft => rfl

/-- An answer given stays given. -/
theorem answered {n : Nat} {a : Answer} (h : Course p es p') (ha : p.answer? n = some a) :
    p'.answer? n = some a := by
  induction h with
  | silent => exact ha
  | announce hleft h ih => exact ih ha
  | @answer p p' es m q b hleft hasked hnew h ih =>
    have hne : n ≠ m := by
      rintro rfl
      rw [hnew] at ha
      cases ha
    exact ih (by rw [give_of_ne _ _ hne, ha])
  | leave hleft => exact ha

/-- Only what was asked is answered. -/
theorem unasked {n : Nat} (h : Course p es p') (hn : p.asked[n]? = none)
    (hnone : p.answer? n = none) : p'.answer? n = none := by
  induction h with
  | silent => exact hnone
  | announce hleft h ih => exact ih hn hnone
  | @answer p p' es m q b hleft hasked hnew h ih =>
    have hne : n ≠ m := by
      rintro rfl
      rw [hn] at hasked
      cases hasked
    exact ih hn (by rw [give_of_ne _ _ hne, hnone])
  | leave hleft => exact hnone

/-- Every reply that is heard carries the number of a request. -/
theorem id_of_reply_mem {r : Reply} (h : Course p es p') (hr : .reply r ∈ es) :
    ∃ q ∈ p.asked, q.id = r.id := by
  induction h with
  | silent => cases hr
  | announce hleft h ih => exact ih (by simpa using hr)
  | @answer p p' es n q a hleft hasked hnew h ih =>
    rcases List.mem_cons.1 hr with heq | hr
    · obtain rfl := InterpreterEvent.reply.inj heq
      exact ⟨q, List.mem_of_getElem? hasked, rfl⟩
    · exact ih hr
  | leave hleft => simp at hr

/-- The end of the output is heard once, and last, if the interpreter leaves. -/
theorem exited_mem (h : Course p es p') (hleft : p.left = false) :
    p'.left = false ∧ .exited ∉ es ∨
      p'.left = true ∧ ∃ es', es = es' ++ [.exited] ∧ .exited ∉ es' := by
  induction h with
  | silent => exact .inl ⟨hleft, List.not_mem_nil⟩
  | announce _ h ih =>
    rcases ih hleft with ⟨hp', hes⟩ | ⟨hp', es', rfl, hes⟩
    · exact .inl ⟨hp', by simp [hes]⟩
    · exact .inr ⟨hp', .ready :: es', rfl, by simp [hes]⟩
  | @answer p p' es n q a _ hasked hnew h ih =>
    rcases ih hleft with ⟨hp', hes⟩ | ⟨hp', es', rfl, hes⟩
    · exact .inl ⟨hp', by simp [hes]⟩
    · exact .inr ⟨hp', .reply ⟨q.id, a⟩ :: es', rfl, by simp [hes]⟩
  | leave => exact .inr ⟨rfl, [], rfl, List.not_mem_nil⟩

end Course

/-- The `n`-th request is the only one with its number. -/
def Sole (p : Partner) (n : Nat) (q : Asked) : Prop :=
  p.asked[n]? = some q ∧ ∀ m r, p.asked[m]? = some r → r.id = q.id → m = n

namespace Course

variable {p p' : Partner} {es : List InterpreterEvent} {n : Nat} {q : Asked}

/-- A request that was answered is not answered again. -/
theorem reply_not_mem {a b : Answer} (h : Course p es p') (hq : p.Sole n q)
    (ha : p.answer? n = some a) : .reply ⟨q.id, b⟩ ∉ es := by
  induction h with
  | silent => exact List.not_mem_nil
  | announce hleft h ih => simpa using ih hq ha
  | @answer p p' es m r c hleft hasked hnew h ih =>
    have hne : n ≠ m := by
      rintro rfl
      rw [hnew] at ha
      cases ha
    have hid : r.id ≠ q.id := fun heq => hne (hq.2 m r hasked heq).symm
    have hrest := ih hq (by rw [give_of_ne _ _ hne, ha])
    simpa [hid.symm] using hrest
  | leave hleft => simp

/-- The events tell of a request what the ledger does. -/
theorem reply_mem_iff {a : Answer} (h : Course p es p') (hq : p.Sole n q)
    (hnone : p.answer? n = none) : .reply ⟨q.id, a⟩ ∈ es ↔ p'.answer? n = some a := by
  induction h with
  | silent => simp [hnone]
  | announce hleft h ih => simpa using ih hq hnone
  | @answer p p' es m r b hleft hasked hnew h ih =>
    by_cases hmn : m = n
    · subst hmn
      -- this is the answer; what follows does not repeat it
      obtain rfl : r = q := Option.some.inj (hasked.symm.trans hq.1)
      have hgiven : p'.answer? m = some b := h.answered (give_self p m b)
      have hrest : .reply ⟨r.id, a⟩ ∉ es := h.reply_not_mem hq (give_self p m b)
      rw [hgiven]
      simp [hrest, eq_comm]
    · have hid : r.id ≠ q.id := fun heq => hmn (hq.2 m r hasked heq)
      have hrest := ih hq (by rw [give_of_ne _ _ (Ne.symm hmn), hnone])
      simpa [hid.symm] using hrest
  | leave hleft => simp [hnone]

end Course

end Partner

end Livecode
