import Livecode.Control.Supervisor

/-!
# Courses of a supervisor

What a supervisor can do to its session, said once. The machine may answer anything, so an operation
of the supervisor has many courses. All of them are made of a few moves, and a move is one journal
entry with what it does to the session; only where a session is lost do several entries belong
together, because nothing can come between the loss and the release. Whatever every move preserves
is preserved by every operation.

An operation is described by the effects it enters in the journal and by how it leaves the
supervisor. Such a description is put together along the operation's own sequence of steps, so each
operation is opened once, here, and no caller opens it again.

## Main results

* `evaluate_does` — an evaluation finds no session, loses it, or gets an answer from it.
* `start_does` — how a start goes; only the boot of the audio server comes after the launch.
* `stop_within`, `bootServer_within`, … — the course of every operation, with the deeds it may do.
-/

namespace Livecode

variable {ω α β : Type}

/-! ## Standings and moves -/

/-- What of a supervisor its requests depend on. -/
structure Standing where
  session : Option SessionId
  launches : Nat
  serverRunning : Bool
  bootsServer : Bool

/-- What an evaluation is made for. -/
inductive Purpose where
  | user
  | boot
  | kill

/-- Something that a supervisor does on its own account. -/
inductive Deed where
  | launch
  | interpret (p : Purpose) (code : Text)
  | send (code : Text)
  | quit

/-- Whether the audio server counts as running after an evaluation, by whether that succeeded. -/
def Purpose.serverAfter : Purpose → (succeeded running : Bool) → Bool
  | .user, _, running => running
  | .boot, succeeded, running => succeeded || running
  | .kill, _, _ => false

namespace Standing

variable (s : Standing)

/-- The standing once the session has been let go of. -/
def cleared : Standing := { s with session := none, serverRunning := false }

/-- The standing after an evaluation that did not lose the session. -/
def served (p : Purpose) (succeeded : Bool) : Standing :=
  { s with serverRunning := p.serverAfter succeeded s.serverRunning }

end Standing

/-- Nothing but texts posted. -/
def Journal.Said (j : Journal) : Prop := ∀ e ∈ j, ∃ t, e = .posted t

@[simp] theorem Journal.said_nil : Journal.Said [] := nofun

@[simp] theorem Journal.said_cons {e : JournalEntry} {j : Journal} :
    Journal.Said (e :: j) ↔ (∃ t, e = .posted t) ∧ Journal.Said j := List.forall_mem_cons

@[simp] theorem Journal.said_append {i j : Journal} :
    Journal.Said (i ++ j) ↔ Journal.Said i ∧ Journal.Said j := List.forall_mem_append

theorem Journal.said_posted (t : Text) : Journal.Said [.posted t] := by simp

/-- A move with deeds of `D`: the standing before, the effects, and the standing after. -/
inductive Move (D : Deed → Prop) (s : Standing) : Journal → Standing → Prop
  | said (t : Text) : Move D s [.posted t] s
  | launchFailed (e : SessionError) : D .launch → s.session = none →
      Move D s [.launched ⟨s.launches⟩ (.error e)] { s with launches := s.launches + 1 }
  | launched : D .launch → s.session = none →
      Move D s [.launched ⟨s.launches⟩ (.ok ())]
        { s with launches := s.launches + 1, session := some ⟨s.launches⟩ }
  | alive {id : SessionId} : s.session = some id → Move D s [.probed id true] s
  | dead {id : SessionId} : s.session = some id →
      Move D s [.probed id false, .posted "sclang exited", .released id] s.cleared
  | answered {id : SessionId} {code : Text} (p : Purpose) (r : Except EvalError Text) :
      D (.interpret p code) → s.session = some id → r ≠ .error .disconnected →
      Move D s [.interpreted id code r] (s.served p r.isOk)
  | lost {id : SessionId} {code : Text} {k : Journal} (p : Purpose) :
      D (.interpret p code) → s.session = some id → k.Said →
      Move D s (.interpreted id code (.error .disconnected) :: k ++ [.released id]) s.cleared
  | sent {id : SessionId} {code : Text} (r : Except EvalError Unit) :
      D (.send code) → s.session = some id → Move D s [.sent id code r] s
  | quit {id : SessionId} (r : Except EvalError Unit) : D .quit → s.session = some id →
      Move D s [.quit id r] { s with session := none }
  | serverGone : s.session = none → Move D s [] { s with serverRunning := false }

/-- A sequence of moves. -/
inductive Course (D : Deed → Prop) : Standing → Journal → Standing → Prop
  | done : Course D s [] s
  | step : Move D s i s' → Course D s' j s'' → Course D s (i ++ j) s''

section

variable {D D' : Deed → Prop} {s s' s'' : Standing} {i j : Journal}

theorem Move.course (h : Move D s j s') : Course D s j s' := by
  have hj := Course.step h .done
  rwa [List.append_nil] at hj

theorem Course.trans (h : Course D s i s') (h' : Course D s' j s'') : Course D s (i ++ j) s'' := by
  induction h with
  | done => exact h'
  | step hmove _ ih =>
    rw [List.append_assoc]
    exact .step hmove (ih h')

theorem Course.cons {e : JournalEntry} (h : Move D s [e] s') (h' : Course D s' j s'') :
    Course D s (e :: j) s'' := .step h h'

theorem Move.mono (hD : ∀ d, D d → D' d) (h : Move D s j s') : Move D' s j s' := by
  cases h with
  | said t => exact .said t
  | launchFailed e hd hs => exact .launchFailed e (hD _ hd) hs
  | launched hd hs => exact .launched (hD _ hd) hs
  | alive hs => exact .alive hs
  | dead hs => exact .dead hs
  | answered p r hd hs hr => exact .answered p r (hD _ hd) hs hr
  | lost p hd hs hk => exact .lost p (hD _ hd) hs hk
  | sent r hd hs => exact .sent r (hD _ hd) hs
  | quit r hd hs => exact .quit r (hD _ hd) hs
  | serverGone hs => exact .serverGone hs

theorem Course.mono (hD : ∀ d, D d → D' d) (h : Course D s j s') : Course D' s j s' := by
  induction h with
  | done => exact .done
  | step hmove _ ih => exact .step (hmove.mono hD) ih

theorem Course.said (hj : j.Said) : Course D s j s := by
  induction j with
  | nil => exact .done
  | cons e j ih =>
    obtain ⟨⟨t, rfl⟩, hrest⟩ := Journal.said_cons.mp hj
    exact .cons (.said t) (ih hrest)

end

/-! ## Actions -/

/-- The standing of a supervisor. -/
def Supervisor.standing (s : Supervisor ω) : Standing :=
  ⟨s.session, s.launches, s.serverRunning, s.bootsServer⟩

namespace Supervised

/-- Run from `s`, the action enters effects in the journal such that `Q` holds of its result, of
these effects, and of the supervisor afterwards. -/
def Does (act : Supervised ω α) (s : Supervisor ω) (Q : α → Journal → Supervisor ω → Prop) : Prop :=
  ∃ j, (act.run s).2.journal = s.journal ++ j ∧ Q (act.run s).1 j (act.run s).2

variable {s : Supervisor ω} {act : Supervised ω α} {f : α → Supervised ω β}
variable {Q Q' : α → Journal → Supervisor ω → Prop} {R : β → Journal → Supervisor ω → Prop}

theorem Does.imp (h : Does act s Q) (hQ : ∀ a j s', Q a j s' → Q' a j s') : Does act s Q' := by
  obtain ⟨j, hj, hq⟩ := h
  exact ⟨j, hj, hQ _ _ _ hq⟩

theorem Does.bind (h : Does act s Q)
    (hf : ∀ a i s', Q a i s' → Does (f a) s' fun b j s'' => R b (i ++ j) s'') :
    Does (act >>= f) s R := by
  obtain ⟨i, hi, hq⟩ := h
  obtain ⟨j, hj, hr⟩ := hf _ _ _ hq
  refine ⟨i ++ j, ?_, hr⟩
  rw [← List.append_assoc, ← hi]
  exact hj

theorem Does.pure {a : α} (h : Q a [] s) : Does (pure a) s Q := ⟨[], (List.append_nil _).symm, h⟩

theorem Does.get_bind {f : Supervisor ω → Supervised ω β} (h : Does (f s) s R) :
    Does (get >>= f) s R := h

/-- Run from `s`, the action takes a course with deeds of `D`. -/
def Within (D : Deed → Prop) (act : Supervised ω α) (s : Supervisor ω) : Prop :=
  Does act s fun _ j s' => Course D s.standing j s'.standing

variable {D : Deed → Prop}

theorem Does.bind_within (h : Does act s Q)
    (hf : ∀ a i s', Q a i s' → Course D s.standing i s'.standing ∧ Within D (f a) s') :
    Within D (act >>= f) s :=
  h.bind fun a i s' hq => (hf a i s' hq).2.imp fun _ _ _ hj => (hf a i s' hq).1.trans hj

theorem Within.after {st : Standing} {i : Journal} (h : Within D act s)
    (hi : Course D st i s.standing) : Does act s fun _ j s' => Course D st (i ++ j) s'.standing :=
  h.imp fun _ _ _ hj => hi.trans hj

theorem Within.bind (h : Within D act s) (hf : ∀ a s', Within D (f a) s') :
    Within D (act >>= f) s :=
  Does.bind_within h fun a _ s' hi => ⟨hi, hf a s'⟩

end Supervised

namespace Supervisor

open Supervised

variable {D : Deed → Prop} (M : Machine ω) (s : Supervisor ω) (id : SessionId) (code : Text)

/-! ### Single effects -/

theorem modify_does (f : Supervisor ω → Supervisor ω) (h : (f s).journal = s.journal) :
    Does (modify f) s fun _ j s' => j = [] ∧ s' = f s :=
  ⟨[], h.trans (List.append_nil _).symm, rfl, rfl⟩

theorem enter_does (e : JournalEntry) :
    Does (enter e) s fun _ j s' => j = [e] ∧ s'.standing = s.standing :=
  ⟨_, rfl, rfl, rfl⟩

theorem ask_does (call : ω → α × ω) :
    Does (ask call) s fun _ j s' => j = [] ∧ s'.standing = s.standing :=
  ⟨[], (List.append_nil _).symm, rfl, rfl⟩

theorem say_does (t : Text) :
    Does (say t) s fun _ j s' => j = [.posted t] ∧ s'.standing = s.standing :=
  ⟨_, rfl, rfl, rfl⟩

theorem say_within (t : Text) : Within D (say t) s :=
  (say_does s t).imp fun _ _ _ ⟨hj, h⟩ => by
    rw [hj, h]
    exact (Move.said t).course

theorem sayAll_does (ts : List Text) :
    Does (sayAll ts) s fun _ j s' => j.Said ∧ s'.standing = s.standing := by
  induction ts generalizing s with
  | nil => exact .pure ⟨Journal.said_nil, rfl⟩
  | cons t ts ih =>
    refine (say_does s t).bind ?_
    rintro _ _ s₁ ⟨rfl, h₁⟩
    refine (ih s₁).imp ?_
    rintro _ j s₂ ⟨hj, h₂⟩
    exact ⟨Journal.said_cons.mpr ⟨⟨t, rfl⟩, hj⟩, h₂.trans h₁⟩

theorem probe_does :
    Does (probe M id) s fun alive j s' => j = [.probed id alive] ∧ s'.standing = s.standing :=
  ⟨_, rfl, rfl, rfl⟩

theorem release_does :
    Does (release M id) s fun _ j s' => j = [.released id] ∧ s'.standing = s.standing.cleared :=
  ⟨_, rfl, rfl, rfl⟩

/-- What the calls of the machine that print something have in common. -/
theorem served_does (call : ω → Served α × ω) (entry : α → JournalEntry) :
    Does (do
      let served ← ask call
      enter (entry served.result)
      sayAll served.printed
      return served.result) s fun r j s' =>
        ∃ k : Journal, j = entry r :: k ∧ k.Said ∧ s'.standing = s.standing := by
  refine (ask_does s call).bind ?_
  rintro served _ s₁ ⟨rfl, h₁⟩
  refine (enter_does s₁ _).bind ?_
  rintro _ _ s₂ ⟨rfl, h₂⟩
  refine (sayAll_does s₂ _).bind ?_
  rintro _ k s₃ ⟨hk, h₃⟩
  exact .pure ⟨k, by simp, hk, h₃.trans (h₂.trans h₁)⟩

theorem interpret_does : Does (interpret M id code) s fun r j s' =>
    ∃ k : Journal, j = .interpreted id code r :: k ∧ k.Said ∧ s'.standing = s.standing :=
  served_does s _ _

theorem send_does : Does (send M id code) s fun r j s' =>
    ∃ k : Journal, j = .sent id code r :: k ∧ k.Said ∧ s'.standing = s.standing :=
  served_does s _ _

theorem shutDown_does : Does (shutDown M id) s fun r j s' =>
    ∃ k : Journal, j = .quit id r :: k ∧ k.Said ∧
      s'.standing = { s.standing with session := none } :=
  served_does { s with session := none } _ _

theorem launch_does : Does (launch M) s fun r j s' =>
    ∃ k : Journal, j = .launched ⟨s.standing.launches⟩ r :: k ∧ k.Said ∧
      s'.standing = { s.standing with
        launches := s.standing.launches + 1
        session := if r.isOk then some ⟨s.standing.launches⟩ else s.standing.session } := by
  unfold launch
  refine .get_bind ?_
  refine (ask_does s _).bind ?_
  rintro served _ s₁ ⟨rfl, h₁⟩
  refine (modify_does s₁ _ rfl).bind ?_
  rintro _ _ s₂ ⟨rfl, h₂⟩
  refine (enter_does s₂ _).bind ?_
  rintro _ _ s₃ ⟨rfl, h₃⟩
  refine (sayAll_does s₃ _).bind ?_
  rintro _ k s₄ ⟨hk, h₄⟩
  have hcounted : s₄.standing = { s.standing with launches := s.launches + 1 } := by
    rw [h₄, h₃, h₂, ← h₁]
    exact congrArg (fun st : Standing => { s₁.standing with launches := st.launches + 1 }) h₁
  cases hok : served.result.isOk with
  | true =>
    refine (modify_does s₄ _ rfl).bind ?_
    rintro _ _ s₅ ⟨rfl, h₅⟩
    refine .pure ⟨k, by simp [standing], hk, ?_⟩
    rw [h₅, if_pos hok]
    exact congrArg (fun st : Standing => { st with session := some ⟨s.launches⟩ }) hcounted
  | false =>
    refine .pure ⟨k, by simp [standing], hk, ?_⟩
    rw [hcounted, if_neg (by simp [hok])]
    rfl

/-! ### The session -/

/-- How a look at the session goes. -/
inductive Looked (s : Standing) : Option SessionId → Journal → Standing → Prop
  | absent : s.session = none → Looked s none [] s
  | alive {id : SessionId} : s.session = some id → Looked s (some id) [.probed id true] s
  | dead {id : SessionId} : s.session = some id →
      Looked s none [.probed id false, .posted "sclang exited", .released id] s.cleared

theorem Looked.course {s s' : Standing} {o : Option SessionId} {j : Journal}
    (h : Looked s o j s') : Course D s j s' := by
  cases h with
  | absent => exact .done
  | alive hs => exact (Move.alive hs).course
  | dead hs => exact (Move.dead hs).course

theorem Looked.session_eq {s s' : Standing} {o : Option SessionId} {j : Journal}
    (h : Looked s o j s') : s'.session = o := by
  cases h with
  | absent hs => exact hs
  | alive hs => exact hs
  | dead => rfl

theorem Looked.bootsServer_eq {s s' : Standing} {o : Option SessionId} {j : Journal}
    (h : Looked s o j s') : s'.bootsServer = s.bootsServer := by
  cases h <;> rfl

theorem Looked.launches_eq {s s' : Standing} {o : Option SessionId} {j : Journal}
    (h : Looked s o j s') : s'.launches = s.launches := by
  cases h <;> rfl

theorem Looked.of_some {s s' : Standing} {id : SessionId} {j : Journal}
    (h : Looked s (some id) j s') : s.session = some id ∧ j = [.probed id true] ∧ s' = s := by
  cases h with
  | alive hs => exact ⟨hs, rfl, rfl⟩

theorem liveSession_does : Does (liveSession M) s fun o j s' =>
    Looked s.standing o j s'.standing := by
  unfold liveSession
  refine .get_bind ?_
  split
  next hs => exact .pure (.absent hs)
  next id hs =>
    refine (probe_does M s id).bind ?_
    rintro alive _ s₁ ⟨rfl, h₁⟩
    cases alive with
    | true => exact .pure (by rw [h₁]; exact .alive hs)
    | false =>
      refine (say_does s₁ _).bind ?_
      rintro _ _ s₂ ⟨rfl, h₂⟩
      refine (release_does M s₂ id).bind ?_
      rintro _ _ s₃ ⟨rfl, h₃⟩
      refine .pure ?_
      rw [h₃, h₂, h₁]
      exact .dead hs

theorem status_does : Does (status M) s fun r j s' => ∃ o, Looked s.standing o j s'.standing ∧
    r = if o.isSome then .running else .stopped := by
  unfold status
  refine (liveSession_does M s).bind fun o i s₁ h => ?_
  cases o with
  | none => exact .pure ⟨none, by rwa [List.append_nil], rfl⟩
  | some id => exact .pure ⟨some id, by rwa [List.append_nil], rfl⟩

/-- What an answer of the interpreter comes to. -/
def reply (r : Except EvalError Text) : Except SessionError Text :=
  (r.map Text.trim).mapError EvalError.toSessionError

/-- How an evaluation goes. -/
inductive Evaluated (code : Text) (s : Standing) :
    Except SessionError Text → Journal → Standing → Prop
  | absent {j : Journal} {s' : Standing} : Looked s none j s' →
      Evaluated code s (.error .noSession) j s'
  | answered {id : SessionId} {k : Journal} (r : Except EvalError Text) :
      s.session = some id → k.Said → r ≠ .error .disconnected →
      Evaluated code s (reply r) (.probed id true :: .interpreted id code r :: k) s
  | lost {id : SessionId} {k : Journal} : s.session = some id → k.Said →
      Evaluated code s (reply (.error .disconnected))
        (.probed id true :: .interpreted id code (.error .disconnected) :: k ++ [.released id])
        s.cleared

theorem evaluate_does : Does (evaluate M code) s fun r j s' =>
    Evaluated code s.standing r j s'.standing := by
  unfold evaluate
  refine (liveSession_does M s).bind ?_
  rintro (_ | id) i s₁ hlook
  · exact .pure (.absent (by rwa [List.append_nil]))
  obtain ⟨hs, rfl, h₁⟩ := hlook.of_some
  refine (interpret_does M s₁ id code).bind ?_
  rintro r _ s₂ ⟨k, rfl, hk, h₂⟩
  have h : s₂.standing = s.standing := h₂.trans h₁
  split
  next result =>
    refine .pure ?_
    rw [h, List.append_nil]
    exact .answered (.ok result) hs hk nofun
  next =>
    refine (release_does M s₂ id).bind ?_
    rintro _ _ s₃ ⟨rfl, h₃⟩
    refine .pure ?_
    rw [h₃, h]
    exact .lost hs hk
  next e he =>
    refine .pure ?_
    rw [h, List.append_nil]
    exact .answered (.error e) hs hk (by simpa using he)

/-- Once an evaluation is over, the audio server counts as what the evaluation has made of it. -/
theorem Evaluated.course {s s' : Standing} {code : Text} {r : Except SessionError Text}
    {j : Journal} (p : Purpose) (hD : D (.interpret p code)) (h : Evaluated code s r j s') :
    Course D s j (s'.served p r.isOk) := by
  cases h with
  | absent hlook =>
    have hgone : Course D s' [] (s'.served p false) := by
      cases p with
      | user => exact .done
      | boot => exact .done
      | kill => exact (Move.serverGone hlook.session_eq).course
    have hj := hlook.course.trans hgone
    rwa [List.append_nil] at hj
  | answered r hs hk hr =>
    have hok : (reply r).isOk = r.isOk := by cases r <;> rfl
    rw [hok]
    exact .cons (.alive hs) (.cons (.answered p r hD hs hr) (.said hk))
  | lost hs hk =>
    have hsame : s.cleared.served p (reply (.error .disconnected)).isOk = s.cleared := by
      cases p <;> rfl
    rw [hsame]
    exact .cons (.alive hs) (Move.lost p hD hs hk).course

/-- How an evaluation without waiting goes. -/
inductive Detached (code : Text) (s : Standing) :
    Except SessionError Unit → Journal → Standing → Prop
  | absent {j : Journal} {s' : Standing} : Looked s none j s' →
      Detached code s (.error .noSession) j s'
  | handed {id : SessionId} {k : Journal} (r : Except EvalError Unit) :
      s.session = some id → k.Said →
      Detached code s (r.mapError EvalError.toSessionError)
        (.probed id true :: .sent id code r :: k) s

theorem evaluateDetached_does : Does (evaluateDetached M code) s fun r j s' =>
    Detached code s.standing r j s'.standing := by
  unfold evaluateDetached
  refine (liveSession_does M s).bind ?_
  rintro (_ | id) i s₁ hlook
  · exact .pure (.absent (by rwa [List.append_nil]))
  obtain ⟨hs, rfl, h₁⟩ := hlook.of_some
  refine (send_does M s₁ id code).bind ?_
  rintro r _ s₂ ⟨k, rfl, hk, h₂⟩
  refine .pure ?_
  rw [h₂, h₁, List.append_nil]
  exact .handed r hs hk

theorem Detached.course {s s' : Standing} {code : Text} {r : Except SessionError Unit}
    {j : Journal} (hD : D (.send code)) (h : Detached code s r j s') : Course D s j s' := by
  cases h with
  | absent hlook => exact hlook.course
  | handed r hs hk => exact .cons (.alive hs) (.cons (.sent r hD hs) (.said hk))

/-! ### Operations -/

theorem evaluate_within (hD : D (.interpret .user code)) : Within D (evaluate M code) s :=
  (evaluate_does M s code).imp fun _ _ _ h => h.course .user hD

theorem evaluateDetached_within (hD : D (.send code)) : Within D (evaluateDetached M code) s :=
  (evaluateDetached_does M s code).imp fun _ _ _ h => h.course hD

theorem hush_within (hD : D (.interpret .user "CmdPeriod.run")) : Within D (hush M) s := by
  unfold hush
  refine (liveSession_does M s).bind_within ?_
  rintro (_ | id) i s₁ hlook
  · exact ⟨hlook.course, (say_within s₁ _).bind fun _ _ => .pure .done⟩
  · exact ⟨hlook.course, evaluate_within M s₁ _ hD⟩

theorem status_within : Within D (status M) s :=
  (status_does M s).imp fun _ _ _ ⟨_, hlook, _⟩ => hlook.course

/-- The last steps of a boot that succeeded. -/
theorem serverUp_does {st : Standing} {i : Journal}
    (h : Course D st i { s.standing with serverRunning := true }) :
    Does (do
      modify fun s => { s with serverRunning := true }
      say "Successfully booted scsynth"
      return .ok .started : Supervised ω (Except SessionError Lifecycle)) s fun _ j s' =>
        Course D st (i ++ j) s'.standing := by
  refine (modify_does s _ rfl).bind ?_
  rintro _ _ s₁ ⟨rfl, h₁⟩
  have hs₁ : Course D st i s₁.standing := by
    rw [h₁]
    exact h
  exact ((say_within s₁ _).bind fun _ _ => .pure .done).after hs₁

theorem bootServer_within (hD : D (.interpret .boot "s.boot")) : Within D (bootServer M) s := by
  unfold bootServer
  refine (liveSession_does M s).bind_within ?_
  rintro (_ | id) i s₁ hlook
  · exact ⟨hlook.course, (say_within s₁ _).bind fun _ _ => .pure .done⟩
  refine ⟨hlook.course, .get_bind ?_⟩
  split
  · exact (say_within s₁ _).bind fun _ _ => .pure .done
  refine (say_within s₁ _).bind fun _ s₂ => ?_
  refine (evaluate_does M s₂ _).bind ?_
  rintro (e | result) j s₃ heval
  · have hdown : Course D s₂.standing j s₃.standing := heval.course .boot hD
    refine Within.after ?_ hdown
    exact (say_within s₃ _).bind fun _ s₄ => (say_within s₄ _).bind fun _ _ => .pure .done
  · have hup := heval.course .boot hD
    dsimp only
    split
    · exact serverUp_does s₃ hup
    · refine (say_does s₃ _).bind ?_
      rintro _ _ s₄ ⟨rfl, h₄⟩
      have hsaid : Course D s₂.standing (j ++ [.posted result])
          { s₄.standing with serverRunning := true } := by
        rw [h₄]
        exact hup.trans (Move.said result).course
      simpa only [List.append_assoc] using serverUp_does s₄ hsaid

theorem quitServer_within (hD : D (.interpret .kill "Server.killAll")) :
    Within D (quitServer M) s := by
  unfold quitServer
  refine .get_bind ?_
  split
  · refine (evaluate_does M s _).bind ?_
    rintro r j s₁ heval
    refine (modify_does s₁ _ rfl).bind ?_
    rintro _ _ s₂ ⟨rfl, h₂⟩
    have hdown : Course D s.standing j s₂.standing := by
      rw [h₂]
      exact heval.course .kill hD
    refine Within.after ?_ hdown
    cases r with
    | ok => exact .pure .done
    | error e => exact (say_within s₂ _).bind fun _ _ => .pure .done
  · exact .pure .done

theorem toggleServer_within (hboot : D (.interpret .boot "s.boot"))
    (hkill : D (.interpret .kill "Server.killAll")) : Within D (toggleServer M) s := by
  unfold toggleServer
  refine .get_bind ?_
  split
  · exact quitServer_within M s hkill
  · exact bootServer_within M s hboot

/-- How a start goes. Only the audio server is booted after the launch. -/
inductive Started (s : Standing) : Except SessionError Lifecycle → Journal → Standing → Prop
  | already {id : SessionId} {i j : Journal} {s' : Standing} : Looked s (some id) i s' → j.Said →
      Started s (.ok .alreadyRunning) (i ++ j) s'
  | failed {i j k : Journal} {s₁ : Standing} (e : SessionError) :
      Looked s none i s₁ → j.Said → k.Said →
      Started s (.error e) (i ++ j ++ .launched ⟨s₁.launches⟩ (.error e) :: k)
        { s₁ with launches := s₁.launches + 1 }
  | launched {i j k : Journal} {s₁ s' : Standing} : Looked s none i s₁ → j.Said →
      Course (· = .interpret .boot "s.boot")
        { s₁ with launches := s₁.launches + 1, session := some ⟨s₁.launches⟩ } k s' →
      (s.bootsServer = false → k.Said) →
      Started s (.ok .started) (i ++ j ++ .launched ⟨s₁.launches⟩ (.ok ()) :: k) s'

/-- What a start does once its session is there. -/
def bootOnStart : Supervised ω (Except SessionError Lifecycle) := do
  if (← get).bootsServer then
    let _ ← bootServer M
  return .ok .started

theorem bootOnStart_does : Does (bootOnStart M) s fun r k s' => r = .ok .started ∧
    Course (· = .interpret .boot "s.boot") s.standing k s'.standing ∧
      (s.bootsServer = false → k.Said) := by
  unfold bootOnStart
  refine .get_bind ?_
  dsimp only
  split
  next hboots =>
    have hserver : Within (· = .interpret .boot "s.boot") (bootServer M) s :=
      bootServer_within M s rfl
    refine Does.bind hserver ?_
    intro _ k s₁ hcourse
    refine .pure ⟨rfl, by rwa [List.append_nil], ?_⟩
    rw [hboots]
    nofun
  next => exact .pure ⟨rfl, .done, fun _ => Journal.said_nil⟩

theorem start_does : Does (start M) s fun r j s' => Started s.standing r j s'.standing := by
  unfold start
  refine (status_does M s).bind ?_
  rintro _ i s₁ ⟨_ | id, hlook, rfl⟩
  · refine (say_does s₁ _).bind ?_
    rintro _ _ s₂ ⟨rfl, h₂⟩
    refine (launch_does M s₂).bind ?_
    rintro (e | ⟨⟩) _ s₃ ⟨k, rfl, hk, h₃⟩ <;> rw [h₂] at h₃ ⊢
    · replace h₃ : s₃.standing = { s₁.standing with launches := s₁.standing.launches + 1 } := h₃
      refine (say_does s₃ _).bind ?_
      rintro _ _ s₄ ⟨rfl, h₄⟩
      refine (say_does s₄ _).bind ?_
      rintro _ _ s₅ ⟨rfl, h₅⟩
      have hposted : Journal.Said (k ++ [.posted "Error booting sclang", .posted e.message]) := by
        simp [hk]
      have hfailed := Started.failed e hlook (Journal.said_posted "Booting sclang") hposted
      refine .pure ?_
      rw [h₅, h₄, h₃]
      simpa only [List.append_assoc, List.cons_append, List.nil_append] using hfailed
    · replace h₃ : s₃.standing = { s₁.standing with
          launches := s₁.standing.launches + 1
          session := some ⟨s₁.standing.launches⟩ } := h₃
      refine (say_does s₃ _).bind ?_
      rintro _ _ s₄ ⟨rfl, h₄⟩
      refine (bootOnStart_does M s₄).imp ?_
      rintro _ l s₅ ⟨rfl, hboot, hquiet⟩
      have hposted : Journal.Said (k ++ [.posted "Successfully booted sclang"]) := by simp [hk]
      have hboots : s₄.bootsServer = s.bootsServer :=
        (congrArg Standing.bootsServer (h₄.trans h₃)).trans hlook.bootsServer_eq
      rw [h₄, h₃] at hboot
      have hlaunched := Started.launched hlook (Journal.said_posted "Booting sclang")
        ((Course.said hposted).trans hboot) fun hno : s.bootsServer = false =>
          Journal.said_append.mpr ⟨hposted, hquiet (hboots.trans hno)⟩
      simpa only [List.append_assoc, List.cons_append, List.nil_append] using hlaunched
  · refine (say_does s₁ _).bind ?_
    rintro _ _ s₂ ⟨rfl, h₂⟩
    rw [← h₂] at hlook
    exact .pure (.already hlook (Journal.said_posted _))

theorem Started.course {s s' : Standing} {r : Except SessionError Lifecycle} {j : Journal}
    (h : Started s r j s') (hlaunch : D .launch) (hboot : D (.interpret .boot "s.boot")) :
    Course D s j s' := by
  cases h with
  | already hlook hj => exact hlook.course.trans (.said hj)
  | failed e hlook hj hk =>
    have hfailed := Course.cons (.launchFailed e hlaunch hlook.session_eq) (.said hk)
    exact (hlook.course.trans (.said hj)).trans hfailed
  | launched hlook hj hcourse =>
    have hlaunched := Course.cons (.launched hlaunch hlook.session_eq)
      (hcourse.mono fun d (hd : d = _) => hd ▸ hboot)
    exact (hlook.course.trans (.said hj)).trans hlaunched

theorem start_within (hlaunch : D .launch) (hboot : D (.interpret .boot "s.boot")) :
    Within D (start M) s :=
  (start_does M s).imp fun _ _ _ h => h.course hlaunch hboot

/-- The last steps of a stop, by how the shutdown went. -/
def stopped (result : Except EvalError Unit) : Supervised ω (Except SessionError Lifecycle) := do
  modify fun s => { s with serverRunning := false }
  match result with
  | .ok () =>
    say "sclang stopped"
    return .ok .stopped
  | .error e =>
    say e.message
    return .error e.toSessionError

/-- What a stop does once the audio server has been seen to. -/
def shutDownSession : Supervised ω (Except SessionError Lifecycle) := do
  match (← get).session with
  | some id => shutDown M id >>= stopped
  | none => stopped (.ok ())

theorem stop_eq : stop M = (do
    match ← status M with
    | .stopped => return .ok .notRunning
    | .running =>
      if (← get).serverRunning then
        let _ ← quitServer M
      shutDownSession M) := rfl

theorem stopped_within (result : Except EvalError Unit) (hs : s.session = none) :
    Within D (stopped result) s := by
  unfold stopped
  refine (modify_does s _ rfl).bind ?_
  rintro _ _ s₁ ⟨rfl, h₁⟩
  have hgone : Course D s.standing [] s₁.standing := by
    rw [h₁]
    exact (Move.serverGone hs).course
  refine Within.after ?_ hgone
  cases result with
  | ok => exact (say_within s₁ _).bind fun _ _ => .pure .done
  | error e => exact (say_within s₁ _).bind fun _ _ => .pure .done

theorem shutDownSession_within (hquit : D .quit) : Within D (shutDownSession M) s := by
  unfold shutDownSession
  refine .get_bind ?_
  split
  next id hs =>
    refine (shutDown_does M s id).bind_within ?_
    rintro r _ s₁ ⟨k, rfl, hk, h₁⟩
    have hs₁ : s₁.session = none := congrArg Standing.session h₁
    rw [h₁]
    exact ⟨.cons (.quit r hquit hs) (.said hk), stopped_within s₁ r hs₁⟩
  next hs => exact stopped_within s _ hs

theorem stop_within (hkill : D (.interpret .kill "Server.killAll")) (hquit : D .quit) :
    Within D (stop M) s := by
  rw [stop_eq]
  refine (status_does M s).bind_within ?_
  rintro _ i s₁ ⟨_ | id, hlook, rfl⟩
  · exact ⟨hlook.course, .pure .done⟩
  refine ⟨hlook.course, .get_bind ?_⟩
  dsimp only
  split
  · exact (quitServer_within M s₁ hkill).bind fun _ s₂ => shutDownSession_within M s₂ hquit
  · exact shutDownSession_within M s₁ hquit

theorem toggle_within (hlaunch : D .launch) (hboot : D (.interpret .boot "s.boot"))
    (hkill : D (.interpret .kill "Server.killAll")) (hquit : D .quit) :
    Within D (toggle M) s := by
  unfold toggle
  refine (status_within M s).bind fun status s₁ => ?_
  cases status with
  | stopped => exact start_within M s₁ hlaunch hboot
  | running => exact stop_within M s₁ hkill hquit

theorem finish_does (hquit : D .quit) : Does (finish M) s fun _ j s' =>
    Course D s.standing j s'.standing ∧ s'.session = none := by
  unfold finish
  refine .get_bind ?_
  split
  next id hs =>
    refine (shutDown_does M s id).bind ?_
    rintro r _ s₁ ⟨k, rfl, hk, h₁⟩
    refine .pure ⟨?_, congrArg Standing.session h₁⟩
    rw [h₁, List.append_nil]
    exact .cons (.quit r hquit hs) (.said hk)
  next hs => exact .pure ⟨.done, hs⟩

end Supervisor
end Livecode
