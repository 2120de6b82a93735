import Livecode.Proofs.Control.Course

/-!
# The journal is what happened

A journal is a record kept by the supervisor itself, so what it says would be worth little if a call
could go unrecorded or an entry stand for none. Here the journal is played back: each entry is made
again as a call on the machine, which must then give the answer recorded. Whatever a supervisor
does, its journal played back on the machine as it was gives the machine as it is, and its texts
posted once more give the post window as it is.

Of some operations more is known: they never fail without a text posted, so whoever has them done
need not post anything. Such an operation *speaks*. That is found out on the same way, because what
is posted last is posted whatever was done before.

## Main results

* `Faithful.bind` — actions with a true journal are put together from such actions.
* `evaluate_faithful`, `hush_faithful`, … — the operations whose failures may be silent.
* `start_speaks`, `stop_speaks`, … — the operations whose failures are posted.
* `Faithful.record` — what the journal of an operation is, however the journal has been come by.
-/

namespace Livecode

variable {ω α β : Type}

/-- What one effect is on a machine: a call, with the answer that the machine gives and the state it
is left in. Posting a text is no call. -/
inductive Machine.Makes (M : Machine ω) (w : ω) : JournalEntry → ω → Prop
  | posted (t : Text) : Makes M w (.posted t) w
  | launched (id : SessionId) :
      Makes M w (.launched id (M.launch id w).1.result) (M.launch id w).2
  | probed (id : SessionId) : Makes M w (.probed id (M.isAlive id w).1) (M.isAlive id w).2
  | interpreted (id : SessionId) (code : Text) :
      Makes M w (.interpreted id code (M.interpret id code w).1.result) (M.interpret id code w).2
  | sent (id : SessionId) (code : Text) :
      Makes M w (.sent id code (M.send id code w).1.result) (M.send id code w).2
  | quit (id : SessionId) : Makes M w (.quit id (M.quit id w).1.result) (M.quit id w).2
  | released (id : SessionId) : Makes M w (.released id) (M.release id w)

/-- The effects of a journal, one after the other. -/
inductive Machine.Replays (M : Machine ω) : ω → Journal → ω → Prop
  | done {w : ω} : Replays M w [] w
  | step {w w₁ w' : ω} {e : JournalEntry} {j : Journal} :
      M.Makes w e w₁ → Replays M w₁ j w' → Replays M w (e :: j) w'

theorem Machine.Replays.append {M : Machine ω} {w w₁ w' : ω} {i j : Journal}
    (h : M.Replays w i w₁) (h' : M.Replays w₁ j w') : M.Replays w (i ++ j) w' := by
  induction h with
  | done => exact h'
  | step hmake _ ih => exact .step hmake (ih h')

namespace Supervised

/-- The journal is true to what the action does on the machine. -/
def Honest (M : Machine ω) (act : Supervised ω α) : Prop :=
  ∀ s, Does act s fun _ j s' => M.Replays s.machine j s'.machine

/-- Played back from `s`, the journal gives the machine and the post window of `s'`. -/
structure Played (M : Machine ω) (s : Supervisor ω) (j : Journal) (s' : Supervisor ω) : Prop where
  replays : M.Replays s.machine j s'.machine
  post : s'.post = s.post.postAll j.posted

theorem Played.append {M : Machine ω} {s s₁ s' : Supervisor ω} {i j : Journal}
    (h : Played M s i s₁) (h' : Played M s₁ j s') : Played M s (i ++ j) s' where
  replays := h.replays.append h'.replays
  post := by rw [h'.post, h.post, Journal.posted_append, PostWindow.postAll_append]

/-- The journal is true to what the action does on the machine and to what it posts. -/
def Faithful (M : Machine ω) (act : Supervised ω α) : Prop :=
  ∀ s, Does act s fun _ j s' => Played M s j s'

variable {M : Machine ω} {act : Supervised ω α} {f : α → Supervised ω β}

theorem Faithful.honest (h : Faithful M act) : Honest M act :=
  fun s => (h s).imp fun _ _ _ hj => hj.replays

theorem Faithful.bind (h : Faithful M act) (hf : ∀ a, Faithful M (f a)) :
    Faithful M (act >>= f) := by
  intro s
  apply (h s).bind
  intro a i s₁ hi
  apply (hf a s₁).imp
  intro _ j _ hj
  exact hi.append hj

theorem Faithful.pure (a : α) : Faithful M (pure a : Supervised ω α) := fun _ => .pure ⟨.done, rfl⟩

theorem Faithful.get_bind {f : Supervisor ω → Supervised ω β} (h : ∀ s, Faithful M (f s)) :
    Faithful M (get >>= f) := fun s => .get_bind (h s s)

/-- What does not touch the machine, the journal or the post window needs no entry. -/
theorem faithful_modify {f : Supervisor ω → Supervisor ω}
    (hmachine : ∀ s, (f s).machine = s.machine) (hjournal : ∀ s, (f s).journal = s.journal)
    (hpost : ∀ s, (f s).post = s.post) : Faithful M (modify f) := by
  intro s
  apply (Supervisor.modify_does s f (hjournal s)).imp
  rintro _ _ s' ⟨rfl, rfl⟩
  refine ⟨?_, hpost s⟩
  rw [hmachine]
  exact .done

/-- A journal of the action, however it was come by, is the one that is true. -/
theorem Faithful.record (h : Faithful M act) {s : Supervisor ω} {j : Journal}
    (hj : (act.run s).2.journal = s.journal ++ j) : Played M s j (act.run s).2 := by
  obtain ⟨k, hk, htrue⟩ := h s
  have hsame : j = k := List.append_cancel_left (hj.symm.trans hk)
  rw [hsame]
  exact htrue

/-! ### Failures -/

variable {result : Except SessionError α} {g : α → Supervised ω (Except SessionError β)}

/-- The journal is true to the action, and this fails only with a text posted. -/
def Speaks (M : Machine ω) (act : Supervised ω (Except SessionError α)) : Prop :=
  ∀ s, Does act s fun r j s' => Played M s j s' ∧ (r.isOk = false → j.posted ≠ [])

theorem Speaks.faithful {act : Supervised ω (Except SessionError α)} (h : Speaks M act) :
    Faithful M act := fun s => (h s).imp fun _ _ _ hj => hj.1

/-- What was done before makes no difference. -/
theorem Speaks.bind (h : Faithful M act) (hg : ∀ a, Speaks M (g a)) : Speaks M (act >>= g) := by
  intro s
  apply (h s).bind
  intro a i s₁ hi
  apply (hg a s₁).imp
  intro r j _ ⟨hj, hspeaks⟩
  refine ⟨hi.append hj, ?_⟩
  intro hfailed
  rw [Journal.posted_append]
  exact List.append_ne_nil_of_right_ne_nil _ (hspeaks hfailed)

theorem Speaks.ok (a : α) : Speaks M (pure (.ok a) : Supervised ω (Except SessionError α)) :=
  fun _ => .pure ⟨⟨.done, rfl⟩, nofun⟩

theorem Speaks.get_bind {g : Supervisor ω → Supervised ω (Except SessionError α)}
    (h : ∀ s, Speaks M (g s)) : Speaks M (get >>= g) := fun s => .get_bind (h s s)

end Supervised

namespace Supervisor

open Supervised

variable (M : Machine ω) (id : SessionId) (code : Text)

/-! ## Single effects -/

theorem setServer_faithful (running : Bool) :
    Faithful M (modify fun s : Supervisor ω => { s with serverRunning := running }) :=
  faithful_modify (fun _ => rfl) (fun _ => rfl) fun _ => rfl

theorem setSession_faithful (session : Option SessionId) :
    Faithful M (modify fun s : Supervisor ω => { s with session }) :=
  faithful_modify (fun _ => rfl) (fun _ => rfl) fun _ => rfl

theorem say_faithful (t : Text) : Faithful M (say t) :=
  fun _ => ⟨_, rfl, .step (.posted t) .done, rfl⟩

/-- A failure that is announced. -/
theorem say_speaks (t : Text) {rest : Supervised ω (Except SessionError α)}
    (h : Faithful M rest) : Speaks M (do say t; rest) := by
  intro s
  have hsaid : Does (say t) s fun _ i s₁ => Played M s i s₁ ∧ i.posted ≠ [] :=
    ⟨_, rfl, ⟨.step (.posted t) .done, rfl⟩, List.cons_ne_nil _ _⟩
  apply hsaid.bind
  intro _ i s₁ ⟨hi, hposted⟩
  apply (h s₁).imp
  intro r j _ hj
  refine ⟨hi.append hj, ?_⟩
  intro _
  rw [Journal.posted_append]
  exact List.append_ne_nil_of_left_ne_nil hposted _

theorem sayAll_faithful (ts : List Text) : Faithful M (sayAll ts) := by
  induction ts with
  | nil => exact .pure ()
  | cons t ts ih => exact (say_faithful M t).bind fun _ => ih

theorem probe_faithful : Faithful M (probe M id) :=
  fun _ => ⟨_, rfl, .step (.probed id) .done, rfl⟩

theorem release_faithful : Faithful M (release M id) :=
  fun _ => ⟨_, rfl, .step (.released id) .done, rfl⟩

/-- A single call that posts nothing. -/
theorem played_call {s s₁ : Supervisor ω} {e : JournalEntry} (h : M.Makes s.machine e s₁.machine)
    (hpost : s₁.post = s.post) (hsilent : Journal.posted [e] = []) : Played M s [e] s₁ := by
  refine ⟨.step h .done, ?_⟩
  rw [hpost, hsilent]
  rfl

/-- An action that makes a call, enters it, and goes on from there. -/
theorem does_played_call {act rest : Supervised ω α} {s : Supervisor ω} {e : JournalEntry}
    (s₁ : Supervisor ω) (hrest : Faithful M rest) (hrun : act.run s = rest.run s₁)
    (hjournal : s₁.journal = s.journal ++ [e]) (hcall : Played M s [e] s₁) :
    Does act s fun _ j s' => Played M s j s' := by
  obtain ⟨j, hj, hplayed⟩ := hrest s₁
  rw [← hrun] at hj hplayed
  refine ⟨e :: j, ?_, hcall.append hplayed⟩
  rw [hj, hjournal, List.append_assoc]
  rfl

theorem served_faithful {call : ω → Served α × ω} {entry : α → JournalEntry}
    (h : ∀ w, M.Makes w (entry (call w).1.result) (call w).2)
    (hsilent : ∀ r, Journal.posted [entry r] = []) :
    Faithful M (do
      let served ← ask call
      enter (entry served.result)
      sayAll served.printed
      return served.result) := by
  intro s
  have hrest : Faithful M (do
      sayAll (call s.machine).1.printed
      return (call s.machine).1.result) :=
    (sayAll_faithful M _).bind fun _ => .pure _
  exact does_played_call M { s with
    machine := (call s.machine).2
    journal := s.journal ++ [entry (call s.machine).1.result] } hrest rfl rfl
    (played_call M (h s.machine) rfl (hsilent _))

theorem interpret_faithful : Faithful M (interpret M id code) :=
  served_faithful M (fun _ => .interpreted id code) fun _ => rfl

theorem send_faithful : Faithful M (send M id code) :=
  served_faithful M (fun _ => .sent id code) fun _ => rfl

theorem shutDown_faithful : Faithful M (shutDown M id) :=
  (setSession_faithful M none).bind fun _ =>
    served_faithful M (fun _ => .quit id) fun _ => rfl

theorem launch_faithful : Faithful M (launch M) := by
  intro s
  let id : SessionId := ⟨s.launches⟩
  let served := (M.launch id s.machine).1
  have hrest : Faithful M (do
      sayAll served.printed
      if served.result.isOk then
        modify fun s => { s with session := some id }
      return served.result) := by
    refine (sayAll_faithful M _).bind fun _ => ?_
    dsimp only
    split
    · exact (setSession_faithful M (some id)).bind fun _ => .pure _
    · exact .pure _
  exact does_played_call M { s with
    machine := (M.launch id s.machine).2
    launches := s.launches + 1
    journal := s.journal ++ [.launched id served.result] } hrest rfl rfl
    (played_call M (.launched id) rfl rfl)

/-! ## Operations -/

theorem liveSession_faithful : Faithful M (liveSession M) := by
  unfold liveSession
  refine .get_bind fun s => ?_
  split
  next => exact .pure none
  next id _ =>
    refine (probe_faithful M id).bind fun alive => ?_
    cases alive with
    | true => exact .pure (some id)
    | false =>
      refine (say_faithful M _).bind fun _ => (release_faithful M id).bind fun _ => ?_
      exact .pure none

theorem status_faithful : Faithful M (status M) := by
  unfold status
  refine (liveSession_faithful M).bind fun o => ?_
  cases o with
  | none => exact .pure _
  | some id => exact .pure _

theorem evaluate_faithful : Faithful M (evaluate M code) := by
  unfold evaluate
  refine (liveSession_faithful M).bind fun o => ?_
  cases o with
  | none => exact .pure _
  | some id =>
    refine (interpret_faithful M id code).bind fun r => ?_
    split
    · exact .pure _
    · exact (release_faithful M id).bind fun _ => .pure _
    · exact .pure _

theorem evaluateDetached_faithful : Faithful M (evaluateDetached M code) := by
  unfold evaluateDetached
  refine (liveSession_faithful M).bind fun o => ?_
  cases o with
  | none => exact .pure _
  | some id => exact (send_faithful M id code).bind fun _ => .pure _

theorem hush_faithful : Faithful M (hush M) := by
  unfold hush
  refine (liveSession_faithful M).bind fun o => ?_
  cases o with
  | none => exact (say_faithful M _).bind fun _ => .pure _
  | some id => exact evaluate_faithful M _

theorem bootServer_speaks : Speaks M (bootServer M) := by
  unfold bootServer
  apply Speaks.bind (liveSession_faithful M)
  intro o
  cases o with
  | none => exact say_speaks M _ (.pure _)
  | some id =>
    apply Speaks.get_bind
    intro s
    dsimp only
    split
    · exact .bind (say_faithful M _) fun _ => .ok _
    apply Speaks.bind (say_faithful M _)
    intro _
    apply Speaks.bind (evaluate_faithful M _)
    intro r
    cases r with
    | error e => exact say_speaks M _ ((say_faithful M _).bind fun _ => .pure _)
    | ok result =>
      have hup : Speaks M (do
          modify fun s : Supervisor ω => { s with serverRunning := true }
          say "Successfully booted scsynth"
          return .ok .started : Supervised ω (Except SessionError Lifecycle)) :=
        .bind (setServer_faithful M true) fun _ => .bind (say_faithful M _) fun _ => .ok _
      dsimp only
      split
      · exact hup
      · exact .bind (say_faithful M _) fun _ => hup

theorem quitServer_speaks : Speaks M (quitServer M) := by
  unfold quitServer
  apply Speaks.get_bind
  intro s
  split
  · apply Speaks.bind (evaluate_faithful M _)
    intro r
    apply Speaks.bind (setServer_faithful M false)
    intro _
    cases r with
    | ok => exact .ok _
    | error e => exact say_speaks M _ (.pure _)
  · exact .ok _

theorem toggleServer_speaks : Speaks M (toggleServer M) := by
  unfold toggleServer
  apply Speaks.get_bind
  intro s
  split
  · exact quitServer_speaks M
  · exact bootServer_speaks M

/-- An audio server that does not boot is no failure of the start. -/
theorem bootOnStart_speaks : Speaks M (bootOnStart M) := by
  unfold bootOnStart
  apply Speaks.get_bind
  intro s
  dsimp only
  split
  · exact .bind (bootServer_speaks M).faithful fun _ => .ok _
  · exact .ok _

theorem start_speaks : Speaks M (start M) := by
  unfold start
  apply Speaks.bind (status_faithful M)
  intro st
  cases st with
  | running => exact .bind (say_faithful M _) fun _ => .ok _
  | stopped =>
    apply Speaks.bind (say_faithful M _)
    intro _
    apply Speaks.bind (launch_faithful M)
    intro r
    cases r with
    | error e => exact say_speaks M _ ((say_faithful M _).bind fun _ => .pure _)
    | ok => exact .bind (say_faithful M _) fun _ => bootOnStart_speaks M

theorem stopped_speaks (result : Except EvalError Unit) : Speaks M (stopped result) := by
  unfold stopped
  apply Speaks.bind (setServer_faithful M false)
  intro _
  cases result with
  | ok => exact .bind (say_faithful M _) fun _ => .ok _
  | error e => exact say_speaks M _ (.pure _)

theorem shutDownSession_speaks : Speaks M (shutDownSession M) := by
  unfold shutDownSession
  apply Speaks.get_bind
  intro s
  split
  · exact .bind (shutDown_faithful M _) fun r => stopped_speaks M r
  · exact stopped_speaks M _

theorem stop_speaks : Speaks M (stop M) := by
  rw [stop_eq]
  apply Speaks.bind (status_faithful M)
  intro st
  cases st with
  | stopped => exact .ok _
  | running =>
    apply Speaks.get_bind
    intro s
    dsimp only
    split
    · exact .bind (quitServer_speaks M).faithful fun _ => shutDownSession_speaks M
    · exact shutDownSession_speaks M

theorem toggle_speaks : Speaks M (toggle M) := by
  unfold toggle
  apply Speaks.bind (status_faithful M)
  intro st
  cases st with
  | stopped => exact start_speaks M
  | running => exact stop_speaks M

theorem finish_faithful : Faithful M (finish M) := by
  unfold finish
  refine .get_bind fun s => ?_
  split
  · exact (shutDown_faithful M _).bind fun _ => .pure _
  · exact .pure _

theorem finish_honest : Honest M (finish M) := (finish_faithful M).honest

end Supervisor
end Livecode
