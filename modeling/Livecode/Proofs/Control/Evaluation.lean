import Livecode.Interpreter.Process
import Livecode.Proofs.Control.Publication
import Mathlib.Logic.Function.Iterate

/-!
# Evaluations

Sound code comes to the interpreter in two ways: an evaluation waits for the result, or the code is
sent and the result is left to the post window. On either way the session is looked at up to twice,
and between the two looks the code to evaluate is chosen; the session may be found dead at either
look, and the choice may fail. So much is said of both ways at once (`Conducted`), and what the
commands have in common or tell by their outcome is read off from that.

What matters of a journal here are its *demands*: what was asked of an interpreter apart from
whether it still runs.

## Main results

* `evaluate_does`, `evaluateDetached_does` — how the two ways go.
* `evaluate_evaluateDetached_same_code` — they choose the same code.
* `evaluates_demanded` — what the outcome of an evaluation tells.
-/

namespace Livecode

variable {ω σ : Type}

/-! ## Demands -/

/-- An interpreter was asked to start, to evaluate code, or to quit. -/
def JournalEntry.isDemand : JournalEntry → Bool
  | .launched .. | .interpreted .. | .sent .. | .quit .. => true
  | _ => false

namespace Journal

/-- What was demanded of interpreters. -/
def demands (j : Journal) : Journal := j.filter (·.isDemand)

@[simp] theorem demands_append (i j : Journal) : demands (i ++ j) = demands i ++ demands j :=
  List.filter_append ..

theorem demands_eq_nil {j : Journal} : j.demands = [] ↔ ∀ e ∈ j, e.isDemand = false := by
  simp [demands]

theorem Said.demands {j : Journal} (h : j.Said) : j.demands = [] := by
  apply demands_eq_nil.mpr
  intro e he
  obtain ⟨t, rfl⟩ := h e he
  rfl

/-- A look, a demand, and what else came of it. -/
theorem demands_of_handed {id : SessionId} {d : JournalEntry} {k : Journal} (hd : d.isDemand = true)
    (hk : k.demands = []) : demands (.probed id true :: d :: k) = [d] := by
  show List.filter _ (d :: k) = [d]
  rw [List.filter_cons_of_pos hd]
  exact congrArg (d :: ·) hk

theorem demands_report (r : Except CommandError Outcome) : (report r).demands = [] := by
  cases r with
  | ok o => rfl
  | error e =>
    unfold report
    dsimp only
    split <;> rfl

/-- Nothing has happened yet but that the session was found running and that scopes were asked
for. -/
def Calm (session : Option SessionId) (j : Journal) : Prop :=
  ∀ e ∈ j, e = .classified ∨ ∃ id, session = some id ∧ e = .probed id true

/-- A look finds the session dead, before anything else has happened. -/
def FoundDead (id : SessionId) (j : Journal) : Prop :=
  ∃ i k, j = i ++ .probed id false :: k ∧ Calm (some id) i

variable {session : Option SessionId} {id : SessionId} {i j : Journal}

theorem calm_nil : Calm session [] := nofun

theorem calm_alive (h : session = some id) : Calm session [.probed id true] := by
  intro e he
  exact .inr ⟨id, h, List.mem_singleton.mp he⟩

theorem calm_classified : Calm session [.classified] := by
  intro e he
  exact .inl (List.mem_singleton.mp he)

theorem Calm.append (hi : Calm session i) (hj : Calm session j) : Calm session (i ++ j) :=
  List.forall_mem_append.mpr ⟨hi, hj⟩

theorem Calm.demands (h : Calm session j) : j.demands = [] := by
  apply demands_eq_nil.mpr
  intro e he
  rcases h e he with rfl | ⟨id, -, rfl⟩
  · rfl
  · rfl

theorem FoundDead.after (h : FoundDead id j) (hi : Calm (some id) i) : FoundDead id (i ++ j) := by
  obtain ⟨i', k, rfl, hi'⟩ := h
  exact ⟨i ++ i', k, (List.append_assoc ..).symm, hi.append hi'⟩

theorem FoundDead.append (h : FoundDead id i) (j : Journal) : FoundDead id (i ++ j) := by
  obtain ⟨i', k, rfl, hi'⟩ := h
  exact ⟨i', k ++ j, List.append_assoc .., hi'⟩

end Journal

/-! ## Looks -/

/-- The process of a session runs, and will be found running as often as it is looked at. -/
def Machine.StaysAlive (M : Machine ω) (id : SessionId) (w : ω) : Prop :=
  ∀ n, (M.isAlive id ((fun w => (M.isAlive id w).2)^[n] w)).1 = true

theorem Machine.StaysAlive.next {M : Machine ω} {id : SessionId} {w : ω} (h : M.StaysAlive id w) :
    M.StaysAlive id (M.isAlive id w).2 := fun n => h (n + 1)

/-- A machine on which every request succeeds. A session is found running for so many looks, or for
ever. -/
def Machine.mortal : Machine (Option Nat) where
  launch _ looks := (⟨.ok (), []⟩, looks)
  isAlive _ looks := (decide (looks ≠ some 0), looks.map (· - 1))
  interpret _ _ looks := (⟨.ok "7", []⟩, looks)
  send _ _ looks := (⟨.ok (), []⟩, looks)
  quit _ looks := (⟨.ok (), []⟩, looks)
  release _ looks := looks

theorem Machine.mortal_staysAlive (id : SessionId) : Machine.mortal.StaysAlive id none := by
  have hsame (n : Nat) : (fun looks => (Machine.mortal.isAlive id looks).2)^[n] none = none :=
    Function.iterate_fixed rfl n
  intro n
  rw [hsame n]
  rfl

namespace Studio

variable {S : Studio ω σ} {x x' : Setting ω σ} {id : SessionId}

/-- A look is answered by the machine. -/
theorem Makes.of_probed {alive : Bool} (h : S.Makes x (.probed id alive) x') :
    (S.machine.isAlive id x.machine).1 = alive ∧
      x'.machine = (S.machine.isAlive id x.machine).2 := by
  cases h with
  | onMachine _ hmake =>
    cases hmake
    exact ⟨rfl, rfl⟩

theorem Makes.machine_of_classified (h : S.Makes x .classified x') : x'.machine = x.machine := by
  cases h with
  | onMachine _ hmake => cases hmake
  | classified => rfl

/-- A session that stays alive is not found dead. -/
theorem Replays.not_foundDead {j : Journal} (h : S.Replays x j x')
    (halive : S.machine.StaysAlive id x.machine) : ¬ j.FoundDead id := by
  rintro ⟨i, k, rfl, hcalm⟩
  induction i generalizing x with
  | nil =>
    cases h with
    | step hmake _ =>
      have hdead : (S.machine.isAlive id x.machine).1 = false := hmake.of_probed.1
      cases hdead.symm.trans (halive 0)
  | cons e i ih =>
    obtain ⟨he, hrest⟩ := List.forall_mem_cons.mp hcalm
    cases h with
    | step hmake hreplays =>
      refine ih ?_ hrest hreplays
      rcases he with rfl | ⟨id', hid, rfl⟩
      · rw [hmake.machine_of_classified]
        exact halive
      · obtain rfl := Option.some.inj hid
        rw [hmake.of_probed.2]
        exact halive.next

end Studio

/-! ## The choice of code -/

/-- What sound code there is to evaluate: the selected text as it is, or the region at a mere
cursor. Without a cursor there is none. -/
def soundCode (k : Classifier) (b : Buffer) : Option Selection → Except CommandError Text
  | none => .error .noRegion
  | some s =>
    if s.isEmpty then
      match Region.extract? k b s.active with
      | .error e => .error (.noScopes e)
      | .ok none => .error .noRegion
      | .ok (some r) => .ok (r.text b)
    else .ok (b.selectedText s)

/-- Only a missing region and missing scopes stand in the way. -/
theorem soundCode_error {k : Classifier} {b : Buffer} {selection : Option Selection}
    {e : CommandError} (h : soundCode k b selection = .error e) :
    e = .noRegion ∨ ∃ cause, e = .noScopes cause := by
  cases selection with
  | none => exact .inl (Except.error.inj h).symm
  | some s =>
    unfold soundCode at h
    dsimp only at h
    split at h
    · split at h
      next cause _ => exact .inr ⟨cause, (Except.error.inj h).symm⟩
      next => exact .inl (Except.error.inj h).symm
      next => cases h
    · cases h

/-! ## How an evaluation goes -/

/-- Whether the result of an evaluation is waited for. -/
inductive Manner where
  | waiting
  | detached

/-- What comes of handing code to a session: the result of the command, and the demand. -/
inductive Handover (id : SessionId) (code : Text) :
    Manner → Except CommandError Outcome → JournalEntry → Prop
  | evaluated (a : Text) :
      Handover id code .waiting (.ok (.evaluated (Text.trim a))) (.interpreted id code (.ok a))
  | failed (e : EvalError) :
      Handover id code .waiting (.error (.evaluation e.message)) (.interpreted id code (.error e))
  | sent : Handover id code .detached (.ok .sent) (.sent id code (.ok ()))
  | unsent (e : EvalError) :
      Handover id code .detached (.error (.evaluation e.message)) (.sent id code (.error e))

/-- How an evaluation of sound code goes, with its result and its effects. -/
inductive Conducted (session : Option SessionId) (found : Except CommandError Text) (m : Manner) :
    Except CommandError Outcome → Journal → Prop
  | unattended {j : Journal} : (∀ id, session = some id → j.FoundDead id) → j.demands = [] →
      Conducted session found m (.error .noSession) j
  | nothing {e : CommandError} {j : Journal} : found = .error e → j.Calm session →
      Conducted session found m (.error e) j
  | handed {id : SessionId} {code : Text} {r : Except CommandError Outcome} {d : JournalEntry}
      {j : Journal} : session = some id → found = .ok code → Handover id code m r d →
      j.demands = [d] → Conducted session found m r j

theorem Conducted.after {session : Option SessionId} {found : Except CommandError Text} {m : Manner}
    {r : Except CommandError Outcome} {i j : Journal} (h : Conducted session found m r j)
    (hi : i.Calm session) : Conducted session found m r (i ++ j) := by
  cases h with
  | unattended hdead hnone =>
    refine .unattended ?_ ?_
    · intro id hid
      rw [hid] at hi
      exact (hdead id hid).after hi
    · rw [Journal.demands_append, hi.demands, hnone, List.append_nil]
  | nothing hfound hj => exact .nothing hfound (hi.append hj)
  | handed hid hfound hanswer hone =>
    refine .handed hid hfound hanswer ?_
    rw [Journal.demands_append, hi.demands, hone, List.nil_append]

namespace Supervisor

variable {s s' : Standing} {j : Journal}

theorem Looked.unattended (h : Looked s none j s') :
    (∀ id, s.session = some id → j.FoundDead id) ∧ j.demands = [] := by
  cases h with
  | absent hnone =>
    refine ⟨?_, rfl⟩
    intro id hid
    cases hnone.symm.trans hid
  | dead hdead =>
    refine ⟨?_, rfl⟩
    intro id hid
    obtain rfl := Option.some.inj (hdead.symm.trans hid)
    exact ⟨[], _, rfl, Journal.calm_nil⟩

end Supervisor

theorem EvalError.toCommandError (e : EvalError) :
    e.toSessionError.toCommandError = .evaluation e.message := by
  cases e <;> rfl

namespace Controller

open Controlled Supervisor

variable {S : Studio ω σ} {c : Controller ω σ}

/-- Evaluating given code, and waiting for the result. -/
theorem evaluateCode_does (code : Text) : Does S (evaluateCode S code) c fun r j _ =>
    Conducted c.supervisor.session (.ok code) .waiting r j := by
  unfold evaluateCode
  apply (supervised_does S c (evaluate_faithful S.machine code)
    (evaluate_does S.machine _ code)).bind
  rintro r i c₁ ⟨heval, -⟩
  generalize c₁.supervisor.standing = st at heval
  cases heval with
  | absent hlook =>
    obtain ⟨hdead, hnone⟩ := hlook.unattended
    apply Does.pure
    rw [List.append_nil]
    exact .unattended hdead hnone
  | @answered id k r hid hk hr =>
    cases r with
    | error e =>
      apply Does.pure
      rw [e.toCommandError, List.append_nil]
      exact .handed hid rfl (.failed e) (Journal.demands_of_handed rfl hk.demands)
    | ok a =>
      have hone : Journal.demands (.probed id true :: .interpreted id code (.ok a) :: k) =
          [.interpreted id code (.ok a)] := Journal.demands_of_handed rfl hk.demands
      dsimp only [reply, Except.map, Except.mapError]
      split
      · apply Does.pure
        rw [List.append_nil]
        exact .handed hid rfl (.evaluated a) hone
      · apply (say_does S c₁ (Text.trim a)).bind
        rintro _ _ c₂ rfl
        apply Does.pure
        refine .handed hid rfl (.evaluated a) ?_
        rw [List.append_nil, Journal.demands_append, hone]
        rfl
  | @lost id k hid hk =>
    have hrest : Journal.demands (k ++ [.released id]) = [] := by
      rw [Journal.demands_append, hk.demands]
      rfl
    apply Does.pure
    rw [List.append_nil]
    exact .handed hid rfl (.failed .disconnected) (Journal.demands_of_handed rfl hrest)

/-- Sending given code. -/
theorem sendCode_does (code : Text) : Does S (do
    match ← supervised (Supervisor.evaluateDetached S.machine code) with
    | .error e => return .error e.toCommandError
    | .ok () => return .ok .sent) c fun r j _ =>
      Conducted c.supervisor.session (.ok code) .detached r j := by
  apply (supervised_does S c (evaluateDetached_faithful S.machine code)
    (evaluateDetached_does S.machine _ code)).bind
  rintro r i c₁ ⟨hsend, -⟩
  generalize c₁.supervisor.standing = st at hsend
  cases hsend with
  | absent hlook =>
    obtain ⟨hdead, hnone⟩ := hlook.unattended
    apply Does.pure
    rw [List.append_nil]
    exact .unattended hdead hnone
  | @handed id k r hid hk =>
    cases r with
    | error e =>
      apply Does.pure
      rw [e.toCommandError, List.append_nil]
      exact .handed hid rfl (.unsent e) (Journal.demands_of_handed rfl hk.demands)
    | ok =>
      apply Does.pure
      rw [List.append_nil]
      exact .handed hid rfl .sent (Journal.demands_of_handed rfl hk.demands)

/-- Whether there is a session is found out without any demand. -/
theorem requireSession_does : Does S (requireSession S) c fun r j c' =>
    (r = .error .noSession ∧ (∀ id, c.supervisor.session = some id → j.FoundDead id) ∧
      j.demands = []) ∨
    (r = .ok () ∧ j.Calm c.supervisor.session ∧
      c'.supervisor.session = c.supervisor.session) := by
  unfold requireSession
  apply (supervised_does S c (status_faithful S.machine) (status_does S.machine _)).bind
  rintro _ i c₁ ⟨⟨o, hlook, rfl⟩, -⟩
  cases o with
  | none =>
    obtain ⟨hdead, hnone⟩ := hlook.unattended
    apply Does.pure
    rw [List.append_nil]
    exact .inl ⟨rfl, hdead, hnone⟩
  | some id =>
    obtain ⟨hid, rfl, hsame⟩ := hlook.of_some
    apply Does.pure
    exact .inr ⟨rfl, Journal.calm_alive hid, congrArg Standing.session hsame⟩

/-- The region at a mere cursor. -/
theorem regionCode_does (text : Text) {s : Selection} (h : s.isEmpty = true) :
    Does S (regionCode S text s.active) c fun r j c' =>
      r = soundCode S.classifier (.ofText text) (some s) ∧ j.Calm c.supervisor.session ∧
        c'.supervisor.session = c.supervisor.session := by
  unfold regionCode soundCode
  apply (classified_does S c).bind
  rintro _ _ c₁ ⟨rfl, hsame⟩
  have hsession : c₁.supervisor.session = c.supervisor.session :=
    congrArg Standing.session hsame
  simp only [h, if_true]
  cases Region.extract? S.classifier (.ofText text) s.active with
  | error e => exact .pure ⟨rfl, Journal.calm_classified, hsession⟩
  | ok o =>
    cases o with
    | none => exact .pure ⟨rfl, Journal.calm_classified, hsession⟩
    | some r => exact .pure ⟨rfl, Journal.calm_classified, hsession⟩

theorem chosenCode_does (text : Text) (selection : Option Selection) :
    Does S (chosenCode S text selection) c fun r j c' =>
      r = soundCode S.classifier (.ofText text) selection ∧ j.Calm c.supervisor.session ∧
        c'.supervisor.session = c.supervisor.session := by
  cases selection with
  | none => exact .pure ⟨rfl, Journal.calm_nil, rfl⟩
  | some s =>
    by_cases hempty : s.isEmpty = true
    · have hregion : chosenCode S text (some s) = regionCode S text s.active := if_pos hempty
      rw [hregion]
      exact regionCode_does text hempty
    · have hselected : chosenCode S text (some s) =
          pure (.ok ((Buffer.ofText text).selectedText s)) := if_neg hempty
      rw [hselected]
      exact .pure ⟨(if_neg hempty).symm, Journal.calm_nil, rfl⟩

/-- Code is looked for in a session and handed to it. -/
theorem inSession_does {find : Controlled ω σ (Except CommandError Text)}
    {hand : Text → Controlled ω σ (Except CommandError Outcome)}
    {found : Except CommandError Text} {m : Manner}
    (hfind : ∀ c, Does S find c fun r j c' => r = found ∧ j.Calm c.supervisor.session ∧
      c'.supervisor.session = c.supervisor.session)
    (hhand : ∀ c code, Does S (hand code) c fun r j _ =>
      Conducted c.supervisor.session (.ok code) m r j) : Does S (do
    match ← requireSession S with
    | .error e => return .error e
    | .ok () =>
      match ← find with
      | .error e => return .error e
      | .ok code => hand code) c fun r j _ => Conducted c.supervisor.session found m r j := by
  apply requireSession_does.bind
  rintro _ i c₁ (⟨rfl, hdead, hnone⟩ | ⟨rfl, hcalm, hsession⟩)
  · apply Does.pure
    rw [List.append_nil]
    exact .unattended hdead hnone
  apply (hfind c₁).bind
  rintro r i' c₂ ⟨rfl, hcalm', hsession'⟩
  rw [hsession] at hcalm'
  cases r with
  | error e =>
    apply Does.pure
    rw [List.append_nil]
    exact .nothing rfl (hcalm.append hcalm')
  | ok code =>
    apply (hhand c₂ code).imp
    intro r j _ hconducted
    rw [hsession', hsession] at hconducted
    exact (hconducted.after hcalm').after hcalm

/-- A command about sound code reports how its evaluation has gone. -/
def Concluded (session : Option SessionId) (found : Except CommandError Text) (m : Manner)
    (o : Outcome) (j : Journal) : Prop :=
  ∃ r k, o = .ofResult r ∧ j = k ++ .report r ∧ Conducted session found m r k

theorem concluded_handling {act : Controlled ω σ (Except CommandError Outcome)}
    {found : Except CommandError Text} {m : Manner} (hactive : c.active = true)
    (h : ∀ c, Does S act c fun r j _ => Conducted c.supervisor.session found m r j) :
    Does S (handling .superCollider act) c fun o j _ =>
      Concluded c.supervisor.session found m o j := by
  apply handling_does hactive (h _)
  intro r k c₁ hconducted
  rw [supervisor_setActivity] at hconducted
  apply (settle_does S _ r).imp
  rintro _ _ _ ⟨rfl, rfl⟩
  exact ⟨r, k, rfl, rfl, hconducted⟩

/-- An evaluation that waits for its result. -/
theorem evaluate_does (text : Text) (selection : Option Selection) (hactive : c.active = true) :
    Does S (dispatch S (.evaluate text selection)) c fun o j _ =>
      Concluded c.supervisor.session (soundCode S.classifier (.ofText text) selection) .waiting
        o j := by
  cases selection with
  | none =>
    apply concluded_handling hactive
    intro c
    exact .pure (.nothing rfl Journal.calm_nil)
  | some s =>
    by_cases hempty : s.isEmpty = true
    · have hregion : dispatch S (.evaluate text (some s)) = evaluateRegion S text s.active :=
        if_pos hempty
      rw [hregion]
      apply concluded_handling hactive
      intro c
      exact inSession_does (fun c => regionCode_does text hempty) fun c => evaluateCode_does
    · have hselected : dispatch S (.evaluate text (some s)) =
          handling .superCollider (evaluateCode S ((Buffer.ofText text).selectedText s)) :=
        if_neg hempty
      have hfound : soundCode S.classifier (.ofText text) (some s) =
          .ok ((Buffer.ofText text).selectedText s) := if_neg hempty
      rw [hselected, hfound]
      exact concluded_handling hactive fun c => evaluateCode_does _

/-- An evaluation at a cursor is one with nothing selected there. -/
theorem evaluateRegion_eq (text : Text) {s : Selection} {cursor : Position}
    (h : s.isEmpty = true) (hcursor : s.active = cursor) :
    dispatch S (.evaluateRegion text cursor) = dispatch S (.evaluate text (some s)) := by
  rw [← hcursor]
  exact (if_pos h).symm

/-- An evaluation that does not wait. -/
theorem evaluateDetached_does (text : Text) (selection : Option Selection)
    (hactive : c.active = true) :
    Does S (dispatch S (.evaluateDetached text selection)) c fun o j _ =>
      Concluded c.supervisor.session (soundCode S.classifier (.ofText text) selection) .detached
        o j := by
  apply concluded_handling hactive
  intro c
  exact inSession_does (fun c => chosenCode_does text selection) fun c => sendCode_does

/-! ## Both ways -/

variable {o : Outcome} {j : Journal} {m : Manner} {found : Except CommandError Text}

/-- An evaluation in a session that stays alive comes to nothing only if no code was found. -/
theorem Concluded.of_staysAlive {c' : Controller ω σ} {id : SessionId}
    (h : Concluded c.supervisor.session found m o j) (hrecorded : c.Recorded S j c')
    (hid : c.supervisor.session = some id)
    (halive : S.machine.StaysAlive id c.supervisor.machine) :
    (∀ code, found = .ok code → ∃ r d, Handover id code m r d ∧ j.demands = [d]) ∧
      ∀ e, found = .error e → o = .ofResult (.error e) ∧ j.demands = [] := by
  obtain ⟨r, k, rfl, rfl, hconducted⟩ := h
  rw [Journal.demands_append, Journal.demands_report, List.append_nil]
  cases hconducted with
  | unattended hdead _ =>
    have hnever := hrecorded.replays.not_foundDead halive
    exact absurd ((hdead id hid).append _) hnever
  | nothing hfound hcalm =>
    rw [hfound]
    refine ⟨nofun, ?_⟩
    rintro _ ⟨rfl⟩
    exact ⟨rfl, hcalm.demands⟩
  | handed hid' hfound hanswer hone =>
    obtain rfl := Option.some.inj (hid.symm.trans hid')
    rw [hfound]
    refine ⟨?_, nofun⟩
    rintro _ ⟨rfl⟩
    exact ⟨_, _, hanswer, hone⟩

/-- A controller of an environment that is started, with a session that will be found running for so
many looks. -/
def attended (looks : Option Nat) : Controller (Option Nat) Audience :=
  { supervisor := { Supervisor.fresh looks default false with session := some ⟨0⟩ }
    outlet := .empty
    active := true
    visual := .idle
    sound := .idle }

/-- **Waiting and detached evaluation choose the same code.** Let a session be held that stays
alive. From one state, the two either both hand that session the same code, once, and demand nothing
else; or there is no region for either; or both are rejected since the same scopes are missing; and
then neither demands anything. Where nothing is selected, evaluating the region at the cursor is the
same as evaluating. -/
theorem evaluate_evaluateDetached_same_code (S : Studio ω σ) (c : Controller ω σ) (text : Text)
    (selection : Option Selection) (id : SessionId) (hactive : c.active = true)
    (hid : c.supervisor.session = some id)
    (halive : S.machine.StaysAlive id c.supervisor.machine) :
    let waiting := (dispatch S (.evaluate text selection)).run c
    let detached := (dispatch S (.evaluateDetached text selection)).run c
    (∃ j j', c.Recorded S j waiting.2 ∧ c.Recorded S j' detached.2 ∧
      ((∃ code a a', soundCode S.classifier (.ofText text) selection = .ok code ∧
          j.demands = [.interpreted id code a] ∧ j'.demands = [.sent id code a']) ∨
        (waiting.1 = .noRegion ∧ detached.1 = .noRegion ∧ j.demands = [] ∧ j'.demands = []) ∨
        ∃ cause, waiting.1 = .rejected (.noScopes cause) ∧
          detached.1 = .rejected (.noScopes cause) ∧ j.demands = [] ∧ j'.demands = [])) ∧
      ∀ s, selection = some s → s.isEmpty = true →
        (dispatch S (.evaluateRegion text s.active)).run c = waiting := by
  intro waiting detached
  obtain ⟨j, hj, hwaiting⟩ := evaluate_does (S := S) text selection hactive
  obtain ⟨j', hj', hdetached⟩ := evaluateDetached_does (S := S) text selection hactive
  constructor
  · refine ⟨j, j', hj, hj', ?_⟩
    obtain ⟨hcode, herror⟩ := hwaiting.of_staysAlive hj hid halive
    obtain ⟨hcode', herror'⟩ := hdetached.of_staysAlive hj' hid halive
    cases hfound : soundCode S.classifier (.ofText text) selection with
    | ok code =>
      obtain ⟨r, d, hanswer, hone⟩ := hcode code hfound
      obtain ⟨r', d', hanswer', hone'⟩ := hcode' code hfound
      obtain ⟨a, rfl⟩ : ∃ a, d = .interpreted id code a := by cases hanswer <;> exact ⟨_, rfl⟩
      obtain ⟨a', rfl⟩ : ∃ a, d' = .sent id code a := by cases hanswer' <;> exact ⟨_, rfl⟩
      exact .inl ⟨code, a, a', rfl, hone, hone'⟩
    | error e =>
      obtain ⟨ho, hnone⟩ := herror e hfound
      obtain ⟨ho', hnone'⟩ := herror' e hfound
      rcases soundCode_error hfound with rfl | ⟨cause, rfl⟩
      · exact .inr (.inl ⟨ho, ho', hnone, hnone'⟩)
      · exact .inr (.inr ⟨cause, ho, ho', hnone, hnone'⟩)
  · intro s hs hempty
    have hsame := evaluateRegion_eq (S := S) text hempty rfl
    rw [hsame, ← hs]

/-- The cursor is on the second line of a region. -/
theorem evaluate_evaluateDetached_in_region :
    let S : Studio (Option Nat) Audience := ⟨.mortal, .audience, .scanning, .localFiles⟩
    let c := attended none
    let s := Selection.caret ⟨1, 0⟩
    S.machine.StaysAlive ⟨0⟩ c.supervisor.machine ∧
      ∃ j j' a a', c.Recorded S j ((dispatch S (.evaluate "(\n3 + 4\n)" (some s))).run c).2 ∧
        c.Recorded S j' ((dispatch S (.evaluateDetached "(\n3 + 4\n)" (some s))).run c).2 ∧
        j.demands = [.interpreted ⟨0⟩ "(\n3 + 4\n)" a] ∧
        j'.demands = [.sent ⟨0⟩ "(\n3 + 4\n)" a'] := by
  intro S c s
  have halive : S.machine.StaysAlive ⟨0⟩ c.supervisor.machine := Machine.mortal_staysAlive ⟨0⟩
  have hfound : soundCode S.classifier (.ofText "(\n3 + 4\n)") (some s) = .ok "(\n3 + 4\n)" := by
    decide
  have houtcome : ((dispatch S (.evaluate "(\n3 + 4\n)" (some s))).run c).1 = .evaluated "7" := by
    decide
  obtain ⟨⟨j, j', hj, hj', hsame⟩, -⟩ := evaluate_evaluateDetached_same_code S c "(\n3 + 4\n)"
    (some s) ⟨0⟩ rfl rfl halive
  refine ⟨halive, j, j', ?_⟩
  rcases hsame with ⟨code, a, a', hcode, hone, hone'⟩ | ⟨hsilent, -⟩ | ⟨cause, hrejected, -⟩
  · obtain rfl := Except.ok.inj (hfound.symm.trans hcode)
    exact ⟨a, a', hj, hj', hone, hone'⟩
  · cases houtcome.symm.trans hsilent
  · cases houtcome.symm.trans hrejected

end Controller

/-! ## What the outcome tells -/

/-- The commands that evaluate something. -/
def Command.evaluates : Command → Bool
  | .evaluateStatements .. | .evaluate .. | .evaluateRegion .. | .evaluateDetached .. => true
  | _ => false

/-- What an evaluation has demanded of interpreters, by its outcome. -/
inductive Outcome.Demanded : Outcome → Journal → Prop
  | published (count : Nat) : Demanded (.published count) []
  | noRegion : Demanded .noRegion []
  | notReady : Demanded (.rejected .notReady) []
  | noSession : Demanded (.rejected .noSession) []
  | noScopes (cause : ScopeError) : Demanded (.rejected (.noScopes cause)) []
  | evaluated (id : SessionId) (code a : Text) :
      Demanded (.evaluated (Text.trim a)) [.interpreted id code (.ok a)]
  | failed (id : SessionId) (code : Text) (e : EvalError) :
      Demanded (.rejected (.evaluation e.message)) [.interpreted id code (.error e)]
  | sent (id : SessionId) (code : Text) : Demanded .sent [.sent id code (.ok ())]
  | unsent (id : SessionId) (code : Text) (e : EvalError) :
      Demanded (.rejected (.evaluation e.message)) [.sent id code (.error e)]

/-- Only code to evaluate is demanded. -/
theorem Outcome.Demanded.isRequest {o : Outcome} {ds : Journal} (h : o.Demanded ds) :
    ∀ d ∈ ds, (∃ id code r, d = .interpreted id code r) ∨ ∃ id code r, d = .sent id code r := by
  intro d hd
  cases h with
  | evaluated | failed => exact .inl ⟨_, _, _, List.mem_singleton.mp hd⟩
  | sent | unsent => exact .inr ⟨_, _, _, List.mem_singleton.mp hd⟩
  | _ => cases hd

namespace Controller

open Controlled

variable {S : Studio ω σ} {c : Controller ω σ} {o : Outcome} {j : Journal} {m : Manner}

theorem Concluded.demanded {session : Option SessionId} {k : Classifier} {b : Buffer}
    {selection : Option Selection} (h : Concluded session (soundCode k b selection) m o j) :
    o.Demanded j.demands := by
  obtain ⟨r, k, rfl, rfl, hconducted⟩ := h
  rw [Journal.demands_append, Journal.demands_report, List.append_nil]
  cases hconducted with
  | unattended _ hnone =>
    rw [hnone]
    exact .noSession
  | nothing hfound hcalm =>
    rw [hcalm.demands]
    rcases soundCode_error hfound with rfl | ⟨cause, rfl⟩
    · exact .noRegion
    · exact .noScopes cause
  | @handed id code _ _ _ _ _ hanswer hone =>
    rw [hone]
    cases hanswer with
    | evaluated a => exact .evaluated id code a
    | failed e => exact .failed id code e
    | sent => exact .sent id code
    | unsent e => exact .unsent id code e

/-- **The outcome of an evaluation says truly whether code reached an interpreter.** Whatever the
state, the machine, the outlet and the classifier: the outcome tells what was demanded of
interpreters, and that is one evaluation of code, or nothing at all. In particular no interpreter is
launched or quit. -/
theorem evaluates_demanded (S : Studio ω σ) (c : Controller ω σ) (cmd : Command)
    (h : cmd.evaluates = true) :
    let run := (dispatch S cmd).run c
    ∃ j, c.Recorded S j run.2 ∧ run.1.Demanded j.demands ∧
      ∀ id, (∀ r, .launched id r ∉ j) ∧ ∀ r, .quit id r ∉ j := by
  intro run
  have hdemanded : Does S (dispatch S cmd) c fun o j _ => o.Demanded j.demands := by
    cases hactive : c.active with
    | false =>
      have hlanguage : cmd.language? ≠ none := by
        apply Command.language?_ne_none
        · rintro rfl
          cases h
        · rintro rfl
          cases h
      apply Does.of_run_eq (dispatch_of_inactive S hactive hlanguage)
      apply (reject_does S c .notReady).imp
      rintro _ _ _ ⟨rfl, rfl⟩
      exact .notReady
    | true =>
      cases cmd with
      | evaluateStatements text selection =>
        apply (evaluateStatements_does text selection hactive).imp
        rintro _ j _ ⟨rfl, hentries, -, -⟩
        have hnone : j.demands = [] := by
          apply Journal.demands_eq_nil.mpr
          intro e he
          obtain ⟨st, n, rfl⟩ := hentries e he
          rfl
        rw [hnone]
        exact .published _
      | evaluate text selection =>
        exact (evaluate_does text selection hactive).imp fun _ _ _ hdone => hdone.demanded
      | evaluateRegion text cursor =>
        have hcursor : (Selection.caret cursor).active = cursor := rfl
        rw [evaluateRegion_eq text (Selection.isEmpty_caret cursor) hcursor]
        exact (evaluate_does text _ hactive).imp fun _ _ _ hdone => hdone.demanded
      | evaluateDetached text selection =>
        exact (evaluateDetached_does text selection hactive).imp fun _ _ _ hdone => hdone.demanded
      | _ => cases h
  obtain ⟨j, hj, hdone⟩ := hdemanded
  have hno (e : JournalEntry) (he : e ∈ j) (hdemand : e.isDemand = true) :=
    hdone.isRequest e (List.mem_filter.mpr ⟨he, hdemand⟩)
  refine ⟨j, hj, hdone, ?_⟩
  intro id
  constructor
  · intro r he
    rcases hno _ he rfl with ⟨_, _, _, hlaunched⟩ | ⟨_, _, _, hlaunched⟩ <;> cases hlaunched
  · intro r he
    rcases hno _ he rfl with ⟨_, _, _, hquit⟩ | ⟨_, _, _, hquit⟩ <;> cases hquit

/-- The session is found running at the first look and dead at the second one, when the region has
been found. -/
theorem evaluates_demanded_of_mortal :
    let S : Studio (Option Nat) Audience := ⟨.mortal, .audience, .scanning, .localFiles⟩
    let c := attended (some 1)
    let run := (dispatch S (.evaluateRegion "(\n3 + 4\n)" ⟨1, 0⟩)).run c
    run.1 = .rejected .noSession ∧ run.2.supervisor.session = none ∧
      ∃ j, c.Recorded S j run.2 ∧ j.demands = [] := by
  intro S c run
  have houtcome : run.1 = .rejected .noSession := by decide
  have hsession : run.2.supervisor.session = none := by decide
  obtain ⟨j, hj, hdemanded, -⟩ :=
    evaluates_demanded S c (.evaluateRegion "(\n3 + 4\n)" ⟨1, 0⟩) rfl
  refine ⟨houtcome, hsession, j, hj, ?_⟩
  rw [houtcome] at hdemanded
  generalize j.demands = ds at hdemanded ⊢
  cases hdemanded
  rfl

end Controller
end Livecode
