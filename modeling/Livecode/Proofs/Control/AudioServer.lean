import Livecode.Proofs.Control.Sessions

/-!
# The audio server over a whole run

A supervisor notes in one flag whether the audio server of its session runs. Here the flag is held
against what has happened. An effect is attributed to the order in whose course it came about,
because the same code can mean two things: a user may have `s.boot` evaluated like any other code,
and only where the supervisor evaluates it on its own account does it boot the server. A boot is *in
force* in a session from its success until the supervisor has the server killed or the session ends.

Inside an operation the flag and the history do not change at the same moment. What carries the proof
is therefore said of a history and the standing that the supervisor is about to have
(`Accounted.interpreted`), and the operations are then followed step by step.

## Main results

* `Accounted.interpreted` — what an evaluation does to the history and to the flag, by its purpose.
* `carryOut_accounts` — every order keeps the flag true to the history.
* `serverRunning_iff_inForce` — the flag in any run of orders.
-/

namespace Livecode

/-! ## Chronicles -/

/-- An effect, and the order in whose course it came about. -/
structure Incident where
  order : Order
  entry : JournalEntry

/-- Incidents, oldest first. -/
abbrev Chronicle := List Incident

namespace Incident

/-- The supervisor has a session evaluate code, and no user asked for that. -/
def Evaluates (id : SessionId) (code : Text) (r : Except EvalError Text) (x : Incident) : Prop :=
  x.entry = .interpreted id code r ∧ ∀ code', x.order ≠ .evaluate code'

/-- A boot of the audio server succeeds. -/
def Boots (id : SessionId) (x : Incident) : Prop := ∃ t, x.Evaluates id "s.boot" (.ok t)

/-- The audio server is told to quit, with or without success. -/
def Kills (id : SessionId) (x : Incident) : Prop := ∃ r, x.Evaluates id "Server.killAll" r

/-- The incident is no launch, does not end a session, and has nothing to do with the audio
server. -/
structure Plain (x : Incident) : Prop where
  not_launched : ∀ id r, x.entry ≠ .launched id r
  not_ends : ∀ id, x.entry.ends id = false
  not_boot : ∀ id r, ¬ x.Evaluates id "s.boot" r
  not_kill : ∀ id r, ¬ x.Evaluates id "Server.killAll" r

theorem not_evaluates {id : SessionId} {code : Text} {r : Except EvalError Text} {x : Incident}
    (h : ∀ id code r, x.entry ≠ .interpreted id code r) : ¬ x.Evaluates id code r :=
  fun hx => h _ _ _ hx.1

section
variable (o : Order) (id : SessionId)

theorem plain_of {e : JournalEntry} (hlaunched : ∀ id r, e ≠ .launched id r)
    (hends : ∀ id, e.ends id = false) (hinterpreted : ∀ id code r, e ≠ .interpreted id code r) :
    Plain ⟨o, e⟩ :=
  ⟨hlaunched, hends, fun _ _ => not_evaluates hinterpreted, fun _ _ => not_evaluates hinterpreted⟩

theorem plain_posted (t : Text) : Plain ⟨o, .posted t⟩ := plain_of o nofun (fun _ => rfl) nofun

theorem plain_probed (alive : Bool) : Plain ⟨o, .probed id alive⟩ :=
  plain_of o nofun (fun _ => rfl) nofun

theorem plain_sent (code : Text) (r : Except EvalError Unit) : Plain ⟨o, .sent id code r⟩ :=
  plain_of o nofun (fun _ => rfl) nofun

end

end Incident

namespace Chronicle

/-- A boot of the audio server has succeeded in the session, and since then the server has not been
told to quit and the session has not ended. -/
def InForce (c : Chronicle) (id : SessionId) : Prop :=
  ∃ i x k, c = i ++ x :: k ∧ x.Boots id ∧ ∀ y ∈ k, ¬ y.Kills id ∧ y.entry.ends id = false

/-- What may come after a chronicle: no launch and no further boot while a boot is in force. -/
structure Allows (c : Chronicle) (x : Incident) : Prop where
  launch : ∀ id r, x.entry = .launched id r → ∀ id', ¬ c.InForce id'
  boot : ∀ id r, x.Evaluates id "s.boot" r → ¬ c.InForce id

theorem inForce_concat {c : Chronicle} {x : Incident} {id : SessionId} :
    InForce (c ++ [x]) id ↔
      x.Boots id ∨ (InForce c id ∧ ¬ x.Kills id ∧ x.entry.ends id = false) := by
  constructor
  · rintro ⟨i, y, k, hsplit, hy, hk⟩
    rcases List.eq_nil_or_concat k with rfl | ⟨k', z, rfl⟩
    · obtain ⟨-, rfl⟩ := List.append_inj' hsplit rfl |>.imp_right (List.singleton_inj.mp ·)
      exact .inl hy
    · rw [List.concat_eq_append, ← List.cons_append, ← List.append_assoc] at hsplit
      obtain ⟨rfl, hz⟩ := List.append_inj' hsplit rfl
      obtain rfl := List.singleton_inj.mp hz
      refine .inr ⟨⟨i, y, k', rfl, hy, fun w hw => hk w (by simp [hw])⟩, hk x (by simp)⟩
  · rintro (hx | ⟨⟨i, y, k, rfl, hy, hk⟩, hx⟩)
    · exact ⟨c, x, [], rfl, hx, nofun⟩
    · refine ⟨i, y, k ++ [x], by simp, hy, fun w hw => ?_⟩
      rcases List.mem_append.mp hw with hw | hw
      · exact hk w hw
      · rwa [List.mem_singleton.mp hw]

end Chronicle

/-! ## The flag and the history -/

/-- A supervisor of the standing `s` may have the history `c`. -/
structure Accounted (c : Chronicle) (s : Standing) : Prop where
  inForce_iff : ∀ id, c.InForce id ↔ s.session = some id ∧ s.serverRunning = true
  idle : s.session = none → s.serverRunning = false
  allowed : ∀ i x k, c = i ++ x :: k → Chronicle.Allows i x

namespace Accounted

variable {c : Chronicle} {s s' : Standing} {x : Incident} {o : Order} {id : SessionId}

theorem nil (hdown : s.serverRunning = false) : Accounted [] s where
  inForce_iff id := by
    constructor
    · rintro ⟨i, x, k, hsplit, -⟩
      simp at hsplit
    · rintro ⟨-, hup⟩
      rw [hdown] at hup
      cases hup
  idle _ := hdown
  allowed := by simp

theorem concat (h : Accounted c s) (hx : c.Allows x) (hidle : s'.session = none →
    s'.serverRunning = false) (hforce : ∀ id, Chronicle.InForce (c ++ [x]) id ↔
      s'.session = some id ∧ s'.serverRunning = true) : Accounted (c ++ [x]) s' where
  inForce_iff := hforce
  idle := hidle
  allowed i y k hsplit := by
    rcases List.eq_nil_or_concat k with rfl | ⟨k', z, rfl⟩
    · obtain ⟨rfl, hy⟩ := List.append_inj' hsplit rfl
      rwa [← List.singleton_inj.mp hy]
    · rw [List.concat_eq_append, ← List.cons_append, ← List.append_assoc] at hsplit
      exact h.allowed i y k' (List.append_inj' hsplit rfl).1

theorem not_inForce (h : Accounted c s) (hdown : s.serverRunning = false) : ¬ c.InForce id := by
  rw [h.inForce_iff, hdown]
  simp

theorem plain (h : Accounted c s) (hx : x.Plain) : Accounted (c ++ [x]) s := by
  refine h.concat ⟨fun id r hr => absurd hr (hx.not_launched id r),
    fun id r hr => absurd hr (hx.not_boot id r)⟩ h.idle fun id => ?_
  have hboots : ¬ x.Boots id := fun ⟨t, ht⟩ => hx.not_boot id _ ht
  have hkills : ¬ x.Kills id := fun ⟨r, hr⟩ => hx.not_kill id r hr
  rw [Chronicle.inForce_concat, ← h.inForce_iff]
  simp [hboots, hkills, hx.not_ends]

/-- Where a session ends, the boot that was in force in it is no longer. -/
theorem ended (h : Accounted c s) (hid : s.session = some id) (hx : x.entry.ends id = true)
    (hsession : s'.session = none) (hdown : s'.serverRunning = false) :
    Accounted (c ++ [x]) s' := by
  have hinterpreted : ∀ id code r, x.entry ≠ .interpreted id code r := by
    rintro id' code r he
    rw [he] at hx
    cases hx
  refine h.concat ⟨?_, fun _ _ hr => absurd hr (Incident.not_evaluates hinterpreted)⟩
    (fun _ => hdown) fun id' => ?_
  · rintro id' r he
    rw [he] at hx
    cases hx
  rw [Chronicle.inForce_concat, h.inForce_iff, hid, hsession]
  constructor
  · rintro (⟨t, ht⟩ | ⟨⟨hid', -⟩, -, hends⟩)
    · exact absurd ht (Incident.not_evaluates hinterpreted)
    · obtain rfl := Option.some.inj hid'
      rw [hx] at hends
      cases hends
  · rintro ⟨hid', -⟩
    cases hid'

/-- A launch is made without a session, so no boot is in force. -/
theorem launched (h : Accounted c s) (hnone : s.session = none) {r : Except SessionError Unit}
    (hdown : s'.serverRunning = false) : Accounted (c ++ [⟨o, .launched id r⟩]) s' := by
  have hforce : ∀ id', ¬ c.InForce id' := fun id' => h.not_inForce (h.idle hnone)
  refine h.concat ⟨fun _ _ _ => hforce, fun id' _ _ => hforce id'⟩ (fun _ => hdown) fun id' => ?_
  rw [Chronicle.inForce_concat, hdown]
  simp [hforce, Incident.Boots, Incident.Evaluates]

end Accounted

/-- What the code that an order has evaluated tells of the purpose. -/
def Purpose.Fits (o : Order) (code : Text) : Purpose → Prop
  | .user => o = .evaluate code ∨ (code ≠ "s.boot".toList ∧ code ≠ "Server.killAll".toList)
  | .boot => code = "s.boot".toList ∧ ∀ code', o ≠ .evaluate code'
  | .kill => code = "Server.killAll".toList ∧ ∀ code', o ≠ .evaluate code'

namespace Accounted

variable {c : Chronicle} {s s' : Standing} {x : Incident} {o : Order} {id : SessionId}
variable {code : Text} {r : Except EvalError Text} {j : Journal}

/-- Adds an evaluation to a history, and to the standing what the flag will be once it is over. -/
theorem interpreted (h : Accounted c s) (p : Purpose) (hid : s.session = some id)
    (hp : p.Fits o code) (hboot : p = .boot → s.serverRunning = false) :
    Accounted (c ++ [⟨o, .interpreted id code r⟩]) (s.served p r.isOk) := by
  have hidle : ∀ {b : Bool}, s.session = none → b = false := fun hnone => by
    rw [hid] at hnone
    cases hnone
  cases p with
  | user =>
    refine h.plain ⟨nofun, fun _ => rfl, ?_, ?_⟩
    · rintro id' r' ⟨he, ho⟩
      rcases hp with rfl | ⟨hne, -⟩
      · exact ho code rfl
      · cases he
        exact hne rfl
    · rintro id' r' ⟨he, ho⟩
      rcases hp with rfl | ⟨-, hne⟩
      · exact ho code rfl
      · cases he
        exact hne rfl
  | boot =>
    obtain ⟨rfl, ho⟩ := hp
    have hdown := hboot rfl
    refine h.concat ⟨nofun, fun _ _ _ => h.not_inForce hdown⟩ hidle fun id' => ?_
    have hforce : ¬ c.InForce id' := h.not_inForce hdown
    rw [Chronicle.inForce_concat, or_iff_left fun hc => hforce hc.1]
    cases r with
    | ok t =>
      simp [Incident.Boots, Incident.Evaluates, ho, Standing.served, Purpose.serverAfter, hid,
        Except.isOk, Except.toBool]
    | error e =>
      simp [Incident.Boots, Incident.Evaluates, Standing.served, Purpose.serverAfter, hdown,
        Except.isOk, Except.toBool]
  | kill =>
    obtain ⟨rfl, ho⟩ := hp
    refine h.concat ⟨nofun, ?_⟩ hidle fun id' => ?_
    · rintro id' r' ⟨he, -⟩
      cases he
    rw [Chronicle.inForce_concat, h.inForce_iff, hid]
    constructor
    · rintro (⟨t, ht, -⟩ | ⟨⟨hid', -⟩, hkills, -⟩)
      · cases ht
      · obtain rfl := Option.some.inj hid'
        exact absurd ⟨r, rfl, ho⟩ hkills
    · rintro ⟨-, hup⟩
      cases hup

theorem append_cons {e : JournalEntry} (h : Accounted (c ++ [⟨o, e⟩] ++ j.map (Incident.mk o)) s) :
    Accounted (c ++ (e :: j).map (Incident.mk o)) s := by
  rwa [List.append_assoc] at h

theorem append_concat {e : JournalEntry}
    (h : Accounted (c ++ j.map (Incident.mk o) ++ [⟨o, e⟩]) s) :
    Accounted (c ++ (j ++ [e]).map (Incident.mk o)) s := by
  rwa [List.map_append, ← List.append_assoc]

theorem said (h : Accounted c s) (hj : j.Said) : Accounted (c ++ j.map (Incident.mk o)) s := by
  induction j generalizing c with
  | nil => rwa [List.map_nil, List.append_nil]
  | cons e j ih =>
    obtain ⟨⟨t, rfl⟩, hrest⟩ := Journal.said_cons.mp hj
    exact append_cons (ih (h.plain (Incident.plain_posted o t)) hrest)

theorem looked {a : Option SessionId} (h : Accounted c s) (hlook : Supervisor.Looked s a j s') :
    Accounted (c ++ j.map (Incident.mk o)) s' := by
  cases hlook with
  | absent => rwa [List.map_nil, List.append_nil]
  | @alive id => exact h.plain (Incident.plain_probed o id true)
  | @dead id hid =>
    have hseen := h.plain (Incident.plain_probed o id false)
    have hposted := hseen.plain (Incident.plain_posted o "sclang exited")
    exact append_cons (append_cons (hposted.ended hid (decide_eq_true rfl) rfl rfl))

/-- Once an evaluation is over, the flag is to be what the evaluation has made of it. -/
theorem evaluated {a : Except SessionError Text} (h : Accounted c s)
    (heval : Supervisor.Evaluated code s a j s') (p : Purpose) (hp : p.Fits o code)
    (hboot : p = .boot → s.serverRunning = false) :
    Accounted (c ++ j.map (Incident.mk o)) (s'.served p a.isOk) := by
  cases heval with
  | absent hlook =>
    have hgone : Accounted (c ++ j.map (Incident.mk o)) s' := h.looked hlook
    have hdown := hgone.idle hlook.session_eq
    have hsame : s'.served p false = s' := by
      obtain ⟨session, launches, serverRunning, bootsServer⟩ := s'
      subst hdown
      cases p <;> rfl
    exact hsame.symm ▸ hgone
  | @answered id k r hid hk hr =>
    have hok : (Supervisor.reply r).isOk = r.isOk := by cases r <;> rfl
    rw [hok]
    have halive := h.plain (Incident.plain_probed o id true)
    exact append_cons (append_cons ((halive.interpreted p hid hp hboot).said hk))
  | @lost id k hid hk =>
    have hsame : s.cleared.served p (Supervisor.reply (.error .disconnected)).isOk = s.cleared := by
      cases p <;> rfl
    rw [hsame]
    have halive := h.plain (Incident.plain_probed o id true)
    have hlost := halive.interpreted (r := .error .disconnected) p hid hp hboot
    exact append_cons (append_cons (append_concat
      ((hlost.said hk).ended hid (decide_eq_true rfl) rfl rfl)))

theorem detached {a : Except SessionError Unit} (h : Accounted c s)
    (hsend : Supervisor.Detached code s a j s') : Accounted (c ++ j.map (Incident.mk o)) s' := by
  cases hsend with
  | absent hlook => exact h.looked hlook
  | @handed id k r _ hk =>
    have halive := h.plain (Incident.plain_probed o id true)
    have hsent := halive.plain (Incident.plain_sent o id code r)
    exact append_cons (append_cons (hsent.said hk))

end Accounted

/-! ## Operations -/

namespace Supervised

variable {ω α β : Type} {o : Order} {act : Supervised ω α} {f : α → Supervised ω β}
variable {s : Supervisor ω} {Q : α → Journal → Supervisor ω → Prop}

/-- Run from `s` in the course of an order, the action leaves flag and history in agreement. -/
def Accounts (o : Order) (act : Supervised ω α) (s : Supervisor ω) : Prop :=
  ∀ c, Accounted c s.standing →
    Does act s fun _ j s' => Accounted (c ++ j.map (Incident.mk o)) s'.standing

/-- An action that starts where another one has taken the history and the standing. -/
theorem Accounts.after {c : Chronicle} {i : Journal} (h : Accounts o act s)
    (hi : Accounted (c ++ i.map (Incident.mk o)) s.standing) :
    Does act s fun _ j s' => Accounted (c ++ (i ++ j).map (Incident.mk o)) s'.standing :=
  (h _ hi).imp fun _ _ _ hj => by rwa [List.map_append, ← List.append_assoc]

theorem Does.bind_accounts (h : Does act s Q)
    (hf : ∀ a i s', Q a i s' → (∀ c, Accounted c s.standing →
      Accounted (c ++ i.map (Incident.mk o)) s'.standing) ∧ Accounts o (f a) s') :
    Accounts o (act >>= f) s := fun c hc =>
  h.bind fun a i s' hq => (hf a i s' hq).2.after ((hf a i s' hq).1 c hc)

theorem Accounts.bind (h : Accounts o act s) (hf : ∀ a s', Accounts o (f a) s') :
    Accounts o (act >>= f) s := fun c hc =>
  (h c hc).bind fun a _ s' hi => (hf a s').after hi

theorem Accounts.pure (a : α) : Accounts o (pure a : Supervised ω α) s := fun c hc =>
  .pure (by rwa [List.map_nil, List.append_nil])

end Supervised

namespace Supervisor

open Supervised

variable {ω : Type} {o : Order} (M : Machine ω) (s : Supervisor ω) (code : Text)

theorem say_accounts (t : Text) : Accounts o (say t) s := fun c hc =>
  (say_does s t).imp fun _ _ _ ⟨hj, h⟩ => by
    rw [hj, h]
    exact hc.said (Journal.said_posted t)

theorem status_accounts : Accounts o (status M) s := fun _ hc =>
  (status_does M s).imp fun _ _ _ ⟨_, hlook, _⟩ => hc.looked hlook

theorem evaluate_accounts (hp : Purpose.Fits o code .user) : Accounts o (evaluate M code) s :=
  fun _ hc => (evaluate_does M s code).imp fun _ _ _ h => hc.evaluated h .user hp nofun

theorem evaluateDetached_accounts : Accounts o (evaluateDetached M code) s := fun _ hc =>
  (evaluateDetached_does M s code).imp fun _ _ _ hsend => hc.detached hsend

theorem hush_accounts : Accounts o (hush M) s := by
  unfold hush
  refine (liveSession_does M s).bind_accounts ?_
  rintro (_ | id) i s₁ hlook
  · exact ⟨fun _ hc => hc.looked hlook, (say_accounts s₁ _).bind fun _ _ => .pure _⟩
  · exact ⟨fun _ hc => hc.looked hlook, evaluate_accounts M s₁ _ (.inr (by decide))⟩

/-- The last steps of a boot that succeeded bring the flag up. -/
theorem serverUp_accounts {c : Chronicle} {i : Journal}
    (hc : Accounted (c ++ i.map (Incident.mk o)) { s.standing with serverRunning := true }) :
    Does (do
      modify fun s => { s with serverRunning := true }
      say "Successfully booted scsynth"
      return .ok .started : Supervised ω (Except SessionError Lifecycle)) s fun _ j s' =>
        Accounted (c ++ (i ++ j).map (Incident.mk o)) s'.standing := by
  refine (modify_does s _ rfl).bind ?_
  rintro _ _ s₁ ⟨rfl, h₁⟩
  have hup : Accounted (c ++ i.map (Incident.mk o)) s₁.standing := by
    rw [h₁]
    exact hc
  exact ((say_accounts s₁ _).bind fun _ _ => .pure _).after hup

/-- What a boot does once it is known that the server does not run. -/
def bootAttempt : Supervised ω (Except SessionError Lifecycle) := do
  match ← evaluate M "s.boot" with
  | .ok result =>
    unless result = [] do say result
    modify fun s => { s with serverRunning := true }
    say "Successfully booted scsynth"
    return .ok .started
  | .error e =>
    say "Error booting scsynth"
    say e.message
    return .error e

theorem bootAttempt_accounts (ho : ∀ code, o ≠ .evaluate code) (hdown : s.serverRunning = false) :
    Accounts o (bootAttempt M) s := by
  intro c hc
  refine (evaluate_does M s _).bind ?_
  rintro (e | result) j s₁ heval
  · have hc₁ := hc.evaluated heval .boot ⟨rfl, ho⟩ fun _ => hdown
    refine Accounts.after ?_ hc₁
    exact (say_accounts s₁ _).bind fun _ s₂ => (say_accounts s₂ _).bind fun _ _ => .pure _
  · have hc₁ := hc.evaluated heval .boot ⟨rfl, ho⟩ fun _ => hdown
    dsimp only
    split
    · exact serverUp_accounts s₁ hc₁
    · refine (say_does s₁ _).bind ?_
      rintro _ _ s₂ ⟨rfl, h₂⟩
      have hsaid : Accounted (c ++ (j ++ [JournalEntry.posted result]).map (Incident.mk o))
          { s₂.standing with serverRunning := true } := by
        rw [h₂]
        exact Accounted.append_concat (hc₁.said (Journal.said_posted result))
      simpa only [List.append_assoc] using serverUp_accounts s₂ hsaid

theorem bootServer_accounts (ho : ∀ code, o ≠ .evaluate code) : Accounts o (bootServer M) s := by
  unfold bootServer
  refine (liveSession_does M s).bind_accounts ?_
  rintro (_ | id) i s₁ hlook
  · exact ⟨fun _ hc => hc.looked hlook, (say_accounts s₁ _).bind fun _ _ => .pure _⟩
  refine ⟨fun _ hc => hc.looked hlook, fun c hc => .get_bind ?_⟩
  split
  next => exact ((say_accounts s₁ _).bind fun _ _ => .pure _) c hc
  next hdown =>
    refine ((say_does s₁ _).bind_accounts ?_) c hc
    rintro _ _ s₂ ⟨rfl, h₂⟩
    rw [h₂]
    have hdown₂ : s₂.serverRunning = false :=
      (congrArg Standing.serverRunning h₂).trans (Bool.eq_false_iff.mpr hdown)
    exact ⟨fun _ hc => hc.said (Journal.said_posted _), bootAttempt_accounts M s₂ ho hdown₂⟩

/-- Whatever comes of it, the flag is down after the server was to quit. -/
theorem quitServer_does {c : Chronicle} (hc : Accounted c s.standing)
    (ho : ∀ code, o ≠ .evaluate code) : Does (quitServer M) s fun _ j s' =>
      Accounted (c ++ j.map (Incident.mk o)) s'.standing ∧ s'.serverRunning = false := by
  unfold quitServer
  refine .get_bind ?_
  split
  next =>
    refine (evaluate_does M s _).bind ?_
    rintro a j s₁ heval
    have hc₁ := hc.evaluated heval .kill ⟨rfl, ho⟩ nofun
    refine (modify_does s₁ _ rfl).bind ?_
    rintro _ _ s₂ ⟨rfl, rfl⟩
    cases a with
    | ok => exact .pure ⟨by rwa [List.nil_append, List.append_nil], rfl⟩
    | error e =>
      refine (say_does _ _).bind ?_
      rintro _ _ s₃ ⟨rfl, h₃⟩
      refine .pure ⟨?_, congrArg Standing.serverRunning h₃⟩
      rw [h₃, List.nil_append, List.append_nil]
      exact Accounted.append_concat (hc₁.said (Journal.said_posted _))
  next hdown =>
    exact .pure ⟨by rwa [List.map_nil, List.append_nil], Bool.eq_false_iff.mpr hdown⟩

theorem quitServer_accounts (ho : ∀ code, o ≠ .evaluate code) : Accounts o (quitServer M) s :=
  fun _ hc => (quitServer_does M s hc ho).imp fun _ _ _ h => h.1

theorem toggleServer_accounts (ho : ∀ code, o ≠ .evaluate code) :
    Accounts o (toggleServer M) s := by
  unfold toggleServer
  refine fun c hc => .get_bind ?_
  split
  · exact quitServer_accounts M s ho c hc
  · exact bootServer_accounts M s ho c hc

theorem bootOnStart_accounts (ho : ∀ code, o ≠ .evaluate code) : Accounts o (bootOnStart M) s := by
  unfold bootOnStart
  refine fun c hc => .get_bind ?_
  dsimp only
  split
  · exact ((bootServer_accounts M s ho).bind fun _ _ => .pure _) c hc
  · exact Accounts.pure _ c hc

/-- A launch finds no session, and so the flag down. -/
theorem launch_accounts (hnone : s.session = none) : Accounts o (launch M) s := by
  intro c hc
  refine (launch_does M s).imp ?_
  rintro r _ s₁ ⟨k, rfl, hk, h₁⟩
  have hdown : s₁.standing.serverRunning = false := by
    rw [h₁]
    exact hc.idle hnone
  exact Accounted.append_cons ((hc.launched hnone hdown).said hk)

theorem start_accounts (ho : ∀ code, o ≠ .evaluate code) : Accounts o (start M) s := by
  unfold start
  refine (status_does M s).bind_accounts ?_
  rintro _ i s₁ ⟨_ | id, hlook, rfl⟩
  · refine ⟨fun _ hc => hc.looked hlook, (say_does s₁ _).bind_accounts ?_⟩
    rintro _ _ s₂ ⟨rfl, h₂⟩
    have hnone : s₂.session = none := (congrArg Standing.session h₂).trans hlook.session_eq
    rw [h₂]
    refine ⟨fun _ hc => hc.said (Journal.said_posted _), (launch_accounts M s₂ hnone).bind ?_⟩
    rintro (e | ⟨⟩) s₃
    · exact (say_accounts s₃ _).bind fun _ s₄ => (say_accounts s₄ _).bind fun _ _ => .pure _
    · exact (say_accounts s₃ _).bind fun _ s₄ => bootOnStart_accounts M s₄ ho
  · exact ⟨fun _ hc => hc.looked hlook, (say_accounts s₁ _).bind fun _ _ => .pure _⟩

theorem stopped_accounts (result : Except EvalError Unit) (hnone : s.session = none) :
    Accounts o (stopped result) s := by
  unfold stopped
  refine (modify_does s _ rfl).bind_accounts ?_
  rintro _ _ s₁ ⟨rfl, h₁⟩
  refine ⟨fun c hc => ?_, ?_⟩
  · have hsame : s₁.standing = s.standing := by
      rw [h₁]
      exact congrArg (fun b => { s.standing with serverRunning := b }) (hc.idle hnone).symm
    rwa [hsame, List.map_nil, List.append_nil]
  · cases result with
    | ok => exact (say_accounts s₁ _).bind fun _ _ => .pure _
    | error e => exact (say_accounts s₁ _).bind fun _ _ => .pure _

/-- The audio server has been seen to by then, so no boot is in force when the session ends. -/
theorem shutDownSession_accounts (hdown : s.serverRunning = false) :
    Accounts o (shutDownSession M) s := by
  unfold shutDownSession
  refine fun c hc => .get_bind ?_
  split
  next id hid =>
    refine ((shutDown_does M s id).bind_accounts ?_) c hc
    rintro r _ s₁ ⟨k, rfl, hk, h₁⟩
    refine ⟨fun c hc => ?_, stopped_accounts s₁ r (congrArg Standing.session h₁)⟩
    rw [h₁]
    have hended : Accounted (c ++ [⟨o, .quit id r⟩]) { s.standing with session := none } :=
      hc.ended hid (decide_eq_true rfl) rfl hdown
    exact Accounted.append_cons (hended.said hk)
  next hnone => exact stopped_accounts s _ hnone c hc

theorem stop_accounts (ho : ∀ code, o ≠ .evaluate code) : Accounts o (stop M) s := by
  rw [stop_eq]
  refine (status_does M s).bind_accounts ?_
  rintro _ i s₁ ⟨_ | id, hlook, rfl⟩
  · exact ⟨fun _ hc => hc.looked hlook, .pure _⟩
  refine ⟨fun _ hc => hc.looked hlook, fun c hc => .get_bind ?_⟩
  dsimp only
  split
  next =>
    refine (quitServer_does M s₁ hc ho).bind fun _ j s₂ ⟨hc₂, hdown⟩ => ?_
    exact (shutDownSession_accounts M s₂ hdown).after hc₂
  next hdown => exact shutDownSession_accounts M s₁ (Bool.eq_false_iff.mpr hdown) c hc

theorem toggle_accounts (ho : ∀ code, o ≠ .evaluate code) : Accounts o (toggle M) s := by
  unfold toggle
  refine (status_accounts M s).bind fun status s₁ => ?_
  cases status with
  | stopped => exact start_accounts M s₁ ho
  | running => exact stop_accounts M s₁ ho

/-- Every order keeps the flag true to the history. -/
theorem carryOut_accounts (o : Order) : Accounts o (carryOut M o) s := by
  have hpure : ∀ {α : Type} {act : Supervised ω α}, Accounts o act s →
      Accounts o (do let _ ← act) s := fun h => h.bind fun _ _ => .pure _
  cases o with
  | start => exact hpure (start_accounts M s nofun)
  | stop => exact hpure (stop_accounts M s nofun)
  | toggle => exact hpure (toggle_accounts M s nofun)
  | status => exact hpure (status_accounts M s)
  | evaluate code => exact hpure (evaluate_accounts M s code (.inl rfl))
  | evaluateDetached code => exact hpure (evaluateDetached_accounts M s code)
  | hush => exact hpure (hush_accounts M s)
  | bootServer => exact hpure (bootServer_accounts M s nofun)
  | quitServer => exact hpure (quitServer_accounts M s nofun)
  | toggleServer => exact hpure (toggleServer_accounts M s nofun)

/-! ## Runs -/

/-- What an order enters in the journal, attributed to it. -/
def incidents (o : Order) : Chronicle :=
  ((after M s (.order o)).journal.drop s.journal.length).map (Incident.mk o)

/-- The effects of a run, each attributed to its order. -/
def chronicle (s : Supervisor ω) : List (Happening ω) → Chronicle
  | [] => []
  | .order o :: hs => incidents M s o ++ chronicle (after M s (.order o)) hs
  | .meanwhile change :: hs => chronicle (after M s (.meanwhile change)) hs

theorem incidents_eq {k : Journal} (h : (after M s (.order o)).journal = s.journal ++ k) :
    incidents M s o = k.map (Incident.mk o) := by
  rw [incidents, h, List.drop_left]

theorem acted_incidents (o : Order) :
    Acted M s ((incidents M s o).map (·.entry)) (after M s (.order o)) := by
  obtain ⟨k, hk, -⟩ := acted_order M s o
  rw [incidents_eq M s hk.1, List.map_map]
  exact (List.map_id k).symm ▸ hk

theorem incidents_accounted {c : Chronicle} (hc : Accounted c s.standing) (o : Order) :
    Accounted (c ++ incidents M s o) (after M s (.order o)).standing := by
  obtain ⟨k, hk, hc'⟩ := carryOut_accounts M s o c hc
  rwa [incidents_eq M s hk]

theorem chronicle_accounted {s : Supervisor ω} {c : Chronicle} (hc : Accounted c s.standing)
    (happenings : List (Happening ω)) :
    Accounted (c ++ chronicle M s happenings) (afterAll M s happenings).standing := by
  induction happenings generalizing s c with
  | nil => rwa [chronicle, List.append_nil]
  | cons h happenings ih =>
    cases h with
    | order o =>
      have hrest := ih (incidents_accounted M s hc o)
      rwa [List.append_assoc] at hrest
    | meanwhile change => exact ih (s := after M s (.meanwhile change)) hc

theorem journal_afterAll (s : Supervisor ω) (happenings : List (Happening ω)) :
    (afterAll M s happenings).journal =
      s.journal ++ (chronicle M s happenings).map (·.entry) := by
  induction happenings generalizing s with
  | nil => exact (List.append_nil _).symm
  | cons h happenings ih =>
    cases h with
    | order o =>
      have hacted := (acted_incidents M s o).1
      refine (ih _).trans ?_
      rw [hacted, chronicle, List.map_append, List.append_assoc]
    | meanwhile change => exact ih _

/-- **The flag tells the truth about the session held.** Take a supervisor without a session on any
machine, and let it be given any orders, whatever may change on the machine in between. The chronicle
holds the effects of the run, each attributed to the order that did it on the machine. The audio
server counts as running exactly when a session is held in which a boot is in force. So it never
counts as running without a session; whenever an interpreter is launched no boot is in force that the
new session could inherit; and the supervisor never boots the server where a boot is in force. -/
theorem serverRunning_iff_inForce (M : Machine ω) (machine : ω) (post : PostWindow)
    (bootsServer : Bool) (happenings : List (Happening ω)) :
    let s := afterAll M (fresh machine post bootsServer) happenings
    let c := chronicle M (fresh machine post bootsServer) happenings
    (∀ o, Acted M s ((incidents M s o).map (·.entry)) (after M s (.order o))) ∧
      s.journal = c.map (·.entry) ∧
      (s.serverRunning = true ↔ ∃ id, s.session = some id ∧ c.InForce id) ∧
      (s.serverRunning = true → s.session.isSome) ∧
      (∀ (i : Chronicle) x k id r, c = i ++ x :: k → x.entry = .launched id r →
        ∀ id', ¬ i.InForce id') ∧
      ∀ (i : Chronicle) x k id r, c = i ++ x :: k → x.Evaluates id "s.boot" r →
        ¬ i.InForce id := by
  intro s c
  have hs : Accounted c s.standing :=
    chronicle_accounted M (s := fresh machine post bootsServer) (.nil rfl) happenings
  have hiff : s.serverRunning = true ↔ ∃ id, s.session = some id ∧ c.InForce id := by
    constructor
    · intro hup
      cases hid : s.session with
      | none => exact absurd hup (Bool.eq_false_iff.mp (hs.idle hid))
      | some id => exact ⟨id, rfl, (hs.inForce_iff id).mpr ⟨hid, hup⟩⟩
    · rintro ⟨id, -, hforce⟩
      exact ((hs.inForce_iff id).mp hforce).2
  refine ⟨acted_incidents M s, journal_afterAll M _ happenings, hiff, ?_, ?_, ?_⟩
  · intro hup
    obtain ⟨id, hid, -⟩ := hiff.mp hup
    rw [hid]
    rfl
  · exact fun i x k id r hsplit hx => (hs.allowed i x k hsplit).launch id r hx
  · exact fun i x k id r hsplit hx => (hs.allowed i x k hsplit).boot id r hx

end Supervisor
end Livecode
