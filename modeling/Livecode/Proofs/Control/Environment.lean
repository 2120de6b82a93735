import Livecode.Control.Controller
import Livecode.Proofs.Control.AudioServer

/-!
# An environment that is not started

A controller ties three things together: whether the environment is started, whether its outlet is
up, and whether an interpreter runs. Between commands no language is being handled, and while the
environment is not started there is no session; a station is up exactly while the environment is
started. Commands reach the interpreter, the classifier and the outlet by different ways, each with a
check of its own, so what matters is that no way lacks its check.

What an action leaves as it is (`Steady`) can be put together along the action, so each command is
followed once. What the commands about the environment change is said apart.

## Main results

* `dispatch_steady` — a command that is not about the environment keeps what ties the parts
  together.
* `Tied.after` — so does whatever happens to a controller.
* `quiet_while_inactive` — the states of any run, and what commands do while the environment is not
  started.
-/

namespace Livecode

/-! ## The supervisor without a session -/

namespace Supervisor

open Supervised

variable {ω α : Type}

/-- Without a session the audio server does not count as running. -/
def Settled (s : Supervisor ω) : Prop := s.session = none → s.serverRunning = false

/-- Every settled supervisor has some history that its flag is true to. -/
theorem Settled.exists_accounted {s : Supervisor ω} (h : s.Settled) :
    ∃ c, Accounted c s.standing := by
  cases hup : s.serverRunning with
  | false => exact ⟨[], .nil hup⟩
  | true =>
    cases hid : s.session with
    | none => exact absurd hup (Bool.eq_false_iff.mp (h hid))
    | some id =>
      have hdown : Accounted [] { s.standing with serverRunning := false } := .nil rfl
      have hbooted := hdown.interpreted (o := .bootServer) (r := .ok []) .boot hid ⟨rfl, nofun⟩
        fun _ => rfl
      have hsame : { s.standing with serverRunning := true } = s.standing :=
        congrArg (fun b => { s.standing with serverRunning := b }) hup.symm
      exact ⟨_, (congrArg (Accounted _) hsame).mp hbooted⟩

theorem Settled.run {o : Order} {act : Supervised ω α} {s : Supervisor ω} (hs : s.Settled)
    (h : Accounts o act s) : (act.run s).2.Settled := by
  obtain ⟨c, hc⟩ := hs.exists_accounted
  obtain ⟨j, -, hj⟩ := h c hc
  exact hj.idle

variable (M : Machine ω) (s : Supervisor ω)

theorem stopped_ends (result : Except EvalError Unit) (hnone : s.session = none) :
    Does (stopped result) s fun _ _ s' => s'.session = none := by
  obtain ⟨j, hj, -⟩ : Within (fun _ => True) (stopped result) s := stopped_within s result hnone
  exact ⟨j, hj, by cases result <;> exact hnone⟩

theorem shutDownSession_ends : Does (shutDownSession M) s fun _ _ s' => s'.session = none := by
  unfold shutDownSession
  refine .get_bind ?_
  split
  next id _ =>
    refine (shutDown_does M s id).bind ?_
    rintro r _ s₁ ⟨k, -, -, h₁⟩
    exact stopped_ends s₁ r (congrArg Standing.session h₁)
  next hnone => exact stopped_ends s _ hnone

/-- However a stop goes, it leaves no session. -/
theorem stop_ends : Does (stop M) s fun _ _ s' => s'.session = none := by
  rw [stop_eq]
  refine (status_does M s).bind ?_
  rintro _ i s₁ ⟨_ | id, hlook, rfl⟩
  · exact .pure hlook.session_eq
  refine .get_bind ?_
  dsimp only
  split
  · have hquit : Within (fun _ => True) (quitServer M) s₁ := quitServer_within M s₁ trivial
    exact Does.bind hquit fun _ _ s₂ _ => shutDownSession_ends M s₂
  · exact shutDownSession_ends M s₁

end Supervisor

/-! ## Outlets that are up or down -/

/-- What `P` says of an outlet and of whether it should be up is kept by what the outlet does. -/
structure Outlet.Follows {σ : Type} (O : Outlet σ) (P : σ → Bool → Prop) : Prop where
  opened : ∀ s, P s false → (O.start s).1 = .ok () → P (O.start s).2 true
  refused : ∀ s e, P s false → (O.start s).1 = .error e → P (O.start s).2 false
  stopped : ∀ s, P s true → P (O.stop s) false
  published : ∀ s b st, P s b → P (O.publish st s).2 b
  pumped : ∀ s b, P s b → P (O.pump s) b

section
variable {ν : Type} (N : Network ν)

/-- The station is up if it should be, and only then. -/
def Station.Agrees (s : Station ν) (up : Bool) : Prop := s.isUp = up

theorem Station.isUp_start (s : Station ν) :
    (s.start N).2.isUp = (s.start N).1.isOk := by
  obtain ⟨address, server, network⟩ := s
  cases server with
  | some server => rfl
  | none =>
    unfold Station.start
    dsimp only
    split <;> rfl

/-- A station is up from its start until it is stopped. -/
theorem Outlet.station_follows : (Outlet.station N).Follows Station.Agrees where
  opened s _ hok := (s.isUp_start N).trans (congrArg Except.isOk hok)
  refused s e _ herror := (s.isUp_start N).trans (congrArg Except.isOk herror)
  stopped s _ := s.isUp_stop N
  published s up st hs := by
    obtain ⟨address, server, network⟩ := s
    cases server <;> exact hs
  pumped s up hs := by
    obtain ⟨address, server, network⟩ := s
    cases server <;> exact hs

end

/-- Every command is about a language, but for the two about the environment. -/
theorem Command.language?_ne_none {cmd : Command} (hstart : cmd ≠ .startEnvironment)
    (hstop : cmd ≠ .stopEnvironment) : cmd.language? ≠ none := by
  cases cmd with
  | startEnvironment => exact absurd rfl hstart
  | stopEnvironment => exact absurd rfl hstop
  | _ => nofun

namespace Controller

variable {ω σ α β : Type} {P : σ → Bool → Prop}

/-! ## What actions leave as it is -/

/-- An action that may have led from `c` to `c'` neither starts nor stops the environment, and leaves
the parts of the controller in step. -/
structure Steady (P : σ → Bool → Prop) (c c' : Controller ω σ) : Prop where
  active : c'.active = c.active
  visual : c'.visual = c.visual
  sound : c'.sound = c.sound
  outlet : P c.outlet c.active → P c'.outlet c'.active
  settled : c.supervisor.Settled → c'.supervisor.Settled

theorem Steady.refl (c : Controller ω σ) : Steady P c c := ⟨rfl, rfl, rfl, id, id⟩

theorem Steady.trans {c c' c'' : Controller ω σ} (h : Steady P c c') (h' : Steady P c' c'') :
    Steady P c c'' where
  active := h'.active.trans h.active
  visual := h'.visual.trans h.visual
  sound := h'.sound.trans h.sound
  outlet hc := h'.outlet (h.outlet hc)
  settled hc := h'.settled (h.settled hc)

/-- The action is steady wherever it is run. -/
def Keeps (P : σ → Bool → Prop) (act : Controlled ω σ α) : Prop := ∀ c, Steady P c (act.run c).2

variable {act : Controlled ω σ α} {f : α → Controlled ω σ β}

theorem Keeps.bind (h : Keeps P act) (hf : ∀ a, Keeps P (f a)) : Keeps P (act >>= f) :=
  fun c => (h c).trans (hf _ _)

theorem Keeps.pure (a : α) : Keeps P (pure a : Controlled ω σ α) := fun c => .refl c

theorem Keeps.get_bind {f : Controller ω σ → Controlled ω σ β} (h : ∀ c, Keeps P (f c)) :
    Keeps P (get >>= f) := fun c => h c c

/-- What the supervisor does in the course of an order is steady. -/
theorem supervised_keeps {o : Order} {act : Supervised ω α}
    (h : ∀ s, Supervised.Accounts o act s) : Keeps P (supervised act : Controlled ω σ α) :=
  fun c => ⟨rfl, rfl, rfl, id, fun hs => hs.run (h c.supervisor)⟩

theorem say_keeps (t : Text) : Keeps P (say t : Controlled ω σ Unit) :=
  supervised_keeps (o := .status) fun s => Supervisor.say_accounts s t

theorem enter_keeps (e : JournalEntry) : Keeps P (enter e : Controlled ω σ Unit) :=
  fun _ => ⟨rfl, rfl, rfl, id, id⟩

theorem reject_keeps (e : CommandError) : Keeps P (reject e : Controlled ω σ Outcome) := by
  unfold reject
  split
  · exact .pure _
  · exact (say_keeps _).bind fun _ => .pure _

theorem whenReady_keeps {act : Controlled ω σ Outcome} (h : Keeps P act) :
    Keeps P (whenReady act) := by
  refine .get_bind fun c => ?_
  split
  · exact h
  · exact reject_keeps _

theorem run_whenReady_of_active {c : Controller ω σ} (act : Controlled ω σ Outcome)
    (h : c.active = true) : (whenReady act).run c = act.run c := by
  show StateT.run (if c.active then act else reject .notReady) c = _
  rw [if_pos h]

/-- What becomes of a result once the language is idle again. -/
def settle : Except CommandError Outcome → Controlled ω σ Outcome
  | .ok outcome => return outcome
  | .error e => reject e

theorem settle_keeps (r : Except CommandError Outcome) :
    Keeps P (settle r : Controlled ω σ Outcome) := by
  cases r with
  | ok outcome => exact .pure outcome
  | error e => exact reject_keeps e

/-- A language that was not being handled is not being handled afterwards either. -/
theorem handling_steady {l : Language} {act : Controlled ω σ (Except CommandError Outcome)}
    {c : Controller ω σ} (h : Keeps P act) (hidle : c.activity l = .idle) :
    Steady P c ((handling l act).run c).2 := by
  by_cases hready : c.active = true
  · rw [handling, run_whenReady_of_active _ hready]
    obtain ⟨hactive, hvisual, hsound, houtlet, hsettled⟩ := h ((setActivity l .dispatching).run c).2
    have hback : Steady P c
        ((setActivity l .idle).run (act.run ((setActivity l .dispatching).run c).2).2).2 := by
      cases l with
      | hydra => exact ⟨hactive, hidle.symm, hsound, houtlet, hsettled⟩
      | superCollider => exact ⟨hactive, hvisual, hidle.symm, houtlet, hsettled⟩
    exact hback.trans (settle_keeps _ _)
  · rw [handling, whenReady_of_inactive _ (Bool.eq_false_iff.mpr hready)]
    exact reject_keeps _ c

variable (S : Studio ω σ)

theorem publishAll_keeps (hO : S.outlet.Follows P) (sts : List Statement) :
    Keeps P (publishAll S sts) := by
  induction sts with
  | nil => exact .pure _
  | cons st sts ih =>
    have hpublish : Keeps P (onOutlet (S.outlet.publish st) : Controlled ω σ Nat) :=
      fun c => ⟨rfl, rfl, rfl, hO.published c.outlet c.active st, id⟩
    exact hpublish.bind fun _ => (enter_keeps _).bind fun _ => ih

theorem requireSession_keeps : Keeps P (requireSession S) := by
  unfold requireSession
  refine (supervised_keeps (Supervisor.status_accounts (o := .status) S.machine)).bind fun r => ?_
  cases r <;> exact .pure _

theorem regionCode_keeps (text : Text) (cursor : Position) :
    Keeps P (regionCode S text cursor) := by
  unfold regionCode
  refine (enter_keeps _).bind fun _ => ?_
  split <;> exact .pure _

theorem chosenCode_keeps (text : Text) (selection : Option Selection) :
    Keeps P (chosenCode S text selection) := by
  unfold chosenCode
  split
  · exact .pure _
  · split
    · exact regionCode_keeps S _ _
    · exact .pure _

theorem evaluateCode_keeps (code : Text) : Keeps P (evaluateCode S code) := by
  unfold evaluateCode
  have hcode : ∀ s, Supervised.Accounts (.evaluate code) (Supervisor.evaluate S.machine code) s :=
    fun s => Supervisor.evaluate_accounts S.machine s code (.inl rfl)
  refine (supervised_keeps hcode).bind fun r => ?_
  cases r with
  | error e => exact .pure _
  | ok result =>
    dsimp only
    split
    · exact .pure _
    · exact (say_keeps _).bind fun _ => .pure _

theorem lifecycle_keeps {o : Order} {act : Supervised ω (Except SessionError Lifecycle)}
    (program : Text) (h : ∀ s, Supervised.Accounts o act s) :
    Keeps P (lifecycle program act : Controlled ω σ Outcome) := by
  refine whenReady_keeps ((supervised_keeps h).bind fun r => ?_)
  cases r <;> exact .pure _

theorem hush_keeps : Keeps P (hush S) := by
  have hhush : ∀ s, Supervised.Accounts .hush (Supervisor.hush S.machine) s :=
    Supervisor.hush_accounts S.machine
  refine whenReady_keeps ((supervised_keeps hhush).bind fun r => ?_)
  split
  · exact .pure _
  · exact .pure _
  · exact reject_keeps _

theorem interpreterStatus_keeps : Keeps P (interpreterStatus S) := by
  refine whenReady_keeps ?_
  refine (supervised_keeps (Supervisor.status_accounts (o := .status) S.machine)).bind fun _ => ?_
  exact .get_bind fun _ => (say_keeps _).bind fun _ => .pure _

/-- A command that is not about the environment neither starts nor stops it, and leaves no language
being handled. -/
theorem dispatch_steady {cmd : Command} {c : Controller ω σ} (hO : S.outlet.Follows P)
    (hlanguage : cmd.language? ≠ none) (hvisual : c.visual = .idle) (hsound : c.sound = .idle) :
    Steady P c ((dispatch S cmd).run c).2 := by
  have hregion : ∀ text cursor, Steady P c ((evaluateRegion S text cursor).run c).2 := by
    intro text cursor
    refine handling_steady ?_ hsound
    refine (requireSession_keeps S).bind fun r => ?_
    cases r with
    | error e => exact .pure _
    | ok =>
      refine (regionCode_keeps S _ _).bind fun r => ?_
      cases r with
      | error e => exact .pure _
      | ok code => exact evaluateCode_keeps S code
  cases cmd with
  | startEnvironment => exact absurd rfl hlanguage
  | stopEnvironment => exact absurd rfl hlanguage
  | evaluateStatements text selection =>
    refine handling_steady ?_ hvisual
    exact (publishAll_keeps S hO _).bind fun _ => .pure _
  | evaluate text selection =>
    simp only [dispatch, evaluate]
    split
    · exact handling_steady (.pure _) hsound
    · split
      · exact hregion _ _
      · exact handling_steady (evaluateCode_keeps S _) hsound
  | evaluateRegion text cursor => exact hregion text cursor
  | evaluateDetached text selection =>
    refine handling_steady ?_ hsound
    refine (requireSession_keeps S).bind fun r => ?_
    cases r with
    | error e => exact .pure _
    | ok =>
      refine (chosenCode_keeps S _ _).bind fun r => ?_
      cases r with
      | error e => exact .pure _
      | ok code =>
        have hsend : ∀ s, Supervised.Accounts (.evaluateDetached code)
            (Supervisor.evaluateDetached S.machine code) s :=
          fun s => Supervisor.evaluateDetached_accounts S.machine s code
        refine (supervised_keeps hsend).bind fun r => ?_
        cases r <;> exact .pure _
  | startInterpreter =>
    exact lifecycle_keeps (o := .start) "sclang"
      (fun s => Supervisor.start_accounts _ s (by simp)) c
  | stopInterpreter =>
    exact lifecycle_keeps (o := .stop) "sclang"
      (fun s => Supervisor.stop_accounts _ s (by simp)) c
  | toggleInterpreter =>
    exact lifecycle_keeps (o := .toggle) "sclang"
      (fun s => Supervisor.toggle_accounts _ s (by simp)) c
  | interpreterStatus => exact interpreterStatus_keeps S c
  | hush => exact hush_keeps S c
  | bootServer =>
    exact lifecycle_keeps (o := .bootServer) "scsynth"
      (fun s => Supervisor.bootServer_accounts _ s (by simp)) c
  | quitServer =>
    exact lifecycle_keeps (o := .quitServer) "scsynth"
      (fun s => Supervisor.quitServer_accounts _ s (by simp)) c
  | toggleServer =>
    exact lifecycle_keeps (o := .toggleServer) "scsynth"
      (fun s => Supervisor.toggleServer_accounts _ s (by simp)) c

/-! ## Starting and stopping -/

/-- What a start does once the outlet has said how it went. -/
def opened : Except CommandError Unit → Controlled ω σ Outcome
  | .error e => reject e
  | .ok () => do
    modify fun c => { c with active := true }
    say "ENVIL environment started"
    return .lifecycle "ENVIL environment started"

/-- What a start does while the environment is not started. -/
def bringUp : Controlled ω σ Outcome := do
  let result ← onOutlet S.outlet.start
  enter (.opened result)
  opened result

/-- What a stop does while the environment is started. -/
def takeDown : Controlled ω σ Outcome := do
  let _ ← supervised (Supervisor.stop S.machine)
  onOutlet fun o => ((), S.outlet.stop o)
  enter .closed
  modify fun c => { c with active := false }
  say "ENVIL environment stopped"
  return .lifecycle "ENVIL environment stopped"

theorem run_startEnvironment (c : Controller ω σ) : (startEnvironment S).run c =
    if c.active then (.lifecycle "ENVIL environment is already started", c)
    else (bringUp S).run c := by
  show StateT.run (if c.active then _ else _) c = _
  split <;> rfl

theorem run_stopEnvironment (c : Controller ω σ) : (stopEnvironment S).run c =
    if c.active then (takeDown S).run c
    else (.lifecycle "ENVIL environment is not started", c) := by
  show StateT.run (if c.active then _ else _) c = _
  split <;> rfl

/-! ## What commands do while the environment is not started -/

/-- Between `c` and `c'` nothing happened but that texts were posted. -/
structure Untouched (c c' : Controller ω σ) : Prop where
  machine : c'.supervisor.machine = c.supervisor.machine
  standing : c'.supervisor.standing = c.supervisor.standing
  outlet : c'.outlet = c.outlet
  active : c'.active = c.active
  visual : c'.visual = c.visual
  sound : c'.sound = c.sound
  journal : ∃ j, c'.supervisor.journal = c.supervisor.journal ++ j ∧ j.Said

theorem Untouched.refl (c : Controller ω σ) : Untouched c c :=
  ⟨rfl, rfl, rfl, rfl, rfl, rfl, [], (List.append_nil _).symm, Journal.said_nil⟩

theorem say_untouched (t : Text) (c : Controller ω σ) : Untouched c ((say t).run c).2 :=
  ⟨rfl, rfl, rfl, rfl, rfl, rfl, _, rfl, Journal.said_posted t⟩

theorem reject_untouched (e : CommandError) (c : Controller ω σ) :
    Untouched c ((reject e).run c).2 := by
  unfold reject
  split
  · exact .refl c
  · exact say_untouched e.message c

/-- What a command does while the environment is not started, unless it is to start it. -/
theorem dispatch_eq_of_inactive {c : Controller ω σ} {cmd : Command} (h : c.active = false)
    (hcmd : cmd ≠ .startEnvironment) : (dispatch S cmd).run c =
      if cmd = .stopEnvironment then (.lifecycle "ENVIL environment is not started", c)
      else (reject .notReady).run c := by
  by_cases hstop : cmd = .stopEnvironment
  · rw [if_pos hstop, hstop, dispatch, run_stopEnvironment, if_neg (Bool.eq_false_iff.mp h)]
  · rw [if_neg hstop]
    exact dispatch_of_inactive S h (Command.language?_ne_none hcmd hstop)

theorem dispatch_untouched {c : Controller ω σ} {cmd : Command} (h : c.active = false)
    (hcmd : cmd ≠ .startEnvironment) : Untouched c ((dispatch S cmd).run c).2 := by
  rw [dispatch_eq_of_inactive S h hcmd]
  split
  · exact .refl c
  · exact reject_untouched _ c

/-! ## Runs -/

/-- What happens to a controller: it is given a command, or attends to its outlet, or something
changes on its machine or where its outlet leads to. -/
inductive Occurrence (ω σ : Type) where
  | command (cmd : Command)
  | pump
  | meanwhile (machine : ω → ω) (outlet : σ → σ)

/-- A controller after something has happened. -/
def after (c : Controller ω σ) : Occurrence ω σ → Controller ω σ
  | .command cmd => ((dispatch S cmd).run c).2
  | .pump => ((pump S).run c).2
  | .meanwhile machine outlet =>
    { c with
      supervisor := { c.supervisor with machine := machine c.supervisor.machine }
      outlet := outlet c.outlet }

def afterAll (c : Controller ω σ) (os : List (Occurrence ω σ)) : Controller ω σ :=
  os.foldl (after S) c

/-- The parts of a controller between commands. -/
structure Tied (P : σ → Bool → Prop) (c : Controller ω σ) : Prop where
  visual : c.visual = .idle
  sound : c.sound = .idle
  outlet : P c.outlet c.active
  settled : c.supervisor.Settled
  ended : c.active = false → c.supervisor.session = none

theorem Tied.untouched {c c' : Controller ω σ} (hc : Tied P c) (h : Untouched c c') :
    Tied P c' where
  visual := h.visual.trans hc.visual
  sound := h.sound.trans hc.sound
  outlet := by
    rw [h.outlet, h.active]
    exact hc.outlet
  settled hnone := (congrArg Standing.serverRunning h.standing).trans
    (hc.settled ((congrArg Standing.session h.standing).symm.trans hnone))
  ended hdown := (congrArg Standing.session h.standing).trans (hc.ended (h.active.symm.trans hdown))

theorem Tied.steady {c c' : Controller ω σ} (hc : Tied P c) (hactive : c.active = true)
    (h : Steady P c c') : Tied P c' where
  visual := h.visual.trans hc.visual
  sound := h.sound.trans hc.sound
  outlet := h.outlet hc.outlet
  settled := h.settled hc.settled
  ended hdown := by
    rw [h.active, hactive] at hdown
    cases hdown

theorem Tied.startEnvironment {c : Controller ω σ} (hc : Tied P c) (hO : S.outlet.Follows P) :
    Tied P ((startEnvironment S).run c).2 := by
  rw [run_startEnvironment]
  split
  next => exact hc
  next hinactive =>
    have hdown : c.active = false := Bool.eq_false_iff.mpr hinactive
    have houtlet : P c.outlet false := hdown ▸ hc.outlet
    have hsaid : Tied P ((opened (S.outlet.start c.outlet).1).run
        { c with
          supervisor := ((Supervisor.enter (.opened (S.outlet.start c.outlet).1)).run c.supervisor).2
          outlet := (S.outlet.start c.outlet).2 }).2 := by
      cases hresult : (S.outlet.start c.outlet).1 with
      | error e =>
        have hrefused := hO.refused c.outlet e houtlet hresult
        refine Tied.untouched ?_ (reject_untouched e _)
        exact ⟨hc.visual, hc.sound, hdown.symm ▸ hrefused, hc.settled, hc.ended⟩
      | ok =>
        have hopened := hO.opened c.outlet houtlet hresult
        refine Tied.untouched ?_ (say_untouched "ENVIL environment started" _)
        exact ⟨hc.visual, hc.sound, hopened, hc.settled, nofun⟩
    exact hsaid

theorem Tied.stopEnvironment {c : Controller ω σ} (hc : Tied P c) (hO : S.outlet.Follows P) :
    Tied P ((stopEnvironment S).run c).2 := by
  rw [run_stopEnvironment]
  split
  next hactive =>
    have hsettled := hc.settled.run (Supervisor.stop_accounts (o := .stop) S.machine _ nofun)
    obtain ⟨-, -, hnone⟩ := Supervisor.stop_ends S.machine c.supervisor
    refine Tied.untouched ?_ (say_untouched "ENVIL environment stopped" _)
    exact ⟨hc.visual, hc.sound, hO.stopped _ (hactive ▸ hc.outlet), hsettled, fun _ => hnone⟩
  next => exact hc

theorem Tied.dispatch {c : Controller ω σ} (hc : Tied P c) (hO : S.outlet.Follows P)
    (cmd : Command) : Tied P ((dispatch S cmd).run c).2 := by
  by_cases hstart : cmd = .startEnvironment
  · rw [hstart]
    exact hc.startEnvironment S hO
  by_cases hstop : cmd = .stopEnvironment
  · rw [hstop]
    exact hc.stopEnvironment S hO
  cases hactive : c.active with
  | false => exact hc.untouched (dispatch_untouched S hactive hstart)
  | true =>
    have hlanguage := Command.language?_ne_none hstart hstop
    exact hc.steady hactive (dispatch_steady S hO hlanguage hc.visual hc.sound)

/-- A change of the outlet leaves it up or down as it was. -/
def Occurrence.Respects (P : σ → Bool → Prop) : Occurrence ω σ → Prop
  | .meanwhile _ outlet => ∀ s b, P s b → P (outlet s) b
  | _ => True

theorem Tied.after {c : Controller ω σ} {o : Occurrence ω σ} (hc : Tied P c)
    (hO : S.outlet.Follows P) (ho : o.Respects P) : Tied P (after S c o) := by
  cases o with
  | command cmd => exact hc.dispatch S hO cmd
  | pump => exact ⟨hc.visual, hc.sound, hO.pumped _ _ hc.outlet, hc.settled, hc.ended⟩
  | meanwhile machine outlet =>
    exact ⟨hc.visual, hc.sound, ho _ _ hc.outlet, hc.settled, hc.ended⟩

theorem Tied.afterAll {c : Controller ω σ} {os : List (Occurrence ω σ)} (hc : Tied P c)
    (hO : S.outlet.Follows P) (hos : ∀ o ∈ os, o.Respects P) : Tied P (afterAll S c os) := by
  induction os generalizing c with
  | nil => exact hc
  | cons o os ih =>
    obtain ⟨ho, hrest⟩ := List.forall_mem_cons.mp hos
    exact ih (hc.after S hO ho) hrest

theorem tied_fresh (machine : ω) (post : PostWindow) (bootsServer : Bool) {outlet : σ}
    (h : P outlet false) : Tied P (fresh (.fresh machine post bootsServer) outlet) :=
  ⟨rfl, rfl, h, fun _ => rfl, fun _ => rfl⟩

/-- What happens to a controller whose outlet is a station: of that, only the network changes of its
own accord. -/
def Occurrence.onNetwork {ν : Type} : Occurrence ω ν → Occurrence ω (Station ν)
  | .command cmd => .command cmd
  | .pump => .pump
  | .meanwhile machine network =>
    .meanwhile machine fun s => { s with network := network s.network }

theorem Occurrence.onNetwork_respects {ν : Type} (o : Occurrence ω ν) :
    o.onNetwork.Respects Station.Agrees := by
  cases o with
  | meanwhile machine network => exact fun _ _ => id
  | _ => trivial

/-- **While the environment is not started nothing is touched.** Take a fresh controller, let it be
given any commands, let it attend to its outlet at any moment, and let anything change meanwhile on
its machine and at its outlet. Then no language is being handled, and while the environment is not
started there is no session, the audio server does not count as running, and every command but the
one to start the environment does nothing but post texts: it leaves all else as it is, asks nothing
of the machine, the classifier or the outlet, and would do the same with any others. Where the outlet
is a station, it is up exactly while the environment is started. -/
theorem quiet_while_inactive {ω σ ν : Type} (S : Studio ω σ) (N : Network ν) (machine : ω)
    (post : PostWindow) (bootsServer : Bool) :
    (∀ (outlet : σ) (os : List (Occurrence ω σ)),
      let c := afterAll S (fresh (.fresh machine post bootsServer) outlet) os
      (∀ l, c.activity l = .idle) ∧
        (c.active = false → c.supervisor.session = none ∧ c.supervisor.serverRunning = false ∧
          ∀ cmd, cmd ≠ .startEnvironment → Untouched c ((dispatch S cmd).run c).2 ∧
            ∀ S' : Studio ω σ, (dispatch S' cmd).run c = (dispatch S cmd).run c)) ∧
    ∀ (address : Text) (network : ν) (os : List (Occurrence ω ν)),
      let S' : Studio ω (Station ν) := ⟨S.machine, .station N, S.classifier, S.redirect⟩
      let c := afterAll S' (fresh (.fresh machine post bootsServer) (.idle address network))
        (os.map Occurrence.onNetwork)
      c.outlet.isUp = c.active := by
  constructor
  · intro outlet os c
    -- nothing is asked of an outlet in general
    have hany : S.outlet.Follows fun _ _ => True := by constructor <;> intros <;> trivial
    have hc : Tied (fun _ _ => True) c :=
      (tied_fresh machine post bootsServer trivial).afterAll S hany fun o _ => by
        cases o <;> simp [Occurrence.Respects]
    refine ⟨fun l => ?_, fun hdown => ?_⟩
    · cases l with
      | hydra => exact hc.visual
      | superCollider => exact hc.sound
    refine ⟨hc.ended hdown, hc.settled (hc.ended hdown), fun cmd hcmd => ?_⟩
    refine ⟨dispatch_untouched S hdown hcmd, fun S' => ?_⟩
    rw [dispatch_eq_of_inactive S hdown hcmd, dispatch_eq_of_inactive S' hdown hcmd]
  · intro address network os S' c
    have hfresh : Tied Station.Agrees
        (fresh (.fresh machine post bootsServer) (Station.idle address network)) :=
      tied_fresh machine post bootsServer rfl
    have hc : Tied Station.Agrees c := by
      refine hfresh.afterAll S' (Outlet.station_follows N) ?_
      intro o ho
      obtain ⟨o, -, rfl⟩ := List.mem_map.mp ho
      exact o.onNetwork_respects
    exact hc.outlet

end Controller
end Livecode
