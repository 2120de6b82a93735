import Livecode.Broadcast.Server
import Livecode.Proofs.Broadcast.Names

/-!
# Servers at work

A *service* is a server at work: its connections report what happens on them, the server acts on the
reports one at a time, and in between it publishes statements and in the end shuts down. Reports may
come at any time and about anybody, even about a listener that is long gone.

What each act means for one listener is read off from the events of the audience that it consists
of.

## Main results

* `seat?_act` — what one act means for one listener.
* `step_publish_still`, `step_shutdown_still`, `after_handle_all` — acts and the operations of the
  server.
-/

namespace Livecode

/-- A server at work. -/
structure Service where
  scene : Scene
  /-- The reports that have not been acted upon, oldest first. -/
  pending : List ConnectionEvent

namespace Service

/-- Something that happens to a service. -/
inductive Act where
  /-- A connection reports something. -/
  | report (e : ConnectionEvent)
  /-- The server acts on the oldest report. -/
  | handle
  /-- The oldest report is that of a new connection, which cannot be set up and is let go. -/
  | letGo
  | publish (st : Statement) (rounds : List Round)
  | shutdown (rounds : List Round)
  | owner (m : OwnerMove)

def fresh : Service := ⟨.empty, []⟩

/-- How many connections have been registered. -/
def connections (s : Service) : Nat := s.scene.audience.listeners.length

/-- The service after an act. -/
def step (s : Service) : Act → Service
  | .report e => { s with pending := s.pending ++ [e] }
  | .handle =>
    match s.pending with
    | [] => s
    | e :: pending =>
      ⟨{ s.scene with audience := (Server.handle ⟨s.scene.audience⟩ e).audience }, pending⟩
  | .letGo =>
    match s.pending with
    | .connected :: pending => { s with pending }
    | _ => s
  | .publish st rounds => { s with scene := (s.scene.fanOut (.statement st.text) rounds).2 }
  | .shutdown rounds =>
    let told := (s.scene.fanOut .shutdown rounds).2
    { s with scene := { told with audience := told.audience.clear } }
  | .owner m => { s with scene := s.scene.move m }

def after (s : Service) (acts : List Act) : Service := acts.foldl step s

theorem after_append (s : Service) (acts more : List Act) :
    s.after (acts ++ more) = (s.after acts).after more := List.foldl_append ..

/-- A broadcast has one round for each registered listener. -/
def Fits (s : Service) : Act → Prop
  | .publish _ rounds => (rounds.map (·.id)).Perm s.scene.audience.registered
  | .shutdown rounds => (rounds.map (·.id)).Perm s.scene.audience.registered
  | _ => True

instance (s : Service) (a : Act) : Decidable (s.Fits a) :=
  match a with
  | .publish .. | .shutdown _ => inferInstanceAs (Decidable (List.Perm ..))
  | .report _ | .handle | .letGo | .owner _ => inferInstanceAs (Decidable True)

/-- Every broadcast of a run has its rounds. -/
def AllFit (s : Service) : List Act → Prop
  | [] => True
  | a :: acts => s.Fits a ∧ (s.step a).AllFit acts

instance decidableAllFit : (s : Service) → (acts : List Act) → Decidable (s.AllFit acts)
  | _, [] => inferInstanceAs (Decidable True)
  | s, a :: acts =>
    have := decidableAllFit (s.step a) acts
    inferInstanceAs (Decidable (s.Fits a ∧ (s.step a).AllFit acts))

theorem AllFit.of_append {s : Service} {acts more : List Act} (h : s.AllFit (acts ++ more)) :
    s.AllFit acts ∧ (s.after acts).AllFit more := by
  induction acts generalizing s with
  | nil => exact ⟨trivial, h⟩
  | cons a acts ih =>
    obtain ⟨hacts, hmore⟩ := ih h.2
    exact ⟨⟨h.1, hacts⟩, hmore⟩

/-! ## Acts as events of the audience -/

/-- The events that acting on a report consists of. -/
def handling (s : Scene) : ConnectionEvent → List Scene.Event
  | .connected =>
    let id : ListenerId := ⟨s.audience.nextId⟩
    [.register (some Server.mailboxDepth), .sendTo id (.hello id)]
  | .signalled id .ping => [.sendTo id .pong]
  | .signalled id .goodbye => [.unregister id]
  | .disconnected id => [.unregister id]

/-- The events that an act consists of. -/
def events (s : Service) : Act → List Scene.Event
  | .handle => s.pending.head?.elim [] (handling s.scene)
  | .publish st rounds => [.fanOut (.statement st.text) rounds]
  | .shutdown rounds => [.fanOut .shutdown rounds, .clear]
  | .owner m => [.owner m]
  | _ => []

variable {s : Service} {a : Act} {acts : List Act}

theorem scene_step (s : Service) (a : Act) : (s.step a).scene = s.scene.after (s.events a) := by
  cases a with
  | handle =>
    obtain ⟨scene, pending⟩ := s
    cases pending with
    | nil => rfl
    | cons e pending =>
      cases e with
      | signalled id signal => cases signal <;> rfl
      | _ => rfl
  | letGo =>
    obtain ⟨scene, pending⟩ := s
    cases pending with
    | nil => rfl
    | cons e pending => cases e <;> rfl
  | _ => rfl

theorem allFit_events (h : s.Fits a) : s.scene.AllFit (s.events a) := by
  cases a with
  | handle =>
    obtain ⟨scene, pending⟩ := s
    cases pending with
    | nil => trivial
    | cons e pending =>
      cases e with
      | connected => exact ⟨trivial, trivial, trivial⟩
      | signalled id signal => cases signal <;> exact ⟨trivial, trivial⟩
      | disconnected id => exact ⟨trivial, trivial⟩
  | publish st rounds => exact ⟨h, trivial⟩
  | shutdown rounds => exact ⟨h, trivial, trivial⟩
  | owner m => exact ⟨trivial, trivial⟩
  | report e => trivial
  | letGo => trivial

/-- What holds of a service in every run. -/
structure Steady (s : Service) : Prop where
  sound : s.scene.Sound
  numbered : s.scene.audience.Numbered

theorem Steady.step (h : s.Steady) (hfits : s.Fits a) : (s.step a).Steady := by
  constructor
  · rw [scene_step]
    exact h.sound.after (allFit_events hfits)
  · rw [scene_step]
    exact Scene.Numbered.after h.numbered _

theorem Steady.after (h : s.Steady) (hfits : s.AllFit acts) : (s.after acts).Steady := by
  induction acts generalizing s with
  | nil => exact h
  | cons a acts ih => exact ih (h.step hfits.1) hfits.2

theorem connections_step (s : Service) (a : Act) : s.connections ≤ (s.step a).connections := by
  rw [connections, connections, scene_step]
  exact Scene.length_after _ _

theorem connections_after (s : Service) (acts : List Act) :
    s.connections ≤ (s.after acts).connections := by
  induction acts generalizing s with
  | nil => exact Nat.le_refl _
  | cons a acts ih => exact Nat.le_trans (connections_step s a) (ih _)

/-! ## What concerns one listener -/

/-- The notices that an act directs at a listener. What it is told in the end does not count. -/
def directed (s : Service) (id : ListenerId) : Act → List Notice
  | .handle => if s.pending.head? = some (.signalled id .ping) then [.pong] else []
  | .publish st _ => [.statement st.text]
  | _ => []

/-- The notices that the acts of a run direct at it. -/
def directedAll (s : Service) (id : ListenerId) : List Act → List Notice
  | [] => []
  | a :: acts => s.directed id a ++ (s.step a).directedAll id acts

/-- The server acts upon the goodbye of a listener, or upon the end of its connection. -/
def Leaves (s : Service) (id : ListenerId) : Act → Prop
  | .handle =>
    s.pending.head? = some (.signalled id .goodbye) ∨ s.pending.head? = some (.disconnected id)
  | _ => False

/-- The mailbox of a listener refuses what an act directs at it, or what it is told in the end. -/
def Refuses (s : Service) (turn : Nat) (id : ListenerId) : Act → Prop
  | .handle => s.pending.head? = some (.signalled id .ping) ∧ s.scene.Full turn
  | .publish st rounds => s.scene.Refuses turn id (.fanOut (.statement st.text) rounds)
  | .shutdown rounds => s.scene.Refuses turn id (.fanOut .shutdown rounds)
  | _ => False

/-- What an act means for the listener of a turn. -/
inductive Regards (s : Service) (turn : Nat) (a : Act) (c c' : Seat) : Prop
  | stays : c'.listener.id = c.listener.id → c.listener.enrolled = true →
      c'.listener.enrolled = true → c'.passed = c.passed ++ s.directed c.listener.id a →
      Regards s turn a c c'
  | goes : c.listener.enrolled = true → c'.listener.enrolled = false → c'.passed = c.passed →
      s.Leaves c.listener.id a ∨ s.Refuses turn c.listener.id a → Regards s turn a c c'
  | told (rounds : List Round) : a = .shutdown rounds → c.listener.enrolled = true →
      c'.listener.enrolled = false → c'.passed = c.passed ++ [.shutdown] →
      ¬ s.Refuses turn c.listener.id a → Regards s turn a c c'
  | absent : c.listener.enrolled = false → c'.listener.enrolled = false → c'.passed = c.passed →
      Regards s turn a c c'

variable {turn : Nat} {c c' : Seat}

/-- An act that leaves a listener alone. -/
theorem Regards.of_like (h : Seat.Like c c') (hnothing : s.directed c.listener.id a = []) :
    Regards s turn a c c' := by
  cases henrolled : c.listener.enrolled with
  | false => exact .absent henrolled (h.enrolled.trans henrolled) h.passed
  | true =>
    refine .stays h.id henrolled (h.enrolled.trans henrolled) ?_
    rw [h.passed, hnothing, List.append_nil]

/-- An act that is one event. -/
theorem Regards.of_concerns {e : Scene.Event} (h : Scene.Concerns s.scene turn e c c')
    (hdirected : e.directed c.listener.id = s.directed c.listener.id a)
    (hwhy : s.scene.Removes c.listener.id e ∨ s.scene.Refuses turn c.listener.id e →
      s.Leaves c.listener.id a ∨ s.Refuses turn c.listener.id a) : Regards s turn a c c' := by
  cases h with
  | stays hid henrolled henrolled' hpassed =>
    exact .stays hid henrolled henrolled' (hdirected ▸ hpassed)
  | goes _ henrolled hgone hpassed hended => exact .goes henrolled hgone hpassed (hwhy hended)
  | absent _ habsent hgone hpassed => exact .absent habsent hgone hpassed

/-- An event that is not about a listener. -/
theorem like_of_concerns {s : Scene} {e : Scene.Event} (h : s.Concerns turn e c c')
    (hnothing : e.directed c.listener.id = [])
    (hspared : ¬ (s.Removes c.listener.id e ∨ s.Refuses turn c.listener.id e)) :
    Seat.Like c c' := by
  cases h with
  | stays hid henrolled henrolled' hpassed =>
    exact ⟨hid, henrolled'.trans henrolled.symm, hpassed.trans (by rw [hnothing, List.append_nil])⟩
  | goes _ _ _ _ hended => exact absurd hended hspared
  | absent hid habsent habsent' hpassed => exact ⟨hid, habsent'.trans habsent.symm, hpassed⟩

/-- A new connection is registered beside those that were. -/
theorem like_of_connected {s : Scene} (hdistinct : s.audience.Distinct)
    (hnumbered : s.audience.Numbered) (hfew : s.audience.listeners.length < UInt64.size)
    (hc : s.seat? turn = some c) :
    ∃ c', (s.after (handling s .connected)).seat? turn = some c' ∧ Seat.Like c c' := by
  have hother : c.listener.id ≠ ⟨s.audience.nextId⟩ := by
    obtain ⟨l, hl, rfl⟩ := Option.map_eq_some_iff.mp hc
    exact hnumbered.ne_nextId hfew hl
  obtain ⟨c₁, hc₁, hregister⟩ :=
    Scene.seat?_step (e := .register (some Server.mailboxDepth)) hdistinct trivial hc
  have hlike : Seat.Like c c₁ := like_of_concerns hregister rfl fun hended => by
    rcases hended with hremoved | hrefused
    · exact hother hremoved.symm
    · exact hrefused
  have hother₁ : (⟨s.audience.nextId⟩ : ListenerId) ≠ c₁.listener.id := fun heq =>
    hother (hlike.id.symm.trans heq.symm)
  obtain ⟨c₂, hc₂, hgreet⟩ :=
    Scene.seat?_step (e := .sendTo ⟨s.audience.nextId⟩ (.hello ⟨s.audience.nextId⟩))
      (Scene.distinct_step hdistinct _) trivial hc₁
  refine ⟨c₂, hc₂, hlike.trans (like_of_concerns hgreet (if_neg hother₁) fun hended => ?_)⟩
  rcases hended with hremoved | hrefused
  · exact hremoved
  · exact hother₁ hrefused.1

/-- What acting on a report means for a listener. -/
theorem seat?_handle (h : s.Steady) (hfew : s.connections < UInt64.size)
    (hc : s.scene.seat? turn = some c) :
    ∃ c', (s.step .handle).scene.seat? turn = some c' ∧ Regards s turn .handle c c' := by
  have hdistinct := h.sound.distinct
  rw [scene_step]
  obtain ⟨scene, pending⟩ := s
  cases pending with
  | nil => exact ⟨c, hc, .of_like (.refl c) rfl⟩
  | cons e pending =>
    cases e with
    | connected =>
      obtain ⟨c', hc', hlike⟩ := like_of_connected hdistinct h.numbered hfew hc
      exact ⟨c', hc', .of_like hlike rfl⟩
    | signalled id signal =>
      cases signal with
      | ping =>
        obtain ⟨c', hc', hconcerns⟩ :=
          Scene.seat?_step (e := .sendTo id .pong) hdistinct trivial hc
        refine ⟨c', hc', .of_concerns hconcerns ?_ ?_⟩
        · simp [Scene.Event.directed, directed]
        · rintro (hremoved | ⟨rfl, hfull⟩)
          · exact hremoved.elim
          · exact .inr ⟨rfl, hfull⟩
      | goodbye =>
        obtain ⟨c', hc', hconcerns⟩ :=
          Scene.seat?_step (e := .unregister id) hdistinct trivial hc
        refine ⟨c', hc', .of_concerns hconcerns ?_ ?_⟩
        · simp [Scene.Event.directed, directed]
        · rintro (hid | hrefused)
          · obtain rfl : id = c.listener.id := hid
            exact .inl (.inl rfl)
          · exact hrefused.elim
    | disconnected id =>
      obtain ⟨c', hc', hconcerns⟩ :=
        Scene.seat?_step (e := .unregister id) hdistinct trivial hc
      refine ⟨c', hc', .of_concerns hconcerns ?_ ?_⟩
      · simp [Scene.Event.directed, directed]
      · rintro (hid | hrefused)
        · obtain rfl : id = c.listener.id := hid
          exact .inl (.inr rfl)
        · exact hrefused.elim

/-- The server shutting down leaves no listener registered. -/
theorem seat?_step_shutdown {rounds : List Round} (hdistinct : s.scene.audience.Distinct)
    (hfits : s.Fits (.shutdown rounds)) (hc : s.scene.seat? turn = some c) :
    (s.step (.shutdown rounds)).scene.seat? turn =
      some ((c.rounds .shutdown turn rounds).on Listener.leave) := by
  have hrounds : (s.scene.fanOut .shutdown rounds).2.seat? turn =
      some (c.rounds .shutdown turn rounds) :=
    (Scene.seat?_fanOut turn hdistinct hfits).trans (congrArg (Option.map _) hc)
  exact (Scene.seat?_map _ turn Listener.leave rfl).trans (congrArg (Option.map _) hrounds)

/-- What the server shutting down means for a listener. -/
theorem regards_shutdown {rounds : List Round} (hdistinct : s.scene.audience.Distinct)
    (hfits : s.Fits (.shutdown rounds)) (hc : s.scene.seat? turn = some c) :
    Regards s turn (.shutdown rounds) c ((c.rounds .shutdown turn rounds).on Listener.leave) := by
  cases Scene.concerns_fanOut (n := .shutdown) hdistinct hfits hc with
  | stays hid henrolled hkept hpassed =>
    refine .told rounds rfl henrolled rfl hpassed fun hrefuses => ?_
    cases (Scene.enrolled_of_refuses hdistinct hfits hc hrefuses).symm.trans hkept
  | goes _ henrolled _ hpassed hended =>
    exact .goes henrolled rfl hpassed (.inr (hended.elim False.elim id))
  | absent _ habsent _ hpassed => exact .absent habsent rfl hpassed

/-- What an act means for a listener. -/
theorem seat?_act (h : s.Steady) (hfits : s.Fits a) (hfew : s.connections < UInt64.size)
    (hc : s.scene.seat? turn = some c) :
    ∃ c', (s.step a).scene.seat? turn = some c' ∧ Regards s turn a c c' := by
  have hdistinct := h.sound.distinct
  cases a with
  | handle => exact seat?_handle h hfew hc
  | shutdown rounds =>
    exact ⟨_, seat?_step_shutdown hdistinct hfits hc, regards_shutdown hdistinct hfits hc⟩
  | report e => exact ⟨c, hc, .of_like (.refl c) rfl⟩
  | letGo =>
    refine ⟨c, ?_, .of_like (.refl c) rfl⟩
    rw [scene_step]
    exact hc
  | owner m =>
    obtain ⟨c', hc', hconcerns⟩ := Scene.seat?_step (e := .owner m) hdistinct trivial hc
    exact ⟨c', hc', .of_concerns hconcerns rfl (Or.elim · False.elim False.elim)⟩
  | publish st rounds =>
    obtain ⟨c', hc', hconcerns⟩ :=
      Scene.seat?_step (e := .fanOut (.statement st.text) rounds) hdistinct hfits hc
    exact ⟨c', hc', .of_concerns hconcerns rfl (Or.imp False.elim id)⟩

/-! ## What ends the term of a listener -/

/-- A listener leaves, or its mailbox refuses a notice, or the server shuts down. -/
def Ends (s : Service) (turn : Nat) (id : ListenerId) (a : Act) : Prop :=
  s.Leaves id a ∨ s.Refuses turn id a ∨ ∃ rounds, a = .shutdown rounds

/-- The events of acting on the oldest report. -/
theorem scene_handle {e : ConnectionEvent} (h : s.pending.head? = some e) :
    (s.step .handle).scene = s.scene.after (handling s.scene e) := by
  rw [scene_step, events, h, Option.elim_some]

/-- After an act that ends its term the listener is not registered. -/
theorem enrolled_of_ends (hdistinct : s.scene.audience.Distinct) (hfits : s.Fits a)
    (hc : s.scene.seat? turn = some c) (hends : s.Ends turn c.listener.id a)
    (hc' : (s.step a).scene.seat? turn = some c') : c'.listener.enrolled = false := by
  have hshutdown {rounds : List Round} (ha : a = .shutdown rounds) :
      c'.listener.enrolled = false := by
    subst ha
    obtain rfl := Option.some.inj ((seat?_step_shutdown hdistinct hfits hc).symm.trans hc')
    rfl
  rcases hends with hleaves | hrefuses | ⟨rounds, ha⟩
  · cases a with
    | handle =>
      have hunregister : (s.scene.step (.unregister c.listener.id)).seat? turn = some c' := by
        rcases hleaves with hgoodbye | hdisconnected
        · rwa [scene_handle hgoodbye] at hc'
        · rwa [scene_handle hdisconnected] at hc'
      exact Scene.enrolled_of_ends (e := .unregister c.listener.id) hdistinct trivial hc
        (.inl rfl) hunregister
    | _ => exact hleaves.elim
  · cases a with
    | handle =>
      obtain ⟨hping, hfull⟩ := hrefuses
      rw [scene_handle hping] at hc'
      exact Scene.enrolled_of_ends (e := .sendTo c.listener.id .pong) hdistinct trivial hc
        (.inr ⟨rfl, hfull⟩) hc'
    | publish st rounds =>
      exact Scene.enrolled_of_ends (e := .fanOut (.statement st.text) rounds) hdistinct hfits hc
        (.inr hrefuses) hc'
    | shutdown => exact hshutdown rfl
    | _ => exact hrefuses.elim
  · exact hshutdown ha

/-! ## The operations of the server -/

/-- While no owner moves, a statement is published as the server does it, in whatever order the
registry keeps its listeners. -/
theorem step_publish_still {order : List ListenerId} (st : Statement)
    (hdistinct : s.scene.audience.Distinct) (hperm : order.Perm s.scene.audience.registered) :
    s.step (.publish st (order.map (⟨[], ·⟩))) =
      { s with scene := { s.scene with
        audience := (Server.publish ⟨s.scene.audience⟩ st).2.audience } } := by
  rw [step, Scene.fanOut_still _ hdistinct hperm]
  rfl

/-- And the server shuts down as it does then. -/
theorem step_shutdown_still {order : List ListenerId} (hdistinct : s.scene.audience.Distinct)
    (hperm : order.Perm s.scene.audience.registered) :
    s.step (.shutdown (order.map (⟨[], ·⟩))) =
      { s with scene := { s.scene with
        audience := (Server.shutdown ⟨s.scene.audience⟩).audience } } := by
  rw [step, Scene.fanOut_still _ hdistinct hperm]
  rfl

/-- The server has acted on all reports once it has acted on each. -/
theorem after_handle_all (s : Service) :
    s.after (List.replicate s.pending.length .handle) =
      ⟨{ s.scene with audience := (Server.poll ⟨s.scene.audience⟩ s.pending).audience }, []⟩ := by
  obtain ⟨scene, pending⟩ := s
  induction pending generalizing scene with
  | nil => rfl
  | cons e pending ih =>
    exact ih { scene with audience := (Server.handle ⟨scene.audience⟩ e).audience }

end Service
end Livecode
