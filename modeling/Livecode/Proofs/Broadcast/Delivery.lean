import Livecode.Proofs.Broadcast.FanOut

/-!
# What a listener receives

From its registration on, a listener is sent every broadcast and whatever names it, in order. That
ends once: when it is removed, or with the first notice that its mailbox refuses. So what its
mailbox has accepted has no gaps, whoever else registers, stalls or leaves meanwhile, in whatever
order the registry keeps its listeners, and however the owners of the mailboxes take their notices.

A run is cut at that point into the *term* of the listener and the rest. One event either leaves a
registered listener registered and its mailbox accepts what the event directs at it, or the listener
is gone and nothing was accepted (`seat?_step`); a run follows by induction on its events.

## Main results

* `seat?_step` — what one event means for one listener.
* `enrolled_of_ends` — what removes a listener, or is refused by its mailbox, ends its term.
* `passed_eq_directed` — what a mailbox accepts during any run.
-/

namespace Livecode

namespace Scene

/-! ## Events -/

/-- Something that is done to an audience, or by the owner of a mailbox. A broadcast is also listed
as it looks from inside, with the rounds of its loop. -/
inductive Event where
  | register (capacity : Option Nat)
  | unregister (id : ListenerId)
  | sendTo (id : ListenerId) (n : Notice)
  | broadcast (n : Notice)
  | publish (st : Statement)
  | fanOut (n : Notice) (rounds : List Round)
  | clear
  | owner (m : OwnerMove)

/-- The scene after an event. -/
def step (s : Scene) : Event → Scene
  | .register capacity => { s with audience := (s.audience.register capacity).2 }
  | .unregister id => { s with audience := s.audience.unregister id }
  | .sendTo id n => { s with audience := (s.audience.sendTo id n).2 }
  | .broadcast n => { s with audience := (s.audience.broadcast n).2 }
  | .publish st => { s with audience := (s.audience.publish st).2 }
  | .fanOut n rounds => (s.fanOut n rounds).2
  | .clear => { s with audience := s.audience.clear }
  | .owner m => s.move m

def after (s : Scene) (es : List Event) : Scene := es.foldl step s

/-- A broadcast has one round for each registered listener. -/
def Fits (s : Scene) : Event → Prop
  | .fanOut _ rounds => (rounds.map (·.id)).Perm s.audience.registered
  | _ => True

/-- Every broadcast of a run has its rounds. -/
def AllFit (s : Scene) : List Event → Prop
  | [] => True
  | e :: es => s.Fits e ∧ (s.step e).AllFit es

theorem AllFit.of_append {s : Scene} {es es' : List Event} (h : s.AllFit (es ++ es')) :
    s.AllFit es ∧ (s.after es).AllFit es' := by
  induction es generalizing s with
  | nil => exact ⟨trivial, h⟩
  | cons e es ih =>
    obtain ⟨hes, hes'⟩ := ih h.2
    exact ⟨⟨h.1, hes⟩, hes'⟩

end Scene

/-! ## Names -/

namespace Audience

/-- A registration leaves nobody else with its name. -/
theorem Distinct.register {a : Audience} (h : a.Distinct) (capacity : Option Nat) :
    (a.register capacity).2.Distinct := by
  have hold : (a.unregister ⟨a.nextId⟩).registered = a.registered.filter (· ∉ [⟨a.nextId⟩]) :=
    a.registered_unregister [⟨a.nextId⟩]
  have hnew : (a.register capacity).2.registered =
      (a.unregister ⟨a.nextId⟩).registered ++ [⟨a.nextId⟩] := by
    simp [Audience.register, registered]
  rw [Distinct, hnew, hold, List.nodup_append_comm]
  exact List.nodup_cons.mpr ⟨by simp, h.filter _⟩

theorem registered_adjust_sublist (a : Audience) (id : ListenerId) {f : Listener → Listener}
    (hid : ∀ l, (f l).id = l.id) (henrolled : ∀ l, (f l).enrolled = true → l.enrolled = true) :
    (a.adjust id f).registered.Sublist a.registered := by
  refine registered_sublist rfl (fun l => ?_) fun l => ?_
  · split
    · exact hid l
    · rfl
  · split
    · exact henrolled l
    · exact fun h => h

end Audience

namespace Scene

/-- Registered listeners go by different names. -/
theorem distinct_step {s : Scene} (h : s.audience.Distinct) (e : Event) :
    (s.step e).audience.Distinct := by
  have hfewer {a : Audience} (hsub : a.registered.Sublist s.audience.registered) : a.Distinct :=
    List.Nodup.sublist hsub h
  have hsent (n : Notice) : (s.step (.broadcast n)).audience.Distinct :=
    hfewer (Audience.registered_sublist rfl (·.deliver_id n) fun _ => Listener.enrolled_of_deliver)
  cases e with
  | register capacity => exact h.register capacity
  | unregister id => exact hfewer (Audience.registered_adjust_sublist _ id (fun _ => rfl) nofun)
  | sendTo id n =>
    exact hfewer (Audience.registered_adjust_sublist _ id (·.deliver_id n)
      fun _ => Listener.enrolled_of_deliver)
  | broadcast n => exact hsent n
  | publish st => exact hsent (.statement st.text)
  | fanOut n rounds =>
    have hleft : (s.step (.fanOut n rounds)).audience.registered =
        s.audience.registered.filter (· ∉ (s.rounds n rounds).failed) := registered_fanOut
    exact hfewer (hleft ▸ List.filter_sublist)
  | clear => exact hfewer (Audience.registered_sublist rfl (fun _ => rfl) nofun)
  | owner m => exact h.congr (s.registered_move m)

end Scene

/-! ## What concerns one listener -/

namespace Scene

/-- The notices that an event directs at a listener. -/
def Event.directed (id : ListenerId) : Event → List Notice
  | .sendTo id' n => if id' = id then [n] else []
  | .broadcast n => [n]
  | .publish st => [.statement st.text]
  | .fanOut n _ => [n]
  | _ => []

/-- An event removes a listener. Registering does so when the names have come round again. -/
def Removes (s : Scene) (id : ListenerId) : Event → Prop
  | .unregister id' => id' = id
  | .clear => True
  | .register capacity => (s.audience.register capacity).1 = id
  | _ => False

/-- The mailbox of the listener of a turn will not accept a notice. -/
def Full (s : Scene) (turn : Nat) : Prop :=
  ∃ l, s.audience.listeners[turn]? = some l ∧ l.mailbox.hasRoom = false

/-- The mailbox of a listener refuses what an event directs at it. In a broadcast it does so in the
round of the listener, after what has gone before. -/
def Refuses (s : Scene) (turn : Nat) (id : ListenerId) : Event → Prop
  | .sendTo id' _ => id' = id ∧ s.Full turn
  | .broadcast _ => s.Full turn
  | .publish _ => s.Full turn
  | .fanOut n rounds => ∃ before r after, rounds = before ++ r :: after ∧ r.id = id ∧
      ((s.rounds n before).scene.moves r.moves).Full turn
  | _ => False

/-- What an event means for the listener of a turn. -/
inductive Concerns (s : Scene) (turn : Nat) (e : Event) (c c' : Seat) : Prop
  | stays : c'.listener.id = c.listener.id → c.listener.enrolled = true →
      c'.listener.enrolled = true → c'.passed = c.passed ++ e.directed c.listener.id →
      Concerns s turn e c c'
  | goes : c'.listener.id = c.listener.id → c.listener.enrolled = true →
      c'.listener.enrolled = false → c'.passed = c.passed →
      s.Removes c.listener.id e ∨ s.Refuses turn c.listener.id e → Concerns s turn e c c'
  | absent : c'.listener.id = c.listener.id → c.listener.enrolled = false →
      c'.listener.enrolled = false → c'.passed = c.passed → Concerns s turn e c c'

variable {s : Scene} {turn : Nat} {e : Event} {c c₁ c' : Seat}

/-- An event that directs nothing at the listener and at most moves its owner. -/
theorem Concerns.of_like (h : Seat.Like c c') (hnothing : e.directed c.listener.id = []) :
    Concerns s turn e c c' := by
  cases henrolled : c.listener.enrolled with
  | false => exact .absent h.id henrolled (h.enrolled.trans henrolled) h.passed
  | true =>
    refine .stays h.id henrolled (h.enrolled.trans henrolled) ?_
    rw [h.passed, hnothing, List.append_nil]

/-- The listener is removed. -/
theorem Concerns.of_leave (hremoves : s.Removes c.listener.id e) :
    Concerns s turn e c (c.on Listener.leave) := by
  cases henrolled : c.listener.enrolled with
  | false => exact .absent rfl henrolled rfl rfl
  | true => exact .goes rfl henrolled rfl rfl (.inl hremoves)

/-- The listener is sent a notice; its owner may move before and after that. -/
theorem Concerns.of_deliver {n : Notice} (hbefore : Seat.Like c c₁)
    (hafter : Seat.Like (c₁.on (·.deliver n)) c') (hdirected : e.directed c.listener.id = [n])
    (hrefuses : c₁.listener.mailbox.hasRoom = false → s.Refuses turn c.listener.id e) :
    Concerns s turn e c c' := by
  have hid : c'.listener.id = c.listener.id :=
    hafter.id.trans ((Listener.deliver_id ..).trans hbefore.id)
  cases henrolled : c.listener.enrolled with
  | false =>
    have hsame : c₁.on (·.deliver n) = c₁ := by
      simp [Seat.on, Listener.deliver, hbefore.enrolled.trans henrolled]
    rw [hsame] at hafter
    exact .absent hid henrolled ((hbefore.trans hafter).enrolled.trans henrolled)
      (hbefore.trans hafter).passed
  | true =>
    have henrolled₁ := hbefore.enrolled.trans henrolled
    cases hroom : c₁.listener.mailbox.hasRoom with
    | false =>
      have hsent : c₁.on (·.deliver n) = c₁.on Listener.leave :=
        congrArg (Seat.mk · _) (Listener.deliver_of_not_hasRoom n fun _ => hroom)
      rw [hsent] at hafter
      exact .goes hid henrolled hafter.enrolled (hafter.passed.trans hbefore.passed)
        (.inr (hrefuses hroom))
    | true =>
      have hsent : c₁.on (·.deliver n) = c₁.on (·.offer n) :=
        congrArg (Seat.mk · _) (Listener.deliver_of_hasRoom n fun _ => hroom)
      have hput : (c₁.on (·.offer n)).passed = c₁.passed ++ [n] := by
        simp [Seat.passed, Seat.on, Listener.offer, henrolled₁, Mailbox.push?, hroom]
      rw [hsent] at hafter
      refine .stays hid henrolled (hafter.enrolled.trans ?_) ?_
      · exact (Listener.offer_enrolled ..).trans henrolled₁
      · rw [hafter.passed, hput, hbefore.passed, hdirected]

theorem full_of_seat? (hc : s.seat? turn = some c) (hroom : c.listener.mailbox.hasRoom = false) :
    s.Full turn := by
  obtain ⟨l, hl, rfl⟩ := Option.map_eq_some_iff.mp hc
  exact ⟨l, hl, hroom⟩

theorem hasRoom_of_full (hc : s.seat? turn = some c) (h : s.Full turn) :
    c.listener.mailbox.hasRoom = false := by
  obtain ⟨l, hl, hroom⟩ := h
  obtain ⟨l', hl', rfl⟩ := Option.map_eq_some_iff.mp hc
  obtain rfl := Option.some.inj (hl.symm.trans hl')
  exact hroom

theorem concerns_fanOut {n : Notice} {rounds : List Round} (hdistinct : s.audience.Distinct)
    (hperm : (rounds.map (·.id)).Perm s.audience.registered) (hc : s.seat? turn = some c) :
    Concerns s turn (.fanOut n rounds) c (c.rounds n turn rounds) := by
  have hnodup := hperm.nodup_iff.mpr hdistinct
  cases henrolled : c.listener.enrolled with
  | false =>
    rw [Seat.rounds_idle fun _ _ _ => henrolled]
    have hlike := Seat.moves_like turn c (rounds.flatMap (·.moves))
    exact .absent hlike.id henrolled (hlike.enrolled.trans henrolled) hlike.passed
  | true =>
    have hmem := hperm.mem_iff.mpr (Audience.mem_registered (mem_of_seat? hc) henrolled)
    obtain ⟨before, r, after, hrounds, hid, hbefore, hafter⟩ := Seat.exists_own hmem hnodup
    rw [hrounds, Seat.rounds_own hid (hid ▸ hbefore) (hid ▸ hafter), ← hrounds]
    refine .of_deliver ((Seat.moves_like ..).trans (Seat.moves_like ..)) (Seat.moves_like ..) rfl
      fun hroom => ⟨before, r, after, hrounds, hid, ?_⟩
    have hpart : (before.map (·.id)).Nodup := by
      rw [hrounds, List.map_append] at hnodup
      exact hnodup.of_append_left
    refine full_of_seat? ?_ hroom
    rw [seat?_moves, seat?_rounds hdistinct hpart hc hbefore, Option.map_some]

theorem seat?_adjust (id : ListenerId) (f : Listener → Listener) (hc : s.seat? turn = some c) :
    seat? { s with audience := s.audience.adjust id f } turn =
      some (if c.listener.id = id then c.on f else c) := by
  rw [seat?_map (a := s.audience.adjust id f) s turn _ rfl, hc, Option.map_some]
  by_cases hid : c.listener.id = id <;> simp [Seat.on, hid]

/-- A registration comes after all that were before it. -/
theorem seat?_register (capacity : Option Nat) (hc : s.seat? turn = some c) :
    (s.step (.register capacity)).seat? turn = some
      (if c.listener.id = (s.audience.register capacity).1 then c.on Listener.leave else c) := by
  obtain ⟨l, hl, -⟩ := Option.map_eq_some_iff.mp hc
  have hlong : turn < (s.audience.unregister ⟨s.audience.nextId⟩).listeners.length := by
    simpa [Audience.unregister, Audience.adjust] using (List.getElem?_eq_some_iff.mp hl).1
  have hsame : (s.step (.register capacity)).seat? turn =
      seat? { s with audience := s.audience.unregister ⟨s.audience.nextId⟩ } turn := by
    simp only [seat?, step, Audience.register, List.getElem?_append_left hlong]
  exact hsame.trans (seat?_adjust _ _ hc)

/-- What an event means for a listener. -/
theorem seat?_step (hdistinct : s.audience.Distinct) (hfits : s.Fits e)
    (hc : s.seat? turn = some c) :
    ∃ c', (s.step e).seat? turn = some c' ∧ Concerns s turn e c c' := by
  have hmapped {a : Audience} (f : Listener → Listener)
      (ha : a.listeners = s.audience.listeners.map f) :
      seat? { s with audience := a } turn = some (c.on f) := by
    rw [seat?_map s turn f ha, hc, Option.map_some]
  cases e with
  | register capacity =>
    refine ⟨_, seat?_register capacity hc, ?_⟩
    split
    next hid => exact .of_leave hid.symm
    next => exact .of_like (.refl c) rfl
  | unregister id =>
    refine ⟨_, seat?_adjust id _ hc, ?_⟩
    split
    next hid => exact .of_leave hid.symm
    next => exact .of_like (.refl c) rfl
  | sendTo id n =>
    refine ⟨_, seat?_adjust id _ hc, ?_⟩
    split
    next hid =>
      exact .of_deliver (.refl c) (.refl _) (if_pos hid.symm) fun hroom =>
        ⟨hid.symm, full_of_seat? hc hroom⟩
    next hid => exact .of_like (.refl c) (if_neg (Ne.symm hid))
  | broadcast n =>
    exact ⟨_, hmapped (·.deliver n) rfl, .of_deliver (.refl c) (.refl _) rfl (full_of_seat? hc)⟩
  | publish st =>
    exact ⟨_, hmapped (·.deliver _) rfl, .of_deliver (.refl c) (.refl _) rfl (full_of_seat? hc)⟩
  | fanOut n rounds =>
    refine ⟨_, ?_, concerns_fanOut hdistinct hfits hc⟩
    exact (seat?_fanOut turn hdistinct hfits).trans (by rw [hc, Option.map_some])
  | clear => exact ⟨_, hmapped _ rfl, .of_leave trivial⟩
  | owner m =>
    refine ⟨_, (seat?_move s turn m).trans (by rw [hc, Option.map_some]), ?_⟩
    split
    · exact .of_like (c.move_like m) rfl
    · exact .of_like (.refl c) rfl

/-! ## What ends a term -/

/-- An event removes a listener, or its mailbox refuses what the event directs at it. -/
def Ends (s : Scene) (turn : Nat) (id : ListenerId) (e : Event) : Prop :=
  s.Removes id e ∨ s.Refuses turn id e

/-- A listener whose mailbox is full is removed by what it is sent. -/
theorem enrolled_deliver_of_full (hc : s.seat? turn = some c) (h : s.Full turn) (n : Notice) :
    (c.listener.deliver n).enrolled = false := by
  rw [Listener.deliver_of_not_hasRoom n fun _ => hasRoom_of_full hc h]
  rfl

/-- A refusal in a broadcast removes the listener. -/
theorem enrolled_of_refuses {n : Notice} {rounds : List Round} (hdistinct : s.audience.Distinct)
    (hperm : (rounds.map (·.id)).Perm s.audience.registered) (hc : s.seat? turn = some c)
    (h : s.Refuses turn c.listener.id (.fanOut n rounds)) :
    (c.rounds n turn rounds).listener.enrolled = false := by
  obtain ⟨before, r, after, rfl, hid, hfull⟩ := h
  have hnodup := hperm.nodup_iff.mpr hdistinct
  rw [List.map_append, List.map_cons, List.nodup_append, List.nodup_cons] at hnodup
  obtain ⟨hpart, ⟨hlast, -⟩, hfirst⟩ := hnodup
  have hbefore : ∀ q ∈ before, q.id ≠ r.id := fun q hq =>
    hfirst q.id (List.mem_map_of_mem hq) r.id List.mem_cons_self
  have hafter : ∀ q ∈ after, q.id ≠ r.id := fun q hq heq => hlast (heq ▸ List.mem_map_of_mem hq)
  -- The mailbox that is full is the one that the listener has in its own round.
  let c₁ := (c.moves turn (before.flatMap (·.moves))).moves turn r.moves
  have hc₁ : ((s.rounds n before).scene.moves r.moves).seat? turn = some c₁ := by
    rw [seat?_moves, seat?_rounds hdistinct hpart hc (hid ▸ hbefore), Option.map_some]
  rw [Seat.rounds_own hid hbefore hafter]
  exact (Seat.moves_like ..).enrolled.trans (enrolled_deliver_of_full hc₁ hfull n)

/-- After an event that ends its term the listener is not registered. -/
theorem enrolled_of_ends (hdistinct : s.audience.Distinct) (hfits : s.Fits e)
    (hc : s.seat? turn = some c) (hends : s.Ends turn c.listener.id e)
    (hc' : (s.step e).seat? turn = some c') : c'.listener.enrolled = false := by
  have hmapped {a : Audience} (f : Listener → Listener)
      (ha : a.listeners = s.audience.listeners.map f) (hout : (f c.listener).enrolled = false)
      (ha' : seat? { s with audience := a } turn = some c') : c'.listener.enrolled = false := by
    rw [seat?_map s turn f ha, hc, Option.map_some] at ha'
    obtain rfl := Option.some.inj ha'
    exact hout
  cases e with
  | register capacity =>
    obtain hid | hrefused := hends
    · rw [seat?_register capacity hc, if_pos hid.symm] at hc'
      obtain rfl := Option.some.inj hc'
      rfl
    · exact hrefused.elim
  | unregister id =>
    obtain hid | hrefused := hends
    · exact hmapped _ rfl (by rw [if_pos hid.symm]; rfl) hc'
    · exact hrefused.elim
  | sendTo id n =>
    obtain hremoved | ⟨hid, hfull⟩ := hends
    · exact hremoved.elim
    · exact hmapped _ rfl (by rw [if_pos hid.symm]; exact enrolled_deliver_of_full hc hfull n) hc'
  | broadcast n =>
    obtain hremoved | hfull := hends
    · exact hremoved.elim
    · exact hmapped (·.deliver n) rfl (enrolled_deliver_of_full hc hfull n) hc'
  | publish st =>
    obtain hremoved | hfull := hends
    · exact hremoved.elim
    · exact hmapped (·.deliver _) rfl (enrolled_deliver_of_full hc hfull _) hc'
  | fanOut n rounds =>
    obtain hremoved | hrefused := hends
    · exact hremoved.elim
    · have hrounds : (s.step (.fanOut n rounds)).seat? turn = some (c.rounds n turn rounds) :=
        (seat?_fanOut turn hdistinct hfits).trans (congrArg (Option.map _) hc)
      obtain rfl := Option.some.inj (hrounds.symm.trans hc')
      exact enrolled_of_refuses hdistinct hfits hc hrefused
  | clear => exact hmapped _ rfl rfl hc'
  | owner m => exact hends.elim False.elim False.elim

/-! ## Runs -/

/-- The listener of a turn is registered, by the given name. -/
def Enrolled (s : Scene) (turn : Nat) (id : ListenerId) : Prop :=
  ∃ l, s.audience.listeners[turn]? = some l ∧ l.id = id ∧ l.enrolled = true

/-- How a run goes for the listener of a turn: for the events of its term it is registered, and none
of them removes it or directs at it what its mailbox refuses. The event after them does, and from
then on it is not registered. -/
structure Attends (s : Scene) (turn : Nat) (id : ListenerId) (term rest : List Event) : Prop where
  enrolled : ∀ es, es <+: term → (s.after es).Enrolled turn id
  lasts : ∀ es e, es ++ [e] <+: term → ¬ (s.after es).Ends turn id e
  ended : ∀ e ∈ rest.head?, (s.after term).Ends turn id e
  gone : ∀ es, es <+: rest → es ≠ [] → ¬ (s.after (term ++ es)).Enrolled turn id

theorem enrolled_iff (hc : s.seat? turn = some c) (id : ListenerId) :
    s.Enrolled turn id ↔ c.listener.id = id ∧ c.listener.enrolled = true := by
  obtain ⟨l, hl, rfl⟩ := Option.map_eq_some_iff.mp hc
  simp [Enrolled, hl]

theorem passed_of_seat? (hc : s.seat? turn = some c) : s.passed turn = c.passed := by
  rw [passed, hc, Option.elim_some]

/-- A listener that is not registered never is again, and its mailbox accepts nothing. -/
theorem absent_after {es : List Event} (hdistinct : s.audience.Distinct) (hfits : s.AllFit es)
    (hc : s.seat? turn = some c) (hgone : c.listener.enrolled = false) :
    ∃ c', (s.after es).seat? turn = some c' ∧ c'.listener.enrolled = false ∧
      c'.passed = c.passed := by
  induction es generalizing s c with
  | nil => exact ⟨c, hc, hgone, rfl⟩
  | cons e es ih =>
    obtain ⟨c', hc', hstep⟩ := seat?_step hdistinct hfits.1 hc
    cases hstep with
    | stays _ henrolled => cases hgone.symm.trans henrolled
    | goes _ henrolled => cases hgone.symm.trans henrolled
    | absent _ _ habsent hpassed =>
      obtain ⟨c'', hc'', hgone', hpassed'⟩ := ih (distinct_step hdistinct e) hfits.2 hc' habsent
      exact ⟨c'', hc'', hgone', hpassed'.trans hpassed⟩

section Attends

variable {id : ListenerId} {term rest es : List Event}

theorem attends_nil (hin : s.Enrolled turn id) : s.Attends turn id [] [] where
  enrolled es hes := by
    obtain rfl := List.prefix_nil.mp hes
    exact hin
  lasts es e hes := by simp at hes
  ended := nofun
  gone es hes hne := absurd (List.prefix_nil.mp hes) hne

/-- The term begins one event earlier. -/
theorem Attends.cons (h : (s.step e).Attends turn id term rest) (hin : s.Enrolled turn id)
    (hlasts : ¬ s.Ends turn id e) : s.Attends turn id (e :: term) rest where
  enrolled es hes := by
    cases es with
    | nil => exact hin
    | cons e' es =>
      obtain ⟨rfl, hprefix⟩ := List.cons_prefix_cons.mp hes
      exact h.enrolled es hprefix
  lasts es e' hes := by
    cases es with
    | nil =>
      obtain ⟨rfl, -⟩ := List.cons_prefix_cons.mp hes
      exact hlasts
    | cons e'' es =>
      obtain ⟨rfl, hprefix⟩ := List.cons_prefix_cons.mp hes
      exact h.lasts es e' hprefix
  ended := h.ended
  gone := h.gone

/-- The term is over with the next event. -/
theorem attends_over (hin : s.Enrolled turn id) (hwhy : s.Ends turn id e)
    (hout : ∀ es', es' <+: es → ¬ ((s.step e).after es').Enrolled turn id) :
    s.Attends turn id [] (e :: es) where
  enrolled es hes := by
    obtain rfl := List.prefix_nil.mp hes
    exact hin
  lasts es e hes := by simp at hes
  ended e' he' := by
    obtain rfl := Option.some.inj he'
    exact hwhy
  gone es' hes' hne := by
    cases es' with
    | nil => exact absurd rfl hne
    | cons e' es' =>
      obtain ⟨rfl, hprefix⟩ := List.cons_prefix_cons.mp hes'
      exact hout es' hprefix

end Attends

/-- A run from the registration of a listener on, cut where its term ends. -/
theorem exists_attends {es : List Event} (hdistinct : s.audience.Distinct) (hfits : s.AllFit es)
    (hc : s.seat? turn = some c) (henrolled : c.listener.enrolled = true) :
    ∃ term rest, es = term ++ rest ∧ s.Attends turn c.listener.id term rest ∧
      (s.after es).passed turn = c.passed ++ term.flatMap (·.directed c.listener.id) := by
  -- Whatever the seat has accepted before, the events add to it; so it is any seat that is taken.
  induction es generalizing s c with
  | nil =>
    have hin : s.Enrolled turn c.listener.id := (enrolled_iff hc _).mpr ⟨rfl, henrolled⟩
    exact ⟨[], [], rfl, attends_nil hin, (passed_of_seat? hc).trans (List.append_nil _).symm⟩
  | cons e es ih =>
    have hin : s.Enrolled turn c.listener.id := (enrolled_iff hc _).mpr ⟨rfl, henrolled⟩
    have hdistinct' := distinct_step hdistinct e
    obtain ⟨c', hc', hstep⟩ := seat?_step hdistinct hfits.1 hc
    cases hstep with
    | stays hid _ henrolled' hpassed =>
      obtain ⟨term, rest, rfl, hattends, hrest⟩ := ih hdistinct' hfits.2 hc' henrolled'
      rw [hid] at hattends hrest
      have hlasts : ¬ s.Ends turn c.listener.id e := fun hends =>
        Bool.false_ne_true
          ((enrolled_of_ends hdistinct hfits.1 hc hends hc').symm.trans henrolled')
      refine ⟨e :: term, rest, rfl, hattends.cons hin hlasts, ?_⟩
      rw [List.flatMap_cons, ← List.append_assoc, ← hpassed]
      exact hrest
    | goes _ _ hgone hpassed hwhy =>
      refine ⟨[], e :: es, rfl, attends_over hin hwhy fun es' hprefix => ?_, ?_⟩
      · obtain ⟨rest, rfl⟩ := hprefix
        obtain ⟨c'', hc'', hgone', -⟩ := absent_after hdistinct' hfits.2.of_append.1 hc' hgone
        intro hback
        obtain ⟨-, hback⟩ := (enrolled_iff hc'' _).mp hback
        cases hgone'.symm.trans hback
      · obtain ⟨c'', hc'', -, hpassed'⟩ := absent_after hdistinct' hfits.2 hc' hgone
        rw [List.flatMap_nil, List.append_nil, ← hpassed, ← hpassed']
        exact passed_of_seat? hc''
    | absent _ habsent => cases habsent.symm.trans henrolled

/-! ## From the start -/

/-- What holds of a scene in every run. -/
structure Sound (s : Scene) : Prop where
  distinct : s.audience.Distinct
  vacant : ∀ turn, s.audience.listeners[turn]? = none → s.gone turn = []

theorem sound_empty : empty.Sound := ⟨List.nodup_nil, fun _ _ => rfl⟩

theorem Sound.step (h : s.Sound) (hfits : s.Fits e) : (s.step e).Sound where
  distinct := distinct_step h.distinct e
  vacant turn hnone := by
    -- Turns are never given back, so one that is free now was free before.
    have hvacant : s.Vacant turn := by
      cases hl : s.audience.listeners[turn]? with
      | none => exact ⟨hl, h.vacant turn hl⟩
      | some l =>
        have hc : s.seat? turn = some ⟨l, s.gone turn⟩ := congrArg (Option.map _) hl
        obtain ⟨c', hc', -⟩ := seat?_step h.distinct hfits hc
        simp [seat?, hnone] at hc'
    cases e with
    | fanOut n rounds => exact hvacant.fanOut.2
    | owner m => exact (hvacant.move m).2
    | _ => exact hvacant.2

theorem Sound.after {es : List Event} (h : s.Sound) (hfits : s.AllFit es) : (s.after es).Sound := by
  induction es generalizing s with
  | nil => exact h
  | cons e es ih => exact ih (h.step hfits.1) hfits.2

/-- The seat of a listener that has just registered. -/
theorem seat?_registered (h : s.Sound) (capacity : Option Nat) :
    (s.step (.register capacity)).seat? s.audience.listeners.length =
      some ⟨⟨(s.audience.register capacity).1, .empty capacity, true⟩, []⟩ := by
  have hgone := h.vacant s.audience.listeners.length (List.getElem?_length _)
  simp [seat?, step, Audience.register, Audience.unregister, Audience.adjust, hgone]

/-- **A listener never misses a notice and then receives a later one.** Whatever is done before and
after it registers, the events after it fall into its term and a rest: its mailbox accepts exactly
what the events of the term direct at it, in order, each notice once, and accepts nothing else. The
events include broadcasts seen from inside; in any order of its rounds such a broadcast is that of
the audience, if no owner moves meanwhile. -/
theorem passed_eq_directed (before after : List Event) (capacity : Option Nat)
    (hfits : empty.AllFit (before ++ .register capacity :: after)) :
    let s := empty.after before
    let registered := s.step (.register capacity)
    let turn := s.audience.listeners.length
    let id := (s.audience.register capacity).1
    (∃ term rest, after = term ++ rest ∧ registered.Attends turn id term rest ∧
      (registered.after after).passed turn = term.flatMap (·.directed id)) ∧
    ∀ (n : Notice) (order : List ListenerId), order.Perm s.audience.registered →
      s.fanOut n (order.map (⟨[], ·⟩)) = ((s.audience.broadcast n).1, s.step (.broadcast n)) := by
  obtain ⟨hbefore, hafter⟩ := hfits.of_append
  have hsound := sound_empty.after hbefore
  constructor
  · have hseat := seat?_registered hsound capacity
    exact exists_attends (hsound.step hafter.1).distinct hafter.2 hseat rfl
  · exact fun n order hperm => fanOut_still n hsound.distinct hperm

/-- A listener whose mailbox holds one notice stalls after its second one; the first of the two
broadcasts comes to it before the listener that registered earlier. -/
theorem passed_of_stalled :
    let before : List Event := [.register none, .broadcast .pong]
    let after : List Event := [.sendTo ⟨1⟩ (.hello ⟨1⟩), .owner (.take 1 5),
      .fanOut .shutdown [⟨[.take 0 1], ⟨1⟩⟩, ⟨[], ⟨0⟩⟩], .broadcast .pong, .owner (.take 1 5),
      .sendTo ⟨1⟩ .pong]
    let registered := (empty.after before).step (.register (some 1))
    empty.AllFit (before ++ .register (some 1) :: after) ∧
      (registered.after after).passed 1 = [.hello ⟨1⟩, .shutdown] ∧
      ∃ term rest, after = term ++ rest ∧ registered.Attends 1 ⟨1⟩ term rest ∧
        (registered.after after).passed 1 = term.flatMap (·.directed ⟨1⟩) := by
  intro before after registered
  have hfits : empty.AllFit (before ++ .register (some 1) :: after) :=
    ⟨trivial, trivial, trivial, trivial, trivial, .swap .., trivial, trivial, trivial, trivial⟩
  have hpassed : (registered.after after).passed 1 = [.hello ⟨1⟩, .shutdown] := by decide
  exact ⟨hfits, hpassed, (passed_eq_directed before after (some 1) hfits).1⟩

end Scene

end Livecode
