import Livecode.Proofs.Broadcast.Names

/-!
# What the registry says

The registry is asked from many sides. A connection keeps the name it was given and comes back with
it long after its listener was removed, and whoever sends a notice to everyone goes by the number
that is reported. Both can be relied on. A name that was given once is not given again, so an old one
leads to nobody; and the number reported is the number of mailboxes that took the notice, which is
the number of listeners still there.

The loop of a broadcast counts before it removes anybody. That the two numbers agree is seen from
the seats: a notice for everyone leaves a listener registered exactly when its mailbox accepts it
(`Concerns.accepted_iff`).

## Main results

* `names_after` — the names of a run are those that its registrations gave out.
* `acceptors_eq_count` — those who accept a notice for everyone are those who stay.
* `fresh_names_and_exact_counts` — what the registry says in every run.
-/

namespace Livecode

/-! ## Names that lead to nobody -/

namespace Audience

variable {a : Audience} {id : ListenerId}

theorem not_enrolled_of_not_isRegistered {l : Listener} (h : a.isRegistered id = false)
    (hl : l ∈ a.listeners) (hid : l.id = id) : l.enrolled = false := by
  have hnone := List.any_eq_false.mp h l hl
  simpa [hid] using hnone

/-- Nothing happens to a listener that is not registered. -/
theorem adjust_of_not_isRegistered {f : Listener → Listener} (h : a.isRegistered id = false)
    (hf : ∀ l, l.enrolled = false → f l = l) : a.adjust id f = a := by
  have hsame : a.listeners.map (fun l => if l.id = id then f l else l) = a.listeners := by
    refine (List.map_congr_left fun l hl => ?_).trans (List.map_id _)
    split
    next hid => exact hf l (not_enrolled_of_not_isRegistered h hl hid)
    next => rfl
  rw [adjust, hsame]

theorem unregister_of_not_isRegistered (h : a.isRegistered id = false) : a.unregister id = a :=
  adjust_of_not_isRegistered h fun _ => Listener.leave_of_not_enrolled

theorem sendTo_of_not_isRegistered (h : a.isRegistered id = false) (n : Notice) :
    a.sendTo id n = (false, a) := by
  have hsame : a.adjust id (·.deliver n) = a :=
    adjust_of_not_isRegistered h fun l hout => by simp [Listener.deliver, hout]
  rw [sendTo, hsame, h]

/-- The registered listeners, counted by their turns. -/
theorem count_eq_countP_range (a : Audience) :
    a.count = (List.range a.listeners.length).countP fun turn =>
      (a.listeners[turn]?).any (·.enrolled) := by
  have hturns : (List.range a.listeners.length).map (a.listeners[·]?) = a.listeners.map some :=
    List.ext_getElem (by simp) fun turn _ _ => by simp
  have hcount := congrArg (List.countP (Option.any (·.enrolled))) hturns
  rw [List.countP_map, List.countP_map] at hcount
  exact hcount.symm

end Audience

namespace Scene

/-! ## Names that were given -/

/-- The name that an event gives out. -/
def given (s : Scene) : Event → List ListenerId
  | .register capacity => [(s.audience.register capacity).1]
  | _ => []

/-- The names that the registrations of a run give out, in order. -/
def namesGiven (s : Scene) : List Event → List ListenerId
  | [] => []
  | e :: es => s.given e ++ (s.step e).namesGiven es

theorem names_step (s : Scene) (e : Event) :
    (s.step e).audience.names = s.audience.names ++ s.given e := by
  cases e with
  | register capacity => exact s.audience.names_register capacity
  | _ =>
    refine (sameNames_step s ?_).names.trans (List.append_nil _).symm
    exact nofun

/-- The names of a run are those that its registrations gave out. -/
theorem names_after (s : Scene) (es : List Event) :
    (s.after es).audience.names = s.audience.names ++ s.namesGiven es := by
  induction es generalizing s with
  | nil => exact (List.append_nil _).symm
  | cons e es ih =>
    rw [namesGiven, ← List.append_assoc, ← names_step]
    exact ih (s.step e)

/-- A registration returns a name that no one was given before. -/
theorem register_not_mem_namesGiven {es : List Event} (capacity : Option Nat)
    (hfew : (empty.namesGiven es).length < UInt64.size) :
    ((empty.after es).audience.register capacity).1 ∉ empty.namesGiven es := by
  have hnames : (empty.after es).audience.names = empty.namesGiven es := names_after empty es
  have hnumbered : (empty.after es).audience.Numbered :=
    Numbered.after (s := empty) Audience.numbered_empty es
  rw [← hnames, Audience.length_names] at hfew
  rw [← hnames]
  intro hmem
  obtain ⟨l, hl, hid⟩ := List.mem_map.mp hmem
  obtain ⟨turn, hturn⟩ := List.mem_iff_getElem?.mp hl
  exact hnumbered.ne_nextId hfew hturn hid

/-! ## Notices for everyone -/

/-- How many mailboxes have accepted a notice between one moment and another, and nothing else. -/
def acceptors (s s' : Scene) (n : Notice) : Nat :=
  (List.range s.audience.listeners.length).countP fun turn =>
    s'.passed turn = s.passed turn ++ [n]

/-- The notice that an event sends to everyone, and the number that is reported for it. -/
def report? (s : Scene) : Event → Option (Notice × Nat)
  | .broadcast n => some (n, (s.audience.broadcast n).1)
  | .publish st => some (.statement st.text, (s.audience.publish st).1)
  | .fanOut n rounds => some (n, (s.fanOut n rounds).1)
  | _ => none

variable {s : Scene} {turn k : Nat} {e : Event} {n : Notice} {c c' : Seat}

theorem directed_of_report? (h : s.report? e = some (n, k)) (id : ListenerId) :
    e.directed id = [n] := by
  cases e <;> simp_all [report?, Event.directed]

/-- The number reported is that of the listeners left. -/
theorem count_of_report? (hdistinct : s.audience.Distinct) (hfits : s.Fits e)
    (h : s.report? e = some (n, k)) : k = (s.step e).audience.count := by
  cases e with
  | broadcast | publish =>
    obtain ⟨-, rfl⟩ := Prod.mk.inj (Option.some.inj h)
    exact Audience.count_broadcast ..
  | fanOut =>
    obtain ⟨-, rfl⟩ := Prod.mk.inj (Option.some.inj h)
    exact fanOut_count hdistinct hfits
  | _ => cases h

/-- What is directed at a listener is accepted exactly if the listener stays. -/
theorem Concerns.accepted_iff (h : Concerns s turn e c c')
    (hdirected : e.directed c.listener.id = [n]) :
    c'.passed = c.passed ++ [n] ↔ c'.listener.enrolled = true := by
  cases h with
  | stays _ _ henrolled hpassed => exact iff_of_true (hdirected ▸ hpassed) henrolled
  | goes _ _ hgone hpassed => simp [hgone, hpassed]
  | absent _ _ habsent hpassed => simp [habsent, hpassed]

/-- Those who accept a notice for everyone are those who stay. -/
theorem acceptors_eq_count (hdistinct : s.audience.Distinct) (hfits : s.Fits e)
    (hdirected : ∀ id, e.directed id = [n]) :
    s.acceptors (s.step e) n = (s.step e).audience.count := by
  have hlength : (s.step e).audience.listeners.length = s.audience.listeners.length := by
    have hsame := sameNames_step s (e := e) fun capacity heq => by
      simpa [heq, Event.directed] using hdirected ⟨0⟩
    rw [← Audience.length_names, hsame.names, Audience.length_names]
  rw [Audience.count_eq_countP_range, hlength]
  refine List.countP_congr fun turn hturn => ?_
  have hlt : turn < s.audience.listeners.length := List.mem_range.mp hturn
  have hc : s.seat? turn = some ⟨s.audience.listeners[turn], s.gone turn⟩ := by simp [seat?, hlt]
  obtain ⟨c', hc', hconcerns⟩ := seat?_step hdistinct hfits hc
  obtain ⟨l', hl', rfl⟩ := Option.map_eq_some_iff.mp hc'
  rw [decide_eq_true_iff, passed_of_seat? hc, passed_of_seat? hc', hl', Option.any_some]
  exact hconcerns.accepted_iff (hdirected _)

/-- **What the registry says can be relied on.** After whatever was done, as long as the names have
not come round: a registration returns a name that was never returned before; a name that is not
registered can be removed or sent to without any effect; and the number reported for a notice to
everyone is the number of mailboxes that accepted it and the number of listeners registered after
it. The loop of a broadcast may go through the listeners in any order while their owners move; if
they do not move, it is the broadcast of the audience. -/
theorem fresh_names_and_exact_counts (es : List Event) (hfits : empty.AllFit es)
    (hfew : (empty.namesGiven es).length < UInt64.size) :
    let s := empty.after es
    (∀ capacity, (s.audience.register capacity).1 ∉ empty.namesGiven es) ∧
    (∀ id, s.audience.isRegistered id = false →
      s.audience.unregister id = s.audience ∧
        ∀ n, s.audience.sendTo id n = (false, s.audience)) ∧
    (∀ e n k, s.Fits e → s.report? e = some (n, k) →
      k = s.acceptors (s.step e) n ∧ k = (s.step e).audience.count) ∧
    ∀ (n : Notice) (order : List ListenerId), order.Perm s.audience.registered →
      s.fanOut n (order.map (⟨[], ·⟩)) = ((s.audience.broadcast n).1, s.step (.broadcast n)) := by
  intro s
  have hdistinct : s.audience.Distinct := (sound_empty.after hfits).distinct
  refine ⟨fun capacity => register_not_mem_namesGiven capacity hfew, fun id hout => ?_,
    fun e n k he hreport => ?_, fun n order hperm => fanOut_still n hdistinct hperm⟩
  · exact ⟨Audience.unregister_of_not_isRegistered hout,
      Audience.sendTo_of_not_isRegistered hout⟩
  · have hcount := count_of_report? hdistinct he hreport
    have haccepted := acceptors_eq_count hdistinct he (directed_of_report? hreport)
    exact ⟨hcount.trans haccepted.symm, hcount⟩

/-- The first listener has left; a broadcast comes first to the third one, whose owner has just
taken a notice, and then to the second one, whose mailbox is full. -/
theorem exact_counts_of_full_mailbox :
    let es : List Event := [.register none, .register (some 1), .register (some 1), .unregister ⟨0⟩,
      .broadcast .pong]
    let e : Event := .fanOut .shutdown [⟨[.take 2 1], ⟨2⟩⟩, ⟨[], ⟨1⟩⟩]
    let s := empty.after es
    empty.AllFit es ∧ (empty.namesGiven es).length < UInt64.size ∧
      (s.audience.register none).1 ∉ empty.namesGiven es ∧
      s.audience.isRegistered ⟨0⟩ = false ∧ s.audience.unregister ⟨0⟩ = s.audience ∧
      s.audience.sendTo ⟨0⟩ .pong = (false, s.audience) ∧
      s.Fits e ∧ s.report? e = some (.shutdown, 1) ∧
      1 = s.acceptors (s.step e) .shutdown ∧ 1 = (s.step e).audience.count := by
  intro es e s
  have hfits : empty.AllFit es := ⟨trivial, trivial, trivial, trivial, trivial, trivial⟩
  have hfew : (empty.namesGiven es).length < UInt64.size := by decide
  have hout : s.audience.isRegistered ⟨0⟩ = false := by decide
  have he : s.Fits e := .swap ..
  have hreport : s.report? e = some (.shutdown, 1) := by decide
  obtain ⟨hfresh, hstale, hcounts, -⟩ := fresh_names_and_exact_counts es hfits hfew
  obtain ⟨hunregister, hsendTo⟩ := hstale ⟨0⟩ hout
  obtain ⟨haccepted, hcount⟩ := hcounts e .shutdown 1 he hreport
  exact ⟨hfits, hfew, hfresh none, hout, hunregister, hsendTo .pong, he, hreport, haccepted, hcount⟩

end Scene

end Livecode
