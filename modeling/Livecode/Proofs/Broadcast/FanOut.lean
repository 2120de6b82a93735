import Livecode.Proofs.Broadcast.Scene
import Mathlib.Data.List.Perm.Basic

/-!
# A broadcast from inside

A broadcast sends its notice to one listener after the other, in whatever order the registry keeps
them. It notes whose mailbox refused the notice, and removes those listeners when it has been
through all of them. The owners of the mailboxes do not wait for that: between any two sendings they
take notices or go away. This loop (`Scene.fanOut`) is written out here.

What it does to a seat depends only on the listener's own round and on the moves of its own owner.
That refusals are dealt with at the end makes no difference either: every listener has one round, so
nothing is sent to it between its refusal and its removal. The proof compares the loop, had it ended
after some of its rounds (`FanOut.settled?`), with rounds that remove a listener at its refusal.

## Main results

* `seat?_fanOut` — what becomes of a seat, in any order of the rounds, with any moves in between.
* `fanOut_still` — while no owner moves, the loop is the broadcast of the audience in any order.
* `fanOut_count` — a broadcast reports how many listeners are registered after it.
-/

namespace Livecode

/-! ## Listeners -/

namespace Listener

/-- The notice goes into the mailbox unless the mailbox refuses it. -/
def offer (l : Listener) (n : Notice) : Listener :=
  if l.enrolled then { l with mailbox := (l.mailbox.push? n).getD l.mailbox } else l

@[simp] theorem offer_id (l : Listener) (n : Notice) : (l.offer n).id = l.id := by
  unfold offer
  split <;> rfl

@[simp] theorem offer_enrolled (l : Listener) (n : Notice) :
    (l.offer n).enrolled = l.enrolled := by
  unfold offer
  split <;> rfl

/-- The listener is removed if it is among those that refused. -/
def settle (l : Listener) (failed : List ListenerId) : Listener :=
  if l.id ∈ failed then l.leave else l

@[simp] theorem settle_id (l : Listener) (failed : List ListenerId) :
    (l.settle failed).id = l.id := by
  unfold settle
  split <;> rfl

@[simp] theorem settle_enrolled (l : Listener) (failed : List ListenerId) :
    (l.settle failed).enrolled = (decide (l.id ∉ failed) && l.enrolled) := by
  by_cases h : l.id ∈ failed <;> simp [settle, leave, h]

theorem settle_of_not_mem {l : Listener} {failed : List ListenerId} (h : l.id ∉ failed) :
    l.settle failed = l := if_neg h

theorem settle_concat (l : Listener) (failed : List ListenerId) (id : ListenerId) :
    l.settle (failed ++ [id]) = if l.id = id then l.leave else l.settle failed := by
  by_cases hid : l.id = id <;> simp [settle, hid]

theorem leave_of_not_enrolled {l : Listener} (h : l.enrolled = false) : l.leave = l := by
  rw [leave, ← h]

theorem deliver_of_hasRoom {l : Listener} (n : Notice)
    (h : l.enrolled = true → l.mailbox.hasRoom = true) : l.deliver n = l.offer n := by
  unfold deliver offer
  split
  next henrolled => simp [Mailbox.push?, h henrolled]
  next => rfl

theorem deliver_of_not_hasRoom {l : Listener} (n : Notice)
    (h : l.enrolled = true → l.mailbox.hasRoom = false) : l.deliver n = l.leave := by
  unfold deliver
  split
  next henrolled => simp [Mailbox.push?, h henrolled, leave]
  next henrolled => exact (leave_of_not_enrolled (Bool.eq_false_iff.mpr henrolled)).symm

/-- Delivers a notice if the listener goes by the given name. -/
def deliverTo (l : Listener) (id : ListenerId) (n : Notice) : Listener :=
  if l.id = id then l.deliver n else l

/-- A listener whose mailbox refuses the notice may as well be removed later. -/
theorem settle_of_refused {l : Listener} {id : ListenerId} {failed : List ListenerId} (n : Notice)
    (hfresh : id ∉ failed)
    (hfull : l.id = id → l.enrolled = true → l.mailbox.hasRoom = false) :
    l.settle (failed ++ [id]) = (l.settle failed).deliverTo id n := by
  rw [settle_concat, deliverTo, settle_id]
  split
  next hid =>
    rw [settle_of_not_mem (hid.symm ▸ hfresh), deliver_of_not_hasRoom n (hfull hid)]
  next => rfl

theorem settle_of_accepted {l : Listener} {id : ListenerId} {failed : List ListenerId} (n : Notice)
    (hfresh : id ∉ failed)
    (hroom : l.id = id → l.enrolled = true → l.mailbox.hasRoom = true) :
    (if l.id = id then l.offer n else l).settle failed = (l.settle failed).deliverTo id n := by
  rw [deliverTo, settle_id]
  split
  next hid =>
    have hspared : (l.offer n).id ∉ failed := by rwa [offer_id, hid]
    rw [settle_of_not_mem hspared, settle_of_not_mem (hid.symm ▸ hfresh),
      deliver_of_hasRoom n (hroom hid)]
  next => rfl

end Listener

/-! ## Removing several listeners -/

namespace Audience

/-- Several listeners are removed. -/
theorem listeners_unregister (a : Audience) (ids : List ListenerId) :
    (ids.foldl unregister a).listeners = a.listeners.map (·.settle ids) := by
  induction ids generalizing a with
  | nil => exact (List.map_id _).symm
  | cons id ids ih =>
    rw [List.foldl_cons, ih, unregister, adjust, List.map_map]
    refine List.map_congr_left fun l _ => ?_
    by_cases hid : l.id = id
    · by_cases hmem : id ∈ ids <;> simp [Listener.settle, hid, hmem, Listener.leave]
    · simp [Listener.settle, hid]

theorem registered_unregister (a : Audience) (ids : List ListenerId) :
    (ids.foldl unregister a).registered = a.registered.filter (· ∉ ids) := by
  simp [registered, listeners_unregister, List.filter_map, List.filter_filter, Function.comp_def]

theorem nextId_unregister (a : Audience) (ids : List ListenerId) :
    (ids.foldl unregister a).nextId = a.nextId := by
  induction ids generalizing a with
  | nil => rfl
  | cons id ids ih => exact ih _

end Audience

/-! ## The loop -/

/-- One round of a broadcast: who is sent the notice, and what the owners do before that. -/
structure Round where
  moves : List OwnerMove
  id : ListenerId
  deriving DecidableEq, Repr

/-- A broadcast under way. -/
structure FanOut where
  scene : Scene
  delivered : Nat
  failed : List ListenerId

namespace FanOut

/-- One round. A listener that refuses the notice is only noted. -/
def round (n : Notice) (p : FanOut) (r : Round) : FanOut :=
  let s := p.scene.moves r.moves
  if s.audience.accepts r.id then
    ⟨{ s with audience := s.audience.adjust r.id (·.offer n) }, p.delivered + 1, p.failed⟩
  else ⟨s, p.delivered, p.failed ++ [r.id]⟩

/-- The end: those who refused are removed. -/
def finish (p : FanOut) : Nat × Scene :=
  (p.delivered, { p.scene with audience := p.failed.foldl Audience.unregister p.scene.audience })

end FanOut

namespace Scene

/-- The rounds of a broadcast so far. -/
def rounds (s : Scene) (n : Notice) (rs : List Round) : FanOut :=
  rs.foldl (FanOut.round n) ⟨s, 0, []⟩

/-- A whole broadcast; says how many accepted the notice. -/
def fanOut (s : Scene) (n : Notice) (rs : List Round) : Nat × Scene := (s.rounds n rs).finish

end Scene

/-! ## The loop seen from one seat -/

namespace Seat

/-- What a round does to the seat of a turn, had it removed a listener at its refusal. -/
def round (n : Notice) (turn : Nat) (c : Seat) (r : Round) : Seat :=
  (c.moves turn r.moves).on (·.deliverTo r.id n)

/-- What the rounds of a broadcast do to it. -/
def rounds (n : Notice) (turn : Nat) (c : Seat) (rs : List Round) : Seat :=
  rs.foldl (Seat.round n turn) c

variable {n : Notice} {turn : Nat} {c : Seat} {rs : List Round}

/-- Rounds of others, and any rounds when the listener is not registered. -/
theorem rounds_idle (h : ∀ r ∈ rs, r.id = c.listener.id → c.listener.enrolled = false) :
    c.rounds n turn rs = c.moves turn (rs.flatMap (·.moves)) := by
  induction rs generalizing c with
  | nil => rfl
  | cons r rs ih =>
    obtain ⟨hr, hrs⟩ := List.forall_mem_cons.mp h
    have hlike := moves_like turn c r.moves
    have hround : c.round n turn r = c.moves turn r.moves := by
      by_cases hid : c.listener.id = r.id
      · have habsent := hlike.enrolled.trans (hr hid.symm)
        simp [round, on, Listener.deliverTo, Listener.deliver, habsent]
      · have hother : (c.moves turn r.moves).listener.id ≠ r.id := hlike.id ▸ hid
        simp [round, on, Listener.deliverTo, hother]
    rw [List.flatMap_cons, moves_append, ← ih (by rwa [hlike.id, hlike.enrolled]), ← hround]
    rfl

/-- The rounds around the listener's own one. -/
theorem rounds_own {before after : List Round} {r : Round} (hid : r.id = c.listener.id)
    (hbefore : ∀ q ∈ before, q.id ≠ r.id) (hafter : ∀ q ∈ after, q.id ≠ r.id) :
    c.rounds n turn (before ++ r :: after) =
      Seat.moves turn (((c.moves turn (before.flatMap (·.moves))).moves turn r.moves).on
        (·.deliver n)) (after.flatMap (·.moves)) := by
  have hidle : c.rounds n turn before = c.moves turn (before.flatMap (·.moves)) :=
    rounds_idle fun q hq hown => absurd (hown.trans hid.symm) (hbefore q hq)
  have hlike := (moves_like turn c (before.flatMap (·.moves))).trans (moves_like turn _ r.moves)
  have hround : (c.rounds n turn before).round n turn r =
      ((c.moves turn (before.flatMap (·.moves))).moves turn r.moves).on (·.deliver n) := by
    rw [hidle, round, on, Listener.deliverTo, if_pos (hlike.id.trans hid.symm)]
    rfl
  rw [rounds, List.foldl_append, List.foldl_cons]
  refine (congrArg (Seat.rounds n turn · after) hround).trans (rounds_idle fun q hq hown => ?_)
  have hsame : (((c.moves turn (before.flatMap (·.moves))).moves turn r.moves).on
      (·.deliver n)).listener.id = r.id := (Listener.deliver_id ..).trans (hlike.id.trans hid.symm)
  exact absurd (hown.trans hsame) (hafter q hq)

theorem exists_own {id : ListenerId} (hmem : id ∈ rs.map (·.id)) (hnodup : (rs.map (·.id)).Nodup) :
    ∃ before r after, rs = before ++ r :: after ∧ r.id = id ∧
      (∀ q ∈ before, q.id ≠ id) ∧ ∀ q ∈ after, q.id ≠ id := by
  obtain ⟨r, hr, rfl⟩ := List.mem_map.mp hmem
  obtain ⟨before, after, rfl⟩ := List.append_of_mem hr
  rw [List.map_append, List.map_cons, List.nodup_append, List.nodup_cons] at hnodup
  obtain ⟨-, ⟨hafter, -⟩, hbefore⟩ := hnodup
  refine ⟨before, r, after, rfl, rfl, fun q hq => ?_, fun q hq hid => ?_⟩
  · exact hbefore q.id (List.mem_map_of_mem hq) r.id (List.mem_cons_self ..)
  · exact hafter (hid ▸ List.mem_map_of_mem hq)

/-- No owner moves, and the listener has a round if it is registered. -/
theorem rounds_still (hstill : ∀ r ∈ rs, r.moves = []) (hnodup : (rs.map (·.id)).Nodup)
    (hmem : c.listener.enrolled = true → c.listener.id ∈ rs.map (·.id)) :
    c.rounds n turn rs = c.on (·.deliver n) := by
  cases henrolled : c.listener.enrolled with
  | false =>
    rw [rounds_idle fun _ _ _ => henrolled, List.flatMap_eq_nil_iff.mpr hstill]
    simp [moves, on, Listener.deliver, henrolled]
  | true =>
    obtain ⟨before, r, after, rfl, hid, hbefore, hafter⟩ := exists_own (hmem henrolled) hnodup
    obtain ⟨hbefore', hstill⟩ := List.forall_mem_append.mp hstill
    obtain ⟨hr, hafter'⟩ := List.forall_mem_cons.mp hstill
    rw [rounds_own hid (hid ▸ hbefore) (hid ▸ hafter), List.flatMap_eq_nil_iff.mpr hbefore', hr,
      List.flatMap_eq_nil_iff.mpr hafter']
    rfl

end Seat

namespace Seat

theorem leave_moves (turn : Nat) (c : Seat) (ms : List OwnerMove) :
    (c.on Listener.leave).moves turn ms = (c.moves turn ms).on Listener.leave := by
  induction ms generalizing c with
  | nil => rfl
  | cons m ms ih =>
    have hmove : (if m.turn = turn then (c.on Listener.leave).move m else c.on Listener.leave) =
        (if m.turn = turn then c.move m else c).on Listener.leave := by
      split <;> rfl
    rw [moves, List.foldl_cons, hmove]
    exact ih _

theorem settle_moves (turn : Nat) (c : Seat) (failed : List ListenerId) (ms : List OwnerMove) :
    (c.on (·.settle failed)).moves turn ms = (c.moves turn ms).on (·.settle failed) := by
  have hid := (moves_like turn c ms).id
  by_cases hmem : c.listener.id ∈ failed
  · simpa [on, Listener.settle, hid, hmem] using leave_moves turn c ms
  · simp [on, Listener.settle, hid, hmem]

end Seat

namespace FanOut

/-- The seat of a turn, if the broadcast ended here. -/
def settled? (p : FanOut) (turn : Nat) : Option Seat :=
  (p.scene.seat? turn).map (Seat.on (·.settle p.failed))

theorem seat?_finish (p : FanOut) (turn : Nat) : p.finish.2.seat? turn = p.settled? turn :=
  p.scene.seat?_map turn _ (p.scene.audience.listeners_unregister p.failed)

variable (n : Notice) (p : FanOut) (r : Round)

/-- A round in which the notice is accepted. -/
theorem round_of_accepts (h : (p.scene.moves r.moves).audience.accepts r.id = true) :
    p.round n r = ⟨{ p.scene.moves r.moves with
        audience := (p.scene.moves r.moves).audience.adjust r.id (·.offer n) },
      p.delivered + 1, p.failed⟩ := if_pos h

/-- A round in which the notice is refused. -/
theorem round_of_not_accepts (h : (p.scene.moves r.moves).audience.accepts r.id = false) :
    p.round n r = ⟨p.scene.moves r.moves, p.delivered, p.failed ++ [r.id]⟩ :=
  if_neg (Bool.eq_false_iff.mp h)

theorem registered_round :
    (p.round n r).scene.audience.registered = p.scene.audience.registered := by
  have hmoved := p.scene.registered_moves r.moves
  cases haccepts : (p.scene.moves r.moves).audience.accepts r.id with
  | false =>
    rw [round_of_not_accepts n p r haccepts]
    exact hmoved
  | true =>
    rw [round_of_accepts n p r haccepts]
    refine Eq.trans (Audience.registered_map rfl (fun l => ?_) fun l => ?_) hmoved
    · split
      · exact l.offer_id n
      · rfl
    · split
      · exact l.offer_enrolled n
      · rfl

/-- What a round does to a seat, when refusals are dealt with at the end. -/
theorem settled?_round (turn : Nat) (hdistinct : p.scene.audience.Distinct)
    (hfresh : r.id ∉ p.failed) :
    (p.round n r).settled? turn = (p.settled? turn).map (Seat.round n turn · r) := by
  have hseat := p.scene.seat?_moves turn r.moves
  have hmoved : (p.scene.moves r.moves).audience.Distinct :=
    hdistinct.congr (p.scene.registered_moves r.moves)
  -- The seat of the listener whose round it is has the mailbox that is asked.
  have hspeaks {c : Seat} (hc : p.scene.seat? turn = some c)
      (hid : (c.moves turn r.moves).listener.id = r.id)
      (henrolled : (c.moves turn r.moves).listener.enrolled = true) :
      (p.scene.moves r.moves).audience.accepts r.id =
        (c.moves turn r.moves).listener.mailbox.hasRoom := by
    rw [hc] at hseat
    rw [← hid]
    exact hmoved.accepts_eq (Scene.mem_of_seat? hseat) henrolled
  cases haccepts : (p.scene.moves r.moves).audience.accepts r.id with
  | false =>
    rw [round_of_not_accepts n p r haccepts, settled?, hseat, settled?, Option.map_map,
      Option.map_map]
    refine Option.map_congr fun c hc => ?_
    rw [Function.comp_apply, Function.comp_apply, Seat.round, Seat.settle_moves]
    refine congrArg (Seat.mk · _) (Listener.settle_of_refused n hfresh fun hid henrolled => ?_)
    exact (hspeaks hc hid henrolled).symm.trans haccepts
  | true =>
    rw [round_of_accepts n p r haccepts, settled?, Scene.seat?_map _ _ _ rfl, hseat, settled?,
      Option.map_map, Option.map_map, Option.map_map]
    refine Option.map_congr fun c hc => ?_
    rw [Function.comp_apply, Function.comp_apply, Function.comp_apply, Seat.round,
      Seat.settle_moves]
    refine congrArg (Seat.mk · _) (Listener.settle_of_accepted n hfresh fun hid henrolled => ?_)
    exact (hspeaks hc hid henrolled).symm.trans haccepts

theorem failed_round : (p.round n r).failed.Sublist (p.failed ++ [r.id]) := by
  cases haccepts : (p.scene.moves r.moves).audience.accepts r.id with
  | false =>
    rw [round_of_not_accepts n p r haccepts]
  | true =>
    rw [round_of_accepts n p r haccepts]
    exact List.sublist_append_left ..

theorem delivered_round : (p.round n r).delivered + (p.round n r).failed.length =
    p.delivered + p.failed.length + 1 := by
  cases haccepts : (p.scene.moves r.moves).audience.accepts r.id with
  | false =>
    rw [round_of_not_accepts n p r haccepts, List.length_append]
    rfl
  | true =>
    rw [round_of_accepts n p r haccepts]
    exact Nat.add_right_comm ..

variable {n p} {rs : List Round}

theorem registered_rounds :
    (rs.foldl (round n) p).scene.audience.registered = p.scene.audience.registered := by
  induction rs generalizing p with
  | nil => rfl
  | cons r rs ih => exact ih.trans (registered_round n p r)

theorem failed_rounds : (rs.foldl (round n) p).failed.Sublist (p.failed ++ rs.map (·.id)) := by
  induction rs generalizing p with
  | nil => simp
  | cons r rs ih =>
    have hround := (failed_round n p r).append_right (rs.map (·.id))
    rw [List.append_assoc] at hround
    exact ih.trans hround

theorem delivered_rounds : (rs.foldl (round n) p).delivered + (rs.foldl (round n) p).failed.length =
    p.delivered + p.failed.length + rs.length := by
  induction rs generalizing p with
  | nil => rfl
  | cons r rs ih =>
    rw [List.foldl_cons, ih, delivered_round, List.length_cons]
    omega

theorem rounds_still (hstill : ∀ r ∈ rs, r.moves = []) :
    (rs.foldl (round n) p).scene.gone = p.scene.gone ∧
      (rs.foldl (round n) p).scene.audience.nextId = p.scene.audience.nextId := by
  induction rs generalizing p with
  | nil => exact ⟨rfl, rfl⟩
  | cons r rs ih =>
    obtain ⟨hr, hrs⟩ := List.forall_mem_cons.mp hstill
    have hround : (p.round n r).scene.gone = p.scene.gone ∧
        (p.round n r).scene.audience.nextId = p.scene.audience.nextId := by
      unfold round
      rw [hr]
      dsimp only
      split <;> exact ⟨rfl, rfl⟩
    obtain ⟨hgone, hnext⟩ := ih hrs
    exact ⟨hgone.trans hround.1, hnext.trans hround.2⟩

theorem vacant_rounds {turn : Nat} (h : p.scene.Vacant turn) :
    (rs.foldl (round n) p).scene.Vacant turn := by
  induction rs generalizing p with
  | nil => exact h
  | cons r rs ih =>
    refine ih ?_
    unfold round
    dsimp only
    split
    · exact (h.moves r.moves).map rfl
    · exact h.moves r.moves

theorem settled?_rounds (turn : Nat) (hdistinct : p.scene.audience.Distinct)
    (hnodup : (p.failed ++ rs.map (·.id)).Nodup) :
    (rs.foldl (round n) p).settled? turn =
      (p.settled? turn).map (Seat.rounds n turn · rs) := by
  induction rs generalizing p with
  | nil => exact (congrFun Option.map_id _).symm
  | cons r rs ih =>
    have hfresh : r.id ∉ p.failed := fun hmem =>
      List.disjoint_of_nodup_append hnodup hmem (List.mem_cons_self ..)
    have hround := (failed_round n p r).append_right (rs.map (·.id))
    rw [List.append_assoc] at hround
    have hkept : (p.round n r).scene.audience.Distinct :=
      hdistinct.congr (registered_round n p r)
    rw [List.foldl_cons, ih hkept (hnodup.sublist hround),
      settled?_round n p r turn hdistinct hfresh, Option.map_map]
    rfl

end FanOut

namespace Scene

variable {s : Scene} {n : Notice} {rs : List Round}

theorem settled?_rounds (turn : Nat) (hdistinct : s.audience.Distinct)
    (hnodup : (rs.map (·.id)).Nodup) :
    (s.rounds n rs).settled? turn = (s.seat? turn).map (Seat.rounds n turn · rs) := by
  have hnone : (⟨s, 0, []⟩ : FanOut).settled? turn = s.seat? turn := congrFun Option.map_id _
  have hfresh : (([] : List ListenerId) ++ rs.map (·.id)).Nodup := hnodup
  rw [rounds, FanOut.settled?_rounds turn hdistinct hfresh, hnone]

/-- **What a broadcast does to a listener.** It is sent the notice in its round and removed if its
mailbox refuses it, and its owner moves as the owner does; neither the order of the rounds nor what
becomes of the other listeners matters. -/
theorem seat?_fanOut (turn : Nat) (hdistinct : s.audience.Distinct)
    (hperm : (rs.map (·.id)).Perm s.audience.registered) :
    (s.fanOut n rs).2.seat? turn = (s.seat? turn).map (Seat.rounds n turn · rs) := by
  rw [fanOut, FanOut.seat?_finish, settled?_rounds turn hdistinct (hperm.nodup_iff.mpr hdistinct)]

theorem Vacant.fanOut {turn : Nat} (h : s.Vacant turn) : (s.fanOut n rs).2.Vacant turn :=
  Vacant.map (FanOut.vacant_rounds h) (Audience.listeners_unregister ..)

theorem registered_fanOut :
    (s.fanOut n rs).2.audience.registered =
      s.audience.registered.filter (· ∉ (s.rounds n rs).failed) :=
  (Audience.registered_unregister _ _).trans
    (congrArg (List.filter _) FanOut.registered_rounds)

/-- Until its round a listener has noticed nothing. -/
theorem seat?_rounds {turn : Nat} {c : Seat} (hdistinct : s.audience.Distinct)
    (hnodup : (rs.map (·.id)).Nodup) (hc : s.seat? turn = some c)
    (hother : ∀ r ∈ rs, r.id ≠ c.listener.id) :
    (s.rounds n rs).scene.seat? turn = some (c.moves turn (rs.flatMap (·.moves))) := by
  have hsettled : (s.rounds n rs).settled? turn = some (c.moves turn (rs.flatMap (·.moves))) := by
    rw [settled?_rounds turn hdistinct hnodup, hc, Option.map_some,
      Seat.rounds_idle fun r hr hid => absurd hid (hother r hr)]
  obtain ⟨c', hc', hon⟩ := Option.map_eq_some_iff.mp hsettled
  have hid : c'.listener.id = c.listener.id := by
    rw [← Listener.settle_id c'.listener, ← (Seat.moves_like turn c _).id, ← hon]
    rfl
  have hfailed : (s.rounds n rs).failed.Sublist (rs.map (·.id)) := FanOut.failed_rounds
  have hspared : c'.listener.id ∉ (s.rounds n rs).failed := fun hmem => by
    obtain ⟨r, hr, hown⟩ := List.mem_map.mp (hfailed.subset hmem)
    exact hother r hr (hown.trans hid)
  rw [hc', ← hon, Seat.on, Listener.settle_of_not_mem hspared]

/-- A broadcast reports how many listeners are registered after it. -/
theorem fanOut_count (hdistinct : s.audience.Distinct)
    (hperm : (rs.map (·.id)).Perm s.audience.registered) :
    (s.fanOut n rs).1 = (s.fanOut n rs).2.audience.count := by
  let p := s.rounds n rs
  have hids : (rs.map (·.id)).Nodup := hperm.nodup_iff.mpr hdistinct
  have hfailed : p.failed.Sublist (rs.map (·.id)) := FanOut.failed_rounds
  have hdelivered : p.delivered + p.failed.length = 0 + rs.length := FanOut.delivered_rounds
  have hsame : ((rs.map (·.id)).filter (· ∈ p.failed)).Perm p.failed :=
    (List.perm_ext_iff_of_nodup (hids.filter _) (hids.sublist hfailed)).mpr fun id => by
      simpa using fun hmem => List.mem_map.mp (hfailed.subset hmem)
  have hleft : (s.fanOut n rs).2.audience.registered =
      s.audience.registered.filter (· ∉ p.failed) := registered_fanOut
  have hsplit := (rs.map (·.id)).length_eq_countP_add_countP (· ∈ p.failed)
  rw [Audience.count_eq, hleft, ← (hperm.filter _).length_eq, ← List.countP_eq_length_filter]
  rw [List.countP_eq_length_filter, hsame.length_eq, List.length_map] at hsplit
  show p.delivered = _
  simp only [decide_not, decide_eq_true_eq] at hsplit ⊢
  omega

/-- **While no owner moves, the loop is the broadcast of the audience**, in whatever order the
registry keeps the listeners. -/
theorem fanOut_still {order : List ListenerId} (n : Notice) (hdistinct : s.audience.Distinct)
    (hperm : order.Perm s.audience.registered) :
    s.fanOut n (order.map (⟨[], ·⟩)) =
      ((s.audience.broadcast n).1, { s with audience := (s.audience.broadcast n).2 }) := by
  let rs : List Round := order.map (⟨[], ·⟩)
  have hids : rs.map (·.id) = order := by simp [rs, Function.comp_def]
  have hstill : ∀ r ∈ rs, r.moves = [] := by simp [rs]
  have hrounds : (rs.map (·.id)).Perm s.audience.registered := hids.symm ▸ hperm
  have hseat (turn : Nat) : (s.fanOut n rs).2.seat? turn =
      seat? { s with audience := (s.audience.broadcast n).2 } turn := by
    rw [seat?_fanOut turn hdistinct hrounds,
      seat?_map (a := (s.audience.broadcast n).2) s turn (·.deliver n) rfl]
    refine Option.map_congr fun c hc => Seat.rounds_still hstill ?_ fun henrolled => ?_
    · exact hrounds.nodup_iff.mpr hdistinct
    · exact hrounds.mem_iff.mpr (Audience.mem_registered (mem_of_seat? hc) henrolled)
  have hscene : (s.fanOut n rs).2 = { s with audience := (s.audience.broadcast n).2 } := by
    obtain ⟨hgone, hnext⟩ := FanOut.rounds_still (n := n) (p := ⟨s, 0, []⟩) hstill
    refine ext_seat? ?_ ?_ hseat
    · exact hgone
    · exact (Audience.nextId_unregister ..).trans hnext
  refine Prod.ext ?_ hscene
  rw [fanOut_count hdistinct hrounds, hscene]
  rfl

end Scene

end Livecode
