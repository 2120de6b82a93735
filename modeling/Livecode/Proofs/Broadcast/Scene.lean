import Livecode.Broadcast.Audience
import Mathlib.Data.List.Nodup

/-!
# Audiences and the owners of their mailboxes

The owners of the mailboxes act on their own: at any moment one of them takes notices from its
mailbox or goes away. A *scene* is an audience together with what has left the mailboxes in this
way, so that what a mailbox has accepted can be told whatever its owner does.

Nearly all that is said about a scene is said of one listener at a time. The *seat* of a listener is
the listener together with what has left its mailbox. Each thing that is done to a scene does
something to each seat that depends on no other seat (`seat?_move`, `seat?_map`).

## Main results

* `move_like` — what an owner does changes neither who is registered nor what was accepted.
* `Distinct.accepts_eq` — the name of a registered listener leads to its own mailbox.
-/

namespace Livecode

/-! ## Owners -/

/-- What the owner of a mailbox does at a moment of its own choice. An owner is named by the turn at
which its listener registered. -/
inductive OwnerMove where
  | take (turn limit : Nat)
  | close (turn : Nat)
  deriving DecidableEq, Repr

namespace OwnerMove

def turn : OwnerMove → Nat
  | take turn _ => turn
  | close turn => turn

/-- What a move takes out of a mailbox, and the mailbox after it. -/
def act (b : Mailbox) : OwnerMove → List Notice × Mailbox
  | take _ limit => if b.closed then ([], b) else b.take limit
  | close _ => (b.waiting, b.close)

theorem act_waiting (b : Mailbox) (m : OwnerMove) :
    (m.act b).1 ++ (m.act b).2.waiting = b.waiting := by
  cases m with
  | take _ limit =>
    rw [act]
    split
    · rfl
    · exact List.take_append_drop limit b.waiting
  | close _ => exact List.append_nil _

end OwnerMove

/-! ## Registered listeners -/

namespace Listener

@[simp] theorem deliver_id (l : Listener) (n : Notice) : (l.deliver n).id = l.id := by
  unfold deliver
  split
  · split <;> rfl
  · rfl

theorem enrolled_of_deliver {l : Listener} {n : Notice} (h : (l.deliver n).enrolled = true) :
    l.enrolled = true := by
  unfold deliver at h
  split at h
  next henrolled => exact henrolled
  next => exact h

end Listener

namespace Audience

/-- No two registered listeners go by one name. -/
def Distinct (a : Audience) : Prop := a.registered.Nodup

theorem Distinct.congr {a b : Audience} (h : a.Distinct) (hsame : b.registered = a.registered) :
    b.Distinct := (congrArg List.Nodup hsame).mpr h

/-- Whether a listener is registered whose mailbox will accept the next notice. -/
def accepts (a : Audience) (id : ListenerId) : Bool :=
  a.listeners.any fun l => l.id = id ∧ l.enrolled ∧ l.mailbox.hasRoom

/-- A listener that is registered speaks for its name. -/
theorem Distinct.accepts_eq {a : Audience} {l : Listener} (h : a.Distinct) (hl : l ∈ a.listeners)
    (henrolled : l.enrolled = true) : a.accepts l.id = l.mailbox.hasRoom := by
  have hmem : l ∈ a.listeners.filter (·.enrolled) := List.mem_filter.mpr ⟨hl, henrolled⟩
  rw [Bool.eq_iff_iff, accepts, List.any_eq_true]
  constructor
  · rintro ⟨l', hl', hl'room⟩
    obtain ⟨hid, henrolled', hroom⟩ := of_decide_eq_true hl'room
    obtain rfl := List.inj_on_of_nodup_map h (List.mem_filter.mpr ⟨hl', henrolled'⟩) hmem hid
    exact hroom
  · intro hroom
    exact ⟨l, hl, decide_eq_true ⟨rfl, henrolled, hroom⟩⟩

theorem registered_map {a b : Audience} {f : Listener → Listener}
    (h : b.listeners = a.listeners.map f) (hid : ∀ l, (f l).id = l.id)
    (henrolled : ∀ l, (f l).enrolled = l.enrolled) : b.registered = a.registered := by
  simp only [registered, h, List.filter_map, List.map_map]
  congr 1
  · exact funext hid
  · exact congrArg (List.filter · _) (funext henrolled)

/-- Changes that register nobody anew. -/
theorem registered_sublist {a b : Audience} {f : Listener → Listener}
    (h : b.listeners = a.listeners.map f) (hid : ∀ l, (f l).id = l.id)
    (henrolled : ∀ l, (f l).enrolled = true → l.enrolled = true) :
    b.registered.Sublist a.registered := by
  have hname : (fun l => (f l).id) = Listener.id := funext hid
  simp only [registered, h, List.filter_map, List.map_map, Function.comp_def, hname]
  exact (List.monotone_filter_right _ henrolled).map _

theorem registered_onMailbox (a : Audience) (turn : Nat) (f : Mailbox → Mailbox) :
    (a.onMailbox turn f).registered = a.registered := by
  simp only [registered, onMailbox]
  induction a.listeners generalizing turn with
  | nil => simp
  | cons l ls ih =>
    cases turn with
    | zero => simp [List.filter_cons, apply_ite]
    | succ turn => simp [List.filter_cons, apply_ite, ih turn]

theorem mem_registered {a : Audience} {l : Listener} (hl : l ∈ a.listeners)
    (henrolled : l.enrolled = true) : l.id ∈ a.registered :=
  List.mem_map_of_mem (List.mem_filter.mpr ⟨hl, henrolled⟩)

theorem count_eq (a : Audience) : a.count = a.registered.length := by
  rw [count, registered, List.length_map, List.countP_eq_length_filter]

end Audience

/-! ## Seats -/

/-- A listener, and what has left its mailbox, oldest first. -/
structure Seat where
  listener : Listener
  gone : List Notice

namespace Seat

/-- All that its mailbox has accepted, in order. -/
def passed (c : Seat) : List Notice := c.gone ++ c.listener.mailbox.waiting

/-- Changes the listener. -/
def on (f : Listener → Listener) (c : Seat) : Seat := { c with listener := f c.listener }

/-- The owner of this seat moves. -/
def move (c : Seat) (m : OwnerMove) : Seat :=
  ⟨{ c.listener with mailbox := (m.act c.listener.mailbox).2 },
    c.gone ++ (m.act c.listener.mailbox).1⟩

/-- Owners move; the seat is that of the given turn. -/
def moves (turn : Nat) (c : Seat) (ms : List OwnerMove) : Seat :=
  ms.foldl (fun c m => if m.turn = turn then c.move m else c) c

/-- Two seats of one listener that differ at most in how much of what was accepted still waits. -/
structure Like (c c' : Seat) : Prop where
  id : c'.listener.id = c.listener.id
  enrolled : c'.listener.enrolled = c.listener.enrolled
  passed : c'.passed = c.passed

theorem Like.refl (c : Seat) : Like c c := ⟨rfl, rfl, rfl⟩

theorem Like.trans {a b c : Seat} (hab : Like a b) (hbc : Like b c) : Like a c :=
  ⟨hbc.id.trans hab.id, hbc.enrolled.trans hab.enrolled, hbc.passed.trans hab.passed⟩

theorem move_like (c : Seat) (m : OwnerMove) : Like c (c.move m) :=
  ⟨rfl, rfl, by simp only [passed, move, List.append_assoc, OwnerMove.act_waiting]⟩

theorem moves_like (turn : Nat) (c : Seat) (ms : List OwnerMove) : Like c (c.moves turn ms) := by
  induction ms generalizing c with
  | nil => exact .refl c
  | cons m ms ih =>
    have hmove : Like c (if m.turn = turn then c.move m else c) := by
      split
      · exact move_like c m
      · exact .refl c
    exact hmove.trans (ih _)

theorem moves_append (turn : Nat) (c : Seat) (ms ms' : List OwnerMove) :
    c.moves turn (ms ++ ms') = (c.moves turn ms).moves turn ms' := List.foldl_append ..

end Seat

/-! ## Scenes -/

/-- An audience, and what has left the mailbox of the listener of each turn: what its owner took,
and what was lost when its owner went away. -/
structure Scene where
  audience : Audience
  gone : Nat → List Notice

namespace Scene

def empty : Scene := ⟨.empty, fun _ => []⟩

/-- The seat of the listener that registered at a turn. -/
def seat? (s : Scene) (turn : Nat) : Option Seat :=
  (s.audience.listeners[turn]?).map (⟨·, s.gone turn⟩)

/-- All that the mailbox of the listener of a turn has accepted, in order. -/
def passed (s : Scene) (turn : Nat) : List Notice := (s.seat? turn).elim [] Seat.passed

/-- What has left the mailboxes once more has left one of them. -/
def goneWith (s : Scene) (turn : Nat) (ns : List Notice) : Nat → List Notice :=
  fun t => if turn = t then s.gone t ++ ns else s.gone t

/-- An owner moves. -/
def move (s : Scene) : OwnerMove → Scene
  | .take turn limit =>
    let r := s.audience.take turn limit
    ⟨r.2, s.goneWith turn (r.1.getD [])⟩
  | .close turn =>
    let waiting := (s.audience.listeners[turn]?).elim [] (·.mailbox.waiting)
    ⟨s.audience.onMailbox turn .close, s.goneWith turn waiting⟩

/-- Owners move, one after the other. -/
def moves (s : Scene) (ms : List OwnerMove) : Scene := ms.foldl move s

end Scene

namespace Audience

theorem onMailbox_congr {a : Audience} {t : Nat} {f g : Mailbox → Mailbox}
    (h : ∀ l, a.listeners[t]? = some l → f l.mailbox = g l.mailbox) :
    a.onMailbox t f = a.onMailbox t g := by
  refine congrArg (fun ls => { a with listeners := ls }) (List.ext_getElem? fun j => ?_)
  simp only [List.getElem?_modify]
  by_cases hj : t = j
  · subst hj
    cases hl : a.listeners[t]? with
    | none => rfl
    | some l => simp [h l hl]
  · simp [hj]

theorem take_eq (a : Audience) (t limit : Nat) :
    (a.take t limit).2 = a.onMailbox t (fun b => ((OwnerMove.take t limit).act b).2) ∧
      (a.take t limit).1.getD [] =
        (a.listeners[t]?).elim [] fun l => ((OwnerMove.take t limit).act l.mailbox).1 := by
  have hsame : a = a.onMailbox t id :=
    congrArg (fun ls => { a with listeners := ls }) (List.modify_id t _).symm
  rw [Audience.take]
  cases hl : a.listeners[t]? with
  | none => exact ⟨hsame.trans (onMailbox_congr fun l h => by cases hl.symm.trans h), rfl⟩
  | some l =>
    have hthis {f g : Mailbox → Mailbox} (h : f l.mailbox = g l.mailbox) :
        a.onMailbox t f = a.onMailbox t g := onMailbox_congr fun l' hl' => by
      obtain rfl := Option.some.inj (hl.symm.trans hl')
      exact h
    cases hclosed : l.mailbox.closed with
    | true =>
      simp only [if_true, Option.elim_some, OwnerMove.act, hclosed]
      exact ⟨hsame.trans (hthis (by simp [hclosed])), rfl⟩
    | false =>
      simp only [Bool.false_eq_true, if_false, Option.elim_some, OwnerMove.act, hclosed]
      exact ⟨hthis (by simp [hclosed]), rfl⟩

end Audience

namespace Scene

variable (s : Scene) (turn : Nat)

theorem move_eq (m : OwnerMove) :
    s.move m =
      let taken := (s.audience.listeners[m.turn]?).elim [] fun l => (m.act l.mailbox).1
      ⟨s.audience.onMailbox m.turn fun b => (m.act b).2, s.goneWith m.turn taken⟩ := by
  cases m with
  | take t limit =>
    obtain ⟨haudience, htaken⟩ := s.audience.take_eq t limit
    simp only [move, haudience, htaken, OwnerMove.turn]
  | close t => rfl

theorem seat?_move (m : OwnerMove) :
    (s.move m).seat? turn = (s.seat? turn).map fun c => if m.turn = turn then c.move m else c := by
  simp only [seat?, move_eq, Audience.onMailbox, goneWith, List.getElem?_modify]
  cases hl : s.audience.listeners[turn]? with
  | none => rfl
  | some l =>
    by_cases hturn : m.turn = turn
    · simp [hturn, hl, Seat.move]
    · simp [hturn]

theorem seat?_moves (ms : List OwnerMove) :
    (s.moves ms).seat? turn = (s.seat? turn).map (Seat.moves turn · ms) := by
  induction ms generalizing s with
  | nil => exact (congrFun Option.map_id _).symm
  | cons m ms ih =>
    rw [moves, List.foldl_cons]
    refine (ih _).trans ?_
    rw [seat?_move, Option.map_map]
    rfl

/-- An audience changed listener by listener. -/
theorem seat?_map (f : Listener → Listener) {a : Audience}
    (h : a.listeners = s.audience.listeners.map f) :
    seat? { s with audience := a } turn = (s.seat? turn).map (Seat.on f) := by
  simp only [seat?, h, List.getElem?_map, Option.map_map]
  rfl

theorem registered_move (m : OwnerMove) :
    (s.move m).audience.registered = s.audience.registered := by
  rw [move_eq]
  exact Audience.registered_onMailbox ..

theorem registered_moves (ms : List OwnerMove) :
    (s.moves ms).audience.registered = s.audience.registered := by
  induction ms generalizing s with
  | nil => rfl
  | cons m ms ih => exact (ih _).trans (registered_move s m)

theorem ext_seat? {s s' : Scene} (hgone : s'.gone = s.gone)
    (hnext : s'.audience.nextId = s.audience.nextId) (h : ∀ turn, s'.seat? turn = s.seat? turn) :
    s' = s := by
  obtain ⟨⟨ls, next⟩, gone⟩ := s
  obtain ⟨⟨ls', next'⟩, gone'⟩ := s'
  obtain rfl : gone' = gone := hgone
  obtain rfl : next' = next := hnext
  have hlisteners : ls' = ls := List.ext_getElem? fun turn =>
    Option.map_injective (fun _ _ hc => congrArg Seat.listener hc) (h turn)
  rw [hlisteners]

theorem mem_of_seat? {s : Scene} {turn : Nat} {c : Seat} (h : s.seat? turn = some c) :
    c.listener ∈ s.audience.listeners := by
  obtain ⟨l, hl, rfl⟩ := Option.map_eq_some_iff.mp h
  exact List.mem_of_getElem? hl

/-- Nobody has registered at a turn yet, and nothing has left a mailbox there. -/
def Vacant (s : Scene) (turn : Nat) : Prop :=
  s.audience.listeners[turn]? = none ∧ s.gone turn = []

variable {s : Scene} {turn : Nat}

theorem Vacant.move (h : s.Vacant turn) (m : OwnerMove) : (s.move m).Vacant turn := by
  obtain ⟨hnone, hgone⟩ := h
  rw [move_eq]
  constructor
  · simpa [Audience.onMailbox] using hnone
  · by_cases hturn : m.turn = turn <;> simp [goneWith, hturn, hnone, hgone]

theorem Vacant.moves (h : s.Vacant turn) (ms : List OwnerMove) : (s.moves ms).Vacant turn := by
  induction ms generalizing s with
  | nil => exact h
  | cons m ms ih => exact ih (h.move m)

theorem Vacant.map (h : s.Vacant turn) {a : Audience} {f : Listener → Listener}
    (ha : a.listeners = s.audience.listeners.map f) : Vacant { s with audience := a } turn := by
  obtain ⟨hnone, hgone⟩ := h
  exact ⟨by simp [ha, hnone], hgone⟩

end Scene

end Livecode
