import Livecode.Proofs.Broadcast.Delivery

/-!
# Names by turns

Names are counted out: a listener goes by the number of the turn at which it registered. Only a
registration gives out a name, and no other event changes one. So two listeners never go by one
name, even if one of them was removed long ago, until the count of 64 bits comes round.

## Main results

* `Numbered.step` — every event keeps names and turns together.
* `Numbered.ne` — no listener goes by the number of another turn.
-/

namespace Livecode

namespace Audience

/-- The names of everyone who has ever registered, in order. -/
def names (a : Audience) : List ListenerId := a.listeners.map (·.id)

@[simp] theorem length_names (a : Audience) : a.names.length = a.listeners.length :=
  List.length_map _

/-- Nobody has been given a name in between. -/
structure SameNames (a b : Audience) : Prop where
  names : b.names = a.names
  nextId : b.nextId = a.nextId

theorem SameNames.refl (a : Audience) : SameNames a a := ⟨rfl, rfl⟩

theorem SameNames.trans {a b c : Audience} (hab : SameNames a b) (hbc : SameNames b c) :
    SameNames a c := ⟨hbc.names.trans hab.names, hbc.nextId.trans hab.nextId⟩

theorem sameNames_map {a b : Audience} {f : Listener → Listener}
    (h : b.listeners = a.listeners.map f) (hid : ∀ l, (f l).id = l.id)
    (hnext : b.nextId = a.nextId) : SameNames a b := by
  refine ⟨?_, hnext⟩
  rw [names, h, List.map_map]
  exact List.map_congr_left fun l _ => hid l

theorem sameNames_adjust (a : Audience) (id : ListenerId) {f : Listener → Listener}
    (hid : ∀ l, (f l).id = l.id) : SameNames a (a.adjust id f) := by
  refine sameNames_map rfl (fun l => ?_) rfl
  split
  · exact hid l
  · rfl

theorem sameNames_onMailbox (a : Audience) (turn : Nat) (f : Mailbox → Mailbox) :
    SameNames a (a.onMailbox turn f) := by
  refine ⟨List.ext_getElem? fun j => ?_, rfl⟩
  by_cases hj : turn = j <;> simp [names, onMailbox, hj, Function.comp_def]

/-- A registration adds its name to those that were given out before. -/
theorem names_register (a : Audience) (capacity : Option Nat) :
    (a.register capacity).2.names = a.names ++ [(a.register capacity).1] := by
  have hold : SameNames a (a.unregister ⟨a.nextId⟩) := sameNames_adjust a _ fun _ => rfl
  rw [← hold.names]
  exact List.map_append

theorem sameNames_unregister (a : Audience) (ids : List ListenerId) :
    SameNames a (ids.foldl unregister a) :=
  sameNames_map (a.listeners_unregister ids) (fun l => l.settle_id ids) (a.nextId_unregister ids)

end Audience

namespace Scene

open Audience (SameNames)

/-! ## Events -/

theorem sameNames_moves (s : Scene) (ms : List OwnerMove) :
    SameNames s.audience (s.moves ms).audience := by
  induction ms generalizing s with
  | nil => exact .refl _
  | cons m ms ih =>
    have hmove : SameNames s.audience (s.move m).audience := by
      rw [move_eq]
      show SameNames s.audience (s.audience.onMailbox m.turn fun b => (m.act b).2)
      exact Audience.sameNames_onMailbox ..
    exact hmove.trans (ih _)

theorem sameNames_round (n : Notice) (p : FanOut) (r : Round) :
    SameNames p.scene.audience (p.round n r).scene.audience := by
  refine (sameNames_moves p.scene r.moves).trans ?_
  cases haccepts : (p.scene.moves r.moves).audience.accepts r.id with
  | false =>
    rw [FanOut.round_of_not_accepts n p r haccepts]
    exact .refl _
  | true =>
    rw [FanOut.round_of_accepts n p r haccepts]
    exact Audience.sameNames_adjust _ r.id fun l => l.offer_id n

theorem sameNames_fanOut (s : Scene) (n : Notice) (rs : List Round) :
    SameNames s.audience (s.fanOut n rs).2.audience := by
  have hrounds (p : FanOut) :
      SameNames p.scene.audience (rs.foldl (FanOut.round n) p).scene.audience := by
    induction rs generalizing p with
    | nil => exact .refl _
    | cons r rs ih => exact (sameNames_round n p r).trans (ih _)
  exact (hrounds ⟨s, 0, []⟩).trans (Audience.sameNames_unregister ..)

/-- Only a registration gives out a name. -/
theorem sameNames_step (s : Scene) {e : Event} (h : ∀ capacity, e ≠ .register capacity) :
    SameNames s.audience (s.step e).audience := by
  cases e with
  | register capacity => exact absurd rfl (h capacity)
  | unregister id => exact Audience.sameNames_adjust _ id fun _ => rfl
  | sendTo id n => exact Audience.sameNames_adjust _ id fun l => l.deliver_id n
  | broadcast n => exact Audience.sameNames_map rfl (·.deliver_id n) rfl
  | publish st => exact Audience.sameNames_map rfl (·.deliver_id _) rfl
  | fanOut n rounds => exact sameNames_fanOut s n rounds
  | clear => exact Audience.sameNames_map rfl (fun _ => rfl) rfl
  | owner m => exact sameNames_moves s [m]

end Scene

/-! ## Turns -/

namespace Audience

/-- Every listener goes by the number of its turn. -/
structure Numbered (a : Audience) : Prop where
  names : ∀ (turn : Nat) (id : ListenerId), a.names[turn]? = some id → id = ⟨UInt64.ofNat turn⟩
  next : a.nextId = UInt64.ofNat a.listeners.length

theorem numbered_empty : empty.Numbered := ⟨nofun, rfl⟩

theorem Numbered.congr {a b : Audience} (h : a.Numbered) (hsame : SameNames a b) : b.Numbered := by
  refine ⟨?_, ?_⟩
  · rw [hsame.names]
    exact h.names
  · rw [hsame.nextId, h.next, ← length_names, ← length_names, hsame.names]

theorem Numbered.register {a : Audience} (h : a.Numbered) (capacity : Option Nat) :
    (a.register capacity).2.Numbered := by
  have hnames : (a.register capacity).2.names = a.names ++ [⟨a.nextId⟩] := names_register a capacity
  constructor
  · intro turn id hid
    rw [hnames] at hid
    by_cases hturn : turn < a.names.length
    · rw [List.getElem?_append_left hturn] at hid
      exact h.names turn id hid
    · have hlast : turn = a.names.length := by
        have hlt := (List.getElem?_eq_some_iff.mp hid).1
        rw [List.length_append, List.length_singleton] at hlt
        omega
      rw [hlast, List.getElem?_concat_length] at hid
      obtain rfl := Option.some.inj hid
      rw [h.next, hlast, length_names]
  · have hlength : (a.register capacity).2.listeners.length = a.listeners.length + 1 := by
      rw [← length_names, hnames, List.length_append, length_names, List.length_singleton]
    rw [hlength, UInt64.ofNat_add, ← h.next]
    rfl

theorem ofNat_ne {m n : Nat} (hm : m < UInt64.size) (hn : n < UInt64.size) (hne : m ≠ n) :
    (⟨UInt64.ofNat m⟩ : ListenerId) ≠ ⟨UInt64.ofNat n⟩ := by
  intro heq
  have hsame := congrArg (·.number.toNat) heq
  simp only [UInt64.toNat_ofNat_of_lt' hm, UInt64.toNat_ofNat_of_lt' hn] at hsame
  exact hne hsame

section
variable {a : Audience} {turn turn' : Nat} {l : Listener}

theorem Numbered.id_eq (h : a.Numbered) (hl : a.listeners[turn]? = some l) :
    l.id = ⟨UInt64.ofNat turn⟩ := h.names turn l.id (by simp [Audience.names, hl])

/-- A listener does not go by the number of another turn. -/
theorem Numbered.ne (h : a.Numbered) (hl : a.listeners[turn]? = some l) (hturn : turn < UInt64.size)
    (hturn' : turn' < UInt64.size) (hne : turn ≠ turn') : l.id ≠ ⟨UInt64.ofNat turn'⟩ := by
  rw [h.id_eq hl]
  exact ofNat_ne hturn hturn' hne

/-- The next name is nobody's. -/
theorem Numbered.ne_nextId (h : a.Numbered) (hfew : a.listeners.length < UInt64.size)
    (hl : a.listeners[turn]? = some l) : l.id ≠ ⟨a.nextId⟩ := by
  have hlt := (List.getElem?_eq_some_iff.mp hl).1
  rw [h.next]
  exact h.ne hl (Nat.lt_trans hlt hfew) hfew (Nat.ne_of_lt hlt)

end

end Audience

namespace Scene

theorem Numbered.step {s : Scene} (h : s.audience.Numbered) (e : Event) :
    (s.step e).audience.Numbered := by
  by_cases hregister : ∃ capacity, e = .register capacity
  · obtain ⟨capacity, rfl⟩ := hregister
    exact h.register capacity
  · exact h.congr (sameNames_step s fun capacity heq => hregister ⟨capacity, heq⟩)

theorem Numbered.after {s : Scene} (h : s.audience.Numbered) (es : List Event) :
    (s.after es).audience.Numbered := by
  induction es generalizing s with
  | nil => exact h
  | cons e es ih => exact ih (Numbered.step h e)

/-- Nobody who has registered is forgotten. -/
theorem length_step (s : Scene) (e : Event) :
    s.audience.listeners.length ≤ (s.step e).audience.listeners.length := by
  by_cases hregister : ∃ capacity, e = .register capacity
  · obtain ⟨capacity, rfl⟩ := hregister
    simp [step, Audience.register, Audience.unregister, Audience.adjust]
  · have hsame := sameNames_step s fun capacity heq => hregister ⟨capacity, heq⟩
    have hlength : s.audience.names.length = (s.step e).audience.names.length := by
      rw [hsame.names]
    rw [Audience.length_names, Audience.length_names] at hlength
    exact Nat.le_of_eq hlength

theorem length_after (s : Scene) (es : List Event) :
    s.audience.listeners.length ≤ (s.after es).audience.listeners.length := by
  induction es generalizing s with
  | nil => exact Nat.le_refl _
  | cons e es ih => exact Nat.le_trans (length_step s e) (ih _)

end Scene

end Livecode
