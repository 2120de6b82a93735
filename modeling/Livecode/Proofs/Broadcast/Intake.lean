import Livecode.Proofs.Broadcast.Delivery

/-!
# Several notices in a row

A listener that is sent several notices takes them until its mailbox is full, and is removed with
the next one. How many it takes can be told beforehand: a mailbox has *room* for so many notices, and
one whose owner has gone has room for none. What a listener takes does not depend on the others, so
the audience may shrink between two of the notices.

## Main results

* `deliverAll_eq` — what a registered listener takes, and whether it is still registered.
* `received_deliverAll` — the same, by the kinds of mailboxes.
* `publishAll_eq` — in an audience each listener is sent the notices as if it were alone.
* `after_fanOuts` — the order in which the registry keeps its listeners makes no difference.
-/

namespace Livecode

/-! ## Mailboxes -/

namespace Mailbox

/-- How many more notices will be accepted; without a bound, any number. -/
def room (b : Mailbox) : Option Nat :=
  if b.closed then some 0 else b.capacity.map (· - b.waiting.length)

theorem hasRoom_eq (b : Mailbox) : b.hasRoom = b.room.all (0 < ·) := by
  obtain ⟨capacity, waiting, closed⟩ := b
  cases closed with
  | true => rfl
  | false =>
    cases capacity with
    | none => rfl
    | some k =>
      show decide (waiting.length < k) = decide (0 < k - waiting.length)
      exact decide_eq_decide.mpr Nat.sub_pos_iff_lt.symm

theorem room_of_bounded {b : Mailbox} {k : Nat} (hopen : b.closed = false)
    (h : b.capacity = some k) : b.room = some (k - b.waiting.length) := by
  simp [room, hopen, h]

theorem room_of_unbounded {b : Mailbox} (hopen : b.closed = false) (h : b.capacity = none) :
    b.room = none := by
  simp [room, hopen, h]

theorem room_of_closed {b : Mailbox} (h : b.closed = true) : b.room = some 0 := if_pos h

/-- A notice that waits takes up the room of one. -/
theorem room_concat (b : Mailbox) (n : Notice) :
    room { b with waiting := b.waiting ++ [n] } = b.room.map (· - 1) := by
  obtain ⟨capacity, waiting, closed⟩ := b
  cases closed <;> cases capacity <;> simp [room, Nat.sub_sub]

end Mailbox

/-! ## Listeners -/

namespace Listener

/-- The listener once its mailbox has accepted notices. -/
def taking (l : Listener) (ns : List Notice) : Listener :=
  { l with mailbox := { l.mailbox with waiting := l.mailbox.waiting ++ ns } }

/-- Sends notices to a listener, one after the other. -/
def deliverAll (l : Listener) (ns : List Notice) : Listener := ns.foldl deliver l

theorem deliverAll_of_not_enrolled {l : Listener} (ns : List Notice) (h : l.enrolled = false) :
    l.deliverAll ns = l := by
  induction ns with
  | nil => rfl
  | cons n ns ih =>
    have hignored : l.deliver n = l := if_neg (Bool.eq_false_iff.mp h)
    show (l.deliver n).deliverAll ns = l
    rw [hignored]
    exact ih

theorem deliver_of_full {l : Listener} (n : Notice) (h : l.mailbox.room = some 0) :
    l.deliver n = l.leave := by
  apply deliver_of_not_hasRoom n
  intro _
  rw [Mailbox.hasRoom_eq, h]
  rfl

theorem deliver_of_room {l : Listener} (n : Notice) (henrolled : l.enrolled = true)
    (h : l.mailbox.room ≠ some 0) : l.deliver n = l.taking [n] := by
  have hroom : l.mailbox.hasRoom = true := by
    rw [Mailbox.hasRoom_eq]
    cases hleft : l.mailbox.room with
    | none => rfl
    | some k =>
      have hpos : 0 < k := Nat.pos_of_ne_zero fun hzero => h (hzero ▸ hleft)
      simp [hpos]
  simp [deliver, henrolled, Mailbox.push?, hroom, taking]

/-- A registered listener takes as many notices as its mailbox has room for, and stays registered if
these are all. -/
theorem deliverAll_eq {l : Listener} (ns : List Notice) (h : l.enrolled = true) :
    l.deliverAll ns = { l.taking (l.mailbox.room.elim ns ns.take) with
      enrolled := l.mailbox.room.all (ns.length ≤ ·) } := by
  induction ns generalizing l with
  | nil =>
    have hnothing : l.mailbox.room.elim [] ([] : List Notice).take = [] := by
      cases l.mailbox.room <;> simp
    have hstays : l.mailbox.room.all (([] : List Notice).length ≤ ·) = l.enrolled := by
      rw [h]
      cases l.mailbox.room <;> simp
    rw [hnothing, hstays, taking, List.append_nil]
    rfl
  | cons n ns ih =>
    show (l.deliver n).deliverAll ns = _
    by_cases hfull : l.mailbox.room = some 0
    · rw [deliver_of_full n hfull, deliverAll_of_not_enrolled ns rfl, hfull]
      simp [leave, taking]
    · -- What is left is sent to a listener with one notice more and room for one less.
      have hless : (l.taking [n]).mailbox.room = l.mailbox.room.map (· - 1) :=
        l.mailbox.room_concat n
      rw [deliver_of_room n h hfull, ih (l := l.taking [n]) h, hless]
      cases hroom : l.mailbox.room with
      | none => simp [taking]
      | some k =>
        obtain ⟨k, rfl⟩ := Nat.exists_eq_succ_of_ne_zero fun hzero => hfull (hzero ▸ hroom)
        simp [taking]

/-- What has become of a listener that was sent notices. -/
structure Received (ns : List Notice) (l l' : Listener) : Prop where
  /-- It is the same listener, and its mailbox is open or closed and bounded as before. -/
  same : l' = { l with
    mailbox := { l.mailbox with waiting := l'.mailbox.waiting }
    enrolled := l'.enrolled }
  /-- One that was not registered has received nothing. -/
  absent : l.enrolled = false → l' = l
  unbounded : l.enrolled = true → l.mailbox.closed = false → l.mailbox.capacity = none →
    l'.mailbox.waiting = l.mailbox.waiting ++ ns ∧ l'.enrolled = true
  /-- A bounded mailbox has taken as many as it had room for. -/
  bounded : ∀ capacity, l.enrolled = true → l.mailbox.closed = false →
    l.mailbox.capacity = some capacity →
    let k := capacity - l.mailbox.waiting.length
    l'.mailbox.waiting = l.mailbox.waiting ++ ns.take k ∧ (l'.enrolled = false ↔ k < ns.length)
  closed : l.enrolled = true → l.mailbox.closed = true →
    l'.mailbox.waiting = l.mailbox.waiting ∧ (l'.enrolled = false ↔ 0 < ns.length)

theorem received_deliverAll (l : Listener) (ns : List Notice) :
    Received ns l (l.deliverAll ns) := by
  cases h : l.enrolled with
  | false =>
    rw [deliverAll_of_not_enrolled ns h]
    exact ⟨rfl, fun _ => rfl, by simp [h], by simp [h], by simp [h]⟩
  | true =>
    rw [deliverAll_eq ns h]
    refine ⟨rfl, by simp [h], ?_, ?_, ?_⟩
    · intro _ hopen hcapacity
      rw [Mailbox.room_of_unbounded hopen hcapacity]
      exact ⟨rfl, rfl⟩
    · intro capacity _ hopen hcapacity
      rw [Mailbox.room_of_bounded hopen hcapacity]
      exact ⟨rfl, by simp⟩
    · intro _ hclosed
      rw [Mailbox.room_of_closed hclosed]
      exact ⟨List.append_nil _, by simp [List.length_pos_iff]⟩

end Listener

/-! ## Audiences -/

namespace Audience

/-- Sends statements to every registered listener, one after the other. -/
def publishAll (a : Audience) (sts : List Statement) : Audience :=
  sts.foldl (fun a st => (a.publish st).2) a

/-- Each listener is sent the statements as if it were alone. -/
theorem publishAll_eq (a : Audience) (sts : List Statement) :
    a.publishAll sts =
      { a with listeners := a.listeners.map (·.deliverAll (sts.map (.statement ·.text))) } := by
  induction sts generalizing a with
  | nil =>
    have hsame : a.listeners.map (·.deliverAll []) = a.listeners := List.map_id _
    rw [List.map_nil, hsame]
    rfl
  | cons st sts ih =>
    show (a.publish st).2.publishAll sts = _
    rw [ih]
    show Audience.mk _ _ = _
    rw [publish, broadcast, List.map_map]
    rfl

end Audience

namespace Scene

/-- The rounds of broadcasts during which no owner moves: for each statement the listeners in some
order. -/
def fanOuts (sts : List Statement) (orders : List (List ListenerId)) : List Event :=
  sts.zipWith (fun st order => .fanOut (.statement st.text) (order.map (⟨[], ·⟩))) orders

/-- The audience afterwards does not depend on the order in which the registry keeps its listeners,
though it may lose some on the way. -/
theorem after_fanOuts {s : Scene} {sts : List Statement} {orders : List (List ListenerId)}
    (hdistinct : s.audience.Distinct) (hlength : orders.length = sts.length)
    (hfits : s.AllFit (fanOuts sts orders)) :
    s.after (fanOuts sts orders) = { s with audience := s.audience.publishAll sts } := by
  induction sts generalizing s orders with
  | nil => rfl
  | cons st sts ih =>
    cases orders with
    | nil => cases hlength
    | cons order orders =>
      obtain ⟨hperm, hrest⟩ := hfits
      have hnames : (order.map (Round.mk [])).map (·.id) = order := by simp [Function.comp_def]
      have hone : s.step (.fanOut (.statement st.text) (order.map (⟨[], ·⟩))) =
          s.step (.publish st) :=
        congrArg Prod.snd (fanOut_still _ hdistinct (hnames ▸ hperm))
      show (s.step (.fanOut (.statement st.text) (order.map (⟨[], ·⟩)))).after
        (fanOuts sts orders) = _
      rw [hone] at hrest ⊢
      exact ih (distinct_step hdistinct (.publish st)) (Nat.succ.inj hlength) hrest

end Scene
end Livecode
