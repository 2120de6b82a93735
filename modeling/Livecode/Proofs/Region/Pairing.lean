import Mathlib.Data.List.Basic
import Livecode.Region

/-!
# Pairing parentheses

Of a group of parentheses the search keeps the lines of its two ends. Which parentheses they are
can be told from any labels that the parentheses carry, lines or whole positions, and the search
does the same whatever the labels are. So here it is read as a pairing: a group is the pair of the
labels at its ends.

What a word leaves open is all that the reading of the rest depends on: nothing, or one group with
the number of parentheses that are open inside of it. One step says what a parenthesis closes and
what is open after it; all else is by induction on the word.

## Main results

* `groups_eq_map_pairs` — the search keeps of each pair the lines.
* `pairs_append` — a word is read piece by piece.
* `height_left_mono` — with less open before it, a word leaves no more open.
* `find?_pairs_iff` — the first group of a kind, in terms of the parenthesis that opens it.
-/

namespace Livecode.Region

variable {α β : Type}

/-! ## One parenthesis -/

/-- What is open after a parenthesis: the first parenthesis of the outermost group that is open, and
how many are open inside of it. -/
def open? : Option (α × Nat) → Bracket × α → Option (α × Nat)
  | none, (.opening, a) => some (a, 0)
  | none, (.closing, _) => none
  | some (a, n), (.opening, _) => some (a, n + 1)
  | some (_, 0), (.closing, _) => none
  | some (a, n + 1), (.closing, _) => some (a, n)

/-- The group that a parenthesis closes. -/
def closed? : Option (α × Nat) → Bracket × α → Option (α × α)
  | some (a, 0), (.closing, b) => some (a, b)
  | _, _ => none

section
variable {s : Option (α × Nat)} {x : Bracket × α}

/-- A group is closed by its last parenthesis when nothing is open inside of it. -/
theorem closed?_eq_some {g : α × α} (h : closed? s x = some g) :
    s = some (g.1, 0) ∧ x = (.closing, g.2) ∧ open? s x = none := by
  obtain ⟨p, a⟩ := x
  rcases s with - | ⟨b, - | n⟩ <;> cases p <;> cases h
  exact ⟨rfl, rfl, rfl⟩

/-- What is open was opened just now, or was open before. -/
theorem open?_eq_some {a : α} {n : Nat} (h : open? s x = some (a, n)) :
    s = none ∧ x = (.opening, a) ∧ n = 0 ∨ ∃ m, s = some (a, m) := by
  obtain ⟨p, b⟩ := x
  rcases s with - | ⟨c, - | m⟩ <;> cases p <;> cases h
  · exact .inl ⟨rfl, rfl, rfl⟩
  · exact .inr ⟨0, rfl⟩
  · exact .inr ⟨m + 1, rfl⟩
  · exact .inr ⟨n + 1, rfl⟩

/-- A group that is not closed stays open. -/
theorem open?_of_closed?_eq_none {a : α} {n : Nat} (h : closed? (some (a, n)) x = none) :
    ∃ m, open? (some (a, n)) x = some (a, m) := by
  obtain ⟨p, b⟩ := x
  cases p with
  | opening => exact ⟨n + 1, rfl⟩
  | closing =>
    cases n with
    | zero => cases h
    | succ n => exact ⟨n, rfl⟩

end

/-! ## Words -/

/-- What a word leaves open. -/
def left (s : Option (α × Nat)) (w : List (Bracket × α)) : Option (α × Nat) := w.foldl open? s

/-- The groups that a word closes, in the order of their ends. -/
def pairs (s : Option (α × Nat)) : List (Bracket × α) → List (α × α)
  | [] => []
  | x :: w => (closed? s x).toList ++ pairs (open? s x) w

@[simp] theorem left_cons (s : Option (α × Nat)) (x : Bracket × α) (w : List (Bracket × α)) :
    left s (x :: w) = left (open? s x) w := rfl

theorem left_append (s : Option (α × Nat)) (v w : List (Bracket × α)) :
    left s (v ++ w) = left (left s v) w := List.foldl_append

/-- A parenthesis that opens closes nothing. -/
theorem pairs_opening (s : Option (α × Nat)) (a : α) (w : List (Bracket × α)) :
    pairs s ((.opening, a) :: w) = pairs (open? s (.opening, a)) w := by
  rcases s with - | ⟨b, - | n⟩ <;> rfl

/-- A word is read piece by piece. -/
theorem pairs_append (s : Option (α × Nat)) (v w : List (Bracket × α)) :
    pairs s (v ++ w) = pairs s v ++ pairs (left s v) w := by
  induction v generalizing s with
  | nil => rfl
  | cons x v ih => rw [List.cons_append, pairs, pairs, ih, List.append_assoc, left_cons]

/-- The search keeps of each group the lines of its two ends. -/
theorem groups_eq_map_pairs (w : List (Bracket × Nat)) (start : Nat) :
    groups 0 start w = (pairs none w).map (fun g => ⟨g.1, g.2⟩) ∧
      ∀ n, groups (n + 1) start w = (pairs (some (start, n)) w).map fun g => ⟨g.1, g.2⟩ := by
  induction w generalizing start with
  | nil => exact ⟨rfl, fun _ => rfl⟩
  | cons x w ih =>
    obtain ⟨p, line⟩ := x
    cases p with
    | opening =>
      refine ⟨(ih line).2 0, fun n => ?_⟩
      rw [groups, pairs_opening]
      exact (ih start).2 (n + 1)
    | closing =>
      refine ⟨(ih start).1, fun n => ?_⟩
      cases n with
      | zero => exact congrArg (_ :: ·) (ih start).1
      | succ n => exact (ih start).2 n

/-! ### Other labels -/

/-- What is open, with other labels. -/
def relabel (f : α → β) : Option (α × Nat) → Option (β × Nat) := Option.map (Prod.map f id)

theorem open?_relabel (f : α → β) (s : Option (α × Nat)) (x : Bracket × α) :
    open? (relabel f s) (Prod.map id f x) = relabel f (open? s x) := by
  obtain ⟨p, a⟩ := x
  rcases s with - | ⟨b, - | n⟩ <;> cases p <;> rfl

theorem closed?_relabel (f : α → β) (s : Option (α × Nat)) (x : Bracket × α) :
    closed? (relabel f s) (Prod.map id f x) = (closed? s x).map (Prod.map f f) := by
  obtain ⟨p, a⟩ := x
  rcases s with - | ⟨b, - | n⟩ <;> cases p <;> rfl

theorem left_relabel (f : α → β) (s : Option (α × Nat)) (w : List (Bracket × α)) :
    left (relabel f s) (w.map (Prod.map id f)) = relabel f (left s w) := by
  induction w generalizing s with
  | nil => rfl
  | cons x w ih => rw [List.map_cons, left_cons, left_cons, open?_relabel, ih]

/-- The labels do not matter for the groups. -/
theorem pairs_relabel (f : α → β) (s : Option (α × Nat)) (w : List (Bracket × α)) :
    pairs (relabel f s) (w.map (Prod.map id f)) = (pairs s w).map (Prod.map f f) := by
  induction w generalizing s with
  | nil => rfl
  | cons x w ih =>
    rw [List.map_cons, pairs, pairs, open?_relabel, closed?_relabel, ih, List.map_append]
    cases closed? s x <;> rfl

/-! ### Ends -/

/-- Both ends of a group are parentheses of the word, unless the group was open before it. -/
theorem ends_of_mem_pairs {s : Option (α × Nat)} {w : List (Bracket × α)} {g : α × α}
    (h : g ∈ pairs s w) :
    (.closing, g.2) ∈ w ∧ ((.opening, g.1) ∈ w ∨ ∃ n, s = some (g.1, n)) := by
  induction w generalizing s with
  | nil => cases h
  | cons x w ih =>
    rcases List.mem_append.mp h with hhere | hlater
    · obtain ⟨hs, rfl, -⟩ := closed?_eq_some (Option.mem_toList.mp hhere)
      exact ⟨.head _, .inr ⟨0, hs⟩⟩
    · obtain ⟨hclosing, hopening⟩ := ih hlater
      refine ⟨.tail _ hclosing, ?_⟩
      rcases hopening with hopening | ⟨n, hn⟩
      · exact .inl (.tail _ hopening)
      · rcases open?_eq_some hn with ⟨-, rfl, -⟩ | hbefore
        · exact .inl (.head _)
        · exact .inr hbefore

/-- What a word leaves open was opened in it, unless it was open before. -/
theorem opening_of_left {s : Option (α × Nat)} {w : List (Bracket × α)} {a : α} {n : Nat}
    (h : left s w = some (a, n)) : (.opening, a) ∈ w ∨ ∃ m, s = some (a, m) := by
  induction w generalizing s with
  | nil => exact .inr ⟨n, h⟩
  | cons x w ih =>
    rcases ih h with hopening | ⟨m, hm⟩
    · exact .inl (.tail _ hopening)
    · rcases open?_eq_some hm with ⟨-, rfl, -⟩ | hbefore
      · exact .inl (.head _)
      · exact .inr hbefore

/-! ### Height -/

/-- The number of parentheses that are open. -/
def height : Option (α × Nat) → Nat
  | none => 0
  | some (_, n) => n + 1

theorem height_eq_zero {s : Option (α × Nat)} : height s = 0 ↔ s = none := by
  cases s <;> simp [height]

theorem height_open? (s : Option (α × Nat)) (x : Bracket × α) :
    height (open? s x) = if x.1 = .opening then height s + 1 else height s - 1 := by
  obtain ⟨p, a⟩ := x
  rcases s with - | ⟨b, - | n⟩ <;> cases p <;> rfl

/-- With less open before it, a word leaves no more open. -/
theorem height_left_mono {s t : Option (α × Nat)} (h : height s ≤ height t)
    (w : List (Bracket × α)) : height (left s w) ≤ height (left t w) := by
  induction w generalizing s t with
  | nil => exact h
  | cons x w ih =>
    apply ih
    rw [height_open?, height_open?]
    split <;> omega

/-- A group that is open is closed before nothing is open. -/
theorem pairs_ne_nil {a : α} {n : Nat} {w : List (Bracket × α)}
    (h : left (some (a, n)) w = none) : pairs (some (a, n)) w ≠ [] := by
  induction w generalizing n with
  | nil => cases h
  | cons x w ih =>
    cases hclosed : closed? (some (a, n)) x with
    | some g => simp [pairs, hclosed]
    | none =>
      obtain ⟨m, hm⟩ := open?_of_closed?_eq_none hclosed
      rw [left_cons, hm] at h
      simpa [pairs, hclosed, hm] using ih h

/-! ## The first group of a kind -/

section
variable {kind : α × α → Bool} {w : List (Bracket × α)} {g : α × α}

/-- The parenthesis that opens the first group of a kind is in the word, with nothing open in front
of it and no group of the kind closed, or the group was open before the word. -/
theorem opening_of_find? {s : Option (α × Nat)} (h : (pairs s w).find? kind = some g) :
    (∃ x y, w = x ++ (.opening, g.1) :: y ∧ left s x = none ∧ (∀ g' ∈ pairs s x, ¬ kind g') ∧
      (pairs (some (g.1, 0)) y).head? = some g) ∨
    ∃ n, s = some (g.1, n) ∧ (pairs s w).head? = some g := by
  induction w generalizing s with
  | nil => cases h
  | cons z w ih =>
    cases hclosed : closed? s z with
    | some g' =>
      obtain ⟨hs, -, hnone⟩ := closed?_eq_some hclosed
      have hpairs (v : List (Bracket × α)) : pairs s (z :: v) = g' :: pairs none v := by
        rw [pairs, hclosed, hnone]
        rfl
      rw [hpairs] at h ⊢
      by_cases hkind : kind g'
      · obtain rfl : g' = g := by simpa [hkind] using h
        exact .inr ⟨0, hs, rfl⟩
      · have hrest : (pairs none w).find? kind = some g := by simpa [hkind] using h
        rcases ih hrest with ⟨x, y, rfl, hleft, hfront, hhead⟩ | hopen
        · refine .inl ⟨z :: x, y, rfl, by rw [left_cons, hnone, hleft], ?_, hhead⟩
          rw [hpairs]
          exact List.forall_mem_cons.mpr ⟨hkind, hfront⟩
        · simp at hopen
    | none =>
      have hpairs (v : List (Bracket × α)) : pairs s (z :: v) = pairs (open? s z) v := by
        rw [pairs, hclosed]
        rfl
      rw [hpairs] at h ⊢
      rcases ih h with ⟨x, y, rfl, hleft, hfront, hhead⟩ | ⟨n, hn, hhead⟩
      · refine .inl ⟨z :: x, y, rfl, hleft, ?_, hhead⟩
        rwa [hpairs]
      · rcases open?_eq_some hn with ⟨rfl, rfl, rfl⟩ | ⟨m, hm⟩
        · exact .inl ⟨[], w, rfl, rfl, by simp [pairs], hhead⟩
        · exact .inr ⟨m, hm, hhead⟩

/-- **The first group of a kind** is opened by a parenthesis in front of which nothing is open and
no group of the kind is closed. It ends where what the parenthesis opens is closed. -/
theorem find?_pairs_iff :
    (pairs none w).find? kind = some g ↔ ∃ x y, w = x ++ (.opening, g.1) :: y ∧ left none x = none ∧
      (∀ g' ∈ pairs none x, ¬ kind g') ∧ (pairs (some (g.1, 0)) y).head? = some g ∧ kind g := by
  constructor
  · intro h
    rcases opening_of_find? h with ⟨x, y, hw, hleft, hfront, hhead⟩ | ⟨n, hn, -⟩
    · exact ⟨x, y, hw, hleft, hfront, hhead, List.find?_some h⟩
    · cases hn
  · rintro ⟨x, y, rfl, hleft, hfront, hhead, hkind⟩
    obtain ⟨rest, hrest⟩ := List.head?_eq_some_iff.mp hhead
    have hnone : (pairs none x).find? kind = none := List.find?_eq_none.mpr hfront
    have hopening : pairs none ((.opening, g.1) :: y) = g :: rest := hrest
    rw [pairs_append, hleft, hopening, List.find?_append, hnone, Option.none_or,
      List.find?_cons_of_pos hkind]

end

end Livecode.Region
