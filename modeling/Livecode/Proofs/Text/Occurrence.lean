import Livecode.Text.Search

/-!
# Leftmost occurrences

A scanner that tries a pattern at one place after the other finds its *leftmost* occurrence. Here
an occurrence is a split of the text, and the leftmost one is the split with the shortest part in
front. A pattern is any predicate on texts; the search for a fixed text is the special case of
equality with it.

The second half is about texts put together from two parts with a separator between them that no
instance of the pattern holds. Every instance then lies in one of the parts, so leftmost
occurrences are found in the parts: this is why reading a stream line by line can agree with
reading it as a whole.

## Main results

* `cutAt?_eq_some_iff`, `cutAt?_eq_none_iff` — cutting at a text finds its leftmost occurrence.
* `Leftmost.unique` — there is one leftmost occurrence at most.
* `Unbordered.leftmost` — a stretch free of a text that cannot overlap itself runs up to its first
  occurrence.
* `Leftmost.append_sep`, `Leftmost.prepend_sep`, `free_append_sep` — occurrences across a
  separator.
-/

namespace Livecode.Text

/-- No part of the text satisfies `P`. -/
def Free (P : Text → Prop) (t : Text) : Prop := ∀ s, s <:+: t → ¬ P s

/-- The text is `before ++ s ++ after` where `s` satisfies `P`, and nothing that starts earlier
does. -/
structure Leftmost (P : Text → Prop) (t before s after : Text) : Prop where
  split : t = before ++ s ++ after
  holds : P s
  least : ∀ b s' a, t = b ++ s' ++ a → P s' → before.length ≤ b.length

section
variable {P : Text → Prop} {t before s after : Text}

theorem Leftmost.not_free (h : Leftmost P t before s after) : ¬ Free P t :=
  fun hf => hf s ⟨before, after, h.split.symm⟩ h.holds

/-- What stands at the very beginning is leftmost. -/
theorem leftmost_here (h : P s) : Leftmost P (s ++ after) [] s after :=
  ⟨rfl, h, fun _ _ _ _ _ => Nat.zero_le _⟩

/-- A leftmost occurrence stays leftmost behind a character at which the pattern does not start. -/
theorem Leftmost.cons {c : Char} (hc : ∀ s a, c :: t = s ++ a → ¬ P s)
    (h : Leftmost P t before s after) : Leftmost P (c :: t) (c :: before) s after := by
  refine ⟨by simp [h.split], h.holds, ?_⟩
  intro b s' a hsplit hs'
  cases b with
  | nil => exact absurd hs' (hc s' a hsplit)
  | cons d b =>
    simp only [List.cons_append, List.cons.injEq] at hsplit
    exact Nat.succ_le_succ (h.least b s' a hsplit.2 hs')

theorem free_nil (h : ¬ P []) : Free P [] := by
  intro s hs
  rwa [List.infix_nil.1 hs]

theorem Free.cons {c : Char} (hc : ∀ s a, c :: t = s ++ a → ¬ P s) (h : Free P t) :
    Free P (c :: t) := by
  intro s hs
  rcases List.infix_cons_iff.1 hs with ⟨a, ha⟩ | hs
  · exact hc s a ha.symm
  · exact h s hs

/-- Where no instance of the pattern is the start of another, the leftmost occurrence is one
split. -/
theorem Leftmost.unique {before' s' after' : Text}
    (hP : ∀ {s s' a a'}, P s → P s' → s ++ a = s' ++ a' → s = s')
    (h : Leftmost P t before s after) (h' : Leftmost P t before' s' after') :
    before = before' ∧ s = s' ∧ after = after' := by
  have hlen : before.length = before'.length :=
    Nat.le_antisymm (h.least _ _ _ h'.split h'.holds) (h'.least _ _ _ h.split h.holds)
  have hsplit : before ++ (s ++ after) = before' ++ (s' ++ after') := by
    rw [← List.append_assoc, ← List.append_assoc, ← h.split, h'.split]
  obtain ⟨hb, htail⟩ := List.append_inj hsplit hlen
  have hs := hP h.holds h'.holds htail
  subst hs
  exact ⟨hb, rfl, List.append_cancel_left htail⟩

end

/-! ## Cutting at a text -/

theorem cutAt?_eq_none_iff {needle t : Text} : cutAt? needle t = none ↔ ¬ needle <:+: t := by
  rw [← contains_iff, contains, Bool.not_eq_true, Option.isSome_eq_false_iff,
    Option.isNone_iff_eq_none]

private theorem leftmost_of_cutAt? {needle t before after : Text}
    (h : cutAt? needle t = some (before, after)) : Leftmost (· = needle) t before needle after := by
  induction t generalizing before with
  | nil =>
    obtain ⟨rfl, -, -⟩ : before = [] ∧ needle = [] ∧ after = [] := by
      simpa using (cutAt?_eq_some h).symm
    exact ⟨cutAt?_eq_some h, rfl, fun _ _ _ _ _ => Nat.zero_le _⟩
  | cons c t ih =>
    unfold cutAt? at h
    split at h
    · next rest hr =>
      obtain ⟨rfl, rfl⟩ : [] = before ∧ rest = after := by simpa using h
      rw [dropPrefix?_eq_some.1 hr]
      exact leftmost_here rfl
    · next hnone =>
      obtain ⟨cut, hcut, heq⟩ := Option.map_eq_some_iff.1 h
      obtain ⟨rfl, rfl⟩ : c :: cut.1 = before ∧ cut.2 = after := by simpa using heq
      refine (ih hcut).cons ?_
      rintro s a hsplit rfl
      rw [dropPrefix?_eq_some.2 hsplit] at hnone
      cases hnone

/-- Cutting at a text finds its leftmost occurrence. -/
theorem cutAt?_eq_some_iff {needle t before after : Text} :
    cutAt? needle t = some (before, after) ↔ Leftmost (· = needle) t before needle after := by
  refine ⟨leftmost_of_cutAt?, fun h => ?_⟩
  cases hc : cutAt? needle t with
  | none => exact absurd ⟨before, after, h.split.symm⟩ (cutAt?_eq_none_iff.1 hc)
  | some cut =>
    obtain ⟨before', after'⟩ := cut
    obtain ⟨rfl, -, rfl⟩ :=
      (leftmost_of_cutAt? hc).unique (fun hs hs' _ => hs.trans hs'.symm) h
    rfl

instance (needle t before after : Text) : Decidable (Leftmost (· = needle) t before needle after) :=
  decidable_of_iff (cutAt? needle t = some (before, after)) cutAt?_eq_some_iff

/-! ## The same occurrence in another stretch -/

/-- What follows the leftmost occurrence of a text does not bear on it. -/
theorem Leftmost.append {needle t before after : Text}
    (h : Leftmost (· = needle) t before needle after) (u : Text) :
    Leftmost (· = needle) (t ++ u) before needle (after ++ u) := by
  refine ⟨by simp [h.split], rfl, ?_⟩
  intro b s a hsplit hs
  subst hs
  apply Nat.le_of_not_lt
  intro hearlier
  -- An occurrence that begins earlier ends earlier too, and so within `t`.
  have hlen : (b ++ s).length ≤ t.length := by
    have := congrArg List.length h.split
    simp only [List.length_append] at this ⊢
    omega
  have hprefix : b ++ s <+: t :=
    List.prefix_of_prefix_length_le ⟨a, hsplit.symm⟩ ⟨u, rfl⟩ hlen
  obtain ⟨a', ha'⟩ := hprefix
  have := h.least b s a' ha'.symm rfl
  omega

/-- An occurrence is leftmost also in the stretch from any place before it up to its end. -/
theorem Leftmost.of_append {P : Text → Prop} {t b x s after : Text}
    (h : Leftmost P t (b ++ x) s after) : Leftmost P (x ++ s) x s [] := by
  refine ⟨by simp, h.holds, ?_⟩
  intro u s' v hsplit hs'
  have hwhole : t = (b ++ u) ++ s' ++ (v ++ after) := by
    rw [h.split, List.append_assoc b, hsplit]
    simp
  have := h.least (b ++ u) s' (v ++ after) hwhole hs'
  simp only [List.length_append] at this
  omega

theorem Leftmost.not_infix_before {needle t before after : Text}
    (h : Leftmost (· = needle) t before needle after) (hne : needle ≠ []) : ¬ needle <:+: before := by
  rintro ⟨u, v, rfl⟩
  have hsplit : t = u ++ needle ++ (v ++ needle ++ after) := by
    rw [h.split]
    simp
  have := h.least u needle (v ++ needle ++ after) hsplit rfl
  have := List.length_pos_iff.2 hne
  simp only [List.length_append] at *
  omega

/-! ## Up to the end of a stretch -/

/-- No proper start of the text is an end of it, so that two occurrences never overlap. -/
def Unbordered (needle : Text) : Prop :=
  ∀ x z a, needle = x ++ z → needle = z ++ a → x = [] ∨ z = []

theorem unbordered_singleton (c : Char) : Unbordered [c] := by
  intro x z a hx _
  have hlen := congrArg List.length hx
  simp only [List.length_singleton, List.length_append] at hlen
  by_cases hxnil : x = []
  · exact .inl hxnil
  · have := List.length_pos_iff.2 hxnil
    exact .inr (List.length_eq_zero_iff.1 (by omega))

/-- A stretch that does not hold an unbordered text runs up to the first occurrence after it: none
begins inside the stretch and ends outside of it. -/
theorem Unbordered.leftmost {needle t : Text} (hn : Unbordered needle) (ht : ¬ needle <:+: t)
    (after : Text) : Leftmost (· = needle) (t ++ needle ++ after) t needle after := by
  refine ⟨rfl, rfl, ?_⟩
  rintro b s a hsplit rfl
  rw [List.append_assoc, List.append_assoc] at hsplit
  rcases List.append_eq_append_iff.1 hsplit with ⟨x, hb, -⟩ | ⟨x, hx, hs⟩
  · rw [hb, List.length_append]
    omega
  · rcases List.append_eq_append_iff.1 hs with ⟨y, hxy, -⟩ | ⟨z, hz, hza⟩
    · exact absurd ⟨b, y, by rw [hx, hxy, List.append_assoc]⟩ ht
    · -- `z` is the part of the earlier occurrence that lies outside of the stretch.
      have hborder : x = [] ∨ z = [] := by
        rcases List.append_eq_append_iff.1 hza with ⟨w, hzw, -⟩ | ⟨w, hsw, -⟩
        · have hlen := congrArg List.length hz
          simp only [hzw, List.length_append] at hlen
          exact .inl (List.length_eq_zero_iff.1 (by omega))
        · exact hn x z w hz hsw
      rcases hborder with rfl | rfl
      · simp [hx]
      · rw [List.append_nil] at hz
        exact absurd ⟨b, [], by rw [hx, hz, List.append_nil]⟩ ht

/-! ## Across a separator -/

/-- A part that does not hold the separator lies on one side of it. -/
theorem split_around {α : Type} {c : α} {p u b s a : List α} (h : p ++ c :: u = b ++ s ++ a)
    (hc : c ∉ s) :
    (∃ x, p = b ++ s ++ x ∧ a = x ++ c :: u) ∨ ∃ y, b = p ++ c :: y ∧ u = y ++ s ++ a := by
  rcases List.append_eq_append_iff.1 h with ⟨x, hbs, hx⟩ | ⟨x, hp, ha⟩
  · cases x with
    | nil => exact .inl ⟨[], by simpa using hbs.symm, by simpa using hx.symm⟩
    | cons d x =>
      obtain ⟨rfl, hu⟩ : c = d ∧ u = x ++ a := by simpa using hx
      rcases List.append_eq_append_iff.1 hbs with ⟨y, -, hs⟩ | ⟨y, hb, hy⟩
      · exact (hc (by simp [hs])).elim
      · cases y with
        | nil =>
          obtain rfl : c :: x = s := by simpa using hy
          exact (hc List.mem_cons_self).elim
        | cons e y =>
          obtain ⟨rfl, hxy⟩ : c = e ∧ x = y ++ s := by simpa using hy
          exact .inr ⟨y, hb, by rw [hu, hxy]⟩
  · exact .inl ⟨x, hp, ha⟩

theorem infix_append_sep {α : Type} {c : α} {p u s : List α} (hc : c ∉ s) :
    s <:+: p ++ c :: u ↔ s <:+: p ∨ s <:+: u := by
  constructor
  · rintro ⟨b, a, h⟩
    rcases split_around h.symm hc with ⟨x, hp, -⟩ | ⟨y, -, hu⟩
    · exact .inl ⟨b, x, hp.symm⟩
    · exact .inr ⟨y, a, hu.symm⟩
  · rintro (h | h)
    · exact List.infix_append_of_infix_left h
    · exact List.infix_append_of_infix_right (List.infix_cons h)

section
variable {P : Text → Prop} {c : Char} (hP : ∀ s, P s → c ∉ s)
include hP

theorem free_append_sep {p u : Text} : Free P (p ++ c :: u) ↔ Free P p ∧ Free P u := by
  constructor
  · intro h
    exact ⟨fun s hs hp => h s ((infix_append_sep (hP s hp)).2 (.inl hs)) hp,
      fun s hs hp => h s ((infix_append_sep (hP s hp)).2 (.inr hs)) hp⟩
  · rintro ⟨hfp, hfu⟩ s hs hps
    rcases (infix_append_sep (hP s hps)).1 hs with h | h
    · exact hfp s h hps
    · exact hfu s h hps

/-- What follows a separator does not bear on a leftmost occurrence before it. -/
theorem Leftmost.append_sep {t before s after : Text} (h : Leftmost P t before s after)
    (u : Text) : Leftmost P (t ++ c :: u) before s (after ++ c :: u) := by
  refine ⟨by simp [h.split], h.holds, ?_⟩
  intro b s' a hsplit hs'
  rcases split_around hsplit (hP s' hs') with ⟨x, ht, -⟩ | ⟨y, hb, -⟩
  · exact h.least b s' x ht hs'
  · have := congrArg List.length h.split
    simp only [hb, List.length_append] at this ⊢
    omega

/-- A part before a separator that is free of the pattern is passed over. -/
theorem Leftmost.prepend_sep {p u before s after : Text} (hp : Free P p)
    (h : Leftmost P u before s after) :
    Leftmost P (p ++ c :: u) (p ++ c :: before) s after := by
  refine ⟨by simp [h.split], h.holds, ?_⟩
  intro b s' a hsplit hs'
  rcases split_around hsplit (hP s' hs') with ⟨x, hpx, -⟩ | ⟨y, hb, hu⟩
  · exact absurd hs' (hp s' ⟨b, x, hpx.symm⟩)
  · have := h.least y s' a hu hs'
    simp only [hb, List.length_append, List.length_cons]
    omega

end

end Livecode.Text
