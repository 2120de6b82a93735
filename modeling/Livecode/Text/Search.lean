import Livecode.Text.Basic

/-!
# Searching

The leftmost occurrence of one text inside another, and the replacement of all leftmost
non-overlapping occurrences.

## Main results

* `cutAt?_eq_some` — a cut names an actual occurrence.
* `contains_iff` — a text is contained exactly when it is an infix.
* `replaceAll_of_cutAt?` — the leftmost occurrence is replaced, and what follows it read on.
-/

namespace Livecode.Text

/-! ## First occurrence -/

/-- What follows `needle` when the text starts with it. -/
def dropPrefix? : (needle : Text) → Text → Option Text
  | [], t => some t
  | _ :: _, [] => none
  | n :: ns, c :: t => if n = c then dropPrefix? ns t else none

theorem dropPrefix?_eq_some {needle t rest : Text} :
    dropPrefix? needle t = some rest ↔ t = needle ++ rest := by
  induction needle generalizing t with
  | nil => simp [dropPrefix?]
  | cons n ns ih =>
    cases t with
    | nil => simp [dropPrefix?]
    | cons c t =>
      by_cases h : n = c
      · simp [dropPrefix?, h, ih]
      · simp [dropPrefix?, h, Ne.symm h]

/-- The text before and after the leftmost occurrence of `needle`. -/
def cutAt? (needle : Text) : Text → Option (Text × Text)
  | [] => (dropPrefix? needle []).map ([], ·)
  | c :: t =>
    match dropPrefix? needle (c :: t) with
    | some rest => some ([], rest)
    | none => (cutAt? needle t).map fun cut => (c :: cut.1, cut.2)

theorem cutAt?_eq_some {needle t before after : Text}
    (h : cutAt? needle t = some (before, after)) : t = before ++ needle ++ after := by
  induction t generalizing before with
  | nil =>
    simp only [cutAt?, Option.map_eq_some_iff] at h
    obtain ⟨rest, hr, heq⟩ := h
    have := dropPrefix?_eq_some.1 hr
    simp_all
  | cons c t ih =>
    unfold cutAt? at h
    split at h
    · next rest hr =>
      have := dropPrefix?_eq_some.1 hr
      simp_all
    · obtain ⟨cut, hcut, heq⟩ := Option.map_eq_some_iff.1 h
      simp only [Prod.mk.injEq] at heq
      obtain ⟨rfl, rfl⟩ := heq
      have := @ih cut.1 (by rw [hcut])
      simp [this]

/-- Whether `needle` occurs in the text. -/
def contains (needle t : Text) : Bool := (cutAt? needle t).isSome

theorem contains_iff {needle t : Text} : contains needle t = true ↔ needle <:+: t := by
  constructor
  · intro h
    obtain ⟨⟨b, a⟩, hc⟩ := Option.isSome_iff_exists.1 h
    exact ⟨b, a, (cutAt?_eq_some hc).symm⟩
  · rintro ⟨b, a, rfl⟩
    induction b with
    | nil =>
      cases hn : needle ++ a with
      | nil => simp_all [contains, cutAt?, dropPrefix?]
      | cons c t =>
        have : dropPrefix? needle (c :: t) = some a := dropPrefix?_eq_some.2 hn.symm
        simp [contains, cutAt?, hn, this]
    | cons c b ih =>
      simp only [contains, List.cons_append, cutAt?] at ih ⊢
      split <;> simp_all

/-! ## Replacement -/

/-- Replaces `needle` in what is left after passing over the next `skip` characters, which belong
to an occurrence already replaced. -/
private def replaceFrom (needle replacement : Text) : (skip : Nat) → Text → Text
  | _, [] => []
  | skip + 1, _ :: t => replaceFrom needle replacement skip t
  | 0, c :: t =>
    if needle.isPrefixOf (c :: t) then
      replacement ++ replaceFrom needle replacement (needle.length - 1) t
    else c :: replaceFrom needle replacement 0 t

/-- Replaces every leftmost non-overlapping occurrence of `needle`; an empty needle occurs
nowhere. -/
def replaceAll (needle replacement t : Text) : Text :=
  if needle = [] then t else replaceFrom needle replacement 0 t

section
variable {needle t before after : Text} (replacement : Text)

private theorem replaceFrom_length (passed : Text) :
    replaceFrom needle replacement passed.length (passed ++ t) =
      replaceFrom needle replacement 0 t := by
  induction passed with
  | nil => rfl
  | cons c passed ih => exact ih

private theorem isPrefixOf_of_dropPrefix?_eq_none (h : dropPrefix? needle t = none) :
    needle.isPrefixOf t = false := by
  rw [Bool.eq_false_iff, ne_eq, List.isPrefixOf_iff_prefix]
  rintro ⟨rest, hrest⟩
  rw [dropPrefix?_eq_some.2 hrest.symm] at h
  cases h

private theorem replaceFrom_of_cutAt? (hne : needle ≠ [])
    (h : cutAt? needle t = some (before, after)) :
    replaceFrom needle replacement 0 t =
      before ++ replacement ++ replaceFrom needle replacement 0 after := by
  induction t generalizing before with
  | nil =>
    have hsplit := cutAt?_eq_some h
    simp_all
  | cons c t ih =>
    unfold cutAt? at h
    split at h
    · next rest hr =>
      obtain ⟨rfl, rfl⟩ : [] = before ∧ rest = after := by simpa using h
      have hsplit := dropPrefix?_eq_some.1 hr
      cases needle with
      | nil => exact absurd rfl hne
      | cons n ns =>
        obtain ⟨rfl, rfl⟩ : c = n ∧ t = ns ++ rest := by simpa using hsplit
        have hprefix : (c :: ns).isPrefixOf (c :: (ns ++ rest)) = true :=
          List.isPrefixOf_iff_prefix.2 ⟨rest, rfl⟩
        rw [replaceFrom, if_pos hprefix]
        exact congrArg (replacement ++ ·) (replaceFrom_length replacement ns)
    · next hnone =>
      obtain ⟨cut, hcut, heq⟩ := Option.map_eq_some_iff.1 h
      obtain ⟨rfl, rfl⟩ : c :: cut.1 = before ∧ cut.2 = after := by simpa using heq
      rw [replaceFrom, isPrefixOf_of_dropPrefix?_eq_none hnone, if_neg Bool.false_ne_true, ih hcut]
      rfl

private theorem replaceFrom_of_cutAt?_eq_none (h : cutAt? needle t = none) :
    replaceFrom needle replacement 0 t = t := by
  induction t with
  | nil => rfl
  | cons c t ih =>
    unfold cutAt? at h
    split at h
    · cases h
    · next hnone =>
      rw [replaceFrom, isPrefixOf_of_dropPrefix?_eq_none hnone, if_neg Bool.false_ne_true,
        ih (Option.map_eq_none_iff.1 h)]

theorem replaceAll_nil (t : Text) : replaceAll [] replacement t = t := rfl

/-- The leftmost occurrence is replaced, and replacing goes on behind it. -/
theorem replaceAll_of_cutAt? (hne : needle ≠ []) (h : cutAt? needle t = some (before, after)) :
    replaceAll needle replacement t =
      before ++ replacement ++ replaceAll needle replacement after := by
  rw [replaceAll, replaceAll, if_neg hne, if_neg hne]
  exact replaceFrom_of_cutAt? replacement hne h

theorem replaceAll_of_cutAt?_eq_none (h : cutAt? needle t = none) :
    replaceAll needle replacement t = t := by
  unfold replaceAll
  split
  · rfl
  · exact replaceFrom_of_cutAt?_eq_none replacement h

end

end Livecode.Text
