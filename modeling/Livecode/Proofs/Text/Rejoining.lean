import Livecode.Proofs.Text.Replacement

/-!
# Markers that come about again

Replacing reads a text once, and what has been put in is never looked at again. So the marker may
stand in the result although neither the replacement nor a stretch between two occurrences holds it:
it begins in the one and ends in the other. Whether that happens to some text depends on the marker
and the replacement alone. The marker falls in two parts `x` and `y`, and

* either the replacement ends with `x`, and a `y` that follows an occurrence completes it;
* or an `x` in front of an occurrence is completed by the replacement and what follows it. The
  occurrence must be the leftmost one then, which the `x` may prevent: the marker `aa` is never
  found behind an `a`, since it would be found one place earlier.

One pair of parts is enough, however many replacements the marker reaches over: the first place where
a kept stretch and a replacement meet decides.

## Main results

* `replaceAll_eq_self_iff` — replacing changes every text that holds the marker.
* `Replaced.marker_gone` — a marker whose parts do not meet is gone from every text.
* `Rejoins.exists_marked` — one whose parts meet is left standing in some text.
-/

namespace Livecode.Text

variable {marker replacement t out : Text}

/-- A text that is too short does not hold the marker. -/
theorem not_infix_of_length_lt (h : t.length < marker.length) : ¬ marker <:+: t := by
  intro hmem
  have := hmem.length_le
  omega

theorem ne_nil_of_not_infix (h : ¬ marker <:+: t) : marker ≠ [] := by
  intro hnil
  exact h (hnil ▸ List.nil_infix)

/-! ## Replacing changes a text -/

theorem replaceAll_of_length_lt (replacement : Text) (h : t.length < marker.length) :
    replaceAll marker replacement t = t :=
  replaceAll_of_cutAt?_eq_none replacement (cutAt?_eq_none_iff.2 (not_infix_of_length_lt h))

/-- Each occurrence adds the length of the replacement and takes that of the marker. -/
theorem Replaced.length_eq (h : Replaced marker replacement t out) :
    ∃ n, out.length + n * marker.length = t.length + n * replacement.length := by
  induction h with
  | clear => exact ⟨0, by simp⟩
  | @occurrence t before after out hleft _ ih =>
    obtain ⟨n, hn⟩ := ih
    refine ⟨n + 1, ?_⟩
    simp only [hleft.split, List.length_append, Nat.add_mul, Nat.one_mul]
    omega

/-- Replacing changes exactly the texts that hold the marker. -/
theorem replaceAll_eq_self_iff (hne : marker ≠ []) (hdiff : replacement ≠ marker) :
    replaceAll marker replacement t = t ↔ ¬ marker <:+: t := by
  constructor
  · intro hself
    cases hcut : cutAt? marker t with
    | none => exact cutAt?_eq_none_iff.1 hcut
    | some cut =>
      obtain ⟨before, after⟩ := cut
      have hsplit := cutAt?_eq_some hcut
      rw [replaceAll_of_cutAt? replacement hne hcut] at hself
      have hbehind : replacement ++ replaceAll marker replacement after = marker ++ after := by
        simpa only [List.append_assoc, List.append_cancel_left_eq] using hself.trans hsplit
      obtain ⟨n, hn⟩ := (replaced_replaceAll replacement hne after).length_eq
      have hsum := congrArg List.length hbehind
      simp only [List.length_append] at hsum
      have hmul : (n + 1) * replacement.length = (n + 1) * marker.length := by
        simp only [Nat.add_mul, Nat.one_mul]
        omega
      have hlen : replacement.length = marker.length := Nat.eq_of_mul_eq_mul_left (by omega) hmul
      exact absurd (List.append_inj hbehind hlen).1 hdiff
  · intro hfree
    exact replaceAll_of_cutAt?_eq_none replacement (cutAt?_eq_none_iff.2 hfree)

/-! ## Parts that meet -/

/-- Replacing can put `x` in front of `y`: the replacement ends with `x`, or an occurrence right behind
an `x` gives way to a text that goes on with `y`. -/
def Meets (marker replacement x y : Text) : Prop :=
  x <:+ replacement ∨
    (y <+: replacement ∨ replacement <+: y) ∧ Leftmost (· = marker) (x ++ marker) x marker []

/-- The marker falls in two parts that meet. -/
def Rejoins (marker replacement : Text) : Prop :=
  ∃ x y, x ≠ [] ∧ y ≠ [] ∧ marker = x ++ y ∧ Meets marker replacement x y

instance (marker replacement x y : Text) : Decidable (Meets marker replacement x y) :=
  inferInstanceAs (Decidable (_ ∨ _))

/-- There are as many ways to look at as the marker has places to be cut. -/
theorem rejoins_iff_exists_cut : Rejoins marker replacement ↔
    ∃ n < marker.length, 0 < n ∧ Meets marker replacement (marker.take n) (marker.drop n) := by
  constructor
  · rintro ⟨x, y, hx, hy, rfl, hmeet⟩
    have hxlen := List.length_pos_iff.2 hx
    have hylen := List.length_pos_iff.2 hy
    refine ⟨x.length, by simp only [List.length_append]; omega, hxlen, ?_⟩
    rwa [List.take_left, List.drop_left]
  · rintro ⟨n, hn, hpos, hmeet⟩
    refine ⟨marker.take n, marker.drop n, ?_, ?_, (List.take_append_drop n marker).symm, hmeet⟩
    · rw [← List.length_pos_iff, List.length_take]
      omega
    · rw [← List.length_pos_iff, List.length_drop]
      omega

instance (marker replacement : Text) : Decidable (Rejoins marker replacement) :=
  decidable_of_iff _ rejoins_iff_exists_cut.symm

/-- Parts that do not meet are kept apart: the result of replacing does not hold the marker. -/
theorem Replaced.marker_gone (h : Replaced marker replacement t out)
    (hfree : ¬ marker <:+: replacement) (hapart : ¬ Rejoins marker replacement) :
    ¬ marker <:+: out := by
  have hne : marker ≠ [] := ne_nil_of_not_infix hfree
  induction h with
  | clear hclear => exact hclear
  | @occurrence t before after out hleft _ ih =>
    intro hmem
    rw [List.append_assoc] at hmem
    rcases List.infix_append_iff_ne_nil.1 hmem with hbefore | hrest | ⟨x, y, hx, hy, hxy, hxs, hys⟩
    · exact hleft.not_infix_before hne hbefore
    · rcases List.infix_append_iff_ne_nil.1 hrest with hin | hout | ⟨x, y, hx, hy, hxy, hxs, -⟩
      · exact hfree hin
      · exact ih hout
      · exact hapart ⟨x, y, hx, hy, hxy, .inl hxs⟩
    · obtain ⟨b, rfl⟩ := hxs
      have hgoes : y <+: replacement ∨ replacement <+: y :=
        List.prefix_or_prefix_of_prefix hys (List.prefix_append replacement out)
      exact hapart ⟨x, y, hx, hy, hxy, .inr ⟨hgoes, hleft.of_append⟩⟩

/-- Parts that meet leave the marker standing in some text: the occurrence with just the one part
beside it. -/
theorem Rejoins.exists_marked (h : Rejoins marker replacement) (hne : marker ≠ []) :
    ∃ t, marker <:+: replaceAll marker replacement t := by
  obtain ⟨x, y, hx, hy, hxy, hmeet⟩ := h
  have hxlen := List.length_pos_iff.2 hx
  have hmarker := congrArg List.length hxy
  rw [List.length_append] at hmarker
  rcases hmeet with ⟨front, hfront⟩ | ⟨hgoes, hleft⟩
  · refine ⟨marker ++ y, front, [], ?_⟩
    rw [replaceAll_of_cutAt? replacement hne (cutAt?_eq_some_iff.2 (leftmost_here rfl)),
      replaceAll_of_length_lt replacement (by omega), ← hfront, hxy]
    simp
  · -- With any `u` behind the occurrence, the `x` in front of it stays and `u` is read on.
    have happly (u : Text) : replaceAll marker replacement (x ++ marker ++ u) =
        x ++ replacement ++ replaceAll marker replacement u :=
      replaceAll_of_cutAt? replacement hne (cutAt?_eq_some_iff.2 (hleft.append u))
    rcases hgoes with ⟨rest, hrest⟩ | ⟨rest, hrest⟩
    · refine ⟨x ++ marker ++ [], [], rest ++ replaceAll marker replacement [], ?_⟩
      rw [happly, ← hrest, hxy]
      simp
    · have hlen := congrArg List.length hrest
      rw [List.length_append] at hlen
      refine ⟨x ++ marker ++ rest, [], [], ?_⟩
      rw [happly, replaceAll_of_length_lt replacement (by omega), hxy, ← hrest]
      simp

end Livecode.Text
