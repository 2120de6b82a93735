import Livecode.Proofs.Text.Occurrence

/-!
# Replacing every occurrence

The leftmost occurrence of a text is replaced, and replacing goes on behind it, so that occurrences
that overlap an earlier one are passed over and what has been put in is never looked at again. Said of
two texts, without a scan: they agree but for the occurrences, taken from the left.

## Main results

* `replaceAll_eq_iff` — the scan computes what the relation says, and nothing else satisfies it.
* `Replaced.append` — on both sides of an occurrence that overlaps no other, replacing goes on alone.
-/

namespace Livecode.Text

/-- The second text is the first one with every leftmost non-overlapping occurrence of `marker`
replaced. -/
inductive Replaced (marker replacement : Text) : Text → Text → Prop
  | clear {t : Text} : ¬ marker <:+: t → Replaced marker replacement t t
  | occurrence {t before after out : Text} : Leftmost (· = marker) t before marker after →
      Replaced marker replacement after out →
      Replaced marker replacement t (before ++ replacement ++ out)

variable {marker : Text} (replacement : Text)

/-- Behind an occurrence the text is shorter, so the scan comes to an end. -/
theorem replaced_replaceAll (hne : marker ≠ []) (t : Text) :
    Replaced marker replacement t (replaceAll marker replacement t) := by
  cases hcut : cutAt? marker t with
  | none =>
    rw [replaceAll_of_cutAt?_eq_none replacement hcut]
    exact .clear (cutAt?_eq_none_iff.1 hcut)
  | some cut =>
    obtain ⟨before, after⟩ := cut
    rw [replaceAll_of_cutAt? replacement hne hcut]
    exact .occurrence (cutAt?_eq_some_iff.1 hcut) (replaced_replaceAll hne after)
termination_by t.length
decreasing_by
  have hsplit := congrArg List.length (cutAt?_eq_some hcut)
  have hpos := List.length_pos_iff.2 hne
  simp only [List.length_append] at hsplit
  omega

theorem Replaced.eq_replaceAll {replacement t out : Text} (hne : marker ≠ [])
    (h : Replaced marker replacement t out) : replaceAll marker replacement t = out := by
  induction h with
  | clear hfree => exact replaceAll_of_cutAt?_eq_none replacement (cutAt?_eq_none_iff.2 hfree)
  | occurrence hleft _ ih =>
    rw [replaceAll_of_cutAt? replacement hne (cutAt?_eq_some_iff.2 hleft), ih]

/-- The scan computes what the relation says. -/
theorem replaceAll_eq_iff {t out : Text} (hne : marker ≠ []) :
    replaceAll marker replacement t = out ↔ Replaced marker replacement t out := by
  constructor
  · rintro rfl
    exact replaced_replaceAll replacement hne t
  · exact Replaced.eq_replaceAll hne

/-- An occurrence that cannot overlap another one may be split off anywhere. -/
theorem Replaced.append {replacement t out after out' : Text} (hmarker : Unbordered marker)
    (h : Replaced marker replacement t out) (h' : Replaced marker replacement after out') :
    Replaced marker replacement (t ++ marker ++ after) (out ++ replacement ++ out') := by
  induction h with
  | clear hfree => exact .occurrence (hmarker.leftmost hfree after) h'
  | @occurrence t before rest out hleft _ ih =>
    have hwhole : Leftmost (· = marker) (t ++ marker ++ after) before marker
        (rest ++ marker ++ after) := by
      simpa only [List.append_assoc] using hleft.append (marker ++ after)
    have hreplaced := Replaced.occurrence hwhole ih
    simpa only [List.append_assoc] using hreplaced

/-- Occurrences that overlap are taken from the left. -/
example : replaceAll "aa" "b" "aaa" = "ba".toList := by decide

end Livecode.Text
