import Livecode.Text.Basic

/-!
# Trimming

Trimming takes blanks from the ends of a text and nothing from between them: blanks put in front make no
difference to it, and a stretch of the text that has no blanks at its own ends is still there.

## Main results

* `trim_append_of_blank` — blanks in front are trimmed away.
* `infix_trim` — what trimming leaves alone is kept in any text that holds it.
-/

namespace Livecode.Text

theorem trim_append_of_blank {front : Text} (h : ∀ c ∈ front, isBlank c = true) (t : Text) :
    trim (front ++ t) = trim t := by
  rw [trim, List.dropWhile_append_of_pos h, trim]

theorem trim_isInfix (t : Text) : trim t <:+: t :=
  (dropEndWhile_isPrefix isBlank _).isInfix.trans (List.dropWhile_suffix isBlank).isInfix

private theorem exists_dropWhile_eq {p : Char → Bool} {c : Char} (hc : p c = false) (front t : Text) :
    ∃ front', (front ++ c :: t).dropWhile p = front' ++ c :: t := by
  induction front with
  | nil => exact ⟨[], by simp [hc]⟩
  | cons d front ih =>
    by_cases hd : p d = true
    · obtain ⟨front', hfront⟩ := ih
      exact ⟨front', by simpa [hd] using hfront⟩
    · exact ⟨d :: front, by simp [hd]⟩

theorem ends_of_trim_eq {c : Char} {s : Text} (h : trim (c :: s) = c :: s) :
    isBlank c = false ∧ ∃ front d, c :: s = front ++ [d] ∧ isBlank d = false := by
  have hlen := congrArg List.length h
  have hend := (dropEndWhile_isPrefix isBlank ((c :: s).dropWhile isBlank)).length_le
  have hstart := (List.dropWhile_suffix (l := s) isBlank).length_le
  rw [trim] at hlen
  have hc : isBlank c = false := by
    by_cases hblank : isBlank c = true
    · rw [List.dropWhile_cons_of_pos hblank] at hlen hend
      simp only [List.length_cons] at hlen
      omega
    · exact Bool.eq_false_iff.mpr hblank
  have hdrop : (c :: s).dropWhile isBlank = c :: s := by simp [hc]
  refine ⟨hc, _, _, (List.dropLast_concat_getLast (List.cons_ne_nil c s)).symm, ?_⟩
  by_cases hblank : isBlank ((c :: s).getLast (List.cons_ne_nil c s)) = true
  · have hshort := (dropEndWhile_isPrefix isBlank (c :: s).dropLast).length_le
    rw [hdrop, ← List.dropLast_concat_getLast (List.cons_ne_nil c s), dropEndWhile_append_singleton,
      if_pos hblank, List.length_append, List.length_singleton] at hlen
    omega
  · exact Bool.eq_false_iff.mpr hblank

/-- A stretch that trimming leaves alone is left alone by trimming what holds it. -/
theorem infix_trim {s t : Text} (hs : trim s = s) (h : s <:+: t) : s <:+: trim t := by
  obtain ⟨before, after, rfl⟩ := h
  cases s with
  | nil => exact List.nil_infix
  | cons c s =>
    obtain ⟨hc, front, d, hends, hd⟩ := ends_of_trim_eq hs
    obtain ⟨before', hbefore⟩ := exists_dropWhile_eq hc before (s ++ after)
    obtain ⟨after', hafter⟩ := exists_dropWhile_eq hd after.reverse (before' ++ front).reverse
    have hstart : (before ++ (c :: s) ++ after).dropWhile isBlank =
        (before' ++ front) ++ d :: after := by
      calc (before ++ (c :: s) ++ after).dropWhile isBlank
          = before' ++ ((c :: s) ++ after) := by simpa using hbefore
        _ = (before' ++ front) ++ d :: after := by simp [hends]
    have hend : dropEndWhile isBlank ((before' ++ front) ++ d :: after) =
        (before' ++ front) ++ d :: after'.reverse := by
      calc dropEndWhile isBlank ((before' ++ front) ++ d :: after)
          = ((after.reverse ++ d :: (before' ++ front).reverse).dropWhile isBlank).reverse := by
            simp [dropEndWhile]
        _ = (before' ++ front) ++ d :: after'.reverse := by rw [hafter]; simp
    refine ⟨before', after'.reverse, ?_⟩
    rw [trim, hstart, hend, hends]
    simp

end Livecode.Text
