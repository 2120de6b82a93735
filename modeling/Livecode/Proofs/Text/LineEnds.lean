import Livecode.Text.Line

/-!
# Line ends

A text is cut into lines whose ends may be written in two ways. Joining the lines again leaves one
way only: the line feed alone. What a carriage return is worth thus depends on the next character.

## Main results

* `unlines_lines` — the lines joined again are the text with its line ends folded.
* `foldLineEnds_append` — a text is folded piece by piece.
-/

namespace Livecode.Text

/-- Drops the carriage returns that stand at the end of a line. The text is followed by `after`. -/
def foldLineEnds (after : Option Char) : Text → Text
  | [] => []
  | c :: t =>
    if c = '\r' ∧ (t.head?.or after).all (· = '\n') then foldLineEnds after t
    else c :: foldLineEnds after t

theorem foldLineEnds_cons (after : Option Char) (c : Char) (t : Text) :
    foldLineEnds after (c :: t) =
      if c = '\r' ∧ (t.head?.or after).all (· = '\n') then foldLineEnds after t
      else c :: foldLineEnds after t := rfl

theorem foldLineEnds_cons_of_ne {after : Option Char} {c : Char} {t : Text} (hc : c ≠ '\r') :
    foldLineEnds after (c :: t) = c :: foldLineEnds after t := by
  rw [foldLineEnds_cons, if_neg fun h => hc h.1]

/-- A text is folded piece by piece. -/
theorem foldLineEnds_append (after : Option Char) (a b : Text) :
    foldLineEnds after (a ++ b) =
      foldLineEnds (b.head?.or after) a ++ foldLineEnds after b := by
  induction a with
  | nil => rfl
  | cons c a ih =>
    have hnext : (a ++ b).head?.or after = a.head?.or (b.head?.or after) := by
      cases a <;> simp
    rw [List.cons_append, foldLineEnds_cons, foldLineEnds_cons, hnext, ih]
    split
    · rfl
    · rfl

theorem foldLineEnds_of_not_mem {t : Text} (after : Option Char) (h : '\r' ∉ t) :
    foldLineEnds after t = t := by
  induction t with
  | nil => rfl
  | cons c t ih =>
    rw [List.mem_cons, not_or] at h
    rw [foldLineEnds_cons_of_ne (Ne.symm h.1), ih h.2]

/-! ## The return at the end of a line -/

theorem dropReturn_concat (p : Text) : dropReturn (p ++ ['\r']) = p := by
  simp [dropReturn]

theorem dropReturn_eq_or (line : Text) :
    dropReturn line = line ∨ line = dropReturn line ++ ['\r'] := by
  by_cases hend : line.getLast? = some '\r'
  · obtain ⟨p, rfl⟩ := List.getLast?_eq_some_iff.mp hend
    exact .inr (by rw [dropReturn_concat])
  · exact .inl (by rw [dropReturn, if_neg hend])

/-- Texts with a line feed between them have their lines one after the other. -/
theorem lines_append_lineFeed (a b : Text) : lines (a ++ '\n' :: b) = lines a ++ lines b := by
  rw [lines, pieces_append_sep, List.map_append]
  rfl

/-! ## Lines joined again -/

private theorem join_cons_cons {α : Type} (sep a : α) (p : List α) (ps : List (List α)) :
    join sep ((a :: p) :: ps) = a :: join sep (p :: ps) := by
  cases ps <;> rfl

private theorem dropReturn_cons (c : Char) (p : Text) :
    dropReturn (c :: p) = if c = '\r' ∧ p = [] then [] else c :: dropReturn p := by
  cases p with
  | nil => by_cases hc : c = '\r' <;> simp [dropReturn, hc]
  | cons d p =>
    simp only [dropReturn, List.getLast?_cons_cons, reduceCtorEq, and_false, if_false]
    split <;> rfl

/-- The first piece is empty when the text has nothing before its first separator. -/
private theorem head_pieces_eq_nil {t p : Text} {ps : List Text} (h : pieces '\n' t = p :: ps) :
    p = [] ↔ (t.head?.or none).all (· = '\n') = true := by
  cases t with
  | nil =>
    obtain ⟨rfl, -⟩ := List.cons.inj h
    simp
  | cons d t =>
    unfold pieces at h
    split at h
    · next hd =>
      obtain ⟨rfl, -⟩ := List.cons.inj h
      simp [hd]
    · next hd =>
      split at h
      · next hnil => exact absurd hnil (pieces_ne_nil _ _)
      · obtain ⟨rfl, -⟩ := List.cons.inj h
        simp [hd]

/-- The lines joined again are the text with its line ends folded. -/
theorem unlines_lines (t : Text) : unlines (lines t) = foldLineEnds none t := by
  induction t with
  | nil => rfl
  | cons c t ih =>
    by_cases hc : c = '\n'
    · subst hc
      have hlines : lines ('\n' :: t) = [] :: lines t := by simp [lines, pieces, dropReturn]
      rw [foldLineEnds_cons_of_ne (by decide), hlines, unlines, join_cons _ _ (lines_ne_nil t),
        ← ih]
      rfl
    · obtain ⟨p, ps, hp⟩ := List.exists_cons_of_ne_nil (pieces_ne_nil '\n' t)
      have hlines : lines t = dropReturn p :: ps.map dropReturn := by rw [lines, hp, List.map_cons]
      have hlines' : lines (c :: t) = dropReturn (c :: p) :: ps.map dropReturn := by
        simp [lines, pieces, hc, hp]
      rw [hlines, unlines] at ih
      rw [hlines', unlines, foldLineEnds_cons, dropReturn_cons, ← ih]
      by_cases hend : c = '\r' ∧ p = []
      · rw [if_pos hend, if_pos ⟨hend.1, (head_pieces_eq_nil hp).1 hend.2⟩, hend.2]
        rfl
      · rw [if_neg hend, if_neg fun h => hend ⟨h.1, (head_pieces_eq_nil hp).2 h.2⟩, join_cons_cons]

theorem lineFeed_not_mem_of_mem_lines {t l : Text} (h : l ∈ lines t) : '\n' ∉ l := by
  obtain ⟨p, hp, rfl⟩ := List.mem_map.1 h
  intro hmem
  refine not_mem_of_mem_pieces '\n' hp ?_
  unfold dropReturn at hmem
  split at hmem
  · exact List.dropLast_subset p hmem
  · exact hmem

/-- Without carriage returns the lines are the pieces between line feeds. -/
theorem lines_of_not_mem {t : Text} (h : '\r' ∉ t) : lines t = pieces '\n' t := by
  have hjoin : join '\n' (lines t) = t := by
    rw [← unlines, unlines_lines, foldLineEnds_of_not_mem none h]
  have hpieces := pieces_join '\n' (lines_ne_nil t) fun l hl => lineFeed_not_mem_of_mem_lines hl
  rw [hjoin] at hpieces
  exact hpieces.symm

end Livecode.Text
