import Livecode.Text.Basic

/-!
# Lines

A sequence is cut at every occurrence of a separator into *pieces*; joining the pieces with the
separator gives the sequence back. The lines of a text are its pieces at `'\n'`, each without one
`'\r'` at its end. The same cut serves bytes and characters.

## Main results

* `join_pieces` — joining undoes cutting.
* `pieces_join` — cutting undoes joining when no piece holds the separator.
* `not_mem_of_mem_pieces` — no piece holds the separator.
-/

namespace Livecode.Text

/-! ## Pieces -/

/-- The pieces between the occurrences of `sep`, always at least one. -/
def pieces {α : Type} [DecidableEq α] (sep : α) : List α → List (List α)
  | [] => [[]]
  | a :: as =>
    if a = sep then [] :: pieces sep as
    else match pieces sep as with
      | [] => [[a]]
      | p :: ps => (a :: p) :: ps

/-- The pieces with `sep` between them. -/
def join {α : Type} (sep : α) : List (List α) → List α
  | [] => []
  | [p] => p
  | p :: q :: ps => p ++ sep :: join sep (q :: ps)

theorem join_cons {α : Type} (sep : α) (p : List α) {ps : List (List α)} (h : ps ≠ []) :
    join sep (p :: ps) = p ++ sep :: join sep ps := by
  cases ps with
  | nil => exact absurd rfl h
  | cons q ps => rfl

section
variable {α : Type} [DecidableEq α] (sep : α)

theorem pieces_ne_nil (as : List α) : pieces sep as ≠ [] := by
  cases as with
  | nil => simp [pieces]
  | cons a as =>
    unfold pieces
    split
    · simp
    · split <;> simp

@[simp] theorem join_pieces (as : List α) : join sep (pieces sep as) = as := by
  induction as with
  | nil => rfl
  | cons a as ih =>
    have hne := pieces_ne_nil sep as
    unfold pieces
    split
    · next h =>
      subst h
      match hp : pieces a as with
      | [] => exact absurd hp hne
      | p :: ps => rw [hp] at ih; simp [join, ih]
    · match hp : pieces sep as with
      | [] => exact absurd hp hne
      | [p] => rw [hp] at ih; simpa [join] using ih
      | p :: q :: ps => rw [hp] at ih; simpa [join] using ih

theorem not_mem_of_mem_pieces {as p : List α} (h : p ∈ pieces sep as) : sep ∉ p := by
  induction as generalizing p with
  | nil => simp_all [pieces]
  | cons a as ih =>
    unfold pieces at h
    split at h
    · rcases List.mem_cons.1 h with rfl | h
      · simp
      · exact ih h
    · next hne =>
      split at h
      · next hp => exact absurd hp (pieces_ne_nil sep as)
      · next q qs hq =>
        rcases List.mem_cons.1 h with rfl | h
        · have := ih (p := q) (by simp [hq])
          simp [this, Ne.symm hne]
        · exact ih (by simp [hq, h])

theorem pieces_of_not_mem {as : List α} (h : sep ∉ as) : pieces sep as = [as] := by
  induction as with
  | nil => rfl
  | cons a as ih =>
    simp only [List.mem_cons, not_or] at h
    simp [pieces, ih h.2, Ne.symm h.1]

/-- Texts joined by a separator are cut separately. -/
theorem pieces_append_sep (p as : List α) :
    pieces sep (p ++ sep :: as) = pieces sep p ++ pieces sep as := by
  induction p with
  | nil => simp [pieces]
  | cons a p ih =>
    by_cases ha : a = sep
    · simp [pieces, ha, ih]
    · cases hp : pieces sep p with
      | nil => exact absurd hp (pieces_ne_nil sep p)
      | cons q qs => simp [pieces, ha, ih, hp]

theorem pieces_join {ps : List (List α)} (hne : ps ≠ []) (h : ∀ p ∈ ps, sep ∉ p) :
    pieces sep (join sep ps) = ps := by
  induction ps with
  | nil => exact absurd rfl hne
  | cons p ps ih =>
    cases ps with
    | nil => exact pieces_of_not_mem sep (h p (by simp))
    | cons q qs =>
      rw [join, pieces_append_sep, pieces_of_not_mem sep (h p (by simp)), List.singleton_append,
        ih (by simp) fun r hr => h r (List.mem_cons_of_mem _ hr)]

/-- A function that works on both sides of a separator by themselves works on each piece. -/
theorem pieces_map {β : Type} [DecidableEq β] {sep' : β} {f : List α → List β}
    (happend : ∀ as bs, f (as ++ sep :: bs) = f as ++ sep' :: f bs)
    (habsent : ∀ as, sep ∉ as → sep' ∉ f as) (as : List α) :
    pieces sep' (f as) = (pieces sep as).map f := by
  by_cases hmem : sep ∈ as
  · obtain ⟨before, after, has⟩ := List.append_of_mem hmem
    rw [has, happend, pieces_append_sep, pieces_append_sep, pieces_map happend habsent before,
      pieces_map happend habsent after, List.map_append]
  · rw [pieces_of_not_mem sep hmem, pieces_of_not_mem sep' (habsent as hmem), List.map_singleton]
termination_by as.length
decreasing_by all_goals rw [has, List.length_append, List.length_cons]; omega

end

/-- A piece has the separator after it unless it is the last one. -/
theorem infix_or_suffix_of_mem_join {α : Type} (sep : α) {ps : List (List α)} {p : List α}
    (h : p ∈ ps) :
    p ++ [sep] <:+: join sep ps ∨ p <:+ join sep ps := by
  induction ps with
  | nil => cases h
  | cons q ps ih =>
    cases ps with
    | nil =>
      obtain rfl := List.mem_singleton.1 h
      exact .inr (List.suffix_refl p)
    | cons r ps =>
      rcases List.mem_cons.1 h with rfl | h
      · exact .inl ⟨[], join sep (r :: ps), by simp [join]⟩
      · rcases ih h with h | h
        · exact .inl (List.infix_append_of_infix_right (List.infix_cons h))
        · exact .inr ((h.trans (List.suffix_cons _ _)).trans (List.suffix_append _ _))

/-- Each piece but the last one has a separator behind it. -/
theorem exists_join_eq {α : Type} (sep : α) {ps : List (List α)} {p : List α} (h : p ∈ ps)
    (last : List α) :
    ∃ before after, join sep (ps ++ [last]) = before ++ p ++ sep :: after := by
  induction ps with
  | nil => cases h
  | cons q ps ih =>
    rw [List.cons_append, join_cons sep q (by simp)]
    rcases List.mem_cons.1 h with rfl | h
    · exact ⟨[], join sep (ps ++ [last]), rfl⟩
    · obtain ⟨before, after, hjoin⟩ := ih h
      refine ⟨q ++ sep :: before, after, ?_⟩
      rw [hjoin]
      simp

/-- The pieces that `sep` ends, and what follows the last `sep` unless that is nothing. -/
def records {α : Type} [DecidableEq α] (sep : α) (as : List α) : List (List α) :=
  let last := (pieces sep as).getLast (pieces_ne_nil sep as)
  (pieces sep as).dropLast ++ if last = [] then [] else [last]

theorem records_append_sep {α : Type} [DecidableEq α] (sep : α) (p as : List α) :
    records sep (p ++ sep :: as) = pieces sep p ++ records sep as := by
  simp only [records, pieces_append_sep, List.dropLast_append_of_ne_nil (pieces_ne_nil sep as),
    List.getLast_append_of_ne_nil _ (pieces_ne_nil sep as), List.append_assoc]

/-! ## Lines -/

/-- Without one carriage return at the end. -/
def dropReturn (t : Text) : Text :=
  if t.getLast? = some '\r' then t.dropLast else t

/-- The lines of a text, always at least one. -/
def lines (t : Text) : List Text := (pieces '\n' t).map dropReturn

/-- The lines with a line feed between them. -/
def unlines (ls : List Text) : Text := join '\n' ls

theorem lines_ne_nil (t : Text) : lines t ≠ [] := by
  simp [lines, pieces_ne_nil]

end Livecode.Text
