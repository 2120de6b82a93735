import Livecode.Proofs.Statement.Locality
import Livecode.Proofs.Text.Rejoining

/-!
# Markers that are left

A redirect works on one line at a time. Two things can bring its marker back. On the line itself the
replacement may meet what stands beside it; then a second redirect would go on where the first one
stopped. That depends on the redirect only, and the redirect of the local files is safe from it.

Past the line, the kept lines are joined without anything between them, and no redirect looks at the
joined code. There the marker comes about exactly where it goes over the end of a line; no other
statement holds it.

## Main results

* `Redirect.apply_apply_iff` — the redirects that may be applied twice.
* `Redirect.not_infix_apply` — they leave no marker on a line.
* `infix_statement_iff` — what a statement holds is a stretch of the code with a terminator behind it.
* `marker_infix_statement_iff` — the marker of the local files is held by a statement exactly where it
  straddles kept lines.
-/

namespace Livecode

/-! ## Redirecting twice -/

namespace Redirect

variable {r : Redirect}

theorem not_infix_apply (hfree : ¬ r.marker <:+: r.replacement)
    (hapart : ¬ Text.Rejoins r.marker r.replacement) (line : Text) :
    ¬ r.marker <:+: r.apply line :=
  (Text.replaced_replaceAll r.replacement (Text.ne_nil_of_not_infix hfree) line).marker_gone hfree
    hapart

/-- **Redirecting twice is redirecting once when no two parts of the marker meet, and only then.** The
replacement does not hold the marker; that alone is not enough. -/
theorem apply_apply_iff (hne : r.marker ≠ []) (hfree : ¬ r.marker <:+: r.replacement) :
    (∀ line, r.apply (r.apply line) = r.apply line) ↔ ¬ Text.Rejoins r.marker r.replacement := by
  have hdiff : r.replacement ≠ r.marker := by
    intro heq
    exact hfree (heq ▸ List.infix_rfl)
  have hkeeps (line : Text) : r.apply line = line ↔ ¬ r.marker <:+: line :=
    Text.replaceAll_eq_self_iff hne hdiff
  constructor
  · intro htwice hrejoins
    obtain ⟨line, hmem⟩ := hrejoins.exists_marked hne
    exact (hkeeps (r.apply line)).mp (htwice line) hmem
  · intro hapart line
    exact (hkeeps (r.apply line)).mpr (not_infix_apply hfree hapart line)

theorem localFiles_free : ¬ localFiles.marker <:+: localFiles.replacement :=
  Text.cutAt?_eq_none_iff.mp (by decide)

theorem localFiles_apart : ¬ Text.Rejoins localFiles.marker localFiles.replacement := by decide

theorem localFiles_apply_apply :
    localFiles.marker ≠ [] ∧ ¬ localFiles.marker <:+: localFiles.replacement ∧
      localFiles.apply (localFiles.apply "src('local/files/local/files/a.mp4')") =
        localFiles.apply "src('local/files/local/files/a.mp4')" :=
  ⟨by decide, localFiles_free,
    (apply_apply_iff (by decide) localFiles_free).mpr localFiles_apart _⟩

/-- The end of the replacement and the text behind it make a marker: redirected once, the line reads
`src('http://localhost:3000/files/local/a.mp4')`. -/
theorem not_apply_apply_of_free : ¬ ∀ (r : Redirect) (line : Text), r.marker ≠ [] →
    ¬ r.marker <:+: r.replacement → r.apply (r.apply line) = r.apply line := by
  intro htwice
  have hfree : ¬ "/local/".toList <:+: "http://localhost:3000/files/".toList :=
    Text.cutAt?_eq_none_iff.mp (by decide)
  have := htwice ⟨"/local/", "http://localhost:3000/files/"⟩ "src('/local/local/a.mp4')" (by decide)
    hfree
  exact absurd this (by decide)

end Redirect

/-! ## What statements hold -/

open StatementStream

/-- The statements cut from some code hold the stretches of it that a terminator follows. The stretch
has no terminator and no blank at its ends, so that neither cutting nor trimming breaks it. -/
theorem infix_statement_iff {s code : Text} (hne : s ≠ []) (hend : terminator ∉ s)
    (hends : Text.trim s = s) :
    (∃ st ∈ (cut code).1, s <:+: st.text) ↔
      ∃ before after, code = before ++ s ++ after ∧ terminator ∈ after := by
  constructor
  · rintro ⟨st, hst, hmem⟩
    obtain ⟨ps, last, hps⟩ := exists_pieces code
    rw [cut_of_pieces hps, List.mem_filterMap] at hst
    obtain ⟨p, hp, hofText⟩ := hst
    have htext : st.text = Text.trim p := Statement.text_eq_trim hofText
    obtain ⟨b, a, hpiece⟩ : s <:+: p := (htext ▸ hmem).trans (Text.trim_isInfix p)
    obtain ⟨before, after, hjoin⟩ := Text.exists_join_eq terminator hp last
    have hcode : Text.join terminator (ps ++ [last]) = code := by rw [← hps, Text.join_pieces]
    refine ⟨before ++ b, a ++ terminator :: after, ?_, by simp⟩
    rw [← hcode, hjoin, ← hpiece]
    simp
  · rintro ⟨before, after, rfl, hafter⟩
    obtain ⟨u, v, rfl, hu⟩ := List.eq_append_cons_of_mem hafter
    -- The first terminator behind the stretch ends the statement that holds it.
    let p := (cut before).2 ++ (s ++ u)
    have hp : terminator ∉ p := by
      simp only [p, List.mem_append, not_or]
      exact ⟨terminator_not_mem_cut before, hend, hu⟩
    have hmem : s <:+: Text.trim p :=
      Text.infix_trim hends ⟨(cut before).2, u, by simp [p]⟩
    have htrim : Text.trim p ≠ [] := by
      intro hnil
      rw [hnil, List.infix_nil] at hmem
      exact hne hmem
    have hcut : (cut (before ++ s ++ (u ++ terminator :: v))).1 =
        (cut before).1 ++ ((Statement.ofText? p).toList ++ (cut v).1) := by
      have hsplit : (cut before).2 ++ (s ++ (u ++ terminator :: v)) = p ++ terminator :: v := by
        simp [p]
      rw [List.append_assoc, cut_append, hsplit, cut_terminated hp]
    refine ⟨⟨Text.trim p, Text.trim_idem p, htrim⟩, ?_, hmem⟩
    rw [hcut]
    simp [Statement.ofText?, htrim]

/-! ## Across the ends of lines -/

/-- A text goes over the end of a line: the lines up to there end with its one part, the lines after it
begin with the other part, and a terminator follows. -/
def Straddles (s : Text) (lines : List Text) : Prop :=
  ∃ front back x y after, lines = front ++ back ∧ x ≠ [] ∧ y ≠ [] ∧ s = x ++ y ∧
    x <:+ front.flatten ∧ back.flatten = y ++ after ∧ ';' ∈ after

theorem Straddles.cons {s : Text} {lines : List Text} (h : Straddles s lines) (l : Text) :
    Straddles s (l :: lines) := by
  obtain ⟨front, back, x, y, after, rfl, hx, hy, hs, hfront, hback, hend⟩ := h
  exact ⟨l :: front, back, x, y, after, rfl, hx, hy, hs, List.suffix_append_of_suffix hfront, hback,
    hend⟩

/-- What no line holds goes over the end of a line wherever the joined lines hold it. -/
theorem straddles_iff {s : Text} {lines : List Text} (hne : s ≠ [])
    (hfree : ∀ l ∈ lines, ¬ s <:+: l) : Straddles s lines ↔
      ∃ before after, lines.flatten = before ++ s ++ after ∧ ';' ∈ after := by
  constructor
  · rintro ⟨front, back, x, y, after, rfl, -, -, rfl, ⟨before, hbefore⟩, hback, hend⟩
    refine ⟨before, after, ?_, hend⟩
    rw [List.flatten_append, ← hbefore, hback]
    simp
  · rintro ⟨before, after, hsplit, hend⟩
    induction lines generalizing before with
    | nil => simp [hne] at hsplit
    | cons l lines ih =>
      have hl : ¬ s <:+: l := hfree l (by simp)
      have hlines : ∀ l ∈ lines, ¬ s <:+: l := fun l hmem => hfree l (by simp [hmem])
      -- The end of the first line lies in front of the text, within it or behind it.
      rw [List.flatten_cons, List.append_assoc] at hsplit
      rcases List.append_eq_append_iff.mp hsplit with ⟨b, -, hrest⟩ | ⟨x, hx, hrest⟩
      · rw [← List.append_assoc] at hrest
        exact (ih hlines b hrest).cons l
      · rcases List.append_eq_append_iff.mp hrest with ⟨a, ha, -⟩ | ⟨y, hs, hback⟩
        · exact absurd ⟨before, a, by rw [hx, ha]; simp⟩ hl
        · by_cases hxnil : x = []
          · rw [hxnil, List.nil_append] at hs
            exact (ih hlines [] (by rw [hback, hs]; simp)).cons l
          · by_cases hynil : y = []
            · rw [hynil, List.append_nil] at hs
              exact absurd ⟨before, [], by rw [hx, hs]; simp⟩ hl
            · exact ⟨[l], lines, x, y, after, rfl, hxnil, hynil, hs, ⟨before, by simp [hx]⟩, hback,
                hend⟩

/-- No line that is kept holds the marker. -/
theorem KeptLines.marker_gone {r : Redirect} (hfree : ¬ r.marker <:+: r.replacement)
    (hapart : ¬ Text.Rejoins r.marker r.replacement) {ls kept : List Text} (h : KeptLines r ls kept) :
    ∀ l ∈ kept, ¬ r.marker <:+: l := by
  induction h with
  | nil => simp
  | comment _ _ ih => exact ih
  | blank _ _ _ _ ih => exact ih
  | kept _ hredirect _ _ ih =>
    obtain rfl := Redirect.apply_eq_iff.mpr hredirect
    intro l hmem
    rcases List.mem_cons.mp hmem with rfl | hmem
    · exact Redirect.not_infix_apply hfree hapart _
    · exact ih l hmem

/-- **A statement holds the marker of the local files exactly where the marker straddles kept lines.**
The lines are redirected one by one, so that none of them holds it. What is joined afterwards is not
looked at again. -/
theorem marker_infix_statement_iff {b : Buffer} {selection : Option Selection} {kept : List Text}
    (hkept : KeptLines .localFiles
      ((Text.pieces '\n' (b.evaluationText selection)).map Text.dropReturn) kept) :
    (∃ st ∈ Statement.segmentSelection .localFiles b selection,
        Redirect.localFiles.marker <:+: st.text) ↔
      Straddles Redirect.localFiles.marker kept := by
  have hne : Redirect.localFiles.marker ≠ [] := by decide
  have hkeptFree : ∀ l ∈ kept, ¬ Redirect.localFiles.marker <:+: l :=
    hkept.marker_gone Redirect.localFiles_free Redirect.localFiles_apart
  have hcode : code .localFiles (b.evaluationText selection) = kept.flatten := code_eq_flatten hkept
  rw [Statement.segmentSelection, segment_eq_cut, hcode, straddles_iff hne hkeptFree]
  exact infix_statement_iff hne (by decide) (by decide)

/-- Neither a comment nor a line of blanks keeps the two parts from being joined. -/
theorem marker_infix_statement_over_comment :
    KeptLines .localFiles ((Text.pieces '\n'
        ((Buffer.ofText "src('local/\r\n// a\n \nfiles/b');").evaluationText none)).map
          Text.dropReturn) ["src('local/".toList, "files/b');".toList] ∧
      ∃ st ∈ Statement.segmentSelection .localFiles
        (Buffer.ofText "src('local/\r\n// a\n \nfiles/b');") none,
          Redirect.localFiles.marker <:+: st.text := by
  have hkept : KeptLines .localFiles ((Text.pieces '\n'
      ((Buffer.ofText "src('local/\r\n// a\n \nfiles/b');").evaluationText none)).map
        Text.dropReturn) ["src('local/".toList, "files/b');".toList] :=
    keptLines_iff.mpr (by decide)
  have hstraddles : Straddles Redirect.localFiles.marker ["src('local/", "files/b');"] :=
    ⟨["src('local/"], ["files/b');"], "local/", "files/", "b');", rfl, by decide, by decide, by decide,
      by decide, by decide, by decide⟩
  exact ⟨hkept, (marker_infix_statement_iff hkept).mpr hstraddles⟩

/-- A path that goes over the end of a line reaches the listeners as it was written. -/
theorem not_marker_free_statements : ¬ ∀ (t : Text) (selection : Option Selection),
    ∀ st ∈ Statement.segmentSelection .localFiles (Buffer.ofText t) selection,
      ¬ Redirect.localFiles.marker <:+: st.text := by
  intro hfree
  have htexts : (Statement.segmentSelection .localFiles
      (Buffer.ofText "s0.initVideo('local/\nfiles/a.mp4');") none).map (·.text) =
        ["s0.initVideo('local/files/a.mp4')".toList] := by
    rw [Statement.segmentSelection, segment_eq_cut]
    decide
  obtain ⟨st, hst, htext⟩ := List.mem_map.mp (htexts ▸ List.mem_singleton_self _)
  refine hfree _ none st hst ?_
  rw [htext]
  exact Text.contains_iff.mp (by decide)

end Livecode
