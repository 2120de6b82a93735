import Livecode.Proofs.Statement.Locality
import Livecode.Proofs.Text.LineEnds

/-!
# Statements of a buffer

A buffer drops a carriage return at the end of each line of the text that it is read from. Its lines
are then read like those of any text, which drops one more. So a line that ends in two carriage returns
keeps one of them where the text is read by itself, and none where it is read through a buffer.

A comment line is dropped in both cases. In any other line the return that is kept may come to stand
within a statement, or be redirected: reading through a buffer makes no difference to any redirect
exactly if no line but a comment ends in two carriage returns.

For the "only if" one redirect is enough, which gives two statements for every carriage return that it
sees. A text with a return more then has a statement more, at least, whatever stands around it: joining
two pieces of code at that place instead of parting them loses one statement at most.

## Main results

* `contribution_dropReturn` — the lines that add the same both ways.
* `length_cut_lines` — what a return that is kept comes to under the redirect that shows it.
* `segmentSelection_ofText_iff` — the texts whose statements are those of their buffer.
-/

namespace Livecode

open StatementStream

/-! ## Returns at the end of a line -/

namespace Text

theorem dropReturn_concat_two (p : Text) : dropReturn (p ++ ['\r', '\r']) = p ++ ['\r'] := by
  simpa using dropReturn_concat (p ++ ['\r'])

/-- Two returns are two steps, and one or none is one. -/
theorem dropReturn_dropReturn {line : Text} (h : ¬ ['\r', '\r'] <:+ line) :
    dropReturn (dropReturn line) = dropReturn line := by
  rcases dropReturn_eq_or (dropReturn line) with hsame | hmore
  · exact hsame
  · rcases dropReturn_eq_or line with hsame | hone
    · rw [hsame, hsame]
    · exact absurd ⟨dropReturn (dropReturn line), by
        rw [hmore] at hone
        simpa using hone.symm⟩ h

/-- Dropping the return at the end takes no other text away. -/
theorem infix_dropReturn_iff {s line : Text} (hne : s ≠ []) (hs : '\r' ∉ s) :
    s <:+: dropReturn line ↔ s <:+: line := by
  rcases dropReturn_eq_or line with hsame | hone
  · rw [hsame]
  · conv => rhs; rw [hone, infix_append_sep hs, List.infix_nil]
    simp [hne]

end Text

theorem commentLine_dropReturn_iff {line : Text} :
    CommentLine (Text.dropReturn line) ↔ CommentLine line := by
  rw [CommentLine, CommentLine, Text.infix_dropReturn_iff (by decide) (by decide),
    Text.infix_dropReturn_iff (by decide) (by decide)]

theorem contribution_of_commentLine {r : Redirect} {line : Text} (h : CommentLine line) :
    contribution r line = [] := by
  rw [contribution, if_pos (isComment_iff.mpr (commentLine_dropReturn_iff.mpr h))]

/-- A line adds the same without its last return, unless it ends in two and is no comment. -/
theorem contribution_dropReturn {r : Redirect} {line : Text}
    (h : ['\r', '\r'] <:+ line → CommentLine line) :
    contribution r (Text.dropReturn line) = contribution r line := by
  by_cases hreturns : ['\r', '\r'] <:+ line
  · have hcomment := h hreturns
    rw [contribution_of_commentLine hcomment,
      contribution_of_commentLine (commentLine_dropReturn_iff.mpr hcomment)]
  · rw [contribution, contribution, Text.dropReturn_dropReturn hreturns]

/-- Read through a buffer, every line of a text loses one return more. -/
theorem segmentSelection_ofText_eq (r : Redirect) (t : Text) :
    Statement.segmentSelection r (Buffer.ofText t) none =
      (cut ((Text.pieces '\n' t).map fun line => contribution r (Text.dropReturn line)).flatten).1 := by
  have hpieces : Text.pieces '\n' (Buffer.ofText t).text = Text.lines t :=
    Text.pieces_join '\n' (Text.lines_ne_nil t) fun _ => Text.lineFeed_not_mem_of_mem_lines
  rw [Statement.segmentSelection, segment_eq_cut, Buffer.evaluationText, code, hpieces, Text.lines,
    List.map_map]
  rfl

/-! ## How many statements -/

theorem length_cut_append (a b : Text) :
    (cut (a ++ b)).1.length = (cut a).1.length + (cut ((cut a).2 ++ b)).1.length := by
  rw [cut_append, List.length_append]

/-- Two pieces of code that are joined have at most one statement that neither of them has alone. -/
theorem length_cut_append_le (a b : Text) :
    (cut (a ++ b)).1.length ≤ (cut a).1.length + (cut b).1.length + 1 := by
  have hrest : terminator ∉ (cut a).2 := terminator_not_mem_cut a
  have hone (p : Text) : (Statement.ofText? p).toList.length ≤ 1 := by
    cases Statement.ofText? p <;> simp
  rw [length_cut_append]
  by_cases hb : terminator ∈ b
  · obtain ⟨p, b', rfl, hp⟩ := List.eq_append_cons_of_mem hb
    have hfront : terminator ∉ (cut a).2 ++ p := List.not_mem_append hrest hp
    have hjoined := hone ((cut a).2 ++ p)
    rw [← List.append_assoc, cut_terminated hfront, cut_terminated hp, List.length_append,
      List.length_append]
    omega
  · rw [cut_of_not_mem (List.not_mem_append hrest hb), List.length_nil]
    omega

/-- Two statements where another text has none, apart from what stands around them. -/
def shownReturn : Text := ";x;x;"

theorem length_cut_shownReturn (a b : Text) :
    (cut a).1.length + (cut b).1.length + 2 ≤ (cut (a ++ (shownReturn ++ b))).1.length := by
  have hx : cut ("x".toList ++ terminator :: ("x".toList ++ terminator :: b)) =
      (⟨"x", rfl, by decide⟩ :: ⟨"x", rfl, by decide⟩ :: (cut b).1, (cut b).2) := by
    rw [cut_terminated (by decide), cut_terminated (by decide)]
    rfl
  have hshown : (cut a).2 ++ (shownReturn ++ b) =
      (cut a).2 ++ terminator :: ("x".toList ++ terminator :: ("x".toList ++ terminator :: b)) := rfl
  rw [length_cut_append, hshown, cut_terminated (terminator_not_mem_cut a), hx]
  simp only [List.length_append, List.length_cons]
  omega

/-- The two statements are not made up for by joining what stands around them. -/
theorem length_cut_lt {short long : Text} (h : short = [] ∨ short = long) (front back : Text) :
    (cut (front ++ (short ++ back))).1.length <
      (cut (front ++ (long ++ (shownReturn ++ back)))).1.length := by
  have hfront : (cut (front ++ short)).1.length ≤ (cut (front ++ long)).1.length := by
    rcases h with rfl | rfl
    · have := length_cut_append front long
      rw [List.append_nil]
      omega
    · exact Nat.le_refl _
  have hshort := length_cut_append_le (front ++ short) back
  have hlong := length_cut_shownReturn (front ++ long) back
  rw [List.append_assoc] at hshort hlong
  omega

/-! ## The redirect that shows returns -/

/-- Gives two statements for each carriage return of a line. -/
def Redirect.showReturns : Redirect := ⟨['\r'], shownReturn⟩

theorem Redirect.showReturns_concat (p : Text) :
    showReturns.apply (p ++ ['\r']) = showReturns.apply p ++ shownReturn := by
  have hne : ['\r'] ≠ [] := by decide
  have hnothing : Text.Replaced ['\r'] shownReturn [] [] := .clear (by simp)
  have hline := (Text.replaced_replaceAll shownReturn hne p).append
    (Text.unbordered_singleton '\r') hnothing
  simp only [List.append_nil] at hline
  exact hline.eq_replaceAll hne

theorem contribution_eq_or (r : Redirect) (line : Text) :
    contribution r line = [] ∨ contribution r line = r.apply (Text.dropReturn line) := by
  simp only [contribution]
  split
  · exact .inl rfl
  · split
    · exact .inl rfl
    · exact .inr rfl

theorem contribution_of_two_returns {p : Text} (h : ¬ CommentLine (p ++ ['\r', '\r'])) :
    contribution .showReturns (p ++ ['\r', '\r']) = Redirect.showReturns.apply p ++ shownReturn := by
  rw [← commentLine_dropReturn_iff, Text.dropReturn_concat_two, ← isComment_iff, Bool.not_eq_true] at h
  have hblank : Text.isAllBlank (Redirect.showReturns.apply p ++ shownReturn) = false := by
    rw [Text.isAllBlank, List.all_append, Bool.and_eq_false_iff]
    exact .inr (by decide)
  simp only [contribution, Text.dropReturn_concat_two, h, Redirect.showReturns_concat, hblank,
    Bool.false_eq_true, if_false]

/-- The return that is kept adds a statement, whatever stands in front of the line and behind it. -/
theorem length_cut_line {line : Text} (h : ['\r', '\r'] <:+ line) (hcomment : ¬ CommentLine line)
    (front back : Text) :
    (cut (front ++ (contribution .showReturns (Text.dropReturn line) ++ back))).1.length <
      (cut (front ++ (contribution .showReturns line ++ back))).1.length := by
  obtain ⟨p, rfl⟩ := h
  have hshort := contribution_eq_or .showReturns (p ++ ['\r'])
  rw [Text.dropReturn_concat] at hshort
  rw [Text.dropReturn_concat_two, contribution_of_two_returns hcomment, List.append_assoc]
  exact length_cut_lt hshort front back

/-- A line that loses more than one return and is no comment. -/
def LosesReturn (line : Text) : Prop := ['\r', '\r'] <:+ line ∧ ¬ CommentLine line

theorem length_cut_lines (lines : List Text) (front : Text) :
    let short := (lines.map fun line => contribution .showReturns (Text.dropReturn line)).flatten
    let long := (lines.map (contribution .showReturns)).flatten
    (cut (front ++ short)).1.length ≤ (cut (front ++ long)).1.length ∧
      ((∃ line ∈ lines, LosesReturn line) →
        (cut (front ++ short)).1.length < (cut (front ++ long)).1.length) := by
  induction lines generalizing front with
  | nil => simp
  | cons line lines ih =>
    obtain ⟨hle, hlt⟩ := ih (front ++ contribution .showReturns line)
    simp only [List.map_cons, List.flatten_cons, List.append_assoc] at hle hlt ⊢
    by_cases hline : LosesReturn line
    · have := length_cut_line hline.1 hline.2 front
        (lines.map fun line => contribution .showReturns (Text.dropReturn line)).flatten
      exact ⟨by omega, fun _ => by omega⟩
    · have hsame : contribution .showReturns (Text.dropReturn line) =
          contribution .showReturns line := by
        apply contribution_dropReturn
        intro hreturns
        exact Classical.byContradiction fun hcomment => hline ⟨hreturns, hcomment⟩
      rw [hsame]
      refine ⟨hle, ?_⟩
      rintro ⟨l, hmem, hloses⟩
      rcases List.mem_cons.mp hmem with rfl | hmem
      · exact absurd hloses hline
      · exact hlt ⟨l, hmem, hloses⟩

/-- **A buffer has the statements of its text, for every redirect, exactly if no line of the text ends
in two carriage returns unless it is a comment.** -/
theorem segmentSelection_ofText_iff (t : Text) :
    (∀ r, Statement.segmentSelection r (Buffer.ofText t) none = Statement.segment r t) ↔
      ∀ line ∈ Text.pieces '\n' t, ['\r', '\r'] <:+ line → CommentLine line := by
  constructor
  · intro hsame line hmem hreturns
    apply Classical.byContradiction
    intro hcomment
    have hlt := (length_cut_lines (Text.pieces '\n' t) []).2 ⟨line, hmem, hreturns, hcomment⟩
    have hstatements := hsame .showReturns
    rw [segmentSelection_ofText_eq, segment_eq_cut] at hstatements
    simp only [List.nil_append, hstatements] at hlt
    exact absurd hlt (Nat.lt_irrefl _)
  · intro hlines r
    have hmap : (Text.pieces '\n' t).map (fun line => contribution r (Text.dropReturn line)) =
        (Text.pieces '\n' t).map (contribution r) := by
      apply List.map_congr_left
      intro line hmem
      exact contribution_dropReturn (hlines line hmem)
    rw [segmentSelection_ofText_eq, segment_eq_cut, hmap]
    rfl

/-- The text keeps a carriage return that its buffer does not have any more. -/
theorem not_segmentSelection_ofText_eq : ¬ ∀ (r : Redirect) (t : Text),
    Statement.segmentSelection r (Buffer.ofText t) none = Statement.segment r t := by
  intro hsame
  have htexts := congrArg (List.map (·.text)) (hsame .localFiles "a\r\r\nb;")
  rw [segmentSelection_ofText_eq, segment_eq_cut] at htexts
  exact absurd htexts (by decide)

end Livecode
