import Livecode.Proofs.Text.Replacement
import Livecode.Statement.Stream

/-!
# The statements of a whole text

A stream reads a line when it has no statement ready, joins it to the code that is still pending, and
cuts that code in place. Here the same statements are described in one piece and without a stream:
the lines that are kept are joined, and the joined code is cut once. Neither the lines nor the cuts
know of each other, so a statement may span lines and a line may end several statements.

The two agree because cutting may be interrupted anywhere: what stands behind the last terminator is
cut together with whatever follows it (`cut_append`). The pending code of a stream has no terminator,
and what a stream still has to hand out is, at any moment, what is ready and what the pending code
and the lines not yet read come to (`toList_eq`).

## Main results

* `cut_append` — code is cut piece by piece.
* `toList_eq` — what a stream still has to hand out.
* `segment_eq_iff_batch` — the statements of a text are those of its description in one piece.
-/

namespace Livecode

/-! ## Texts cut in pieces -/

namespace Text

/-- The pieces of a text between the occurrences of a separator. -/
structure Cut (sep : Char) (t : Text) (ps : List Text) : Prop where
  joined : join sep ps = t
  not_nil : ps ≠ []
  not_mem : ∀ p ∈ ps, sep ∉ p

theorem pieces_eq_iff_cut {sep : Char} {t : Text} {ps : List Text} :
    pieces sep t = ps ↔ Cut sep t ps := by
  constructor
  · rintro rfl
    exact ⟨join_pieces sep t, pieces_ne_nil sep t, fun _ => not_mem_of_mem_pieces sep⟩
  · rintro ⟨rfl, hne, hmem⟩
    exact pieces_join sep hne hmem

/-- Text behind the last separator is cut on its own. -/
theorem pieces_join_append {sep : Char} {ps : List Text} (h : ∀ p ∈ ps, sep ∉ p) (last t : Text) :
    pieces sep (join sep (ps ++ [last]) ++ t) = ps ++ pieces sep (last ++ t) := by
  induction ps with
  | nil => rfl
  | cons p ps ih =>
    obtain ⟨hp, hps⟩ := List.forall_mem_cons.mp h
    have hne : ps ++ [last] ≠ [] := by simp
    rw [List.cons_append, join_cons sep p hne, List.append_assoc, List.cons_append,
      pieces_append_sep, pieces_of_not_mem sep hp, ih hps]
    rfl

end Text

/-! ## The description in one piece -/

/-- A line counts as a comment. -/
def CommentLine (line : Text) : Prop := "//".toList <:+: line ∧ ¬ "://".toList <:+: line

/-- The second line is the first one redirected; an empty marker redirects nothing. -/
def Redirect.Redirects (r : Redirect) (line out : Text) : Prop :=
  if r.marker = [] then out = line else Text.Replaced r.marker r.replacement line out

/-- The lines that are kept, redirected. A comment is judged before a line is redirected, and whether
a line is blank after that. -/
inductive KeptLines (r : Redirect) : List Text → List Text → Prop
  | nil : KeptLines r [] []
  | comment {l : Text} {ls out : List Text} : CommentLine l → KeptLines r ls out →
      KeptLines r (l :: ls) out
  | blank {l l' : Text} {ls out : List Text} : ¬ CommentLine l → r.Redirects l l' →
      (∀ c ∈ l', Text.isBlank c = true) → KeptLines r ls out → KeptLines r (l :: ls) out
  | kept {l l' : Text} {ls out : List Text} : ¬ CommentLine l → r.Redirects l l' →
      ¬ (∀ c ∈ l', Text.isBlank c = true) → KeptLines r ls out →
      KeptLines r (l :: ls) (l' :: out)

/-- The texts of the statements of a text: its lines, each without a carriage return at its end, the
kept ones joined without anything between them, cut at each terminator, without the piece behind the
last one, trimmed, and without those of which nothing is left. -/
def Batch (r : Redirect) (t : Text) (statements : List Text) : Prop :=
  ∃ lines kept pieces rest, Text.Cut '\n' t lines ∧ KeptLines r (lines.map Text.dropReturn) kept ∧
    Text.Cut ';' kept.flatten (pieces ++ [rest]) ∧
    statements = (pieces.map Text.trim).filter (· ≠ [])

/-! ## Lines -/

theorem isComment_iff {line : Text} : StatementStream.isComment line = true ↔ CommentLine line := by
  simp only [StatementStream.isComment, CommentLine, Bool.and_eq_true, Bool.not_eq_true',
    ← Bool.not_eq_true, Text.contains_iff]
  exact and_comm

theorem Redirect.apply_eq_iff {r : Redirect} {line out : Text} :
    r.apply line = out ↔ r.Redirects line out := by
  unfold Redirects
  split
  next hempty =>
    rw [apply, hempty, Text.replaceAll_nil]
    exact eq_comm
  next hne => exact Text.replaceAll_eq_iff r.replacement hne

theorem isAllBlank_iff {line : Text} :
    Text.isAllBlank line = true ↔ ∀ c ∈ line, Text.isBlank c = true := List.all_eq_true

namespace StatementStream

variable {r : Redirect}

/-- What lines add to the pending code is what is kept of them. -/
theorem keptLines_flatten {ls kept : List Text} (h : KeptLines r (ls.map Text.dropReturn) kept) :
    (ls.map (contribution r)).flatten = kept.flatten := by
  induction ls generalizing kept with
  | nil =>
    cases h
    rfl
  | cons l ls ih =>
    rw [List.map_cons, List.flatten_cons, contribution]
    cases h with
    | comment hcomment hrest => rw [if_pos (isComment_iff.mpr hcomment), ih hrest]; rfl
    | blank hcomment hredirect hblank hrest =>
      obtain rfl := Redirect.apply_eq_iff.mpr hredirect
      rw [if_neg (mt isComment_iff.mp hcomment), if_pos (isAllBlank_iff.mpr hblank), ih hrest]
      rfl
    | kept hcomment hredirect hblank hrest =>
      obtain rfl := Redirect.apply_eq_iff.mpr hredirect
      rw [if_neg (mt isComment_iff.mp hcomment), if_neg (mt isAllBlank_iff.mp hblank), ih hrest]
      rfl

theorem exists_keptLines (r : Redirect) (ls : List Text) : ∃ kept, KeptLines r ls kept := by
  induction ls with
  | nil => exact ⟨[], .nil⟩
  | cons l ls ih =>
    obtain ⟨kept, hkept⟩ := ih
    have hredirect : r.Redirects l (r.apply l) := Redirect.apply_eq_iff.mp rfl
    by_cases hcomment : CommentLine l
    · exact ⟨kept, .comment hcomment hkept⟩
    · by_cases hblank : ∀ c ∈ r.apply l, Text.isBlank c = true
      · exact ⟨kept, .blank hcomment hredirect hblank hkept⟩
      · exact ⟨r.apply l :: kept, .kept hcomment hredirect hblank hkept⟩

/-! ## Code -/

theorem exists_pieces (code : Text) :
    ∃ ps last, Text.pieces terminator code = ps ++ [last] :=
  ⟨_, _, (List.dropLast_concat_getLast (Text.pieces_ne_nil terminator code)).symm⟩

theorem cut_of_pieces {code last : Text} {ps : List Text}
    (h : Text.pieces terminator code = ps ++ [last]) :
    cut code = (ps.filterMap Statement.ofText?, last) := by
  simp [cut, h]

/-- Code is cut piece by piece. -/
theorem cut_append (a b : Text) : cut (a ++ b) =
    ((cut a).1 ++ (cut ((cut a).2 ++ b)).1, (cut ((cut a).2 ++ b)).2) := by
  obtain ⟨ps, last, hps⟩ := exists_pieces a
  obtain ⟨qs, last', hqs⟩ := exists_pieces (last ++ b)
  obtain ⟨hjoin, -, hmem⟩ := Text.pieces_eq_iff_cut.mp hps
  have hboth : Text.pieces terminator (a ++ b) = (ps ++ qs) ++ [last'] := by
    rw [← hjoin, Text.pieces_join_append (fun p hp => hmem p (by simp [hp])), hqs,
      List.append_assoc]
  rw [cut_of_pieces hboth, cut_of_pieces hps, cut_of_pieces hqs, List.filterMap_append]

theorem cut_of_not_mem {code : Text} (h : terminator ∉ code) : cut code = ([], code) := by
  have hwhole : Text.pieces terminator code = [] ++ [code] := Text.pieces_of_not_mem _ h
  exact cut_of_pieces hwhole

theorem terminator_not_mem_cut (code : Text) : terminator ∉ (cut code).2 :=
  Text.not_mem_of_mem_pieces terminator (List.getLast_mem _)

/-! ## The stream -/

theorem toList_congr {s s' : StatementStream} (h : s.next? = s'.next?) : s.toList = s'.toList := by
  cases hs : s.next? with
  | none => exact (toList_of_next?_none hs).trans (toList_of_next?_none (h ▸ hs)).symm
  | some out => exact (toList_of_next? hs).trans (toList_of_next? (h ▸ hs)).symm

theorem toList_ready (lines : List Text) (pending : Text) (ready : List Statement) :
    toList ⟨r, lines, pending, ready⟩ = ready ++ toList ⟨r, lines, pending, []⟩ := by
  induction ready with
  | nil => rfl
  | cons st ready ih =>
    have hnext : next? ⟨r, lines, pending, st :: ready⟩ = some (st, ⟨r, lines, pending, ready⟩) := by
      cases lines <;> rfl
    rw [toList_of_next? hnext, ih, List.cons_append]

/-- What a stream still has to hand out: the statements that are ready, and those that the pending
code and the lines not yet read come to. -/
theorem toList_eq {lines : List Text} {pending : Text} {ready : List Statement}
    (h : terminator ∉ pending) : toList ⟨r, lines, pending, ready⟩ =
      ready ++ (cut (pending ++ (lines.map (contribution r)).flatten)).1 := by
  rw [toList_ready]
  congr 1
  induction lines generalizing pending with
  | nil =>
    rw [toList_of_next?_none rfl, List.map_nil, List.flatten_nil, List.append_nil,
      cut_of_not_mem h]
  | cons line lines ih =>
    let c := cut (pending ++ contribution r line)
    have hnext : next? ⟨r, line :: lines, pending, []⟩ = next? ⟨r, lines, c.2, c.1⟩ := rfl
    rw [toList_congr hnext, toList_ready, ih (terminator_not_mem_cut _), List.map_cons,
      List.flatten_cons, ← List.append_assoc pending, cut_append (pending ++ contribution r line)]

theorem texts_filterMap (ps : List Text) :
    (ps.filterMap Statement.ofText?).map (·.text) = (ps.map Text.trim).filter (· ≠ []) := by
  induction ps with
  | nil => rfl
  | cons p ps ih =>
    have hp := Statement.text_ofText? p
    by_cases hblank : Text.trim p = []
    · rw [if_pos hblank, Option.map_eq_none_iff] at hp
      rw [List.filterMap_cons_none hp, ih, List.map_cons, List.filter_cons_of_neg (by simp [hblank])]
    · rw [if_neg hblank] at hp
      obtain ⟨st, hst, htext⟩ := Option.map_eq_some_iff.mp hp
      rw [List.filterMap_cons_some hst, List.map_cons, ih, htext, List.map_cons,
        List.filter_cons_of_pos (by simp [hblank])]

end StatementStream

/-- **Reading a text as a stream gives the statements of the whole text.** The statements that are
handed out one after the other are those of the description in one piece, in the same order, and that
description has no others. -/
theorem segment_eq_iff_batch (r : Redirect) (t : Text) (statements : List Text) :
    (Statement.segment r t).map (·.text) = statements ↔ Batch r t statements := by
  have hsegment : Statement.segment r t =
      (StatementStream.cut (((Text.pieces '\n' t).map (StatementStream.contribution r)).flatten)).1 :=
    StatementStream.toList_eq (List.not_mem_nil)
  rw [hsegment]
  constructor
  · rintro rfl
    obtain ⟨kept, hkept⟩ :=
      StatementStream.exists_keptLines r ((Text.pieces '\n' t).map Text.dropReturn)
    obtain ⟨pieces, rest, hpieces⟩ := StatementStream.exists_pieces kept.flatten
    refine ⟨_, kept, pieces, rest, Text.pieces_eq_iff_cut.mp rfl, hkept,
      Text.pieces_eq_iff_cut.mp hpieces, ?_⟩
    rw [StatementStream.keptLines_flatten hkept, StatementStream.cut_of_pieces hpieces]
    exact StatementStream.texts_filterMap pieces
  · rintro ⟨lines, kept, pieces, rest, hlines, hkept, hpieces, rfl⟩
    rw [Text.pieces_eq_iff_cut.mpr hlines, StatementStream.keptLines_flatten hkept,
      StatementStream.cut_of_pieces (Text.pieces_eq_iff_cut.mpr hpieces)]
    exact StatementStream.texts_filterMap pieces

end Livecode
