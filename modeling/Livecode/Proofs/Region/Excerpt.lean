import Livecode.Proofs.Region.Places
import Livecode.Proofs.Source.Span

/-!
# Regions read by themselves

What is sent for a region are its whole lines, and whoever gets them reads them from plain code. In
the buffer the first of them may begin inside of a comment or a string, or inside of another group.
From the opening parenthesis of the region on this makes no difference: if it is read as code
either way, all that follows is read alike. What counts is the piece of the line in front of this
parenthesis.

## Main results

* `groupAt_split_iff` — the group at a line, in terms of what stands in front of its first
  parenthesis and behind it.
* `groupAt_cut_iff` — the lines of a group have this group again just if the line `Restarts` there.
* `restarts_of_afterLines` — it does where no comment and no string is open.
* `excerpt_iff_restarts` — these together, for the text of a region.
-/

namespace Livecode

/-- Some lines further up. -/
def Position.up (n : Nat) (p : Position) : Position := ⟨p.line - n, p.column⟩

/-! ## A parenthesis in a line -/

namespace ScanState

/-- The parentheses of a line in front of a column. -/
def front (s : ScanState) (l : Text) (column : Nat) : List (Bracket × Nat) :=
  Bracket.inCode 0 ((s.labelled l).take column)

/-- The parentheses behind a column: those of the rest of the line, and those of the lines below. -/
def behind (s : ScanState) (line : Nat) (l : Text) (column : Nat) (ls : List Text) :
    List (Bracket × Position) :=
  Bracket.onLine line (Bracket.inCode (column + 1) ((s.labelled l).drop (column + 1))) ++
    (s.scan l).2.places (line + 1) ls

variable {s s' : ScanState} {line column : Nat} {l : Text}

/-- An opening parenthesis parts a line and those below it. -/
theorem places_split (h : (s.labelled l)[column]? = some ('(', .source)) (ls : List Text) :
    s.places line (l :: ls) = Bracket.onLine line (s.front l column) ++
      (.opening, ⟨line, column⟩) :: s.behind line l column ls := by
  obtain ⟨hlt, hget⟩ := List.getElem?_eq_some_iff.mp h
  have hlength : ((s.labelled l).take column).length = column := by
    rw [List.length_take]
    omega
  have hsplit : s.labelled l =
      (s.labelled l).take column ++ ('(', .source) :: (s.labelled l).drop (column + 1) := by
    rw [← hget, ← List.drop_eq_getElem_cons hlt, List.take_append_drop]
  have hline : Bracket.inCode 0 (s.labelled l) = s.front l column ++
      (.opening, column) :: Bracket.inCode (column + 1) ((s.labelled l).drop (column + 1)) := by
    rw [hsplit, Bracket.inCode_append, hlength, Nat.zero_add, Bracket.inCode_cons, ← hsplit]
    rfl
  rw [places, hline, Bracket.onLine, List.map_append, List.map_cons, List.append_assoc]
  rfl

theorem lt_of_mem_front {x : Bracket × Nat} (h : x ∈ s.front l column) : x.2 < column := by
  obtain ⟨-, c, hget, -⟩ := Bracket.mem_inCode.mp h
  obtain ⟨hlt, -⟩ := List.getElem?_eq_some_iff.mp hget
  rw [List.length_take] at hlt
  omega

theorem not_mem_behind (p : Bracket) (ls : List Text) :
    (p, ⟨line, column⟩) ∉ s.behind line l column ls := by
  intro hmem
  rcases List.mem_append.mp hmem with hhere | hbelow
  · have hle := (Bracket.mem_inCode.mp (Bracket.mem_onLine.mp hhere)).1
    omega
  · exact not_mem_places (.inl (Nat.lt_succ_self line)) hbelow

/-- Behind an opening parenthesis all is read alike. -/
theorem behind_resume (h : (s.labelled l)[column]? = some ('(', .source))
    (h' : (s'.labelled l)[column]? = some ('(', .source)) (ls : List Text) :
    s.behind line l column ls = s'.behind line l column ls := by
  obtain ⟨hrest, hcarry⟩ := labelled_resume h h'
  rw [behind, behind, hrest, hcarry]

theorem behind_append (ls ms : List Text) :
    s.behind line l column (ls ++ ms) = s.behind line l column ls ++
      ((s.scan l).2.afterLines ls).places (line + 1 + ls.length) ms := by
  rw [behind, behind, places_append, List.append_assoc]

theorem behind_down (n : Nat) (ls : List Text) :
    s.behind (line + n) l column ls =
      (s.behind line l column ls).map (Prod.map id (Position.down n)) := by
  have hline : line + n + 1 = line + 1 + n := by omega
  rw [behind, behind, Bracket.onLine_down, hline, places_down, List.map_append]

end ScanState

namespace Region

open Classifier

/-! ## Groups on one line -/

section
variable (line : Nat) (w : List (Bracket × Nat))

theorem left_onLine : left none (Bracket.onLine line w) = none ↔ left none w = none := by
  have hleft := left_relabel (Position.mk line) none w
  have hnone : relabel (Position.mk line) none = none := rfl
  rw [hnone] at hleft
  rw [Bracket.onLine, hleft, relabel, Option.map_eq_none_iff]

theorem pairs_onLine :
    pairs none (Bracket.onLine line w) =
      (pairs none w).map (Prod.map (Position.mk line) (Position.mk line)) :=
  pairs_relabel (Position.mk line) none w

/-- Groups of one line are found on this line only. -/
theorem forall_not_contains_onLine (i : Nat) :
    (∀ g ∈ pairs none (Bracket.onLine line w), ¬ (lines g).contains i) ↔
      (i = line → pairs none w = []) := by
  have hcontains : ∀ g : Nat × Nat,
      (lines (Prod.map (Position.mk line) (Position.mk line) g)).contains i ↔ i = line := by
    intro g
    rw [contains_lines]
    show line ≤ i ∧ i ≤ line ↔ i = line
    omega
  rw [pairs_onLine, List.forall_mem_map]
  simp only [hcontains]
  constructor
  · intro h hi
    exact List.eq_nil_iff_forall_not_mem.mpr fun g hg => h g hg hi
  · intro h g hg hi
    rw [h hi] at hg
    cases hg

end

/-! ## The group at a line, by its first parenthesis -/

section
variable {above rest : List Text} {l : Text} {column line : Nat} {q : Position}

/-- What stands in front of a column in a buffer. -/
def inFront (above : List Text) (l : Text) (column : Nat) : List (Bracket × Position) :=
  ScanState.code.places 0 above ++
    Bracket.onLine above.length ((ScanState.code.afterLines above).front l column)

/-- A group is opened by a parenthesis in plain code. -/
theorem opening_of_groupAt (above : List Text)
    (h : groupAt ⟨above ++ l :: rest⟩ line = some (⟨above.length, column⟩, q)) :
    ((ScanState.code.afterLines above).labelled l)[column]? = some ('(', .source) := by
  rcases (ends_of_mem_pairs (List.mem_of_find?_eq_some h)).2 with hopening | ⟨n, hn⟩
  · rw [ScanState.places_append, ScanState.places, Nat.zero_add] at hopening
    rcases List.mem_append.mp hopening with habove | hopening
    · exact absurd habove (ScanState.not_mem_places (.inr (by simp)))
    rcases List.mem_append.mp hopening with hhere | hbelow
    · obtain ⟨-, c, hget, hc⟩ := Bracket.mem_inCode.mp (Bracket.mem_onLine.mp hhere)
      obtain rfl : c = '(' := by
        unfold Bracket.ofChar? at hc
        split at hc
        · rfl
        · cases hc
        · cases hc
      exact hget
    · exact absurd hbelow (ScanState.not_mem_places (.inl (Nat.lt_succ_self _)))
  · cases hn

/-- The group at a line is opened by a parenthesis in front of which nothing is open and no group
with this line is closed. -/
theorem groupAt_split_iff (above : List Text)
    (h : ((ScanState.code.afterLines above).labelled l)[column]? = some ('(', .source)) :
    groupAt ⟨above ++ l :: rest⟩ line = some (⟨above.length, column⟩, q) ↔
      left none (inFront above l column) = none ∧
        (∀ g ∈ pairs none (inFront above l column), ¬ (lines g).contains line) ∧
        (pairs (some (⟨above.length, column⟩, 0))
          ((ScanState.code.afterLines above).behind above.length l column rest)).head? =
            some (⟨above.length, column⟩, q) ∧
        (lines (⟨above.length, column⟩, q)).contains line := by
  have hplaces : ScanState.code.places 0 (above ++ l :: rest) = inFront above l column ++
      (.opening, ⟨above.length, column⟩) ::
        (ScanState.code.afterLines above).behind above.length l column rest := by
    rw [ScanState.places_append, Nat.zero_add, ScanState.places_split h, inFront, List.append_assoc]
  have hfront : (Bracket.opening, Position.mk above.length column) ∉ inFront above l column := by
    intro hmem
    rcases List.mem_append.mp hmem with habove | hhere
    · exact ScanState.not_mem_places (.inr (by simp)) habove
    · exact Nat.lt_irrefl _ (ScanState.lt_of_mem_front (Bracket.mem_onLine.mp hhere))
  rw [groupAt, find?_pairs_iff]
  constructor
  · rintro ⟨x, y, hsplit, hleft, hnone, hhead, hcontains⟩
    rw [hplaces, List.append_cons_inj_of_notMem hfront (ScanState.not_mem_behind _ _)] at hsplit
    obtain ⟨rfl, -, rfl⟩ := hsplit
    exact ⟨hleft, hnone, hhead, hcontains⟩
  · rintro ⟨hleft, hnone, hhead, hcontains⟩
    exact ⟨_, _, hplaces, hleft, hnone, hhead, hcontains⟩

end

/-! ## The lines of a group by themselves -/

/-- A line that is read from plain code comes to a parenthesis in plain code, with nothing open in
front of it. If the group is looked for on this very line, `here`, no other group is closed in front
of it. -/
structure Restarts (l : Text) (column : Nat) (here : Prop) : Prop where
  opening : (ScanState.code.labelled l)[column]? = some ('(', .source)
  nothing_open : left none (ScanState.code.front l column) = none
  no_group : here → pairs none (ScanState.code.front l column) = []

theorem restarts_iff {l : Text} {column : Nat} {here : Prop} : Restarts l column here ↔
    (ScanState.code.labelled l)[column]? = some ('(', .source) ∧
      left none (ScanState.code.front l column) = none ∧
      (here → pairs none (ScanState.code.front l column) = []) :=
  ⟨fun ⟨h, h', h''⟩ => ⟨h, h', h''⟩, fun ⟨h, h', h''⟩ => ⟨h, h', h''⟩⟩

instance (l : Text) (column : Nat) (here : Prop) [Decidable here] :
    Decidable (Restarts l column here) := decidable_of_iff _ restarts_iff.symm

section
variable {above mid below : List Text} {l : Text} {column line : Nat} {q : Position}

/-- A group that ends in front of some lines is closed in front of them. -/
theorem head?_pairs_behind
    (hhead : (pairs (some (⟨above.length, column⟩, 0))
      ((ScanState.code.afterLines above).behind above.length l column (mid ++ below))).head? =
        some (⟨above.length, column⟩, q))
    (hend : q.line ≤ above.length + mid.length) :
    (pairs (some (⟨above.length, column⟩, 0))
      ((ScanState.code.afterLines above).behind above.length l column mid)).head? =
        some (⟨above.length, column⟩, q) := by
  rw [ScanState.behind_append, pairs_append, List.head?_append] at hhead
  cases hclosed : pairs (some (⟨above.length, column⟩, 0))
      ((ScanState.code.afterLines above).behind above.length l column mid) with
  | cons g gs => rwa [hclosed, List.head?_cons, Option.some_or] at hhead
  | nil =>
    rw [hclosed, List.head?_nil, Option.none_or] at hhead
    have hclosing := (ends_of_mem_pairs (List.mem_of_head? hhead)).1
    exact absurd hclosing (ScanState.not_mem_places (.inl (by simp only; omega)))

/-- Behind its first parenthesis a group is the same when the lines above are gone. -/
theorem head?_pairs_cut
    (hopening : ((ScanState.code.afterLines above).labelled l)[column]? = some ('(', .source))
    (hcut : (ScanState.code.labelled l)[column]? = some ('(', .source))
    (hhead : (pairs (some (⟨above.length, column⟩, 0))
      ((ScanState.code.afterLines above).behind above.length l column mid)).head? =
        some (⟨above.length, column⟩, q)) :
    (pairs (some (⟨0, column⟩, 0)) (ScanState.code.behind 0 l column mid)).head? =
      some (⟨0, column⟩, q.up above.length) := by
  have hmoved := pairs_relabel (Position.down above.length) (some (⟨0, column⟩, 0))
    (ScanState.code.behind 0 l column mid)
  have hstart : relabel (Position.down above.length) (some (⟨0, column⟩, 0)) =
      some (⟨above.length, column⟩, 0) := by
    simp [relabel, Position.down]
  rw [← ScanState.behind_down, Nat.zero_add, hstart] at hmoved
  rw [ScanState.behind_resume hopening hcut, hmoved, List.head?_map] at hhead
  obtain ⟨⟨p', q'⟩, hfound, heq⟩ := Option.map_eq_some_iff.mp hhead
  have hup : ∀ p : Position, (p.down above.length).up above.length = p := by
    intro p
    simp [Position.down, Position.up]
  obtain ⟨hp, hq⟩ := Prod.mk.inj heq
  have hp' : p' = ⟨0, column⟩ := by
    rw [← hup p', hp]
    simp [Position.up]
  rw [hfound, hp', ← hq, hup]

/-- **The lines of a group have the group again just if the first line restarts there.** -/
theorem groupAt_cut_iff
    (h : groupAt ⟨above ++ l :: (mid ++ below)⟩ line = some (⟨above.length, column⟩, q))
    (hend : q.line ≤ above.length + mid.length) :
    groupAt ⟨l :: mid⟩ (line - above.length) = some (⟨0, column⟩, q.up above.length) ↔
      Restarts l column (line = above.length) := by
  have hopening := opening_of_groupAt above h
  obtain ⟨-, -, hhead, hcontains⟩ := (groupAt_split_iff above hopening).mp h
  obtain ⟨hstart, hstop⟩ := contains_lines.mp hcontains
  have hcontains' : (lines (⟨0, column⟩, q.up above.length)).contains (line - above.length) :=
    contains_lines.mpr ⟨Nat.zero_le _, Nat.sub_le_sub_right hstop _⟩
  have hfirst : line - above.length = 0 ↔ line = above.length := by
    simp only at hstart
    omega
  have hfront : inFront [] l column = Bracket.onLine 0 (ScanState.code.front l column) := rfl
  constructor
  · intro hcut
    have hcode := opening_of_groupAt [] hcut
    obtain ⟨hleft, hnone, -, -⟩ := (groupAt_split_iff [] hcode).mp hcut
    rw [hfront] at hleft hnone
    rw [forall_not_contains_onLine, hfirst] at hnone
    exact ⟨hcode, (left_onLine 0 _).mp hleft, hnone⟩
  · rintro ⟨hcode, hleft, hnone⟩
    refine (groupAt_split_iff [] hcode).mpr ⟨?_, ?_, ?_, hcontains'⟩
    · rw [hfront]
      exact (left_onLine 0 _).mpr hleft
    · rw [hfront, forall_not_contains_onLine, hfirst]
      exact hnone
    · exact head?_pairs_cut hopening hcode (head?_pairs_behind hhead hend)

/-- A group that is closed on a line has this line, wherever it was opened. -/
theorem contains_of_mem_pairs_onLine {w : List (Bracket × Nat)} {g : Position × Position}
    (h : g ∈ pairs (left none (ScanState.code.places 0 above)) (Bracket.onLine above.length w)) :
    (lines g).contains above.length := by
  obtain ⟨hclosing, hopening⟩ := ends_of_mem_pairs h
  have hend := Bracket.line_of_mem_onLine hclosing
  simp only at hend
  have hstart : g.1.line ≤ above.length := by
    rcases hopening with hhere | ⟨n, hn⟩
    · exact Nat.le_of_eq (Bracket.line_of_mem_onLine hhere)
    · rcases opening_of_left hn with habove | ⟨m, hm⟩
      · have hlt := (ScanState.line_of_mem_places habove).2
        simp only at hlt
        omega
      · cases hm
  exact contains_lines.mpr ⟨hstart, Nat.le_of_eq hend.symm⟩

/-- Where no comment and no string is open, a line restarts at the group. -/
theorem restarts_of_afterLines {rest : List Text}
    (h : groupAt ⟨above ++ l :: rest⟩ line = some (⟨above.length, column⟩, q))
    (hcode : ScanState.code.afterLines above = .code) :
    Restarts l column (line = above.length) := by
  have hopening := opening_of_groupAt above h
  obtain ⟨hleft, hnone, -, -⟩ := (groupAt_split_iff above hopening).mp h
  rw [inFront, hcode, left_append] at hleft
  rw [inFront, hcode, pairs_append] at hnone
  rw [hcode] at hopening
  have hfront : left none (Bracket.onLine above.length (ScanState.code.front l column)) = none := by
    have hheight := height_left_mono (s := none)
      (t := left none (ScanState.code.places 0 above)) (Nat.zero_le _)
      (Bracket.onLine above.length (ScanState.code.front l column))
    rw [hleft] at hheight
    exact height_eq_zero.mp (Nat.le_zero.mp hheight)
  refine ⟨hopening, (left_onLine _ _).mp hfront, ?_⟩
  -- Whatever is open above, a group that is closed on this line has this line.
  intro hline
  have hclosed : pairs (left none (ScanState.code.places 0 above))
      (Bracket.onLine above.length (ScanState.code.front l column)) = [] := by
    refine List.eq_nil_iff_forall_not_mem.mpr fun g hg => hnone g ?_ ?_
    · exact List.mem_append_right _ hg
    · rw [hline]
      exact contains_of_mem_pairs_onLine hg
  cases habove : left none (ScanState.code.places 0 above) with
  | none =>
    rw [habove, pairs_onLine, List.map_eq_nil_iff] at hclosed
    exact hclosed
  | some opened =>
    rw [habove] at hclosed hleft
    exact absurd hclosed (pairs_ne_nil hleft)

end

/-! ## The text of a region -/

section
variable {b : Buffer} {r : Region}

/-- The text of a region are its lines. -/
theorem text_eq_unlines (hlimit : ∀ l ∈ b.lines, l.length ≤ Position.limit)
    (hle : r.startLine ≤ r.endLine) :
    text b r = Text.unlines ((b.lines.take (r.endLine + 1)).drop r.startLine) := by
  have hordered : (⟨r.startLine, 0⟩ : Position) ≤ ⟨r.endLine, Position.limit⟩ := by
    rw [Position.le_def]
    simp only
    omega
  have hwhole : b.lines.mapIdx (Buffer.lineBetween ⟨r.startLine, 0⟩ ⟨r.endLine, Position.limit⟩) =
      b.lines := by
    refine List.ext_getElem (List.length_mapIdx) fun i hi hi' => ?_
    have htake := List.take_of_length_le (hlimit _ (List.getElem_mem hi'))
    simp [Buffer.lineBetween, htake]
  rw [text, Buffer.textBetween_eq_unlines_span b hordered, Buffer.span, Buffer.spanIn, hwhole]

/-- Some lines of a text, read as a text by themselves. -/
theorem groupAt_unlines {ls : List Text} (hne : ls ≠ []) (h : ∀ l ∈ ls, '\n' ∉ l) :
    groupAt (.ofText (Text.unlines ls)) = groupAt ⟨ls⟩ := by
  have hlines : (Buffer.ofText (Text.unlines ls)).lines = ls.map Text.dropReturn :=
    congrArg (List.map Text.dropReturn) (Text.pieces_join '\n' hne h)
  funext line
  rw [groupAt, hlines, ScanState.places_dropReturn]
  rfl

end

/-- Lines around those from one number to another. -/
theorem exists_lines_around {ls : List Text} {m n : Nat} (hle : m ≤ n) (hlt : n < ls.length) :
    ∃ above l mid below, ls = above ++ l :: (mid ++ below) ∧ above = ls.take m ∧
      above.length = m ∧ (ls.take (n + 1)).drop m = l :: mid ∧ n = above.length + mid.length := by
  have hlength : m < (ls.take (n + 1)).length := by
    rw [List.length_take]
    omega
  have hcut := List.drop_eq_getElem_cons hlength
  refine ⟨ls.take m, _, (ls.take (n + 1)).drop (m + 1), ls.drop (n + 1), ?_, rfl, ?_, hcut, ?_⟩
  · have hfront : ls.take m = (ls.take (n + 1)).take m := by
      rw [List.take_take, Nat.min_eq_left (by omega)]
    rw [← List.cons_append, ← hcut, ← List.append_assoc, hfront, List.take_append_drop,
      List.take_append_drop]
  · rw [List.length_take]
    omega
  · rw [List.length_take, List.length_drop, List.length_take]
    omega

/-- **When the text of a region stands on its own.** Whatever text and cursor a region is found at,
it is the lines of a group. Its own text has this group at the cursor just if its first line, read
from its beginning as plain code, comes to the opening parenthesis of the group in plain code, with
nothing open there and, when the cursor is on this line, no other group closed. The region found is
then the same. All this holds in particular where no comment and no string of the lines above is
open.

Coordinates go up to `Position.limit`, and no line is longer. -/
theorem excerpt_iff_restarts {t : Text} {cursor : Position} {r : Region}
    (hlimit : ∀ l ∈ (Buffer.ofText t).lines, l.length ≤ Position.limit)
    (h : extract? scanning (.ofText t) cursor = .ok (some r)) :
    ∃ p q l, groupAt (.ofText t) cursor.line = some (p, q) ∧ lines (p, q) = r ∧
      (Buffer.ofText t).lines[r.startLine]? = some l ∧
      (groupAt (.ofText (text (.ofText t) r)) (cursor.up r.startLine).line =
          some (p.up r.startLine, q.up r.startLine) ↔
        Restarts l p.column (cursor.line = r.startLine)) ∧
      (Restarts l p.column (cursor.line = r.startLine) →
        extract? scanning (.ofText (text (.ofText t) r)) (cursor.up r.startLine) =
          .ok (some ⟨0, r.endLine - r.startLine⟩)) ∧
      (ScanState.code.afterLines ((Buffer.ofText t).lines.take r.startLine) = .code →
        Restarts l p.column (cursor.line = r.startLine)) := by
  obtain ⟨⟨⟨n, column⟩, q⟩, hgroup, rfl⟩ := extract?_scanning_eq_some.mp h
  have hle := start_le_end_of_groupAt hgroup
  have hlt := end_lt_of_groupAt hgroup
  obtain ⟨above, l, mid, below, hlines, habove, rfl, hcut, hend⟩ := exists_lines_around hle hlt
  have hfeeds : ∀ l' ∈ l :: mid, '\n' ∉ l' := by
    intro l' hl'
    rw [← hcut] at hl'
    exact Text.lineFeed_not_mem_of_mem_lines (List.mem_of_mem_take (List.mem_of_mem_drop hl'))
  have hb : Buffer.ofText t = ⟨above ++ l :: (mid ++ below)⟩ := congrArg Buffer.mk hlines
  have hfirst : (Buffer.ofText t).lines[above.length]? = some l := by
    rw [hb]
    simp
  have hup : Position.up above.length ⟨above.length, column⟩ = ⟨0, column⟩ := by
    simp [Position.up]
  have hsame : groupAt (.ofText (text (.ofText t) (lines (⟨above.length, column⟩, q)))) =
      groupAt ⟨l :: mid⟩ := by
    rw [text_eq_unlines hlimit hle, hcut, groupAt_unlines (List.cons_ne_nil _ _) hfeeds]
  have hiff := groupAt_cut_iff (hb ▸ hgroup) (Nat.le_of_eq hend)
  refine ⟨_, q, l, hgroup, rfl, hfirst, ?_, ?_, ?_⟩
  · rw [hsame]
    show groupAt ⟨l :: mid⟩ (cursor.line - above.length) =
      some (Position.up above.length ⟨above.length, column⟩, q.up above.length) ↔ _
    rw [hup]
    exact hiff
  · intro hrestarts
    refine extract?_scanning_eq_some.mpr ⟨(⟨0, column⟩, q.up above.length), ?_, rfl⟩
    rw [hsame]
    exact hiff.mpr hrestarts
  · intro hcode
    refine restarts_of_afterLines (hb ▸ hgroup) ?_
    rw [habove]
    exact hcode

/-- The first line begins inside of a comment that ends on it, and has a stray parenthesis in front
of the group. -/
theorem excerpt_iff_restarts_behind_comment : ∃ (t : Text) (r : Region),
    t = "/* (\n*/) (a\n b) (c)".toList ∧ extract? scanning (.ofText t) ⟨2, 1⟩ = .ok (some r) ∧
      text (.ofText t) r = "*/) (a\n b) (c)".toList ∧
      groupAt (.ofText (text (.ofText t) r)) 1 = some (⟨0, 4⟩, ⟨1, 2⟩) ∧
      extract? scanning (.ofText (text (.ofText t) r)) ⟨1, 1⟩ = .ok (some ⟨0, 1⟩) := by
  let t : Text := "/* (\n*/) (a\n b) (c)".toList
  have hfound : extract? scanning (.ofText t) ⟨2, 1⟩ = .ok (some ⟨1, 2⟩) := by decide
  obtain ⟨p, q, l, hgroup, -, hline, hiff, hregion, -⟩ := excerpt_iff_restarts (by decide) hfound
  have hends : groupAt (.ofText t) 2 = some (⟨1, 4⟩, ⟨2, 2⟩) := by decide
  obtain ⟨rfl, rfl⟩ := Prod.mk.inj (Option.some.inj (hgroup.symm.trans hends))
  have hfirst : (Buffer.ofText t).lines[1]? = some "*/) (a".toList := by decide
  obtain rfl := Option.some.inj (hline.symm.trans hfirst)
  have hrestarts : Restarts "*/) (a".toList 4 ((2 : Nat) = 1) := by decide
  exact ⟨t, ⟨1, 2⟩, rfl, hfound, by decide, hiff.mpr hrestarts, hregion hrestarts⟩

/-- A region of a text does not always stand on its own: here a string of the line above ends in
front of the group. -/
theorem not_forall_excerpt_same : ¬ ∀ (t : Text) (cursor : Position) (r : Region),
    extract? scanning (.ofText t) cursor = .ok (some r) →
      extract? scanning (.ofText (text (.ofText t) r)) (cursor.up r.startLine) =
        .ok (some ⟨0, r.endLine - r.startLine⟩) := by
  intro h
  have hagain := h "\"a\n\" (b)".toList ⟨1, 2⟩ ⟨1, 1⟩ (by decide)
  exact absurd hagain (by decide)

end Region
end Livecode
