import Livecode.Source.Buffer

/-!
# Spans of a buffer

The text between two positions is a slice of the text of the buffer. An editor sees it line by
line: the first line from the column of the earlier position on, the last one up to the column of
the later one, whole lines between them, and a line feed after each line but the last. Both are the
same text, wherever the positions lie: a column past its line stands for the end of the line, and a
line past the last one for the end of the text.

Spans can therefore be put together like slices. All that this takes is that a later position has
no smaller offset.

## Main results

* `offset_mono` — a later position has no smaller offset.
* `textBetween_eq_unlines_span` — a span, line by line.
* `textBetween_append` — spans that meet make one span.
* `textBetween_exact` — these together, for the whole text and for a selection in it.
-/

namespace Livecode.Buffer

/-! ## Offsets -/

theorem offsetIn_mono (ls : List Text) {p q : Position} (h : p ≤ q) :
    offsetIn ls p.line p.column ≤ offsetIn ls q.line q.column := by
  obtain ⟨pl, pc⟩ := p
  obtain ⟨ql, qc⟩ := q
  rw [Position.le_def] at h
  induction ls generalizing pl ql with
  | nil => exact Nat.le_refl _
  | cons l ls ih =>
    cases pl with
    | zero =>
      cases ql with
      | zero =>
        have hcolumn : pc ≤ qc := by simpa using h
        simp only [offsetIn]
        omega
      | succ ql =>
        have hlast : min pc l.length ≤ l.length := Nat.min_le_right _ _
        cases ls with
        | nil => exact hlast
        | cons m ls =>
          simp only [offsetIn]
          omega
    | succ pl =>
      cases ql with
      | zero => simp at h
      | succ ql =>
        cases ls with
        | nil => exact Nat.le_refl _
        | cons m ls =>
          have hbelow := ih pl ql (by simpa using h)
          simp only [offsetIn]
          exact Nat.add_le_add_left hbelow _

variable (b : Buffer)

/-- A later position has no smaller offset. -/
theorem offset_mono {p q : Position} (h : p ≤ q) : b.offset p ≤ b.offset q :=
  offsetIn_mono b.lines h

/-- A line past the last one stands for the end of the text. -/
theorem offset_of_length_le {p : Position} (h : b.lines.length ≤ p.line) :
    b.offset p = b.text.length := by
  obtain ⟨ls⟩ := b
  obtain ⟨line, column⟩ := p
  simp only [offset, text, Text.unlines] at h ⊢
  induction ls generalizing line with
  | nil => rfl
  | cons l ls ih =>
    cases line with
    | zero => simp at h
    | succ line =>
      cases ls with
      | nil => rfl
      | cons m ls =>
        have hbelow := ih line (by simpa using h)
        simp only [offsetIn, Text.join, List.length_append, List.length_cons, hbelow]
        omega

@[simp] theorem offset_origin : b.offset ⟨0, 0⟩ = 0 := by
  obtain ⟨ls⟩ := b
  cases ls with
  | nil => rfl
  | cons l ls => simp [offset, offsetIn]

/-! ## Line by line -/

/-- The part of a line that lies between two positions. -/
def lineBetween (p q : Position) (line : Nat) (l : Text) : Text :=
  (if line = q.line then l.take q.column else l).drop (if line = p.line then p.column else 0)

/-- The lines between two positions, the first and the last one cut. -/
def spanIn (ls : List Text) (p q : Position) : List Text :=
  ((ls.mapIdx (lineBetween p q)).take (q.line + 1)).drop p.line

/-- The lines of the span between two positions, the earlier one first. -/
def span (p q : Position) : List Text := spanIn b.lines p q

section
variable (l : Text) (ls : List Text) (pl pc ql qc : Nat)

theorem spanIn_same : spanIn (l :: ls) ⟨0, pc⟩ ⟨0, qc⟩ = [(l.take qc).drop pc] := by
  simp [spanIn, lineBetween]

theorem spanIn_first :
    spanIn (l :: ls) ⟨0, pc⟩ ⟨ql + 1, qc⟩ = l.drop pc :: spanIn ls ⟨0, 0⟩ ⟨ql, qc⟩ := by
  have hbelow : ∀ i, lineBetween ⟨0, pc⟩ ⟨ql + 1, qc⟩ (i + 1) = lineBetween ⟨0, 0⟩ ⟨ql, qc⟩ i := by
    intro i
    funext m
    simp [lineBetween]
  simp [spanIn, List.mapIdx_cons, hbelow, lineBetween]

theorem spanIn_later :
    spanIn (l :: ls) ⟨pl + 1, pc⟩ ⟨ql + 1, qc⟩ = spanIn ls ⟨pl, pc⟩ ⟨ql, qc⟩ := by
  have hbelow : ∀ i,
      lineBetween ⟨pl + 1, pc⟩ ⟨ql + 1, qc⟩ (i + 1) = lineBetween ⟨pl, pc⟩ ⟨ql, qc⟩ i := by
    intro i
    funext m
    simp [lineBetween]
  simp [spanIn, List.mapIdx_cons, hbelow]

theorem spanIn_ne_nil : spanIn (l :: ls) ⟨0, pc⟩ ⟨ql, qc⟩ ≠ [] := by
  cases ql with
  | zero => simp [spanIn_same]
  | succ ql => simp [spanIn_first]

end

/-- A span does not depend on the lines below it. -/
theorem spanIn_append {ls : List Text} {p q : Position} (h : q.line < ls.length) (ms : List Text) :
    spanIn (ls ++ ms) p q = spanIn ls p q := by
  have hlength : q.line + 1 ≤ (ls.mapIdx (lineBetween p q)).length := by
    rw [List.length_mapIdx]
    omega
  rw [spanIn, spanIn, List.mapIdx_append, List.take_append_of_le_length hlength]

/-! ### Slices of joined lines -/

/-- A column past the end of a line drops all of what is there. -/
theorem drop_min_length {l front : Text} (column : Nat) (h : front.length ≤ l.length) :
    front.drop (min column l.length) = front.drop column := by
  rcases Nat.le_total column l.length with hle | hle
  · rw [Nat.min_eq_left hle]
  · rw [Nat.min_eq_right hle, List.drop_eq_nil_of_le h,
      List.drop_eq_nil_of_le (Nat.le_trans h hle)]

theorem unlines_below (l m : Text) (ls : List Text) :
    Text.unlines (l :: m :: ls) = l ++ '\n' :: Text.unlines (m :: ls) := rfl

theorem offsetIn_below (l m : Text) (ls : List Text) (line column : Nat) :
    offsetIn (l :: m :: ls) (line + 1) column =
      l.length + 1 + offsetIn (m :: ls) line column := rfl

theorem take_line (l rest : Text) (n : Nat) :
    (l ++ '\n' :: rest).take (l.length + 1 + n) = l ++ '\n' :: rest.take n := by
  rw [Nat.add_assoc, List.take_length_add_append, Nat.add_comm 1, List.take_succ_cons]

theorem drop_line (l rest : Text) (n : Nat) :
    (l ++ '\n' :: rest).drop (l.length + 1 + n) = rest.drop n := by
  rw [Nat.add_assoc, List.drop_length_add_append, Nat.add_comm 1, List.drop_succ_cons]

/-- A slice of the joined lines, line by line. -/
theorem slice_unlines (ls : List Text) {p q : Position} (h : p ≤ q) :
    ((Text.unlines ls).take (offsetIn ls q.line q.column)).drop (offsetIn ls p.line p.column) =
      Text.unlines (spanIn ls p q) := by
  obtain ⟨pl, pc⟩ := p
  obtain ⟨ql, qc⟩ := q
  rw [Position.le_def] at h
  simp only at h ⊢
  induction ls generalizing pl pc ql with
  | nil => simp [offsetIn, spanIn, Text.unlines, Text.join]
  | cons l ls ih =>
    cases pl with
    | zero =>
      cases ql with
      | zero =>
        have hfront : l <+: Text.unlines (l :: ls) := by
          cases ls with
          | nil => exact List.prefix_rfl
          | cons m ls => exact List.prefix_append l _
        obtain ⟨rest, hrest⟩ := hfront
        have htake : (l ++ rest).take (min qc l.length) = l.take qc := by
          rw [List.take_append_of_le_length (Nat.min_le_right _ _), ← List.take_eq_take_min]
        rw [spanIn_same, ← hrest]
        simp only [offsetIn, htake]
        exact drop_min_length pc (List.length_take_le' _ _)
      | succ ql =>
        rw [spanIn_first]
        cases ls with
        | nil =>
          have hline : (l.take l.length).drop (min pc l.length) = l.drop pc := by
            rw [List.take_length, drop_min_length pc (Nat.le_refl _)]
          exact hline
        | cons m ls =>
          have hbelow := ih 0 0 ql (by omega)
          have hoffset : offsetIn (m :: ls) 0 0 = 0 := Nat.zero_min _
          rw [hoffset, List.drop_zero] at hbelow
          have hjoin : Text.unlines (l.drop pc :: spanIn (m :: ls) ⟨0, 0⟩ ⟨ql, qc⟩) =
              l.drop pc ++ '\n' :: Text.unlines (spanIn (m :: ls) ⟨0, 0⟩ ⟨ql, qc⟩) :=
            Text.join_cons _ _ (spanIn_ne_nil m ls 0 ql qc)
          rw [unlines_below, offsetIn_below, take_line, hbelow, hjoin, offsetIn,
            List.drop_append_of_le_length (Nat.min_le_right _ _),
            drop_min_length pc (Nat.le_refl _)]
    | succ pl =>
      cases ql with
      | zero => omega
      | succ ql =>
        rw [spanIn_later]
        cases ls with
        | nil => simp [offsetIn, spanIn, Text.unlines, Text.join]
        | cons m ls =>
          rw [← ih pl pc ql (by omega), unlines_below, offsetIn_below, offsetIn_below, take_line,
            drop_line]

/-- A span is what its lines have between the two positions, joined again. -/
theorem textBetween_eq_unlines_span {p q : Position} (h : p ≤ q) :
    b.textBetween p q = Text.unlines (b.span p q) := by
  have hmin : min p q = p := if_pos h
  have hmax : max p q = q := if_pos h
  rw [span, ← slice_unlines b.lines h]
  simp only [textBetween, hmin, hmax, List.drop_take]
  rfl

/-! ## Putting spans together -/

theorem textBetween_eq_slice {p q : Position} (h : p ≤ q) :
    b.textBetween p q = (b.text.drop (b.offset p)).take (b.offset q - b.offset p) := by
  have hmin : min p q = p := if_pos h
  have hmax : max p q = q := if_pos h
  simp only [textBetween, hmin, hmax]

/-- Spans that meet make one span. -/
theorem textBetween_append {p q r : Position} (hpq : p ≤ q) (hqr : q ≤ r) :
    b.textBetween p q ++ b.textBetween q r = b.textBetween p r := by
  have hfirst := b.offset_mono hpq
  have hsecond := b.offset_mono hqr
  have hlength : b.offset r - b.offset p =
      (b.offset q - b.offset p) + (b.offset r - b.offset q) := by omega
  have hstart : b.offset p + (b.offset q - b.offset p) = b.offset q := by omega
  rw [b.textBetween_eq_slice hpq, b.textBetween_eq_slice hqr,
    b.textBetween_eq_slice (Position.le_trans hpq hqr), hlength, List.take_add, List.drop_drop,
    hstart]

/-- From its beginning to a line past the last one a buffer is whole. -/
theorem textBetween_eq_text {q : Position} (h : b.lines.length ≤ q.line) :
    b.textBetween ⟨0, 0⟩ q = b.text := by
  rw [b.textBetween_eq_slice (Position.origin_le q), b.offset_origin, b.offset_of_length_le h,
    List.drop_zero, Nat.sub_zero, List.take_length]

/-- **Spans are exact slices.** Whatever positions are asked for, in the buffer or outside of it:
what lies between two positions is what the lines have between them, spans that meet make one span,
the order of the two positions does not matter, and the span of all positions is the whole text. So
the text is what precedes a selection, the selected text, and what follows it.

Coordinates go up to `Position.limit`, and a buffer does not have more lines. -/
theorem textBetween_exact (hlines : b.lines.length ≤ Position.limit) :
    (∀ p q, p ≤ q → b.textBetween p q = Text.unlines (b.span p q)) ∧
      (∀ p q r, p ≤ q → q ≤ r → b.textBetween p q ++ b.textBetween q r = b.textBetween p r) ∧
      (∀ p q, b.textBetween p q = b.textBetween q p) ∧
      b.textBetween ⟨0, 0⟩ ⟨Position.limit, Position.limit⟩ = b.text ∧
      ∀ s : Selection, s.finish ≤ ⟨Position.limit, Position.limit⟩ →
        b.text = b.textBetween ⟨0, 0⟩ s.start ++ b.selectedText s ++
          b.textBetween s.finish ⟨Position.limit, Position.limit⟩ := by
  have hall : b.textBetween ⟨0, 0⟩ ⟨Position.limit, Position.limit⟩ = b.text :=
    b.textBetween_eq_text hlines
  refine ⟨fun p q => b.textBetween_eq_unlines_span, fun p q r => b.textBetween_append,
    b.textBetween_comm, hall, ?_⟩
  intro s hfinish
  have hordered : s.start ≤ s.finish := Position.min_le_max s.anchor s.active
  have hfront := b.textBetween_append (Position.origin_le s.start) hordered
  rw [selectedText, hfront, b.textBetween_append (Position.origin_le s.finish) hfinish, hall]

/-- The first position is past the end of its line and the last one past the last line. The
selection runs backwards, from there to the end of the first line. -/
theorem textBetween_exact_past_ends : ∃ (b : Buffer) (s : Selection),
    b.text = "ab\ncd".toList ∧ s.anchor = ⟨7, 0⟩ ∧ s.active = ⟨0, 9⟩ ∧
      b.textBetween ⟨0, 9⟩ ⟨1, 1⟩ = "\nc".toList ∧ b.textBetween ⟨1, 1⟩ ⟨7, 0⟩ = "d".toList ∧
      b.textBetween ⟨0, 9⟩ ⟨7, 0⟩ = "\ncd".toList ∧
      b.text = "ab".toList ++ b.selectedText s ++ [] := by
  let b : Buffer := ofText "ab\ncd"
  obtain ⟨hspan, happend, -, -, hselection⟩ := textBetween_exact b (by decide)
  have hfirst : b.textBetween ⟨0, 9⟩ ⟨1, 1⟩ = "\nc".toList := hspan _ _ (by decide)
  have hsecond : b.textBetween ⟨1, 1⟩ ⟨7, 0⟩ = "d".toList := hspan _ _ (by decide)
  have hboth := happend ⟨0, 9⟩ ⟨1, 1⟩ ⟨7, 0⟩ (by decide) (by decide)
  rw [hfirst, hsecond] at hboth
  exact ⟨b, ⟨⟨7, 0⟩, ⟨0, 9⟩⟩, by decide, rfl, rfl, hfirst, hsecond, hboth.symm,
    hselection ⟨⟨7, 0⟩, ⟨0, 9⟩⟩ (by decide)⟩

end Livecode.Buffer
