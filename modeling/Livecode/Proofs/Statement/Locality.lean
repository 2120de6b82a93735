import Livecode.Proofs.Statement.Batch
import Livecode.Proofs.Text.Trimming

/-!
# Reading a text in parts

A line never bears on a statement that ends before it. What the lines of a text add up to is its
*code*, and the code of two texts one below the other is the one code behind the other. Code is cut
from its beginning, so the upper text gives the statements it would give alone, and the lower text is
read behind what the upper one left open.

What is left open is joined to the first piece of the code below, and trimmed with it: blanks that are
left open change nothing. A text that leaves only blanks, or nothing, is read as if it stood alone, and
so is whatever stands below it.

## Main results

* `segment_append_line_eq` — what a text below another one is read behind.
* `segment_append_line` — the upper text is read as if it stood alone, and after a text that leaves
  nothing open the lower one is so too.
-/

namespace Livecode

/-! ## Cutting from the beginning -/

theorem Statement.ofText?_congr {s t : Text} (h : Text.trim s = Text.trim t) :
    Statement.ofText? s = Statement.ofText? t := by
  simp only [Statement.ofText?, h]

theorem Statement.text_eq_trim {t : Text} {st : Statement}
    (h : Statement.ofText? t = some st) : st.text = Text.trim t := by
  have htext := Statement.text_ofText? t
  rw [h] at htext
  split at htext
  · cases htext
  · exact Option.some.inj htext

namespace StatementStream

variable {r : Redirect}

theorem terminator_not_blank : Text.isBlank terminator = false := by decide

/-- The first terminator of some code ends its first statement. -/
theorem cut_terminated {p : Text} (h : terminator ∉ p) (code : Text) :
    cut (p ++ terminator :: code) =
      ((Statement.ofText? p).toList ++ (cut code).1, (cut code).2) := by
  obtain ⟨ps, last, hps⟩ := exists_pieces code
  have hpieces : Text.pieces terminator (p ++ terminator :: code) = (p :: ps) ++ [last] := by
    rw [Text.pieces_append_sep, Text.pieces_of_not_mem terminator h, hps]
    rfl
  rw [cut_of_pieces hpieces, cut_of_pieces hps]
  cases hp : Statement.ofText? p with
  | none => simp [List.filterMap_cons_none hp]
  | some st => simp [List.filterMap_cons_some hp]

/-- Blanks that were left open change no statement of the code behind them. -/
theorem cut_append_of_blank {rest : Text} (h : ∀ c ∈ rest, Text.isBlank c = true) (code : Text) :
    (cut (rest ++ code)).1 = (cut code).1 := by
  have hrest : terminator ∉ rest := by
    intro hmem
    have hblank := h terminator hmem
    rw [terminator_not_blank] at hblank
    exact Bool.false_ne_true hblank
  by_cases hcode : terminator ∈ code
  · obtain ⟨p, code', rfl, hp⟩ := List.eq_append_cons_of_mem hcode
    have hfront : terminator ∉ rest ++ p := List.not_mem_append hrest hp
    have htrim : Text.trim (rest ++ p) = Text.trim p := Text.trim_append_of_blank h p
    rw [← List.append_assoc, cut_terminated hfront, cut_terminated hp,
      Statement.ofText?_congr htrim]
  · rw [cut_of_not_mem (List.not_mem_append hrest hcode), cut_of_not_mem hcode]

/-! ## The code of a text -/

/-- What the lines of a text add up to. -/
def code (r : Redirect) (t : Text) : Text := ((Text.pieces '\n' t).map (contribution r)).flatten

theorem code_append_line (r : Redirect) (a b : Text) :
    code r (a ++ '\n' :: b) = code r a ++ code r b := by
  rw [code, Text.pieces_append_sep, List.map_append, List.flatten_append]
  rfl

/-- What is kept of a line. -/
def keptLine? (r : Redirect) (line : Text) : Option Text :=
  if isComment line || Text.isAllBlank (r.apply line) then none else some (r.apply line)

theorem keptLines_unique {ls kept : List Text} (h : KeptLines r ls kept) :
    ls.filterMap (keptLine? r) = kept := by
  induction h with
  | nil => rfl
  | @comment l _ _ hcomment _ ih =>
    have hdropped : keptLine? r l = none := by simp [keptLine?, isComment_iff.mpr hcomment]
    rw [List.filterMap_cons_none hdropped, ih]
  | @blank l _ _ _ _ hredirect hblank _ ih =>
    obtain rfl := Redirect.apply_eq_iff.mpr hredirect
    have hdropped : keptLine? r l = none := by simp [keptLine?, isAllBlank_iff.mpr hblank]
    rw [List.filterMap_cons_none hdropped, ih]
  | @kept l _ _ _ hcomment hredirect hblank _ ih =>
    obtain rfl := Redirect.apply_eq_iff.mpr hredirect
    rw [← isComment_iff, Bool.not_eq_true] at hcomment
    rw [← isAllBlank_iff, Bool.not_eq_true] at hblank
    have hkept : keptLine? r l = some (r.apply l) := by simp [keptLine?, hcomment, hblank]
    rw [List.filterMap_cons_some hkept, ih]

/-- The kept lines of a text are computed line by line, and there are no others. -/
theorem keptLines_iff {ls kept : List Text} :
    KeptLines r ls kept ↔ ls.filterMap (keptLine? r) = kept := by
  constructor
  · exact keptLines_unique
  · rintro rfl
    obtain ⟨kept, hkept⟩ := exists_keptLines r ls
    rwa [keptLines_unique hkept]

theorem code_eq_flatten {t : Text} {kept : List Text}
    (h : KeptLines r ((Text.pieces '\n' t).map Text.dropReturn) kept) : code r t = kept.flatten :=
  keptLines_flatten h

end StatementStream

open StatementStream

/-- The statements of a text are cut from its code. -/
theorem segment_eq_cut (r : Redirect) (t : Text) : Statement.segment r t = (cut (code r t)).1 :=
  toList_eq List.not_mem_nil

/-! ## One text below another -/

/-- A text below another one is read behind what the upper one leaves open. -/
theorem segment_append_line_eq (r : Redirect) (a b : Text) :
    Statement.segment r (a ++ '\n' :: b) =
      Statement.segment r a ++ (cut ((cut (code r a)).2 ++ code r b)).1 := by
  rw [segment_eq_cut, code_append_line, cut_append, segment_eq_cut]

/-- What the kept lines of a text come to has nothing but blanks behind its last terminator. A text no
line of which is kept has nothing at all there. -/
def Terminated (r : Redirect) (t : Text) : Prop :=
  ∃ kept pieces rest, KeptLines r ((Text.pieces '\n' t).map Text.dropReturn) kept ∧
    Text.Cut ';' kept.flatten (pieces ++ [rest]) ∧ ∀ c ∈ rest, Text.isBlank c = true

theorem Terminated.blank {r : Redirect} {t : Text} (h : Terminated r t) :
    ∀ c ∈ (cut (code r t)).2, Text.isBlank c = true := by
  obtain ⟨kept, pieces, rest, hkept, hpieces, hblank⟩ := h
  rw [code_eq_flatten hkept, cut_of_pieces (Text.pieces_eq_iff_cut.mpr hpieces)]
  exact hblank

/-- Below a text that leaves nothing open, a text is read as if it stood alone. -/
theorem Terminated.segment_append {r : Redirect} {a : Text} (h : Terminated r a) (b : Text) :
    Statement.segment r (a ++ '\n' :: b) = Statement.segment r a ++ Statement.segment r b := by
  rw [segment_append_line_eq, cut_append_of_blank h.blank, segment_eq_cut r b]

/-- **Segmentation is local.** The statements of a text come first among those of the text with
another one below it. Where the upper text leaves nothing open, those of the lower text follow. -/
theorem segment_append_line (r : Redirect) (a b : Text) :
    Statement.segment r a <+: Statement.segment r (a ++ '\n' :: b) ∧
      (Terminated r a →
        Statement.segment r (a ++ '\n' :: b) = Statement.segment r a ++ Statement.segment r b) := by
  constructor
  · rw [segment_append_line_eq]
    exact List.prefix_append _ _
  · intro h
    exact h.segment_append b

/-- Behind the last terminator, in a comment line and in a blank one nothing is left open. -/
theorem segment_append_line_below_blanks :
    Terminated .localFiles "a();\n// b(\n \nc();  " ∧
      (Statement.segment .localFiles ("a();\n// b(\n \nc();  ".toList ++ '\n' :: "d()\n;e")).map
        (·.text) = ["a()".toList, "c()".toList, "d()".toList] := by
  have hterminated : Terminated .localFiles "a();\n// b(\n \nc();  " :=
    ⟨["a();", "c();  "], ["a()", "c()"], "  ", keptLines_iff.mpr (by decide),
      Text.pieces_eq_iff_cut.mp (by decide), isAllBlank_iff.mp (by decide)⟩
  refine ⟨hterminated, ?_⟩
  rw [(segment_append_line _ _ _).2 hterminated, segment_eq_cut, segment_eq_cut]
  decide

end Livecode
