import Livecode.PostWindow
import Livecode.Proofs.Text.LineEnds
import Mathlib.Data.List.DropRight

/-!
# The history of a post window

Everything ever posted makes up the history of a window; the window keeps the end of it. Posting
text by text and forgetting what exceeds the capacity each time leaves the same lines as forgetting
once at the end.

A window is used by several parts of the program at once. Each has a *handle* of its own, and a copy
of a handle leads to the same window (`PostDesk`). A window is locked while a text is posted into
it, so what is posted through several handles is posted in some order, text by text. The history of
a window is what was posted through any handle that leads to it; nothing posted into another window
enters it.

## Main results

* `lines_postAll` — a window keeps the last lines of its history.
* `post_post` — two texts are posted like one text with a line feed between them.
* `PostDesk.window_tail_of_history` — what every handle of a window shows after any uses.
-/

namespace Livecode

namespace PostWindow

private theorem take_append_take {α : Type} (n : Nat) (a b : List α) :
    (a ++ b.take n).take n = (a ++ b).take n := by
  rw [List.take_append, List.take_append, List.take_take, Nat.min_eq_left (Nat.sub_le _ _)]

theorem recent_postAll (w : PostWindow) (hw : w.recent.length ≤ w.capacity) (ts : List Text) :
    (w.postAll ts).recent = ((ts.flatMap Text.lines).reverse ++ w.recent).take w.capacity := by
  induction ts generalizing w with
  | nil => exact (List.take_of_length_le hw).symm
  | cons t ts ih =>
    have hpost : (w.post t).recent.length ≤ (w.post t).capacity := by
      rw [recent_post]
      exact List.length_take_le _ _
    have hrest := ih (w.post t) hpost
    rw [capacity_post, recent_post, take_append_take] at hrest
    simpa [postAll] using hrest

/-- A window keeps the last lines of its history. -/
theorem lines_postAll (w : PostWindow) (hw : w.recent.length ≤ w.capacity) (ts : List Text) :
    (w.postAll ts).lines =
      (w.lines ++ ts.flatMap Text.lines).drop
        ((w.lines ++ ts.flatMap Text.lines).length - w.capacity) := by
  rw [lines, recent_postAll w hw, List.reverse_take]
  simp [lines, Nat.add_comm]

/-- Even an empty text is posted as a line. -/
theorem flatMap_lines_ne_nil {ts : List Text} (h : ts ≠ []) : ts.flatMap Text.lines ≠ [] := by
  obtain ⟨t, ts, rfl⟩ := List.exists_cons_of_ne_nil h
  rw [List.flatMap_cons]
  exact List.append_ne_nil_of_left_ne_nil (Text.lines_ne_nil t) _

/-! ## Lines posted one by one -/

/-- A text that is a line is posted as that line. -/
theorem lines_of_line {t : Text} (hline : '\n' ∉ t) (hlast : t.getLast? ≠ some '\r') :
    Text.lines t = [t] := by
  rw [Text.lines, Text.pieces_of_not_mem _ hline, List.map_singleton, Text.dropReturn, if_neg hlast]

theorem flatMap_lines_of_line {ts : List Text}
    (h : ∀ t ∈ ts, '\n' ∉ t ∧ t.getLast? ≠ some '\r') : ts.flatMap Text.lines = ts := by
  induction ts with
  | nil => rfl
  | cons t ts ih =>
    obtain ⟨hline, hlast⟩ := h t List.mem_cons_self
    rw [List.flatMap_cons, lines_of_line hline hlast,
      ih fun t' ht' => h t' (List.mem_cons_of_mem _ ht'), List.singleton_append]

/-! ## The echo -/

theorem write_append (e : Echo) (ls ms : List Text) : e.write (ls ++ ms) = (e.write ls).write ms := by
  cases e <;> simp [Echo.write]

/-- The echo is given every line, whether or not the window keeps it. -/
theorem echo_postAll (w : PostWindow) (ts : List Text) :
    (w.postAll ts).echo = w.echo.write (ts.flatMap Text.lines) := by
  induction ts generalizing w with
  | nil => cases hw : w.echo <;> simp [postAll, Echo.write, hw]
  | cons t ts ih =>
    have hrest := ih (w.post t)
    rw [List.flatMap_cons, write_append]
    exact hrest

theorem echoed_of_working {w : PostWindow} {arrived : List Text} (h : w.echo = .working arrived)
    (ts : List Text) : (w.postAll ts).echoed = arrived.reverse ++ ts.flatMap Text.lines := by
  rw [echoed, echo_postAll, h]
  simp [Echo.write, Echo.lines]

/-! ## Two texts as one -/

private theorem eq_of_fields {w w' : PostWindow} (hcapacity : w.capacity = w'.capacity)
    (hrecent : w.recent = w'.recent) (hecho : w.echo = w'.echo) : w = w' := by
  cases w
  cases w'
  simp_all

/-- Two texts are posted like one text with a line feed between them. -/
theorem post_post (w : PostWindow) (a b : Text) :
    (w.post a).post b = w.post (a ++ '\n' :: b) := by
  refine eq_of_fields rfl ?_ ?_
  · rw [recent_post, recent_post, recent_post, capacity_post, take_append_take,
      Text.lines_append_lineFeed, List.reverse_append, List.append_assoc]
  · rw [post, post, post, Text.lines_append_lineFeed, write_append]

/-! ## From the start -/

theorem lines_postAll_empty (capacity : Nat) (echo : Echo) (ts : List Text) :
    ((empty capacity echo).postAll ts).lines =
      (ts.flatMap Text.lines).rtake (max capacity 1) :=
  lines_postAll (empty capacity echo) (Nat.zero_le _) ts

/-- How many lines there are, and which is the last one, is told of the lines kept. -/
theorem length_lastLine?_isEmpty (w : PostWindow) :
    w.length = w.lines.length ∧ w.lastLine? = w.lines.getLast? ∧ w.isEmpty = w.lines.isEmpty := by
  refine ⟨?_, ?_, ?_⟩
  · rw [length, lines, List.length_reverse]
  · rw [lastLine?, lines, List.getLast?_reverse]
  · rw [isEmpty, lines, List.isEmpty_reverse]

end PostWindow

/-! ## Windows that are shared -/

/-- Post windows, and the handles through which they are used. -/
structure PostDesk where
  windows : List PostWindow
  /-- The window that each handle leads to. -/
  handles : List Nat
  deriving DecidableEq, Repr

namespace PostDesk

/-- What is done with post windows. Handles are counted in the order in which they came about. -/
inductive Use where
  /-- A new window, and a handle that leads to it. -/
  | create (capacity : Nat) (echo : Echo)
  /-- One more handle that leads where the given one does. -/
  | copy (handle : Nat)
  | post (handle : Nat) (t : Text)
  deriving DecidableEq, Repr

def empty : PostDesk := ⟨[], []⟩

def step (d : PostDesk) : Use → PostDesk
  | .create capacity echo =>
    ⟨d.windows ++ [.empty capacity echo], d.handles ++ [d.windows.length]⟩
  | .copy handle => { d with handles := d.handles ++ d.handles[handle]?.toList }
  | .post handle t =>
    match d.handles[handle]? with
    | some k => { d with windows := d.windows.modify k (·.post t) }
    | none => d

def after (d : PostDesk) (us : List Use) : PostDesk := us.foldl step d

/-- The window that a handle leads to. -/
def window? (d : PostDesk) (handle : Nat) : Option PostWindow :=
  d.handles[handle]?.bind (d.windows[·]?)

/-- The texts that a use posts into a window. -/
def arriving (d : PostDesk) (k : Nat) : Use → List Text
  | .post handle t => if d.handles[handle]? = some k then [t] else []
  | _ => []

/-- The texts that are posted into a window in the course of some uses, through any handle. -/
def posted (d : PostDesk) (k : Nat) : List Use → List Text
  | [] => []
  | u :: us => d.arriving k u ++ (d.step u).posted k us

variable {d : PostDesk} {k : Nat} {w : PostWindow}

/-- A use posts into a window what is posted through one of its handles, and nothing else. -/
theorem windows_step (h : d.windows[k]? = some w) (u : Use) :
    (d.step u).windows[k]? = some (w.postAll (d.arriving k u)) := by
  cases u with
  | create capacity echo =>
    have hlt := (List.getElem?_eq_some_iff.mp h).1
    rw [step, List.getElem?_append_left hlt]
    exact h
  | copy handle => exact h
  | post handle t =>
    cases hhandle : d.handles[handle]? with
    | none =>
      simp only [step, arriving, hhandle]
      exact h
    | some j =>
      simp only [step, arriving, hhandle, List.getElem?_modify, h, Option.some.injEq]
      by_cases hj : j = k
      · simp [hj, PostWindow.postAll]
      · simp [hj, PostWindow.postAll]

/-- A window holds what was posted into it, through whatever handles. -/
theorem windows_after (h : d.windows[k]? = some w) (us : List Use) :
    (d.after us).windows[k]? = some (w.postAll (d.posted k us)) := by
  induction us generalizing d w with
  | nil => exact h
  | cons u us ih =>
    have hrest := ih (windows_step h u)
    rw [← PostWindow.postAll_append] at hrest
    exact hrest

/-- **Every handle of a window shows the end of its history.** Whatever is done before and after a
window is created: the lines that any of its handles shows are the last ones of its history, as many
as its capacity allows and one at least; the history is what was posted through any of the handles
that lead to it, line by line. How many lines there are and which is the last one agrees with that,
and a working echo has received the whole history. Posting two texts is posting one text with a line
feed between them. -/
theorem window_tail_of_history (before after : List Use) (capacity : Nat) (echo : Echo) :
    let created := (empty.after before).step (.create capacity echo)
    let k := (empty.after before).windows.length
    let history := (created.posted k after).flatMap Text.lines
    let kept := history.rtake (max capacity 1)
    (∀ handle, (created.after after).handles[handle]? = some k →
      ∃ w, (created.after after).window? handle = some w ∧ w.lines = kept ∧
        w.length = kept.length ∧ w.lastLine? = kept.getLast? ∧ w.isEmpty = kept.isEmpty ∧
        ∀ arrived, echo = .working arrived → w.echoed = arrived.reverse ++ history) ∧
    ∀ (w : PostWindow) (a b : Text), (w.post a).post b = w.post (a ++ '\n' :: b) := by
  intro created k history kept
  refine ⟨fun handle hhandle => ?_, PostWindow.post_post⟩
  have hcreated : created.windows[k]? = some (.empty capacity echo) := List.getElem?_concat_length
  have hwindow := windows_after hcreated after
  obtain ⟨hlength, hlast, hempty⟩ := PostWindow.length_lastLine?_isEmpty
    ((PostWindow.empty capacity echo).postAll (created.posted k after))
  have hlines := PostWindow.lines_postAll_empty capacity echo (created.posted k after)
  rw [hlines] at hlength hlast hempty
  refine ⟨_, ?_, hlines, hlength, hlast, hempty, fun arrived harrived => ?_⟩
  · rw [window?, hhandle]
    exact hwindow
  · exact PostWindow.echoed_of_working harrived _

/-- Three lines are posted at once into a window that keeps two, through a copy of its handle, and
another window is used in between. -/
theorem window_tail_of_copied_handle :
    let created := (empty.after [.create 5 .failing]).step (.create 2 (.working []))
    let after : List Use :=
      [.copy 1, .post 2 "a\r\nb\nc", .post 0 "x", .copy 0, .post 1 "d", .post 3 "y"]
    (created.after after).handles[2]? = some 1 ∧
      ∃ w, (created.after after).window? 2 = some w ∧ w.lines = ["c", "d"] ∧
        w.echoed = ["a", "b", "c", "d"] := by
  intro created after
  have hhandle : (created.after after).handles[2]? = some 1 := by decide
  obtain ⟨w, hw, hlines, -, -, -, hechoed⟩ :=
    (window_tail_of_history [.create 5 .failing] after 2 (.working [])).1 2 hhandle
  exact ⟨hhandle, w, hw, hlines.trans (by decide), (hechoed [] rfl).trans (by decide)⟩

end PostDesk

end Livecode
