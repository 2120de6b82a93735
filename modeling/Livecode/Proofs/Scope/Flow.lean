import Livecode.Proofs.Text.LineEnds
import Livecode.Scope.Classifier

/-!
# Scanning across lines

A buffer is scanned line by line. No lookahead crosses the end of a line, and what is open there is
carried over. Here the text of a buffer is scanned in one go: a line feed has no kind, hides what
follows it, and stands for the change of line. Such a scan may be cut anywhere, also in the middle
of a line, which is what an argument about a part of a text needs.

## Main results

* `flow_append` — a text is scanned piece by piece.
* `annotate_scanBuffer` — a buffer has the scopes of its text scanned in one go.
* `scanText_eq_flow` — so has a text that is read as a buffer, its line ends folded.
-/

namespace Livecode

/-- The characters of a buffer with their scopes. The line feeds between lines have none. -/
def ScopeMap.annotate (m : ScopeMap) (b : Buffer) : List (Char × Option ScopeStack) :=
  Text.join ('\n', none) (b.lines.mapIdx fun i l => l.mapIdx fun j c => (c, m.at? ⟨i, j⟩))

namespace ScanState

/-- What is seen of the next character: nothing where a line ends. -/
def ahead (next : Option Char) : Option Char := next.filter (· ≠ '\n')

/-- Reads one character of a text with several lines. -/
def flowStep (s : ScanState) (c : Char) (next : Option Char) : Option Lexeme × ScanState :=
  if c = '\n' then (none, s.carry)
  else ((s.step c (ahead next)).1, (s.step c (ahead next)).2)

/-- The kinds of the characters of a text with several lines, and what is open at its end. The text
is followed by `after`. -/
def flow (s : ScanState) (after : Option Char) : Text → List (Char × Option Lexeme) × ScanState
  | [] => ([], s)
  | c :: t =>
    let first := s.flowStep c (t.head?.or after)
    let rest := flow first.2 after t
    ((c, first.1) :: rest.1, rest.2)

theorem flow_cons (s : ScanState) (after : Option Char) (c : Char) (t : Text) :
    s.flow after (c :: t) =
      ((c, (s.flowStep c (t.head?.or after)).1) ::
          ((s.flowStep c (t.head?.or after)).2.flow after t).1,
        ((s.flowStep c (t.head?.or after)).2.flow after t).2) := rfl

/-- Scopes in the place of kinds. -/
def withScopes (xs : List (Char × Option Lexeme)) : List (Char × Option ScopeStack) :=
  xs.map (Prod.map id (Option.map Lexeme.scopes))

theorem withScopes_append (xs ys : List (Char × Option Lexeme)) :
    withScopes (xs ++ ys) = withScopes xs ++ withScopes ys := List.map_append

theorem map_fst_withScopes (xs : List (Char × Option Lexeme)) :
    (withScopes xs).map Prod.fst = xs.map Prod.fst := by
  rw [withScopes, List.map_map]
  rfl

/-- A text is scanned piece by piece. -/
theorem flow_append (s : ScanState) (after : Option Char) (a b : Text) :
    s.flow after (a ++ b) =
      ((s.flow (b.head?.or after) a).1 ++ ((s.flow (b.head?.or after) a).2.flow after b).1,
        ((s.flow (b.head?.or after) a).2.flow after b).2) := by
  induction a generalizing s with
  | nil => rfl
  | cons c a ih =>
    have hnext : (a ++ b).head?.or after = a.head?.or (b.head?.or after) := by
      cases a <;> simp
    rw [List.cons_append, flow_cons, flow_cons, hnext, ih]
    rfl

theorem map_fst_flow (s : ScanState) (after : Option Char) (t : Text) :
    (s.flow after t).1.map Prod.fst = t := by
  induction t generalizing s with
  | nil => rfl
  | cons c t ih => rw [flow_cons, List.map_cons, ih]

/-! ## Lines -/

/-- A line is scanned as it is between other lines. -/
theorem flow_line {after : Option Char} {l : Text} (s : ScanState) (hl : '\n' ∉ l)
    (hafter : ahead after = none) :
    (s.flow after l).1 = l.zip ((s.scan l).1.map some) ∧
      (s.flow after l).2.carry = (s.scan l).2 := by
  induction l generalizing s with
  | nil => exact ⟨rfl, rfl⟩
  | cons c l ih =>
    rw [List.mem_cons, not_or] at hl
    have hnext : ahead (l.head?.or after) = l.head? := by
      cases l with
      | nil => exact hafter
      | cons d l =>
        rw [List.mem_cons, not_or] at hl
        have hd : d ≠ '\n' := Ne.symm hl.2.1
        simp [ahead, hd]
    have hstep : s.flowStep c (l.head?.or after) =
        (some (s.step c l.head?).1, (s.step c l.head?).2) := by
      rw [flowStep, if_neg (Ne.symm hl.1), hnext]
    obtain ⟨hkinds, hcarry⟩ := ih (s.step c l.head?).2 hl.2
    rw [flow_cons, scan_cons, hstep]
    exact ⟨congrArg _ hkinds, hcarry⟩

/-- The scopes of a line, column by column. -/
private theorem mapIdx_scopes (l : Text) (kinds : List Lexeme) (h : kinds.length = l.length) :
    l.mapIdx (fun j c => (c, (kinds.map Lexeme.scopes)[j]?)) =
      withScopes (l.zip (kinds.map some)) := by
  refine List.ext_getElem (by simp [withScopes, h]) fun j hj hj' => ?_
  have hj : j < l.length := by simpa using hj
  simp [withScopes, h, hj]

private theorem annotate_cons (row : List ScopeStack) (rows : List (List ScopeStack)) (l : Text)
    (ls : List Text) :
    (ScopeMap.mk (row :: rows)).annotate ⟨l :: ls⟩ =
      Text.join ('\n', none) (l.mapIdx (fun j c => (c, row[j]?)) ::
        ls.mapIdx fun i l => l.mapIdx fun j c => (c, (ScopeMap.mk rows).at? ⟨i, j⟩)) := by
  rw [ScopeMap.annotate, List.mapIdx_cons]
  rfl

private theorem annotate_scanLines (s : ScanState) {ls : List Text} (h : ∀ l ∈ ls, '\n' ∉ l) :
    (ScopeMap.mk ((s.scanLines ls).map (·.map Lexeme.scopes))).annotate ⟨ls⟩ =
      withScopes (s.flow none (Text.unlines ls)).1 := by
  induction ls generalizing s with
  | nil => rfl
  | cons l ls ih =>
    have hl : '\n' ∉ l := h l List.mem_cons_self
    rw [scanLines, List.map_cons, annotate_cons, mapIdx_scopes l _ (length_scan s l)]
    cases ls with
    | nil =>
      rw [Text.unlines, Text.join, (flow_line s hl rfl).1]
      rfl
    | cons m ls =>
      have hfeed : ahead (some '\n') = none := rfl
      obtain ⟨hkinds, hcarry⟩ := flow_line s hl hfeed
      have hrest := ih (s.scan l).2 fun l hl => h l (List.mem_cons_of_mem _ hl)
      rw [ScopeMap.annotate] at hrest
      rw [Text.join_cons _ _ (by simp [List.mapIdx_cons]), Text.unlines, Text.join, flow_append,
        flow_cons, List.head?_cons, Option.some_or, hkinds, flowStep, if_pos rfl, hcarry,
        withScopes_append]
      exact congrArg (_ ++ ('\n', none) :: ·) hrest

/-- A buffer has the scopes of its text scanned in one go. -/
theorem annotate_scanBuffer (b : Buffer) (h : ∀ l ∈ b.lines, '\n' ∉ l) :
    (Classifier.scanBuffer b).annotate b =
      withScopes (flow .code none b.text).1 :=
  annotate_scanLines .code h

end ScanState

namespace Classifier

/-- The characters of a text that is read as a buffer, with their scopes. -/
def scanText (t : Text) : List (Char × Option ScopeStack) :=
  (scanBuffer (.ofText t)).annotate (.ofText t)

/-- A text that is read as a buffer has the scopes of its characters scanned in one go. -/
theorem scanText_eq_flow (t : Text) :
    scanText t = ScanState.withScopes (ScanState.code.flow none (Text.foldLineEnds none t)).1 := by
  have hlines : ∀ l ∈ (Buffer.ofText t).lines, '\n' ∉ l :=
    fun _ hl => Text.lineFeed_not_mem_of_mem_lines hl
  rw [scanText, ScanState.annotate_scanBuffer _ hlines, Buffer.text, Buffer.ofText,
    Text.unlines_lines]

end Classifier
end Livecode
