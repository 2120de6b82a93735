import Livecode.Proofs.Region.Pairing
import Livecode.Proofs.Text.LineEnds
import Livecode.Scope.Classifier

/-!
# Places of parentheses

When the scopes of a buffer come from the scanner, its significant parentheses are those that the
scanner reads as plain code. Here they are read with the scanner, line after line, and each keeps
its whole position. Lines that stand below others are read from the state that these leave, so a
buffer may be cut between any two lines.

## Main results

* `find_scanBuffer` — the regions of a buffer are the lines of the groups that are read in this
  way.
* `places_append` — lines are read in the state that the lines above them leave.
* `labelled_resume` — after a character of plain code a line is read on in the same way, whatever
  it was read from.
* `places_dropReturn` — a carriage return at the end of a line makes no difference.
-/

namespace Livecode

/-- Some lines further down. -/
def Position.down (n : Nat) (p : Position) : Position := ⟨p.line + n, p.column⟩

/-! ## Lines with their kinds -/

namespace ScanState

/-- The characters of a line with their kinds. -/
def labelled (s : ScanState) (l : Text) : List (Char × Lexeme) := l.zip (s.scan l).1

/-- What some lines leave open. -/
def afterLines (s : ScanState) (ls : List Text) : ScanState := ls.foldl (fun s l => (s.scan l).2) s

variable (s : ScanState) (c : Char) (l : Text)

@[simp] theorem labelled_nil : s.labelled [] = [] := rfl

theorem labelled_cons :
    s.labelled (c :: l) = (c, (s.step c l.head?).1) :: (s.step c l.head?).2.labelled l := rfl

theorem scan_snd_cons : (s.scan (c :: l)).2 = ((s.step c l.head?).2.scan l).2 := rfl

/-- After a character of plain code the scanner is in plain code. -/
theorem step_source {s : ScanState} {c : Char} {next : Option Char}
    (h : (s.step c next).1 = .source) : (s.step c next).2 = .code := by
  have hcode : (codeStep c next).1 = .source → (codeStep c next).2 = .code := by
    intro hsource
    grind [codeStep]
  cases s with
  | code => exact hcode h
  | symbolName =>
    simp only [step] at h ⊢
    split at h
    · cases h
    · next hname =>
      rw [if_neg hname]
      exact hcode h
  | string =>
    simp only [step] at h
    split at h <;> cases h
  | _ => cases h

/-- After a character of plain code a line is read on in the same way, whatever it was read from. -/
theorem labelled_resume {s s' : ScanState} {l : Text} {c c' : Char} {k : Nat}
    (h : (s.labelled l)[k]? = some (c, .source)) (h' : (s'.labelled l)[k]? = some (c', .source)) :
    (s.labelled l).drop (k + 1) = (s'.labelled l).drop (k + 1) ∧ (s.scan l).2 = (s'.scan l).2 := by
  induction l generalizing s s' k with
  | nil => simp at h
  | cons d l ih =>
    rw [labelled_cons] at h h' ⊢
    rw [labelled_cons, scan_snd_cons, scan_snd_cons]
    cases k with
    | zero =>
      have hs := step_source (congrArg Prod.snd (Option.some.inj h))
      have hs' := step_source (congrArg Prod.snd (Option.some.inj h'))
      rw [hs, hs']
      exact ⟨rfl, rfl⟩
    | succ k => exact ih h h'

end ScanState

/-! ## Parentheses with their places -/

namespace Bracket

/-- The parentheses of plain code among characters with their kinds, each with its column. The first
character is at `column`. -/
def inCode (column : Nat) (xs : List (Char × Lexeme)) : List (Bracket × Nat) :=
  (xs.zipIdx column).filterMap fun (x, column) =>
    if x.2 = .source then (ofChar? x.1).map (·, column) else none

/-- Columns on a line are places. -/
def onLine (line : Nat) (w : List (Bracket × Nat)) : List (Bracket × Position) :=
  w.map (Prod.map id (Position.mk line))

theorem mem_onLine {line column : Nat} {w : List (Bracket × Nat)} {p : Bracket} :
    (p, ⟨line, column⟩) ∈ onLine line w ↔ (p, column) ∈ w := by
  constructor
  · intro h
    obtain ⟨⟨p', k⟩, hk, heq⟩ := List.mem_map.mp h
    obtain rfl : p' = p := congrArg Prod.fst heq
    obtain rfl : k = column := congrArg (fun x => x.2.column) heq
    exact hk
  · intro h
    exact List.mem_map.mpr ⟨(p, column), h, rfl⟩

theorem line_of_mem_onLine {line : Nat} {w : List (Bracket × Nat)} {x : Bracket × Position}
    (h : x ∈ onLine line w) : x.2.line = line := by
  obtain ⟨y, -, rfl⟩ := List.mem_map.mp h
  rfl

theorem onLine_down (n line : Nat) (w : List (Bracket × Nat)) :
    onLine (line + n) w = (onLine line w).map (Prod.map id (Position.down n)) := by
  rw [onLine, onLine, List.map_map]
  rfl

variable (column line : Nat) (xs ys : List (Char × Lexeme))

@[simp] theorem inCode_nil : inCode column [] = [] := rfl

theorem inCode_append :
    inCode column (xs ++ ys) = inCode column xs ++ inCode (column + xs.length) ys := by
  simp only [inCode, List.zipIdx_append, List.filterMap_append]

theorem inCode_cons (x : Char × Lexeme) :
    inCode column (x :: xs) = inCode column [x] ++ inCode (column + 1) xs :=
  inCode_append column [x] xs

theorem mem_inCode {column k : Nat} {xs : List (Char × Lexeme)} {p : Bracket} :
    (p, k) ∈ inCode column xs ↔
      column ≤ k ∧ ∃ c, xs[k - column]? = some (c, .source) ∧ ofChar? c = some p := by
  simp only [inCode, List.mem_filterMap, Prod.exists]
  constructor
  · rintro ⟨c, kind, i, hmem, hsome⟩
    split at hsome
    · next hsource =>
      obtain ⟨p', hp', heq⟩ := Option.map_eq_some_iff.mp hsome
      obtain ⟨rfl, rfl⟩ := Prod.mk.inj heq
      obtain ⟨hle, hget⟩ := List.mem_zipIdx_iff_le_and_getElem?_sub.mp hmem
      exact ⟨hle, c, hsource ▸ hget, hp'⟩
    · cases hsome
  · rintro ⟨hle, c, hget, hp⟩
    exact ⟨c, .source, k, List.mem_zipIdx_iff_le_and_getElem?_sub.mpr ⟨hle, hget⟩, by simp [hp]⟩

end Bracket

namespace ScanState

/-- The significant parentheses of some lines with their places. The first line is read from `s` and
has the number `line`. -/
def places (s : ScanState) (line : Nat) : List Text → List (Bracket × Position)
  | [] => []
  | l :: ls =>
    Bracket.onLine line (Bracket.inCode 0 (s.labelled l)) ++ places (s.scan l).2 (line + 1) ls

/-- Lines are read in the state that the lines above them leave. -/
theorem places_append (s : ScanState) (line : Nat) (ls ms : List Text) :
    s.places line (ls ++ ms) =
      s.places line ls ++ (s.afterLines ls).places (line + ls.length) ms := by
  induction ls generalizing s line with
  | nil => rfl
  | cons l ls ih =>
    have hline : line + 1 + ls.length = line + (l :: ls).length := by
      rw [List.length_cons]
      omega
    rw [List.cons_append, places, places, ih, List.append_assoc, hline]
    rfl

/-- A parenthesis has its place on one of the lines. -/
theorem line_of_mem_places {s : ScanState} {line : Nat} {ls : List Text} {x : Bracket × Position}
    (h : x ∈ s.places line ls) : line ≤ x.2.line ∧ x.2.line < line + ls.length := by
  induction ls generalizing s line with
  | nil => cases h
  | cons l ls ih =>
    rw [List.length_cons]
    rcases List.mem_append.mp h with hhere | hbelow
    · have := Bracket.line_of_mem_onLine hhere
      omega
    · have := ih hbelow
      omega

theorem not_mem_places {s : ScanState} {line : Nat} {ls : List Text} {p : Bracket} {q : Position}
    (h : q.line < line ∨ line + ls.length ≤ q.line) : (p, q) ∉ s.places line ls := by
  intro hmem
  obtain ⟨hle, hlt⟩ := line_of_mem_places hmem
  simp only at hle hlt
  omega

/-- The number of lines above does not matter. -/
theorem places_down (s : ScanState) (n line : Nat) (ls : List Text) :
    s.places (line + n) ls = (s.places line ls).map (Prod.map id (Position.down n)) := by
  induction ls generalizing s line with
  | nil => rfl
  | cons l ls ih =>
    have hline : line + n + 1 = line + 1 + n := by omega
    rw [places, places, hline, ih, List.map_append, Bracket.onLine_down]

end ScanState

/-! ## The scanner's map -/

theorem Lexeme.isSignificant_scopes (k : Lexeme) :
    k.scopes.isSignificant = decide (k = .source) := by
  cases k <;> decide

namespace Region

open Classifier

/-- The lines of a group. -/
def lines (g : Position × Position) : Region := ⟨g.1.line, g.2.line⟩

theorem contains_lines {g : Position × Position} {line : Nat} :
    (lines g).contains line ↔ g.1.line ≤ line ∧ line ≤ g.2.line := by
  show (decide (g.1.line ≤ line) && decide (line ≤ g.2.line)) = true ↔ _
  rw [Bool.and_eq_true, decide_eq_true_eq, decide_eq_true_eq]

theorem inLine_of_scanned {m : ScopeMap} {s : ScanState} {line : Nat} {l : Text}
    (h : m.lines[line]? = some ((s.scan l).1.map Lexeme.scopes)) :
    Bracket.inLine m line l = (Bracket.inCode 0 (s.labelled l)).map Prod.fst := by
  have hchars : (s.labelled l).map Prod.fst = l := by
    rw [ScanState.labelled, List.map_fst_zip]
    simp [ScanState.length_scan]
  have hzip : l.zipIdx = (s.labelled l).zipIdx.map (Prod.map Prod.fst id) := by
    rw [List.map_zipIdx, hchars]
  rw [Bracket.inLine, hzip, List.filterMap_map, Bracket.inCode, List.map_filterMap]
  apply List.filterMap_congr
  rintro ⟨⟨c, kind⟩, column⟩ hmem
  have hget := List.mem_zipIdx_iff_getElem?.mp hmem
  rw [ScanState.labelled, List.getElem?_zip_eq_some] at hget
  have hscopes : m.at? ⟨line, column⟩ = some kind.scopes := by
    simp [ScopeMap.at?, h, hget.2]
  by_cases hkind : kind = .source <;>
    simp [hscopes, Lexeme.isSignificant_scopes, hkind, Function.comp_def]

/-- The parentheses that the search reads are those of plain code. -/
theorem inBuffer_scanBuffer (b : Buffer) :
    Bracket.inBuffer b (scanBuffer b) =
      (ScanState.code.places 0 b.lines).map (Prod.map id Position.line) := by
  -- The rows of the map that belong to the lines above are kept general.
  have hbelow : ∀ (ls : List Text) (s : ScanState) (above : List (List ScopeStack)),
      (scanBuffer b).lines = above ++ (s.scanLines ls).map (·.map Lexeme.scopes) →
      (ls.zipIdx above.length).flatMap (fun x =>
          (Bracket.inLine (scanBuffer b) x.2 x.1).map (·, x.2)) =
        (s.places above.length ls).map (Prod.map id Position.line) := by
    intro ls
    induction ls with
    | nil =>
      intro s above _
      rfl
    | cons l ls ih =>
      intro s above habove
      have hrow : (scanBuffer b).lines[above.length]? =
          some ((s.scan l).1.map Lexeme.scopes) := by
        rw [habove]
        simp [ScanState.scanLines]
      have hrest := ih (s.scan l).2 (above ++ [(s.scan l).1.map Lexeme.scopes]) (by
        rw [habove]
        simp [ScanState.scanLines])
      rw [List.length_append, List.length_singleton] at hrest
      have hhere : (Bracket.inLine (scanBuffer b) above.length l).map (·, above.length) =
          (Bracket.onLine above.length (Bracket.inCode 0 (s.labelled l))).map
            (Prod.map id Position.line) := by
        rw [inLine_of_scanned hrow, Bracket.onLine, List.map_map, List.map_map]
        rfl
      rw [List.zipIdx_cons, List.flatMap_cons, hrest, ScanState.places, List.map_append, ← hhere]
  exact hbelow b.lines .code [] rfl

/-- The regions of a buffer are the lines of the groups of its plain code. -/
theorem find_scanBuffer (b : Buffer) :
    find b (scanBuffer b) = (pairs none (ScanState.code.places 0 b.lines)).map lines := by
  have hlines := pairs_relabel Position.line none (ScanState.code.places 0 b.lines)
  rw [find, inBuffer_scanBuffer, (groups_eq_map_pairs _ 0).1]
  have hnone : relabel Position.line none = none := rfl
  rw [hnone] at hlines
  rw [hlines, List.map_map]
  rfl

/-- The group at a line: the first one with an end on this line, or ends on both sides of it. -/
def groupAt (b : Buffer) (line : Nat) : Option (Position × Position) :=
  (pairs none (ScanState.code.places 0 b.lines)).find? fun g => (lines g).contains line

section
variable {b : Buffer} {line : Nat} {g : Position × Position}

theorem contains_of_groupAt (h : groupAt b line = some g) : (lines g).contains line := by
  have hfound := List.find?_some h
  exact hfound

/-- A group that is found does not end before it starts. -/
theorem start_le_end_of_groupAt (h : groupAt b line = some g) :
    (lines g).startLine ≤ (lines g).endLine := by
  obtain ⟨hstart, hend⟩ := contains_lines.mp (contains_of_groupAt h)
  exact Nat.le_trans hstart hend

/-- A group ends on one of the lines. -/
theorem end_lt_of_groupAt (h : groupAt b line = some g) : (lines g).endLine < b.lines.length := by
  have hclosing := (ends_of_mem_pairs (List.mem_of_find?_eq_some h)).1
  have hend := (ScanState.line_of_mem_places hclosing).2
  rwa [Nat.zero_add] at hend

end

/-- The region at a cursor has the lines of the group there. -/
theorem extract?_scanning (b : Buffer) (cursor : Position) :
    extract? scanning b cursor = .ok ((groupAt b cursor.line).map lines) := by
  have hmap : scanning.classifyBuffer b = .ok (scanBuffer b) := rfl
  rw [extract?_eq_find? cursor hmap, find_scanBuffer, List.find?_map]
  rfl

theorem extract?_scanning_eq_some {b : Buffer} {cursor : Position} {r : Region} :
    extract? scanning b cursor = .ok (some r) ↔
      ∃ g, groupAt b cursor.line = some g ∧ lines g = r := by
  rw [extract?_scanning, Except.ok.injEq, Option.map_eq_some_iff]

end Region

/-! ## Carriage returns -/

namespace ScanState

/-- At the end of a line a carriage return opens and closes nothing. -/
theorem carry_step_return (s : ScanState) : (s.step '\r' none).2.carry = s.carry := by
  have hname : isNameChar '\r' = false := by decide
  cases s with
  | closeBlock outer => cases outer <;> rfl
  | symbolName =>
    rw [step, hname]
    decide
  | _ => rfl

/-- Nor does it matter to the character before it. -/
theorem carry_step_before_return (s : ScanState) (c : Char) :
    (s.step c (some '\r')).2.carry = (s.step c none).2.carry := by
  have hname : isNameStart '\r' = false := by decide
  have hcode : (codeStep c (some '\r')).2.carry = (codeStep c none).2.carry := by
    simp only [codeStep, Option.any_some, hname]
    by_cases hc : c = '$'
    · subst hc
      rfl
    · simp [hc]
  cases s with
  | code => exact hcode
  | block outer => simp [step]
  | symbolName =>
    simp only [step]
    split
    · rfl
    · exact hcode
  | _ => rfl

/-- The kind of a parenthesis does not depend on the next character. -/
theorem step_bracket {c : Char} {p : Bracket} (h : Bracket.ofChar? c = some p) (s : ScanState)
    (next next' : Option Char) : (s.step c next).1 = (s.step c next').1 := by
  have hc : c = '(' ∨ c = ')' := by
    unfold Bracket.ofChar? at h
    split at h
    · exact .inl rfl
    · exact .inr rfl
    · cases h
  rcases hc with rfl | rfl <;> cases s <;> rfl

theorem inCode_step_return (s : ScanState) (column : Nat) (c : Char) :
    Bracket.inCode column [(c, (s.step c (some '\r')).1)] =
      Bracket.inCode column [(c, (s.step c none).1)] := by
  cases h : Bracket.ofChar? c with
  | none => simp [Bracket.inCode, h]
  | some p => rw [step_bracket h s (some '\r') none]

theorem inCode_return (column : Nat) (k : Lexeme) : Bracket.inCode column [('\r', k)] = [] := by
  cases k <;> rfl

theorem labelled_return (s : ScanState) (column : Nat) (l : Text) :
    Bracket.inCode column (s.labelled (l ++ ['\r'])) = Bracket.inCode column (s.labelled l) ∧
      (s.scan (l ++ ['\r'])).2 = (s.scan l).2 := by
  induction l generalizing s column with
  | nil => exact ⟨inCode_return column _, carry_step_return s⟩
  | cons c l ih =>
    obtain ⟨hplaces, hcarry⟩ := ih (s.step c (l.head?.or (some '\r'))).2 (column + 1)
    have hhead : (l ++ ['\r']).head? = l.head?.or (some '\r') := List.head?_append
    rw [List.cons_append, labelled_cons, labelled_cons, scan_snd_cons, scan_snd_cons, hhead,
      Bracket.inCode_cons, hplaces, hcarry]
    cases l with
    | nil =>
      refine ⟨?_, carry_step_before_return s c⟩
      rw [labelled_nil, Bracket.inCode_nil, List.append_nil]
      exact inCode_step_return s column c
    | cons d l => exact ⟨(Bracket.inCode_cons column _ _).symm, rfl⟩

/-- A carriage return at the end of a line makes no difference. -/
theorem places_dropReturn (s : ScanState) (line : Nat) (ls : List Text) :
    s.places line (ls.map Text.dropReturn) = s.places line ls := by
  induction ls generalizing s line with
  | nil => rfl
  | cons l ls ih =>
    have hline :
        Bracket.inCode 0 (s.labelled (Text.dropReturn l)) = Bracket.inCode 0 (s.labelled l) ∧
          (s.scan (Text.dropReturn l)).2 = (s.scan l).2 := by
      rcases Text.dropReturn_eq_or l with hsame | hmore
      · rw [hsame]
        exact ⟨rfl, rfl⟩
      · obtain ⟨hplaces, hcarry⟩ := labelled_return s 0 (Text.dropReturn l)
        rw [← hmore] at hplaces hcarry
        exact ⟨hplaces.symm, hcarry.symm⟩
    rw [List.map_cons, places, places, ih, hline.1, hline.2]

end ScanState

end Livecode
