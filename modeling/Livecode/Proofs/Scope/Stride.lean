import Mathlib.Tactic.SplitIfs
import Livecode.Scope.Scan

/-!
# Scanning in strides

The scanner reads one character at a time and has a state for every place inside of a literal. A
reader of source text goes in strides: what belongs together is taken at once, the two characters
that open a comment, a quoted symbol up to its quote, a backslash with the name behind it. Between
two strides only a block comment or a string can be open.

A stride gives out kinds and says where the line goes on. Nothing in its definition ties the number
of kinds to the number of characters it takes, and where a line ends early a stride is cut short.
That they agree is shown by comparing the two readings, stride by stride.

## Main results

* `scan_stride` — what a stride takes at once is read alike one character at a time.
* `length_kinds` — a stride gives out as many kinds as it takes characters.
* `scan_eq_strides` — a line has the same kinds either way, and leaves the same open.
-/

namespace Livecode

/-- What may be open between two strides. -/
inductive Pending where
  | code
  | block (outer : Nat)
  | string

/-- What is taken of a line at once: the kinds that are given out, what is open then, and where the
line goes on. -/
structure Stride where
  kinds : List Lexeme
  pending : Pending
  rest : Text

namespace Pending

open ScanState (isNameChar isNameStart)

/-- As the scanner has it between two characters. -/
def state : Pending → ScanState
  | .code => .code
  | .block outer => .block outer
  | .string => .string

/-- The innermost of `outer + 1` nested block comments ends. -/
def leave : (outer : Nat) → Pending
  | 0 => .code
  | outer + 1 => .block outer

/-! ## Strides -/

/-- The rest of a quoted symbol: its kinds and what is left of the line. The character after a
backslash does not end the symbol, and the line does. -/
def quoted : Text → List Lexeme × Text
  | [] => ([], [])
  | '\\' :: _ :: t => (.symbol :: .symbol :: (quoted t).1, (quoted t).2)
  | '\'' :: t => ([.symbol], t)
  | _ :: t => (.symbol :: (quoted t).1, (quoted t).2)

/-- The stride that begins with `c`; `t` is what follows on the line. -/
def stride (p : Pending) (c : Char) (t : Text) : Stride :=
  match p with
  | .block outer =>
    if c = '*' ∧ t.head? = some '/' then ⟨[.blockComment, .blockComment], leave outer, t.tail⟩
    else if c = '/' ∧ t.head? = some '*' then
      ⟨[.blockComment, .blockComment], .block (outer + 1), t.tail⟩
    else ⟨[.blockComment], .block outer, t⟩
  | .string =>
    if c = '\\' then
      if t.head?.isSome then ⟨[.escape, .escape], .string, t.tail⟩ else ⟨[.escape], .string, t⟩
    else ⟨[.string], if c = '"' then .code else .string, t⟩
  | .code =>
    if c = '/' ∧ t.head? = some '/' then
      ⟨List.replicate (t.length + 1) .lineComment, .code, []⟩
    else if c = '/' ∧ t.head? = some '*' then ⟨[.blockComment, .blockComment], .block 0, t.tail⟩
    else if c = '"' then ⟨[.string], .string, t⟩
    else if c = '\'' then ⟨.symbol :: (quoted t).1, .code, (quoted t).2⟩
    else if c = '\\' ∧ t.head?.any isNameStart then
      ⟨.symbol :: (t.takeWhile isNameChar).map fun _ => .symbol, .code, t.dropWhile isNameChar⟩
    else if c = '$' ∧ t.head?.isSome then
      if t.head? = some '\\' ∧ t.tail ≠ [] then ⟨[.escape, .escape, .escape], .code, t.tail.tail⟩
      else ⟨[.escape, .escape], .code, t.tail⟩
    else ⟨[.source], .code, t⟩

/-! ## The scanner's way through a stride -/

/-- The kinds that are given out in front of what is scanned later. -/
def before (kinds : List Lexeme) (later : List Lexeme × ScanState) : List Lexeme × ScanState :=
  (kinds ++ later.1, later.2)

variable {s s' : ScanState} {c : Char} {t : Text} {k : Lexeme}

theorem scan_of_step (h : s.step c t.head? = (k, s')) :
    s.scan (c :: t) = before [k] (s'.scan t) := by
  rw [ScanState.scan_cons, h]
  rfl

theorem scan_lineComment (t : Text) :
    ScanState.lineComment.scan t = (List.replicate t.length .lineComment, .code) := by
  induction t with
  | nil => rfl
  | cons c t ih =>
    have hstep : ScanState.lineComment.step c t.head? = (.lineComment, .lineComment) := rfl
    rw [scan_of_step hstep, ih]
    rfl

theorem scan_symbolName (t : Text) :
    ScanState.symbolName.scan t =
      before ((t.takeWhile isNameChar).map fun _ => .symbol)
        (ScanState.code.scan (t.dropWhile isNameChar)) := by
  induction t with
  | nil => rfl
  | cons c t ih =>
    by_cases hc : isNameChar c
    · have hstep : ScanState.symbolName.step c t.head? = (.symbol, .symbolName) := if_pos hc
      rw [scan_of_step hstep, ih, List.takeWhile_cons_of_pos hc, List.dropWhile_cons_of_pos hc]
      rfl
    · have hstep : ScanState.symbolName.step c t.head? = ScanState.code.step c t.head? :=
        if_neg hc
      rw [ScanState.scan_cons, hstep, List.takeWhile_cons_of_neg hc, List.dropWhile_cons_of_neg hc]
      rfl

theorem scan_quotedSymbol (t : Text) :
    ScanState.quotedSymbol.scan t = before (quoted t).1 (ScanState.code.scan (quoted t).2) := by
  induction t using quoted.induct with
  | case1 => rfl
  | case2 d t ih =>
    have hstep : ScanState.quotedEscape.step d t.head? = (.symbol, .quotedSymbol) := rfl
    have hslash : ScanState.quotedSymbol.step '\\' (some d) = (.symbol, .quotedEscape) := rfl
    rw [scan_of_step hslash, scan_of_step hstep, ih]
    rfl
  | case3 t =>
    have hstep : ScanState.quotedSymbol.step '\'' t.head? = (.symbol, .code) := rfl
    rw [scan_of_step hstep]
    rfl
  | case4 c t hpair hquote ih =>
    have hquoted : quoted (c :: t) = (.symbol :: (quoted t).1, (quoted t).2) := by
      rw [quoted] <;> assumption
    rw [hquoted]
    by_cases hslash : c = '\\'
    · -- A backslash that no character follows.
      obtain rfl : t = [] := by
        cases t with
        | nil => rfl
        | cons d t => exact absurd rfl (hpair d t hslash)
      rw [hslash]
      rfl
    · have hstep : ScanState.quotedSymbol.step c t.head? = (.symbol, .quotedSymbol) := by
        have hclose : c ≠ '\'' := hquote
        simp [ScanState.step, hslash, hclose]
      rw [scan_of_step hstep, ih]
      rfl

theorem exists_cons_of_head? {d : Char} (h : t.head? = some d) : t = d :: t.tail := by
  cases t with
  | nil => cases h
  | cons e t =>
    obtain rfl := Option.some.inj h
    rfl

/-- Two characters that are read one after the other. -/
theorem scan_of_steps {s'' : ScanState} {d : Char} {k' : Lexeme} (hd : t.head? = some d)
    (h : s.step c (some d) = (k, s')) (h' : s'.step d t.tail.head? = (k', s'')) :
    s.scan (c :: t) = before [k, k'] (s''.scan t.tail) := by
  rw [exists_cons_of_head? hd, scan_of_step h, scan_of_step h']
  rfl

/-- **What a stride takes at once is read alike one character at a time.** -/
theorem scan_stride (p : Pending) (c : Char) (t : Text) :
    p.state.scan (c :: t) =
      before (p.stride c t).kinds ((p.stride c t).pending.state.scan (p.stride c t).rest) := by
  cases p with
  | block outer =>
    simp only [stride]
    split_ifs with hclose hopen
    · obtain ⟨rfl, hnext⟩ := hclose
      have hleave : (leave outer).state = ScanState.leaveBlock outer := by cases outer <;> rfl
      rw [hleave]
      exact scan_of_steps hnext rfl rfl
    · obtain ⟨rfl, hnext⟩ := hopen
      exact scan_of_steps hnext rfl rfl
    · exact scan_of_step (by simp [state, ScanState.step, hclose, hopen])
  | string =>
    simp only [stride]
    split_ifs with hslash hnext hquote
    · obtain ⟨d, hd⟩ := Option.isSome_iff_exists.mp hnext
      subst hslash
      exact scan_of_steps hd rfl rfl
    · -- The line ends behind the backslash.
      obtain rfl : t = [] := by simpa using hnext
      subst hslash
      rfl
    · subst hquote
      exact scan_of_step rfl
    · exact scan_of_step (by simp [state, ScanState.step, hslash, hquote])
  | code =>
    simp only [stride]
    split_ifs with hline hblock hstring hquote hname hdollar hescaped
    · obtain ⟨rfl, hnext⟩ := hline
      have hstep : ScanState.code.step '/' t.head? = (.lineComment, .lineComment) := by
        rw [hnext]
        rfl
      show ScanState.code.scan _ = _
      rw [scan_of_step hstep, scan_lineComment]
      simp [before, state, ScanState.carry, List.replicate_succ]
    · obtain ⟨rfl, hnext⟩ := hblock
      exact scan_of_steps hnext rfl rfl
    · subst hstring
      exact scan_of_step rfl
    · subst hquote
      have hstep : ScanState.code.step '\'' t.head? = (.symbol, .quotedSymbol) := rfl
      show ScanState.code.scan _ = _
      rw [scan_of_step hstep, scan_quotedSymbol]
      rfl
    · obtain ⟨rfl, hfirst⟩ := hname
      have hstep : ScanState.code.step '\\' t.head? = (.symbol, .symbolName) := by
        simp [ScanState.step, ScanState.codeStep, hfirst]
      show ScanState.code.scan _ = _
      rw [scan_of_step hstep, scan_symbolName]
      rfl
    · obtain ⟨rfl, -⟩ := hdollar
      obtain ⟨hnext, hmore⟩ := hescaped
      obtain ⟨e, t', ht'⟩ := List.exists_cons_of_ne_nil hmore
      have hpair : ScanState.code.scan ('$' :: t) =
          before [.escape, .escape] (ScanState.charEscape.scan t.tail) :=
        scan_of_steps hnext rfl rfl
      have hstep : ScanState.charEscape.step e t'.head? = (.escape, .code) := rfl
      show ScanState.code.scan _ = _
      rw [hpair, ht', scan_of_step hstep]
      rfl
    · obtain ⟨rfl, hnext⟩ := hdollar
      obtain ⟨d, hd⟩ := Option.isSome_iff_exists.mp hnext
      by_cases hslash : d = '\\'
      · -- A backslash that no character follows.
        have hend : t.tail = [] := by simpa [hd, hslash] using hescaped
        subst hslash
        show ScanState.code.scan _ = _
        rw [scan_of_steps hd rfl rfl, hend]
        rfl
      · have hpair : ScanState.charLiteral.step d t.tail.head? = (.escape, .code) := by
          simp [ScanState.step, hslash]
        exact scan_of_steps hd rfl hpair
    · have hstep : ScanState.code.step c t.head? = (.source, .code) := by
        rw [ScanState.step, ScanState.codeStep, if_neg hline, if_neg hblock, if_neg hstring,
          if_neg hquote, if_neg hname, if_neg hdollar]
      exact scan_of_step hstep

/-! ## Kinds and characters -/

theorem kinds_ne_nil (p : Pending) (c : Char) (t : Text) : (p.stride c t).kinds ≠ [] := by
  cases p with
  | block outer =>
    simp only [stride]
    split_ifs <;> exact List.cons_ne_nil _ _
  | string =>
    simp only [stride]
    split_ifs <;> exact List.cons_ne_nil _ _
  | code =>
    simp only [stride]
    split_ifs <;> exact List.cons_ne_nil _ _

/-- Together a stride and what it leaves make up the line. -/
theorem length_kinds (p : Pending) (c : Char) (t : Text) :
    (p.stride c t).kinds.length + (p.stride c t).rest.length = (c :: t).length := by
  have hscan := congrArg (fun r => r.1.length) (scan_stride p c t)
  simp only [before, List.length_append, ScanState.length_scan] at hscan
  exact hscan.symm

theorem length_rest_lt (p : Pending) (c : Char) (t : Text) :
    (p.stride c t).rest.length < (c :: t).length := by
  have hkinds := List.length_pos_iff.mpr (kinds_ne_nil p c t)
  have hlength := length_kinds p c t
  omega

/-! ## Lines -/

/-- The kinds of a line that is taken stride by stride, and what is open at its end. -/
def strides (p : Pending) : Text → List Lexeme × Pending
  | [] => ([], p)
  | c :: t =>
    let rest := strides (p.stride c t).pending (p.stride c t).rest
    ((p.stride c t).kinds ++ rest.1, rest.2)
termination_by t => t.length
decreasing_by exact length_rest_lt p c t

/-- The kinds of consecutive lines that are taken stride by stride. -/
def strideLines (p : Pending) : List Text → List (List Lexeme)
  | [] => []
  | l :: ls => (p.strides l).1 :: strideLines (p.strides l).2 ls

/-- **A line has the same kinds in strides and character by character**, and leaves the same open.
-/
theorem scan_eq_strides (p : Pending) (t : Text) :
    p.state.scan t = ((p.strides t).1, (p.strides t).2.state) := by
  induction p, t using strides.induct with
  | case1 p =>
    rw [strides]
    cases p <;> rfl
  | case2 p c t ih =>
    rw [scan_stride, ih, strides]
    rfl

theorem scanLines_eq_strideLines (p : Pending) (ls : List Text) :
    p.state.scanLines ls = p.strideLines ls := by
  induction ls generalizing p with
  | nil => rfl
  | cons l ls ih => rw [ScanState.scanLines, scan_eq_strides, ih, strideLines]

end Pending
end Livecode
