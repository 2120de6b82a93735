import Livecode.Interpreter.Request
import Livecode.Proofs.Interpreter.Grammar
import Livecode.Proofs.Scope.Flow
import Livecode.Proofs.Text.LineEnds

/-!
# Embedded code

A program embeds the code to evaluate as a string literal. Two machines meet there: the one that
escapes code, and the one that scans source. Escaped code is a *literal body*, in which every
backslash opens a pair and no quote stands alone; the scanner, once in a string, stays in it over
such a body, whatever its line ends are, and the quote that follows closes it.

## Main results

* `unescape_escape` — the embedded code is the code without its form feeds.
* `flow_literalBody` — the scanner does not leave a string inside of a literal body.
* `program_confines` — code does not get out of its literal.
-/

namespace Livecode.Request

open Livecode.Text (foldLineEnds)
open Livecode.ScanState (withScopes)

/-! ## Literal bodies -/

/-- What may stand between the quotes of a string literal. -/
inductive LiteralBody : Text → Prop where
  | nil : LiteralBody []
  | pair {c : Char} {t : Text} (hc : c = '\\' ∨ c = '"') (h : LiteralBody t) :
      LiteralBody ('\\' :: c :: t)
  | plain {c : Char} {t : Text} (hslash : c ≠ '\\') (hquote : c ≠ '"') (h : LiteralBody t) :
      LiteralBody (c :: t)

/-- Drops the backslash of each pair. -/
def unescape : Text → Text
  | '\\' :: c :: t => c :: unescape t
  | c :: t => c :: unescape t
  | [] => []

theorem unescape_cons {c : Char} (hc : c ≠ '\\') (t : Text) :
    unescape (c :: t) = c :: unescape t := by
  conv => lhs; unfold unescape
  split <;> simp_all

theorem escape_cons (c : Char) (code : Text) : escape (c :: code) = escapeChar c ++ escape code :=
  List.flatMap_cons

/-- What becomes of a character of code. -/
theorem escapeChar_cases (c : Char) :
    (c = '\\' ∨ c = '"') ∧ escapeChar c = ['\\', c] ∨
      c = formFeed ∧ escapeChar c = [] ∨
      c ≠ '\\' ∧ c ≠ '"' ∧ c ≠ formFeed ∧ escapeChar c = [c] := by
  unfold escapeChar
  by_cases hslash : c = '\\'
  · exact .inl ⟨.inl hslash, by simp [hslash]⟩
  · by_cases hquote : c = '"'
    · exact .inl ⟨.inr hquote, by simp [hquote]⟩
    · by_cases hfeed : c = formFeed
      · exact .inr (.inl ⟨hfeed, by simp [hfeed, formFeed]⟩)
      · exact .inr (.inr ⟨hslash, hquote, hfeed, by simp [hslash, hquote, hfeed]⟩)

/-- Escaped code is a literal body. -/
theorem literalBody_escape (code : Text) : LiteralBody (escape code) := by
  induction code with
  | nil => exact .nil
  | cons c code ih =>
    rw [escape_cons]
    rcases escapeChar_cases c with ⟨hc, heq⟩ | ⟨-, heq⟩ | ⟨hslash, hquote, -, heq⟩
    · rw [heq]
      exact .pair hc ih
    · rw [heq]
      exact ih
    · rw [heq]
      exact .plain hslash hquote ih

/-- The embedded code is the code without its form feeds. -/
theorem unescape_escape (code : Text) : unescape (escape code) = code.filter (· ≠ formFeed) := by
  induction code with
  | nil => rfl
  | cons c code ih =>
    rw [escape_cons]
    rcases escapeChar_cases c with ⟨hc, heq⟩ | ⟨hfeed, heq⟩ | ⟨hslash, -, hfeed, heq⟩
    · have hfeed : c ≠ formFeed := by rcases hc with rfl | rfl <;> decide
      rw [heq, List.filter_cons_of_pos (by simp [hfeed]), ← ih]
      rfl
    · rw [heq, List.filter_cons_of_neg (by simp [hfeed]), ← ih]
      rfl
    · rw [heq, List.filter_cons_of_pos (by simp [hfeed]), ← ih]
      exact unescape_cons hslash _

/-- Folding line ends does not tear a pair apart. -/
theorem LiteralBody.foldLineEnds {t : Text} (h : LiteralBody t) (after : Option Char) :
    LiteralBody (foldLineEnds after t) := by
  induction h with
  | nil => exact .nil
  | @pair c t hc h ih =>
    have hreturn : c ≠ '\r' := by rcases hc with rfl | rfl <;> decide
    rw [Text.foldLineEnds_cons_of_ne (by decide), Text.foldLineEnds_cons_of_ne hreturn]
    exact .pair hc ih
  | plain hslash hquote h ih =>
    rw [Text.foldLineEnds_cons]
    split
    · exact ih
    · exact .plain hslash hquote ih

/-! ## The scan of a literal body -/

/-- A scanned character inside of a string literal: one that does not end the literal, or the line
feed between two of its lines. -/
def Quoted (x : Char × Option ScopeStack) : Prop :=
  x = ('\n', none) ∨ x.1 ≠ '"' ∧ x.2 = some (.nested .string) ∨ x.2 = some (.nested .escape)

/-- The scanner does not leave a string inside of a literal body. -/
theorem flow_literalBody {t : Text} (h : LiteralBody t) (after : Option Char) :
    (∀ x ∈ withScopes (ScanState.string.flow after t).1, Quoted x) ∧
      (ScanState.string.flow after t).2 = .string := by
  induction h with
  | nil => exact ⟨fun x hx => absurd hx List.not_mem_nil, rfl⟩
  | @pair c t hc h ih =>
    have hline : c ≠ '\n' := by rcases hc with rfl | rfl <;> decide
    -- the backslash keeps the scanner from seeing the quote, or the second backslash, after it
    have hflow : ScanState.string.flow after ('\\' :: c :: t) =
        (('\\', some .escape) :: (c, some .escape) :: (ScanState.string.flow after t).1,
          (ScanState.string.flow after t).2) := by
      simp [ScanState.flow_cons, ScanState.flowStep, ScanState.step, hline]
    rw [hflow]
    exact ⟨List.forall_mem_cons.2 ⟨.inr (.inr rfl),
      List.forall_mem_cons.2 ⟨.inr (.inr rfl), ih.1⟩⟩, ih.2⟩
  | @plain c t hslash hquote h ih =>
    by_cases hline : c = '\n'
    · subst hline
      exact ⟨List.forall_mem_cons.2 ⟨.inl rfl, ih.1⟩, ih.2⟩
    · have hflow : ScanState.string.flow after (c :: t) =
          ((c, some .string) :: (ScanState.string.flow after t).1,
            (ScanState.string.flow after t).2) := by
        simp [ScanState.flow_cons, ScanState.flowStep, ScanState.step, hline, hslash, hquote]
      rw [hflow]
      exact ⟨List.forall_mem_cons.2 ⟨.inr (.inl ⟨hquote, rfl⟩), ih.1⟩, ih.2⟩

/-! ## The program around the code -/

/-- Neither a carriage return nor a form feed stands after the code. -/
theorem not_mem_tail {c : Char} (hc : c = '\r' ∨ c = formFeed) (id : RequestId) : c ∉ tail id := by
  have hmarker : ¬ (Text.isDecimalDigit c = true ∨ c ∈ Marker.letters) := by
    rcases hc with rfl | rfl <;> decide
  have hstart : ∀ m : Marker, c ∉ m.start := fun m hmem =>
    hmarker (Marker.IsStart.mem ⟨m, Marker.spelled_start m⟩ hmem)
  have hfinish : c ∉ Marker.finish id := fun hmem => hmarker (Marker.mem_finish hmem)
  unfold tail printed
  simp only [List.mem_append, hstart, hfinish, or_false, not_or]
  rcases hc with rfl | rfl
  · decide +kernel
  · decide +kernel

theorem formFeed_not_mem_head : formFeed ∉ head := by decide +kernel

/-- The part of a program before the code opens the literal, whatever code follows. -/
theorem flow_head (after : Option Char) :
    ScanState.code.flow after head =
      ((ScanState.code.flow (some '"') head.dropLast).1 ++ [('"', some .string)], .string) := by
  have hsplit : head = head.dropLast ++ ['"'] := by decide +kernel
  have hcode : (ScanState.code.flow (some '"') head.dropLast).2 = .code := by decide +kernel
  rw [hsplit, ScanState.flow_append, List.dropLast_concat]
  simp only [List.head?_cons, Option.some_or, hcode]
  rfl

/-- The part of a program after the code closes the literal. -/
theorem flow_tail (id : RequestId) (after : Option Char) :
    ∃ rest, (ScanState.string.flow after (tail id)).1 =
      ('"', some .string) :: (')', some .source) :: rest := by
  obtain ⟨t, ht⟩ : ∃ t, tail id = '"' :: ')' :: t := ⟨_, rfl⟩
  rw [ht]
  exact ⟨_, rfl⟩

/-- The scan of a program is that of its three parts. -/
theorem scanText_program (id : RequestId) (code : Text) :
    Classifier.scanText (program id code) =
      withScopes (ScanState.code.flow (some '"') head).1 ++
        withScopes (ScanState.string.flow (some '"') (foldLineEnds (some '"') (escape code))).1 ++
        withScopes (ScanState.string.flow none (tail id)).1 := by
  have hfold : foldLineEnds none (program id code) =
      head ++ foldLineEnds (some '"') (escape code) ++ tail id := by
    have hhead : '\r' ∉ head := by decide +kernel
    rw [program, Text.foldLineEnds_append, Text.foldLineEnds_append,
      Text.foldLineEnds_of_not_mem _ hhead,
      Text.foldLineEnds_of_not_mem _ (not_mem_tail (.inl rfl) id)]
    rfl
  have hnext : (tail id).head?.or none = some '"' := rfl
  have hopen : ∀ after, ScanState.code.flow after head =
      ((ScanState.code.flow (some '"') head).1, .string) := fun after => by
    rw [flow_head, flow_head (some '"')]
  have hbody := (flow_literalBody ((literalBody_escape code).foldLineEnds (some '"')) (some '"')).2
  rw [Classifier.scanText_eq_flow, hfold, ScanState.flow_append, hnext, ScanState.flow_append,
    hopen]
  simp only [hbody, ScanState.withScopes_append]

/-- The characters of plain code among some scanned ones. -/
def plainCode (xs : List (Char × Option ScopeStack)) : Text :=
  (xs.filter fun x => x.2 = some .code).map Prod.fst

theorem plainCode_append (xs ys : List (Char × Option ScopeStack)) :
    plainCode (xs ++ ys) = plainCode xs ++ plainCode ys := by
  rw [plainCode, List.filter_append, List.map_append]
  rfl

theorem plainCode_of_quoted {xs : List (Char × Option ScopeStack)} (h : ∀ x ∈ xs, Quoted x) :
    plainCode xs = [] := by
  have hnone : xs.filter (fun x => x.2 = some .code) = [] := by
    refine List.filter_eq_nil_iff.2 fun x hx => ?_
    rcases h x hx with rfl | ⟨-, heq⟩ | heq
    · decide
    · rw [heq]
      decide
    · rw [heq]
      decide
  rw [plainCode, hnone, List.map_nil]

/-- Every character of the embedded code is scanned inside of its string. -/
theorem quoted_escape (code : Text) :
    ∀ x ∈ withScopes (ScanState.string.flow (some '"') (foldLineEnds (some '"') (escape code))).1,
      Quoted x :=
  (flow_literalBody ((literalBody_escape code).foldLineEnds _) _).1

theorem plainCode_program (id : RequestId) (code : Text) :
    plainCode (Classifier.scanText (program id code)) =
      plainCode (withScopes (ScanState.code.flow (some '"') head).1) ++
        plainCode (withScopes (ScanState.string.flow none (tail id)).1) := by
  rw [scanText_program, plainCode_append, plainCode_append, plainCode_of_quoted (quoted_escape code),
    List.append_nil]

/-! ## What is written -/

theorem formFeed_not_mem_program (id : RequestId) (code : Text) : formFeed ∉ program id code := by
  intro hmem
  rcases List.mem_append.1 hmem with hmem | hmem
  · rcases List.mem_append.1 hmem with hmem | hmem
    · exact formFeed_not_mem_head hmem
    · exact formFeed_not_mem_escape code hmem
  · exact not_mem_tail (.inr rfl) id hmem

/-- A program is written as it stands, with a form feed after it. -/
theorem payload_program (id : RequestId) (code : Text) :
    payload (program id code) = program id code ++ [formFeed] := by
  rw [payload, List.filter_eq_self.2]
  intro c hc
  exact decide_eq_true fun heq => formFeed_not_mem_program id code (heq ▸ hc)

/-- **Code does not get out of its program.** Read as a buffer, the program of a request is scanned
in three parts. What precedes the code and what follows it are scanned in the same way whatever the
code is: the one ends with the quote that opens a string, the other starts with the quote that
closes it. The code in between belongs to that string with every character. It is the code that was
given, without form feeds, once its escapes are undone; and the form feed that makes the interpreter
run the program is the only one that is written. -/
theorem program_confines (id : RequestId) : ∃ before after : List (Char × Option ScopeStack),
    before.map Prod.fst = head ∧ before.getLast? = some ('"', some (.nested .string)) ∧
      after.map Prod.fst = tail id ∧
      (∃ rest, after = ('"', some (.nested .string)) :: (')', some .code) :: rest) ∧
      ∀ code,
        (∃ inside, Classifier.scanText (program id code) = before ++ inside ++ after ∧
          inside.map Prod.fst = foldLineEnds (some '"') (escape code) ∧ ∀ x ∈ inside, Quoted x) ∧
        plainCode (Classifier.scanText (program id code)) =
          plainCode (Classifier.scanText (program id [])) ∧
        unescape (escape code) = code.filter (· ≠ formFeed) ∧
        payload (program id code) = program id code ++ [formFeed] ∧
        formFeed ∉ program id code := by
  obtain ⟨rest, hrest⟩ := flow_tail id none
  refine ⟨withScopes (ScanState.code.flow (some '"') head).1,
    withScopes (ScanState.string.flow none (tail id)).1, ?_, ?_, ?_, ?_, fun code => ?_⟩
  · rw [ScanState.map_fst_withScopes, ScanState.map_fst_flow]
  · rw [flow_head, ScanState.withScopes_append]
    exact List.getLast?_concat
  · rw [ScanState.map_fst_withScopes, ScanState.map_fst_flow]
  · rw [hrest]
    exact ⟨withScopes rest, rfl⟩
  · have hinside : (withScopes (ScanState.string.flow (some '"')
        (foldLineEnds (some '"') (escape code))).1).map Prod.fst =
        foldLineEnds (some '"') (escape code) := by
      rw [ScanState.map_fst_withScopes, ScanState.map_fst_flow]
    have hplain : plainCode (Classifier.scanText (program id code)) =
        plainCode (Classifier.scanText (program id [])) := by
      rw [plainCode_program, plainCode_program]
    exact ⟨⟨_, scanText_program id code, hinside, quoted_escape code⟩, hplain,
      unescape_escape code, payload_program id code, formFeed_not_mem_program id code⟩

end Livecode.Request
