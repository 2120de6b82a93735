import Mathlib.Data.List.Forall2
import Livecode.Scope.Classifier
import Livecode.Proofs.Scope.Stride

/-!
# Scopes position by position

A classifier that knows single positions only gives a buffer its scopes by asking for one position
after the other. The scanner does the same in one pass over the buffer. The two maps agree if the
pass gives every line one stack for each of its characters, no more and no fewer, and if a line
that is reached by itself starts in the state in which the pass reaches it.

## Main results

* `eachPosition_eq_ok` — a map with a stack for every character that asking for the character gives
  is what asking for all of them gives.
* `lengths_scanBuffer` — the pass gives one stack for each character.
* `scanning_pointwise` — the map of a pass is the map of single positions, which are the positions
  of characters.
-/

namespace Livecode

/-- The character at a position, if there is one. -/
def Buffer.charAt? (b : Buffer) (p : Position) : Option Char := b.lines[p.line]?.bind (·[p.column]?)

namespace Classifier

theorem mapM_eq_ok {α β ε : Type} {f : α → Except ε β} {xs : List α} {ys : List β}
    (h : List.Forall₂ (fun x y => f x = .ok y) xs ys) : xs.mapM f = .ok ys := by
  induction h with
  | nil => rfl
  | cons hx _ ih =>
    rw [List.mapM_cons, hx, ih]
    rfl

/-- A map that has a stack for every character, the one that asking for its position gives, is what
asking for all positions gives. -/
theorem eachPosition_eq_ok {classify : Buffer → Position → Except ScopeError ScopeStack}
    {b : Buffer} {m : ScopeMap} (hlengths : m.lines.map List.length = b.lines.map List.length)
    (h : ∀ p scopes, m.at? p = some scopes → classify b p = .ok scopes) :
    eachPosition classify b = .ok m := by
  have hlength : b.lines.length = m.lines.length := by
    simpa using (congrArg List.length hlengths).symm
  have hrow : ∀ (i : Nat) (hi : i < b.lines.length) (hi' : i < m.lines.length),
      (List.range b.lines[i].length).mapM (fun column => classify b ⟨i, column⟩) =
        .ok m.lines[i] := by
    intro i hi hi'
    have hcolumns : m.lines[i].length = b.lines[i].length := by
      simpa [hi, hi'] using congrArg (·[i]?) hlengths
    refine mapM_eq_ok (List.forall₂_iff_get.mpr ⟨by simp [hcolumns], ?_⟩)
    intro column hcolumn hcolumn'
    apply h
    simp [ScopeMap.at?, hi']
  have hrows : b.lines.zipIdx.mapM (fun x =>
      (List.range x.1.length).mapM fun column => classify b ⟨x.2, column⟩) = .ok m.lines := by
    refine mapM_eq_ok (List.forall₂_iff_get.mpr ⟨by simpa using hlength, ?_⟩)
    intro i hi hi'
    simpa using hrow i (by simpa using hi) hi'
  exact congrArg (ScopeMap.mk <$> ·) hrows

/-- The pass gives one stack for each character of every line. -/
theorem lengths_scanBuffer (b : Buffer) :
    (scanBuffer b).lines.map List.length = b.lines.map List.length := by
  have hlines : ∀ (s : ScanState) (ls : List Text),
      (s.scanLines ls).map List.length = ls.map List.length := by
    intro s ls
    induction ls generalizing s with
    | nil => rfl
    | cons l ls ih => simp [ScanState.scanLines, ScanState.length_scan, ih]
  rw [scanBuffer, List.map_map, ← hlines .code b.lines]
  simp

/-- A map that gives the characters of a buffer one stack each covers their positions only. -/
theorem isSome_at?_iff {m : ScopeMap} {b : Buffer}
    (hlengths : m.lines.map List.length = b.lines.map List.length) (p : Position) :
    (m.at? p).isSome ↔ (b.charAt? p).isSome := by
  have hline : m.lines[p.line]?.map List.length = b.lines[p.line]?.map List.length := by
    simpa using congrArg (·[p.line]?) hlengths
  rw [ScopeMap.at?, Buffer.charAt?]
  cases hm : m.lines[p.line]? with
  | none =>
    have hb : b.lines[p.line]? = none := by simpa [hm] using hline.symm
    simp [hb]
  | some row =>
    obtain ⟨l, hb, hlength⟩ : ∃ l, b.lines[p.line]? = some l ∧ l.length = row.length := by
      simpa [hm] using hline.symm
    simp [hb, hlength]

/-- **One pass over a buffer agrees with classifying each position by itself.** The map has exactly
one stack for each character of every line, it is the map that asking for one position after the
other gives, and a position can be asked for exactly if it is that of a character. It makes no
difference to the map if the pass takes several characters at once. -/
theorem scanning_pointwise (b : Buffer) : ∃ m, scanning.classifyBuffer b = .ok m ∧
    (ofPositions scanning.classify).classifyBuffer b = .ok m ∧
    m.lines = (Pending.code.strideLines b.lines).map (·.map Lexeme.scopes) ∧
    m.lines.map List.length = b.lines.map List.length ∧
    ∀ p, ((∃ scopes, scanning.classify b p = .ok scopes) ↔ (b.charAt? p).isSome) ∧
      ∀ scopes, scanning.classify b p = .ok scopes ↔ m.at? p = some scopes := by
  have hlengths := lengths_scanBuffer b
  have hposition : ∀ p scopes,
      scanning.classify b p = .ok scopes ↔ (scanBuffer b).at? p = some scopes := by
    intro p scopes
    exact scanPosition_eq_ok_iff
  have hstrides : (scanBuffer b).lines =
      (Pending.code.strideLines b.lines).map (·.map Lexeme.scopes) :=
    congrArg (List.map _) (Pending.scanLines_eq_strideLines .code b.lines)
  refine ⟨scanBuffer b, rfl, ?_, hstrides, hlengths, ?_⟩
  · apply eachPosition_eq_ok hlengths
    intro p scopes hcovered
    exact (hposition p scopes).mpr hcovered
  · intro p
    refine ⟨?_, hposition p⟩
    rw [← isSome_at?_iff hlengths p, Option.isSome_iff_exists]
    exact exists_congr (hposition p)

end Classifier
end Livecode
