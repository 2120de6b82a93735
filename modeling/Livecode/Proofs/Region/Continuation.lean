import Livecode.Proofs.Region.Places
import Livecode.Proofs.Source.Span

/-!
# Lines below a region

A buffer grows below while a musician types. Reading goes downwards only, so what stands below may
open or close whatever it likes: the groups that are closed above stay as they are, and they stay
in front of all others. A region that was found is found again, with the same text.

## Main results

* `pairs_places_append` — the groups of some lines come before those that lines below close.
* `extract?_continued` — a region does not depend on what is typed below it.
-/

namespace Livecode.Region

open Classifier

/-! ## Groups -/

/-- The groups of some lines come before those that the lines below close. -/
theorem pairs_places_append (ls ms : List Text) :
    pairs none (ScanState.code.places 0 ls) <+:
      pairs none (ScanState.code.places 0 (ls ++ ms)) := by
  rw [ScanState.places_append, pairs_append]
  exact List.prefix_append _ _

/-- The group at a line stays the first one there. -/
theorem groupAt_append {ls : List Text} {line : Nat} {g : Position × Position}
    (h : groupAt ⟨ls⟩ line = some g) (ms : List Text) : groupAt ⟨ls ++ ms⟩ line = some g := by
  obtain ⟨below, hbelow⟩ := pairs_places_append ls ms
  have hfound : (pairs none (ScanState.code.places 0 ls)).find?
      (fun g => (lines g).contains line) = some g := h
  rw [groupAt, ← hbelow, List.find?_append, hfound, Option.some_or]

/-! ## Regions -/

/-- The text of a region does not depend on the lines below it. -/
theorem text_append {ls : List Text} {r : Region} (hle : r.startLine ≤ r.endLine)
    (hend : r.endLine < ls.length) (ms : List Text) : text ⟨ls ++ ms⟩ r = text ⟨ls⟩ r := by
  have hordered : (⟨r.startLine, 0⟩ : Position) ≤ ⟨r.endLine, Position.limit⟩ := by
    rw [Position.le_def]
    simp only
    omega
  rw [text, text, Buffer.textBetween_eq_unlines_span _ hordered,
    Buffer.textBetween_eq_unlines_span _ hordered, Buffer.span, Buffer.span,
    Buffer.spanIn_append hend]

/-- **What is typed below a region does not change it.** Whatever text `a` and the text `b` below
it are, the regions of `a` are the first ones of both together. Where a cursor finds a region in
`a`, it finds the same one in both together, and the region has the same text there. -/
theorem extract?_continued (a b : Text) :
    find (.ofText a) (scanBuffer (.ofText a)) <+:
        find (.ofText (a ++ '\n' :: b)) (scanBuffer (.ofText (a ++ '\n' :: b))) ∧
      ∀ cursor r, extract? scanning (.ofText a) cursor = .ok (some r) →
        extract? scanning (.ofText (a ++ '\n' :: b)) cursor = .ok (some r) ∧
          text (.ofText (a ++ '\n' :: b)) r = text (.ofText a) r := by
  have hlines : Buffer.ofText (a ++ '\n' :: b) = ⟨Text.lines a ++ Text.lines b⟩ :=
    congrArg Buffer.mk (Text.lines_append_lineFeed a b)
  rw [hlines]
  constructor
  · rw [find_scanBuffer, find_scanBuffer]
    exact (pairs_places_append _ _).map lines
  · intro cursor r hregion
    obtain ⟨g, hgroup, rfl⟩ := extract?_scanning_eq_some.mp hregion
    exact ⟨extract?_scanning_eq_some.mpr ⟨g, groupAt_append hgroup _, rfl⟩,
      text_append (start_le_end_of_groupAt hgroup) (end_lt_of_groupAt hgroup) _⟩

/-- The first text leaves a comment and a parenthesis open, and the second one closes them and a
third parenthesis on a line of its own. -/
theorem extract?_continued_open_ends : ∃ a b : Text,
    a = "(x\n) ((1) /*".toList ∧ b = ")*/)\n(y)".toList ∧
      extract? scanning (.ofText (a ++ '\n' :: b)) ⟨1, 3⟩ = .ok (some ⟨0, 1⟩) ∧
      text (.ofText (a ++ '\n' :: b)) ⟨0, 1⟩ = a := by
  obtain ⟨-, hregion⟩ := extract?_continued "(x\n) ((1) /*".toList ")*/)\n(y)".toList
  obtain ⟨hfound, htext⟩ := hregion ⟨1, 3⟩ ⟨0, 1⟩ (by decide)
  exact ⟨_, _, rfl, rfl, hfound, htext.trans (by decide)⟩

end Livecode.Region
