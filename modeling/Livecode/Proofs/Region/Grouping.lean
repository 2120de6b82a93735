import Mathlib.Algebra.BigOperators.Group.List.Basic
import Mathlib.Algebra.Ring.Int.Defs
import Livecode.Region

/-!
# Groups of parentheses

A region search reads the significant parentheses of a buffer once, with a counter that never goes
below zero. What it finds is a property of the word that they form. The word is cut, in one way
only, into stray closing parentheses and groups: a group is opened, holds a balanced word, and is
closed. At the end there may be one more opening parenthesis whose group is never closed.

Balance is defined by depth alone. The depth of a word is the number of parentheses it opens less
the number it closes; a word *stays up* from a depth if no prefix takes it below zero. The counter of
the search and the depth are tied together by one run lemma.

## Main results

* `groups_append_of_staysUp` — the search keeps count while the depth stays up.
* `word_injective` — a word is cut into groups in one way only.
* `exists_word_eq` — every word is cut into groups.
* `find_groups_of_word` — the regions of a buffer are the groups of its parentheses.
-/

namespace Livecode.Region

/-! ## Depth -/

/-- What a parenthesis does to the depth. -/
def change : Bracket → Int
  | .opening => 1
  | .closing => -1

theorem natCast_opening (d : Nat) : ((d + 1 : Nat) : Int) = d + change .opening := by
  simp [change]

theorem natCast_closing (d : Nat) : (d : Int) = ((d + 1 : Nat) : Int) + change .closing := by
  simp only [change]
  omega

/-- The parentheses that a word opens, less those that it closes. -/
def depth (w : List (Bracket × Nat)) : Int := (w.map (change ·.1)).sum

/-- No prefix takes the depth below zero. -/
def StaysUp (d : Int) (w : List (Bracket × Nat)) : Prop := ∀ p, p <+: w → 0 ≤ d + depth p

/-- Every parenthesis has its partner. -/
def Balanced (w : List (Bracket × Nat)) : Prop := StaysUp 0 w ∧ depth w = 0

@[simp] theorem depth_nil : depth [] = 0 := rfl

@[simp] theorem depth_cons (b : Bracket) (line : Nat) (w : List (Bracket × Nat)) :
    depth ((b, line) :: w) = change b + depth w := rfl

theorem depth_append (v w : List (Bracket × Nat)) : depth (v ++ w) = depth v + depth w := by
  simp [depth]

theorem staysUp_nil {d : Int} : StaysUp d [] ↔ 0 ≤ d := by
  constructor
  · intro h
    simpa using h [] List.prefix_rfl
  · intro hd p hp
    rw [List.prefix_nil.1 hp]
    simpa using hd

theorem staysUp_cons {d : Int} {b : Bracket} {line : Nat} {w : List (Bracket × Nat)} :
    StaysUp d ((b, line) :: w) ↔ 0 ≤ d ∧ StaysUp (d + change b) w := by
  constructor
  · intro h
    refine ⟨by simpa using h [] List.nil_prefix, fun p hp => ?_⟩
    have hpre := h ((b, line) :: p) (List.cons_prefix_cons.2 ⟨rfl, hp⟩)
    rw [depth_cons] at hpre
    omega
  · rintro ⟨hd, h⟩ q hq
    cases q with
    | nil => simpa using hd
    | cons x p =>
      obtain ⟨rfl, hp⟩ := List.cons_prefix_cons.1 hq
      have hpre := h p hp
      rw [depth_cons]
      omega

/-- A word stays up, or there is a first parenthesis that takes it below zero. -/
theorem staysUp_or_falls (d : Nat) (w : List (Bracket × Nat)) :
    StaysUp d w ∨ ∃ u line v, w = u ++ (.closing, line) :: v ∧ StaysUp d u ∧ d + depth u = 0 := by
  induction w generalizing d with
  | nil => exact .inl (staysUp_nil.2 (Int.natCast_nonneg d))
  | cons x w ih =>
    obtain ⟨b, line⟩ := x
    cases b with
    | opening =>
      have hd := natCast_opening d
      rcases ih (d + 1) with h | ⟨u, l, v, rfl, hu, hdepth⟩
      · exact .inl (staysUp_cons.2 ⟨Int.natCast_nonneg d, hd ▸ h⟩)
      · refine .inr ⟨(.opening, line) :: u, l, v, rfl, ?_, ?_⟩
        · exact staysUp_cons.2 ⟨Int.natCast_nonneg d, hd ▸ hu⟩
        · rw [depth_cons]
          omega
    | closing =>
      cases d with
      | zero => exact .inr ⟨[], line, w, rfl, staysUp_nil.2 (by decide), rfl⟩
      | succ d =>
        have hd := natCast_closing d
        rcases ih d with h | ⟨u, l, v, rfl, hu, hdepth⟩
        · exact .inl (staysUp_cons.2 ⟨Int.natCast_nonneg _, hd ▸ h⟩)
        · refine .inr ⟨(.closing, line) :: u, l, v, rfl, ?_, ?_⟩
          · exact staysUp_cons.2 ⟨Int.natCast_nonneg _, hd ▸ hu⟩
          · rw [depth_cons]
            omega

/-- Of two readings that start alike, one that stays up does not go on where the other falls. -/
theorem prefix_of_append_eq {u v x z : List (Bracket × Nat)} {line : Nat} (hu : Balanced u)
    (hv : StaysUp 0 v) (h : u ++ (.closing, line) :: x = v ++ z) : v <+: u := by
  rcases List.append_eq_append_iff.1 h with ⟨t, rfl, ht⟩ | ⟨t, rfl, -⟩
  · cases t with
    | nil => simp
    | cons y t =>
      obtain ⟨rfl, -⟩ := List.cons.inj ht
      have hfall := hv (u ++ [(.closing, line)]) ⟨t, by simp⟩
      have hzero := hu.2
      rw [depth_append, depth_cons, depth_nil, change] at hfall
      omega
  · exact List.prefix_append v t

/-! ## The search -/

/-- The search keeps count while the depth stays up. -/
theorem groups_append_of_staysUp {d : Nat} {w : List (Bracket × Nat)} (h : StaysUp d w)
    (start : Nat) (rest : List (Bracket × Nat)) :
    groups (d + 1) start (w ++ rest) = groups ((d + depth w).toNat + 1) start rest := by
  induction w generalizing d with
  | nil => simp
  | cons x w ih =>
    obtain ⟨b, line⟩ := x
    obtain ⟨-, h⟩ := staysUp_cons.1 h
    cases b with
    | opening =>
      have hd := natCast_opening d
      rw [List.cons_append, groups, ih (hd ▸ h), depth_cons, ← Int.add_assoc, hd]
    | closing =>
      cases d with
      | zero =>
        have hfall := h [] List.nil_prefix
        simp [change] at hfall
      | succ d =>
        have hd := natCast_closing d
        rw [List.cons_append, groups, ih (hd ▸ h), depth_cons, ← Int.add_assoc, ← hd]

/-- Closing parentheses that close nothing are passed over. -/
theorem groups_strays (strays : List Nat) (start : Nat) (rest : List (Bracket × Nat)) :
    groups 0 start (strays.map (Bracket.closing, ·) ++ rest) = groups 0 start rest := by
  induction strays with
  | nil => rfl
  | cons line strays ih => exact ih

/-! ## Groups -/

/-- A group of parentheses: one that opens it, one that closes it, and what stands between. -/
structure Group where
  opening : Nat
  inside : List (Bracket × Nat)
  closing : Nat
  balanced : Balanced inside

/-- An opening parenthesis whose group is never closed, and all that follows it. -/
structure Unclosed where
  opening : Nat
  rest : List (Bracket × Nat)
  staysUp : StaysUp 0 rest

/-- A word cut into groups. Each group comes after a run of closing parentheses that close nothing,
given by their lines, and so does the end. -/
structure Grouping where
  groups : List (List Nat × Group)
  strays : List Nat
  unclosed : Option Unclosed

/-- The parentheses of the group. -/
def Group.word (g : Group) : List (Bracket × Nat) :=
  (.opening, g.opening) :: (g.inside ++ [(.closing, g.closing)])

/-- The lines of the group. -/
def Group.region (g : Group) : Region := ⟨g.opening, g.closing⟩

def Unclosed.word (u : Unclosed) : List (Bracket × Nat) := (.opening, u.opening) :: u.rest

namespace Grouping

/-- A run of closing parentheses. -/
def strayWord (strays : List Nat) : List (Bracket × Nat) := strays.map (.closing, ·)

/-- The parentheses that follow the last group. -/
def endWord (strays : List Nat) (unclosed : Option Unclosed) : List (Bracket × Nat) :=
  strayWord strays ++ unclosed.elim [] Unclosed.word

/-- The word that is cut. -/
def word (g : Grouping) : List (Bracket × Nat) :=
  g.groups.flatMap (fun (run, k) => strayWord run ++ k.word) ++ endWord g.strays g.unclosed

/-- The lines of the groups. -/
def regions (g : Grouping) : List Region := g.groups.map fun (_, k) => k.region

/-! ### One way to cut -/

/-- A word does not start with a closing parenthesis. -/
def NoStray (w : List (Bracket × Nat)) : Prop := ∀ line v, w ≠ (.closing, line) :: v

theorem noStray_group (k : Group) (w : List (Bracket × Nat)) : NoStray (k.word ++ w) := by
  intro line v h
  cases h

theorem noStray_unclosed (u : Option Unclosed) : NoStray (u.elim [] Unclosed.word) := by
  intro line v h
  cases u with
  | none => cases h
  | some u => cases h

/-- A run of closing parentheses ends where the next one does not follow. -/
theorem strayWord_cancel {run run' : List Nat} {v w : List (Bracket × Nat)} (hv : NoStray v)
    (hw : NoStray w) (h : strayWord run ++ v = strayWord run' ++ w) : run = run' ∧ v = w := by
  induction run generalizing run' with
  | nil =>
    cases run' with
    | nil => exact ⟨rfl, h⟩
    | cons line run' => exact absurd h (hv line _)
  | cons line run ih =>
    cases run' with
    | nil => exact absurd h.symm (hw line _)
    | cons line' run' =>
      obtain ⟨hline, hrest⟩ := List.cons.inj h
      obtain ⟨rfl, hv⟩ := ih hrest
      obtain ⟨-, rfl⟩ := Prod.mk.inj hline
      exact ⟨rfl, hv⟩

/-- A group ends where its first parenthesis finds its partner. -/
theorem group_cancel {k k' : Group} {v w : List (Bracket × Nat)} (h : k.word ++ v = k'.word ++ w) :
    k = k' ∧ v = w := by
  obtain ⟨opening, inside, closing, hbal⟩ := k
  obtain ⟨opening', inside', closing', hbal'⟩ := k'
  simp only [Group.word, List.cons_append, List.append_assoc, List.nil_append, List.cons.injEq,
    Prod.mk.injEq, true_and] at h
  obtain ⟨rfl, h⟩ := h
  have hle := prefix_of_append_eq hbal hbal'.1 h
  have hge := prefix_of_append_eq hbal' hbal.1 h.symm
  obtain rfl := hge.eq_of_length_le hle.length_le
  simp only [List.append_cancel_left_eq, List.cons.injEq, Prod.mk.injEq, true_and] at h
  obtain ⟨rfl, rfl⟩ := h
  exact ⟨rfl, rfl⟩

/-- A group that is closed is not one that is never closed. -/
theorem group_ne_unclosed (k : Group) (v : List (Bracket × Nat)) (u : Option Unclosed) :
    k.word ++ v ≠ u.elim [] Unclosed.word := by
  intro h
  cases u with
  | none => cases h
  | some u =>
    simp only [Group.word, Unclosed.word, Option.elim_some, List.cons_append, List.append_assoc,
      List.nil_append, List.cons.injEq] at h
    have hpre := prefix_of_append_eq (z := []) k.balanced u.staysUp (by rw [h.2, List.append_nil])
    have hlength := congrArg List.length h.2
    have hle := hpre.length_le
    simp only [List.length_append, List.length_cons] at hlength
    omega

theorem unclosed_cancel {u u' : Option Unclosed}
    (h : u.elim [] Unclosed.word = u'.elim [] Unclosed.word) : u = u' := by
  cases u with
  | none =>
    cases u' with
    | none => rfl
    | some u' => cases h
  | some u =>
    cases u' with
    | none => cases h
    | some u' =>
      obtain ⟨opening, rest, hrest⟩ := u
      obtain ⟨opening', rest', hrest'⟩ := u'
      cases h
      rfl

/-- **A word is cut into groups in one way only.** -/
theorem word_injective {g g' : Grouping} (h : g.word = g'.word) : g = g' := by
  obtain ⟨groups, strays, unclosed⟩ := g
  obtain ⟨groups', strays', unclosed'⟩ := g'
  induction groups generalizing groups' with
  | nil =>
    cases groups' with
    | nil =>
      obtain ⟨rfl, hend⟩ := strayWord_cancel (noStray_unclosed _) (noStray_unclosed _) h
      obtain rfl := unclosed_cancel hend
      rfl
    | cons x groups' =>
      obtain ⟨run, k⟩ := x
      simp only [word, endWord, List.flatMap_nil, List.nil_append, List.flatMap_cons,
        List.append_assoc] at h
      obtain ⟨-, hend⟩ := strayWord_cancel (noStray_unclosed _) (noStray_group _ _) h
      exact absurd hend.symm (group_ne_unclosed _ _ _)
  | cons x groups ih =>
    obtain ⟨run, k⟩ := x
    cases groups' with
    | nil =>
      simp only [word, endWord, List.flatMap_nil, List.nil_append, List.flatMap_cons,
        List.append_assoc] at h
      obtain ⟨-, hend⟩ := strayWord_cancel (noStray_group _ _) (noStray_unclosed _) h
      exact absurd hend (group_ne_unclosed _ _ _)
    | cons x groups' =>
      obtain ⟨run', k'⟩ := x
      simp only [word, List.flatMap_cons, List.append_assoc] at h
      obtain ⟨rfl, hgroup⟩ := strayWord_cancel (noStray_group _ _) (noStray_group _ _) h
      obtain ⟨rfl, hrest⟩ := group_cancel hgroup
      have heq := ih groups' hrest
      simp only [mk.injEq] at heq ⊢
      exact ⟨congrArg _ heq.1, heq.2⟩

/-! ### Cutting -/

/-- The grouping of a word with a stray parenthesis in front. -/
def addStray (line : Nat) : Grouping → Grouping
  | ⟨[], strays, unclosed⟩ => ⟨[], line :: strays, unclosed⟩
  | ⟨(run, k) :: groups, strays, unclosed⟩ => ⟨(line :: run, k) :: groups, strays, unclosed⟩

theorem word_addStray (line : Nat) (g : Grouping) :
    (g.addStray line).word = (.closing, line) :: g.word := by
  obtain ⟨groups, strays, unclosed⟩ := g
  cases groups with
  | nil => rfl
  | cons x groups => rfl

/-- Every word is cut into groups. -/
theorem exists_word_eq (w : List (Bracket × Nat)) : ∃ g : Grouping, g.word = w := by
  match w with
  | [] => exact ⟨⟨[], [], none⟩, rfl⟩
  | (.closing, line) :: w =>
    obtain ⟨g, rfl⟩ := exists_word_eq w
    exact ⟨g.addStray line, word_addStray line g⟩
  | (.opening, line) :: w =>
    rcases staysUp_or_falls 0 w with h | ⟨u, l, v, hw, hu, hdepth⟩
    · exact ⟨⟨[], [], some ⟨line, w, h⟩⟩, rfl⟩
    · have hlt : v.length < w.length := by
        rw [hw, List.length_append, List.length_cons]
        omega
      obtain ⟨g, hg⟩ := exists_word_eq v
      have hbal : Balanced u := ⟨hu, by simpa using hdepth⟩
      refine ⟨⟨([], ⟨line, u, l, hbal⟩) :: g.groups, g.strays, g.unclosed⟩, ?_⟩
      rw [hw, ← hg]
      simp [word, strayWord, Group.word]
termination_by w.length
decreasing_by
  · simp
  · simp only [List.length_cons]
    omega

/-! ### The groups are found -/

theorem groups_group (k : Group) (start : Nat) (rest : List (Bracket × Nat)) :
    Region.groups 0 start (k.word ++ rest) =
      k.region :: Region.groups 0 k.opening rest := by
  have hrun := groups_append_of_staysUp (d := 0) k.balanced.1 k.opening
    ((.closing, k.closing) :: rest)
  rw [k.balanced.2] at hrun
  simp only [Group.word, List.cons_append, List.append_assoc, List.nil_append, Region.groups]
  rw [hrun]
  rfl

theorem groups_unclosed (u : Option Unclosed) (start : Nat) :
    Region.groups 0 start (u.elim [] Unclosed.word) = [] := by
  cases u with
  | none => rfl
  | some u =>
    have hrun := groups_append_of_staysUp (d := 0) u.staysUp u.opening []
    rw [List.append_nil] at hrun
    exact hrun

/-- The search finds the groups, in their order. -/
theorem groups_word (g : Grouping) (start : Nat) : Region.groups 0 start g.word = g.regions := by
  obtain ⟨groups, strays, unclosed⟩ := g
  induction groups generalizing start with
  | nil => exact (groups_strays strays start _).trans (groups_unclosed unclosed start)
  | cons x groups ih =>
    obtain ⟨run, k⟩ := x
    have hsplit : word ⟨(run, k) :: groups, strays, unclosed⟩ =
        strayWord run ++ (k.word ++ word ⟨groups, strays, unclosed⟩) := by
      simp only [word, List.flatMap_cons, List.append_assoc]
    rw [hsplit, strayWord, groups_strays, groups_group, ih]
    rfl

end Grouping

/-! ## The parentheses of a buffer -/

/-- The characters of a buffer in reading order. -/
def characters (b : Buffer) : List (Position × Char) :=
  b.lines.zipIdx.flatMap fun (t, line) => t.zipIdx.map fun (c, column) => (⟨line, column⟩, c)

/-- A character whose scopes are not known counts as one that carries structure. -/
def Significant (m : ScopeMap) (p : Position) : Prop :=
  ∀ s, m.at? p = some s → s.innermost.isInert = false

theorem significant_iff (m : ScopeMap) (p : Position) :
    Significant m p ↔ (m.at? p).all ScopeStack.isSignificant = true := by
  cases h : m.at? p <;> simp [Significant, h, ScopeStack.isSignificant]

instance (m : ScopeMap) (p : Position) : Decidable (Significant m p) :=
  decidable_of_iff _ (significant_iff m p).symm

/-- The significant parentheses among characters. -/
def parenthesesIn (m : ScopeMap) (xs : List (Position × Char)) : List (Bracket × Nat) :=
  (xs.filter fun x => Significant m x.1).filterMap fun x =>
    (Bracket.ofChar? x.2).map (·, x.1.line)

/-- The significant parentheses of a buffer in reading order, each with its line. -/
def parentheses (b : Buffer) (m : ScopeMap) : List (Bracket × Nat) :=
  parenthesesIn m (characters b)

theorem parenthesesIn_append (m : ScopeMap) (xs ys : List (Position × Char)) :
    parenthesesIn m (xs ++ ys) = parenthesesIn m xs ++ parenthesesIn m ys := by
  simp only [parenthesesIn, List.filter_append, List.filterMap_append]

theorem inLine_eq_parenthesesIn (m : ScopeMap) (line : Nat) (t : Text) :
    (Bracket.inLine m line t).map (·, line) =
      parenthesesIn m (t.zipIdx.map fun (c, column) => (⟨line, column⟩, c)) := by
  unfold Bracket.inLine parenthesesIn
  induction t.zipIdx with
  | nil => rfl
  | cons x xs ih =>
    obtain ⟨c, column⟩ := x
    by_cases h : Significant m ⟨line, column⟩
    · have hall := (significant_iff m ⟨line, column⟩).mp h
      cases hc : Bracket.ofChar? c <;> simp [h, hall, hc, ih]
    · have hall := mt (significant_iff m ⟨line, column⟩).mpr h
      rw [List.map_cons, List.filter_cons_of_neg (by simpa using h), ← ih]
      exact congrArg _ (List.filterMap_cons_none (if_neg hall))

/-- The parentheses that the search reads are the significant ones. -/
theorem inBuffer_eq_parentheses (b : Buffer) (m : ScopeMap) :
    Bracket.inBuffer b m = parentheses b m := by
  unfold Bracket.inBuffer parentheses characters
  induction b.lines.zipIdx with
  | nil => rfl
  | cons x xs ih =>
    obtain ⟨t, line⟩ := x
    rw [List.flatMap_cons, List.flatMap_cons, parenthesesIn_append, ih]
    exact congrArg (· ++ _) (inLine_eq_parenthesesIn m line t)

/-! ## Main result -/

/-- **The regions of a buffer are the groups of its parentheses.** For any scopes, the significant
parentheses are cut into groups in exactly one way. The regions are the lines of these groups, in
order, and the region at a cursor is the first of them that has the line of the cursor; there is
none just if no group has that line. -/
theorem find_groups_of_word (b : Buffer) (m : ScopeMap) : ∃ g : Grouping,
    (∀ g' : Grouping, g'.word = parentheses b m ↔ g' = g) ∧
      find b m = g.regions ∧
      ∀ k : Classifier, k.classifyBuffer b = .ok m → ∀ cursor : Position,
        extract? k b cursor = .ok (g.regions.find? (·.contains cursor.line)) ∧
          (extract? k b cursor = .ok none ↔
            ∀ r ∈ g.regions, ¬ (r.startLine ≤ cursor.line ∧ cursor.line ≤ r.endLine)) := by
  obtain ⟨g, hg⟩ := Grouping.exists_word_eq (parentheses b m)
  have hfind : find b m = g.regions := by
    rw [find, inBuffer_eq_parentheses, ← hg, Grouping.groups_word]
  refine ⟨g, fun g' => ⟨fun h => Grouping.word_injective (h.trans hg.symm), fun h => h ▸ hg⟩,
    hfind, fun k hk cursor => ?_⟩
  have hextract := extract?_eq_find? cursor hk
  rw [hfind] at hextract
  refine ⟨hextract, ?_⟩
  rw [hextract, Except.ok.injEq, List.find?_eq_none]
  simp [contains]

/-- Two groups share a line, the map is shorter than the buffer, one bracket is in a string, and at
the end a group is never closed. -/
theorem extract?_shared_line : ∃ (k : Classifier) (b : Buffer) (m : ScopeMap),
    b.text = ")(a\n(\")\") b) (\nx) ((".toList ∧ k.classifyBuffer b = .ok m ∧
      find b m = [⟨0, 1⟩, ⟨1, 2⟩] ∧ extract? k b ⟨1, 0⟩ = .ok (some ⟨0, 1⟩) ∧
      extract? k b ⟨2, 9⟩ = .ok (some ⟨1, 2⟩) ∧ extract? k b ⟨3, 0⟩ = .ok none := by
  let b : Buffer := .ofText ")(a\n(\")\") b) (\nx) (("
  let m : ScopeMap := ⟨[[], [.code, .nested .string, .nested .string, .nested .string]]⟩
  let k : Classifier := ⟨fun _ _ => .ok .code, fun _ => .ok m⟩
  obtain ⟨g, -, hfind, hextract⟩ := find_groups_of_word b m
  have hregions : g.regions = [⟨0, 1⟩, ⟨1, 2⟩] := hfind.symm.trans (by decide)
  rw [hregions] at hfind hextract
  have hfar : ∀ r ∈ [Region.mk 0 1, ⟨1, 2⟩], ¬ (r.startLine ≤ 3 ∧ 3 ≤ r.endLine) := by decide
  exact ⟨k, b, m, by decide, rfl, hfind, (hextract k rfl ⟨1, 0⟩).1, (hextract k rfl ⟨2, 9⟩).1,
    (hextract k rfl ⟨3, 0⟩).2.2 hfar⟩

end Livecode.Region
