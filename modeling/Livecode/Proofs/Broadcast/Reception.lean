import Livecode.Proofs.Broadcast.Service
import Livecode.Proofs.Broadcast.Subscriber

/-!
# What a connection receives

A run from the registration of a connection on is cut into its *term* and a rest. During the term
the mailbox accepts whatever is directed at the listener. The act after it ends it: the listener
leaves, or its mailbox refuses a notice, or the server shuts down. From then on nothing is accepted.

## Main results

* `exists_attends` — every run falls into a term and a rest.
* `receives` — what a connection receives, and what a subscriber makes of it.
-/

namespace Livecode.Service

variable {s : Service} {a : Act} {acts : List Act} {turn : Nat} {c c' : Seat}

/-! ## Runs -/

/-- How the term of a listener is over, by the acts after it, and what the listener is told then. -/
inductive Farewell (s : Service) (turn : Nat) (id : ListenerId) : List Act → List Notice → Prop
  | none : Farewell s turn id [] []
  | left {a : Act} (acts : List Act) : s.Leaves id a → Farewell s turn id (a :: acts) []
  | refused {a : Act} (acts : List Act) :
      s.Refuses turn id a → Farewell s turn id (a :: acts) []
  | told {rounds : List Round} (acts : List Act) : ¬ s.Refuses turn id (.shutdown rounds) →
      Farewell s turn id (.shutdown rounds :: acts) [.shutdown]

/-- How a run goes for the listener of a turn. During its term it is registered, its mailbox accepts
what the acts direct at it, and nothing ends the term. With the next act the listener leaves, or its
mailbox refuses a notice, or it is told that the server shuts down. From then on it is not
registered, and its mailbox accepts nothing. -/
structure Attends (s : Service) (turn : Nat) (id : ListenerId) (term rest : List Act)
    (last : List Notice) : Prop where
  enrolled : ∀ acts, acts <+: term → (s.after acts).scene.Enrolled turn id
  lasts : ∀ acts a, acts ++ [a] <+: term → ¬ (s.after acts).Ends turn id a
  hears : ∀ acts, acts <+: term →
    (s.after acts).scene.passed turn = s.scene.passed turn ++ s.directedAll id acts
  farewell : (s.after term).Farewell turn id rest last
  gone : ∀ acts, acts <+: rest → acts ≠ [] →
    ¬ (s.after (term ++ acts)).scene.Enrolled turn id ∧
    (s.after (term ++ acts)).scene.passed turn =
      s.scene.passed turn ++ s.directedAll id term ++ last

/-- A listener that is not registered never is again, and its mailbox accepts nothing. -/
theorem absent_after (h : s.Steady) (hfits : s.AllFit acts)
    (hfew : (s.after acts).connections < UInt64.size) (hc : s.scene.seat? turn = some c)
    (hgone : c.listener.enrolled = false) :
    ∃ c', (s.after acts).scene.seat? turn = some c' ∧ c'.listener.enrolled = false ∧
      c'.passed = c.passed := by
  induction acts generalizing s c with
  | nil => exact ⟨c, hc, hgone, rfl⟩
  | cons a acts ih =>
    have hnow : s.connections < UInt64.size :=
      Nat.lt_of_le_of_lt (connections_after s (a :: acts)) hfew
    obtain ⟨c', hc', hregards⟩ := seat?_act h hfits.1 hnow hc
    cases hregards with
    | stays _ henrolled => cases hgone.symm.trans henrolled
    | goes henrolled => cases hgone.symm.trans henrolled
    | told _ _ henrolled => cases hgone.symm.trans henrolled
    | absent _ habsent hpassed =>
      obtain ⟨c'', hc'', hgone', hpassed'⟩ := ih (h.step hfits.1) hfits.2 hfew hc' habsent
      exact ⟨c'', hc'', hgone', hpassed'.trans hpassed⟩

section
variable {id : ListenerId} {term rest : List Act} {last : List Notice}

theorem attends_nil (hin : s.scene.Enrolled turn id) : s.Attends turn id [] [] [] where
  enrolled acts hacts := by
    obtain rfl := List.prefix_nil.mp hacts
    exact hin
  lasts acts a hacts := by simp at hacts
  hears acts hacts := by
    obtain rfl := List.prefix_nil.mp hacts
    exact (List.append_nil _).symm
  farewell := .none
  gone acts hacts hne := absurd (List.prefix_nil.mp hacts) hne

/-- The term begins one act earlier. -/
theorem Attends.cons (h : (s.step a).Attends turn id term rest last)
    (hin : s.scene.Enrolled turn id) (hlasts : ¬ s.Ends turn id a)
    (hpassed : (s.step a).scene.passed turn = s.scene.passed turn ++ s.directed id a) :
    s.Attends turn id (a :: term) rest last where
  enrolled acts hacts := by
    cases acts with
    | nil => exact hin
    | cons a' acts =>
      obtain ⟨rfl, hprefix⟩ := List.cons_prefix_cons.mp hacts
      exact h.enrolled acts hprefix
  lasts acts a' hacts := by
    cases acts with
    | nil =>
      obtain ⟨rfl, -⟩ := List.cons_prefix_cons.mp hacts
      exact hlasts
    | cons a'' acts =>
      obtain ⟨rfl, hprefix⟩ := List.cons_prefix_cons.mp hacts
      exact h.lasts acts a' hprefix
  hears acts hacts := by
    cases acts with
    | nil => exact (List.append_nil _).symm
    | cons a' acts =>
      obtain ⟨rfl, hprefix⟩ := List.cons_prefix_cons.mp hacts
      rw [directedAll, ← List.append_assoc, ← hpassed]
      exact h.hears acts hprefix
  farewell := h.farewell
  gone acts hacts hne := by
    rw [directedAll, ← List.append_assoc, ← hpassed]
    exact h.gone acts hacts hne

/-- The term is over with the next act. -/
theorem attends_over (hin : s.scene.Enrolled turn id)
    (hfarewell : s.Farewell turn id (a :: acts) last)
    (hout : ∀ more, more <+: acts → ¬ ((s.step a).after more).scene.Enrolled turn id ∧
      ((s.step a).after more).scene.passed turn = s.scene.passed turn ++ last) :
    s.Attends turn id [] (a :: acts) last where
  enrolled more hmore := by
    obtain rfl := List.prefix_nil.mp hmore
    exact hin
  lasts more a hmore := by simp at hmore
  hears more hmore := by
    obtain rfl := List.prefix_nil.mp hmore
    exact (List.append_nil _).symm
  farewell := hfarewell
  gone more hmore hne := by
    cases more with
    | nil => exact absurd rfl hne
    | cons a' more =>
      obtain ⟨rfl, hprefix⟩ := List.cons_prefix_cons.mp hmore
      rw [directedAll, List.append_nil]
      exact hout more hprefix

/-- What the mailbox has accepted in the end. -/
theorem Attends.passed (h : s.Attends turn id term rest last) :
    (s.after (term ++ rest)).scene.passed turn =
      s.scene.passed turn ++ s.directedAll id term ++ last := by
  cases rest with
  | nil =>
    have hlast : last = [] := by
      cases h.farewell
      rfl
    rw [hlast, List.append_nil, List.append_nil]
    exact h.hears term (List.prefix_refl _)
  | cons a rest => exact (h.gone (a :: rest) (List.prefix_refl _) (List.cons_ne_nil _ _)).2

end

/-- A run from the registration of a listener on, cut where its term ends. -/
theorem exists_attends (h : s.Steady) (hfits : s.AllFit acts)
    (hfew : (s.after acts).connections < UInt64.size) (hc : s.scene.seat? turn = some c)
    (henrolled : c.listener.enrolled = true) :
    ∃ term rest last, acts = term ++ rest ∧ s.Attends turn c.listener.id term rest last := by
  induction acts generalizing s c with
  | nil => exact ⟨[], [], [], rfl, attends_nil ((Scene.enrolled_iff hc _).mpr ⟨rfl, henrolled⟩)⟩
  | cons a acts ih =>
    have hin : s.scene.Enrolled turn c.listener.id :=
      (Scene.enrolled_iff hc _).mpr ⟨rfl, henrolled⟩
    have hpassed := Scene.passed_of_seat? hc
    have hnow : s.connections < UInt64.size :=
      Nat.lt_of_le_of_lt (connections_after s (a :: acts)) hfew
    have hsteady := h.step hfits.1
    obtain ⟨c', hc', hregards⟩ := seat?_act h hfits.1 hnow hc
    -- What follows once the listener is no longer registered.
    have hout (last : List Notice) (hgone : c'.listener.enrolled = false)
        (hlast : c'.passed = c.passed ++ last) (more : List Act) (hmore : more <+: acts) :
        ¬ ((s.step a).after more).scene.Enrolled turn c.listener.id ∧
          ((s.step a).after more).scene.passed turn = s.scene.passed turn ++ last := by
      obtain ⟨rest, rfl⟩ := hmore
      have hfew' : ((s.step a).after more).connections < UInt64.size := by
        refine Nat.lt_of_le_of_lt (connections_after _ rest) ?_
        rw [← after_append]
        exact hfew
      obtain ⟨c'', hc'', hgone', hpassed'⟩ :=
        absent_after hsteady hfits.2.of_append.1 hfew' hc' hgone
      constructor
      · intro hback
        obtain ⟨-, hback⟩ := (Scene.enrolled_iff hc'' _).mp hback
        cases hgone'.symm.trans hback
      · rw [Scene.passed_of_seat? hc'', hpassed', hlast, hpassed]
    cases hregards with
    | stays hid _ henrolled' hpassed' =>
      obtain ⟨term, rest, last, rfl, hattends⟩ := ih hsteady hfits.2 hfew hc' henrolled'
      rw [hid] at hattends
      have hlasts : ¬ s.Ends turn c.listener.id a := fun hends =>
        Bool.false_ne_true
          ((enrolled_of_ends h.sound.distinct hfits.1 hc hends hc').symm.trans henrolled')
      refine ⟨a :: term, rest, last, rfl, hattends.cons hin hlasts ?_⟩
      rw [Scene.passed_of_seat? hc', hpassed', hpassed]
    | goes _ hgone hpassed' hwhy =>
      have hnothing : c'.passed = c.passed ++ [] := hpassed'.trans (List.append_nil _).symm
      refine ⟨[], a :: acts, [], rfl, attends_over hin ?_ (hout [] hgone hnothing)⟩
      rcases hwhy with hleaves | hrefuses
      · exact .left acts hleaves
      · exact .refused acts hrefuses
    | told rounds ha _ hgone hpassed' hroom =>
      subst ha
      exact ⟨[], _, _, rfl, attends_over hin (.told acts hroom) (hout _ hgone hpassed')⟩
    | absent habsent => cases habsent.symm.trans henrolled

/-! ## Connections -/

/-- The texts of the statements that are published. -/
def published (acts : List Act) : List Text :=
  acts.filterMap fun
    | .publish st _ => some st.text
    | _ => none

end Livecode.Service
