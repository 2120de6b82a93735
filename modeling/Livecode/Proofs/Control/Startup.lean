import Livecode.Proofs.Control.Course

/-!
# What a reported start means

A start that reports success has launched a session or found one. Whether the session is still there
at the end is another matter. The boot of the audio server, whose failure is passed over, looks at
the session and evaluates code in it, and either of these may be what finds the interpreter gone.
Nothing else can cost a started session.

## Main results

* `start_ok` — a reported start has its session, or lost it in the boot of the audio server.
-/

namespace Livecode

/-! ## Keeping a session -/

section

variable {D : Deed → Prop} {s s' : Standing} {j : Journal} {id : SessionId}

theorem Move.session_eq_none (hD : ¬ D .launch) (h : Move D s j s') (hs : s.session = none) :
    s'.session = none := by
  cases h with
  | launchFailed _ hd => exact absurd hd hD
  | launched hd => exact absurd hd hD
  | quit => rfl
  | dead => rfl
  | lost => rfl
  | _ => exact hs

theorem Course.session_eq_none (hD : ¬ D .launch) (h : Course D s j s') (hs : s.session = none) :
    s'.session = none := by
  induction h with
  | done => exact hs
  | step hmove _ ih => exact ih (hmove.session_eq_none hD hs)

/-- The effects show how a session was lost. -/
def LostIn (D : Deed → Prop) (id : SessionId) (j : Journal) : Prop :=
  .released id ∈ j ∧ (.probed id false ∈ j ∨
    ∃ p code, D (.interpret p code) ∧ .interpreted id code (.error .disconnected) ∈ j)

theorem LostIn.mono {i : Journal} (h : LostIn D id i) (hsub : i ⊆ j) : LostIn D id j := by
  obtain ⟨hreleased, hcause⟩ := h
  refine ⟨hsub hreleased, ?_⟩
  rcases hcause with hdead | ⟨p, code, hd, hlost⟩
  · exact .inl (hsub hdead)
  · exact .inr ⟨p, code, hd, hsub hlost⟩

theorem Move.session_eq_or_lost (hlaunch : ¬ D .launch) (hquit : ¬ D .quit) (h : Move D s j s')
    (hs : s.session = some id) :
    (s'.session = some id ∧ ∀ id', .released id' ∉ j) ∨ (s'.session = none ∧ LostIn D id j) := by
  cases h with
  | launchFailed _ hd => exact absurd hd hlaunch
  | launched hd => exact absurd hd hlaunch
  | quit _ hd => exact absurd hd hquit
  | dead hs' =>
    obtain rfl := Option.some.inj (hs'.symm.trans hs)
    exact .inr ⟨rfl, by simp [LostIn]⟩
  | lost p hd hs' =>
    obtain rfl := Option.some.inj (hs'.symm.trans hs)
    exact .inr ⟨rfl, by simp, .inr ⟨p, _, hd, by simp⟩⟩
  | _ => exact .inl ⟨hs, by simp⟩

/-- Where nothing is launched and nothing shut down, a session is kept or it is lost. -/
theorem Course.session_eq_or_lost (hlaunch : ¬ D .launch) (hquit : ¬ D .quit)
    (h : Course D s j s') (hs : s.session = some id) :
    (s'.session = some id ∧ ∀ id', .released id' ∉ j) ∨ (s'.session = none ∧ LostIn D id j) := by
  induction h with
  | done => exact .inl ⟨hs, by simp⟩
  | step hmove hrest ih =>
    rcases hmove.session_eq_or_lost hlaunch hquit hs with ⟨hs₁, hkept⟩ | ⟨hs₁, hlost⟩
    · rcases ih hs₁ with ⟨hs', hkept'⟩ | ⟨hs', hlost⟩
      · refine .inl ⟨hs', fun id' hmem => ?_⟩
        rcases List.mem_append.mp hmem with hmem | hmem
        · exact hkept id' hmem
        · exact hkept' id' hmem
      · exact .inr ⟨hs', hlost.mono (List.subset_append_right _ _)⟩
    · exact .inr ⟨hrest.session_eq_none hlaunch hs₁, hlost.mono (List.subset_append_left _ _)⟩

end

namespace Supervisor

variable {ω : Type}

/-- A start that reports success has found its session running or has launched it; then it still has
it, or it has lost it in the boot of the audio server. -/
theorem start_ok (M : Machine ω) (s : Supervisor ω) (l : Lifecycle)
    (h : ((start M).run s).1 = .ok l) :
    (l = .alreadyRunning ∧ s.session.isSome ∧ ((start M).run s).2.session = s.session) ∨
    (l = .started ∧ ∃ i j, ((start M).run s).2.journal =
        s.journal ++ i ++ .launched ⟨s.launches⟩ (.ok ()) :: j ∧
      ((((start M).run s).2.session = some ⟨s.launches⟩ ∧ ∀ id, .released id ∉ j) ∨
        (((start M).run s).2.session = none ∧ s.bootsServer ∧ .released ⟨s.launches⟩ ∈ j ∧
          (.probed ⟨s.launches⟩ false ∈ j ∨
            .interpreted ⟨s.launches⟩ "s.boot" (.error .disconnected) ∈ j)))) := by
  obtain ⟨j, hj, hstarted⟩ := start_does M s
  rw [h] at hstarted
  generalize ((start M).run s).2 = s' at hj hstarted ⊢
  generalize hst : s'.standing = st' at hstarted
  have hsession : s'.session = st'.session := congrArg Standing.session hst
  rw [hsession]
  cases hstarted with
  | already hlook =>
    obtain ⟨hs, -, rfl⟩ := hlook.of_some
    exact .inl ⟨rfl, by rw [show s.session = some _ from hs]; rfl, rfl⟩
  | @launched i i' k s₁ _ hlook hsaid hcourse hposted =>
    have hn : s₁.launches = s.launches := hlook.launches_eq
    rw [hn] at hj hcourse
    refine .inr ⟨rfl, i ++ i', k, by rw [hj]; simp only [List.append_assoc], ?_⟩
    rcases hcourse.session_eq_or_lost nofun nofun rfl with hkept | ⟨hnone, hreleased, hcause⟩
    · exact .inl hkept
    · have hboots : s.bootsServer = true := by
        cases hboots : s.bootsServer with
        | true => rfl
        | false =>
          obtain ⟨t, ht⟩ := hposted hboots _ hreleased
          cases ht
      refine .inr ⟨hnone, hboots, hreleased, hcause.imp_right ?_⟩
      rintro ⟨p, code, hd, hlost⟩
      cases hd
      exact hlost

/-- A machine that is well except for how its interpreters take the boot of the audio server. -/
def bootAnswers (answer : Except EvalError Text) : Machine Unit where
  launch _ w := (⟨.ok (), []⟩, w)
  isAlive _ w := (true, w)
  interpret _ code w := (⟨if code = "s.boot" then answer else .ok [], []⟩, w)
  send _ _ w := (⟨.ok (), []⟩, w)
  quit _ w := (⟨.ok (), []⟩, w)
  release _ w := w

/-- The interpreter goes away in the course of the boot. -/
theorem start_ok_session_lost : ∃ (M : Machine Unit) (s : Supervisor Unit),
    ((start M).run s).1 = .ok .started ∧ ((start M).run s).2.session = none ∧
      ∃ i j, ((start M).run s).2.journal = s.journal ++ i ++ .launched ⟨0⟩ (.ok ()) :: j ∧
        .released ⟨0⟩ ∈ j ∧ (.probed ⟨0⟩ false ∈ j ∨
          .interpreted ⟨0⟩ "s.boot" (.error .disconnected) ∈ j) := by
  let M := bootAnswers (.error .disconnected)
  let s : Supervisor Unit := fresh () default true
  have hok : ((start M).run s).1 = .ok .started := rfl
  have hnone : ((start M).run s).2.session = none := rfl
  refine ⟨M, s, hok, hnone, ?_⟩
  rcases start_ok M s .started hok with ⟨hl, -⟩ | ⟨-, i, j, hj, ⟨hsome, -⟩ | ⟨-, -, hlost⟩⟩
  · cases hl
  · cases hnone.symm.trans hsome
  · exact ⟨i, j, hj, hlost⟩

/-- A reported start does not mean a running session. -/
theorem not_session_of_start_ok : ¬ ∀ (M : Machine Unit) (s : Supervisor Unit) (l : Lifecycle),
    ((start M).run s).1 = .ok l → l = .started ∨ l = .alreadyRunning →
      ((start M).run s).2.session.isSome := by
  intro h
  have hsome := h (bootAnswers (.error .disconnected)) (fresh () default true) .started
    rfl (.inl rfl)
  revert hsome
  decide

end Supervisor
end Livecode
