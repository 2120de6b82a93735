import Livecode.Proofs.Control.Evaluation
import Livecode.Proofs.PostHistory

/-!
# What is reported

A command that is not carried out says so in the post window. Some failures are posted by the
supervisor, where the controller adds nothing, and the others by the controller, so no way may be
left on which each relies on the other. Only that there is no region at the cursor is not worth a
line, and then nothing at all has happened.

What is posted is read off from the journal of the command, as is what was demanded of interpreters
and handed to the outlet.

## Main results

* `Supervisor.hush_does` — the one operation of which only some failures are posted.
* `dispatch_reports` — what every command posts, by its outcome.
* `afterAll_reports` — the same, in any run.
-/

namespace Livecode

variable {ω σ : Type}

/-! ## The supervisor -/

namespace Supervisor

open Supervised

variable (M : Machine ω)

/-- Only a session that is looked for and not found is reported missing. -/
theorem reply_ne_noSession (r : Except EvalError Text) : reply r ≠ .error .noSession := by
  cases r with
  | ok a => exact nofun
  | error e =>
    intro h
    have hmissing : e.toSessionError = .noSession := Except.error.inj h
    cases e <;> cases hmissing

/-- A session that is held and then found missing has been found dead. -/
theorem posted_of_noSession {code : Text} {s s' : Standing} {j : Journal} {id : SessionId}
    (h : Evaluated code s (.error .noSession) j s') (hid : s.session = some id) :
    j.posted ≠ [] := by
  generalize hr : (.error .noSession : Except SessionError Text) = r at h
  cases h with
  | absent hlook =>
    cases hlook with
    | absent hnone => cases hnone.symm.trans hid
    | dead => exact List.cons_ne_nil _ _
  | answered r => exact absurd hr.symm (reply_ne_noSession r)
  | lost => exact absurd hr.symm (reply_ne_noSession _)

/-- Where sound cannot be stopped for want of a session, that is posted, at whichever look the
session is found missing. -/
theorem hush_does (s : Supervisor ω) : Does (hush M) s fun r j _ =>
    r = .error .noSession → j.posted ≠ [] := by
  unfold hush
  apply (liveSession_does M s).bind
  intro o i s₁ hlook
  cases o with
  | none =>
    apply (say_does s₁ "sclang not started, cannot hush").bind
    rintro _ _ s₂ ⟨rfl, -⟩
    apply Does.pure
    intro _
    rw [Journal.posted_append]
    exact List.append_ne_nil_of_right_ne_nil _ (List.cons_ne_nil _ _)
  | some id =>
    apply (evaluate_does M s₁ "CmdPeriod.run").imp
    rintro r j _ heval rfl
    rw [Journal.posted_append]
    exact List.append_ne_nil_of_right_ne_nil _ (posted_of_noSession heval hlook.session_eq)

end Supervisor

/-! ## Outcomes -/

/-- Nothing was posted, demanded of an interpreter, or handed to the outlet. -/
structure Journal.Mute (j : Journal) : Prop where
  posted : j.posted = []
  demands : j.demands = []
  published : j.published = []

/-- A rejection has left a text posted, and what is not reported has left nothing. -/
structure Outcome.Told (o : Outcome) (j : Journal) : Prop where
  rejected : ∀ e, o = .rejected e → j.posted ≠ []
  silent : o = .noRegion → j.Mute

theorem Journal.Calm.mute {session : Option SessionId} {j : Journal} (h : j.Calm session) :
    j.Mute := by
  have hview {β : Type} (view : JournalEntry → Option β) (hclassified : view .classified = none)
      (hprobed : ∀ id, view (.probed id true) = none) : j.filterMap view = [] := by
    apply List.filterMap_eq_nil_iff.mpr
    intro e he
    rcases h e he with rfl | ⟨id, -, rfl⟩
    · exact hclassified
    · exact hprobed id
  exact ⟨hview _ rfl fun _ => rfl, h.demands, hview _ rfl fun _ => rfl⟩

/-- What is neither a rejection nor silent may have left anything. -/
theorem Outcome.told_of_ne {o : Outcome} {j : Journal} (hrejected : ∀ e, o ≠ .rejected e)
    (hreported : o ≠ .noRegion) : o.Told j :=
  ⟨fun e ho => absurd ho (hrejected e), fun ho => absurd ho hreported⟩

/-- A failure of which only its report has been posted. -/
theorem Outcome.told_ofResult {e : CommandError} {i : Journal} (hi : e = .noRegion → i.Mute) :
    (Outcome.ofResult (.error e)).Told (i ++ Journal.report (.error e)) := by
  by_cases hsilent : e = .noRegion
  · obtain rfl := hsilent
    refine ⟨nofun, ?_⟩
    intro _
    show Journal.Mute (i ++ [])
    rw [List.append_nil]
    exact hi rfl
  · have hloud : ¬ e.isSilent = true := by simpa [CommandError.isSilent] using hsilent
    have houtcome : Outcome.ofResult (.error e) = .rejected e := if_neg hloud
    have hreport : Journal.report (.error e) = [.posted e.message] := if_neg hloud
    rw [houtcome, hreport]
    refine ⟨?_, nofun⟩
    intro e' _
    rw [Journal.posted_append]
    exact List.append_ne_nil_of_right_ne_nil _ (List.cons_ne_nil _ _)

namespace Controller

open Controlled

variable {S : Studio ω σ} {c : Controller ω σ}

/-! ## Commands -/

theorem Concluded.told {session : Option SessionId} {found : Except CommandError Text} {m : Manner}
    {o : Outcome} {j : Journal} (h : Concluded session found m o j) : o.Told j := by
  obtain ⟨r, k, rfl, rfl, hconducted⟩ := h
  cases hconducted with
  | unattended => exact Outcome.told_ofResult nofun
  | nothing _ hcalm => exact Outcome.told_ofResult fun _ => hcalm.mute
  | handed _ _ hanswer _ =>
    cases hanswer with
    | evaluated a => exact Outcome.told_of_ne nofun nofun
    | failed e => exact Outcome.told_ofResult nofun
    | sent => exact Outcome.told_of_ne nofun nofun
    | unsent e => exact Outcome.told_ofResult nofun

/-- Commands whose failures the supervisor posts. -/
theorem lifecycle_does {program : Text} {act : Supervised ω (Except SessionError Lifecycle)}
    (hactive : c.active = true) (h : Supervised.Speaks S.machine act) :
    Does S (lifecycle program act) c fun o j _ => o.Told j := by
  apply whenReady_does hactive
  apply (supervised_does S c h.faithful (h _)).bind
  rintro r i c₁ ⟨⟨-, hposted⟩, -⟩
  cases r with
  | ok l => exact .pure (Outcome.told_of_ne nofun nofun)
  | error e =>
    apply Does.pure
    rw [List.append_nil]
    exact ⟨fun _ _ => hposted rfl, nofun⟩

/-- Of the failures to stop all sound, the supervisor posts only that there is no session. -/
theorem hush_does (hactive : c.active = true) : Does S (hush S) c fun o j _ => o.Told j := by
  apply whenReady_does hactive
  apply (supervised_does S c (Supervisor.hush_faithful S.machine)
    (Supervisor.hush_does S.machine _)).bind
  rintro r i c₁ ⟨hposted, -⟩
  split
  next => exact .pure (Outcome.told_of_ne nofun nofun)
  next =>
    apply Does.pure
    rw [List.append_nil]
    exact ⟨fun _ _ => hposted rfl, nofun⟩
  next e _ =>
    have hloud : e.toCommandError ≠ .noRegion := by cases e <;> exact nofun
    apply (reject_does S c₁ e.toCommandError).imp
    rintro _ _ _ ⟨rfl, rfl⟩
    exact Outcome.told_ofResult fun hsilent => absurd hsilent hloud

theorem interpreterStatus_does (hactive : c.active = true) :
    Does S (interpreterStatus S) c fun o j _ => o.Told j := by
  apply whenReady_does hactive
  apply (supervised_does S c (Supervisor.status_faithful S.machine)
    (Supervisor.status_does S.machine _)).bind
  intro status i c₁ _
  apply Does.get_bind
  apply (say_does S c₁ _).bind
  intro _ _ c₂ _
  exact .pure (Outcome.told_of_ne nofun nofun)

/-- A command that is not about the environment. -/
theorem dispatch_does {cmd : Command} (hlanguage : cmd.language? ≠ none) :
    Does S (dispatch S cmd) c fun o j _ => o.Told j := by
  cases hactive : c.active with
  | false =>
    apply Does.of_run_eq (dispatch_of_inactive S hactive hlanguage)
    apply (reject_does S c .notReady).imp
    rintro _ _ _ ⟨rfl, rfl⟩
    exact Outcome.told_ofResult (e := .notReady) (i := []) nofun
  | true =>
    cases cmd with
    | startEnvironment => exact absurd rfl hlanguage
    | stopEnvironment => exact absurd rfl hlanguage
    | evaluateStatements text selection =>
      apply (evaluateStatements_does text selection hactive).imp
      rintro _ j _ ⟨rfl, -⟩
      exact Outcome.told_of_ne nofun nofun
    | evaluate text selection =>
      exact (evaluate_does text selection hactive).imp fun _ _ _ hdone => hdone.told
    | evaluateRegion text cursor =>
      have hcursor : (Selection.caret cursor).active = cursor := rfl
      rw [evaluateRegion_eq text (Selection.isEmpty_caret cursor) hcursor]
      exact (evaluate_does text _ hactive).imp fun _ _ _ hdone => hdone.told
    | evaluateDetached text selection =>
      exact (evaluateDetached_does text selection hactive).imp fun _ _ _ hdone => hdone.told
    | startInterpreter => exact lifecycle_does hactive (Supervisor.start_speaks _)
    | stopInterpreter => exact lifecycle_does hactive (Supervisor.stop_speaks _)
    | toggleInterpreter => exact lifecycle_does hactive (Supervisor.toggle_speaks _)
    | interpreterStatus => exact interpreterStatus_does hactive
    | hush => exact hush_does hactive
    | bootServer => exact lifecycle_does hactive (Supervisor.bootServer_speaks _)
    | quitServer => exact lifecycle_does hactive (Supervisor.quitServer_speaks _)
    | toggleServer => exact lifecycle_does hactive (Supervisor.toggleServer_speaks _)

/-- The outlet may refuse to be brought up; then the environment is not started. -/
theorem startEnvironment_does : Does S (startEnvironment S) c fun o j c' =>
    o.Told j ∧ ((∃ t, o = .lifecycle t) ∨ c'.active = c.active) := by
  by_cases hactive : c.active = true
  · have hrun : (startEnvironment S).run c =
        (pure (.lifecycle "ENVIL environment is already started") : Controlled ω σ Outcome).run c :=
      (run_startEnvironment S c).trans (if_pos hactive)
    apply Does.of_run_eq hrun
    exact .pure ⟨Outcome.told_of_ne nofun nofun, .inl ⟨_, rfl⟩⟩
  · apply Does.of_run_eq ((run_startEnvironment S c).trans (if_neg hactive))
    apply onOutlet_does S c S.outlet.start .opened
    cases hresult : (S.outlet.start c.outlet).1 with
    | error e =>
      have hrefused (c₁ : Controller ω σ) : Does S (reject e) c₁ fun o j c' =>
          (o = .ofResult (.error e) ∧ j = .report (.error e)) ∧ c'.active = c₁.active :=
        (reject_does S c₁ e).and_run (reject_untouched e c₁).active
      apply (hrefused _).imp
      rintro _ _ c' ⟨⟨rfl, rfl⟩, hsame⟩
      refine ⟨?_, .inr hsame⟩
      exact Outcome.told_ofResult (i := [.opened (.error e)]) fun _ => ⟨rfl, rfl, rfl⟩
    | ok =>
      apply (setActive_does S _ true).bind
      intro _ _ c₁ _
      apply (say_does S c₁ _).bind
      intro _ _ c₂ _
      exact .pure ⟨Outcome.told_of_ne nofun nofun, .inl ⟨_, rfl⟩⟩

/-- A stop is always carried out. -/
theorem stopEnvironment_does : Does S (stopEnvironment S) c fun o _ _ => ∃ t, o = .lifecycle t := by
  by_cases hactive : c.active = true
  · apply Does.of_run_eq ((run_stopEnvironment S c).trans (if_pos hactive))
    have hspeaks := Supervisor.stop_speaks S.machine
    apply (supervised_does S c hspeaks.faithful (hspeaks _)).bind
    intro _ _ c₁ _
    apply onOutlet_does S c₁ (e := fun _ => .closed) (fun o => ((), S.outlet.stop o)) .closed
    apply (setActive_does S _ false).bind
    intro _ _ c₂ _
    apply (say_does S c₂ _).bind
    intro _ _ c₃ _
    exact .pure ⟨_, rfl⟩
  · have hrun : (stopEnvironment S).run c =
        (pure (.lifecycle "ENVIL environment is not started") : Controlled ω σ Outcome).run c :=
      (run_stopEnvironment S c).trans (if_neg hactive)
    apply Does.of_run_eq hrun
    exact .pure ⟨_, rfl⟩

/-- Any outlet will do where nothing depends on whether it is up. -/
theorem follows_any (O : Outlet σ) : O.Follows fun _ _ => True := by
  constructor <;> intros <;> trivial

/-- Every command, where no language is being handled. -/
theorem dispatch_reports (cmd : Command) (hvisual : c.visual = .idle) (hsound : c.sound = .idle) :
    Does S (dispatch S cmd) c fun o j c' =>
      o.Told j ∧ ((∃ t, o = .lifecycle t) ∨ c'.active = c.active) := by
  by_cases hstart : cmd = .startEnvironment
  · rw [hstart]
    exact startEnvironment_does
  by_cases hstop : cmd = .stopEnvironment
  · rw [hstop]
    apply stopEnvironment_does.imp
    rintro _ _ _ ⟨t, rfl⟩
    exact ⟨Outcome.told_of_ne nofun nofun, .inl ⟨t, rfl⟩⟩
  have hlanguage := Command.language?_ne_none hstart hstop
  have hsteady := dispatch_steady S (follows_any S.outlet) hlanguage hvisual hsound
  exact ((dispatch_does hlanguage).and_run (P := fun c' => c'.active = c.active) hsteady.active).imp
    fun _ _ _ ⟨htold, hsame⟩ => ⟨htold, .inr hsame⟩

/-- **No failure is swallowed, and what is silent has done nothing.** Take a fresh controller, let
it be given any commands, let it attend to its outlet at any moment, and let anything change
meanwhile on its machine and at its outlet. If then a command is rejected, a line at least is added
to the post window; if it reports that there is no region, nothing is added, no interpreter was
asked to do anything, and nothing was handed to the outlet. After either, no language is being
handled, and the environment is started or not as it was before. -/
theorem afterAll_reports (S : Studio ω σ) (machine : ω) (post : PostWindow) (bootsServer : Bool)
    (outlet : σ) (os : List (Occurrence ω σ)) (cmd : Command) :
    let c := afterAll S (fresh (.fresh machine post bootsServer) outlet) os
    let run := (dispatch S cmd).run c
    ∃ j, c.Recorded S j run.2 ∧
      run.2.supervisor.post = c.supervisor.post.postAll j.posted ∧
      (∀ e, run.1 = .rejected e → j.posted.flatMap Text.lines ≠ []) ∧
      (run.1 = .noRegion → run.2.supervisor.post = c.supervisor.post ∧
        j.posted = [] ∧ j.demands = [] ∧ j.published = []) ∧
      ((∃ e, run.1 = .rejected e) ∨ run.1 = .noRegion →
        (∀ l, run.2.activity l = .idle) ∧ run.2.active = c.active) := by
  intro c run
  have hO := follows_any S.outlet
  have hc : Tied (fun _ _ => True) c :=
    (tied_fresh machine post bootsServer trivial).afterAll S hO fun o _ => by
      cases o <;> simp [Occurrence.Respects]
  have hafter : Tied (fun _ _ => True) run.2 := hc.dispatch S hO cmd
  obtain ⟨j, hj, htold, hflag⟩ := dispatch_reports (S := S) cmd hc.visual hc.sound
  refine ⟨j, hj, hj.post, ?_, ?_, ?_⟩
  · intro e he
    exact PostWindow.flatMap_lines_ne_nil (htold.rejected e he)
  · intro hsilent
    obtain ⟨hposted, hdemands, hpublished⟩ := htold.silent hsilent
    refine ⟨?_, hposted, hdemands, hpublished⟩
    rw [hj.post, hposted]
    rfl
  · intro hfailed
    refine ⟨?_, ?_⟩
    · intro l
      cases l with
      | hydra => exact hafter.visual
      | superCollider => exact hafter.sound
    · rcases hflag with ⟨t, ht⟩ | hsame
      · rcases hfailed with ⟨e, he⟩ | hnone
        · cases ht.symm.trans he
        · cases ht.symm.trans hnone
      · exact hsame

end Controller
end Livecode
