import Livecode.Interpreter.Process
import Livecode.Proofs.Broadcast.Intake
import Livecode.Proofs.Control.Record
import Livecode.Proofs.Statement.Batch

/-!
# Statements on their way to the listeners

Evaluating visual code goes from the selection to the mailboxes: the text is chosen, it is cut into
statements, these are handed to the outlet one after the other, and each is put into the mailboxes
of whoever is still registered. Here the outlet is an audience in the same program, and the whole
way is followed.

## Main results

* `evaluationText_eq` — the text that is evaluated.
* `evaluateStatements_does` — the command, in terms of what the outlet is handed.
* `listeners_evaluateStatements` — what every listener receives.
-/

namespace Livecode

namespace Buffer

variable (b : Buffer)

/-- Nothing is selected by a mere cursor. -/
theorem selectedText_of_isEmpty {s : Selection} (h : s.isEmpty = true) :
    b.selectedText s = [] := by
  have hsame : s.finish = s.start := by
    have hends : s.anchor = s.active := eq_of_beq h
    simp [Selection.finish, Selection.start, hends, max, min]
  simp [selectedText, textBetween, hsame, max, min]

/-- Visual code is evaluated from the selected text, or from the whole text if there is no selection
or nothing is in it. -/
theorem evaluationText_eq (selection : Option Selection) : b.evaluationText selection =
    ((selection.map b.selectedText).filter (· ≠ [])).getD b.text := by
  cases selection with
  | none => rfl
  | some s =>
    have hselected : (if s.isEmpty then [] else b.selectedText s) = b.selectedText s := by
      split
      next hempty => exact (b.selectedText_of_isEmpty hempty).symm
      next => rfl
    rw [evaluationText, hselected]
    by_cases hnothing : b.selectedText s = [] <;> simp [Option.filter, hnothing]

end Buffer

namespace Controller

open Controlled

variable {ω σ : Type} {S : Studio ω σ} {c : Controller ω σ}

/-- Evaluating visual code hands its statements to the outlet, and does nothing else. -/
theorem evaluateStatements_does (text : Text) (selection : Option Selection)
    (hactive : c.active = true) :
    let sts := Statement.segmentSelection S.redirect (.ofText text) selection
    Does S (dispatch S (.evaluateStatements text selection)) c fun o j c' =>
      o = .published sts.length ∧ (∀ e ∈ j, ∃ st n, e = .published st n) ∧ j.published = sts ∧
        c' = { c with
          outlet := publishedTo S.outlet c.outlet sts
          visual := .idle
          supervisor := { c.supervisor with journal := c.supervisor.journal ++ j } } := by
  intro sts
  -- What is known of the controller while the language is still busy.
  let Handed (r : Except CommandError Outcome) (j : Journal) (c₁ : Controller ω σ) : Prop :=
    r = .ok (.published sts.length) ∧ (∀ e ∈ j, ∃ st n, e = .published st n) ∧
      j.published = sts ∧ c₁ = { c with
        outlet := publishedTo S.outlet c.outlet sts
        visual := .dispatching
        supervisor := { c.supervisor with journal := c.supervisor.journal ++ j } }
  apply handling_does (R := Handed) hactive
  · apply (publishAll_does S _ sts).bind
    rintro _ j c₁ ⟨hentries, hpublished, rfl⟩
    apply Does.pure
    rw [List.append_nil]
    exact ⟨rfl, hentries, hpublished, rfl⟩
  · rintro _ j _ ⟨rfl, hentries, hpublished, rfl⟩
    apply Does.pure
    rw [List.append_nil]
    exact ⟨rfl, hentries, hpublished, rfl⟩

/-- **Evaluating visual code delivers exactly its statements.** They are those of the selected text,
or of the whole text if there is no selection or nothing is in it, and the command says how many
they are. A listener that is registered and not bounded receives them all, in order; one whose
mailbox has room for `k` more receives the first `k`, and is removed exactly if there are more; one
whose mailbox is closed receives nothing, and is removed exactly if there is any statement; and
nobody registers. It does not matter in which order the registry keeps its listeners. Nothing else
is done: apart from the statements entered, the supervisor with its interpreter and its post window
is as it was, and the environment is started as before. -/
theorem listeners_evaluateStatements (M : Machine ω) (k : Classifier) (r : Redirect)
    (c : Controller ω Audience) (text : Text) (selection : Option Selection)
    (hactive : c.active = true) :
    let S : Studio ω Audience := ⟨M, .audience, k, r⟩
    let b := Buffer.ofText text
    let evaluated := ((selection.map b.selectedText).filter (· ≠ [])).getD b.text
    let sts := Statement.segment r evaluated
    let run := (dispatch S (.evaluateStatements text selection)).run c
    run.1 = .published sts.length ∧
      run.2.outlet.listeners.length = c.outlet.listeners.length ∧
      (∀ (turn : Nat) (l : Listener), c.outlet.listeners[turn]? = some l →
        ∃ l', run.2.outlet.listeners[turn]? = some l' ∧
          Listener.Received (sts.map (.statement ·.text)) l l') ∧
      (c.outlet.Distinct → ∀ gone orders, orders.length = sts.length →
        let s : Scene := ⟨c.outlet, gone⟩
        s.AllFit (Scene.fanOuts sts orders) →
          s.after (Scene.fanOuts sts orders) = ⟨run.2.outlet, gone⟩) ∧
      ∃ j, c.Recorded S j run.2 ∧ (∀ e ∈ j, ∃ st n, e = .published st n) ∧ j.published = sts ∧
        run.2 = { c with
          outlet := run.2.outlet
          visual := .idle
          supervisor := { c.supervisor with journal := c.supervisor.journal ++ j } } := by
  intro S b evaluated sts run
  obtain ⟨j, hrecorded, houtcome, hentries, hpublished, hrun⟩ :=
    evaluateStatements_does (S := S) text selection hactive
  have hsts : Statement.segmentSelection r b selection = sts :=
    congrArg (Statement.segment r) (b.evaluationText_eq selection)
  rw [hsts] at houtcome hpublished hrun
  have houtlet : run.2.outlet = c.outlet.publishAll sts := congrArg Controller.outlet hrun
  refine ⟨houtcome, ?_, ?_, ?_, j, hrecorded, hentries, hpublished, ?_⟩
  · rw [houtlet, Audience.publishAll_eq, List.length_map]
  · intro turn l hl
    refine ⟨_, ?_, l.received_deliverAll _⟩
    rw [houtlet, Audience.publishAll_eq, List.getElem?_map, hl]
    rfl
  · intro hdistinct gone orders hlength s hfits
    rw [houtlet]
    exact Scene.after_fanOuts hdistinct hlength hfits
  · rw [houtlet]
    exact hrun

/-- Two of three statements are selected, from the end to the start. Of the listeners the first has
any room, the second has room for one notice, and the owner of the third has gone. -/
theorem listeners_evaluateStatements_of_selection :
    let a : Audience := ⟨[⟨⟨0⟩, .empty none, true⟩, ⟨⟨1⟩, .empty (some 1), true⟩,
      ⟨⟨2⟩, (Mailbox.empty none).close, true⟩], 3⟩
    let c : Controller Unit Audience := { fresh (.fresh () default false) a with active := true }
    let s : Selection := ⟨⟨0, 6⟩, ⟨0, 2⟩⟩
    let run := (dispatch ⟨.bare, .audience, .scanning, .localFiles⟩
      (.evaluateStatements "x;a;b;" (some s))).run c
    c.active = true ∧ run.1 = .published 2 ∧
      (∃ l, run.2.outlet.listeners[0]? = some l ∧ l.enrolled = true ∧
        l.mailbox.waiting = [.statement "a", .statement "b"]) ∧
      (∃ l, run.2.outlet.listeners[1]? = some l ∧ l.enrolled = false ∧
        l.mailbox.waiting = [.statement "a"]) ∧
      ∃ l, run.2.outlet.listeners[2]? = some l ∧ l.enrolled = false ∧ l.mailbox.waiting = [] := by
  intro a c s run
  obtain ⟨hcount, -, hlisteners, -⟩ :=
    listeners_evaluateStatements .bare .scanning .localFiles c "x;a;b;" (some s) rfl
  have hevaluated : ((Option.map (Buffer.ofText "x;a;b;").selectedText (some s)).filter
      (· ≠ [])).getD (Buffer.ofText "x;a;b;").text = "a;b;" := by decide
  have htexts : (Statement.segment .localFiles "a;b;").map (·.text) = ["a", "b"] :=
    (congrArg (List.map (·.text)) (StatementStream.toList_eq List.not_mem_nil)).trans (by decide)
  have hnotices : (Statement.segment .localFiles "a;b;").map (Notice.statement ·.text) =
      [.statement "a", .statement "b"] := by
    have hmapped := congrArg (List.map Notice.statement) htexts
    rwa [List.map_map] at hmapped
  have hlength : (Statement.segment .localFiles "a;b;").length = 2 := by
    simpa using congrArg List.length htexts
  rw [hevaluated, hlength] at hcount
  rw [hevaluated, hnotices] at hlisteners
  refine ⟨rfl, hcount, ?_, ?_, ?_⟩
  · obtain ⟨l, hl, hreceived⟩ := hlisteners 0 _ rfl
    obtain ⟨hwaiting, henrolled⟩ := hreceived.unbounded rfl rfl rfl
    exact ⟨l, hl, henrolled, hwaiting⟩
  · obtain ⟨l, hl, hreceived⟩ := hlisteners 1 _ rfl
    obtain ⟨hwaiting, henrolled⟩ := hreceived.bounded 1 rfl rfl rfl
    exact ⟨l, hl, henrolled.mpr (by decide), hwaiting⟩
  · obtain ⟨l, hl, hreceived⟩ := hlisteners 2 _ rfl
    obtain ⟨hwaiting, henrolled⟩ := hreceived.closed rfl rfl
    exact ⟨l, hl, henrolled.mpr (by decide), hwaiting⟩

end Controller
end Livecode
