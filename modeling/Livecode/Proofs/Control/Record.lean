import Livecode.Proofs.Control.Environment

/-!
# The record of a controller

A controller enters what it does in the journal of its supervisor: what it asks of the outlet and of
the classifier, and what it posts, between the calls of the supervisor itself. Here that journal is
played back on the machine, the outlet and the post window as they were before an action, and it
must give them as they are afterwards. So whatever is counted on the entries of a command is counted
on what the command has done.

An action is described by its record, its result and the controller it leaves behind, and such a
description is put together along the action, as it is for the operations of a supervisor.

## Main results

* `supervised_does` — what is known of an operation of the supervisor is known of the controller.
* `publishAll_does` — handing statements to the outlet changes nothing else.
* `handling_does` — what is added to an action by handling it as code of a language.
-/

namespace Livecode

variable {ω σ α β : Type}

/-! ## Playing a journal back -/

/-- What the effects of a controller are effects on. -/
structure Setting (ω σ : Type) where
  machine : ω
  outlet : σ
  post : PostWindow

namespace Studio

/-- What one effect is: a call on the machine or on the outlet, with the answer that is given, or a
text posted. The classifier keeps no state. -/
inductive Makes (S : Studio ω σ) (x : Setting ω σ) : JournalEntry → Setting ω σ → Prop
  | posted (t : Text) : Makes S x (.posted t) { x with post := x.post.post t }
  | onMachine {e : JournalEntry} {w : ω} : Journal.posted [e] = [] →
      S.machine.Makes x.machine e w → Makes S x e { x with machine := w }
  | classified : Makes S x .classified x
  | opened : Makes S x (.opened (S.outlet.start x.outlet).1)
      { x with outlet := (S.outlet.start x.outlet).2 }
  | closed : Makes S x .closed { x with outlet := S.outlet.stop x.outlet }
  | published (st : Statement) : Makes S x (.published st (S.outlet.publish st x.outlet).1)
      { x with outlet := (S.outlet.publish st x.outlet).2 }

/-- The effects of a journal, one after the other. -/
inductive Replays (S : Studio ω σ) : Setting ω σ → Journal → Setting ω σ → Prop
  | done {x : Setting ω σ} : Replays S x [] x
  | step {x x₁ x' : Setting ω σ} {e : JournalEntry} {j : Journal} :
      S.Makes x e x₁ → Replays S x₁ j x' → Replays S x (e :: j) x'

variable {S : Studio ω σ} {x x₁ x' : Setting ω σ} {i j : Journal}

theorem Replays.append (h : S.Replays x i x₁) (h' : S.Replays x₁ j x') :
    S.Replays x (i ++ j) x' := by
  induction h with
  | done => exact h'
  | step hmake _ ih => exact .step hmake (ih h')

theorem Makes.replays {e : JournalEntry} (h : S.Makes x e x') : S.Replays x [e] x' := .step h .done

/-- The post window changes by the texts posted, and by nothing else. -/
theorem Replays.post (h : S.Replays x j x') : x'.post = x.post.postAll j.posted := by
  induction h with
  | done => rfl
  | @step _ _ _ e j hmake _ ih =>
    have hview : Journal.posted (e :: j) = Journal.posted [e] ++ Journal.posted j :=
      Journal.posted_append [e] j
    rw [ih, hview, PostWindow.postAll_append]
    cases hmake with
    | onMachine hsilent => rw [hsilent]; rfl
    | _ => rfl

/-- A journal played back on the machine alone leaves the outlet as it is. -/
theorem replays_of_machine {w w' : ω} (h : S.machine.Replays w j w') (o : σ) (p : PostWindow) :
    S.Replays ⟨w, o, p⟩ j ⟨w', o, p.postAll j.posted⟩ := by
  induction h generalizing p with
  | done => exact .done
  | step hmake _ ih =>
    cases hmake with
    | posted t => exact .step (.posted t) (ih _)
    | launched id => exact .step (.onMachine rfl (.launched id)) (ih p)
    | probed id => exact .step (.onMachine rfl (.probed id)) (ih p)
    | interpreted id code => exact .step (.onMachine rfl (.interpreted id code)) (ih p)
    | sent id code => exact .step (.onMachine rfl (.sent id code)) (ih p)
    | quit id => exact .step (.onMachine rfl (.quit id)) (ih p)
    | released id => exact .step (.onMachine rfl (.released id)) (ih p)

end Studio

namespace Controller

/-- What the effects of the controller are effects on. -/
def setting (c : Controller ω σ) : Setting ω σ :=
  ⟨c.supervisor.machine, c.outlet, c.supervisor.post⟩

/-- The controller came from `c` to `c'`, and `j` is what it entered and did. -/
structure Recorded (S : Studio ω σ) (c : Controller ω σ) (j : Journal) (c' : Controller ω σ) :
    Prop where
  journal : c'.supervisor.journal = c.supervisor.journal ++ j
  replays : S.Replays c.setting j c'.setting

variable {S : Studio ω σ} {c c₁ c' : Controller ω σ} {i j : Journal}

theorem Recorded.refl (c : Controller ω σ) : Recorded S c [] c := ⟨(List.append_nil _).symm, .done⟩

theorem Recorded.trans (h : Recorded S c i c₁) (h' : Recorded S c₁ j c') :
    Recorded S c (i ++ j) c' where
  journal := by rw [h'.journal, h.journal, List.append_assoc]
  replays := h.replays.append h'.replays

theorem Recorded.post (h : Recorded S c j c') :
    c'.supervisor.post = c.supervisor.post.postAll j.posted := h.replays.post

end Controller

/-! ## Actions -/

namespace Controlled

open Controller

/-- Run from `c`, the action has a record such that `Q` holds of its result, of this record, and of
the controller afterwards. -/
def Does (S : Studio ω σ) (act : Controlled ω σ α) (c : Controller ω σ)
    (Q : α → Journal → Controller ω σ → Prop) : Prop :=
  ∃ j, c.Recorded S j (act.run c).2 ∧ Q (act.run c).1 j (act.run c).2

variable {S : Studio ω σ} {c : Controller ω σ} {act : Controlled ω σ α} {f : α → Controlled ω σ β}
variable {Q Q' : α → Journal → Controller ω σ → Prop} {R : β → Journal → Controller ω σ → Prop}

theorem Does.imp (h : Does S act c Q) (hQ : ∀ a j c', Q a j c' → Q' a j c') : Does S act c Q' := by
  obtain ⟨j, hj, hq⟩ := h
  exact ⟨j, hj, hQ _ _ _ hq⟩

theorem Does.bind (h : Does S act c Q)
    (hf : ∀ a i c₁, Q a i c₁ → Does S (f a) c₁ fun b j c' => R b (i ++ j) c') :
    Does S (act >>= f) c R := by
  obtain ⟨i, hi, hq⟩ := h
  obtain ⟨j, hj, hr⟩ := hf _ _ _ hq
  exact ⟨i ++ j, hi.trans hj, hr⟩

theorem Does.pure {a : α} (h : Q a [] c) : Does S (pure a) c Q := ⟨[], .refl c, h⟩

theorem Does.get_bind {f : Controller ω σ → Controlled ω σ β} (h : Does S (f c) c R) :
    Does S (get >>= f) c R := h

theorem Does.of_run_eq {act' : Controlled ω σ α} (hrun : act.run c = act'.run c)
    (h : Does S act' c Q) : Does S act c Q := by
  unfold Does
  rw [hrun]
  exact h

/-- What is known of the controller afterwards otherwise. -/
theorem Does.and_run {P : Controller ω σ → Prop} (h : Does S act c Q) (hrun : P (act.run c).2) :
    Does S act c fun a j c' => Q a j c' ∧ P c' := by
  obtain ⟨j, hj, hq⟩ := h
  exact ⟨j, hj, hq, hrun⟩

end Controlled

namespace Controller

open Controlled

variable (S : Studio ω σ) (c : Controller ω σ)

/-! ### Single effects -/

theorem supervised_does {act : Supervised ω α} {Q : α → Journal → Supervisor ω → Prop}
    (htrue : Supervised.Faithful S.machine act) (h : Supervised.Does act c.supervisor Q) :
    Does S (supervised act) c fun a j c' =>
      Q a j c'.supervisor ∧ c' = { c with supervisor := c'.supervisor } := by
  obtain ⟨j, hj, hq⟩ := h
  obtain ⟨hreplays, hpost⟩ := htrue.record hj
  have hplayed : S.Replays c.setting j
      ⟨(act.run c.supervisor).2.machine, c.outlet, c.supervisor.post.postAll j.posted⟩ :=
    Studio.replays_of_machine hreplays c.outlet c.supervisor.post
  rw [← hpost] at hplayed
  exact ⟨j, ⟨hj, hplayed⟩, hq, rfl⟩

theorem say_does (t : Text) : Does S (say t) c fun _ j _ => j = [.posted t] :=
  ⟨_, ⟨rfl, (Studio.Makes.posted t).replays⟩, rfl⟩

theorem classified_does : Does S (enter .classified) c fun _ j c' =>
    j = [.classified] ∧ c'.supervisor.standing = c.supervisor.standing :=
  ⟨_, ⟨rfl, Studio.Makes.classified.replays⟩, rfl, rfl⟩

theorem setActivity_does (l : Language) (a : Activity) : Does S (setActivity l a) c fun _ j c' =>
    j = [] ∧ c' = ((setActivity l a).run c).2 := by
  have hsame : Recorded S c [] ((setActivity l a).run c).2 := by
    cases l with
    | hydra => exact ⟨(List.append_nil _).symm, .done⟩
    | superCollider => exact ⟨(List.append_nil _).symm, .done⟩
  exact ⟨[], hsame, rfl, rfl⟩

theorem setActive_does (active : Bool) :
    Does S (modify fun c : Controller ω σ => { c with active }) c fun _ j c' =>
      j = [] ∧ c' = { c with active } :=
  ⟨[], ⟨(List.append_nil _).symm, .done⟩, rfl, rfl⟩

theorem supervisor_setActivity (l : Language) (a : Activity) :
    ((setActivity l a).run c).2.supervisor = c.supervisor := by
  cases l with
  | hydra => rfl
  | superCollider => rfl

/-- The controller once the outlet has done something, and that is entered. -/
def entered (o : σ) (e : JournalEntry) : Controller ω σ :=
  { c with
    outlet := o
    supervisor := { c.supervisor with journal := c.supervisor.journal ++ [e] } }

/-- A call on the outlet is entered, and then something else is done. -/
theorem onOutlet_does {e : α → JournalEntry} {rest : α → Controlled ω σ β}
    {R : β → Journal → Controller ω σ → Prop} (call : σ → α × σ)
    (hmake : S.Makes c.setting (e (call c.outlet).1) { c.setting with outlet := (call c.outlet).2 })
    (hrest : Does S (rest (call c.outlet).1) (c.entered (call c.outlet).2 (e (call c.outlet).1))
      fun b j c' => R b (e (call c.outlet).1 :: j) c') : Does S (do
    let a ← onOutlet call
    enter (e a)
    rest a) c R := by
  obtain ⟨j, hj, hr⟩ := hrest
  have hone : c.Recorded S [e (call c.outlet).1]
      (c.entered (call c.outlet).2 (e (call c.outlet).1)) := ⟨rfl, hmake.replays⟩
  exact ⟨_, hone.trans hj, hr⟩

/-! ### Statements -/

/-- The outlet once statements have been handed to it. -/
def publishedTo (O : Outlet σ) (o : σ) (sts : List Statement) : σ :=
  sts.foldl (fun o st => (O.publish st o).2) o

/-- Handing statements to the outlet changes nothing else. -/
theorem publishAll_does (sts : List Statement) : Does S (publishAll S sts) c fun _ j c' =>
    (∀ e ∈ j, ∃ st n, e = .published st n) ∧ j.published = sts ∧
      c' = { c with
        outlet := publishedTo S.outlet c.outlet sts
        supervisor := { c.supervisor with journal := c.supervisor.journal ++ j } } := by
  induction sts generalizing c with
  | nil =>
    refine .pure ⟨nofun, rfl, ?_⟩
    rw [List.append_nil]
    rfl
  | cons st sts ih =>
    apply onOutlet_does S c (S.outlet.publish st) (.published st)
    apply (ih _).imp
    rintro _ j c' ⟨hentries, hpublished, rfl⟩
    refine ⟨?_, ?_, ?_⟩
    · intro e he
      rcases List.mem_cons.mp he with rfl | he
      · exact ⟨st, _, rfl⟩
      · exact hentries e he
    · exact congrArg (st :: ·) hpublished
    · simp only [entered, List.append_assoc]
      rfl

end Controller

/-! ### Reports -/

/-- What a result comes to. -/
def Outcome.ofResult : Except CommandError Outcome → Outcome
  | .ok o => o
  | .error e => if e.isSilent then .noRegion else .rejected e

/-- What is posted of a result. -/
def Journal.report : Except CommandError Outcome → Journal
  | .ok _ => []
  | .error e => if e.isSilent then [] else [.posted e.message]

namespace Controller

open Controlled

variable (S : Studio ω σ) (c : Controller ω σ)

theorem reject_does (e : CommandError) : Does S (reject e) c fun o j _ =>
    o = .ofResult (.error e) ∧ j = .report (.error e) := by
  unfold reject Outcome.ofResult Journal.report
  dsimp only
  split
  · exact .pure ⟨rfl, rfl⟩
  · apply (say_does S c e.message).bind
    rintro _ _ c₁ rfl
    exact .pure ⟨rfl, rfl⟩

theorem settle_does (r : Except CommandError Outcome) : Does S (settle r) c fun o j _ =>
    o = .ofResult r ∧ j = .report r := by
  cases r with
  | ok o => exact .pure ⟨rfl, rfl⟩
  | error e => exact reject_does S c e

variable {S c} {l : Language} {Q : Outcome → Journal → Controller ω σ → Prop}

theorem whenReady_does {act : Controlled ω σ Outcome} (hactive : c.active = true)
    (h : Does S act c Q) : Does S (whenReady act) c Q :=
  .of_run_eq (run_whenReady_of_active act hactive) h

/-- What handling adds to an action: the language is busy meanwhile, and the result is reported. -/
theorem handling_does {act : Controlled ω σ (Except CommandError Outcome)}
    {R : Except CommandError Outcome → Journal → Controller ω σ → Prop} (hactive : c.active = true)
    (h : Does S act ((setActivity l .dispatching).run c).2 R)
    (hend : ∀ r j c₁, R r j c₁ →
      Does S (settle r) ((setActivity l .idle).run c₁).2 fun o k c' => Q o (j ++ k) c') :
    Does S (handling l act) c Q := by
  apply whenReady_does hactive
  apply (setActivity_does S c l .dispatching).bind
  rintro _ _ _ ⟨rfl, rfl⟩
  apply h.bind
  intro r j c₁ hr
  apply (setActivity_does S c₁ l .idle).bind
  rintro _ _ _ ⟨rfl, rfl⟩
  exact hend r j c₁ hr

end Controller
end Livecode
