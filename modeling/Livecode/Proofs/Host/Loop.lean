import Livecode.Host.Loop
import Mathlib.Data.List.TakeWhile

/-!
# What the host dispatches

However its two threads take their steps, the host carries out the same lines in the same order:
those of the input before the first that is not UTF-8. A line that gives no command is a turn like
one without a line. What the loop has taken, and what it will still be given, together stay the same
with every step (`due_read`, `due_turn`).

What the host has done is told of its controller: it is as if the turns had been attended to one
after the other (`Orderly.controller`).

## Main results

* `Orderly.after` — what holds at any time, whatever steps the threads have taken.
* `exists_stopped` — the loop can end from anywhere.
* `dispatched_of_stopped` — which commands are dispatched, and what becomes of the other lines.
-/

namespace Livecode.Host

/-! ## Lines -/

/-- The command that a line of the input gives, if it gives one. -/
def recordCommand? (r : List UInt8) : Option Command := (Utf8.decode? r).bind command?

/-- The lines that are read until one is not UTF-8. -/
def legible (rs : List (List UInt8)) : List Text :=
  ((rs.map Utf8.decode?).takeWhile Option.isSome).filterMap id

theorem legible_cons_some {r : List UInt8} {line : Text} (h : Utf8.decode? r = some line)
    (rs : List (List UInt8)) : legible (r :: rs) = line :: legible rs := by
  simp [legible, h]

theorem legible_cons_none {r : List UInt8} (h : Utf8.decode? r = none) (rs : List (List UInt8)) :
    legible (r :: rs) = [] := by
  simp [legible, h]

/-- The commands of the lines that are read. -/
theorem filterMap_legible (rs : List (List UInt8)) :
    (legible rs).filterMap command? =
      (rs.takeWhile fun r => (Utf8.decode? r).isSome).filterMap recordCommand? := by
  induction rs with
  | nil => rfl
  | cons r rs ih =>
    cases h : Utf8.decode? r with
    | none => simp [legible_cons_none h, h]
    | some line => simp [legible_cons_some h, h, ih, recordCommand?, List.filterMap_cons]

variable {ω σ : Type} (S : Studio ω σ)

/-! ## Turns -/

/-- What a turn does: a command is dispatched if there is one, and the outlet is attended to. -/
def attend (c : Option Command) : Controlled ω σ Unit := do
  match c with
  | some c => let _ ← Controller.dispatch S c
  | none => pure ()
  Controller.pump S

/-- Turns one after the other. -/
def attendAll : List (Option Command) → Controlled ω σ Unit
  | [] => pure ()
  | c :: cs => do attend S c; attendAll cs

/-- One more turn. -/
theorem run_attendAll_concat (cs : List (Option Command)) (cmd : Option Command)
    (c : Controller ω σ) :
    ((attendAll S (cs ++ [cmd])).run c).2 =
      ((attend S cmd).run ((attendAll S cs).run c).2).2 := by
  induction cs generalizing c with
  | nil => rfl
  | cons cmd' cs ih => exact ih ((attend S cmd').run c).2

theorem carryOutLine_eq (line : Text) : carryOutLine S line = attend S (command? line) := rfl

theorem carryOut_eq (lines : List Text) :
    carryOut S lines = attendAll S (lines.map command?) := by
  induction lines with
  | nil => rfl
  | cons line lines ih => rw [carryOut, ih, carryOutLine_eq, List.map_cons, attendAll]

namespace Loop

/-- The lines that the loop has taken. -/
def taken (l : Loop ω σ) : List Text := l.turns.filterMap id

/-- The lines that it will still be given. -/
def due (l : Loop ω σ) : List Text := l.queue ++ if l.reading then legible l.unread else []

theorem dispatched_eq (l : Loop ω σ) : l.dispatched = l.taken.filterMap command? := by
  rw [taken, List.filterMap_filterMap]
  rfl

/-! ## One step -/

variable {S} {l : Loop ω σ}

/-- Reading a line takes none from those that will be given. -/
theorem due_read (l : Loop ω σ) : l.read.due = l.due := by
  obtain ⟨unread, reading, queue, turns, stopped, c⟩ := l
  cases reading with
  | false => rfl
  | true =>
    cases unread with
    | nil => rfl
    | cons r unread =>
      cases h : Utf8.decode? r with
      | none => simp [read, due, h, legible_cons_none h]
      | some line => simp [read, due, h, legible_cons_some h]

/-- Reading concerns only the queue. -/
theorem read_same (l : Loop ω σ) :
    l.read.turns = l.turns ∧ l.read.stopped = l.stopped ∧ l.read.controller = l.controller := by
  unfold read
  split
  · split
    · exact ⟨rfl, rfl, rfl⟩
    · split <;> exact ⟨rfl, rfl, rfl⟩
  · exact ⟨rfl, rfl, rfl⟩

/-- The line that a turn takes is the next of those that will be given. -/
theorem due_turn (l : Loop ω σ) : (l.turn S).taken ++ (l.turn S).due = l.taken ++ l.due := by
  obtain ⟨unread, reading, queue, turns, stopped, c⟩ := l
  cases stopped with
  | true => rfl
  | false =>
    cases queue with
    | cons line queue => simp [turn, taken, due]
    | nil => cases reading <;> simp [turn, taken, due]

/-- What holds at any time, when the input was the given one and the controller began as `c`. -/
structure Orderly (S : Studio ω σ) (input : List UInt8) (c : Controller ω σ) (l : Loop ω σ) :
    Prop where
  lines : l.taken ++ l.due = inputLines input
  controller : l.controller = ((attendAll S (l.turns.map (·.bind command?))).run c).2
  ended : l.stopped = true → l.due = []

theorem orderly_start (input : List UInt8) (c : Controller ω σ) :
    Orderly S input c (start input c) := ⟨rfl, rfl, nofun⟩

section
variable {input : List UInt8} {c : Controller ω σ}

theorem Orderly.read (h : Orderly S input c l) : Orderly S input c l.read := by
  obtain ⟨hturns, hstopped, hcontroller⟩ := l.read_same
  refine ⟨?_, ?_, ?_⟩
  · rw [taken, hturns, due_read]
    exact h.lines
  · rw [hturns, hcontroller]
    exact h.controller
  · rw [hstopped, due_read]
    exact h.ended

/-- A turn of the loop acts as the command of its line, if there is one, and is over with the last
line. -/
theorem Orderly.turn (h : Orderly S input c l) : Orderly S input c (l.turn S) where
  lines := (due_turn l).trans h.lines
  controller := by
    unfold Loop.turn
    split
    · exact h.controller
    · split
      · rw [List.map_append, List.map_singleton, run_attendAll_concat, ← h.controller]
        rfl
      · split
        · rw [List.map_append, List.map_singleton, run_attendAll_concat, ← h.controller]
          rfl
        · exact h.controller
  ended := by
    have hended := h.ended
    obtain ⟨unread, reading, queue, turns, stopped, c'⟩ := l
    cases stopped with
    | true => exact hended
    | false => cases queue <;> cases reading <;> simp [Loop.turn, due]

theorem Orderly.after (h : Orderly S input c l) (steps : List Step) :
    Orderly S input c (l.after S steps) := by
  induction steps generalizing l with
  | nil => exact h
  | cons s steps ih =>
    cases s with
    | read => exact ih h.read
    | turn => exact ih h.turn

end

/-! ## The end -/

/-- Once enough has been read, the reading thread has ended. -/
theorem exists_reads (S : Studio ω σ) (l : Loop ω σ) :
    ∃ k, (l.after S (List.replicate k .read)).reading = false := by
  obtain ⟨unread, reading, queue, turns, stopped, c⟩ := l
  induction unread generalizing reading queue with
  | nil => cases reading <;> exact ⟨1, rfl⟩
  | cons r unread ih =>
    cases reading with
    | false => exact ⟨0, rfl⟩
    | true =>
      cases h : Utf8.decode? r with
      | none => exact ⟨1, by simp [Loop.after, step, read, h]⟩
      | some line =>
        obtain ⟨k, hk⟩ := ih true (queue ++ [line])
        refine ⟨k + 1, ?_⟩
        have hread : read ⟨r :: unread, true, queue, turns, stopped, c⟩ =
            ⟨unread, true, queue ++ [line], turns, stopped, c⟩ := by simp [read, h]
        rw [List.replicate_succ, Loop.after, List.foldl_cons, step, hread]
        exact hk

/-- Once the reading thread has ended, enough turns end the loop. -/
theorem exists_turns {l : Loop ω σ} (h : l.reading = false) :
    ∃ k, (l.after S (List.replicate k .turn)).stopped = true := by
  obtain ⟨unread, reading, queue, turns, stopped, c⟩ := l
  subst h
  cases stopped with
  | true => exact ⟨0, rfl⟩
  | false =>
    induction queue generalizing turns c with
    | nil => exact ⟨1, rfl⟩
    | cons line queue ih =>
      obtain ⟨k, hk⟩ := ih (turns ++ [some line]) ((carryOutLine S line).run c).2
      exact ⟨k + 1, hk⟩

/-- The loop can end at any time from when the input does. -/
theorem exists_stopped (S : Studio ω σ) (l : Loop ω σ) :
    ∃ more, (l.after S more).stopped = true := by
  obtain ⟨k, hk⟩ := exists_reads S l
  obtain ⟨m, hm⟩ := exists_turns (S := S) hk
  exact ⟨_, (congrArg stopped (after_append S l _ _)).trans hm⟩

/-! ## Runs -/

theorem taken_of_stopped {input : List UInt8} {c : Controller ω σ} (h : Orderly S input c l)
    (hstopped : l.stopped = true) : l.taken = inputLines input := by
  rw [← h.lines, h.ended hstopped, List.append_nil]

theorem map_some_filterMap {α : Type} {ts : List (Option α)} (h : none ∉ ts) :
    (ts.filterMap id).map some = ts := by
  induction ts with
  | nil => rfl
  | cons t ts ih =>
    obtain ⟨ht, hts⟩ := List.ne_and_not_mem_of_not_mem_cons h
    obtain ⟨a, rfl⟩ := Option.ne_none_iff_exists'.mp ht.symm
    rw [List.filterMap_cons_some (f := id) rfl, List.map_cons, ih hts]

/-- A loop to which every line came in time has done what the run of the host does. -/
theorem controller_of_prompt {input : List UInt8} {c : Controller ω σ} (h : Orderly S input c l)
    (hstopped : l.stopped = true) (hprompt : none ∉ l.turns) :
    l.controller = ((carryOut S (inputLines input)).run c).2 := by
  have hturns : l.turns = (inputLines input).map some := by
    rw [← taken_of_stopped h hstopped, taken, map_some_filterMap hprompt]
  rw [h.controller, hturns, carryOut_eq, List.map_map]
  rfl

/-- **What the host dispatches.** However its threads take their steps, the commands dispatched
until the loop ends are, in order, those given by the lines before the first that is not UTF-8; if
all lines are UTF-8, those of all lines. At any time these are the first of them. What else the
controller has done is to attend to the outlet, once in each turn: a line that gives no command is
like no line. If every line came in time, the host has carried out its lines one after the other.
The loop ends once the input has been read and no line is left. -/
theorem dispatched_of_stopped (S : Studio ω σ) (input : List UInt8) (c : Controller ω σ)
    (steps : List Step) :
    let l := (start input c).after S steps
    let records := Text.records newline input
    let read := records.takeWhile fun r => (Utf8.decode? r).isSome
    (l.stopped = true → l.dispatched = read.filterMap recordCommand? ∧
      ((∀ r ∈ records, (Utf8.decode? r).isSome = true) →
        l.dispatched = records.filterMap recordCommand?) ∧
      (none ∉ l.turns → l.controller = ((carryOut S (inputLines input)).run c).2)) ∧
    l.dispatched <+: read.filterMap recordCommand? ∧
    l.controller = ((attendAll S (l.turns.map (·.bind command?))).run c).2 ∧
    ∃ more, (l.after S more).stopped = true := by
  intro l records read
  have horderly : Orderly S input c l := (orderly_start input c).after steps
  have hread : (inputLines input).filterMap command? = read.filterMap recordCommand? :=
    filterMap_legible records
  refine ⟨fun hstopped => ?_, ?_, horderly.controller, exists_stopped S l⟩
  · have hdispatched : l.dispatched = read.filterMap recordCommand? := by
      rw [dispatched_eq, taken_of_stopped horderly hstopped, hread]
    refine ⟨hdispatched, fun hall => ?_, controller_of_prompt horderly hstopped⟩
    have hwhole : read = records := List.takeWhile_eq_self_iff.mpr hall
    rw [hdispatched, hwhole]
  · rw [dispatched_eq, ← hread, ← horderly.lines, List.filterMap_append]
    exact List.prefix_append _ _

/-- Two commands with a line between them that is none. -/
theorem dispatched_of_malformed_line :
    let input := Utf8.encode (Command.hush.encode ++ "\nrewind\n ".toList ++
      Command.bootServer.encode ++ "\r\n".toList)
    let steps := [Step.read, .turn, .read, .read, .turn, .read, .turn, .turn]
    let S := studio .default
    let l := (start input (Host.controller .default)).after S steps
    (l.stopped = true ∧ (∀ r ∈ Text.records newline input, (Utf8.decode? r).isSome = true) ∧
      none ∉ l.turns) ∧ l.dispatched = [.hush, .bootServer] ∧
      l.controller = ((carryOut S (inputLines input)).run (Host.controller .default)).2 := by
  intro input steps S l
  have hstopped : l.stopped = true := by decide
  have hall : ∀ r ∈ Text.records newline input, (Utf8.decode? r).isSome = true := by decide
  have hprompt : none ∉ l.turns := by decide
  obtain ⟨-, hdispatched, hcontroller⟩ :=
    (dispatched_of_stopped S input (Host.controller .default) steps).1 hstopped
  have hcommands :
      (Text.records newline input).filterMap recordCommand? = [.hush, .bootServer] := by decide
  exact ⟨⟨hstopped, hall, hprompt⟩, (hdispatched hall).trans hcommands, hcontroller hprompt⟩

/-- A line that is not UTF-8 costs the commands after it. -/
theorem not_dispatched_after_illegible_line :
    let input := 0xFF :: newline :: Utf8.encode (Command.hush.encode ++ ['\n'])
    let l := (start input (Host.controller .default)).after (studio .default) [.read, .turn]
    l.stopped = true ∧ l.dispatched = [] ∧
      (Text.records newline input).filterMap recordCommand? = [.hush] := by
  decide

end Loop

end Livecode.Host
