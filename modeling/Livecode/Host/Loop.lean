import Livecode.Host

/-!
# The loop of the host

Two threads serve the host. One reads the input line by line and queues the lines. The other, the
loop, takes a line from the queue and carries it out, or goes on without one if none came in time;
either way it then attends to the outlet. The loop ends when the queue is empty and the reading
thread has ended. Each thread works at its own pace.

## Main results

* `Loop.after_append` — steps are taken piece by piece.
-/

namespace Livecode.Host

/-- The host between two steps of its threads. -/
structure Loop (ω σ : Type) where
  /-- Lines of the input that have not been read. -/
  unread : List (List UInt8)
  /-- The reading thread has not ended. -/
  reading : Bool
  /-- Lines that have been read and wait to be carried out, oldest first. -/
  queue : List Text
  /-- The turns of the loop so far: the line of each, if one came in time. -/
  turns : List (Option Text)
  /-- The loop has ended. -/
  stopped : Bool
  controller : Controller ω σ

/-- A step of one of the threads. -/
inductive Step where
  | read
  | turn
  deriving DecidableEq, Repr

namespace Loop

variable {ω σ : Type} (S : Studio ω σ)

/-- The reading thread has just been started. -/
def start (input : List UInt8) (c : Controller ω σ) : Loop ω σ where
  unread := Text.records newline input
  reading := true
  queue := []
  turns := []
  stopped := false
  controller := c

/-- The reading thread reads a line. It ends with the input, or with a line that is not UTF-8. -/
def read (l : Loop ω σ) : Loop ω σ :=
  if l.reading then
    match l.unread with
    | [] => { l with reading := false }
    | r :: unread =>
      match Utf8.decode? r with
      | some line => { l with unread, queue := l.queue ++ [line] }
      | none => { l with unread, reading := false }
  else l

/-- The loop takes a turn. -/
def turn (l : Loop ω σ) : Loop ω σ :=
  if l.stopped then l
  else
    match l.queue with
    | line :: queue =>
      { l with
        queue
        turns := l.turns ++ [some line]
        controller := ((carryOutLine S line).run l.controller).2 }
    | [] =>
      if l.reading then
        { l with
          turns := l.turns ++ [none]
          controller := ((Controller.pump S).run l.controller).2 }
      else { l with stopped := true }

def step (l : Loop ω σ) : Step → Loop ω σ
  | .read => l.read
  | .turn => l.turn S

/-- The host after some steps. -/
def after (l : Loop ω σ) (steps : List Step) : Loop ω σ := steps.foldl (step S) l

theorem after_append (l : Loop ω σ) (steps more : List Step) :
    l.after S (steps ++ more) = (l.after S steps).after S more := List.foldl_append ..

/-- The commands that have been dispatched: those that the lines taken so far give. -/
def dispatched (l : Loop ω σ) : List Command := l.turns.filterMap (·.bind command?)

end Loop
end Livecode.Host
