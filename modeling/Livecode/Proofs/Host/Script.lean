import Livecode.Proofs.Host.Loop
import Livecode.Proofs.Text.Encoding
import Livecode.Proofs.Wire.Command

/-!
# Commands sent to the host

A *script* is made of lines that are either blank or a written command. The host takes it apart as
it was put together: its bytes are cut into its lines, a blank line gives no command, and every
other line gives the command that was written.

## Main results

* `records_encode` — the bytes of lines are cut into the bytes of each line.
* `Script.all_dispatched` — what the host has done is to dispatch the commands of a script.
-/

namespace Livecode.Host

/-! ## Lines -/

/-- Lines, each with a line feed after it. -/
def written (ls : List Text) : Text := ls.flatMap (· ++ ['\n'])

/-- The bytes of lines are cut into the bytes of each line. -/
theorem records_encode {ls : List Text} (h : ∀ l ∈ ls, '\n' ∉ l) :
    Text.records newline (Utf8.encode (written ls)) = ls.map Utf8.encode := by
  induction ls with
  | nil => rfl
  | cons l ls ih =>
    obtain ⟨hl, hls⟩ := List.forall_mem_cons.mp h
    have hbytes : Utf8.encode (written (l :: ls)) =
        Utf8.encode l ++ newline :: Utf8.encode (written ls) := by
      simp only [written, List.flatMap_cons, Utf8.encode_append, List.append_assoc]
      rfl
    have hpiece : Text.pieces newline (Utf8.encode l) = [Utf8.encode l] :=
      Text.pieces_of_not_mem _ (Utf8.lineFeed_not_mem_encode hl)
    rw [hbytes, Text.records_append_sep, hpiece, ih hls]
    rfl

theorem legible_encode (ls : List Text) : legible (ls.map Utf8.encode) = ls := by
  induction ls with
  | nil => rfl
  | cons l ls ih => rw [List.map_cons, legible_cons_some (Utf8.decode?_encode l), ih]

/-- The host reads the lines that were written. -/
theorem inputLines_written {ls : List Text} (h : ∀ l ∈ ls, '\n' ∉ l) :
    inputLines (Utf8.encode (written ls)) = ls :=
  (congrArg legible (records_encode h)).trans (legible_encode ls)

/-- A blank line gives no command. -/
theorem command?_blank {l : Text} (h : l.isAllBlank = true) : command? l = none := by
  have hnothing : l.dropWhile Text.isBlank = [] := by
    simpa [Text.isAllBlank] using h
  rw [command?, Text.trim, hnothing]
  rfl

/-- A written command gives that command. -/
theorem command?_writes {c : Command} {t : Text} (h : c.Writes t) : command? t = some c := by
  rw [command?, h.trim, h.decode]

/-! ## Scripts -/

/-- Lines that are blank or written commands, and the commands. A command may be written with or
without a selection that is absent. -/
inductive Script : List Text → List Command → Prop
  | nil : Script [] []
  | blank {l : Text} {ls : List Text} {cs : List Command} :
      l.isAllBlank = true → '\n' ∉ l → Script ls cs → Script (l :: ls) cs
  | command {c : Command} {l : Text} {ls : List Text} {cs : List Command} :
      c.Fits → l = c.encode ∨ l = c.encodeBrief → Script ls cs → Script (l :: ls) (c :: cs)

namespace Script

variable {ls : List Text} {cs : List Command}

theorem writes {c : Command} {l : Text} (hfits : c.Fits) (hl : l = c.encode ∨ l = c.encodeBrief) :
    c.Writes l := by
  rcases hl with rfl | rfl
  · exact Command.writes_encode hfits
  · exact Command.writes_encodeBrief hfits

theorem lineFeed_not_mem (h : Script ls cs) : ∀ l ∈ ls, '\n' ∉ l := by
  induction h with
  | nil => nofun
  | blank _ hl _ ih => exact List.forall_mem_cons.mpr ⟨hl, ih⟩
  | command hfits hl _ ih =>
    exact List.forall_mem_cons.mpr ⟨(writes hfits hl).lineFeed_not_mem, ih⟩

theorem filterMap_command? (h : Script ls cs) : ls.filterMap command? = cs := by
  induction h with
  | nil => rfl
  | blank hl _ _ ih => rw [List.filterMap_cons_none (command?_blank hl), ih]
  | command hfits hl _ ih =>
    rw [List.filterMap_cons_some (command?_writes (writes hfits hl)), ih]

theorem fits (h : Script ls cs) : ∀ c ∈ cs, c.Fits := by
  induction h with
  | nil => nofun
  | blank _ _ _ ih => exact ih
  | command hfits _ _ ih => exact List.forall_mem_cons.mpr ⟨hfits, ih⟩

variable {ω σ : Type}

/-- **The host dispatches the commands of a script**, all of them and no others, in order, however
its threads take their steps. At any time its controller is where it would be if the commands of its
turns had been dispatched one after the other, with the outlet attended to in each turn, and if
nothing else had been done. These commands are the first ones of the script; once the loop has ended,
as it can from anywhere, they are all of them, and if every line came in time there was one turn for
each line. Each command is written on a line of its own that trimming leaves alone and that is read
as that command, also if an absent selection is left out. -/
theorem all_dispatched (h : Script ls cs) (S : Studio ω σ) (c : Controller ω σ)
    (steps : List Step) :
    let l := (Loop.start (Utf8.encode (written ls)) c).after S steps
    let turns := l.turns.map (·.bind command?)
    l.controller = ((attendAll S turns).run c).2 ∧
      turns.filterMap id <+: cs ∧
      (l.stopped = true → turns.filterMap id = cs ∧ (none ∉ l.turns → turns = ls.map command?)) ∧
      (∃ more, (l.after S more).stopped = true) ∧
      ∀ cmd ∈ cs, ∀ t ∈ [cmd.encode, cmd.encodeBrief],
        '\n' ∉ t ∧ Text.trim t = t ∧ Command.decode t = .ok cmd := by
  intro l turns
  have horderly : Loop.Orderly S (Utf8.encode (written ls)) c l :=
    (Loop.orderly_start _ c).after steps
  have hlines : inputLines (Utf8.encode (written ls)) = ls := inputLines_written h.lineFeed_not_mem
  have hturns : turns.filterMap id = l.taken.filterMap command? := by
    rw [← Loop.dispatched_eq, List.filterMap_map]
    rfl
  refine ⟨horderly.controller, ?_, fun hstopped => ?_, Loop.exists_stopped S l,
    fun cmd hcmd t ht => ?_⟩
  · rw [hturns, ← h.filterMap_command?, ← hlines, ← horderly.lines, List.filterMap_append]
    exact List.prefix_append _ _
  · have htaken : l.taken = ls := (Loop.taken_of_stopped horderly hstopped).trans hlines
    refine ⟨by rw [hturns, htaken, h.filterMap_command?], fun hprompt => ?_⟩
    have hall : l.turns = ls.map some := by
      rw [← htaken, Loop.taken, Loop.map_some_filterMap hprompt]
    show l.turns.map (·.bind command?) = _
    rw [hall, List.map_map]
    rfl
  · have hwrites : cmd.Writes t := writes (h.fits cmd hcmd) (by simpa using ht)
    exact ⟨hwrites.lineFeed_not_mem, hwrites.trim, hwrites.decode⟩

/-- Texts with escaped characters and blanks at their ends, the largest position, and a selection
that is left out; one turn comes too early. The environment is not active, so each command that is
dispatched posts that. -/
theorem all_dispatched_of_odd_texts :
    let region : Command :=
      .evaluateRegion "\u2028\"\\\x00\n\t é".toList ⟨Position.limit, Position.limit⟩
    let detached : Command := .evaluateDetached "\x85".toList none
    let ls : List Text := ["\u3000\t".toList, region.encode, [], detached.encodeBrief]
    let steps := [Step.read, .turn, .turn, .read, .read, .read, .read, .turn, .turn, .turn, .turn]
    let S := studio .default
    let c := controller .default
    let l := (Loop.start (Utf8.encode (written ls)) c).after S steps
    let turns : List (Option Command) := [none, none, some region, none, some detached]
    Script ls [region, detached] ∧ l.stopped = true ∧
      l.turns.map (·.bind command?) = turns ∧ turns.filterMap id = [region, detached] ∧
      l.controller = ((attendAll S turns).run c).2 ∧
      l.controller.supervisor.post.echoed =
        ["ENVIL environment is not started".toList, "ENVIL environment is not started"] := by
  intro region detached ls steps S c l turns
  have hscript : Script ls [region, detached] :=
    .blank (by decide) (by decide) (.command ⟨Nat.le_refl _, Nat.le_refl _⟩ (.inl rfl)
      (.blank (by decide) (by decide) (.command nofun (.inr rfl) .nil)))
  have hstopped : l.stopped = true := by decide +kernel
  have hturns : l.turns.map (·.bind command?) = turns := by decide +kernel
  obtain ⟨hcontroller, -, hall, -⟩ := all_dispatched hscript S c steps
  obtain ⟨hcommands, -⟩ := hall hstopped
  rw [hturns] at hcontroller hcommands
  exact ⟨hscript, hstopped, hturns, hcommands, hcontroller, by rw [hcontroller]; decide⟩

end Script

end Livecode.Host
