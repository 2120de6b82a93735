import Livecode.Proofs.Json.Written
import Livecode.Wire.Command

/-!
# Reading commands back

A command is read back from its written form, also if a selection that is absent is not written at
all. A written command is a single line without blanks around it.

## Main results

* `Command.Writes.decode` — reading gives back what was written.
* `Command.Writes.lineFeed_not_mem`, `Command.Writes.trim` — a written command is one line.
-/

namespace Livecode

/-! ## Positions -/

namespace Position

/-- Both coordinates fit a word. -/
def Fits (p : Position) : Prop := p.line ≤ limit ∧ p.column ≤ limit

instance (p : Position) : Decidable p.Fits := inferInstanceAs (Decidable (_ ∧ _))

/-- The value that a position is written as. -/
def value (p : Position) : Json.Value :=
  .object [("line", .number (some p.line)), ("column", .number (some p.column))]

theorem spells_encode (depth : Nat) {p : Position} (h : p.Fits) :
    Json.Spells (depth + 1) p.encode p.value := by
  have hline : p.line < Json.Scientific.wordBound := Nat.lt_succ_of_le h.1
  have hcolumn : p.column < Json.Scientific.wordBound := Nat.lt_succ_of_le h.2
  have hfields : Json.SpellsFields depth
      [("line", Json.natural p.line), ("column", Json.natural p.column)] _ :=
    .cons (Json.spells_natural depth hline) (.cons (Json.spells_natural depth hcolumn) .nil)
  exact hfields.spells (List.cons_ne_nil _ _)

end Position

/-! ## Selections -/

namespace Selection

def Fits (s : Selection) : Prop := s.anchor.Fits ∧ s.active.Fits

instance (s : Selection) : Decidable s.Fits := inferInstanceAs (Decidable (_ ∧ _))

/-- The value that a selection is written as. -/
def value (s : Selection) : Json.Value :=
  .object [("anchor", s.anchor.value), ("active", s.active.value)]

/-- The value that a selection is written as, if there is one. -/
def optionValue : Option Selection → Json.Value
  | some s => s.value
  | none => .null

theorem spells_encodeOption (depth : Nat) {s : Option Selection} (h : ∀ s' ∈ s, s'.Fits) :
    Json.Spells (depth + 2) (encodeOption s) (optionValue s) := by
  cases s with
  | none => exact Json.spells_null _
  | some s =>
    obtain ⟨hanchor, hactive⟩ := h s rfl
    have hfields : Json.SpellsFields (depth + 1)
        [("anchor", s.anchor.encode), ("active", s.active.encode)] _ :=
      .cons (Position.spells_encode depth hanchor)
        (.cons (Position.spells_encode depth hactive) .nil)
    exact hfields.spells (List.cons_ne_nil _ _)

end Selection

/-! ## Commands -/

namespace Command

/-- All positions in a command fit a word. -/
def Fits : Command → Prop
  | .evaluateStatements _ selection => ∀ s ∈ selection, s.Fits
  | .evaluate _ selection => ∀ s ∈ selection, s.Fits
  | .evaluateDetached _ selection => ∀ s ∈ selection, s.Fits
  | .evaluateRegion _ cursor => cursor.Fits
  | _ => True

/-- The fields of a command beside its name, without those that are null. -/
def briefFields : Command → List (Text × Text)
  | .evaluateStatements text none => [("text", Json.quote text)]
  | .evaluate text none => [("text", Json.quote text)]
  | .evaluateDetached text none => [("text", Json.quote text)]
  | c => c.fields

/-- A command as JSON, an absent selection left out. -/
def encodeBrief (c : Command) : Text :=
  Json.object (("command", Json.quote c.kind.name) :: c.briefFields)

/-- The text is a written form of the command: an object that names it and has its fields. -/
inductive Writes (c : Command) : Text → Prop
  | object {fs : List (Text × Text)} {vs : List (Text × Json.Value)} :
      Json.SpellsFields 2 fs vs → "command".toList ∉ vs.map (·.1) →
      build? c.kind (.fields vs) = some c →
      Writes c (Json.object (("command", Json.quote c.kind.name) :: fs))

section
variable (text : Text) {selection : Option Selection} {cursor : Position}

/-- The fields of a command that may be about a selection. -/
theorem spells_selection (h : ∀ s ∈ selection, s.Fits) :
    Json.SpellsFields 2
      [("text", Json.quote text), ("selection", Selection.encodeOption selection)]
      [("text", .string text), ("selection", Selection.optionValue selection)] :=
  .cons (Json.spells_quote 2 text) (.cons (Selection.spells_encodeOption 0 h) .nil)

/-- The same without the selection. -/
theorem spells_text : Json.SpellsFields 2 [("text", Json.quote text)] [("text", .string text)] :=
  .cons (Json.spells_quote 2 text) .nil

/-- The fields of a command at a cursor. -/
theorem spells_cursor (h : cursor.Fits) :
    Json.SpellsFields 2 [("text", Json.quote text), ("cursor", cursor.encode)]
      [("text", .string text), ("cursor", cursor.value)] :=
  .cons (Json.spells_quote 2 text) (.cons (Position.spells_encode 1 h) .nil)

end

theorem tag_not_mem : "command".toList ∉ ["text".toList, "selection".toList] ∧
    "command".toList ∉ ["text".toList, "cursor".toList] ∧
    "command".toList ∉ ["text".toList] := by decide

theorem writes_encode {c : Command} (h : c.Fits) : c.Writes c.encode := by
  obtain ⟨hselection, hcursor, -⟩ := tag_not_mem
  cases c with
  | evaluateStatements text selection =>
    exact .object (spells_selection text h) hselection (by cases selection <;> rfl)
  | evaluate text selection =>
    exact .object (spells_selection text h) hselection (by cases selection <;> rfl)
  | evaluateDetached text selection =>
    exact .object (spells_selection text h) hselection (by cases selection <;> rfl)
  | evaluateRegion text cursor => exact .object (spells_cursor text h) hcursor rfl
  | _ => exact .object .nil List.not_mem_nil rfl

/-- An absent selection need not be written. -/
theorem writes_encodeBrief {c : Command} (h : c.Fits) : c.Writes c.encodeBrief := by
  have hwhole := writes_encode h
  obtain ⟨-, -, htext⟩ := tag_not_mem
  cases c with
  | evaluateStatements text selection =>
    cases selection with
    | none => exact .object (spells_text text) htext rfl
    | some s => exact hwhole
  | evaluate text selection =>
    cases selection with
    | none => exact .object (spells_text text) htext rfl
    | some s => exact hwhole
  | evaluateDetached text selection =>
    cases selection with
    | none => exact .object (spells_text text) htext rfl
    | some s => exact hwhole
  | _ => exact hwhole

namespace Writes

variable {c : Command} {t : Text}

/-- **Reading a command gives back what was written.** -/
theorem decode (h : c.Writes t) : Command.decode t = .ok c := by
  obtain ⟨hfields, htag, hbuild⟩ := h
  exact Json.decodeTagged_object hfields (by decide) (Kind.ofName?_name c.kind) htag hbuild

/-- A command is written without control characters. -/
theorem not_control (h : c.Writes t) : ∀ d ∈ t, 0x20 ≤ d.toNat := by
  obtain ⟨hfields, -, -⟩ := h
  exact ((Json.SpellsFields.cons (Json.spells_quote 2 c.kind.name) hfields).spells
    (List.cons_ne_nil _ _)).plain

/-- A written command is one line. -/
theorem lineFeed_not_mem (h : c.Writes t) : '\n' ∉ t := fun hmem =>
  absurd (h.not_control _ hmem) (by decide)

/-- A written command has no blanks around it. -/
theorem trim (h : c.Writes t) : Text.trim t = t := by
  obtain ⟨-, -, -⟩ := h
  exact Json.trim_object _

end Writes

end Command
end Livecode
