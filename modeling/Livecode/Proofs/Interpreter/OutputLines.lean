import Livecode.Interpreter.Reader
import Livecode.Proofs.Text.Decoding

/-!
# The lines of an output

The output of an interpreter is cut into lines first and each line is decoded on its own, without
regard to what the bytes of its neighbours would make of it. Nothing is lost by that: cutting what
the whole output decodes to gives the same lines. It does not matter either whether a line is
decoded with the line feed that ends it or without.

## Main results

* `decodeLine_concat_newline` — the line feed of a line makes no difference to it.
* `outputLines_eq_records` — the lines of the output are the lines of the whole output, decoded.
-/

namespace Livecode

namespace Text

/-! ## Cutting behind a separator -/

section
variable {α : Type} [DecidableEq α] (sep : α)

/-- The sequence cut behind every separator; there is no last part unless something is left. -/
def segments : List α → List (List α)
  | [] => []
  | a :: as =>
    if a = sep then [a] :: segments as
    else match segments as with
      | [] => [[a]]
      | p :: ps => (a :: p) :: ps

/-- The parts are the records, each with the separator that ends it. -/
theorem segments_eq (as : List α) :
    segments sep as = (pieces sep as).dropLast.map (· ++ [sep]) ++
      let last := (pieces sep as).getLast (pieces_ne_nil sep as)
      if last = [] then [] else [last] := by
  induction as with
  | nil => rfl
  | cons a as ih =>
    obtain ⟨p, ps, hp⟩ := List.exists_cons_of_ne_nil (pieces_ne_nil sep as)
    by_cases ha : a = sep
    · simp [segments, pieces, ha, ih, hp]
    · cases ps with
      | nil => by_cases hnil : p = [] <;> simp [segments, pieces, ha, ih, hp, hnil]
      | cons q ps => simp [segments, pieces, ha, ih, hp]

end

/-- A map that takes pieces to pieces, and no piece but the empty one to an empty one, takes records
to records. -/
theorem records_map {α β : Type} [DecidableEq α] [DecidableEq β] {sep : α} {sep' : β}
    {as : List α} {bs : List β} {f : List α → List β} (hnil : ∀ p, f p = [] ↔ p = [])
    (hpieces : pieces sep' bs = (pieces sep as).map f) :
    records sep' bs = (records sep as).map f := by
  have hlast : (pieces sep' bs).getLast (pieces_ne_nil sep' bs) =
      f ((pieces sep as).getLast (pieces_ne_nil sep as)) := by
    simp only [hpieces, List.getLast_map]
  simp only [records, hlast, hnil]
  rw [hpieces, List.map_append, List.map_dropLast, apply_ite (List.map f)]
  rfl

theorem mem_pieces_of_mem_records {α : Type} [DecidableEq α] {sep : α} {as p : List α}
    (h : p ∈ records sep as) : p ∈ pieces sep as := by
  rcases List.mem_append.mp h with h | h
  · exact List.dropLast_subset _ h
  · by_cases hlast : (pieces sep as).getLast (pieces_ne_nil sep as) = []
    · simp [hlast] at h
    · rw [if_neg hlast, List.mem_singleton] at h
      exact h ▸ List.getLast_mem _

theorem dropWhile_congr {p q : Char → Bool} {t : Text} (h : ∀ c ∈ t, p c = q c) :
    t.dropWhile p = t.dropWhile q := by
  induction t with
  | nil => rfl
  | cons c t ih =>
    obtain ⟨hc, ht⟩ := List.forall_mem_cons.mp h
    rw [List.dropWhile_cons, List.dropWhile_cons, hc, ih ht]

theorem dropEndWhile_congr {p q : Char → Bool} {t : Text} (h : ∀ c ∈ t, p c = q c) :
    dropEndWhile p t = dropEndWhile q t := by
  rw [dropEndWhile, dropEndWhile, dropWhile_congr fun c hc => h c (List.mem_reverse.mp hc)]

end Text

/-! ## Lines of output -/

/-- A line without a line feed loses only the carriage returns at its end. -/
theorem decodeLine_of_not_mem {bs : List UInt8} (h : newline ∉ bs) :
    decodeLine bs = Text.dropEndWhile (· == '\r') (Utf8.decodeLossy bs) := by
  refine Text.dropEndWhile_congr fun c hc => ?_
  have hne : c ≠ '\n' := fun heq => Utf8.lineFeed_not_mem_decodeLossy h (heq ▸ hc)
  rw [beq_false_of_ne hne, Bool.false_or]

/-- The line feed of a line makes no difference to it. -/
theorem decodeLine_concat_newline (bs : List UInt8) :
    decodeLine (bs ++ [newline]) = decodeLine bs := by
  have hdecoded : Utf8.decodeLossy (bs ++ [newline]) = Utf8.decodeLossy bs ++ ['\n'] :=
    Utf8.decodeLossy_append_lineFeed bs []
  rw [decodeLine, hdecoded, Text.dropEndWhile_append_singleton]
  rfl

theorem map_decodeLine_segments (bs : List UInt8) :
    (Text.segments newline bs).map decodeLine = outputLines bs := by
  have hdecode : decodeLine ∘ (· ++ [newline]) = decodeLine := funext decodeLine_concat_newline
  rw [Text.segments_eq, List.map_append, List.map_map, hdecode, outputLines, Text.records,
    List.map_append]

/-- **Decoding the output line by line is decoding it whole.** Cut behind each line feed and decoded
part by part, or cut into records and decoded, the output gives the same lines; and these are the
pieces between the line feeds of the whole output decoded at once, without the last piece if it is
empty, each without the carriage returns at its end. This holds of any bytes. -/
theorem outputLines_eq_records (bs : List UInt8) :
    (Text.segments newline bs).map decodeLine = outputLines bs ∧
      outputLines bs =
        (Text.records '\n' (Utf8.decodeLossy bs)).map (Text.dropEndWhile (· == '\r')) := by
  refine ⟨map_decodeLine_segments bs, ?_⟩
  have hrecords : Text.records '\n' (Utf8.decodeLossy bs) =
      (Text.records newline bs).map Utf8.decodeLossy :=
    Text.records_map (fun _ => Utf8.decodeLossy_eq_nil_iff) (Utf8.pieces_decodeLossy bs)
  rw [outputLines, hrecords, List.map_map]
  refine List.map_congr_left fun l hl => decodeLine_of_not_mem ?_
  exact Text.not_mem_of_mem_pieces newline (Text.mem_pieces_of_mem_records hl)

/-- A sequence that a line feed breaks off is replaced in the line where it began. -/
example : outputLines [0xE2, 0x82, 0x0A, 0x41, 0x0D] = [['\uFFFD'], ['A']] := by decide

end Livecode
