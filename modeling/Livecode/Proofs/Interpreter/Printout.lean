import Livecode.Interpreter.Reader
import Livecode.PostWindow
import Livecode.Proofs.Interpreter.Reading
import Livecode.Proofs.PostHistory
import Livecode.Proofs.Text.Encoding

/-!
# Printing and reading back

What an interpreter prints is a sequence of plain lines and of answers between their markers, each
ended by a line feed. Reading the bytes of such a printout gives the sequence back: the lines in the
post window, and the answers as events.

The conditions under which this holds are those of `Printed.Legible`. An answer may run over several
lines, hold markers of other requests, start markers even of its own, and anything that falls short
of its own end marker; end markers cannot overlap themselves, so the answer is never cut early by
one that begins inside of it.

## Main results

* `reads_body` — a legible record is a transcript with one item.
* `lines_of_body` — no line of a legible record loses anything at its end, nor announces a boot.
* `readAll_printout` — a printout is read back as it was printed.
-/

namespace Livecode

open Livecode.Text (Free Leftmost)

namespace Answer

def kind : Answer → AnswerKind
  | .result _ => .result
  | .failure _ => .failure

def text : Answer → Text
  | .result t => t
  | .failure t => t

end Answer

namespace Reply

/-- The start marker of a printed answer. -/
def marker (r : Reply) : Marker := ⟨r.id, r.answer.kind⟩

theorem reply_marker (r : Reply) : r.marker.reply r.answer.text = r := by
  obtain ⟨id, answer⟩ := r
  cases answer <;> rfl

end Reply

/-- What an interpreter prints at a time. -/
inductive Printed where
  /-- A line of plain output. -/
  | line (t : Text)
  /-- The answer to a request. -/
  | answer (r : Reply)
  deriving DecidableEq, Repr

namespace Printed

/-- The printed text without the line feed that ends it. -/
def body : Printed → Text
  | .line t => t
  | .answer r => r.marker.start ++ r.answer.text ++ Marker.finish r.id

/-- The printed text. -/
def render (p : Printed) : Text := p.body ++ ['\n']

/-- How a record appears in a transcript. -/
def item : Printed → TranscriptItem
  | .line t => .post t
  | .answer r => .reply r

def line? : Printed → Option Text
  | .line t => some t
  | .answer _ => none

def answer? : Printed → Option Reply
  | .line _ => none
  | .answer r => some r

/-- A plain line is not empty, is a line, and holds no start marker; the text of an answer does not
hold its own end marker. Neither holds the boot banner, nor a carriage return where a line ends. -/
def Legible : Printed → Prop
  | .line t =>
    t ≠ [] ∧ '\n' ∉ t ∧ t.getLast? ≠ some '\r' ∧ Free Marker.IsStart t ∧
      ¬ bootBanner <:+: t
  | .answer r =>
    ¬ Marker.finish r.id <:+: r.answer.text ∧ ¬ bootBanner <:+: r.answer.text ∧
      ¬ ['\r', '\n'] <:+: r.answer.text

instance decidableLegible : DecidablePred Legible
  | .line t =>
    decidable_of_iff (t ≠ [] ∧ '\n' ∉ t ∧ t.getLast? ≠ some '\r' ∧ Marker.first? t = none ∧
      ¬ Text.contains bootBanner t = true) <| by
      rw [Marker.first?_eq_none_iff, Text.contains_iff]
      rfl
  | .answer r =>
    decidable_of_iff (¬ Text.contains (Marker.finish r.id) r.answer.text = true ∧
      ¬ Text.contains bootBanner r.answer.text = true ∧
      ¬ Text.contains ['\r', '\n'] r.answer.text = true) <| by
      rw [Text.contains_iff, Text.contains_iff, Text.contains_iff]
      rfl

/-! ## Markers around an answer -/

/-- End markers do not overlap themselves: both angle brackets that open one stand at its start. -/
theorem unbordered_finish (id : RequestId) : Text.Unbordered (Marker.finish id) := by
  have hdigits : '<' ∉ Text.decimal id.toNat := fun h =>
    absurd (Text.isDigit_of_mem_decimal h) (by decide)
  obtain ⟨g, hfinish, hg, hfree⟩ :
      ∃ g, Marker.finish id = '<' :: '<' :: g ∧ g ≠ [] ∧ '<' ∉ g :=
    ⟨"envil:".toList ++ Text.decimal id.toNat ++ ":end>>", rfl, by simp, by simp [hdigits]⟩
  intro x z a hx hz
  rw [hfinish] at hx hz
  match x with
  | [] => exact .inl rfl
  | [_] =>
    obtain rfl : '<' :: g = z := by simpa using (List.cons.inj hx).2
    cases g with
    | nil => exact absurd rfl hg
    | cons d g =>
      have hd : '<' = d := (List.cons.inj (List.cons.inj hz).2).1
      exact absurd (hd ▸ List.mem_cons_self) hfree
  | _ :: _ :: x =>
    obtain ⟨-, -, rfl⟩ : _ ∧ _ ∧ g = x ++ z := by simpa using hx
    cases z with
    | nil => exact .inr rfl
    | cons e z =>
      obtain ⟨rfl, -⟩ := List.cons.inj hz
      exact absurd (by simp) hfree

/-- What holds no angle bracket, but some character that no marker holds, occurs between two
markers only within the text there. -/
private theorem infix_body {needle : Text} {c : Char} {r : Reply} (hc : c ∈ needle)
    (hmarker : ¬ (Text.isDecimalDigit c = true ∨ c ∈ Marker.letters)) (hopen : '<' ∉ needle)
    (hclose : '>' ∉ needle) (h : needle <:+: (Printed.answer r).body) :
    needle <:+: r.answer.text := by
  obtain ⟨s, hs⟩ : ∃ s, r.marker.start = s ++ ['>'] :=
    ⟨Marker.opening ++ Text.decimal r.id.toNat ++ ':' :: r.answer.kind.word ++ ['>'], by
      simp [Marker.start, Reply.marker]⟩
  obtain ⟨f, hf⟩ : ∃ f, Marker.finish r.id = '<' :: f := ⟨_, rfl⟩
  have hbody : (Printed.answer r).body = s ++ '>' :: (r.answer.text ++ '<' :: f) := by
    simp [body, hs, hf]
  rw [hbody, Text.infix_append_sep hclose, Text.infix_append_sep hopen] at h
  rcases h with h | h | h
  · have hmem : c ∈ r.marker.start := by
      rw [hs]
      exact List.mem_append_left _ (h.subset hc)
    exact absurd (Marker.IsStart.mem ⟨_, Marker.spelled_start r.marker⟩ hmem) hmarker
  · exact h
  · have hmem : c ∈ Marker.finish r.id := by
      rw [hf]
      exact List.mem_cons_of_mem _ (h.subset hc)
    exact absurd (Marker.mem_finish hmem) hmarker

/-! ## The lines of a record -/

/-- A legible record is a transcript with one item. -/
theorem reads_body {p : Printed} (h : p.Legible) : Transcript.Reads p.body [p.item] none := by
  cases p with
  | line t =>
    obtain ⟨hne, hline, -, hfree, -⟩ := h
    have hread := Transcript.Reads.plain hfree
    rwa [← Transcript.posts_eq_postedPieces hline, Transcript.posts, if_neg hne] at hread
  | answer r =>
    have hstart : Leftmost Marker.IsStart (Printed.answer r).body [] r.marker.start
        (r.answer.text ++ Marker.finish r.id) := by
      rw [body, List.append_assoc]
      exact Text.leftmost_here ⟨_, Marker.spelled_start _⟩
    have hend := (unbordered_finish r.id).leftmost h.1 []
    rw [List.append_nil] at hend
    have hrest : Transcript.Reads [] [] none :=
      .plain (Text.free_nil Marker.not_isStart_nil)
    have hread := Transcript.Reads.answered (Marker.spelled_start _) hstart hend hrest
    rwa [Reply.reply_marker] at hread

/-- No line of a legible record loses anything at its end, nor announces a boot. -/
theorem lines_of_body {p : Printed} (h : p.Legible) {l : Text}
    (hl : l ∈ Text.pieces '\n' p.body) : l.getLast? ≠ some '\r' ∧ ¬ bootBanner <:+: l := by
  have hplace := Text.infix_or_suffix_of_mem_join '\n' hl
  rw [Text.join_pieces] at hplace
  cases p with
  | line t =>
    obtain ⟨-, hline, hlast, -, hbanner⟩ := h
    rw [body, Text.pieces_of_not_mem _ hline, List.mem_singleton] at hl
    rw [hl]
    exact ⟨hlast, hbanner⟩
  | answer r =>
    obtain ⟨-, hbanner, hreturn⟩ := h
    constructor
    · intro hlast
      obtain ⟨l', rfl⟩ := List.getLast?_eq_some_iff.1 hlast
      rcases hplace with hin | ⟨x, hx⟩
      · have hpair : ['\r', '\n'] <:+: (Printed.answer r).body :=
          List.IsInfix.trans ⟨l', [], by simp⟩ hin
        exact hreturn (infix_body (c := '\n') (by decide) (by decide) (by decide) (by decide) hpair)
      · have hend := congrArg List.getLast? hx
        simp [body, Marker.finish] at hend
    · intro hin
      have hbody : bootBanner <:+: (Printed.answer r).body := by
        rcases hplace with hplace | hplace
        · exact hin.trans ((List.prefix_append l ['\n']).isInfix.trans hplace)
        · exact hin.trans hplace.isInfix
      exact hbanner (infix_body (c := 'W') (by decide) (by decide) (by decide) (by decide) hbody)

end Printed

/-! ## Bytes -/

/-- A line without anything at its end that is dropped is decoded as it was encoded. -/
theorem decodeLine_encode {l : Text} (hline : '\n' ∉ l) (hlast : l.getLast? ≠ some '\r') :
    decodeLine (Utf8.encode l) = l := by
  rw [decodeLine, Utf8.decodeLossy_encode]
  refine Text.dropEndWhile_eq_self fun c hc => ?_
  have hn : c ≠ '\n' := fun h => hline (h ▸ List.mem_of_getLast? hc)
  have hr : c ≠ '\r' := fun h => hlast (h ▸ hc)
  simp [hn, hr]

/-- The lines of a printout are those of its records. -/
theorem outputLines_printout {ps : List Printed} (h : ∀ p ∈ ps, p.Legible) :
    outputLines (Utf8.encode (ps.flatMap Printed.render)) =
      ps.flatMap fun p => Text.pieces '\n' p.body := by
  induction ps with
  | nil => rfl
  | cons p ps ih =>
    have hrest := ih fun q hq => h q (List.mem_cons_of_mem _ hq)
    have hbytes : Utf8.encode ((p :: ps).flatMap Printed.render) =
        Utf8.encode p.body ++ newline :: Utf8.encode (ps.flatMap Printed.render) := by
      simp only [List.flatMap_cons, Printed.render, Utf8.encode_append, List.append_assoc]
      rfl
    have hfirst : (Text.pieces '\n' p.body).map (decodeLine ∘ Utf8.encode) =
        Text.pieces '\n' p.body := by
      refine (List.map_congr_left fun l hl => ?_).trans (List.map_id _)
      exact decodeLine_encode (Text.not_mem_of_mem_pieces _ hl)
        (Printed.lines_of_body (h p List.mem_cons_self) hl).1
    rw [outputLines, hbytes, Text.records_append_sep, List.map_append, newline, Utf8.pieces_encode,
      List.map_map, hfirst, List.flatMap_cons]
    exact congrArg _ hrest

/-! ## Reading -/

namespace OutputReader

theorem readLines_append (a : Option OpenAnswer) (xs ys : List Text) :
    readLines a (xs ++ ys) =
      ((readLines a xs).1 ++ (readLines (readLines a xs).2 ys).1,
        (readLines (readLines a xs).2 ys).2) := by
  induction xs generalizing a with
  | nil => rfl
  | cons l xs ih => simp [readLines, ih]

/-- Lines without the boot banner are read as a transcript. -/
theorem readLines_of_quiet {ls : List Text} (h : ∀ l ∈ ls, ¬ bootBanner <:+: l)
    (a : Option OpenAnswer) :
    readLines a ls =
      ((Transcript.readLines a ls).1.flatten.map route, (Transcript.readLines a ls).2) := by
  induction ls generalizing a with
  | nil => rfl
  | cons l ls ih =>
    have hl : Text.contains bootBanner l = false := by
      rw [← Bool.not_eq_true, Text.contains_iff]
      exact h l List.mem_cons_self
    have hrest := ih fun l' hl' => h l' (List.mem_cons_of_mem _ hl')
    simp [readLines, readLine, Transcript.readLines, hl, hrest]

/-- The lines of a legible record give its item and leave nothing open. -/
theorem readLines_body {p : Printed} (h : p.Legible) :
    readLines none (Text.pieces '\n' p.body) = ([route p.item], none) := by
  have hlines : ∀ l ∈ Text.pieces '\n' p.body, '\n' ∉ l := fun l hl =>
    Text.not_mem_of_mem_pieces _ hl
  have hread := Transcript.reads_readLines hlines
  rw [Text.unlines, Text.join_pieces] at hread
  obtain ⟨hitems, hopen⟩ := hread.unique (Printed.reads_body h)
  rw [readLines_of_quiet fun l hl => (Printed.lines_of_body h hl).2, hitems, hopen,
    List.map_singleton]

theorem readLines_bodies {ps : List Printed} (h : ∀ p ∈ ps, p.Legible) :
    readLines none (ps.flatMap fun p => Text.pieces '\n' p.body) =
      (ps.map fun p => route p.item, none) := by
  induction ps with
  | nil => rfl
  | cons p ps ih =>
    rw [List.flatMap_cons, readLines_append, readLines_body (h p List.mem_cons_self),
      ih fun q hq => h q (List.mem_cons_of_mem _ hq)]
    rfl

end OutputReader

private theorem filterMap_event (ps : List Printed) :
    (ps.map fun p => OutputReader.route p.item).filterMap Output.event? =
      (ps.filterMap Printed.answer?).map .reply := by
  rw [List.filterMap_map, List.map_filterMap]
  congr 1
  funext p
  cases p <;> rfl

private theorem filterMap_posted (ps : List Printed) :
    (ps.map fun p => OutputReader.route p.item).filterMap Output.posted? =
      ps.filterMap Printed.line? := by
  rw [List.filterMap_map]
  congr 1
  funext p
  cases p <;> rfl

/-- **A printout is read back as it was printed.** Every record comes back in its place: as events
there are the answers and then the end of the output, and a post window is given exactly the plain
lines. -/
theorem readAll_printout {ps : List Printed} (h : ∀ p ∈ ps, p.Legible) :
    let out := OutputReader.readAll (Utf8.encode (ps.flatMap Printed.render))
    out = (ps.map fun p => OutputReader.route p.item) ++ [.event .exited] ∧
      out.filterMap Output.event? = (ps.filterMap Printed.answer?).map .reply ++ [.exited] ∧
      ∀ w : PostWindow, w.recent.length ≤ w.capacity →
        (w.postAll (out.filterMap Output.posted?)).lines =
          (w.lines ++ ps.filterMap Printed.line?).drop
            ((w.lines ++ ps.filterMap Printed.line?).length - w.capacity) := by
  intro out
  have hout : out = (ps.map fun p => OutputReader.route p.item) ++ [.event .exited] := by
    simp only [out, OutputReader.readAll]
    rw [outputLines_printout h, OutputReader.readLines_bodies h]
  have hposted : out.filterMap Output.posted? = ps.filterMap Printed.line? := by
    rw [hout, List.filterMap_append, filterMap_posted]
    exact List.append_nil _
  have hlines : ∀ t ∈ ps.filterMap Printed.line?, '\n' ∉ t ∧ t.getLast? ≠ some '\r' := by
    intro t ht
    obtain ⟨p, hp, hpt⟩ := List.mem_filterMap.1 ht
    cases p with
    | line t' =>
      obtain rfl : t' = t := Option.some.inj hpt
      exact ⟨(h _ hp).2.1, (h _ hp).2.2.1⟩
    | answer r => cases hpt
  refine ⟨hout, ?_, fun w hw => ?_⟩
  · rw [hout, List.filterMap_append, filterMap_event]
    rfl
  · rw [hposted, PostWindow.lines_postAll w hw, PostWindow.flatMap_lines_of_line hlines]

/-- An answer with another request's end marker on its second line, between two plain lines. -/
theorem readAll_printout_interleaved :
    (∀ p ∈ ([.line "a: (", .answer ⟨3, .result "b\n<<envil:30:end>>\n<<envil:3:en"⟩, .line "c"] :
      List Printed), p.Legible) ∧
    OutputReader.readAll (Utf8.encode (([.line "a: (",
      .answer ⟨3, .result "b\n<<envil:30:end>>\n<<envil:3:en"⟩, .line "c"] :
        List Printed).flatMap Printed.render)) =
      [.post "a: (", .event (.reply ⟨3, .result "b\n<<envil:30:end>>\n<<envil:3:en"⟩),
        .post "c", .event .exited] :=
  ⟨by decide, (readAll_printout (by decide)).1⟩

end Livecode
