import Livecode.Interpreter.Transcript
import Livecode.Proofs.Interpreter.Grammar
import Livecode.Text.Line

/-!
# Reading a transcript as a whole

What a transcript says can be told without lines: the leftmost start marker ends a stretch of plain
output, and the leftmost end marker of its number after it ends the answer; then the same again with
what is left. `Reads` is that description. It speaks of occurrences in the text and of nothing
that a line reader does.

A reader of lines keeps an answer open from one line to the next and goes on in the middle of a line
once it is closed. The invariant that ties it to the description is `Reads` itself, taken of the
lines read so far: a further line only extends the last, still open part of it.

## Main results

* `Reads.unique` — a text has one reading at most.
* `Reads.append_line` — reading one more line extends the reading of the lines before it.
* `readLines_eq_iff_reads` — reading line by line is reading the lines joined.
-/

namespace Livecode.Transcript

open Livecode.Text (Free Leftmost pieces unlines)
open Livecode.Marker (IsStart)

/-- The pieces of some plain output between its line feeds are posted, the empty ones left out. -/
def postedPieces (t : Text) : List TranscriptItem := ((pieces '\n' t).filter (· ≠ [])).map .post

/-- The items of a transcript, and the answer that it leaves open. -/
inductive Reads : Text → List TranscriptItem → Option OpenAnswer → Prop where
  /-- There is no start marker. -/
  | plain {t : Text} (hfree : Free IsStart t) : Reads t (postedPieces t) none
  /-- The end marker that belongs to the first start marker is missing. -/
  | unfinished {t before s after : Text} {m : Marker} (hs : m.Spelled s)
      (hstart : Leftmost IsStart t before s after) (hopen : ¬ Marker.finish m.id <:+: after) :
      Reads t (postedPieces before) (some ⟨m, after⟩)
  /-- The first start marker, its answer, the end marker, and a rest. -/
  | answered {t before s after inner rest : Text} {m : Marker} {items : List TranscriptItem}
      {a : Option OpenAnswer} (hs : m.Spelled s) (hstart : Leftmost IsStart t before s after)
      (hend : Leftmost (· = Marker.finish m.id) after inner (Marker.finish m.id) rest)
      (hrest : Reads rest items a) :
      Reads t (postedPieces before ++ .reply (m.reply inner) :: items) a

/-! ## One reading -/

private theorem needle_unique {needle s s' a a' : Text} (h : s = needle) (h' : s' = needle)
    (_ : s ++ a = s' ++ a') : s = s' := h.trans h'.symm

/-- A text has one reading at most. -/
theorem Reads.unique {t : Text} {items items' : List TranscriptItem} {a a' : Option OpenAnswer}
    (h : Reads t items a) (h' : Reads t items' a') : items = items' ∧ a = a' := by
  induction h generalizing items' a' with
  | plain hfree =>
    cases h' with
    | plain => exact ⟨rfl, rfl⟩
    | unfinished _ hstart _ => exact absurd hfree hstart.not_free
    | answered _ hstart _ _ => exact absurd hfree hstart.not_free
  | unfinished hs hstart hopen =>
    cases h' with
    | plain hfree => exact absurd hfree hstart.not_free
    | unfinished hs' hstart' _ =>
      obtain ⟨rfl, rfl, rfl⟩ := hstart.unique IsStart.unique hstart'
      rw [(hs.unique hs' (a := []) rfl).1]
      exact ⟨rfl, rfl⟩
    | answered hs' hstart' hend' _ =>
      obtain ⟨rfl, rfl, rfl⟩ := hstart.unique IsStart.unique hstart'
      rw [(hs.unique hs' (a := []) rfl).1] at hopen
      exact absurd ⟨_, _, hend'.split.symm⟩ hopen
  | answered hs hstart hend _ ih =>
    cases h' with
    | plain hfree => exact absurd hfree hstart.not_free
    | unfinished hs' hstart' hopen' =>
      obtain ⟨rfl, rfl, rfl⟩ := hstart.unique IsStart.unique hstart'
      rw [← (hs.unique hs' (a := []) rfl).1] at hopen'
      exact absurd ⟨_, _, hend.split.symm⟩ hopen'
    | answered hs' hstart' hend' hrest' =>
      obtain ⟨rfl, rfl, rfl⟩ := hstart.unique IsStart.unique hstart'
      obtain rfl := (hs.unique hs' (a := []) rfl).1
      obtain ⟨rfl, -, rfl⟩ := hend.unique needle_unique hend'
      obtain ⟨rfl, rfl⟩ := ih hrest'
      exact ⟨rfl, rfl⟩

/-! ## Plain output -/

theorem postedPieces_append_sep (p u : Text) :
    postedPieces (p ++ '\n' :: u) = postedPieces p ++ postedPieces u := by
  simp [postedPieces, Text.pieces_append_sep]

/-- A stretch of a single line is posted as it stands. -/
theorem posts_eq_postedPieces {t : Text} (h : '\n' ∉ t) : posts t = postedPieces t := by
  by_cases ht : t = []
  · rw [ht]
    rfl
  · simp [posts, postedPieces, Text.pieces_of_not_mem _ h, ht]

private theorem lineFeed_not_mem_of_isStart (s : Text) (h : IsStart s) : '\n' ∉ s :=
  h.lineFeed_not_mem

private theorem lineFeed_not_mem_of_eq_finish (id : RequestId) (s : Text)
    (h : s = Marker.finish id) : '\n' ∉ s := h ▸ Marker.lineFeed_not_mem_finish id

/-- Lines without a start marker are posted before what follows them. -/
theorem Reads.prepend {p u : Text} {items : List TranscriptItem} {a : Option OpenAnswer}
    (hp : Free IsStart p) (h : Reads u items a) :
    Reads (p ++ '\n' :: u) (postedPieces p ++ items) a := by
  cases h with
  | plain hfree =>
    rw [← postedPieces_append_sep]
    exact .plain ((Text.free_append_sep lineFeed_not_mem_of_isStart).2 ⟨hp, hfree⟩)
  | unfinished hs hstart hopen =>
    rw [← postedPieces_append_sep]
    exact .unfinished hs (hstart.prepend_sep lineFeed_not_mem_of_isStart hp) hopen
  | answered hs hstart hend hrest =>
    rw [← List.append_assoc, ← postedPieces_append_sep]
    exact .answered hs (hstart.prepend_sep lineFeed_not_mem_of_isStart hp) hend hrest

/-! ## Lines -/

private theorem not_mem_of_leftmost {P : Text → Prop} {t before s after : Text}
    (h : Leftmost P t before s after) (ht : '\n' ∉ t) : '\n' ∉ before ∧ '\n' ∉ after := by
  rw [h.split] at ht
  simp only [List.mem_append, not_or] at ht
  exact ⟨ht.1.1, ht.2⟩

/-- A piece of a line is read as a transcript of its own. -/
theorem reads_scan {t : Text} (ht : '\n' ∉ t) : Reads t (scan t).1 (scan t).2 := by
  fun_induction scan t with
  | case1 t hm =>
    rw [posts_eq_postedPieces ht]
    exact .plain (Marker.first?_eq_none_iff.1 hm)
  | case2 t before m after hm hc =>
    obtain ⟨s, hs, hstart⟩ := Marker.first?_eq_some_iff.1 hm
    rw [posts_eq_postedPieces (not_mem_of_leftmost hstart ht).1]
    exact .unfinished hs hstart (Text.cutAt?_eq_none_iff.1 hc)
  | case3 t before m after hm inner rest hc r ih =>
    obtain ⟨s, hs, hstart⟩ := Marker.first?_eq_some_iff.1 hm
    obtain ⟨hbefore, hafter⟩ := not_mem_of_leftmost hstart ht
    have hend := Text.cutAt?_eq_some_iff.1 hc
    rw [posts_eq_postedPieces hbefore]
    exact .answered hs hstart hend (ih (not_mem_of_leftmost hend hafter).2)

/-- Reading one more line extends the reading of the lines before it. -/
theorem Reads.append_line {t line : Text} {items : List TranscriptItem} {a : Option OpenAnswer}
    (h : Reads t items a) (hline : '\n' ∉ line) :
    Reads (t ++ '\n' :: line) (items ++ (readLine a line).1) (readLine a line).2 := by
  induction h with
  | plain hfree => exact (reads_scan hline).prepend hfree
  | @unfinished t before s after m hs hstart hopen =>
    have hstart' := hstart.append_sep lineFeed_not_mem_of_isStart line
    cases hc : Text.cutAt? (Marker.finish m.id) line with
    | none =>
      simp only [readLine, hc, List.append_nil]
      refine .unfinished hs hstart' fun hin => ?_
      rcases (Text.infix_append_sep (Marker.lineFeed_not_mem_finish _)).1 hin with h | h
      · exact hopen h
      · exact Text.cutAt?_eq_none_iff.1 hc h
    | some cut =>
      obtain ⟨inner, rest⟩ := cut
      have hcut := Text.cutAt?_eq_some_iff.1 hc
      have hfree : Free (· = Marker.finish m.id) after := by
        rintro s hs rfl
        exact hopen hs
      simp only [readLine, hc]
      -- the lines before hold no end marker, so the first one of this line is the first of all
      exact .answered hs hstart' (hcut.prepend_sep (lineFeed_not_mem_of_eq_finish _) hfree)
        (reads_scan (not_mem_of_leftmost hcut hline).2)
  | answered hs hstart hend _ ih =>
    rw [List.append_assoc, List.cons_append]
    exact .answered hs (hstart.append_sep lineFeed_not_mem_of_isStart line)
      (hend.append_sep (lineFeed_not_mem_of_eq_finish _) line) ih

/-- Reading more lines extends the reading of the lines before them. -/
theorem Reads.append_lines {t : Text} {items : List TranscriptItem} {a : Option OpenAnswer}
    {ls : List Text} (h : Reads t items a) (hls : ∀ l ∈ ls, '\n' ∉ l) :
    Reads (t ++ ls.flatMap ('\n' :: ·)) (items ++ (readLines a ls).1.flatten)
      (readLines a ls).2 := by
  induction ls generalizing t items a with
  | nil => simpa [readLines] using h
  | cons l ls ih =>
    have hfirst := h.append_line (hls l List.mem_cons_self)
    have hrest := ih hfirst fun l' hl' => hls l' (List.mem_cons_of_mem _ hl')
    simpa [readLines] using hrest

theorem unlines_cons (l : Text) (ls : List Text) :
    unlines (l :: ls) = l ++ ls.flatMap ('\n' :: ·) := by
  induction ls generalizing l with
  | nil => simp [unlines, Text.join]
  | cons m ls ih =>
    have := ih m
    simp_all [unlines, Text.join]

/-- What reading lines gives is a reading of the lines joined. -/
theorem reads_readLines {ls : List Text} (hls : ∀ l ∈ ls, '\n' ∉ l) :
    Reads (unlines ls) (readLines none ls).1.flatten (readLines none ls).2 := by
  cases ls with
  | nil => exact .plain (Text.free_nil Marker.not_isStart_nil)
  | cons l ls =>
    rw [unlines_cons]
    have hfirst : Reads l (readLine none l).1 (readLine none l).2 := by
      rw [readLine_none]
      exact reads_scan (hls l List.mem_cons_self)
    exact hfirst.append_lines fun l' hl' => hls l' (List.mem_cons_of_mem _ hl')

/-- **Reading line by line is reading the lines joined**: the items that are emitted and the answer
that is left open are those of the text, whatever is unfinished, looks nested or is empty. -/
theorem readLines_eq_iff_reads {ls : List Text} (hls : ∀ l ∈ ls, '\n' ∉ l)
    (items : List TranscriptItem) (a : Option OpenAnswer) :
    ((readLines none ls).1.flatten = items ∧ (readLines none ls).2 = a) ↔
      Reads (unlines ls) items a := by
  constructor
  · rintro ⟨rfl, rfl⟩
    exact reads_readLines hls
  · exact fun h => (reads_readLines hls).unique h

/-- An answer over two lines that holds another request's end marker, and one left open. -/
theorem reads_answered_then_open :
    (∀ l ∈ (["a <<envil:1:result>>b", "<<envil:2:end>>c<<envil:1:end>> d", "<<envil:7:error>>"] :
      List Text), '\n' ∉ l) ∧
    Reads (unlines ["a <<envil:1:result>>b", "<<envil:2:end>>c<<envil:1:end>> d",
        "<<envil:7:error>>"])
      [.post "a ", .reply ⟨1, .result "b\n<<envil:2:end>>c"⟩, .post " d"]
      (some ⟨⟨7, .failure⟩, []⟩) :=
  ⟨by decide, (readLines_eq_iff_reads (by decide) _ _).1 (by decide +kernel)⟩

end Livecode.Transcript
