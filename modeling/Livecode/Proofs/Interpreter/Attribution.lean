import Livecode.Proofs.Interpreter.Printout

/-!
# Where an answer comes from

Nothing is ever counted as an answer that was not printed: each answer that is read stands in the
transcript, between a start marker of its kind and the end marker of the request it is counted for.
This holds of any lines, legible or not, and whatever stands around the markers.

The start marker need not name that request, though. It may hold any run of decimal digits, of any
script and of any length, and a run that is no number of 64 bits is read as `0`. From then on the
marker is one of request 0: what follows it, up to the end marker of request 0, is its answer.

The proof follows the reader. What it carries from line to line is an answer without its end, and
that stands at the very end of what has been read so far.

## Main results

* `readLines_witnessed` — every answer that is read stands in the transcript.
* `readLines_append_nameless` — what follows a marker that names no request answers request 0.
* `reply_named_or_zero` — the marker of an answer names its request, or names none and the request
  is 0.
-/

namespace Livecode

namespace Marker

/-! ## The number of a marker -/

/-- A start marker with the given digits. -/
def spelling (digits : Text) (kind : AnswerKind) : Text :=
  opening ++ digits ++ ':' :: kind.word ++ ">>"

/-- What may stand for the number in a start marker: decimal digits of any script. -/
def IsNumeral (digits : Text) : Prop :=
  digits ≠ [] ∧ ∀ c ∈ digits, Text.isDecimalDigit c = true

instance : DecidablePred IsNumeral := fun digits =>
  decidable_of_iff (digits ≠ [] ∧ digits.all Text.isDecimalDigit = true)
    (and_congr_right fun _ => List.all_eq_true)

/-- The digits are a decimal notation of the request's number; zeros may stand in front. -/
def Names (digits : Text) (id : RequestId) : Prop := Text.ofDecimal? digits = some id.toNat

instance (digits : Text) (id : RequestId) : Decidable (Names digits id) :=
  inferInstanceAs (Decidable (Text.ofDecimal? digits = some id.toNat))

theorem readId_of_names {digits : Text} {id : RequestId} (h : Names digits id) :
    readId digits = id := by
  have hlt : id.toNat < UInt64.size := id.toNat_lt
  rw [Names] at h
  rw [readId, h]
  dsimp only
  rw [if_pos hlt, UInt64.ofNat_toNat]

/-- Digits name no request exactly if they stand for no number of 64 bits. -/
theorem nameless_iff {digits : Text} :
    (∀ id, ¬ Names digits id) ↔ ∀ n ∈ Text.ofDecimal? digits, UInt64.size ≤ n := by
  constructor
  · intro h n hn
    refine Nat.le_of_not_lt fun hlt => h (UInt64.ofNat n) ?_
    rw [Names, Option.mem_def.mp hn, UInt64.toNat_ofNat_of_lt' hlt]
  · intro h id hid
    have hlt : id.toNat < UInt64.size := id.toNat_lt
    exact Nat.not_le_of_lt hlt (h id.toNat hid)

/-- Digits without a number of 64 bits are read as `0`. -/
theorem readId_of_nameless {digits : Text} (h : ∀ id, ¬ Names digits id) : readId digits = 0 := by
  unfold readId
  split
  next n hn => exact if_neg (Nat.not_lt_of_le (nameless_iff.mp h n hn))
  next => rfl

/-- Either the digits name the request that they are read as, or they name none. -/
theorem names_readId_or (digits : Text) :
    Names digits (readId digits) ∨ readId digits = 0 ∧ ∀ id, ¬ Names digits id := by
  by_cases h : ∃ id, Names digits id
  · obtain ⟨id, hid⟩ := h
    exact .inl ((readId_of_names hid).symm ▸ hid)
  · have hnone : ∀ id, ¬ Names digits id := fun id hid => h ⟨id, hid⟩
    exact .inr ⟨readId_of_nameless hnone, hnone⟩

theorem spelled_spelling {digits : Text} (h : IsNumeral digits) (kind : AnswerKind) :
    Spelled ⟨readId digits, kind⟩ (spelling digits kind) := ⟨digits, h.1, h.2, rfl, rfl⟩

theorem Spelled.exists_digits {m : Marker} {s : Text} (h : m.Spelled s) :
    ∃ digits, IsNumeral digits ∧ m.id = readId digits ∧ s = spelling digits m.kind := by
  obtain ⟨digits, hne, hdigits, hid, hs⟩ := h
  exact ⟨digits, ⟨hne, hdigits⟩, hid, hs⟩

/-- What is read between two markers is the answer that they enclose. -/
theorem reply_parts (m : Marker) (t : Text) :
    (m.reply t).marker = m ∧ (m.reply t).answer.text = t := by
  obtain ⟨id, kind⟩ := m
  cases kind <;> exact ⟨rfl, rfl⟩

end Marker

namespace Transcript

open Livecode.Text (unlines)
open Livecode.Marker (Spelled IsNumeral Names)

/-! ## Answers in the transcript -/

/-- The answer stands in the text, between a start marker and the end marker of its request. -/
def Witnessed (r : Reply) (t : Text) : Prop :=
  ∃ s, r.marker.Spelled s ∧ s ++ r.answer.text ++ Marker.finish r.id <:+: t

theorem Witnessed.mono {r : Reply} {t u : Text} (h : Witnessed r t) (htu : t <:+: u) :
    Witnessed r u := by
  obtain ⟨s, hs, hin⟩ := h
  exact ⟨s, hs, hin.trans htu⟩

theorem witnessed_reply {m : Marker} {s inner t : Text} (hs : m.Spelled s)
    (hin : s ++ inner ++ Marker.finish m.id <:+: t) : Witnessed (m.reply inner) t := by
  obtain ⟨hmarker, htext⟩ := Marker.reply_parts m inner
  have hid : (m.reply inner).id = m.id := rfl
  refine ⟨s, ?_, ?_⟩
  · rw [hmarker]
    exact hs
  · rw [htext, hid]
    exact hin

/-- The text ends with a start marker and what has been read of its answer. -/
def Carried (a : Option OpenAnswer) (t : Text) : Prop :=
  ∀ o ∈ a, ∃ s, o.marker.Spelled s ∧ s ++ o.text <:+ t

theorem carried_none (t : Text) : Carried none t := nofun

/-- What reading has found in a text so far: answers, and what is carried on. -/
structure Found (items : List TranscriptItem) (a : Option OpenAnswer) (t : Text) : Prop where
  witnessed : ∀ r, .reply r ∈ items → Witnessed r t
  carried : Carried a t

theorem not_reply_mem_posts (r : Reply) (t : Text) : .reply r ∉ posts t := by
  unfold posts
  split <;> simp

/-- A closed answer, and then what is found behind it. -/
theorem Found.reply {m : Marker} {s inner rest t : Text} {items : List TranscriptItem}
    {a : Option OpenAnswer} (hs : m.Spelled s)
    (ht : s ++ inner ++ Marker.finish m.id ++ rest <:+ t) (h : Found items a rest) :
    Found (.reply (m.reply inner) :: items) a t := by
  have hrest : rest <:+ t := (List.suffix_append _ _).trans ht
  constructor
  · intro r hr
    rcases List.mem_cons.mp hr with heq | hr
    · obtain rfl := TranscriptItem.reply.inj heq
      exact witnessed_reply hs ((List.prefix_append _ rest).isInfix.trans ht.isInfix)
    · exact (h.witnessed r hr).mono hrest.isInfix
  · intro o ho
    obtain ⟨s', hs', hcarried⟩ := h.carried o ho
    exact ⟨s', hs', hcarried.trans hrest⟩

theorem found_scan (t : Text) : Found (scan t).1 (scan t).2 t := by
  fun_induction scan t with
  | case1 t hm => exact ⟨fun r hr => absurd hr (not_reply_mem_posts r t), carried_none t⟩
  | case2 t before m after hm hc =>
    obtain ⟨s, hs, hstart⟩ := Marker.first?_eq_some_iff.mp hm
    refine ⟨fun r hr => absurd hr (not_reply_mem_posts r before), fun o ho => ?_⟩
    obtain rfl : ⟨m, after⟩ = o := Option.some.inj ho
    exact ⟨s, hs, before, by rw [← List.append_assoc]; exact hstart.split.symm⟩
  | case3 t before m after hm inner rest hc r ih =>
    obtain ⟨s, hs, hstart⟩ := Marker.first?_eq_some_iff.mp hm
    have hsplit : before ++ (s ++ inner ++ Marker.finish m.id ++ rest) = t := by
      rw [hstart.split, Text.cutAt?_eq_some hc]
      simp only [List.append_assoc]
    have hfound := ih.reply hs ⟨before, hsplit⟩
    refine ⟨fun q hq => ?_, hfound.carried⟩
    rcases List.mem_append.mp hq with hq | hq
    · exact absurd hq (not_reply_mem_posts q before)
    · exact hfound.witnessed q hq

/-- One more line: an answer that was carried on is closed in it, or is still carried on. -/
theorem found_readLine {a : Option OpenAnswer} {t : Text} (h : Carried a t) (line : Text) :
    Found (readLine a line).1 (readLine a line).2 (t ++ '\n' :: line) := by
  cases a with
  | none =>
    rw [readLine_none]
    have hfound := found_scan line
    have hline : line <:+ t ++ '\n' :: line := ⟨t ++ ['\n'], by simp⟩
    refine ⟨fun r hr => (hfound.witnessed r hr).mono hline.isInfix, fun o ho => ?_⟩
    obtain ⟨s, hs, hcarried⟩ := hfound.carried o ho
    exact ⟨s, hs, hcarried.trans hline⟩
  | some o =>
    obtain ⟨s, hs, front, ht⟩ := h o rfl
    cases hc : Text.cutAt? (Marker.finish o.marker.id) line with
    | none =>
      simp only [readLine, hc]
      refine ⟨fun _ hr => absurd hr List.not_mem_nil, fun o' ho' => ?_⟩
      obtain rfl := Option.some.inj ho'
      exact ⟨s, hs, front, by simp [← ht]⟩
    | some cut =>
      obtain ⟨inner, rest⟩ := cut
      simp only [readLine, hc]
      refine (found_scan rest).reply hs ⟨front, ?_⟩
      rw [Text.cutAt?_eq_some hc, ← ht]
      simp

theorem readLines_carried {a : Option OpenAnswer} {t : Text} (h : Carried a t) (ls : List Text)
    {r : Reply} (hr : .reply r ∈ (readLines a ls).1.flatten) :
    Witnessed r (t ++ ls.flatMap ('\n' :: ·)) := by
  induction ls generalizing a t with
  | nil => cases hr
  | cons line ls ih =>
    have hfound := found_readLine h line
    have hwhole : t ++ (line :: ls).flatMap ('\n' :: ·) =
        t ++ '\n' :: line ++ ls.flatMap ('\n' :: ·) := by simp
    rw [hwhole]
    rcases List.mem_append.mp hr with hr | hr
    · exact (hfound.witnessed r hr).mono (List.prefix_append _ _).isInfix
    · exact ih hfound.carried hr

/-- Every answer that is read stands in the transcript. -/
theorem readLines_witnessed {ls : List Text} {r : Reply}
    (hr : .reply r ∈ (readLines none ls).1.flatten) : Witnessed r (unlines ls) := by
  cases ls with
  | nil => cases hr
  | cons line ls =>
    have hfound := found_scan line
    rw [unlines_cons]
    rcases List.mem_append.mp hr with hr | hr
    · exact (hfound.witnessed r hr).mono (List.prefix_append _ _).isInfix
    · exact readLines_carried hfound.carried ls hr

/-! ## Markers that name no request -/

/-- A text between two markers is read as the answer of the request that the digits are read as. -/
theorem reads_spelling {digits : Text} (hdigits : IsNumeral digits) (kind : AnswerKind) {t : Text}
    (ht : ¬ Marker.finish (Marker.readId digits) <:+: t) :
    Reads (Marker.spelling digits kind ++ t ++ Marker.finish (Marker.readId digits))
      [.reply (Marker.reply ⟨Marker.readId digits, kind⟩ t)] none := by
  have hs := Marker.spelled_spelling hdigits kind
  have hstart : Text.Leftmost Marker.IsStart
      (Marker.spelling digits kind ++ t ++ Marker.finish (Marker.readId digits)) []
      (Marker.spelling digits kind) (t ++ Marker.finish (Marker.readId digits)) := by
    rw [List.append_assoc]
    exact Text.leftmost_here ⟨_, hs⟩
  have hend := (Printed.unbordered_finish (Marker.readId digits)).leftmost ht []
  rw [List.append_nil] at hend
  exact .answered hs hstart hend (.plain (Text.free_nil Marker.not_isStart_nil))

theorem readLines_append (a : Option OpenAnswer) (xs ys : List Text) :
    readLines a (xs ++ ys) =
      ((readLines a xs).1 ++ (readLines (readLines a xs).2 ys).1,
        (readLines (readLines a xs).2 ys).2) := by
  induction xs generalizing a with
  | nil => rfl
  | cons l xs ih => simp [readLines, ih]

/-- In a transcript that leaves no answer open, digits that name no request make what follows them
an answer to request 0. -/
theorem readLines_append_nameless {ls : List Text} (hclosed : (readLines none ls).2 = none)
    {digits : Text} (hdigits : IsNumeral digits) (hnone : ∀ id, ¬ Names digits id)
    (kind : AnswerKind) {t : Text} (ht : ¬ Marker.finish 0 <:+: t) :
    let more := Text.pieces '\n' (Marker.spelling digits kind ++ t ++ Marker.finish 0)
    (readLines none (ls ++ more)).1.flatten =
        (readLines none ls).1.flatten ++ [.reply (Marker.reply ⟨0, kind⟩ t)] ∧
      (readLines none (ls ++ more)).2 = none := by
  intro more
  have hzero := Marker.readId_of_nameless hnone
  have hread := reads_spelling hdigits kind (t := t) (by rwa [hzero])
  rw [hzero] at hread
  have hlines : ∀ l ∈ more, '\n' ∉ l := fun l hl => Text.not_mem_of_mem_pieces _ hl
  have hmore : (readLines none more).1.flatten = [.reply (Marker.reply ⟨0, kind⟩ t)] ∧
      (readLines none more).2 = none := by
    refine (reads_readLines hlines).unique ?_
    rwa [unlines, Text.join_pieces]
  rw [readLines_append, hclosed, List.flatten_append, hmore.1]
  exact ⟨rfl, hmore.2⟩

/-- **An answer is counted for the request that its marker names, or for request 0.** Each answer
that is read stands in the transcript as it is, between a start marker of its kind and the end
marker of its request. The digits of the start marker are a decimal notation of the request's
number; only for request 0 may they be digits that are no number of 64 bits at all. So a transcript
in which every start marker names a request has all its answers counted for the requests named; but
a marker that names none, where no answer is open, always makes what follows it an answer to
request 0, up to the end marker of that request. -/
theorem reply_named_or_zero (ls : List Text) :
    (∀ r, .reply r ∈ (readLines none ls).1.flatten →
      ∃ digits, IsNumeral digits ∧
        (Names digits r.id ∨ r.id = 0 ∧ ∀ id, ¬ Names digits id) ∧
        Marker.spelling digits r.answer.kind ++ r.answer.text ++ Marker.finish r.id <:+:
          unlines ls) ∧
    ((∀ digits kind, IsNumeral digits → Marker.spelling digits kind <:+: unlines ls →
        ∃ id, Names digits id) →
      ∀ r, .reply r ∈ (readLines none ls).1.flatten →
        ∃ digits, Names digits r.id ∧
          Marker.spelling digits r.answer.kind ++ r.answer.text ++ Marker.finish r.id <:+:
            unlines ls) ∧
    ((readLines none ls).2 = none → ∀ (digits : Text) (kind : AnswerKind) (t : Text),
      IsNumeral digits → (∀ id, ¬ Names digits id) → ¬ Marker.finish 0 <:+: t →
      let more := Text.pieces '\n' (Marker.spelling digits kind ++ t ++ Marker.finish 0)
      (readLines none (ls ++ more)).1.flatten =
          (readLines none ls).1.flatten ++ [.reply (Marker.reply ⟨0, kind⟩ t)] ∧
        (readLines none (ls ++ more)).2 = none) := by
  have hfound : ∀ r, .reply r ∈ (readLines none ls).1.flatten →
      ∃ digits, IsNumeral digits ∧
        (Names digits r.id ∨ r.id = 0 ∧ ∀ id, ¬ Names digits id) ∧
        Marker.spelling digits r.answer.kind ++ r.answer.text ++ Marker.finish r.id <:+:
          unlines ls := by
    intro r hr
    obtain ⟨s, hs, hin⟩ := readLines_witnessed hr
    obtain ⟨digits, hdigits, hid, rfl⟩ := hs.exists_digits
    have hid : r.id = Marker.readId digits := hid
    refine ⟨digits, hdigits, ?_, hin⟩
    rw [hid]
    exact Marker.names_readId_or digits
  refine ⟨hfound, fun hall r hr => ?_, fun hclosed digits kind t hdigits hnone ht =>
    readLines_append_nameless hclosed hdigits hnone kind ht⟩
  obtain ⟨digits, hdigits, hnamed | ⟨-, hnone⟩, hin⟩ := hfound r hr
  · exact ⟨digits, hnamed, hin⟩
  · have hstart : Marker.spelling digits r.answer.kind <:+: unlines ls := by
      rw [List.append_assoc] at hin
      exact (List.prefix_append _ _).isInfix.trans hin
    obtain ⟨id, hid⟩ := hall digits r.answer.kind hdigits hstart
    exact absurd hid (hnone id)

/-- The error that two lines hold, under a number with a zero in front; and after them a marker
whose number is one too large for 64 bits. -/
theorem reply_named_or_zero_of_odd_numbers :
    let ls : List Text := ["<<envil:2:end>> <<envil:07:error>>a", "b<<envil:7:end>>"]
    let large : Text := "18446744073709551616"
    (.reply ⟨7, .failure "a\nb"⟩ ∈ (readLines none ls).1.flatten ∧
      ∃ digits, IsNumeral digits ∧
        (Names digits 7 ∨ (7 : RequestId) = 0 ∧ ∀ id, ¬ Names digits id) ∧
        Marker.spelling digits .failure ++ "a\nb".toList ++ Marker.finish 7 <:+: unlines ls) ∧
    (readLines none ls).2 = none ∧ IsNumeral large ∧ (∀ id, ¬ Names large id) ∧
      ¬ Marker.finish 0 <:+: "a\nb" ∧
      (readLines none (ls ++ Text.pieces '\n' (Marker.spelling large .result ++ "a\nb".toList ++
        Marker.finish 0))).1.flatten =
          (readLines none ls).1.flatten ++ [.reply ⟨0, .result "a\nb"⟩] := by
  intro ls large
  have hread : .reply ⟨7, .failure "a\nb"⟩ ∈ (readLines none ls).1.flatten := by decide +kernel
  have hclosed : (readLines none ls).2 = none := by decide +kernel
  have hnumeral : IsNumeral large := by decide
  have hvalue : Text.ofDecimal? large = some UInt64.size := by decide
  have hnone : ∀ id, ¬ Names large id := Marker.nameless_iff.mpr fun n hn =>
    Nat.le_of_eq (Option.some.inj (hvalue.symm.trans hn))
  have hfree : ¬ Marker.finish 0 <:+: "a\nb" := by
    rw [← Text.cutAt?_eq_none_iff]
    decide
  obtain ⟨hnamed, -, hnameless⟩ := reply_named_or_zero ls
  exact ⟨⟨hread, hnamed _ hread⟩, hclosed, hnumeral, hnone, hfree,
    (hnameless hclosed large .result "a\nb" hnumeral hnone hfree).1⟩

private theorem colon_not_mem {t : Text} (h : ∀ c ∈ t, c.isDigit = true) : ':' ∉ t := fun hmem =>
  absurd (h ':' hmem) (by decide)

private theorem colon_not_mem_of_names {digits : Text} {id : RequestId} (h : Names digits id) :
    ':' ∉ digits :=
  colon_not_mem (List.all_eq_true.mp (Option.ite_none_right_eq_some.mp h).1.2)

/-- A start marker, an answer without colons and an end marker, cut at their colons. -/
private theorem pieces_spelling {digits t : Text} (hdigits : ':' ∉ digits) (ht : ':' ∉ t)
    (kind : AnswerKind) (id : RequestId) (front after : Text) :
    Text.pieces ':' (front ++ (Marker.spelling digits kind ++ t ++ Marker.finish id) ++ after) =
      Text.pieces ':' (front ++ "<<envil".toList) ++
        digits :: (kind.word ++ ">>".toList ++ t ++ "<<envil".toList) ::
        Text.decimal id.toNat :: Text.pieces ':' ("end>>".toList ++ after) := by
  have hkind : ':' ∉ kind.word ++ ">>".toList ++ t ++ "<<envil".toList := by
    have hword : ':' ∉ kind.word ++ ">>".toList := by cases kind <;> decide
    have hopen : ':' ∉ "<<envil".toList := by decide
    rw [List.mem_append, List.mem_append]
    exact not_or.mpr ⟨not_or.mpr ⟨hword, ht⟩, hopen⟩
  have hid : ':' ∉ Text.decimal id.toNat := colon_not_mem fun _ => Text.isDigit_of_mem_decimal
  have hwhole : front ++ (Marker.spelling digits kind ++ t ++ Marker.finish id) ++ after =
      front ++ "<<envil".toList ++ ':' :: (digits ++ ':' :: (kind.word ++ ">>".toList ++ t ++
        "<<envil".toList ++ ':' :: (Text.decimal id.toNat ++ ':' :: ("end>>".toList ++ after)))) := by
    simp only [Marker.spelling, Marker.finish, List.append_assoc, List.cons_append]
    rfl
  rw [hwhole, Text.pieces_append_sep, Text.pieces_append_sep, Text.pieces_append_sep,
    Text.pieces_append_sep, Text.pieces_of_not_mem ':' hdigits, Text.pieces_of_not_mem ':' hkind,
    Text.pieces_of_not_mem ':' hid]
  rfl

/-- Answers are not only counted for the request that their marker names: the line that starts with
the number after the last one of 64 bits holds no other start marker, and it answers request 0. -/
theorem not_forall_reply_named :
    ¬ ∀ (ls : List Text) (r : Reply), .reply r ∈ (readLines none ls).1.flatten →
      ∃ digits, Names digits r.id ∧
        Marker.spelling digits r.answer.kind ++ r.answer.text ++ Marker.finish r.id <:+:
          unlines ls := by
  intro hall
  let line : Text := "<<envil:18446744073709551616:result>>x<<envil:0:end>>"
  obtain ⟨digits, hnames, front, after, hsplit⟩ :=
    hall [line] ⟨0, .result "x"⟩ (by decide +kernel)
  -- Cut at its colons the line has five pieces, so the digits are the second one.
  have hline : Text.pieces ':' (unlines [line]) = ["<<envil".toList,
      "18446744073709551616".toList, "result>>x<<envil".toList, ['0'], "end>>".toList] := by decide
  rw [← hsplit, pieces_spelling (colon_not_mem_of_names hnames) (by decide)] at hline
  obtain ⟨p, ps, hp⟩ :=
    List.exists_cons_of_ne_nil (Text.pieces_ne_nil ':' (front ++ "<<envil".toList))
  obtain ⟨q, qs, hq⟩ :=
    List.exists_cons_of_ne_nil (Text.pieces_ne_nil ':' ("end>>".toList ++ after))
  rw [hp, hq] at hline
  cases ps with
  | nil =>
    have hlarge : digits = "18446744073709551616".toList :=
      (List.cons.inj (List.cons.inj hline).2).1
    rw [hlarge] at hnames
    exact absurd hnames (by decide)
  | cons p' ps =>
    have hlength := congrArg List.length hline
    simp only [List.length_cons, List.length_append, List.length_nil] at hlength
    omega

end Transcript

end Livecode
