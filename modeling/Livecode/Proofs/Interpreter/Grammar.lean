import Livecode.Interpreter.Marker
import Livecode.Proofs.Text.Occurrence

/-!
# The grammar of start markers

A start marker is spelled `<<envil:`, at least one decimal digit, a colon, the word of its kind, and
`>>`. Reading a marker and searching for the first one are tied to this grammar here.

Two facts about the spelling carry all arguments on transcripts: no marker is the start of another
one, and no marker holds a line feed.

## Main results

* `ofPrefix?_eq_some_iff` — exactly the spelled markers are read.
* `first?_eq_some_iff`, `first?_eq_none_iff` — the search finds the leftmost marker.
* `spelled_start` — a printed start marker is spelled as one.
-/

namespace Livecode.Marker

/-- The text spells a start marker. Its number is the one that the digits name. -/
def Spelled (m : Marker) (s : Text) : Prop :=
  ∃ digits : Text, digits ≠ [] ∧ (∀ c ∈ digits, Text.isDecimalDigit c = true) ∧
    m.id = readId digits ∧ s = opening ++ digits ++ ':' :: m.kind.word ++ ">>"

/-- The text spells some start marker. -/
def IsStart (s : Text) : Prop := ∃ m : Marker, m.Spelled s

/-! ## Reading a marker -/

theorem readKind?_eq_some_iff {t rest : Text} {k : AnswerKind} :
    readKind? t = some (k, rest) ↔ t = ':' :: k.word ++ ">>" ++ rest := by
  constructor
  · intro h
    unfold readKind? at h
    split at h
    · next r hr =>
      obtain ⟨rfl, rfl⟩ : .result = k ∧ r = rest := by simpa using h
      exact Text.dropPrefix?_eq_some.1 hr
    · obtain ⟨r, hr, heq⟩ := Option.map_eq_some_iff.1 h
      obtain ⟨rfl, rfl⟩ : .failure = k ∧ r = rest := by simpa using heq
      exact Text.dropPrefix?_eq_some.1 hr
  · rintro rfl
    cases k <;> rfl

private theorem isDecimalDigit_colon : Text.isDecimalDigit ':' = false := by decide

/-- Exactly the spelled markers are read. -/
theorem ofPrefix?_eq_some_iff {t rest : Text} {m : Marker} :
    ofPrefix? t = some (m, rest) ↔ ∃ s, m.Spelled s ∧ t = s ++ rest := by
  constructor
  · intro h
    simp only [ofPrefix?, Option.bind_eq_bind, Option.bind_eq_some_iff] at h
    obtain ⟨u, hu, h⟩ := h
    split at h
    · cases h
    · next hne =>
      obtain ⟨⟨k, r⟩, hk, heq⟩ := Option.bind_eq_some_iff.1 h
      obtain ⟨rfl, rfl⟩ :
          ⟨readId (u.takeWhile Text.isDecimalDigit), k⟩ = m ∧ r = rest := by simpa using heq
      refine ⟨_, ⟨u.takeWhile Text.isDecimalDigit, hne, ?_, rfl, rfl⟩, ?_⟩
      · exact List.all_eq_true.1 List.all_takeWhile
      · rw [Text.dropPrefix?_eq_some.1 hu, List.append_assoc, List.append_assoc,
          List.append_assoc]
        congr 1
        conv => lhs; rw [← List.takeWhile_append_dropWhile (p := Text.isDecimalDigit) (l := u)]
        rw [readKind?_eq_some_iff.1 hk]
        simp
  · rintro ⟨s, ⟨digits, hne, hdigits, hid, rfl⟩, rfl⟩
    obtain ⟨id, kind⟩ := m
    obtain rfl : id = readId digits := hid
    have hsplit : opening ++ digits ++ ':' :: kind.word ++ ">>" ++ rest =
        opening ++ (digits ++ ':' :: (kind.word ++ (">>".toList ++ rest))) := by
      simp [List.append_assoc]
    have hkind : readKind? (':' :: (kind.word ++ (">>".toList ++ rest))) = some (kind, rest) :=
      readKind?_eq_some_iff.2 (by simp)
    simp only [ofPrefix?, hsplit, Option.bind_eq_bind]
    rw [Text.dropPrefix?_eq_some.2 rfl, Option.bind_some,
      List.takeWhile_append_of_pos hdigits, List.dropWhile_append_of_pos hdigits,
      List.takeWhile_cons_of_neg (by simp [isDecimalDigit_colon]),
      List.dropWhile_cons_of_neg (by simp [isDecimalDigit_colon]),
      List.append_nil, if_neg hne, hkind]
    rfl

/-- No marker is the start of another one. -/
theorem Spelled.unique {m m' : Marker} {s s' a a' : Text} (h : m.Spelled s) (h' : m'.Spelled s')
    (heq : s ++ a = s' ++ a') : m = m' ∧ s = s' := by
  have hread : ofPrefix? (s ++ a) = some (m, a) := ofPrefix?_eq_some_iff.2 ⟨s, h, rfl⟩
  have hread' : ofPrefix? (s ++ a) = some (m', a') := ofPrefix?_eq_some_iff.2 ⟨s', h', heq⟩
  obtain ⟨rfl, rfl⟩ : m = m' ∧ a = a' := by simpa using hread.symm.trans hread'
  exact ⟨rfl, List.append_cancel_right heq⟩

theorem IsStart.unique {s s' a a' : Text} (h : IsStart s) (h' : IsStart s')
    (heq : s ++ a = s' ++ a') : s = s' :=
  (h.choose_spec.unique h'.choose_spec heq).2

/-! ## Printed markers -/

private theorem readId_decimal (id : RequestId) : readId (Text.decimal id.toNat) = id := by
  have : id.toNat < UInt64.size := id.toNat_lt
  rw [readId, Text.ofDecimal?_decimal]
  dsimp only
  rw [if_pos this, UInt64.ofNat_toNat]

/-- A printed start marker is spelled as one. -/
theorem spelled_start (m : Marker) : m.Spelled m.start :=
  ⟨Text.decimal m.id.toNat, Text.decimal_ne_nil _, fun c hc =>
    Text.isDecimalDigit_of_isDigit c (Text.isDigit_of_mem_decimal hc), (readId_decimal _).symm, rfl⟩

/-! ## Searching for a marker -/

private theorem not_isStart_of_ofPrefix?_eq_none {t : Text} (h : ofPrefix? t = none) (s a : Text)
    (hsplit : t = s ++ a) : ¬ IsStart s := by
  rintro ⟨m, hm⟩
  rw [ofPrefix?_eq_some_iff.2 ⟨s, hm, hsplit⟩] at h
  cases h

theorem not_isStart_nil : ¬ IsStart [] := by
  rintro ⟨m, digits, -, -, -, h⟩
  simp at h

private theorem free_of_first? {t : Text} (h : first? t = none) : Text.Free IsStart t := by
  induction t with
  | nil => exact Text.free_nil not_isStart_nil
  | cons c t ih =>
    unfold first? at h
    split at h
    · cases h
    · next hnone =>
      exact (ih (by simpa using h)).cons (not_isStart_of_ofPrefix?_eq_none hnone)

private theorem leftmost_of_first? {t before after : Text} {m : Marker}
    (h : first? t = some (before, m, after)) :
    ∃ s, m.Spelled s ∧ Text.Leftmost IsStart t before s after := by
  induction t generalizing before with
  | nil => cases h
  | cons c t ih =>
    unfold first? at h
    split at h
    · next m' rest hm =>
      obtain ⟨rfl, rfl, rfl⟩ : [] = before ∧ m' = m ∧ rest = after := by simpa using h
      obtain ⟨s, hs, hsplit⟩ := ofPrefix?_eq_some_iff.1 hm
      exact ⟨s, hs, hsplit ▸ Text.leftmost_here ⟨m', hs⟩⟩
    · next hnone =>
      obtain ⟨f, hf, heq⟩ := Option.map_eq_some_iff.1 h
      obtain ⟨rfl, hfm⟩ : c :: f.1 = before ∧ f.2 = (m, after) := by simpa using heq
      obtain ⟨s, hs, hleft⟩ := @ih f.1 (by rw [hf, ← hfm])
      exact ⟨s, hs, hleft.cons (not_isStart_of_ofPrefix?_eq_none hnone)⟩

/-- The search finds the leftmost marker. -/
theorem first?_eq_some_iff {t before after : Text} {m : Marker} :
    first? t = some (before, m, after) ↔
      ∃ s, m.Spelled s ∧ Text.Leftmost IsStart t before s after := by
  refine ⟨leftmost_of_first?, ?_⟩
  rintro ⟨s, hs, hleft⟩
  cases hf : first? t with
  | none => exact absurd (free_of_first? hf) hleft.not_free
  | some f =>
    obtain ⟨before', m', after'⟩ := f
    obtain ⟨s', hs', hleft'⟩ := leftmost_of_first? hf
    obtain ⟨rfl, rfl, rfl⟩ := hleft'.unique IsStart.unique hleft
    have hm : m' = m := (hs'.unique hs (a := []) rfl).1
    rw [hm]

/-- The search fails where there is no marker. -/
theorem first?_eq_none_iff {t : Text} : first? t = none ↔ Text.Free IsStart t := by
  refine ⟨free_of_first?, fun h => ?_⟩
  cases hf : first? t with
  | none => rfl
  | some f =>
    obtain ⟨before, m, after⟩ := f
    obtain ⟨s, -, hleft⟩ := leftmost_of_first? hf
    exact absurd h hleft.not_free

/-! ## The characters of markers -/

/-- The characters of markers that are no digits. -/
def letters : Text := "<>:delinorstuv"

private theorem opening_subset_letters : opening ⊆ letters := by decide

/-- A start marker holds only digits and the letters of markers. -/
theorem IsStart.mem {s : Text} (h : IsStart s) {c : Char} (hc : c ∈ s) :
    Text.isDecimalDigit c = true ∨ c ∈ letters := by
  have hword : ∀ k : AnswerKind, k.word ⊆ letters := by
    intro k
    cases k <;> decide
  have hclose : (">>" : Text) ⊆ letters := by decide
  obtain ⟨m, digits, -, hdigits, -, rfl⟩ := h
  simp only [List.mem_append, List.mem_cons] at hc
  rcases hc with ((hc | hc) | rfl | hc) | hc
  · exact .inr (opening_subset_letters hc)
  · exact .inl (hdigits c hc)
  · exact .inr (by decide)
  · exact .inr (hword m.kind hc)
  · exact .inr (hclose hc)

/-- An end marker holds only digits and the letters of markers. -/
theorem mem_finish {id : RequestId} {c : Char} (hc : c ∈ finish id) :
    Text.isDecimalDigit c = true ∨ c ∈ letters := by
  have hclose : (":end>>" : Text) ⊆ letters := by decide
  simp only [finish, List.mem_append] at hc
  rcases hc with (hc | hc) | hc
  · exact .inr (opening_subset_letters hc)
  · exact .inl (Text.isDecimalDigit_of_isDigit c (Text.isDigit_of_mem_decimal hc))
  · exact .inr (hclose hc)

private theorem lineFeed_no_letter :
    ¬ (Text.isDecimalDigit '\n' = true ∨ '\n' ∈ letters) := by decide

theorem IsStart.lineFeed_not_mem {s : Text} (h : IsStart s) : '\n' ∉ s :=
  fun hc => lineFeed_no_letter (h.mem hc)

theorem lineFeed_not_mem_finish (id : RequestId) : '\n' ∉ finish id :=
  fun hc => lineFeed_no_letter (mem_finish hc)

end Livecode.Marker
