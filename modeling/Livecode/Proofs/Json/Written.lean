import Livecode.Json.Tagged
import Livecode.Json.Writer

/-!
# Reading what was written

The reader gives back what the writer wrote. A written form is taken wherever a value is due: it
becomes the tokens of its value, and the machine goes on behind it. Only a number needs to know what
follows it, since nothing else tells where its digits end. Tokens are put together again wherever
they stand, so an object follows from its fields.

## Main results

* `Reader.read_quote` — a written string is read as that string, whatever its characters.
* `Reader.read_natural` — a written number that fits a word is read as that number.
* `SpellsFields.spells` — an object is written by writing its fields.
* `decodeTagged_object` — a written tagged object is read back.
-/

namespace Livecode.Json

namespace Reader

variable {stack : List Frame} {rest : Text}

theorem read_of_step {r r' : Reader} {c : Char} {ts : List Token} (h : r.step c = (ts, r')) :
    r.read (c :: rest) = ts ++ r'.read rest := by
  rw [read_cons, h]

/-! ## Strings -/

private theorem hexCode?_control :
    ∀ n < 0x20, hexCode? ['0', '0', Nat.digitChar (n / 16), Nat.digitChar (n % 16)] = some n := by
  decide

private theorem utf8ByteSize_control : ∀ n < 16,
    (String.ofList ['0', '0', Nat.digitChar n]).utf8ByteSize = 3 ∧
      ∀ m < 16, (String.ofList ['0', '0', Nat.digitChar n, Nat.digitChar m]).utf8ByteSize = 4 := by
  decide

section
variable (isKey : Bool) (acc : Text)

/-- A code that is not complete yet. -/
theorem read_code_more {code : Text} {c : Char}
    (h : (String.ofList (code ++ [c])).utf8ByteSize < 4) :
    read ⟨stack, .string isKey (.unicode none code) acc⟩ (c :: rest) =
      read ⟨stack, .string isKey (.unicode none (code ++ [c])) acc⟩ rest := by
  have hstep : step ⟨stack, .string isKey (.unicode none code) acc⟩ c =
      ([], ⟨stack, .string isKey (.unicode none (code ++ [c])) acc⟩) := if_neg (Nat.not_le.mpr h)
  exact read_of_step hstep

/-- A complete code that is no half of a surrogate pair. -/
theorem read_code_last {code : Text} {c : Char} {n : Nat}
    (h : (String.ofList (code ++ [c])).utf8ByteSize = 4) (hcode : hexCode? (code ++ [c]) = some n)
    (hn : n < 0xD800) :
    read ⟨stack, .string isKey (.unicode none code) acc⟩ (c :: rest) =
      read ⟨stack, .string isKey .plain (Char.ofNat n :: acc)⟩ rest := by
  let r : Reader := ⟨stack, .string isKey (.unicode none code) acc⟩
  have htaken : r.takeCode isKey none (code ++ [c]) acc =
      r.goto (.string isKey .plain (Char.ofNat n :: acc)) := by
    simp only [takeCode, hcode]
    rw [if_neg (by omega), if_neg (by omega)]
  have hstep : r.step c = r.takeCode isKey none (code ++ [c]) acc := if_pos (Nat.le_of_eq h.symm)
  exact read_of_step (hstep.trans htaken)

/-- The code of a control character is read as that character. -/
theorem read_control {n : Nat} (hn : n < 0x20) :
    read ⟨stack, .string isKey .plain acc⟩
        ('\\' :: 'u' :: '0' :: '0' :: Nat.digitChar (n / 16) :: Nat.digitChar (n % 16) :: rest) =
      read ⟨stack, .string isKey .plain (Char.ofNat n :: acc)⟩ rest := by
  obtain ⟨hthree, hfour⟩ := utf8ByteSize_control (n / 16) (by omega)
  calc
    _ = read ⟨stack, .string isKey (.unicode none []) acc⟩
          ('0' :: '0' :: Nat.digitChar (n / 16) :: Nat.digitChar (n % 16) :: rest) := rfl
    _ = read ⟨stack, .string isKey (.unicode none ['0', '0']) acc⟩
          (Nat.digitChar (n / 16) :: Nat.digitChar (n % 16) :: rest) :=
      (read_code_more isKey acc (by decide)).trans (read_code_more isKey acc (by decide))
    _ = read ⟨stack, .string isKey (.unicode none ['0', '0', Nat.digitChar (n / 16)]) acc⟩
          (Nat.digitChar (n % 16) :: rest) :=
      read_code_more isKey acc (Nat.lt_of_le_of_lt (Nat.le_of_eq hthree) (by decide))
    _ = _ := read_code_last isKey acc (hfour (n % 16) (by omega)) (hexCode?_control n hn) (by omega)

/-- A character inside a string is read as that character. -/
theorem read_escapeChar (c : Char) :
    read ⟨stack, .string isKey .plain acc⟩ (escapeChar c ++ rest) =
      read ⟨stack, .string isKey .plain (c :: acc)⟩ rest := by
  unfold escapeChar
  split
  case h_8 hquote hbackslash _ _ _ _ _ =>
    split
    next hcontrol =>
      refine (read_control isKey acc hcontrol).trans ?_
      rw [Char.ofNat_toNat]
      rfl
    next hplain =>
      have hstep : step ⟨stack, .string isKey .plain acc⟩ c =
          ([], ⟨stack, .string isKey .plain (c :: acc)⟩) :=
        (if_neg hquote).trans ((if_neg hbackslash).trans (if_neg hplain))
      exact read_of_step hstep
  all_goals rfl

theorem read_escaped (t : Text) :
    read ⟨stack, .string isKey .plain acc⟩ (t.flatMap escapeChar ++ rest) =
      read ⟨stack, .string isKey .plain (t.reverse ++ acc)⟩ rest := by
  induction t generalizing acc with
  | nil => rfl
  | cons c t ih =>
    rw [List.flatMap_cons, List.append_assoc, read_escapeChar, ih]
    simp
end

/-- A written string is read as that string, up to its closing quote. -/
theorem read_quote (t : Text) :
    read ⟨stack, .value⟩ (quote t ++ rest) = .string t :: read ⟨stack, .after⟩ rest := by
  have hend : step ⟨stack, .string false .plain t.reverse⟩ '"' =
      ([.string t.reverse.reverse], ⟨stack, .after⟩) := rfl
  calc
    _ = read ⟨stack, .string false .plain []⟩ (t.flatMap escapeChar ++ ['"'] ++ rest) := rfl
    _ = read ⟨stack, .string false .plain t.reverse⟩ ('"' :: rest) := by
      rw [List.append_assoc, read_escaped, List.append_nil, List.singleton_append]
    _ = _ := by rw [read_of_step hend, List.reverse_reverse, List.singleton_append]

/-- So is a written key, and the colon after it. -/
theorem read_key (k : Text) :
    read ⟨stack, .key⟩ (quote k ++ ':' :: rest) = .key k :: read ⟨stack, .value⟩ rest := by
  have hend : step ⟨stack, .string true .plain k.reverse⟩ '"' =
      ([.key k.reverse.reverse], ⟨stack, .colon⟩) := rfl
  calc
    _ = read ⟨stack, .string true .plain []⟩ (k.flatMap escapeChar ++ ['"'] ++ ':' :: rest) := rfl
    _ = read ⟨stack, .string true .plain k.reverse⟩ ('"' :: ':' :: rest) := by
      rw [List.append_assoc, read_escaped, List.append_nil, List.singleton_append]
    _ = _ := by rw [read_of_step hend, List.reverse_reverse, List.singleton_append]; rfl

/-! ## Numbers -/

/-- What may follow a value inside an object. -/
def AfterValue (rest : Text) : Prop := ∃ t, rest = ',' :: t ∨ rest = '}' :: t

/-- Digits after a first one that is not zero. -/
theorem read_digits {ds : Text} (acc : Text) (h : ∀ d ∈ ds, d.isDigit = true) :
    read ⟨stack, .number .whole acc⟩ (ds ++ rest) =
      read ⟨stack, .number .whole (ds.reverse ++ acc)⟩ rest := by
  induction ds generalizing acc with
  | nil => rfl
  | cons d ds ih =>
    obtain ⟨hd, hds⟩ := List.forall_mem_cons.mp h
    have hstep : step ⟨stack, .number .whole acc⟩ d = ([], ⟨stack, .number .whole (d :: acc)⟩) := by
      simp [step, NumberPhase.next?, hd, goto]
    rw [List.cons_append, read_of_step hstep, List.nil_append, ih (d :: acc) hds]
    simp

/-- A number ends before what may follow a value. -/
theorem read_endNumber {phase : NumberPhase} {acc : Text} {n : Nat}
    (hphase : phase = .zero ∨ phase = .whole) (hn : numberValue acc.reverse = .natural n)
    (hrest : AfterValue rest) :
    read ⟨stack, .number phase acc⟩ rest = .number (some n) :: read ⟨stack, .after⟩ rest := by
  obtain ⟨t, rfl | rfl⟩ := hrest
  all_goals
    obtain rfl | rfl := hphase
    all_goals simp [read_cons, step, NumberPhase.next?, NumberPhase.isComplete, endNumber, hn]

theorem numberValue_decimal {n : Nat} (hn : n < Scientific.wordBound) :
    numberValue (Text.decimal n) = .natural n := by
  rw [numberValue, Text.ofDecimal?_decimal]
  exact if_pos hn

/-- A first digit starts a number. -/
theorem step_firstDigit {d : Char} (h : d.isDigit = true) (hzero : d ≠ '0') :
    step ⟨stack, .value⟩ d = ([], ⟨stack, .number .whole [d]⟩) := by
  have hne : ∀ c : Char, c.isDigit = false → d ≠ c := by
    rintro c hc rfl
    cases hc.symm.trans h
  have hspace : isSpace d = false := by
    simp [isSpace, hne ' ' rfl, hne '\n' rfl, hne '\t' rfl, hne '\r' rfl]
  have hphase : NumberPhase.ofFirst? d = some .whole := by
    simp [NumberPhase.ofFirst?, hne '-' rfl, hzero, h]
  simp [step, hspace, startValue, hne '"' rfl, hne '[' rfl, hne '{' rfl, hne 't' rfl, hne 'f' rfl,
    hne 'n' rfl, hphase, goto]

/-- A written number is read as that number. -/
theorem read_natural {n : Nat} (hn : n < Scientific.wordBound) (hrest : AfterValue rest) :
    read ⟨stack, .value⟩ (natural n ++ rest) = .number (some n) :: read ⟨stack, .after⟩ rest := by
  have hvalue := numberValue_decimal hn
  rcases Nat.eq_zero_or_pos n with rfl | hpos
  · have hend : read ⟨stack, .number .zero ['0']⟩ rest = _ := read_endNumber (.inl rfl) hvalue hrest
    exact hend
  · obtain ⟨d, ds, hdecimal, hd⟩ := Text.exists_decimal_eq_cons hpos
    have hdigits : ∀ c ∈ d :: ds, c.isDigit = true := fun c hc =>
      Text.isDigit_of_mem_decimal (hdecimal ▸ hc)
    obtain ⟨hfirst, hmore⟩ := List.forall_mem_cons.mp hdigits
    rw [natural, hdecimal, List.cons_append, read_of_step (step_firstDigit hfirst hd),
      List.nil_append, read_digits [d] hmore]
    refine read_endNumber (.inr rfl) ?_ hrest
    rw [List.reverse_append, List.reverse_reverse, ← hvalue, hdecimal]
    rfl

/-! ## Objects -/

/-- An object that has fields, up to its closing brace. The first key is read as the others are. -/
theorem read_open (f : Text × Text) (fs : List (Text × Text)) (h : stack.length + 1 < depthLimit) :
    read ⟨stack, .value⟩ (object (f :: fs) ++ rest) =
      .objectStart :: read ⟨.object :: stack, .key⟩ (fieldList (f :: fs) ++ '}' :: rest) := by
  have hopen : step ⟨stack, .value⟩ '{' = ([.objectStart], ⟨.object :: stack, .firstKey⟩) :=
    if_neg (Nat.not_le.mpr h)
  have hfirst : read ⟨.object :: stack, .firstKey⟩ (fieldList (f :: fs) ++ '}' :: rest) =
      read ⟨.object :: stack, .key⟩ (fieldList (f :: fs) ++ '}' :: rest) := by
    cases fs <;> rfl
  rw [object, List.cons_append, List.append_assoc, read_of_step hopen, List.singleton_append,
    List.singleton_append, hfirst]

end Reader

/-! ## Putting values together -/

namespace Built

/-- What comes of tokens one after the other, each but the last leaving something open. -/
inductive Run : List OpenValue → List Token → Built → Prop
  | last {stack : List OpenValue} (t : Token) : Run stack [t] (take stack t)
  | more {stack stack' : List OpenValue} {t : Token} {ts : List Token} {b : Built} :
      take stack t = .more stack' → Run stack' ts b → Run stack (t :: ts) b

theorem Run.append {stack stack' : List OpenValue} {ts us : List Token} {b : Built}
    (h : Run stack ts (.more stack')) (h' : Run stack' us b) : Run stack (ts ++ us) b := by
  generalize hb : Built.more stack' = b₁ at h
  induction h with
  | last t => exact .more hb.symm h'
  | more htake _ ih => exact .more htake (ih hb)

end Built

/-- Tokens that make up a value, wherever it stands. -/
def Builds (ts : List Token) (v : Value) : Prop := ∀ stack, Built.Run stack ts (Built.add v stack)

/-- Tokens that make up the fields of an object. -/
inductive BuildsFields : List (Text × Value) → List Token → Prop
  | one {k : Text} {v : Value} {ts : List Token} : Builds ts v →
      BuildsFields [(k, v)] (.key k :: ts)
  | more {k : Text} {v : Value} {ts us : List Token} {fs : List (Text × Value)} : Builds ts v →
      BuildsFields fs us → BuildsFields ((k, v) :: fs) (.key k :: (ts ++ .comma :: us))

namespace BuildsFields

variable {fs : List (Text × Value)} {ts : List Token}

/-- Inside an object that is open. -/
theorem run (h : BuildsFields fs ts) (fields : List (Text × Value)) (stack : List OpenValue) :
    Built.Run (.object fields [] :: stack) ts
      (.more (.object (fs.reverse ++ fields) [] :: stack)) := by
  induction h generalizing fields with
  | one hv => exact .more rfl (hv _)
  | more hv _ ih =>
    refine .more rfl (.append (hv _) (.more rfl ?_))
    rw [List.reverse_cons, List.append_assoc]
    exact ih _

theorem builds (h : BuildsFields fs ts) :
    Builds (.objectStart :: (ts ++ [.objectEnd])) (.object fs) := by
  intro stack
  have hend : Built.take (.object (fs.reverse ++ []) [] :: stack) .objectEnd =
      Built.add (.object fs) stack := by simp [Built.take]
  exact .more rfl ((h.run [] stack).append (hend ▸ .last .objectEnd))

end BuildsFields

/-! ## Written values -/

/-- Wherever a value is due, `t` is read as the tokens `ts`, provided that there is room for `depth`
more arrays and objects in one another. -/
def ReadAs (depth : Nat) (t : Text) (ts : List Token) : Prop :=
  ∀ stack rest, stack.length + depth < Reader.depthLimit → Reader.AfterValue rest →
    Reader.read ⟨stack, .value⟩ (t ++ rest) = ts ++ Reader.read ⟨stack, .after⟩ rest

/-- The text is a written form of the value: it is read as the value wherever one is due, and holds
no control character. -/
structure Spells (depth : Nat) (t : Text) (v : Value) : Prop where
  read : ∃ ts, ReadAs depth t ts ∧ Builds ts v
  plain : ∀ c ∈ t, 0x20 ≤ c.toNat

/-- Written fields, and what they stand for. -/
inductive SpellsFields (depth : Nat) : List (Text × Text) → List (Text × Value) → Prop
  | nil : SpellsFields depth [] []
  | cons {k t : Text} {v : Value} {fs : List (Text × Text)} {vs : List (Text × Value)} :
      Spells depth t v → SpellsFields depth fs vs → SpellsFields depth ((k, t) :: fs) ((k, v) :: vs)

theorem spells_quote (depth : Nat) (t : Text) : Spells depth (quote t) (.string t) where
  read := ⟨[.string t], fun _ _ _ _ => Reader.read_quote t, fun _ => .last _⟩
  plain _ hc := not_control_of_mem_quote hc

theorem spells_natural (depth : Nat) {n : Nat} (hn : n < Scientific.wordBound) :
    Spells depth (natural n) (.number (some n)) where
  read := ⟨[.number (some n)], fun _ _ _ hrest => Reader.read_natural hn hrest, fun _ => .last _⟩
  plain c hc := by
    have hdigit : c.isDigit = true := Text.isDigit_of_mem_decimal hc
    simp only [Char.isDigit, Bool.and_eq_true, decide_eq_true_eq] at hdigit
    exact Nat.le_trans (by decide) hdigit.1

theorem spells_null (depth : Nat) : Spells depth null .null where
  read := ⟨[.null], fun _ _ _ _ => rfl, fun _ => .last _⟩
  plain c hc := by
    have hall : null.all (fun c => decide (0x20 ≤ c.toNat)) = true := rfl
    exact of_decide_eq_true (List.all_eq_true.mp hall c hc)

namespace SpellsFields

variable {depth : Nat} {fs : List (Text × Text)} {vs : List (Text × Value)}

theorem plain (h : SpellsFields depth fs vs) : ∀ c ∈ fieldList fs, 0x20 ≤ c.toNat := by
  induction h with
  | nil => nofun
  | @cons k t v fs vs hv hfs ih =>
    have hfield : ∀ c ∈ quote k ++ ':' :: t, 0x20 ≤ c.toNat := by
      refine List.forall_mem_append.mpr ⟨fun c hc => not_control_of_mem_quote hc, ?_⟩
      exact List.forall_mem_cons.mpr ⟨by decide, hv.plain⟩
    cases fs with
    | nil => exact hfield
    | cons f fs =>
      exact List.forall_mem_append.mpr ⟨hfield, List.forall_mem_cons.mpr ⟨by decide, ih⟩⟩

/-- The fields of an object, up to its closing brace. -/
theorem read (h : SpellsFields depth fs vs) (hne : fs ≠ []) :
    ∃ ts, BuildsFields vs ts ∧ ∀ stack rest, stack.length + (depth + 1) < Reader.depthLimit →
      Reader.read ⟨.object :: stack, .key⟩ (fieldList fs ++ '}' :: rest) =
        ts ++ .objectEnd :: Reader.read ⟨stack, .after⟩ rest := by
  induction h with
  | nil => exact absurd rfl hne
  | @cons k t v fs vs hv hfs ih =>
    obtain ⟨ts, hread, hbuilds⟩ := hv.read
    -- The value is read with the rest of the object behind it.
    have hfield (stack : List Frame) (rest : Text)
        (hdepth : stack.length + (depth + 1) < Reader.depthLimit) (hrest : Reader.AfterValue rest) :
        Reader.read ⟨.object :: stack, .key⟩ (quote k ++ ':' :: (t ++ rest)) =
          .key k :: (ts ++ Reader.read ⟨.object :: stack, .after⟩ rest) := by
      rw [Reader.read_key, hread _ _ (by simp; omega) hrest]
    cases fs with
    | nil =>
      cases hfs
      refine ⟨_, .one hbuilds, fun stack rest hdepth => ?_⟩
      have hone := hfield stack ('}' :: rest) hdepth ⟨rest, .inr rfl⟩
      have hbrace : Reader.read ⟨.object :: stack, .after⟩ ('}' :: rest) =
          .objectEnd :: Reader.read ⟨stack, .after⟩ rest := rfl
      rw [hbrace] at hone
      simpa [fieldList] using hone
    | cons f fs =>
      obtain ⟨us, hus, hmore⟩ := ih (List.cons_ne_nil _ _)
      refine ⟨_, .more hbuilds hus, fun stack rest hdepth => ?_⟩
      have hone := hfield stack (',' :: (fieldList (f :: fs) ++ '}' :: rest)) hdepth ⟨_, .inl rfl⟩
      have hcomma : Reader.read ⟨.object :: stack, .after⟩
            (',' :: (fieldList (f :: fs) ++ '}' :: rest)) =
          .comma :: Reader.read ⟨.object :: stack, .key⟩ (fieldList (f :: fs) ++ '}' :: rest) := rfl
      rw [hcomma, hmore stack rest hdepth] at hone
      simpa [fieldList] using hone

/-- A written object. -/
theorem spells (h : SpellsFields depth fs vs) (hne : fs ≠ []) :
    Spells (depth + 1) (object fs) (.object vs) where
  read := by
    obtain ⟨ts, hts, hread⟩ := h.read hne
    obtain ⟨f, fs, rfl⟩ := List.exists_cons_of_ne_nil hne
    refine ⟨_, fun stack rest hdepth _ => ?_, hts.builds⟩
    rw [Reader.read_open f fs (by omega), hread stack rest hdepth]
    simp
  plain := by
    refine List.forall_mem_cons.mpr ⟨by decide, List.forall_mem_append.mpr ⟨h.plain, ?_⟩⟩
    exact List.forall_mem_singleton.mpr (by decide)

end SpellsFields

/-- A written object has no blanks around it. -/
theorem trim_object (fs : List (Text × Text)) : Text.trim (object fs) = object fs := by
  have hstart : (object fs).dropWhile Text.isBlank = object fs := rfl
  rw [Text.trim, hstart, object, ← List.cons_append, Text.dropEndWhile_append_singleton]
  rfl

/-! ## Tagged objects -/

section Tagged

variable {α β : Type} {tag : Text} {variant? : Text → Option α} {found : Option α}
  {fields : List (Text × Value)} {rest : List Token}

/-- The value of a field is collected. -/
theorem readFields_value {stack : List OpenValue} {ts : List Token} {k : Text} {v : Value}
    (h : Built.Run stack ts (.complete v)) :
    readFields tag variant? found fields (.value k stack) (ts ++ rest) =
      readFields tag variant? found ((k, v) :: fields) .between rest := by
  generalize hb : Built.complete v = b at h
  induction h with
  | last t => simp [readFields, ← hb]
  | more htake _ ih =>
    rw [List.cons_append, readFields, htake]
    exact ih hb

/-- So are all fields that are not the tag. -/
theorem BuildsFields.readFields {fs : List (Text × Value)} {ts : List Token}
    (h : BuildsFields fs ts) (htag : tag ∉ fs.map (·.1)) :
    Json.readFields tag variant? found fields .between (ts ++ rest) =
      Json.readFields tag variant? found (fs.reverse ++ fields) .between rest := by
  induction h generalizing fields with
  | @one k v ts hv =>
    have hk : k ≠ tag := fun hk => htag (hk ▸ List.mem_singleton_self k)
    rw [List.cons_append, Json.readFields, if_neg hk, readFields_value (hv [])]
    rfl
  | @more k v ts us fs hv _ ih =>
    obtain ⟨hk, hfs⟩ := List.ne_and_not_mem_of_not_mem_cons htag
    rw [List.cons_append, Json.readFields, if_neg hk.symm, List.append_assoc,
      readFields_value (hv []), List.cons_append, Json.readFields, ih hfs]
    simp

/-- The tokens of a written tagged object, up to its name. -/
theorem tokens_tagged (name : Text) (fs : List (Text × Text)) :
    tokens (object ((tag, quote name) :: fs)) =
      .objectStart :: .key tag :: .string name :: Reader.read ⟨[.object], .after⟩
        (match fs with
          | [] => ['}']
          | f :: fs => ',' :: (fieldList (f :: fs) ++ ['}'])) := by
  have hopen : Reader.start.read (object ((tag, quote name) :: fs) ++ []) =
      .objectStart ::
        Reader.read ⟨[.object], .key⟩ (fieldList ((tag, quote name) :: fs) ++ ['}']) :=
    Reader.read_open (tag, quote name) fs (by decide)
  rw [List.append_nil] at hopen
  rw [tokens, hopen]
  cases fs with
  | nil =>
    have h : Reader.read ⟨[.object], .key⟩ (quote tag ++ ':' :: (quote name ++ ['}'])) = _ :=
      Reader.read_key tag
    rw [Reader.read_quote] at h
    simpa [fieldList] using h
  | cons f fs =>
    have h : Reader.read ⟨[.object], .key⟩
        (quote tag ++ ':' :: (quote name ++ ',' :: (fieldList (f :: fs) ++ ['}']))) = _ :=
      Reader.read_key tag
    rw [Reader.read_quote] at h
    simpa [fieldList] using h

/-- **A written tagged object is read back.** Its name comes first, and no other field goes by the
tag. -/
theorem decodeTagged_object {depth : Nat} {build : α → Body → Option β} {name : Text} {a : α}
    {b : β} {fs : List (Text × Text)} {vs : List (Text × Value)}
    (hfields : SpellsFields depth fs vs) (hdepth : depth + 1 < Reader.depthLimit)
    (hname : variant? name = some a) (htag : tag ∉ vs.map (·.1))
    (hbuild : build a (.fields vs) = some b) :
    decodeTagged tag variant? build (object ((tag, quote name) :: fs)) = .ok b := by
  have hread : readTagged tag variant? (tokens (object ((tag, quote name) :: fs))) =
      .ok (a, .fields vs, []) := by
    rw [tokens_tagged, readTagged]
    cases fs with
    | nil =>
      cases hfields
      have hend : Reader.read ⟨[.object], .after⟩ ['}'] = [.objectEnd] := rfl
      simp [hend, readFields, hname]
    | cons f fs =>
      obtain ⟨ts, hts, hread⟩ := hfields.read (List.cons_ne_nil _ _)
      have hmore : Reader.read ⟨[.object], .after⟩ (',' :: (fieldList (f :: fs) ++ ['}'])) =
          .comma :: (ts ++ [.objectEnd]) :=
        congrArg (Token.comma :: ·) (hread [] [] (by simpa using hdepth))
      simp [hmore, readFields, hname, hts.readFields htag]
  rw [decodeTagged, hread]
  simp only [bind, Except.bind, hbuild]
  rfl

end Tagged

end Livecode.Json
