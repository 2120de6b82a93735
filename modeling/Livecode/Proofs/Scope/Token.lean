import Livecode.Proofs.Scope.Flow

/-!
# Tokens

The lexical grammar of SuperCollider source as syntax: a text is spelled by a sequence of tokens, and
every character of a token has a kind that the token alone decides. The scanner knows nothing of
tokens. It sees one character and the next, and carries over what is open where a line ends.

A token leaves the scanner in a state that reads on as plain code does, provided that what follows
may follow it: a line comment goes up to the end of its line, and a symbol takes every character
that can be part of its name. Such a state is called *at rest*. The argument goes token by token,
and inside a token by recursion on what it is made of; for block comments that is a tree.

## Main results

* `reads_body` — a block comment is passed over whatever is nested in it.
* `reads_token` — a token is scanned as its kinds say and leaves the scanner at rest.
* `classifyBuffer_spelling` — a text spelled by tokens has the scopes of its tokens.
-/

namespace Livecode

/-! ## Syntax -/

/-- What stands between two quotes: a character for itself, other than some, or any character of
the line after a backslash. -/
inductive QuotedItem (others : List Char) where
  | plain (c : Char) (h : c ∉ others)
  | pair (c : Char) (h : c ≠ '\n')

/-- What stands in a block comment, from left to right. -/
inductive CommentBody where
  | done
  | plain (c : Char) (star : c ≠ '*') (slash : c ≠ '/') (rest : CommentBody)
  | nested (inner rest : CommentBody)

/-- The lexical units of source text. -/
inductive Token where
  | code (t : Text) (h : ∀ c ∈ t, c ∉ ['/', '"', '\'', '\\', '$'])
  | lineComment (t : Text) (h : '\n' ∉ t)
  | blockComment (body : CommentBody)
  | string (items : List (QuotedItem ['"', '\\']))
  | quotedSymbol (items : List (QuotedItem ['\'', '\\', '\n']))
  | symbol (first : Char) (name : Text) (hfirst : ScanState.isNameStart first = true)
      (hname : ∀ c ∈ name, ScanState.isNameChar c = true)
  | character (c : Char) (slash : c ≠ '\\') (line : c ≠ '\n')
  | escapedCharacter (c : Char) (line : c ≠ '\n')

/-- Characters with one kind. -/
def Lexeme.label (k : Lexeme) (t : Text) : List (Char × Lexeme) := t.map (·, k)

namespace QuotedItem

variable {others : List Char}

/-- The characters of an item with their kinds, `k` by itself and `pairKind` after a backslash. -/
def labelled (k pairKind : Lexeme) : QuotedItem others → List (Char × Lexeme)
  | .plain c _ => k.label [c]
  | .pair c _ => pairKind.label ['\\', c]

end QuotedItem

namespace CommentBody

def text : CommentBody → Text
  | .done => []
  | .plain c _ _ rest => c :: rest.text
  | .nested inner rest => '/' :: '*' :: (inner.text ++ '*' :: '/' :: rest.text)

end CommentBody

namespace Token

/-- The characters of a token with their kinds. -/
def labelled : Token → List (Char × Lexeme)
  | .code t _ => Lexeme.source.label t
  | .lineComment t _ => Lexeme.lineComment.label ('/' :: '/' :: t)
  | .blockComment body => Lexeme.blockComment.label ('/' :: '*' :: (body.text ++ ['*', '/']))
  | .string items =>
    ('"', .string) :: (items.flatMap (QuotedItem.labelled .string .escape) ++ [('"', .string)])
  | .quotedSymbol items =>
    ('\'', .symbol) :: (items.flatMap (QuotedItem.labelled .symbol .symbol) ++ [('\'', .symbol)])
  | .symbol first name _ _ => Lexeme.symbol.label ('\\' :: first :: name)
  | .character c _ _ => Lexeme.escape.label ['$', c]
  | .escapedCharacter c _ => Lexeme.escape.label ['$', '\\', c]

/-- How a token is written. -/
def spelling (k : Token) : Text := k.labelled.map Prod.fst

/-- Whether a token may be followed by this character, or by the end of the text. -/
def MayPrecede (next : Option Char) : Token → Prop
  | .lineComment _ _ => ∀ c, next = some c → c = '\n'
  | .symbol _ _ _ _ => ∀ c, next = some c → ScanState.isNameChar c = false
  | _ => True

/-- The characters of consecutive tokens with their kinds. -/
def labelledAll (ks : List Token) : List (Char × Lexeme) := ks.flatMap labelled

/-- The text that consecutive tokens spell. -/
def spellingAll (ks : List Token) : Text := (labelledAll ks).map Prod.fst

theorem spellingAll_cons (k : Token) (ks : List Token) :
    spellingAll (k :: ks) = k.spelling ++ spellingAll ks := by
  rw [spellingAll, labelledAll, List.flatMap_cons, List.map_append]
  rfl

/-- Every token may stand before what follows it. -/
def Separated : List Token → Prop
  | [] => True
  | k :: ks => k.MayPrecede (spellingAll ks).head? ∧ Separated ks

end Token

/-- The scopes of labelled characters, line by line. -/
def ScopeMap.ofLabelled (xs : List (Char × Lexeme)) : ScopeMap :=
  ⟨(xs.splitOnP (·.1 = '\n')).map (·.map (·.2.scopes))⟩

/-! ## Scanning a labelled text -/

namespace ScanState

/-- How labelled characters show in the scan of a text: a line feed has no kind there. -/
def inText (xs : List (Char × Lexeme)) : List (Char × Option Lexeme) :=
  xs.map fun x => (x.1, if x.1 = '\n' then none else some x.2)

/-- From `s` the scanner gives these characters the kinds they have here, and ends in `s'`. The
text goes on with `after`. -/
def Reads (s : ScanState) (after : Option Char) (xs : List (Char × Lexeme)) (s' : ScanState) :
    Prop :=
  s.flow after (xs.map Prod.fst) = (inText xs, s')

/-- In `s` this character has kind `k` and leads to `s'`, whatever comes next. -/
def Takes (s : ScanState) (c : Char) (k : Lexeme) (s' : ScanState) : Prop :=
  ∀ next, s.flowStep c next = (if c = '\n' then none else some k, s')

variable {s s' s'' : ScanState} {after : Option Char} {xs ys : List (Char × Lexeme)}
  {c d : Char} {k : Lexeme}

theorem Reads.nil (s : ScanState) (after : Option Char) : Reads s after [] s := rfl

theorem Reads.append (hx : Reads s ((ys.map Prod.fst).head?.or after) xs s')
    (hy : Reads s' after ys s'') : Reads s after (xs ++ ys) s'' := by
  unfold Reads at hx hy ⊢
  rw [List.map_append, flow_append, hx, hy]
  simp only [inText, List.map_append]

/-- A text is read from its first character on. -/
theorem Reads.cons (hstep : s.flowStep c ((xs.map Prod.fst).head?.or after) =
    (if c = '\n' then none else some k, s')) (hrest : Reads s' after xs s'') :
    Reads s after ((c, k) :: xs) s'' := by
  unfold Reads at hrest ⊢
  rw [List.map_cons, flow_cons, hstep, hrest]
  rfl

theorem Takes.reads (h : Takes s c k s') (hrest : Reads s' after xs s'') :
    Reads s after ((c, k) :: xs) s'' :=
  .cons (h _) hrest

/-- Characters that leave the scanner where it is may be read in any number. -/
theorem reads_label {t : Text} (h : ∀ c ∈ t, Takes s c k s) : Reads s after (k.label t) s := by
  induction t with
  | nil => exact Reads.nil s after
  | cons c t ih =>
    have hhere : Takes s c k s := h c List.mem_cons_self
    exact hhere.reads (ih fun d hd => h d (List.mem_cons_of_mem c hd))

/-- What a character that is no line feed does to the scanner. -/
theorem takes_of_step (hc : c ≠ '\n') (h : ∀ next, s.step c next = (k, s')) : Takes s c k s' := by
  intro next
  simp only [flowStep, if_neg hc, h]

/-- A character is taken also where the line ends, if the scanner stays where it is over that. -/
theorem takes_of_carry (hline : c = '\n' → s.carry = s)
    (h : c ≠ '\n' → ∀ next, s.step c next = (k, s)) : Takes s c k s := by
  by_cases hc : c = '\n'
  · intro next
    rw [flowStep, if_pos hc, if_pos hc, hline hc]
  · exact takes_of_step hc (h hc)

/-- The items between two quotes are read in one state, which a backslash leaves for one character.
Strings and quoted symbols differ in the states and the kinds. -/
theorem reads_items {others : List Char} {pairKind : Lexeme}
    (hplain : ∀ c, c ∉ others → Takes s c k s) (hslash : Takes s '\\' pairKind s')
    (hpair : ∀ c, c ≠ '\n' → Takes s' c pairKind s) (items : List (QuotedItem others)) :
    Reads s after (items.flatMap (QuotedItem.labelled k pairKind)) s := by
  induction items with
  | nil => exact Reads.nil s after
  | cons item items ih =>
    rw [List.flatMap_cons]
    cases item with
    | plain c hc => exact (hplain c hc).reads ih
    | pair c hc => exact hslash.reads ((hpair c hc).reads ih)

/-! ### Block comments -/

/-- The two characters that open a comment inside a comment. -/
theorem reads_open {outer : Nat} (hrest : Reads (.block (outer + 1)) after xs s') :
    Reads (.block outer) after (Lexeme.blockComment.label ['/', '*'] ++ xs) s' := by
  have hstar : Takes (.openBlock (outer + 1)) '*' .blockComment (.block (outer + 1)) :=
    takes_of_step (by decide) fun _ => rfl
  exact Reads.cons rfl (hstar.reads hrest)

/-- The two characters that close one of several comments. -/
theorem reads_close {outer : Nat} (hrest : Reads (leaveBlock outer) after xs s') :
    Reads (.block outer) after (Lexeme.blockComment.label ['*', '/'] ++ xs) s' := by
  have hslash : Takes (.closeBlock outer) '/' .blockComment (leaveBlock outer) :=
    takes_of_step (by decide) fun _ => rfl
  exact Reads.cons rfl (hslash.reads hrest)

/-- **A block comment is passed over whatever is nested in it.** The scanner comes back to the depth
it started from. -/
theorem reads_body (body : CommentBody) (outer : Nat) (after : Option Char) :
    Reads (.block outer) after (Lexeme.blockComment.label body.text) (.block outer) := by
  induction body generalizing outer after with
  | done => exact Reads.nil _ _
  | plain c star slash rest ih =>
    have htakes : Takes (.block outer) c .blockComment (.block outer) := by
      refine takes_of_carry (fun _ => rfl) fun _ next => ?_
      simp [step, star, slash]
    exact htakes.reads (ih outer after)
  | nested inner rest ihinner ihrest =>
    have hclosed : Reads (.block (outer + 1)) after
        (Lexeme.blockComment.label ['*', '/'] ++ Lexeme.blockComment.label rest.text)
        (.block outer) := reads_close (ihrest outer after)
    have hinside := (ihinner (outer + 1) _).append hclosed
    have hall := reads_open hinside
    simpa [CommentBody.text, Lexeme.label] using hall

/-! ### Tokens -/

/-- The scanner reads on as in plain code, if what comes next is `next`. -/
def AtRest (s : ScanState) (next : Option Char) : Prop :=
  ∀ c, next = some c → ∀ d, s.flowStep c d = ScanState.code.flowStep c d

theorem atRest_code (next : Option Char) : AtRest .code next := fun _ _ _ => rfl

/-- At rest the scanner reads what it would read in plain code. -/
theorem AtRest.reads (h : AtRest s ((xs.map Prod.fst).head?.or after))
    (hcode : Reads .code after xs s') (hend : AtRest s' after) :
    ∃ s'', Reads s after xs s'' ∧ AtRest s'' after := by
  cases xs with
  | nil => exact ⟨s, Reads.nil s after, h⟩
  | cons x xs =>
    refine ⟨s', ?_, hend⟩
    unfold Reads at hcode ⊢
    rw [List.map_cons, flow_cons] at hcode ⊢
    rw [h x.1 rfl, hcode]

theorem takes_code (hc : c ∉ ['/', '"', '\'', '\\', '$']) : Takes .code c .source .code := by
  refine takes_of_carry (fun _ => rfl) fun _ next => ?_
  simp only [List.mem_cons, List.not_mem_nil, or_false, not_or] at hc
  simp [step, codeStep, hc]

theorem isNameChar_of_isNameStart (h : isNameStart c = true) : isNameChar c = true := by
  simp only [isNameStart, isNameChar, Text.isAlphanumeric, Bool.or_eq_true] at h ⊢
  rcases h with h | h
  · exact .inl (.inl (.inl (.inl h)))
  · exact .inr h

theorem ne_lineFeed_of_isNameChar (h : isNameChar c = true) : c ≠ '\n' := by
  rintro rfl
  revert h
  decide

theorem takes_name (h : isNameChar c = true) : Takes .symbolName c .symbol .symbolName :=
  takes_of_step (ne_lineFeed_of_isNameChar h) fun next => by simp [step, h]

/-- After the name of a symbol the scanner is at rest where the name cannot go on. -/
theorem atRest_symbolName {next : Option Char} (h : ∀ c, next = some c → isNameChar c = false) :
    AtRest .symbolName next := by
  intro c hc d
  by_cases hline : c = '\n'
  · subst hline
    rfl
  · simp [flowStep, hline, step, h c hc]

/-- A dollar sign opens a character literal unless the line ends. -/
theorem flowStep_dollar (hd : d ≠ '\n') :
    ScanState.code.flowStep '$' (some d) = (some .escape, .charLiteral) := by
  simp [flowStep, ahead, step, codeStep, hd]

/-- **A token is scanned as its kinds say**, and leaves the scanner at rest if what follows may
follow it. -/
theorem reads_token (k : Token) (h : k.MayPrecede after) :
    ∃ s', Reads .code after k.labelled s' ∧ AtRest s' after := by
  cases k with
  | code t ht =>
    exact ⟨.code, reads_label fun c hc => takes_code (ht c hc), atRest_code after⟩
  | lineComment t ht =>
    have htakes : ∀ c, c ≠ '\n' → Takes .lineComment c .lineComment .lineComment := by
      intro c hc
      exact takes_of_step hc fun _ => rfl
    have hrest : Reads .lineComment after (Lexeme.lineComment.label t) .lineComment :=
      reads_label fun c hc => htakes c fun heq => ht (heq ▸ hc)
    refine ⟨.lineComment, Reads.cons rfl ((htakes '/' (by decide)).reads hrest), ?_⟩
    intro c hc d
    rw [h c hc]
    rfl
  | blockComment body =>
    have hclosed : Reads (.block 0) after (Lexeme.blockComment.label ['*', '/'] ++ []) .code :=
      reads_close (Reads.nil _ _)
    have hstar : Takes (.openBlock 0) '*' .blockComment (.block 0) :=
      takes_of_step (by decide) fun _ => rfl
    have hbody := hstar.reads ((reads_body body 0 _).append hclosed)
    refine ⟨.code, ?_, atRest_code after⟩
    have hall : Reads .code after (('/', .blockComment) :: _) .code := Reads.cons rfl hbody
    simpa [Token.labelled, Lexeme.label] using hall
  | string items =>
    have hopen : Takes .code '"' .string .string := takes_of_step (by decide) fun _ => rfl
    have hclose : Takes .string '"' .string .code := takes_of_step (by decide) fun _ => rfl
    have hplain : ∀ c, c ∉ ['"', '\\'] → Takes .string c .string .string := by
      intro c hc
      simp only [List.mem_cons, List.not_mem_nil, or_false, not_or] at hc
      exact takes_of_carry (fun _ => rfl) fun _ next => by simp [step, hc]
    have hslash : Takes .string '\\' .escape .stringEscape :=
      takes_of_step (by decide) fun _ => rfl
    have hpair : ∀ c, c ≠ '\n' → Takes .stringEscape c .escape .string := by
      intro c hc
      exact takes_of_step hc fun _ => rfl
    have hitems := (reads_items hplain hslash hpair items).append (hclose.reads (Reads.nil _ after))
    exact ⟨.code, hopen.reads hitems, atRest_code after⟩
  | quotedSymbol items =>
    have hopen : Takes .code '\'' .symbol .quotedSymbol := takes_of_step (by decide) fun _ => rfl
    have hclose : Takes .quotedSymbol '\'' .symbol .code := takes_of_step (by decide) fun _ => rfl
    have hplain : ∀ c, c ∉ ['\'', '\\', '\n'] → Takes .quotedSymbol c .symbol .quotedSymbol := by
      intro c hc
      simp only [List.mem_cons, List.not_mem_nil, or_false, not_or] at hc
      exact takes_of_step hc.2.2 fun next => by simp [step, hc]
    have hslash : Takes .quotedSymbol '\\' .symbol .quotedEscape :=
      takes_of_step (by decide) fun _ => rfl
    have hpair : ∀ c, c ≠ '\n' → Takes .quotedEscape c .symbol .quotedSymbol := by
      intro c hc
      exact takes_of_step hc fun _ => rfl
    have hitems := (reads_items hplain hslash hpair items).append (hclose.reads (Reads.nil _ after))
    exact ⟨.code, hopen.reads hitems, atRest_code after⟩
  | symbol first name hfirst hname =>
    have hname : ∀ c ∈ first :: name, Takes .symbolName c .symbol .symbolName :=
      List.forall_mem_cons.2 ⟨takes_name (isNameChar_of_isNameStart hfirst),
        fun c hc => takes_name (hname c hc)⟩
    have hslash : ScanState.code.flowStep '\\' (some first) = (some .symbol, .symbolName) := by
      have hline := ne_lineFeed_of_isNameChar (isNameChar_of_isNameStart hfirst)
      simp [flowStep, ahead, step, codeStep, hline, hfirst]
    exact ⟨.symbolName, Reads.cons hslash (reads_label hname), atRest_symbolName h⟩
  | character c slash line =>
    have hc : Takes .charLiteral c .escape .code :=
      takes_of_step line fun next => by simp [step, slash]
    exact ⟨.code, Reads.cons (flowStep_dollar line) (hc.reads (Reads.nil _ after)),
      atRest_code after⟩
  | escapedCharacter c line =>
    have hslash : Takes .charLiteral '\\' .escape .charEscape :=
      takes_of_step (by decide) fun _ => rfl
    have hc : Takes .charEscape c .escape .code := takes_of_step line fun _ => rfl
    exact ⟨.code, Reads.cons (flowStep_dollar (by decide))
      (hslash.reads (hc.reads (Reads.nil _ after))), atRest_code after⟩

/-- Tokens that may stand where they do are scanned one after the other. -/
theorem reads_labelledAll {ks : List Token} (h : Token.Separated ks)
    (hs : AtRest s (Token.spellingAll ks).head?) :
    ∃ s', Reads s none (Token.labelledAll ks) s' := by
  induction ks generalizing s with
  | nil => exact ⟨s, Reads.nil s none⟩
  | cons k ks ih =>
    obtain ⟨hk, hks⟩ := h
    rw [Token.spellingAll_cons, List.head?_append] at hs
    obtain ⟨s₁, hcode, hend⟩ := reads_token k hk
    obtain ⟨s₂, hfirst, hrest⟩ := hs.reads hcode hend
    obtain ⟨s', hall⟩ := ih hks hrest
    refine ⟨s', Reads.append ?_ hall⟩
    show Reads s ((Token.spellingAll ks).head?.or none) k.labelled s₂
    rw [Option.or_none]
    exact hfirst

/-! ## Rows of a buffer -/

theorem ahead_some (c : Char) : ahead (some c) = if c = '\n' then none else some c := by
  by_cases hc : c = '\n'
  · subst hc
    rfl
  · simp [ahead, Option.filter, hc]

/-- What the scanner sees ahead is the next character of the line. -/
theorem head?_piece {t p : Text} {ps : List Text} (h : Text.pieces '\n' t = p :: ps) :
    p.head? = ahead t.head? := by
  cases t with
  | nil =>
    obtain ⟨rfl, -⟩ := List.cons.inj h
    rfl
  | cons c t =>
    rw [List.head?_cons, ahead_some]
    unfold Text.pieces at h
    by_cases hc : c = '\n'
    · rw [if_pos hc] at h
      obtain ⟨rfl, -⟩ := List.cons.inj h
      rw [if_pos hc]
      rfl
    · rw [if_neg hc] at h
      rw [if_neg hc]
      split at h
      · next hnil => exact absurd hnil (Text.pieces_ne_nil _ _)
      · obtain ⟨rfl, -⟩ := List.cons.inj h
        rfl

/-- The rows of the lines of a text are those of the text scanned in one go. -/
theorem scanLines_pieces (s : ScanState) (t : Text) :
    s.scanLines (Text.pieces '\n' t) =
      ((s.flow none t).1.splitOnP (·.2.isNone)).map (·.filterMap Prod.snd) := by
  induction t generalizing s with
  | nil => rfl
  | cons c t ih =>
    rw [flow_cons, Option.or_none, List.splitOnP_cons_eq_if_modifyHead]
    by_cases hc : c = '\n'
    · have hstep : s.flowStep c t.head? = (none, s.carry) := by rw [flowStep, if_pos hc]
      have hpieces : Text.pieces '\n' (c :: t) = [] :: Text.pieces '\n' t := by
        simp [Text.pieces, hc]
      rw [hstep, hpieces]
      exact congrArg _ (ih s.carry)
    · obtain ⟨p, ps, hp⟩ := List.exists_cons_of_ne_nil (Text.pieces_ne_nil '\n' t)
      have hstep : s.flowStep c t.head? = (some (s.step c p.head?).1, (s.step c p.head?).2) := by
        rw [flowStep, if_neg hc, head?_piece hp]
      have hpieces : Text.pieces '\n' (c :: t) = (c :: p) :: ps := by
        simp [Text.pieces, hc, hp]
      have hrest := ih (s.step c p.head?).2
      obtain ⟨row, rows, hrows⟩ := List.exists_cons_of_ne_nil
        (List.splitOnP_ne_nil (·.2.isNone) ((s.step c p.head?).2.flow none t).1)
      rw [hp, hrows] at hrest
      obtain ⟨hhead, htail⟩ := List.cons.inj hrest
      rw [hstep, hpieces, hrows, scanLines, scan_cons, hhead, htail]
      rfl

/-- Labelled characters show in a scan by rows as they do by themselves. -/
theorem rows_inText (xs : List (Char × Lexeme)) :
    ((inText xs).splitOnP (·.2.isNone)).map (·.filterMap Prod.snd) =
      (xs.splitOnP (·.1 = '\n')).map (·.map Prod.snd) := by
  induction xs with
  | nil => rfl
  | cons x xs ih =>
    obtain ⟨c, k⟩ := x
    rw [inText, List.map_cons, ← inText, List.splitOnP_cons_eq_if_modifyHead,
      List.splitOnP_cons_eq_if_modifyHead]
    by_cases hc : c = '\n'
    · subst hc
      exact congrArg _ ih
    · obtain ⟨row, rows, hrows⟩ := List.exists_cons_of_ne_nil
        (List.splitOnP_ne_nil (·.2.isNone) (inText xs))
      obtain ⟨row', rows', hrows'⟩ := List.exists_cons_of_ne_nil
        (List.splitOnP_ne_nil (·.1 = '\n') xs)
      rw [hrows, hrows'] at ih
      obtain ⟨hhead, htail⟩ := List.cons.inj ih
      simp only [hc, decide_false, if_false, Option.isNone_some, Bool.false_eq_true, hrows, hrows',
        List.modifyHead_cons, List.map_cons, ← hhead, ← htail]
      rfl

end ScanState

/-! ## Main result -/

namespace Classifier

/-- **A text spelled by tokens has the scopes of its tokens.** Each character gets the scope that
its token gives it; the map has one row for each line and covers nothing else. -/
theorem classifyBuffer_spelling (ks : List Token) (h : Token.Separated ks)
    (hreturn : '\r' ∉ Token.spellingAll ks) :
    scanning.classifyBuffer (.ofText (Token.spellingAll ks)) =
      .ok (.ofLabelled (Token.labelledAll ks)) := by
  obtain ⟨s', hreads⟩ := ScanState.reads_labelledAll h (ScanState.atRest_code _)
  have hrows : ScanState.code.scanLines (Text.lines (Token.spellingAll ks)) =
      ((Token.labelledAll ks).splitOnP (·.1 = '\n')).map (·.map Prod.snd) := by
    rw [Text.lines_of_not_mem hreturn, ScanState.scanLines_pieces, ← ScanState.rows_inText]
    have hflow : (ScanState.code.flow none (Token.spellingAll ks)).1 =
        ScanState.inText (Token.labelledAll ks) := congrArg Prod.fst hreads
    rw [hflow]
  show Except.ok (ScopeMap.mk
    ((ScanState.code.scanLines (Text.lines _)).map (·.map Lexeme.scopes))) = _
  rw [hrows, ScopeMap.ofLabelled, List.map_map]
  simp only [Function.comp_def, List.map_map]

/-- Quotes and openers of comments in other tokens, and a bracket in each kind of literal. -/
theorem classifyBuffer_adjacent_tokens : ∃ ks : List Token,
    Token.Separated ks ∧ '\r' ∉ Token.spellingAll ks ∧
      Token.spellingAll ks = "(\"/*\\\"\"\\a_1/*(/*'*/*//*\n*/$\"$\\)'//\\''//\")\n)".toList ∧
      scanning.classifyBuffer
          (.ofText "(\"/*\\\"\"\\a_1/*(/*'*/*//*\n*/$\"$\\)'//\\''//\")\n)".toList) =
        .ok ⟨[[.code] ++ List.replicate 3 (.nested .string) ++
              List.replicate 2 (.nested .escape) ++ [.nested .string] ++
              List.replicate 4 (.nested .symbol) ++ List.replicate 12 (.nested .blockComment),
            List.replicate 2 (.nested .blockComment) ++ List.replicate 5 (.nested .escape) ++
              List.replicate 6 (.nested .symbol) ++ List.replicate 4 (.nested .lineComment),
            [.code]]⟩ := by
  let ks : List Token :=
    [.code ['('] (by simp),
      .string [.plain '/' (by decide), .plain '*' (by decide), .pair '"' (by decide)],
      .symbol 'a' ['_', '1'] (by decide +kernel) (List.all_eq_true.mp (by decide +kernel)),
      .blockComment (.plain '(' (by decide) (by decide)
        (.nested (.plain '\'' (by decide) (by decide) .done) .done)),
      .blockComment (.plain '\n' (by decide) (by decide) .done),
      .character '"' (by decide) (by decide),
      .escapedCharacter ')' (by decide),
      .quotedSymbol [.plain '/' (by decide), .plain '/' (by decide), .pair '\'' (by decide)],
      .lineComment ['"', ')'] (by decide),
      .code ['\n', ')'] (by simp)]
  have hseparated : Token.Separated ks := by
    refine ⟨trivial, trivial, ?_, trivial, trivial, trivial, trivial, trivial, ?_, trivial, trivial⟩
    · intro c hc
      obtain rfl := Option.some.inj hc
      decide
    · intro c hc
      exact (Option.some.inj hc).symm
  have hreturn : '\r' ∉ Token.spellingAll ks := by decide
  exact ⟨ks, hseparated, hreturn, rfl, classifyBuffer_spelling ks hseparated hreturn⟩

end Classifier

end Livecode
