import Livecode.Proofs.Control.Course
import Livecode.Proofs.Control.Replay

/-!
# Sessions over a whole run

A journal says which sessions are open: those launched and neither shut down nor let go of. Read from
left to right, an entry *fits* if what came before allows it. A launch finds no session open, a call
goes to the one that is, and a session is let go of only where it has just shown that it is gone.
Every move of a supervisor enters what fits, so the journal of any run is orderly. That no two
sessions are open together, that none is used once it has ended, and that each ends exactly once, is
then a matter of the journal alone.

## Main results

* `Move.kept` — a move keeps the journal orderly and the supervisor in step with it.
* `Journal.Follows.wellKept` — what an orderly journal says of its sessions.
* `acted_order` — what an order enters is what it does on the machine, and only a stop shuts down.
* `afterAll_sessions` — the sessions of any run of orders, until the supervisor is gone.
-/

namespace Livecode

/-! ## What a journal says of its sessions -/

namespace JournalEntry

/-- The session that an entry is about. -/
def session? : JournalEntry → Option SessionId
  | .launched id _ | .probed id _ | .interpreted id _ _ | .sent id _ _ | .quit id _ | .released id =>
    some id
  | _ => none

/-- Whether the entry is the end of a session. -/
def ends (id : SessionId) : JournalEntry → Bool
  | .quit id' _ | .released id' => id' = id
  | _ => false

/-- The entry shows that the process of a session is gone. -/
def Loses (id : SessionId) (e : JournalEntry) : Prop :=
  e = .probed id false ∨ ∃ code, e = .interpreted id code (.error .disconnected)

theorem ends_iff {id : SessionId} {e : JournalEntry} :
    e.ends id = true ↔ e = .released id ∨ ∃ r, e = .quit id r := by
  cases e <;> simp [ends]

theorem Loses.session?_eq {id : SessionId} {e : JournalEntry} (h : e.Loses id) :
    e.session? = some id := by
  rcases h with rfl | ⟨code, rfl⟩ <;> rfl

end JournalEntry

namespace Journal

/-- The sessions open after an entry, given those that were open before it. -/
def openAfter (ids : List SessionId) : JournalEntry → List SessionId
  | .launched id (.ok _) => ids ++ [id]
  | .quit id _ | .released id => ids.filter (· ≠ id)
  | _ => ids

/-- The sessions launched that have not ended. -/
def openSessions (j : Journal) : List SessionId := j.foldl openAfter []

/-- The sessions launched. -/
def launchedSessions (j : Journal) : List SessionId :=
  j.filterMap fun
    | .launched id (.ok _) => some id
    | _ => none

theorem openSessions_append (i j : Journal) :
    openSessions (i ++ j) = j.foldl openAfter (openSessions i) := List.foldl_append

@[simp] theorem openSessions_concat (i : Journal) (e : JournalEntry) :
    openSessions (i ++ [e]) = openAfter (openSessions i) e := openSessions_append i [e]

@[simp] theorem launchedSessions_append (i j : Journal) :
    launchedSessions (i ++ j) = launchedSessions i ++ launchedSessions j := List.filterMap_append

theorem mem_of_mem_openAfter {ids : List SessionId} {id : SessionId} {e : JournalEntry}
    (h : id ∈ openAfter ids e) : id ∈ ids ∨ e.session? = some id := by
  cases e with
  | launched id' r =>
    cases r with
    | ok =>
      rcases List.mem_append.mp h with hid | hid
      · exact .inl hid
      · exact .inr (congrArg some (List.mem_singleton.mp hid).symm)
    | error => exact .inl h
  | quit => exact .inl (List.mem_filter.mp h).1
  | released => exact .inl (List.mem_filter.mp h).1
  | _ => exact .inl h

/-! ### Entries that fit -/

/-- The session was seen to be gone, and since then nothing but texts posted has happened. -/
def JustLost (id : SessionId) (i : Journal) : Prop :=
  ∃ i' e k, i = i' ++ e :: k ∧ JournalEntry.Loses id e ∧ Said k

/-- An entry may come after a journal. -/
def Fits (i : Journal) : JournalEntry → Prop
  | .launched id _ => openSessions i = [] ∧ id ∉ launchedSessions i
  | .probed id _ | .interpreted id _ _ | .sent id _ _ | .quit id _ => openSessions i = [id]
  | .released id => openSessions i = [id] ∧ JustLost id i
  | _ => True

/-- Every entry of `j` may come where it does after `i`. -/
def Follows (i : Journal) : Journal → Prop
  | [] => True
  | e :: j => Fits i e ∧ Follows (i ++ [e]) j

theorem follows_append {i j k : Journal} :
    Follows i (j ++ k) ↔ Follows i j ∧ Follows (i ++ j) k := by
  induction j generalizing i with
  | nil => simp [Follows]
  | cons e j ih => simp [Follows, ih, and_assoc]

theorem Follows.fits {i j k : Journal} {e : JournalEntry} (h : Follows i (j ++ e :: k)) :
    Fits (i ++ j) e := (follows_append.mp h).2.1

theorem Said.openSessions_append {i k : Journal} (h : Said k) :
    openSessions (i ++ k) = openSessions i := by
  rw [Journal.openSessions_append]
  induction k with
  | nil => rfl
  | cons e k ih =>
    obtain ⟨⟨t, rfl⟩, hk⟩ := said_cons.mp h
    exact ih hk

theorem Said.launchedSessions_eq {k : Journal} (h : Said k) : launchedSessions k = [] := by
  refine List.filterMap_eq_nil_iff.mpr fun e he => ?_
  obtain ⟨t, rfl⟩ := h e he
  rfl

theorem Said.follows {i j : Journal} (h : Said j) : Follows i j := by
  induction j generalizing i with
  | nil => trivial
  | cons e j ih =>
    obtain ⟨⟨t, rfl⟩, hj⟩ := said_cons.mp h
    exact ⟨trivial, ih hj⟩

/-- An entry is a launch, or it is about the one session open, or about none. -/
theorem Fits.cases {i : Journal} {e : JournalEntry} (h : Fits i e) :
    (∃ id r, e = .launched id r ∧ openSessions i = [] ∧ id ∉ launchedSessions i) ∨
    (∃ id, e.session? = some id ∧ (∀ r, e ≠ .launched id r) ∧ openSessions i = [id]) ∨
    e.session? = none := by
  cases e with
  | launched id r => exact .inl ⟨id, r, rfl, h⟩
  | probed id => exact .inr (.inl ⟨id, rfl, nofun, h⟩)
  | interpreted id => exact .inr (.inl ⟨id, rfl, nofun, h⟩)
  | sent id => exact .inr (.inl ⟨id, rfl, nofun, h⟩)
  | quit id => exact .inr (.inl ⟨id, rfl, nofun, h⟩)
  | released id => exact .inr (.inl ⟨id, rfl, nofun, h.1⟩)
  | _ => exact .inr (.inr rfl)

/-! ### Orderly journals -/

/-- The books of a journal: launches and ends of sessions match up. -/
structure Balanced (i : Journal) : Prop where
  single : (openSessions i).length ≤ 1
  balance : ∀ id,
    (launchedSessions i).count id = i.countP (·.ends id) + (openSessions i).count id
  once : ∀ id, (launchedSessions i).count id ≤ 1

theorem Balanced.nil : Balanced [] := ⟨by decide, fun _ => rfl, fun _ => Nat.zero_le _⟩

theorem Balanced.mem_launchedSessions {i : Journal} {id : SessionId} (h : Balanced i)
    (hid : id ∈ openSessions i) : id ∈ launchedSessions i := by
  have hpos := List.count_pos_iff.mpr hid
  have hbalance := h.balance id
  exact List.count_pos_iff.mp (by omega)

theorem Balanced.launched {i : Journal} {id : SessionId} (h : Balanced i)
    (hopen : openSessions i = []) (hfresh : id ∉ launchedSessions i) :
    Balanced (i ++ [.launched id (.ok ())]) := by
  have hview : launchedSessions [.launched id (.ok ())] = [id] := rfl
  have hnone : (launchedSessions i).count id = 0 := List.count_eq_zero.mpr hfresh
  refine ⟨by simp [hopen, openAfter], fun id' => ?_, fun id' => ?_⟩
  · have hbalance := h.balance id'
    simp only [hopen, List.count_nil] at hbalance
    simp [hview, hopen, openAfter, JournalEntry.ends, hbalance]
  · have honce := h.once id'
    rw [launchedSessions_append, hview, List.count_append, List.count_singleton]
    by_cases hid : id = id'
    · simp [← hid, hnone]
    · simpa [hid] using honce

theorem Balanced.ended {i : Journal} {id : SessionId} {e : JournalEntry} (h : Balanced i)
    (hopen : openSessions i = [id]) (he : e = .released id ∨ ∃ r, e = .quit id r) :
    Balanced (i ++ [e]) := by
  have hview : launchedSessions [e] = [] := by rcases he with rfl | ⟨r, rfl⟩ <;> rfl
  have hends : ∀ id', e.ends id' = decide (id = id') := by
    rcases he with rfl | ⟨r, rfl⟩ <;> exact fun _ => rfl
  have hclosed : openSessions (i ++ [e]) = [] := by
    rcases he with rfl | ⟨r, rfl⟩ <;> simp [hopen, openAfter]
  refine ⟨by simp [hclosed], fun id' => ?_, fun id' => ?_⟩
  · have hbalance := h.balance id'
    rw [hopen, List.count_singleton] at hbalance
    rw [launchedSessions_append, hview, List.append_nil, hclosed, hbalance, List.countP_append,
      List.countP_singleton, hends, List.count_nil]
    simp
  · rw [launchedSessions_append, hview, List.append_nil]
    exact h.once id'

/-- An entry that neither launches nor ends a session leaves the books as they are. -/
theorem Balanced.neutral {i : Journal} {e : JournalEntry} (h : Balanced i)
    (hview : launchedSessions [e] = []) (hends : ∀ id, e.ends id = false)
    (hopen : ∀ ids, openAfter ids e = ids) : Balanced (i ++ [e]) := by
  refine ⟨?_, fun id => ?_, fun id => ?_⟩
  · simpa [hopen] using h.single
  · simpa [hview, hends, hopen] using h.balance id
  · simpa [hview] using h.once id

theorem Balanced.concat {i : Journal} {e : JournalEntry} (h : Balanced i) (he : Fits i e) :
    Balanced (i ++ [e]) := by
  cases e with
  | launched id r =>
    cases r with
    | ok => exact h.launched he.1 he.2
    | error => exact h.neutral rfl (fun _ => rfl) fun _ => rfl
  | quit id r => exact h.ended he (.inr ⟨r, rfl⟩)
  | released id => exact h.ended he.1 (.inl rfl)
  | _ => exact h.neutral rfl (fun _ => rfl) fun _ => rfl

/-- The books are kept entry by entry. -/
theorem Follows.balanced {i j : Journal} (h : Follows i j) (hi : Balanced i) :
    Balanced (i ++ j) := by
  induction j generalizing i with
  | nil => rwa [List.append_nil]
  | cons e j ih =>
    have hj := ih h.2 (hi.concat h.1)
    rwa [List.append_assoc] at hj

/-- A session that has ended is not heard of again. -/
theorem Follows.not_session {i j : Journal} {id : SessionId} (h : Follows i j)
    (hlaunched : id ∈ launchedSessions i) (hclosed : id ∉ openSessions i) :
    ∀ e ∈ j, e.session? ≠ some id := by
  induction j generalizing i with
  | nil => nofun
  | cons e j ih =>
    obtain ⟨he, hj⟩ := h
    -- a launch is of a new session, and every other call is to the one that is open
    have hne : e.session? ≠ some id := by
      rcases he.cases with ⟨id', r, rfl, -, hfresh⟩ | ⟨id', hid', -, hopen⟩ | hnone
      · exact fun hid => hfresh (Option.some.inj hid ▸ hlaunched)
      · exact fun hid => hclosed (by rw [hopen]; simpa using Option.some.inj (hid.symm.trans hid'))
      · rw [hnone]
        nofun
    have hclosed' : id ∉ openSessions (i ++ [e]) := by
      rw [openSessions_concat]
      exact fun hid => (mem_of_mem_openAfter hid).elim hclosed hne
    rintro e' (_ | ⟨_, he'⟩)
    · exact hne
    · exact ih hj (by simp [hlaunched]) hclosed' e' he'

/-! ### Prompt releases -/

/-- Where a session is seen to be gone it is let go of at once. -/
def Prompt (j : Journal) : Prop :=
  ∀ i e k id, j = i ++ e :: k → JournalEntry.Loses id e →
    ∃ k' k'', k = k' ++ .released id :: k'' ∧ Said k'

theorem Prompt.nil : Prompt [] := by
  intro i e k id hj
  simp at hj

theorem Prompt.append {i j : Journal} (hi : Prompt i) (hj : Prompt j) : Prompt (i ++ j) := by
  intro a e k id hsplit hloses
  rcases List.append_eq_append_iff.mp hsplit with ⟨b, rfl, hb⟩ | ⟨b, hb, hk⟩
  · exact hj b e k id hb hloses
  · cases b with
    | nil => exact hj [] e k id hk.symm hloses
    | cons e' b =>
      obtain ⟨rfl, rfl⟩ := List.cons.inj hk
      obtain ⟨k', k'', rfl, hsaid⟩ := hi a e b id hb hloses
      exact ⟨k', k'' ++ j, by simp, hsaid⟩

theorem Prompt.singleton {e : JournalEntry} (h : ∀ id, ¬ JournalEntry.Loses id e) :
    Prompt [e] := by
  intro i e' k id hj hloses
  have hmem : e' ∈ [e] := by simp [hj]
  exact absurd (List.mem_singleton.mp hmem ▸ hloses) (h id)

/-- A loss, what is posted about it, and the release. -/
theorem Prompt.release {e : JournalEntry} {k : Journal} {id : SessionId}
    (he : JournalEntry.Loses id e) (hk : Said k) : Prompt (e :: k ++ [.released id]) := by
  intro i e' k' id' hj hloses
  cases i with
  | nil =>
    obtain ⟨rfl, rfl⟩ := List.cons.inj hj
    obtain rfl := Option.some.inj (hloses.session?_eq.symm.trans he.session?_eq)
    exact ⟨k, [], rfl, hk⟩
  | cons x i =>
    have htail : k ++ [.released id] = i ++ e' :: k' := (List.cons.inj hj).2
    have hmem : e' ∈ k ++ [.released id] := by
      rw [htail]
      simp
    rcases List.mem_append.mp hmem with hmem | hmem
    · obtain ⟨t, rfl⟩ := hk e' hmem
      simp [JournalEntry.Loses] at hloses
    · obtain rfl := List.mem_singleton.mp hmem
      simp [JournalEntry.Loses] at hloses

theorem openSessions_lost {i : Journal} {e : JournalEntry} {k : Journal} {id : SessionId}
    (hopen : openSessions i = [id]) (he : JournalEntry.Loses id e) (hk : Said k) :
    openSessions (i ++ e :: k) = [id] := by
  rw [List.append_cons, hk.openSessions_append, openSessions_concat, hopen]
  rcases he with rfl | ⟨code, rfl⟩ <;> rfl

theorem follows_release {i : Journal} {e : JournalEntry} {k : Journal} {id : SessionId}
    (hopen : openSessions i = [id]) (he : JournalEntry.Loses id e) (hk : Said k) :
    Follows i (e :: k ++ [.released id]) := by
  have hfits : Fits i e := by rcases he with rfl | ⟨code, rfl⟩ <;> exact hopen
  have hreleased : Fits (i ++ e :: k) (.released id) :=
    ⟨openSessions_lost hopen he hk, i, e, k, rfl, he, hk⟩
  rw [List.append_cons] at hreleased
  exact ⟨hfits, follows_append.mpr ⟨hk.follows, hreleased, trivial⟩⟩

/-! ### What follows from order -/

/-- A journal keeps its sessions apart. -/
structure WellKept (j : Journal) : Prop where
  /-- At each point at most one session is open. -/
  single : ∀ i, i <+: j → (openSessions i).length ≤ 1
  /-- A launch is made while none is, and is of a session not seen before. -/
  alone : ∀ i id r k, j = i ++ .launched id r :: k →
    openSessions i = [] ∧ id ∉ launchedSessions i
  /-- Everything else that is about a session is about the one that is open. -/
  called : ∀ i e k id, j = i ++ e :: k → e.session? = some id → (∀ r, e ≠ .launched id r) →
    openSessions i = [id]
  /-- A session that has been shut down or let go of is not heard of again. -/
  ended : ∀ i e k id, j = i ++ e :: k → e.ends id = true → ∀ e' ∈ k, e'.session? ≠ some id
  /-- A session is let go of only right after it was seen to be gone. -/
  lost : ∀ i id k, j = i ++ .released id :: k → JustLost id i
  /-- Where a session is seen to be gone it is let go of right away. -/
  prompt : Prompt j

theorem Follows.wellKept {j : Journal} (h : Follows [] j) (hprompt : Prompt j) : WellKept j where
  single := by
    rintro i ⟨k, rfl⟩
    exact ((follows_append.mp h).1.balanced .nil).single
  alone := by
    rintro i id r k rfl
    exact h.fits
  called := by
    rintro i e k id rfl hid hne
    rcases h.fits.cases with ⟨id', r, rfl, -⟩ | ⟨id', hid', -, hopen⟩ | hnone
    · exact absurd (by rw [Option.some.inj hid]) (hne r)
    · rwa [Option.some.inj (hid.symm.trans hid')]
    · cases hnone.symm.trans hid
  ended := by
    rintro i e k id rfl hends
    obtain ⟨he, hk⟩ := (follows_append.mp h).2
    have hends' := JournalEntry.ends_iff.mp hends
    have hopen : openSessions i = [id] := by
      rcases hends' with rfl | ⟨r, rfl⟩
      · exact he.1
      · exact he
    have hlaunched : id ∈ launchedSessions i :=
      ((follows_append.mp h).1.balanced .nil).mem_launchedSessions (by simp [hopen])
    refine hk.not_session (by simp [hlaunched]) ?_
    rcases hends' with rfl | ⟨r, rfl⟩ <;> simp [hopen, openAfter]
  lost := by
    rintro i id k rfl
    exact h.fits.2
  prompt := hprompt

/-- Once no session is open, each launched one has ended exactly once. -/
theorem Follows.countP_ends {j : Journal} {id : SessionId} (h : Follows [] j)
    (hclosed : openSessions j = []) (hid : .launched id (.ok ()) ∈ j) :
    j.countP (·.ends id) = 1 := by
  have hmem : id ∈ launchedSessions j := List.mem_filterMap.mpr ⟨_, hid, rfl⟩
  have hpos := List.count_pos_iff.mpr hmem
  obtain ⟨-, hbalance, honce⟩ := h.balanced .nil
  have hle := honce id
  have hsum := hbalance id
  simp only [List.nil_append, hclosed, List.count_nil] at hle hsum
  omega

end Journal

/-! ## Moves -/

/-- The journal of a supervisor is orderly and agrees with its standing. -/
structure Kept (j : Journal) (s : Standing) : Prop where
  follows : Journal.Follows [] j
  opened : j.openSessions = s.session.toList
  numbered : ∀ id ∈ j.launchedSessions, id.number < s.launches
  prompt : j.Prompt

section

variable {D : Deed → Prop} {s s' : Standing} {i j : Journal}

theorem Kept.append (hs : Kept i s) (hj : Journal.Follows i j)
    (hopened : (i ++ j).openSessions = s'.session.toList)
    (hnumbered : ∀ id ∈ j.launchedSessions, id.number < s'.launches)
    (hlaunches : s.launches ≤ s'.launches) (hprompt : j.Prompt) : Kept (i ++ j) s' where
  follows := Journal.follows_append.mpr ⟨hs.follows, hj⟩
  opened := hopened
  numbered := by
    intro id hid
    rw [Journal.launchedSessions_append] at hid
    rcases List.mem_append.mp hid with hid | hid
    · exact Nat.lt_of_lt_of_le (hs.numbered id hid) hlaunches
    · exact hnumbered id hid
  prompt := hs.prompt.append hprompt

theorem Kept.fresh (hs : Kept i s) : (⟨s.launches⟩ : SessionId) ∉ i.launchedSessions :=
  fun hid => Nat.lt_irrefl _ (hs.numbered _ hid)

theorem Kept.openSessions_eq {id : SessionId} (hs : Kept i s) (h : s.session = some id) :
    i.openSessions = [id] := by
  rw [hs.opened, h]
  rfl

theorem Kept.openSessions_eq_nil (hs : Kept i s) (h : s.session = none) :
    i.openSessions = [] := by
  rw [hs.opened, h]
  rfl

/-- An entry that neither launches a session, nor ends one, nor shows one to be gone. -/
theorem Kept.concat {e : JournalEntry} (hs : Kept i s)
    (he : Journal.Fits i e) (hopened : ∀ ids, Journal.openAfter ids e = ids)
    (hlaunched : Journal.launchedSessions [e] = []) (hloses : ∀ id, ¬ e.Loses id)
    (hsession : s'.session = s.session) (hlaunches : s.launches ≤ s'.launches) :
    Kept (i ++ [e]) s' := by
  refine hs.append ⟨he, trivial⟩ ?_ ?_ hlaunches (.singleton hloses)
  · rw [Journal.openSessions_concat, hopened, hs.opened, hsession]
  · rw [hlaunched]
    nofun

theorem Kept.release {e : JournalEntry} {k : Journal} {id : SessionId} (hs : Kept i s)
    (hid : s.session = some id) (he : e.Loses id) (hk : k.Said) :
    Kept (i ++ (e :: k ++ [.released id])) s.cleared := by
  have hopened : Journal.openSessions (i ++ (e :: k ++ [.released id])) = [] := by
    rw [← List.append_assoc, Journal.openSessions_concat,
      Journal.openSessions_lost (hs.openSessions_eq hid) he hk]
    simp [Journal.openAfter]
  have hnone : Journal.launchedSessions (e :: k ++ [.released id]) = [] := by
    have hrest : Journal.launchedSessions (k ++ [.released id]) = [] := by
      rw [Journal.launchedSessions_append, hk.launchedSessions_eq]
      rfl
    rcases he with rfl | ⟨code, rfl⟩ <;> exact hrest
  refine hs.append (Journal.follows_release (hs.openSessions_eq hid) he hk) hopened ?_
    (Nat.le_refl _) (.release he hk)
  rw [hnone]
  nofun

/-- A move enters what fits. The numbers of sessions lie below the next one, so a launch is of a new
session; and where a move shows the session to be gone it also releases it. -/
theorem Move.kept (h : Move D s j s') (hs : Kept i s) : Kept (i ++ j) s' := by
  cases h with
  | said t =>
    exact hs.concat trivial (fun _ => rfl) rfl (by simp [JournalEntry.Loses]) rfl (Nat.le_refl _)
  | launchFailed e hd hnone =>
    exact hs.concat ⟨hs.openSessions_eq_nil hnone, hs.fresh⟩ (fun _ => rfl) rfl
      (by simp [JournalEntry.Loses]) rfl (Nat.le_succ _)
  | launched hd hnone =>
    have hnil := hs.openSessions_eq_nil hnone
    refine hs.append ⟨⟨hnil, hs.fresh⟩, trivial⟩ ?_ ?_ (Nat.le_succ _)
      (.singleton (by simp [JournalEntry.Loses]))
    · rw [Journal.openSessions_concat, hnil]
      rfl
    · intro id hid
      obtain rfl := List.mem_singleton.mp hid
      exact Nat.lt_succ_self _
  | alive hid =>
    exact hs.concat (hs.openSessions_eq hid) (fun _ => rfl) rfl (by simp [JournalEntry.Loses]) rfl
      (Nat.le_refl _)
  | dead hid => exact hs.release hid (.inl rfl) (Journal.said_posted _)
  | answered p r hd hid hr =>
    exact hs.concat (hs.openSessions_eq hid) (fun _ => rfl) rfl (by simp [JournalEntry.Loses, hr])
      rfl (Nat.le_refl _)
  | lost p hd hid hk => exact hs.release hid (.inr ⟨_, rfl⟩) hk
  | sent r hd hid =>
    exact hs.concat (hs.openSessions_eq hid) (fun _ => rfl) rfl (by simp [JournalEntry.Loses]) rfl
      (Nat.le_refl _)
  | @quit id r hd hid =>
    have hopen := hs.openSessions_eq hid
    refine hs.append ⟨hopen, trivial⟩ ?_ nofun (Nat.le_refl _)
      (.singleton (by simp [JournalEntry.Loses]))
    simp [hopen, Journal.openAfter]
  | serverGone hnone =>
    rw [List.append_nil]
    exact ⟨hs.follows, hs.opened, hs.numbered, hs.prompt⟩

theorem Move.quits_eq_zero (hD : ¬ D .quit) (h : Move D s j s') : j.quits = 0 := by
  cases h with
  | quit _ hd => exact absurd hd hD
  | lost _ _ _ hk =>
    refine List.countP_eq_zero.mpr fun e he => ?_
    rcases List.mem_cons.mp he with rfl | he
    · nofun
    rcases List.mem_append.mp he with he | he
    · obtain ⟨t, rfl⟩ := hk e he
      nofun
    · obtain rfl := List.mem_singleton.mp he
      nofun
  | _ => rfl

theorem Course.quits_eq_zero (hD : ¬ D .quit) (h : Course D s j s') : j.quits = 0 := by
  induction h with
  | done => rfl
  | step hmove _ ih => rw [Journal.quits_append, hmove.quits_eq_zero hD, ih]

theorem Course.kept (h : Course D s j s') (hs : Kept i s) : Kept (i ++ j) s' := by
  induction h generalizing i with
  | done => rwa [List.append_nil]
  | step hmove _ ih =>
    have hj := ih (hmove.kept hs)
    rwa [List.append_assoc] at hj

end

/-! ## Runs -/

/-- What a supervisor can be asked for. -/
inductive Order where
  | start
  | stop
  | toggle
  | status
  | evaluate (code : Text)
  | evaluateDetached (code : Text)
  | hush
  | bootServer
  | quitServer
  | toggleServer

/-- What happens to a supervisor: it is given an order, or something changes on its machine. -/
inductive Happening (ω : Type) where
  | order (o : Order)
  | meanwhile (change : ω → ω)

namespace Supervisor

open Supervised

variable {ω : Type} (M : Machine ω)

/-- Carries out an order. -/
def carryOut : Order → Supervised ω Unit
  | .start => do let _ ← start M
  | .stop => do let _ ← stop M
  | .toggle => do let _ ← toggle M
  | .status => do let _ ← status M
  | .evaluate code => do let _ ← evaluate M code
  | .evaluateDetached code => do let _ ← evaluateDetached M code
  | .hush => do let _ ← hush M
  | .bootServer => do let _ ← bootServer M
  | .quitServer => do let _ ← quitServer M
  | .toggleServer => do let _ ← toggleServer M

/-- A supervisor after something has happened. -/
def after (s : Supervisor ω) : Happening ω → Supervisor ω
  | .order o => ((carryOut M o).run s).2
  | .meanwhile change => { s with machine := change s.machine }

def afterAll (s : Supervisor ω) (hs : List (Happening ω)) : Supervisor ω := hs.foldl (after M) s

theorem carryOut_within {D : Deed → Prop} (o : Order) (s : Supervisor ω)
    (hD : ∀ d, d ≠ .quit → D d) (hquit : o = .stop ∨ o = .toggle → D .quit) :
    Within D (carryOut M o) s := by
  have hpure : ∀ {α : Type} {act : Supervised ω α}, Within D act s →
      Within D (do let _ ← act) s := fun h => h.bind fun _ _ => .pure .done
  cases o with
  | start => exact hpure (start_within M s (hD _ nofun) (hD _ nofun))
  | stop => exact hpure (stop_within M s (hD _ nofun) (hquit (.inl rfl)))
  | toggle =>
    exact hpure (toggle_within M s (hD _ nofun) (hD _ nofun) (hD _ nofun) (hquit (.inr rfl)))
  | status => exact hpure (status_within M s)
  | evaluate code => exact hpure (evaluate_within M s code (hD _ nofun))
  | evaluateDetached code => exact hpure (evaluateDetached_within M s code (hD _ nofun))
  | hush => exact hpure (hush_within M s (hD _ nofun))
  | bootServer => exact hpure (bootServer_within M s (hD _ nofun))
  | quitServer => exact hpure (quitServer_within M s (hD _ nofun))
  | toggleServer => exact hpure (toggleServer_within M s (hD _ nofun) (hD _ nofun))

theorem after_kept {s : Supervisor ω} (hs : Kept s.journal s.standing) (h : Happening ω) :
    Kept (after M s h).journal (after M s h).standing := by
  cases h with
  | order o =>
    have hwithin : Within (fun _ => True) (carryOut M o) s :=
      carryOut_within M o s (fun _ _ => trivial) fun _ => trivial
    obtain ⟨j, hj, hcourse⟩ := hwithin
    have hkept := hcourse.kept hs
    rwa [← hj] at hkept
  | meanwhile => exact hs

theorem afterAll_kept {s : Supervisor ω} (hs : Kept s.journal s.standing)
    (happenings : List (Happening ω)) :
    Kept (afterAll M s happenings).journal (afterAll M s happenings).standing := by
  induction happenings generalizing s with
  | nil => exact hs
  | cons h happenings ih => exact ih (after_kept M hs h)

theorem fresh_kept (machine : ω) (post : PostWindow) (bootsServer : Bool) :
    Kept (fresh machine post bootsServer).journal (fresh machine post bootsServer).standing where
  follows := trivial
  opened := rfl
  numbered := nofun
  prompt := .nil

theorem carryOut_faithful (o : Order) : Faithful M (carryOut M o) := by
  have hpure : ∀ {α : Type} {act : Supervised ω α}, Faithful M act →
      Faithful M (do let _ ← act) := fun h => h.bind fun _ => .pure ()
  cases o with
  | start => exact hpure (start_speaks M).faithful
  | stop => exact hpure (stop_speaks M).faithful
  | toggle => exact hpure (toggle_speaks M).faithful
  | status => exact hpure (status_faithful M)
  | evaluate code => exact hpure (evaluate_faithful M code)
  | evaluateDetached code => exact hpure (evaluateDetached_faithful M code)
  | hush => exact hpure (hush_faithful M)
  | bootServer => exact hpure (bootServer_speaks M).faithful
  | quitServer => exact hpure (quitServer_speaks M).faithful
  | toggleServer => exact hpure (toggleServer_speaks M).faithful

/-- The supervisor came from `s` to `s'`, and `k` is what it entered and did on the machine. -/
def Acted (s : Supervisor ω) (k : Journal) (s' : Supervisor ω) : Prop :=
  s'.journal = s.journal ++ k ∧ M.Replays s.machine k s'.machine

/-- Only a stop shuts a session down. -/
theorem acted_order (s : Supervisor ω) (o : Order) : ∃ k, Acted M s k (after M s (.order o)) ∧
    (o ≠ .stop → o ≠ .toggle → k.quits = 0) := by
  obtain ⟨k, hk, hreplays, -⟩ := carryOut_faithful M o s
  refine ⟨k, ⟨hk, hreplays⟩, fun hstop htoggle => ?_⟩
  have hwithin : Within (· ≠ .quit) (carryOut M o) s :=
    carryOut_within M o s (fun _ hd => hd) fun ho => (ho.elim hstop htoggle).elim
  obtain ⟨j, hj, hcourse⟩ := hwithin
  obtain rfl : j = k := List.append_cancel_left (hj.symm.trans hk)
  exact hcourse.quits_eq_zero fun h => h rfl

/-- **There is never more than one session, and none leaks.** Take a supervisor without a session on
any machine, and let it be given any orders, whatever may change on the machine in between. Its
journal is what it did on the machine, the session that it holds is the one its journal shows to be
open, and only a stop shuts one down. When the supervisor is gone, its journal keeps the sessions
apart, no session is open, and each that was launched has been shut down or let go of exactly
once. -/
theorem afterAll_sessions (M : Machine ω) (machine : ω) (post : PostWindow) (bootsServer : Bool)
    (happenings : List (Happening ω)) :
    let s := afterAll M (fresh machine post bootsServer) happenings
    let s' := ((finish M).run s).2
    (∀ o, ∃ k, Acted M s k (after M s (.order o)) ∧ (o ≠ .stop → o ≠ .toggle → k.quits = 0)) ∧
      (∃ k, Acted M s k s') ∧
      s.journal.openSessions = s.session.toList ∧ s'.journal.openSessions = [] ∧
      s'.journal.WellKept ∧
      ∀ id, .launched id (.ok ()) ∈ s'.journal → s'.journal.countP (·.ends id) = 1 := by
  intro s s'
  have hs : Kept s.journal s.standing := afterAll_kept M (fresh_kept machine post bootsServer) _
  have hfinish : Does (finish M) s fun _ j s' =>
      Course (fun _ => True) s.standing j s'.standing ∧ s'.session = none := finish_does M s trivial
  obtain ⟨k, hk, hcourse, hnone⟩ := hfinish
  have hs' : Kept s'.journal s'.standing := by
    have hkept := hcourse.kept hs
    rwa [← hk] at hkept
  have hclosed : s'.journal.openSessions = [] := hs'.openSessions_eq_nil hnone
  exact ⟨acted_order M s, finish_honest M s, hs.opened, hclosed, hs'.follows.wellKept hs'.prompt,
    fun id => hs'.follows.countP_ends hclosed⟩

end Supervisor
end Livecode
