import Livecode.Broadcast.Connection
import Livecode.Proofs.Json.Written

/-!
# Both ends of a connection agree

A notice that the server writes is the notice that the subscriber reads, and a signal that the
subscriber writes is the signal that is reported to the server.

## Main results

* `Notice.decode_encode`, `Signal.decode_encode` — reading gives back what was written.
* `Notice.ends_agree` — the ends agree, and different messages look different.
-/

namespace Livecode

/-! ## Notices -/

namespace Notice

/-- The values of the fields of a notice. -/
def values : Notice → List (Text × Json.Value)
  | .hello id => [("client", .number (some id.number.toNat))]
  | .statement code => [("data", .string code)]
  | _ => []

theorem spells_fields (n : Notice) : Json.SpellsFields 0 n.fields n.values := by
  cases n with
  | hello id => exact .cons (Json.spells_natural 0 id.number.toNat_lt) .nil
  | statement code => exact .cons (Json.spells_quote 0 code) .nil
  | pong => exact .nil
  | shutdown => exact .nil

theorem build?_values (n : Notice) : build? n.kind (.fields n.values) = some n := by
  cases n with
  | hello id =>
    have hid : UInt64.ofNat id.number.toNat = id.number := UInt64.ofNat_toNat
    show some (Notice.hello ⟨UInt64.ofNat id.number.toNat⟩) = _
    rw [hid]
  | _ => rfl

theorem tag_not_mem_values (n : Notice) : "event".toList ∉ n.values.map (·.1) := by
  have hclient : "event".toList ∉ ["client".toList] := by decide
  have hdata : "event".toList ∉ ["data".toList] := by decide
  cases n with
  | hello id => exact hclient
  | statement code => exact hdata
  | pong => nofun
  | shutdown => nofun

/-- **Reading a notice gives back what was written.** -/
theorem decode_encode (n : Notice) : decode n.encode = .ok n :=
  Json.decodeTagged_object n.spells_fields (by decide) (Kind.ofName?_name n.kind)
    n.tag_not_mem_values n.build?_values

theorem encode_injective : Function.Injective encode := fun m n h =>
  Except.ok.inj (m.decode_encode.symm.trans ((congrArg decode h).trans n.decode_encode))

/-- A notice is written without control characters. -/
theorem not_control_of_mem_encode {n : Notice} {c : Char} (h : c ∈ n.encode) : 0x20 ≤ c.toNat :=
  ((Json.SpellsFields.cons (Json.spells_quote 0 n.kind.name) n.spells_fields).spells
    (List.cons_ne_nil _ _)).plain c h

end Notice

/-! ## Signals -/

namespace Signal

/-- **Reading a signal gives back what was written.** -/
theorem decode_encode (s : Signal) : decode s.encode = .ok s := by
  have hnone : Json.SpellsFields 0 [] [] := .nil
  exact Json.decodeTagged_object hnone (by decide) (ofName?_name s) nofun rfl

theorem encode_injective : Function.Injective encode := fun s s' h =>
  Except.ok.inj (s.decode_encode.symm.trans ((congrArg decode h).trans s'.decode_encode))

end Signal

/-! ## Over a connection -/

theorem Subscriber.recv_frame (n : Notice) (client : Option ListenerId) (rest : List Reading) :
    recv ⟨.ok n.frame :: rest, client⟩ = (some (.ok n), ⟨rest, n.introduce client⟩) := by
  simp only [recv, recvFrom, Notice.frame, n.decode_encode]

theorem Connection.reports_frame (id : ListenerId) (s : Signal) (rest : List Reading) :
    reports id (.ok s.frame :: rest) =
      .signalled id s :: if s = .goodbye then [] else reports id rest := by
  cases s <;> simp [reports, Signal.frame, Signal.decode_encode]

/-- **Both ends of a connection agree.** Whatever its name or its statement, a notice that the
server writes is read by the subscriber as that notice, and a signal that the subscriber writes is
reported as that signal, whatever is read later. Different notices are written differently, as are
different signals, and no notice is written with a control character. -/
theorem Notice.ends_agree :
    (∀ (n : Notice) (client : Option ListenerId) (rest : List Reading),
      Subscriber.recv ⟨.ok n.frame :: rest, client⟩ =
        (some (.ok n), ⟨rest, n.introduce client⟩)) ∧
    (∀ (id : ListenerId) (s : Signal) (rest : List Reading),
      Connection.reports id (.ok s.frame :: rest) =
        .signalled id s :: if s = .goodbye then [] else Connection.reports id rest) ∧
    Function.Injective Notice.encode ∧ Function.Injective Signal.encode ∧
    ∀ (n : Notice), ∀ c ∈ n.encode, 0x20 ≤ c.toNat :=
  ⟨Subscriber.recv_frame, Connection.reports_frame, Notice.encode_injective,
    Signal.encode_injective, fun _ _ => Notice.not_control_of_mem_encode⟩

end Livecode
