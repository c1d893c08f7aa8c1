import InterchainCommunication.NodeModel

set_option autoImplicit false

namespace InterchainCommunication.NodeText
open StringText CoreTypes PacketCodec BlockchainModel QueueAndBus NodeModel

theorem deserializeNodeMessage_eq (s : Bytes) : deserializeNodeMessage s =
    match cut pipe s with
    | none => .error (.runtimeError (lit "Malformed NodeMessage"))
    | some (addr, afterAddr) =>
      match cut pipe afterAddr with
      | none => .error (.runtimeError (lit "Malformed NodeMessage"))
      | some (kind, body) => do
        let value ← stoi kind
        return ⟨addr, .ofInt value, body⟩ := by
  unfold deserializeNodeMessage
  cases h1 : cut pipe s with
  | none =>
    have f1 : find s pipe 0 = none := find_of_cut_none h1
    rw [f1]
  | some m1 =>
    obtain ⟨addr, s1⟩ := m1
    obtain ⟨f1, t1, d1⟩ := @find_of_cut s addr s1 pipe 0 h1
    simp only [Nat.zero_add] at f1 d1
    dsimp only
    rw [← d1]
    cases h2 : cut pipe (s.drop (addr.length + 1)) with
    | none => simp [f1, after, find_of_cut_none h2]
    | some m2 =>
      obtain ⟨kind, body⟩ := m2
      obtain ⟨f2, t2, d2⟩ := find_of_cut h2
      have width : addr.length + 1 + kind.length - addr.length - 1 = kind.length := by omega
      simp only [f1, after, f2, width, t1, t2, d2]

/-- The four leading fields of a transaction body and what follows them. -/
def cutTransaction (bytes : Bytes) : Option (Bytes × Bytes × Bytes × Bytes × Bytes) := do
  let (sender, s1) ← cut pipe bytes
  let (recipient, s2) ← cut pipe s1
  let (payload, s3) ← cut pipe s2
  let (type, txId) ← cut pipe s3
  return (sender, recipient, payload, type, txId)

theorem cutTransaction_eq_some {bytes sender recipient payload type txId : Bytes} :
    cutTransaction bytes = some (sender, recipient, payload, type, txId) ↔
      bytes = sender ++ pipe :: (recipient ++ pipe :: (payload ++ pipe :: (type ++ pipe :: txId))) ∧
        pipe ∉ sender ∧ pipe ∉ recipient ∧ pipe ∉ payload ∧ pipe ∉ type := by
  simp only [cutTransaction, Option.bind_eq_bind, Option.bind_eq_some_iff, Option.pure_def,
    Option.some.injEq, Prod.exists, Prod.mk.injEq, cut_eq_some]
  constructor
  · rintro ⟨_, s1, ⟨h1, n1⟩, _, s2, ⟨h2, n2⟩, _, s3, ⟨h3, n3⟩, _, _, ⟨h4, n4⟩, rfl, rfl, rfl, rfl, rfl⟩
    exact ⟨by rw [h1, h2, h3, h4], n1, n2, n3, n4⟩
  · rintro ⟨h, n1, n2, n3, n4⟩
    exact ⟨_, _, ⟨h, n1⟩, _, _, ⟨rfl, n2⟩, _, _, ⟨rfl, n3⟩, _, _, ⟨rfl, n4⟩, rfl, rfl, rfl, rfl, rfl⟩

theorem handleTransaction_eq (opens : Bool) (nodeId : Bytes) (b : Blockchain) (bytes : Bytes) :
    handleTransaction opens nodeId b bytes =
      match cutTransaction bytes with
      | none => .still b [.log .warn (lit "Malformed tx message")]
      | some (sender, recipient, payload, type, txId) =>
        match stoi type with
        | .error e => .throws b e
        | .ok value =>
          (Handled.ofCall b (.addTransaction ⟨sender, recipient, payload, .ofInt value, txId⟩) []
            fun _ => [.incCounter (lit "tx_received"),
              .log .debug (lit "Node " ++ nodeId ++ lit " received tx from " ++ sender)]).snapshot opens nodeId := by
  unfold handleTransaction
  cases h1 : cut pipe bytes with
  | none =>
    have f1 : find bytes pipe 0 = none := find_of_cut_none h1
    simp [f1, cutTransaction, h1]
  | some m1 =>
    obtain ⟨sender, s1⟩ := m1
    obtain ⟨f1, t1, d1⟩ := @find_of_cut bytes sender s1 pipe 0 h1
    simp only [Nat.zero_add] at f1 d1
    rw [← d1] at h1
    cases h2 : cut pipe (bytes.drop (sender.length + 1)) with
    | none => simp [f1, after, find_of_cut_none h2, cutTransaction, h1, h2]
    | some m2 =>
      obtain ⟨recipient, s2⟩ := m2
      obtain ⟨f2, t2, d2⟩ := find_of_cut h2
      rw [← d2] at h2
      cases h3 : cut pipe (bytes.drop (sender.length + 1 + recipient.length + 1)) with
      | none => simp [f1, after, f2, find_of_cut_none h3, cutTransaction, h1, h2, h3]
      | some m3 =>
        obtain ⟨payload, s3⟩ := m3
        obtain ⟨f3, t3, d3⟩ := find_of_cut h3
        rw [← d3] at h3
        cases h4 : cut pipe (bytes.drop (sender.length + 1 + recipient.length + 1 + payload.length + 1)) with
        | none => simp [f1, after, f2, f3, find_of_cut_none h4, cutTransaction, h1, h2, h3, h4]
        | some m4 =>
          obtain ⟨type, txId⟩ := m4
          obtain ⟨f4, t4, d4⟩ := find_of_cut h4
          have fields : cutTransaction bytes = some (sender, recipient, payload, type, txId) := by
            simp [cutTransaction, h1, h2, h3, h4]
          have w2 : sender.length + 1 + recipient.length - sender.length - 1 = recipient.length := by omega
          have w3 : sender.length + 1 + recipient.length + 1 + payload.length -
              (sender.length + 1 + recipient.length) - 1 = payload.length := by omega
          have w4 : sender.length + 1 + recipient.length + 1 + payload.length + 1 + type.length -
              (sender.length + 1 + recipient.length + 1 + payload.length) - 1 = type.length := by omega
          cases read : stoi type <;>
            simp [fields, f1, after, f2, f3, f4, w2, w3, w4, t1, t2, t3, t4, d4, read]

theorem pipe_notMem_intText (z : ℤ) : pipe ∉ intText z := by
  have digits (n : ℕ) : pipe ∉ decimal n := fun h =>
    absurd (isDigit_toNat (decimal_isDigit h)).2 (by decide)
  unfold intText
  split
  · rw [List.mem_cons, not_or]
    exact ⟨by decide, digits _⟩
  · exact digits _

theorem deserialize_serialize_message {msg : NodeMessage} (plain : pipe ∉ msg.fromAddress)
    (h : stoi (intText msg.kind.toInt) = .ok msg.kind.toInt) :
    deserializeNodeMessage (serializeNodeMessage msg) = .ok msg := by
  have first : cut pipe (serializeNodeMessage msg) =
      some (msg.fromAddress, intText msg.kind.toInt ++ pipe :: msg.bytes) := by
    rw [cut_eq_some]
    exact ⟨by simp [serializeNodeMessage], plain⟩
  have second : cut pipe (intText msg.kind.toInt ++ pipe :: msg.bytes) =
      some (intText msg.kind.toInt, msg.bytes) := by
    rw [cut_eq_some]
    exact ⟨rfl, pipe_notMem_intText _⟩
  simp only [deserializeNodeMessage_eq, first, second, h]
  change Except.ok { msg with kind := .ofInt msg.kind.toInt } = Except.ok msg
  rw [NodeMessageKind.ofInt_toInt]

end InterchainCommunication.NodeText
