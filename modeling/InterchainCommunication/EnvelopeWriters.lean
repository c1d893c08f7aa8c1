import InterchainCommunication.RelayerModel
import InterchainCommunication.NodeText
import InterchainCommunication.StringStream

set_option autoImplicit false

namespace InterchainCommunication.EnvelopeWriters
open StringText StringStream CoreTypes PacketCodec NodeModel NodeText RelayerModel

def node_serializeNodeMessage (msg : NodeMessage) : Bytes :=
  let oss := OStringStream.new
  let oss := oss.put msg.fromAddress
  let oss := oss.put (lit "|")
  let oss := oss.putInt msg.kind.toInt
  let oss := oss.put (lit "|")
  let oss := oss.put msg.bytes
  oss.str

def relayPacket_serializeNodeMessage (m : NodeMessage) : Bytes :=
  let oss := OStringStream.new
  let oss := oss.put m.fromAddress
  let oss := oss.put (lit "|")
  let oss := oss.putInt m.kind.toInt
  let oss := oss.put (lit "|")
  let oss := oss.put m.bytes
  oss.str

def relayAck_serializeNodeMessage (m : NodeMessage) : Bytes :=
  let oss := OStringStream.new
  let oss := oss.put m.fromAddress
  let oss := oss.put (lit "|")
  let oss := oss.putInt m.kind.toInt
  let oss := oss.put (lit "|")
  let oss := oss.put m.bytes
  oss.str

theorem node_serializeNodeMessage_eq (msg : NodeMessage) :
    node_serializeNodeMessage msg = serializeNodeMessage msg := by
  have bar : lit "|" = [pipe] := rfl
  simp [node_serializeNodeMessage, serializeNodeMessage, bar]

theorem relayPacket_serializeNodeMessage_eq (m : NodeMessage) :
    relayPacket_serializeNodeMessage m = serializeNodeMessage m :=
  node_serializeNodeMessage_eq m

theorem relayAck_serializeNodeMessage_eq (m : NodeMessage) :
    relayAck_serializeNodeMessage m = serializeNodeMessage m :=
  node_serializeNodeMessage_eq m

/-- A kind an `int` holds, which a named one is. -/
def IntKind (k : NodeMessageKind) : Prop := -2 ^ 31 ≤ k.toInt ∧ k.toInt < 2 ^ 31

theorem intKind_named {k : NodeMessageKind} (h : k = .block ∨ k = .transaction ∨ k = .ibc ∨ k = .unknown) :
    IntKind k := by
  rcases h with rfl | rfl | rfl | rfl
  · exact ⟨by decide, by decide⟩
  · exact ⟨by decide, by decide⟩
  · exact ⟨by decide, by decide⟩
  · exact ⟨by decide, by decide⟩

/-- A second pipe is looked for behind the first one, or from the front again when there is none. -/
theorem deserialize_malformed {s : Bytes} (few : s.count pipe < 2) :
    deserializeNodeMessage s = .error (.runtimeError (lit "Malformed NodeMessage")) := by
  rw [deserializeNodeMessage_eq]
  cases first : cut pipe s with
  | none => rfl
  | some m =>
    obtain ⟨addr, afterAddr⟩ := m
    dsimp only
    cases second : cut pipe afterAddr with
    | none => rfl
    | some n =>
      obtain ⟨kind, body⟩ := n
      obtain ⟨text, -⟩ := cut_eq_some.mp first
      obtain ⟨tail, -⟩ := cut_eq_some.mp second
      have two : s.count pipe = addr.count pipe + (kind.count pipe + (body.count pipe + 1) + 1) := by
        rw [text, tail]
        simp only [List.count_append, List.count_cons_self]
      omega

/-- One text from the three writers, which the reader takes apart again, and no message from fewer
    than two pipes. The body may hold pipes and may be empty. -/
theorem envelope_round_trip (msg : NodeMessage) (plain : pipe ∉ msg.fromAddress) (kind : IntKind msg.kind) :
    (relayPacket_serializeNodeMessage msg = node_serializeNodeMessage msg ∧
      relayAck_serializeNodeMessage msg = node_serializeNodeMessage msg ∧
      deserializeNodeMessage (node_serializeNodeMessage msg) = .ok msg) ∧
    ∀ s : Bytes, s.count pipe < 2 →
      deserializeNodeMessage s = .error (.runtimeError (lit "Malformed NodeMessage")) := by
  refine ⟨⟨?_, ?_, ?_⟩, fun s few => deserialize_malformed few⟩
  · rw [relayPacket_serializeNodeMessage_eq, node_serializeNodeMessage_eq]
  · rw [relayAck_serializeNodeMessage_eq, node_serializeNodeMessage_eq]
  · rw [node_serializeNodeMessage_eq]
    exact deserialize_serialize_message plain (stoi_intText kind.1 kind.2)

theorem envelope_round_trip_pipes :
    deserializeNodeMessage (node_serializeNodeMessage ⟨lit "A:node-0", .unknown, lit "|2||"⟩) =
        .ok ⟨lit "A:node-0", .unknown, lit "|2||"⟩ ∧
      deserializeNodeMessage (lit "A|3") = .error (.runtimeError (lit "Malformed NodeMessage")) :=
  have both := envelope_round_trip ⟨lit "A:node-0", .unknown, lit "|2||"⟩ (by decide)
    (intKind_named (.inr (.inr (.inr rfl))))
  ⟨both.1.2.2, both.2 (lit "A|3") (by decide)⟩

end InterchainCommunication.EnvelopeWriters
