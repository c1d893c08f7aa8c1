import InterchainCommunication.NodeModel

set_option autoImplicit false

namespace InterchainCommunication.RelayerModel
open StringText CoreTypes PacketCodec BlockchainModel QueueAndBus NodeModel

/-- An endpoint is the number of the node whose `onBytes` it delivers to. A task is
    an address with the bytes for it. -/
structure Transport where
  endpoints : Bytes → Option ℕ
  tasks : List (Bytes × Bytes)

namespace Transport

def new : Transport := ⟨fun _ => none, []⟩

def registerEndpoint (t : Transport) (address : Bytes) (node : ℕ) : Transport × Status :=
  if (t.endpoints address).isSome then (t, ⟨.invalidState, lit "Endpoint already registered"⟩)
  else ({ t with endpoints := Function.update t.endpoints address (some node) }, ⟨.ok, []⟩)

def send (t : Transport) («to» data : Bytes) (drop : Bool) : Transport × Status :=
  if (t.endpoints «to»).isNone then (t, ⟨.notFound, lit "Destination endpoint not found"⟩)
  else if drop then (t, ⟨.networkDrop, lit "Packet dropped by network"⟩)
  else ({ t with tasks := t.tasks ++ [(«to», data)] }, ⟨.ok, []⟩)

end Transport

structure Relayer where
  name : Bytes
  chainAddr : Bytes → Option Bytes
  pendingPackets : ConcurrentQueue IBCPacket
  pendingAcks : ConcurrentQueue IBCPacket
  packetsRelayed : UInt64
  acksRelayed : UInt64
  failures : UInt64

/-- Where the coin flips of one forward fall: on the relayer's route, or in the transport. -/
structure Drops where
  onRoute : Bool
  inTransport : Bool
  deriving DecidableEq

namespace Relayer

def new (name : Bytes) : Relayer := ⟨name, fun _ => none, .new, .new, 0, 0, 0⟩

def connectChainMailbox (r : Relayer) (chainId address : Bytes) : Relayer :=
  { r with chainAddr := Function.update r.chainAddr chainId (some address) }

/-- `relayPacket` and `relayAck` differ in the text of a drop on the route. -/
def relay (dropText : Bytes) (r : Relayer) (t : Transport) (pkt : IBCPacket) (drops : Drops) :
    Transport × Status :=
  match r.chainAddr pkt.dstChain with
  | none => (t, ⟨.notFound, lit "Destination chain not connected"⟩)
  | some toAddr =>
    if drops.onRoute then (t, ⟨.networkDrop, dropText⟩)
    else t.send toAddr (serializeNodeMessage ⟨r.name, .ibc, serializeIBCPacket pkt⟩) drops.inTransport

def relayPacket : Relayer → Transport → IBCPacket → Drops → Transport × Status :=
  relay (lit "Packet dropped on relayer route")

def relayAck : Relayer → Transport → IBCPacket → Drops → Transport × Status :=
  relay (lit "Ack dropped on relayer route")

def forwardEffects (noun counter : Bytes) (pkt : IBCPacket) (s : Status) : List Effect :=
  .log .info (lit "Relaying " ++ noun ++ lit " from " ++ pkt.srcChain ++ lit " to " ++ pkt.dstChain ++
      lit " (seq=" ++ decimal pkt.sequence.toNat ++ lit ")") ::
    if s.ok then
      [.incCounter (counter ++ lit "_relayed"),
        .log .debug (lit "Successfully relayed " ++ noun ++ lit " seq=" ++ decimal pkt.sequence.toNat)]
    else
      [.incCounter (counter ++ lit "_failed"), .log .warn (lit "Failed to relay " ++ noun ++ lit ": " ++ s.message)]

def forwardPacket (r : Relayer) (t : Transport) (drops : Drops) : Relayer × Transport × List Effect :=
  match r.pendingPackets.tryPop with
  | (_, none) => (r, t, [])
  | (queue, some pkt) =>
    let sent := r.relayPacket t pkt drops
    let r' := { r with pendingPackets := queue }
    (if sent.2.ok then { r' with packetsRelayed := r.packetsRelayed + 1 }
      else { r' with failures := r.failures + 1 },
      sent.1, forwardEffects (lit "packet") (lit "relayer_packets") pkt sent.2)

def forwardAck (r : Relayer) (t : Transport) (drops : Drops) : Relayer × Transport × List Effect :=
  match r.pendingAcks.tryPop with
  | (_, none) => (r, t, [])
  | (queue, some ack) =>
    let sent := r.relayAck t ack drops
    let r' := { r with pendingAcks := queue }
    (if sent.2.ok then { r' with acksRelayed := r.acksRelayed + 1 }
      else { r' with failures := r.failures + 1 },
      sent.1, forwardEffects (lit "ack") (lit "relayer_acks") ack sent.2)

/-- The task, if there is one, is the packet on its way to the mailbox of its destination. -/
def Posts (r : Relayer) (pkt : IBCPacket) (task : Option (Bytes × Bytes)) : Prop :=
  ∀ x, task = some x → r.chainAddr pkt.dstChain = some x.1 ∧
    x.2 = serializeNodeMessage ⟨r.name, .ibc, serializeIBCPacket pkt⟩

theorem relay_cases (dropText : Bytes) (r : Relayer) (t : Transport) (pkt : IBCPacket) (drops : Drops) :
    ∃ task, (r.relay dropText t pkt drops).1 = { t with tasks := t.tasks ++ task.toList } ∧ r.Posts pkt task := by
  have nothing : t = { t with tasks := t.tasks ++ (none : Option (Bytes × Bytes)).toList } := by simp
  unfold Relayer.relay
  cases addr : r.chainAddr pkt.dstChain with
  | none => exact ⟨none, nothing, by simp [Posts]⟩
  | some toAddr =>
    dsimp only
    split
    · exact ⟨none, nothing, by simp [Posts]⟩
    · unfold Transport.send
      split
      · exact ⟨none, nothing, by simp [Posts]⟩
      · split
        · exact ⟨none, nothing, by simp [Posts]⟩
        · exact ⟨some _, rfl, by simp [Posts, addr]⟩

/-- A half that finds an item takes it from its queue and counts the answer, whatever it is. -/
theorem forwardPacket_cases (r : Relayer) (t : Transport) (drops : Drops) :
    (r.pendingPackets.q = [] ∧ r.forwardPacket t drops = (r, t, [])) ∨
    ∃ pkt rest task relayed failures s, r.pendingPackets.q = pkt :: rest ∧ r.Posts pkt task ∧
      r.forwardPacket t drops =
        ({ r with
            pendingPackets := { r.pendingPackets with q := rest }
            packetsRelayed := relayed
            failures := failures },
          { t with tasks := t.tasks ++ task.toList },
          forwardEffects (lit "packet") (lit "relayer_packets") pkt s) := by
  unfold forwardPacket ConcurrentQueue.tryPop
  cases r.pendingPackets.q with
  | nil => exact .inl ⟨rfl, rfl⟩
  | cons pkt rest =>
    obtain ⟨task, sent, posted⟩ := relay_cases (lit "Packet dropped on relayer route") r t pkt drops
    dsimp only [relayPacket]
    rw [sent]
    split
    · exact .inr ⟨pkt, rest, task, _, _, _, rfl, posted, rfl⟩
    · exact .inr ⟨pkt, rest, task, _, _, _, rfl, posted, rfl⟩

theorem forwardAck_cases (r : Relayer) (t : Transport) (drops : Drops) :
    (r.pendingAcks.q = [] ∧ r.forwardAck t drops = (r, t, [])) ∨
    ∃ ack rest task relayed failures s, r.pendingAcks.q = ack :: rest ∧ r.Posts ack task ∧
      r.forwardAck t drops =
        ({ r with
            pendingAcks := { r.pendingAcks with q := rest }
            acksRelayed := relayed
            failures := failures },
          { t with tasks := t.tasks ++ task.toList },
          forwardEffects (lit "ack") (lit "relayer_acks") ack s) := by
  unfold forwardAck ConcurrentQueue.tryPop
  cases r.pendingAcks.q with
  | nil => exact .inl ⟨rfl, rfl⟩
  | cons ack rest =>
    obtain ⟨task, sent, posted⟩ := relay_cases (lit "Ack dropped on relayer route") r t ack drops
    dsimp only [relayAck]
    rw [sent]
    split
    · exact .inr ⟨ack, rest, task, _, _, _, rfl, posted, rfl⟩
    · exact .inr ⟨ack, rest, task, _, _, _, rfl, posted, rfl⟩

def queuedEffects (noun counter : Bytes) (pkt : IBCPacket) : List Effect :=
  [.log .debug (lit "Queued IBC " ++ noun ++ lit " from " ++ pkt.srcChain ++ lit " to " ++ pkt.dstChain ++
    lit " (seq=" ++ decimal pkt.sequence.toNat ++ lit ")"), .incCounter counter]

def failedEffects (type : Bytes) (e : StdException) : List Effect :=
  [.log .error (lit "Failed to deserialize " ++ type ++ lit ": " ++ e.what),
    .incCounter (lit "relayer_deserialization_errors")]

/-- The `catch` covers the decoder and the push. -/
def onIBCPacketSendEvent (r : Relayer) (e : Event) : Relayer × List Effect :=
  match deserializeIBCPacket e.detail with
  | .error x => (r, failedEffects (lit "IBCPacket") x)
  | .ok pkt =>
    if pkt.type = .data then
      match r.pendingPackets.push pkt with
      | .error x => (r, failedEffects (lit "IBCPacket") x)
      | .ok queue =>
        ({ r with pendingPackets := queue }, queuedEffects (lit "packet") (lit "relayer_packets_queued") pkt)
    else (r, [])

def onIBCAckSendEvent (r : Relayer) (e : Event) : Relayer × List Effect :=
  match deserializeIBCPacket e.detail with
  | .error x => (r, failedEffects (lit "IBCAck") x)
  | .ok ack =>
    if ack.type = .ack then
      match r.pendingAcks.push ack with
      | .error x => (r, failedEffects (lit "IBCAck") x)
      | .ok queue => ({ r with pendingAcks := queue }, queuedEffects (lit "ack") (lit "relayer_acks_queued") ack)
    else (r, [])

theorem onIBCPacketSendEvent_adds (r : Relayer) (e : Event) : ∃ items, (r.onIBCPacketSendEvent e).1 =
    { r with pendingPackets := { r.pendingPackets with q := r.pendingPackets.q ++ items } } := by
  have nothing : r = { r with pendingPackets := { r.pendingPackets with q := r.pendingPackets.q ++ [] } } := by
    rw [List.append_nil]
  unfold onIBCPacketSendEvent
  split
  · exact ⟨[], nothing⟩
  · rename_i pkt _
    split
    · split
      · exact ⟨[], nothing⟩
      · rename_i queue pushed
        exact ⟨[pkt], congrArg (fun queue => { r with pendingPackets := queue }) (ConcurrentQueue.push_adds pushed)⟩
    · exact ⟨[], nothing⟩

theorem onIBCAckSendEvent_adds (r : Relayer) (e : Event) : ∃ items, (r.onIBCAckSendEvent e).1 =
    { r with pendingAcks := { r.pendingAcks with q := r.pendingAcks.q ++ items } } := by
  have nothing : r = { r with pendingAcks := { r.pendingAcks with q := r.pendingAcks.q ++ [] } } := by
    rw [List.append_nil]
  unfold onIBCAckSendEvent
  split
  · exact ⟨[], nothing⟩
  · rename_i ack _
    split
    · split
      · exact ⟨[], nothing⟩
      · rename_i queue pushed
        exact ⟨[ack], congrArg (fun queue => { r with pendingAcks := queue }) (ConcurrentQueue.push_adds pushed)⟩
    · exact ⟨[], nothing⟩

def closePackets (r : Relayer) : Relayer := { r with pendingPackets := r.pendingPackets.close }

def closeAcks (r : Relayer) : Relayer := { r with pendingAcks := r.pendingAcks.close }

end Relayer
end InterchainCommunication.RelayerModel
