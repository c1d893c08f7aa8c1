import InterchainCommunication.BlockchainSteps

set_option autoImplicit false

namespace InterchainCommunication.ChainHistory
open StringText CoreTypes MachineRuns PacketCodec ChannelSequencing BlockchainModel BlockchainSteps

def sentPacket : ChainOp × ChainReply → Option IBCPacket
  | (.sendIBC _ _ _ _ _ _, .packet r) => r.value
  | _ => none

def acceptedPacket : ChainOp × ChainReply → Option IBCPacket
  | (.onIBCPacket pkt, .status s) => if s.ok then some pkt else none
  | _ => none

def processedAck : ChainOp × ChainReply → Option IBCPacket
  | (.onIBCAck ack, .status s) => if s.ok then some ack else none
  | _ => none

def sendEvent (chainId : Bytes) (pkt : IBCPacket) : Event :=
  ⟨.ibcPacketSend, chainId, [], serializeIBCPacket pkt⟩

def recvEvent (chainId : Bytes) : Event := ⟨.ibcPacketRecv, chainId, [], lit "IBC packet received"⟩

def ackEvent (chainId : Bytes) (pkt : IBCPacket) : Event :=
  ⟨.ibcAckSend, chainId, [], serializeIBCPacket (ackOf pkt)⟩

/-- The packet events of a call, from the call and its reply alone. -/
def packetEvents (chainId : Bytes) (e : ChainOp × ChainReply) : List Event :=
  (sentPacket e).toList.map (sendEvent chainId) ++
    (acceptedPacket e).toList.flatMap fun pkt => [recvEvent chainId, ackEvent chainId pkt]

def relayed (e : Event) : Bool := e.kind == .ibcPacketSend || e.kind == .ibcAckSend

theorem sentPacket_sendIBC {b : Blockchain} (h : AllOpen b) (port : PortId) (chan : ChannelId)
    (dstChain : Bytes) (dstPort : PortId) (dstChan : ChannelId) (payload : Bytes) :
    sentPacket (.sendIBC port chan dstChain dstPort dstChan payload,
        (b.call (.sendIBC port chan dstChain dstPort dstChan payload)).ret) =
      some ((resolve b port chan).packet dstChain dstPort dstChan payload) := by
  change (b.sendIBC port chan dstChain dstPort dstChan payload).ret.value = _
  rw [sendIBC_eq h]

theorem acceptedPacket_onIBCPacket {b : Blockchain} (h : AllOpen b) (pkt : IBCPacket) :
    acceptedPacket (.onIBCPacket pkt, (b.call (.onIBCPacket pkt)).ret) =
      if pkt.sequence = (resolve b pkt.dstPort pkt.dstChannel).nextSeq then some pkt else none := by
  change (if (b.onIBCPacket pkt).ret.ok = true then some pkt else none) = _
  simp only [onIBCPacket_ok h]

theorem acceptedPacket_op {op : ChainOp} {reply : ChainReply} {pkt : IBCPacket}
    (accepted : acceptedPacket (op, reply) = some pkt) : op = .onIBCPacket pkt := by
  unfold acceptedPacket at accepted
  split at accepted
  · rename_i pkt' s same
    obtain ⟨rfl, rfl⟩ := Prod.mk.inj same
    split at accepted
    · rw [Option.some.inj accepted]
    · cases accepted
  · cases accepted

theorem processedAck_op {op : ChainOp} {reply : ChainReply} {ack : IBCPacket}
    (processed : processedAck (op, reply) = some ack) : op = .onIBCAck ack := by
  unfold processedAck at processed
  split at processed
  · rename_i ack' s same
    obtain ⟨rfl, rfl⟩ := Prod.mk.inj same
    split at processed
    · rw [Option.some.inj processed]
    · cases processed
  · cases processed

/-- Apart from received acks and appended blocks, a call publishes its packet events. -/
theorem call_published {b : Blockchain} (h : AllOpen b) (op : ChainOp) :
    (published (b.call op).effects).filter relayed =
      (packetEvents b.chainId (op, (b.call op).ret)).filter relayed := by
  cases op with
  | openChannel port chan =>
    change (published (b.openChannel port chan).effects).filter relayed = []
    cases hb : b.router.isBound port chan with
    | true => rw [(openChannel_bound b hb).2.2]; rfl
    | false => rw [openChannel_unbound h hb]; simp
  | closeChannel port chan =>
    change (published (b.closeChannel port chan).effects).filter relayed = []
    unfold Blockchain.closeChannel
    dsimp only
    split <;> rfl
  | sendIBC port chan dstChain dstPort dstChan payload =>
    rw [packetEvents, sentPacket_sendIBC h]
    change (published (b.sendIBC port chan dstChain dstPort dstChan payload).effects).filter relayed = _
    rw [sendIBC_eq h]
    simp [acceptedPacket, sendEvent]
  | onIBCPacket pkt =>
    rw [packetEvents, acceptedPacket_onIBCPacket h]
    change (published (b.onIBCPacket pkt).effects).filter relayed = _
    by_cases hs : pkt.sequence = (resolve b pkt.dstPort pkt.dstChannel).nextSeq
    · rw [onIBCPacket_accept h hs, if_pos hs]
      simp [sentPacket, recvEvent, ackEvent]
    · rw [onIBCPacket_reject h hs, if_neg hs]
      simp [sentPacket]
  | onIBCAck ack => rfl
  | appendBlock blk =>
    change (published (b.appendBlock blk).effects).filter relayed = []
    unfold Blockchain.appendBlock
    split <;> rfl
  | registerNodeId nodeId =>
    change (published (b.registerNodeId nodeId).effects).filter relayed = []
    unfold Blockchain.registerNodeId
    split <;> rfl
  | addTransaction | drain => rfl

def isReceived (counter : Bytes) : Bool :=
  counter == lit "ibc_packets_received" || counter == lit "ibc_acks_received"

def receivedCounters (effects : List Effect) : List Bytes := (counted effects).filter isReceived

@[simp] theorem receivedCounters_append (xs ys : List Effect) :
    receivedCounters (xs ++ ys) = receivedCounters xs ++ receivedCounters ys := by
  simp [receivedCounters]

def callCounters (e : ChainOp × ChainReply) : List Bytes :=
  (acceptedPacket e).toList.map (fun _ => lit "ibc_packets_received") ++
    (processedAck e).toList.map fun _ => lit "ibc_acks_received"

theorem call_counters {b : Blockchain} (h : AllOpen b) (op : ChainOp) :
    receivedCounters (b.call op).effects = callCounters (op, (b.call op).ret) := by
  cases op with
  | openChannel port chan =>
    change receivedCounters (b.openChannel port chan).effects = []
    unfold Blockchain.openChannel
    dsimp only
    split
    · rfl
    · split <;> simp [receivedCounters]
  | closeChannel port chan =>
    change receivedCounters (b.closeChannel port chan).effects = []
    unfold Blockchain.closeChannel
    dsimp only
    split <;> rfl
  | sendIBC port chan dstChain dstPort dstChan payload =>
    change receivedCounters (b.sendIBC port chan dstChain dstPort dstChan payload).effects = []
    rw [sendIBC_eq h]
    have sent : isReceived (lit "ibc_packets_sent") = false := by decide
    simp [receivedCounters, sent]
  | onIBCPacket pkt =>
    rw [callCounters, acceptedPacket_onIBCPacket h]
    change receivedCounters (b.onIBCPacket pkt).effects = _
    by_cases hs : pkt.sequence = (resolve b pkt.dstPort pkt.dstChannel).nextSeq
    · rw [onIBCPacket_accept h hs, if_pos hs]
      have counts : isReceived (lit "ibc_packets_received") = true := by decide
      simp [receivedCounters, counts, processedAck]
    · rw [onIBCPacket_reject h hs, if_neg hs]
      simp [receivedCounters, processedAck]
  | onIBCAck ack => rfl
  | appendBlock blk =>
    change receivedCounters (b.appendBlock blk).effects = []
    unfold Blockchain.appendBlock
    split <;> rfl
  | registerNodeId nodeId =>
    change receivedCounters (b.registerNodeId nodeId).effects = []
    unfold Blockchain.registerNodeId
    split <;> rfl
  | addTransaction | drain => rfl

def callsOf (t : List (ChainOp × ChainReply × List Effect)) : List (ChainOp × ChainReply) :=
  t.map fun e => (e.1, e.2.1)

def acceptedPackets (t : List (ChainOp × ChainReply × List Effect)) : List IBCPacket :=
  (callsOf t).filterMap acceptedPacket

def isAckSend (e : Event) : Bool := e.kind == .ibcAckSend

def ackEvents (t : List (ChainOp × ChainReply × List Effect)) : List Event :=
  t.flatMap fun e => (published e.2.2).filter isAckSend

theorem ackEvents_call {b : Blockchain} (h : AllOpen b) (op : ChainOp) :
    (published (b.call op).effects).filter isAckSend =
      (acceptedPacket (op, (b.call op).ret)).toList.map (ackEvent b.chainId) := by
  have acks (es : List Event) : es.filter isAckSend = (es.filter relayed).filter isAckSend := by
    rw [List.filter_filter]
    congr 1
    funext e
    unfold isAckSend relayed
    cases e.kind <;> rfl
  rw [acks, call_published h, ← acks, packetEvents, List.filter_append]
  cases sentPacket (op, (b.call op).ret) <;> cases acceptedPacket (op, (b.call op).ret) <;> rfl

theorem ackEvents_trace {b : Blockchain} (h : AllOpen b) (ops : List ChainOp) :
    ackEvents (chainMachine.trace b ops) =
      (acceptedPackets (chainMachine.trace b ops)).map (ackEvent b.chainId) := by
  induction ops generalizing b with
  | nil => rfl
  | cons op ops ih =>
    have rest := ih (call_allOpen h op)
    rw [call_chainId] at rest
    have calls : callsOf (chainMachine.trace b (op :: ops)) =
        (op, (b.call op).ret) :: callsOf (chainMachine.trace (b.call op).chain ops) := rfl
    have events : ackEvents (chainMachine.trace b (op :: ops)) =
        (published (b.call op).effects).filter isAckSend ++
          ackEvents (chainMachine.trace (b.call op).chain ops) := rfl
    rw [events, ackEvents_call h, rest, acceptedPackets, acceptedPackets, calls]
    cases accepted : acceptedPacket (op, (b.call op).ret) with
    | none => rw [List.filterMap_cons_none accepted]; rfl
    | some pkt => rw [List.filterMap_cons_some accepted]; rfl

end InterchainCommunication.ChainHistory
