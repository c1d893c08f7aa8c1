import InterchainCommunication.ComponentLife
import InterchainCommunication.RelayerModel

set_option autoImplicit false

namespace InterchainCommunication.Restarting
open StringText CoreTypes MachineRuns PacketCodec BlockchainModel QueueAndBus NodeModel RelayerModel ComponentLife

inductive RelayerPoint
  | idle
  | atTest
  | atPackets
  | atAcks
  | returned
  deriving DecidableEq

structure RelayerLife where
  relayer : Relayer
  transport : Transport
  running : Bool
  worker : RelayerPoint
  caller : Caller

inductive RelayerInput
  | owner (o : OwnerStep)
  | packetSend (e : Event)
  | ackSend (e : Event)
  | loop (drops : Drops)

def RelayerLife.owner (r : RelayerLife) (o : OwnerStep) : RelayerLife × Option LifeCall :=
  match r.caller, o with
  | .free, .start =>
    if r.running then (r, some (.start ⟨.invalidState, lit "Relayer already running"⟩))
    else ({ r with running := true, worker := .atTest }, some (.start ⟨.ok, []⟩))
  | .free, .stop =>
    if r.running then ({ r with running := false, caller := .closing }, some (.stop true))
    else (r, some (.stop false))
  | .closing, .close => ({ r with relayer := r.relayer.closePackets, caller := .closingAcks }, none)
  | .closingAcks, .close => ({ r with relayer := r.relayer.closeAcks, caller := .joining }, none)
  | .joining, .join =>
    if r.worker = .returned ∨ r.worker = .idle then ({ r with worker := .idle, caller := .free }, none)
    else (r, none)
  | _, _ => (r, none)

/-- One step of `runLoop`, whose body forwards a packet and then an ack. -/
def RelayerLife.loop (r : RelayerLife) (drops : Drops) : RelayerLife :=
  match r.worker with
  | .atTest => { r with worker := if r.running then .atPackets else .returned }
  | .atPackets =>
    let s := r.relayer.forwardPacket r.transport drops
    { r with relayer := s.1, transport := s.2.1, worker := .atAcks }
  | .atAcks =>
    let s := r.relayer.forwardAck r.transport drops
    { r with relayer := s.1, transport := s.2.1, worker := .atTest }
  | .idle | .returned => r

def relayerLife : Machine RelayerLife RelayerInput (Option LifeCall) where
  step r
    | .owner o => r.owner o
    | .packetSend e => ({ r with relayer := (r.relayer.onIBCPacketSendEvent e).1 }, none)
    | .ackSend e => ({ r with relayer := (r.relayer.onIBCAckSendEvent e).1 }, none)
    | .loop drops => (r.loop drops, none)

def relayerCalls (t : List (RelayerInput × Option LifeCall)) : List LifeCall := t.filterMap Prod.snd

def newRelayer (name : Bytes) (t : Transport) : RelayerLife := ⟨.new name, t, false, .idle, .free⟩

/-- A data packet is put into the one queue, an ack into the other. -/
def RelayerServes (r : RelayerLife) (pkt : IBCPacket) (e : Event) : Prop :=
  (pkt.type = .data → (relayerLife.step r (.packetSend e)).1.relayer.pendingPackets.q =
      r.relayer.pendingPackets.q ++ [pkt]) ∧
    (pkt.type = .ack → (relayerLife.step r (.ackSend e)).1.relayer.pendingAcks.q =
      r.relayer.pendingAcks.q ++ [pkt])

/-- Both queues are closed by the same `stop`, the packets first. -/
structure RelayerLives (r : RelayerLife) (calls : List LifeCall) : Prop where
  packets : Steady r.running r.caller r.relayer.pendingPackets.closed calls
  acks : Steady r.running r.caller r.relayer.pendingAcks.closed calls
  between : r.caller = .closingAcks → r.relayer.pendingPackets.closed = true

theorem relayer_owner_lives {r : RelayerLife} {calls : List LifeCall} (h : RelayerLives r calls) (o : OwnerStep) :
    RelayerLives (r.owner o).1 (calls ++ (r.owner o).2.toList) := by
  obtain ⟨relayer, transport, running, worker, caller⟩ := r
  obtain ⟨packets, acks, between⟩ := h
  dsimp only at packets acks between
  have still : Caller.closingAcks ≠ .free ∧ Caller.joining ≠ .free := by decide
  unfold RelayerLife.owner
  split
  · rename_i free
    obtain rfl : caller = .free := free
    cases running with
    | true => exact ⟨packets.refused _, acks.refused _, fun c => nomatch c⟩
    | false => exact ⟨packets.started, acks.started, fun c => nomatch c⟩
  · rename_i free
    obtain rfl : caller = .free := free
    cases running with
    | true => exact ⟨.stopped _ _, .stopped _ _, fun c => nomatch c⟩
    | false => exact ⟨packets.stillIdle, acks.stillIdle, fun c => nomatch c⟩
  · rename_i closing
    obtain rfl : caller = .closing := closing
    rw [Option.toList_none, List.append_nil]
    exact ⟨packets.within (by decide) still.1 fun _ => rfl, acks.within (by decide) still.1 (fun c => nomatch c),
      fun _ => rfl⟩
  · rename_i closing
    obtain rfl : caller = .closingAcks := closing
    rw [Option.toList_none, List.append_nil]
    exact ⟨packets.within (by decide) still.2 fun _ => between rfl, acks.within (by decide) still.2 fun _ => rfl,
      fun c => nomatch c⟩
  · rename_i joining
    obtain rfl : caller = .joining := joining
    split
    · rw [Option.toList_none, List.append_nil]
      exact ⟨packets.joined, acks.joined, fun c => nomatch c⟩
    · rw [Option.toList_none, List.append_nil]
      exact ⟨packets, acks, between⟩
  · rw [Option.toList_none, List.append_nil]
    exact ⟨packets, acks, between⟩

theorem forward_closed (r : Relayer) (t : Transport) (drops : Drops) :
    ((r.forwardPacket t drops).1.pendingPackets.closed = r.pendingPackets.closed ∧
      (r.forwardPacket t drops).1.pendingAcks.closed = r.pendingAcks.closed) ∧
    (r.forwardAck t drops).1.pendingPackets.closed = r.pendingPackets.closed ∧
      (r.forwardAck t drops).1.pendingAcks.closed = r.pendingAcks.closed := by
  constructor
  · rcases r.forwardPacket_cases t drops with ⟨-, still⟩ | ⟨_, _, _, _, _, _, -, -, moved⟩
    · rw [still]
      exact ⟨rfl, rfl⟩
    · rw [moved]
      exact ⟨rfl, rfl⟩
  · rcases r.forwardAck_cases t drops with ⟨-, still⟩ | ⟨_, _, _, _, _, _, -, -, moved⟩
    · rw [still]
      exact ⟨rfl, rfl⟩
    · rw [moved]
      exact ⟨rfl, rfl⟩

theorem event_closed (r : Relayer) (e : Event) :
    ((r.onIBCPacketSendEvent e).1.pendingPackets.closed = r.pendingPackets.closed ∧
      (r.onIBCPacketSendEvent e).1.pendingAcks.closed = r.pendingAcks.closed) ∧
    (r.onIBCAckSendEvent e).1.pendingPackets.closed = r.pendingPackets.closed ∧
      (r.onIBCAckSendEvent e).1.pendingAcks.closed = r.pendingAcks.closed := by
  obtain ⟨items, packets⟩ := r.onIBCPacketSendEvent_adds e
  obtain ⟨items', acks⟩ := r.onIBCAckSendEvent_adds e
  rw [packets, acks]
  exact ⟨⟨rfl, rfl⟩, rfl, rfl⟩

theorem RelayerLives.keep {r r' : RelayerLife} {calls : List LifeCall} (h : RelayerLives r calls)
    (running : r'.running = r.running) (caller : r'.caller = r.caller)
    (packets : r'.relayer.pendingPackets.closed = r.relayer.pendingPackets.closed)
    (acks : r'.relayer.pendingAcks.closed = r.relayer.pendingAcks.closed) : RelayerLives r' calls := by
  constructor
  · rw [running, caller, packets]
    exact h.packets
  · rw [running, caller, acks]
    exact h.acks
  · rw [caller, packets]
    exact h.between

theorem relayer_lives_step {r : RelayerLife} {calls : List LifeCall} (h : RelayerLives r calls) (i : RelayerInput) :
    RelayerLives (relayerLife.step r i).1 (calls ++ (relayerLife.step r i).2.toList) := by
  cases i with
  | owner o => exact relayer_owner_lives h o
  | packetSend e =>
    rw [show calls ++ (relayerLife.step r (.packetSend e)).2.toList = calls from List.append_nil calls]
    obtain ⟨⟨packets, acks⟩, -⟩ := event_closed r.relayer e
    exact h.keep rfl rfl packets acks
  | ackSend e =>
    rw [show calls ++ (relayerLife.step r (.ackSend e)).2.toList = calls from List.append_nil calls]
    obtain ⟨-, packets, acks⟩ := event_closed r.relayer e
    exact h.keep rfl rfl packets acks
  | loop drops =>
    rw [show calls ++ (relayerLife.step r (.loop drops)).2.toList = calls from List.append_nil calls]
    change RelayerLives (r.loop drops) calls
    obtain ⟨⟨packets, acks⟩, packets', acks'⟩ := forward_closed r.relayer r.transport drops
    unfold RelayerLife.loop
    split
    · exact h.keep rfl rfl rfl rfl
    · exact h.keep rfl rfl packets acks
    · exact h.keep rfl rfl packets' acks'
    · exact h
    · exact h

theorem relayer_lives_final (name : Bytes) (t : Transport) (is : List RelayerInput) :
    RelayerLives (relayerLife.final (newRelayer name t) is)
      (relayerCalls (relayerLife.trace (newRelayer name t) is)) := by
  refine relayerLife.history_invariant (I := fun r h => RelayerLives r (relayerCalls h)) is ?_ fun r h i _ lives => ?_
  · exact ⟨.new, .new, fun c => nomatch c⟩
  · rw [relayerCalls, filterMap_concat]
    exact relayer_lives_step lives i

theorem relayerServes_iff {name : Bytes} {t : Transport} {before : List RelayerInput} {e : Event} {pkt : IBCPacket}
    (read : deserializeIBCPacket e.detail = .ok pkt) (known : pkt.type = .data ∨ pkt.type = .ack)
    (up : live (relayerCalls (relayerLife.trace (newRelayer name t) before)) = true) :
    RelayerServes (relayerLife.final (newRelayer name t) before) pkt e ↔
      stoppedBefore (relayerCalls (relayerLife.trace (newRelayer name t) before)) = false := by
  have lives := relayer_lives_final name t before
  generalize relayerLife.final (newRelayer name t) before = r at *
  generalize relayerCalls (relayerLife.trace (newRelayer name t) before) = calls at *
  have packets := lives.packets.closed_of_live up
  have acks := lives.acks.closed_of_live up
  have packet (data : pkt.type = .data) : (relayerLife.step r (.packetSend e)).1.relayer.pendingPackets.q =
      r.relayer.pendingPackets.q ++ [pkt] ↔ stoppedBefore calls = false := by
    change (r.relayer.onIBCPacketSendEvent e).1.pendingPackets.q = _ ↔ _
    rw [← packets]
    simp only [Relayer.onIBCPacketSendEvent, read, data, if_true]
    cases closed : r.relayer.pendingPackets.closed <;> simp [ConcurrentQueue.push, closed]
  have ack (acked : pkt.type = .ack) : (relayerLife.step r (.ackSend e)).1.relayer.pendingAcks.q =
      r.relayer.pendingAcks.q ++ [pkt] ↔ stoppedBefore calls = false := by
    change (r.relayer.onIBCAckSendEvent e).1.pendingAcks.q = _ ↔ _
    rw [← acks]
    simp only [Relayer.onIBCAckSendEvent, read, acked, if_true]
    cases closed : r.relayer.pendingAcks.closed <;> simp [ConcurrentQueue.push, closed]
  constructor
  · rintro ⟨first, second⟩
    rcases known with data | acked
    · exact (packet data).mp (first data)
    · exact (ack acked).mp (second acked)
  · intro fresh
    exact ⟨fun data => (packet data).mpr fresh, fun acked => (ack acked).mpr fresh⟩

/-- Nodes and relayers serve what comes in exactly until a `stop` first finds them running. -/
theorem serves_iff_never_stopped (opens : Bytes → Bool) (nodeId address : Bytes) (b : Blockchain) (name : Bytes)
    (t : Transport) :
    (∀ (before : List NodeInput) (bs : Bytes) (msg : NodeMessage), deserializeNodeMessage bs = .ok msg →
      live (nodeCalls (nodeLife.trace (newNode opens nodeId address b) before)) = true →
      (∀ e, (nodeLife.final (newNode opens nodeId address b) before).node.worker ≠ .terminated e) →
      (NodeServes (nodeLife.final (newNode opens nodeId address b) before) bs msg ↔
        stoppedBefore (nodeCalls (nodeLife.trace (newNode opens nodeId address b) before)) = false)) ∧
    ∀ (before : List RelayerInput) (e : Event) (pkt : IBCPacket), deserializeIBCPacket e.detail = .ok pkt →
      (pkt.type = .data ∨ pkt.type = .ack) →
      live (relayerCalls (relayerLife.trace (newRelayer name t) before)) = true →
      (RelayerServes (relayerLife.final (newRelayer name t) before) pkt e ↔
        stoppedBefore (relayerCalls (relayerLife.trace (newRelayer name t) before)) = false) :=
  ⟨fun _ _ _ read up alive => nodeServes_iff read up alive, fun _ _ _ read known up => relayerServes_iff read known up⟩

theorem restarted_node_is_deaf : ¬ ∀ (opens : Bytes → Bool) (nodeId address : Bytes) (b : Blockchain)
    (before : List NodeInput) (bs : Bytes) (msg : NodeMessage), deserializeNodeMessage bs = .ok msg →
      live (nodeCalls (nodeLife.trace (newNode opens nodeId address b) before)) = true →
      (∀ e, (nodeLife.final (newNode opens nodeId address b) before).node.worker ≠ .terminated e) →
      NodeServes (nodeLife.final (newNode opens nodeId address b) before) bs msg := by
  intro h
  have serves := h (fun _ => true) (lit "node-0") (lit "A:node-0") (.new (lit "A"))
    [.owner .start, .owner .stop, .owner .close, .loop, .owner .join, .owner .start] (lit "x|3|y")
    ⟨lit "x", .unknown, lit "y"⟩ (by decide) (by decide) (by intro e dead; cases dead)
  exact absurd serves.1 (by decide)

end InterchainCommunication.Restarting
