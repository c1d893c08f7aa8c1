import InterchainCommunication.ChainHistory
import InterchainCommunication.SimulationWiring

set_option autoImplicit false

namespace InterchainCommunication.EventDelivery
open ListUpdates StringText CoreTypes PacketCodec BlockchainModel BlockchainSteps ChainHistory
open QueueAndBus RelayerModel SimulationModel SimulationWiring

/-- What a relayer becomes when it hears an event of one of its kinds. -/
def hear (rel : Relayer) (e : Event) : Relayer :=
  match e.kind with
  | .ibcPacketSend => (rel.onIBCPacketSendEvent e).1
  | .ibcAckSend => (rel.onIBCAckSendEvent e).1
  | _ => rel

theorem react_packetSend (e : Event) (s : Sim × List Effect) (r : ℕ) : (Sim.react e s (.packetSend r)).1 =
    { s.1 with relayers := s.1.relayers.modify r fun rel => (rel.onIBCPacketSendEvent e).1 } := by
  cases hr : s.1.relayers[r]? with
  | none =>
    rw [modify_of_none hr]
    simp only [Sim.react, hr]
  | some rel =>
    rw [← set_eq_modify hr]
    simp only [Sim.react, hr]

theorem react_ackSend (e : Event) (s : Sim × List Effect) (r : ℕ) : (Sim.react e s (.ackSend r)).1 =
    { s.1 with relayers := s.1.relayers.modify r fun rel => (rel.onIBCAckSendEvent e).1 } := by
  cases hr : s.1.relayers[r]? with
  | none =>
    rw [modify_of_none hr]
    simp only [Sim.react, hr]
  | some rel =>
    rw [← set_eq_modify hr]
    simp only [Sim.react, hr]

theorem foldl_react {e : Event} {handler : ℕ → Handler} {f : Relayer → Relayer}
    (one : ∀ s r, (Sim.react e s (handler r)).1 = { s.1 with relayers := s.1.relayers.modify r f })
    (rs : List ℕ) (s : Sim × List Effect) : ((rs.map handler).foldl (Sim.react e) s).1 =
      { s.1 with relayers := rs.foldl (fun l r => l.modify r f) s.1.relayers } := by
  induction rs generalizing s with
  | nil => rfl
  | cons r rs ih =>
    rw [List.map_cons, List.foldl_cons, ih, one]
    rfl

theorem publish_hear {s : Sim × List Effect} (heard : Subscribed (wiring s.1)) (e : Event) :
    (Sim.publish s e).1 = { s.1 with relayers := s.1.relayers.map fun rel => hear rel e } := by
  have count : (wiring s.1).relayers.length = s.1.relayers.length := List.length_map ..
  unfold Sim.publish
  by_cases packet : e.kind = .ibcPacketSend
  · rw [packet, show s.1.bus.handlers _ = _ from heard.packetHandlers, count,
      foldl_react fun s r => react_packetSend e s r, foldl_modify_range]
    simp only [hear, packet]
  · by_cases ack : e.kind = .ibcAckSend
    · rw [ack, show s.1.bus.handlers _ = _ from heard.ackHandlers, count,
        foldl_react fun s r => react_ackSend e s r, foldl_modify_range]
      simp only [hear, ack]
    · rw [show s.1.bus.handlers _ = _ from heard.otherHandlers e.kind packet ack]
      have deaf : ∀ rel, hear rel e = rel := by
        intro rel
        unfold hear
        split
        · exact absurd ‹_› packet
        · exact absurd ‹_› ack
        · rfl
      simp [deaf]

theorem hear_static (rel : Relayer) (e : Event) :
    (hear rel e).name = rel.name ∧ (hear rel e).chainAddr = rel.chainAddr := by
  obtain ⟨items, packets⟩ := rel.onIBCPacketSendEvent_adds e
  obtain ⟨items', acks⟩ := rel.onIBCAckSendEvent_adds e
  unfold hear
  split
  · rw [packets]
    exact ⟨rfl, rfl⟩
  · rw [acks]
    exact ⟨rfl, rfl⟩
  · exact ⟨rfl, rfl⟩

def hearAll (rel : Relayer) (es : List Event) : Relayer := es.foldl hear rel

theorem hearAll_static (rel : Relayer) (es : List Event) :
    (hearAll rel es).name = rel.name ∧ (hearAll rel es).chainAddr = rel.chainAddr := by
  induction es generalizing rel with
  | nil => exact ⟨rfl, rfl⟩
  | cons e es ih =>
    obtain ⟨name, addr⟩ := ih (hear rel e)
    exact ⟨name.trans (hear_static rel e).1, addr.trans (hear_static rel e).2⟩

theorem wiring_hear {s : Sim} (es : List Event) :
    wiring { s with relayers := s.relayers.map fun rel => hearAll rel es } = wiring s := by
  have posts : (s.relayers.map fun rel => hearAll rel es).map (fun r => (r.name, r.chainAddr)) =
      s.relayers.map fun r => (r.name, r.chainAddr) := by
    rw [List.map_map]
    apply List.map_congr_left
    intro rel _
    exact Prod.ext (hearAll_static rel es).1 (hearAll_static rel es).2
  exact congrArg (fun posts => { wiring s with relayers := posts }) posts

theorem foldl_publish {s : Sim × List Effect} (heard : Subscribed (wiring s.1)) (es : List Event) :
    (es.foldl Sim.publish s).1 = { s.1 with relayers := s.1.relayers.map fun rel => hearAll rel es } := by
  induction es generalizing s with
  | nil =>
    change s.1 = { s.1 with relayers := s.1.relayers.map fun rel => rel }
    rw [List.map_id']
  | cons e es ih =>
    have first := publish_hear heard e
    have heard' : Subscribed (wiring (Sim.publish s e).1) := by
      rw [first]
      have same := wiring_hear (s := s.1) [e]
      rw [show (s.1.relayers.map fun rel => hearAll rel [e]) = s.1.relayers.map fun rel => hear rel e from rfl] at same
      rw [same]
      exact heard
    rw [List.foldl_cons, ih heard', first, List.map_map]
    rfl

theorem hearAll_relayed (rel : Relayer) (es : List Event) : hearAll rel es = hearAll rel (es.filter relayed) := by
  induction es generalizing rel with
  | nil => rfl
  | cons e es ih =>
    cases hr : relayed e with
    | true =>
      rw [List.filter_cons_of_pos hr]
      exact ih (hear rel e)
    | false =>
      have deaf : hear rel e = rel := by
        unfold relayed at hr
        unfold hear
        cases hk : e.kind <;> simp [hk] at hr ⊢
      rw [List.filter_cons_of_neg (by simp [hr]), ← ih rel]
      change hearAll (hear rel e) es = _
      rw [deaf]

theorem react_counters (e : Event) (s : Sim × List Effect) (h : Handler) :
    receivedCounters (Sim.react e s h).2 = receivedCounters s.2 := by
  have packet (rel : Relayer) : receivedCounters (rel.onIBCPacketSendEvent e).2 = [] := by
    unfold Relayer.onIBCPacketSendEvent
    split
    · rfl
    · split
      · split <;> rfl
      · rfl
  have ack (rel : Relayer) : receivedCounters (rel.onIBCAckSendEvent e).2 = [] := by
    unfold Relayer.onIBCAckSendEvent
    split
    · rfl
    · split
      · split <;> rfl
      · rfl
  unfold Sim.react
  cases h with
  | packetSend r =>
    dsimp only
    split
    · rfl
    · rw [receivedCounters_append, packet, List.append_nil]
  | ackSend r =>
    dsimp only
    split
    · rfl
    · rw [receivedCounters_append, ack, List.append_nil]

theorem publishAll_invariant {I : Sim × List Effect → Prop} (step : ∀ e x h, I x → I (Sim.react e x h)) {s : Sim}
    {effects : List Effect} (start : I (s, effects)) : I (s.publishAll effects) := by
  refine List.foldlRecOn (published effects) Sim.publish start fun x hx e _ => ?_
  exact List.foldlRecOn (x.1.bus.handlers e.kind) (Sim.react e) hx fun y hy h _ => step e y h hy

theorem publishAll_counters (s : Sim) (effects : List Effect) :
    receivedCounters (s.publishAll effects).2 = receivedCounters effects := by
  refine publishAll_invariant (I := fun x => receivedCounters x.2 = receivedCounters effects) (fun e x h same => ?_) rfl
  rw [react_counters]
  exact same

def Listening (rel : Relayer) : Prop := rel.pendingPackets.closed = false ∧ rel.pendingAcks.closed = false

/-- The relayer with these packets and acks at the end of its queues. -/
def queued (rel : Relayer) (packets acks : List IBCPacket) : Relayer :=
  { rel with
    pendingPackets := { rel.pendingPackets with q := rel.pendingPackets.q ++ packets }
    pendingAcks := { rel.pendingAcks with q := rel.pendingAcks.q ++ acks } }

theorem hear_sendEvent {rel : Relayer} (h : Listening rel) (chainId : Bytes) {pkt : IBCPacket}
    (data : pkt.type = .data) : hear rel (sendEvent chainId pkt) = queued rel [pkt] [] := by
  have read : deserializeIBCPacket (sendEvent chainId pkt).detail = .ok pkt :=
    deserialize_serialize pkt (stoi_type (.inl data))
  change (rel.onIBCPacketSendEvent (sendEvent chainId pkt)).1 = _
  simp only [Relayer.onIBCPacketSendEvent, read, data, if_true, ConcurrentQueue.push_open h.1]
  simp [queued]

theorem hear_ackEvent {rel : Relayer} (h : Listening rel) (chainId : Bytes) (pkt : IBCPacket) :
    hear rel (ackEvent chainId pkt) = queued rel [] [ackOf pkt] := by
  have ack : (ackOf pkt).type = .ack := rfl
  have read : deserializeIBCPacket (ackEvent chainId pkt).detail = .ok (ackOf pkt) :=
    deserialize_serialize (ackOf pkt) (stoi_type (.inr rfl))
  change (rel.onIBCAckSendEvent (ackEvent chainId pkt)).1 = _
  simp only [Relayer.onIBCAckSendEvent, read, ack, if_true, ConcurrentQueue.push_open h.2]
  simp [queued]

theorem hearAll_packetEvents {rel : Relayer} (h : Listening rel) (chainId : Bytes) (e : ChainOp × ChainReply)
    (data : ∀ pkt, sentPacket e = some pkt → pkt.type = .data) :
    hearAll rel (packetEvents chainId e) =
      queued rel (sentPacket e).toList ((acceptedPacket e).map ackOf).toList := by
  have none : queued rel [] [] = rel := by simp [queued]
  obtain ⟨op, reply⟩ := e
  cases sent : sentPacket (op, reply) with
  | none =>
    cases accepted : acceptedPacket (op, reply) with
    | none =>
      simp only [packetEvents, sent, accepted]
      exact none.symm
    | some pkt =>
      simp only [packetEvents, sent, accepted]
      exact hear_ackEvent h chainId pkt
  | some pkt =>
    have accepted : acceptedPacket (op, reply) = Option.none := by
      cases op with
      | onIBCPacket pkt' => simp [sentPacket] at sent
      | sendIBC | openChannel | closeChannel | onIBCAck | appendBlock | registerNodeId | addTransaction
      | drain => rfl
    simp only [packetEvents, sent, accepted]
    exact hear_sendEvent h chainId (data pkt sent)

end InterchainCommunication.EventDelivery
