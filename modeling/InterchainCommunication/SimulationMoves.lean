import InterchainCommunication.AckSoundness

set_option autoImplicit false

namespace InterchainCommunication.SimulationMoves
open ListUpdates StringText CoreTypes MachineRuns PacketCodec ChannelSequencing BlockchainModel BlockchainSteps
open ChainHistory QueueAndBus NodeModel NodeSteps NodeText RelayerModel SimulationModel SimulationWiring EventDelivery
open SimulationSteps AckSoundness

structure Shown where
  chains : List Blockchain
  traffic : Traffic
  calls : Calls
  counters : List Bytes

def shown (next : Sim × SimOutput) : Shown := ⟨next.1.chains, traffic next.1, next.2.calls, counted next.2.effects⟩

/-- The snapshot after a handled packet counts where the node's state file cannot be opened. -/
def snapshotErrors (opens : Bool) : List Bytes := if opens then [] else [lit "ibc_deserialization_errors"]

/-- The counters that go up when a chain has answered a Data packet, with `R` relayers. -/
def packetCounters (R : ℕ) (opens : Bool) : Option IBCPacket → List Bytes
  | some _ => [lit "ibc_packets_received", lit "ibc_packets_processed"] ++ snapshotErrors opens ++
      List.replicate R (lit "relayer_acks_queued")
  | none => lit "ibc_packets_failed" :: snapshotErrors opens

structure Brings (msg : NodeMessage) (p : IBCPacket) : Prop where
  kind : msg.kind = .ibc
  read : deserializeIBCPacket msg.bytes = .ok p

/-- What makes a forward fail: a coin, or a chain without a mailbox. -/
def Fails (w : Wiring) (r : ℕ) (pkt : IBCPacket) (drops : Drops) : Prop :=
  drops ≠ ⟨false, false⟩ ∨ ∀ rel, w.relayers[r]? = some rel → rel.2 pkt.dstChain = none

def Files (s : Sim) (n : ℕ) (opens : Bool) : Prop := (s.nodes[n]?).map (·.node.stateFileOpens) = some opens

inductive Move (s : Sim) : SimInput → Shown → Prop
  | still (i : SimInput) : Move s i ⟨s.chains, traffic s, [], []⟩
  | sent (c : ℕ) (b : Blockchain) (port : PortId) (chan : ChannelId) (dstChain : Bytes) (dstPort : PortId)
      (dstChan : ChannelId) (payload : Bytes) (home : s.chains[c]? = some b) :
      Move s (.sendIBC c port chan dstChain dstPort dstChan payload)
        ⟨s.chains.set c (b.call (.sendIBC port chan dstChain dstPort dstChan payload)).chain,
          { traffic s with
            packets := (traffic s).packets.map
              (· ++ [(resolve b port chan).packet dstChain dstPort dstChan payload]) },
          [(c, .sendIBC port chan dstChain dstPort dstChan payload,
            (b.call (.sendIBC port chan dstChain dstPort dstChan payload)).ret)],
          lit "ibc_packets_sent" :: List.replicate s.relayers.length (lit "relayer_packets_queued")⟩
  | relayedPacket (r : ℕ) (drops : Drops) (pkt : IBCPacket) (rest : List IBCPacket) (task : Bytes × Bytes)
      (head : (traffic s).packets[r]? = some (pkt :: rest)) (posted : Posted (wiring s) r pkt task) :
      Move s (.forwardPacket r drops)
        ⟨s.chains, { traffic s with
          packets := (traffic s).packets.set r rest
          tasks := (traffic s).tasks ++ [task] }, [], [lit "relayer_packets_relayed"]⟩
  | failedPacket (r : ℕ) (drops : Drops) (pkt : IBCPacket) (rest : List IBCPacket)
      (head : (traffic s).packets[r]? = some (pkt :: rest)) (fails : Fails (wiring s) r pkt drops) :
      Move s (.forwardPacket r drops)
        ⟨s.chains, { traffic s with packets := (traffic s).packets.set r rest }, [], [lit "relayer_packets_failed"]⟩
  | relayedAck (r : ℕ) (drops : Drops) (ack : IBCPacket) (rest : List IBCPacket) (task : Bytes × Bytes)
      (head : (traffic s).acks[r]? = some (ack :: rest)) (posted : Posted (wiring s) r ack task) :
      Move s (.forwardAck r drops)
        ⟨s.chains, { traffic s with
          acks := (traffic s).acks.set r rest
          tasks := (traffic s).tasks ++ [task] }, [], [lit "relayer_acks_relayed"]⟩
  | failedAck (r : ℕ) (drops : Drops) (ack : IBCPacket) (rest : List IBCPacket)
      (head : (traffic s).acks[r]? = some (ack :: rest)) (fails : Fails (wiring s) r ack drops) :
      Move s (.forwardAck r drops)
        ⟨s.chains, { traffic s with acks := (traffic s).acks.set r rest }, [], [lit "relayer_acks_failed"]⟩
  | delivered (k n : ℕ) (task : Bytes × Bytes) (q : List NodeMessage) (msg : NodeMessage)
      (sent : (traffic s).tasks[k]? = some task) (endpoint : (wiring s).endpoints task.1 = some n)
      (inbox : (traffic s).inboxes[n]? = some q) (read : deserializeNodeMessage task.2 = .ok msg) :
      Move s (.deliver k)
        ⟨s.chains, { traffic s with
          tasks := (traffic s).tasks.eraseIdx k
          inboxes := (traffic s).inboxes.set n (q ++ [msg]) }, [], []⟩
  | lost (k : ℕ) : Move s (.lose k) ⟨s.chains, { traffic s with tasks := (traffic s).tasks.eraseIdx k }, [], []⟩
  | duplicated (k : ℕ) : Move s (.duplicate k)
      ⟨s.chains, { traffic s with tasks := (traffic s).tasks ++ ((traffic s).tasks[k]?).toList }, [], []⟩
  | handedPacket (n c : ℕ) (b : Blockchain) (msg : NodeMessage) (rest : List NodeMessage) (p : IBCPacket)
      (opens : Bool) (head : (traffic s).inboxes[n]? = some (msg :: rest)) (homes : (wiring s).homes[n]? = some c)
      (home : s.chains[c]? = some b) (file : Files s n opens) (brings : Brings msg p) (data : p.type = .data) :
      Move s (.nodeStep n)
        ⟨s.chains.set c (b.call (.onIBCPacket p)).chain,
          { traffic s with
            acks := (traffic s).acks.map
              (· ++ ((acceptedPacket (.onIBCPacket p, (b.call (.onIBCPacket p)).ret)).map ackOf).toList)
            inboxes := (traffic s).inboxes.set n rest },
          [(c, .onIBCPacket p, (b.call (.onIBCPacket p)).ret)],
          packetCounters s.relayers.length opens (acceptedPacket (.onIBCPacket p, (b.call (.onIBCPacket p)).ret))⟩
  | handedAck (n c : ℕ) (b : Blockchain) (msg : NodeMessage) (rest : List NodeMessage) (a : IBCPacket)
      (opens : Bool) (head : (traffic s).inboxes[n]? = some (msg :: rest)) (homes : (wiring s).homes[n]? = some c)
      (home : s.chains[c]? = some b) (file : Files s n opens) (brings : Brings msg a) (ack : a.type = .ack) :
      Move s (.nodeStep n)
        ⟨s.chains, { traffic s with inboxes := (traffic s).inboxes.set n rest },
          [(c, .onIBCAck a, (b.call (.onIBCAck a)).ret)],
          [lit "ibc_acks_received", lit "ibc_acks_processed"] ++ snapshotErrors opens⟩

theorem onIBCPacketSendEvent_listening {rel : Relayer} (h : Listening rel) (e : Event) :
    Listening (rel.onIBCPacketSendEvent e).1 := by
  obtain ⟨items, adds⟩ := rel.onIBCPacketSendEvent_adds e
  rw [adds]
  exact h

theorem onIBCAckSendEvent_listening {rel : Relayer} (h : Listening rel) (e : Event) :
    Listening (rel.onIBCAckSendEvent e).1 := by
  obtain ⟨items, adds⟩ := rel.onIBCAckSendEvent_adds e
  rw [adds]
  exact h

theorem listening_modify {l : List Relayer} {r : ℕ} {f : Relayer → Relayer} (all : ∀ rel ∈ l, Listening rel)
    (keeps : ∀ rel, Listening rel → Listening (f rel)) : ∀ rel ∈ l.modify r f, Listening rel := by
  intro rel hrel
  rcases mem_modify hrel with old | ⟨rel₀, old, rfl⟩
  · exact all rel old
  · exact keeps rel₀ (all rel₀ old)

theorem foldl_react_counted {e : Event} {handler : ℕ → Handler} {f : Relayer → Relayer} {name : Bytes}
    (keeps : ∀ rel, Listening rel → Listening (f rel))
    (moves : ∀ x r, (Sim.react e x (handler r)).1 = { x.1 with relayers := x.1.relayers.modify r f })
    (counts : ∀ x r rel, x.1.relayers[r]? = some rel → Listening rel →
      counted (Sim.react e x (handler r)).2 = counted x.2 ++ [name])
    (rs : List ℕ) (x : Sim × List Effect) (inside : ∀ r ∈ rs, r < x.1.relayers.length)
    (listening : ∀ rel ∈ x.1.relayers, Listening rel) :
    counted ((rs.map handler).foldl (Sim.react e) x).2 = counted x.2 ++ List.replicate rs.length name := by
  induction rs generalizing x with
  | nil => simp
  | cons r rs ih =>
    have here := List.getElem?_eq_getElem (inside r List.mem_cons_self)
    have next := ih (Sim.react e x (handler r))
      (by rw [moves]; simpa using fun r' hr' => inside r' (List.mem_cons_of_mem r hr'))
      (by rw [moves]; exact listening_modify listening keeps)
    rw [List.map_cons, List.foldl_cons, next, counts x r _ here (listening _ (List.mem_of_getElem? here)),
      List.length_cons, List.replicate_succ, List.append_assoc, List.singleton_append]

theorem react_sendEvent_counted {x : Sim × List Effect} {r : ℕ} {rel : Relayer} (chainId : Bytes) {pkt : IBCPacket}
    (data : pkt.type = .data) (found : x.1.relayers[r]? = some rel) (listening : Listening rel) :
    counted (Sim.react (sendEvent chainId pkt) x (.packetSend r)).2 =
      counted x.2 ++ [lit "relayer_packets_queued"] := by
  have read : deserializeIBCPacket (sendEvent chainId pkt).detail = .ok pkt :=
    deserialize_serialize pkt (stoi_type (.inl data))
  have queued : counted (rel.onIBCPacketSendEvent (sendEvent chainId pkt)).2 = [lit "relayer_packets_queued"] := by
    simp only [Relayer.onIBCPacketSendEvent, read, data, if_true, ConcurrentQueue.push_open listening.1]
    rfl
  simp only [Sim.react, found, counted_append, queued]

theorem react_ackEvent_counted {x : Sim × List Effect} {r : ℕ} {rel : Relayer} (chainId : Bytes) (pkt : IBCPacket)
    (found : x.1.relayers[r]? = some rel) (listening : Listening rel) :
    counted (Sim.react (ackEvent chainId pkt) x (.ackSend r)).2 = counted x.2 ++ [lit "relayer_acks_queued"] := by
  have ack : (ackOf pkt).type = .ack := rfl
  have read : deserializeIBCPacket (ackEvent chainId pkt).detail = .ok (ackOf pkt) :=
    deserialize_serialize (ackOf pkt) (stoi_type (.inr rfl))
  have queued : counted (rel.onIBCAckSendEvent (ackEvent chainId pkt)).2 = [lit "relayer_acks_queued"] := by
    simp only [Relayer.onIBCAckSendEvent, read, ack, if_true, ConcurrentQueue.push_open listening.2]
    rfl
  simp only [Sim.react, found, counted_append, queued]

theorem publish_sendEvent_counted {x : Sim × List Effect} (heard : Subscribed (wiring x.1))
    (listening : ∀ rel ∈ x.1.relayers, Listening rel) (chainId : Bytes) {pkt : IBCPacket} (data : pkt.type = .data) :
    counted (Sim.publish x (sendEvent chainId pkt)).2 =
      counted x.2 ++ List.replicate x.1.relayers.length (lit "relayer_packets_queued") := by
  have count : (wiring x.1).relayers.length = x.1.relayers.length := List.length_map ..
  have handlers : x.1.bus.handlers (sendEvent chainId pkt).kind = (List.range x.1.relayers.length).map .packetSend := by
    rw [← count]
    exact heard.packetHandlers
  have all := foldl_react_counted (fun rel h => onIBCPacketSendEvent_listening h (sendEvent chainId pkt))
    (fun x r => react_packetSend (sendEvent chainId pkt) x r)
    (fun x r rel found h => react_sendEvent_counted chainId data found h)
    (List.range x.1.relayers.length) x (by simp) listening
  rw [Sim.publish, handlers, all, List.length_range]

theorem publish_ackEvent_counted {x : Sim × List Effect} (heard : Subscribed (wiring x.1))
    (listening : ∀ rel ∈ x.1.relayers, Listening rel) (chainId : Bytes) (pkt : IBCPacket) :
    counted (Sim.publish x (ackEvent chainId pkt)).2 =
      counted x.2 ++ List.replicate x.1.relayers.length (lit "relayer_acks_queued") := by
  have count : (wiring x.1).relayers.length = x.1.relayers.length := List.length_map ..
  have handlers : x.1.bus.handlers (ackEvent chainId pkt).kind = (List.range x.1.relayers.length).map .ackSend := by
    rw [← count]
    exact heard.ackHandlers
  have all := foldl_react_counted (fun rel h => onIBCAckSendEvent_listening h (ackEvent chainId pkt))
    (fun x r => react_ackSend (ackEvent chainId pkt) x r)
    (fun x r rel found h => react_ackEvent_counted chainId pkt found h)
    (List.range x.1.relayers.length) x (by simp) listening
  rw [Sim.publish, handlers, all, List.length_range]

theorem publish_unheard {x : Sim × List Effect} (heard : Subscribed (wiring x.1)) {e : Event}
    (other : relayed e = false) : Sim.publish x e = x := by
  have kinds : e.kind ≠ .ibcPacketSend ∧ e.kind ≠ .ibcAckSend := by simpa [relayed] using other
  have nobody : x.1.bus.handlers e.kind = [] := heard.otherHandlers e.kind kinds.1 kinds.2
  rw [Sim.publish, nobody]
  rfl

theorem subscribed_chains {s : Sim} (h : Subscribed (wiring s)) (chains : List Blockchain) :
    Subscribed (wiring { s with chains := chains }) := ⟨h.packetHandlers, h.ackHandlers, h.otherHandlers⟩

section Calls
variable {s : Sim} (sound : Sound (wiring s)) (ready : Ready s)
include sound ready

theorem publishAll_sent_counted (chains : List Blockchain) {effects : List Effect} {chainId : Bytes} {pkt : IBCPacket}
    (data : pkt.type = .data) (events : published effects = [sendEvent chainId pkt]) :
    counted (Sim.publishAll { s with chains := chains } effects).2 =
      counted effects ++ List.replicate s.relayers.length (lit "relayer_packets_queued") := by
  have heard := subscribed_chains sound.subscribed chains
  rw [Sim.publishAll, events]
  exact publish_sendEvent_counted (x := ({ s with chains := chains }, effects)) heard ready.relayers chainId data

theorem publishAll_accepted_counted (chains : List Blockchain) {effects : List Effect} {chainId : Bytes}
    {pkt : IBCPacket} (events : published effects = [recvEvent chainId, ackEvent chainId pkt]) :
    counted (Sim.publishAll { s with chains := chains } effects).2 =
      counted effects ++ List.replicate s.relayers.length (lit "relayer_acks_queued") := by
  have heard := subscribed_chains sound.subscribed chains
  have unheard : Sim.publish ({ s with chains := chains }, effects) (recvEvent chainId) =
      ({ s with chains := chains }, effects) :=
    publish_unheard heard rfl
  rw [Sim.publishAll, events, List.foldl_cons, unheard]
  exact publish_ackEvent_counted (x := ({ s with chains := chains }, effects)) heard ready.relayers chainId pkt

omit ready in
theorem publishAll_unheard_counted (chains : List Blockchain) {effects : List Effect}
    (unheard : ∀ e ∈ published effects, relayed e = false) :
    counted (Sim.publishAll { s with chains := chains } effects).2 = counted effects := by
  have heard := subscribed_chains sound.subscribed chains
  have still (es : List Event) (deaf : ∀ e ∈ es, relayed e = false) :
      es.foldl Sim.publish ({ s with chains := chains }, effects) = ({ s with chains := chains }, effects) := by
    induction es with
    | nil => rfl
    | cons e es ih =>
      rw [List.foldl_cons, publish_unheard heard (deaf e List.mem_cons_self)]
      exact ih fun e' he' => deaf e' (List.mem_cons_of_mem e he')
  rw [Sim.publishAll, still _ unheard]

theorem sendIBC_move (c : ℕ) (port : PortId) (chan : ChannelId) (dstChain : Bytes) (dstPort : PortId)
    (dstChan : ChannelId) (payload : Bytes) :
    Move s (.sendIBC c port chan dstChain dstPort dstChan payload)
      (shown (s.sendIBC c (.sendIBC port chan dstChain dstPort dstChan payload))) := by
  unfold Sim.sendIBC
  cases hb : s.chains[c]? with
  | none => exact .still _
  | some b =>
    let op : ChainOp := .sendIBC port chan dstChain dstPort dstChan payload
    let pkt := (resolve b port chan).packet dstChain dstPort dstChan payload
    obtain ⟨hopen, hids⟩ := ready.chains b (List.mem_of_getElem? hb)
    have sent : sentPacket (op, (b.call op).ret) = some pkt := sentPacket_sendIBC hopen _ _ _ _ _ _
    have effects : (b.call op).effects = (b.getOrCreateChannel port chan).effects ++
        [.publish (sendEvent b.chainId pkt), .incCounter (lit "ibc_packets_sent")] := by
      change (b.sendIBC _ _ _ _ _ _).effects = _
      rw [sendIBC_eq hopen]
      rfl
    obtain ⟨next, calls⟩ := absorb_call sound ready hb op (rfl : published (b.call op).effects = _)
    have published_sent : published (b.call op).effects = [sendEvent b.chainId pkt] := by
      rw [effects]
      simp
    have counters : counted (s.absorb c (b.call op).chain [(op, (b.call op).ret)] (b.call op).effects).2.effects =
        lit "ibc_packets_sent" :: List.replicate s.relayers.length (lit "relayer_packets_queued") := by
      have told := publishAll_sent_counted sound ready (s.chains.set c (b.call op).chain)
        (rfl : pkt.type = .data) published_sent
      have own : counted (b.call op).effects = [lit "ibc_packets_sent"] := by rw [effects]; simp
      rw [own] at told
      exact told
    have accepted : acceptedPacket (op, (b.call op).ret) = none := rfl
    rw [sent, accepted] at next
    dsimp only
    rw [shown, next, calls, counters]
    have move := Move.sent c b port chan dstChain dstPort dstChan payload hb
    convert move using 2
    simp only [traffic, List.map_map]
    congr 1
    simp [queued]

end Calls

def Receptive (s : Sim) : Prop := ∀ node ∈ s.nodes, node.node.inbox.closed = false

/-- What the snapshot and the `catch` around it add to a branch that threw nothing. -/
theorem snapshot_caught {done : Handled} (fine : done.thrown = none) (opens : Bool) (nodeId : Bytes) :
    let after := (done.snapshot opens nodeId).caught
    after.chain = done.chain ∧ after.calls = done.calls ∧ published after.effects = published done.effects ∧
      counted after.effects = counted done.effects ++ snapshotErrors opens := by
  obtain ⟨chain, calls, effects, thrown⟩ := done
  obtain rfl : thrown = none := fine
  cases opens with
  | true => refine ⟨rfl, rfl, ?_, ?_⟩ <;> simp [Handled.snapshot, snapshotState, Handled.caught, snapshotErrors]
  | false => refine ⟨rfl, rfl, ?_, ?_⟩ <;> simp [Handled.snapshot, snapshotState, Handled.caught, snapshotErrors]

/-- A packet message makes one call and tells the sink what the call told it, then the report,
    then a failed snapshot. -/
structure Answers (b : Blockchain) (done : Handled) (op : ChainOp) (reported : List Effect) (opens : Bool) : Prop where
  chain : done.chain = (b.call op).chain
  calls : done.calls = [(op, (b.call op).ret)]
  same : published done.effects = published (b.call op).effects
  counts : counted done.effects = counted (b.call op).effects ++ counted reported ++ snapshotErrors opens

theorem answers_ofCall (b : Blockchain) (op : ChainOp) {before : List Effect} {afterwards : ChainReply → List Effect}
    (first : published before = [] ∧ counted before = []) (last : ∀ reply, published (afterwards reply) = [])
    (opens : Bool) (nodeId : Bytes) :
    Answers b ((Handled.ofCall b op before afterwards).snapshot opens nodeId).caught op (afterwards (b.call op).ret)
      opens := by
  obtain ⟨chain, calls, same, counts⟩ := snapshot_caught (rfl : (Handled.ofCall b op before afterwards).thrown = none)
    opens nodeId
  refine ⟨chain, calls, ?_, ?_⟩
  · rw [same]
    simp [Handled.ofCall, first.1, last]
  · rw [counts]
    simp [Handled.ofCall, first.2]

theorem handleIBC_data (opens : Bool) (nodeId : Bytes) (b : Blockchain) {bytes : Bytes} {p : IBCPacket}
    (read : deserializeIBCPacket bytes = .ok p) (data : p.type = .data) :
    Answers b (handleIBC opens nodeId b bytes) (.onIBCPacket p)
      (report (lit "packet") (lit "ibc_packets") p.sequence (b.call (.onIBCPacket p)).ret) opens := by
  have branch : handleIBC opens nodeId b bytes = ((Handled.ofCall b (.onIBCPacket p)
      (received nodeId (lit "data packet") p)
      (report (lit "packet") (lit "ibc_packets") p.sequence)).snapshot opens nodeId).caught := by
    simp only [handleIBC, read, data]
  rw [branch]
  exact answers_ofCall b _ ⟨rfl, rfl⟩ (fun reply => report_published _ _ _ reply) opens nodeId

theorem handleIBC_ack (opens : Bool) (nodeId : Bytes) (b : Blockchain) {bytes : Bytes} {a : IBCPacket}
    (read : deserializeIBCPacket bytes = .ok a) (ack : a.type = .ack) :
    Answers b (handleIBC opens nodeId b bytes) (.onIBCAck a)
      (report (lit "ack") (lit "ibc_acks") a.sequence (b.call (.onIBCAck a)).ret) opens := by
  have branch : handleIBC opens nodeId b bytes = ((Handled.ofCall b (.onIBCAck a) (received nodeId (lit "ack") a)
      (report (lit "ack") (lit "ibc_acks") a.sequence)).snapshot opens nodeId).caught := by
    simp only [handleIBC, read, ack]
  rw [branch]
  exact answers_ofCall b _ ⟨rfl, rfl⟩ (fun reply => report_published _ _ _ reply) opens nodeId

theorem ready_nodes {s : Sim} (ready : Ready s) (nodes : List SimNode) : Ready { s with nodes := nodes } :=
  ⟨ready.chains, ready.relayers⟩

theorem wiring_node {s : Sim} {n : ℕ} {node : SimNode} (hn : s.nodes[n]? = some node) (moved : Node) :
    wiring { s with nodes := s.nodes.set n { node with node := moved } } = wiring s :=
  congrArg (fun homes => { wiring s with homes := homes }) (homes_set hn moved)

section Nodes
variable {s : Sim} (sound : Sound (wiring s)) (ready : Ready s) {n : ℕ} {node : SimNode}
  (hn : s.nodes[n]? = some node) {b : Blockchain} (hb : s.chains[node.chain]? = some b) {msg : NodeMessage}
  {rest : List NodeMessage} (popped : Node)
include sound ready hn hb

/-- A handled message that made one call, with what it told the sink. -/
theorem absorb_shown (left : popped.inbox.q = rest) {op : ChainOp} {effects : List Effect} {counters : List Bytes}
    (same : published effects = published (b.call op).effects) (silent : sentPacket (op, (b.call op).ret) = none)
    (counts : counted (Sim.publishAll { s with
      nodes := s.nodes.set n { node with node := popped }
      chains := s.chains.set node.chain (b.call op).chain } effects).2 = counters) :
    shown ({ s with nodes := s.nodes.set n { node with node := popped } }.absorb node.chain (b.call op).chain
      [(op, (b.call op).ret)] effects) =
      ⟨s.chains.set node.chain (b.call op).chain,
        { traffic s with
          acks := (traffic s).acks.map (· ++ ((acceptedPacket (op, (b.call op).ret)).map ackOf).toList)
          inboxes := (traffic s).inboxes.set n rest },
        [(node.chain, op, (b.call op).ret)], counters⟩ := by
  have wired := wiring_node hn popped
  obtain ⟨next, calls⟩ := absorb_call (s := { s with nodes := s.nodes.set n { node with node := popped } })
    (by rw [wired]; exact sound) (ready_nodes ready _) hb op same
  rw [silent] at next
  rw [shown, next, calls]
  congr 1
  simp only [traffic, List.map_map, List.map_set, ← left]
  congr 1
  simp [queued]

theorem handedPacket_shown (left : popped.inbox.q = rest) {p : IBCPacket} (brings : Brings msg p)
    (data : p.type = .data) :
    let done := handleIBC popped.stateFileOpens popped.nodeId b msg.bytes
    let reply := (b.call (.onIBCPacket p)).ret
    shown ({ s with nodes := s.nodes.set n { node with node := popped } }.absorb node.chain done.chain done.calls
      done.effects) =
      ⟨s.chains.set node.chain (b.call (.onIBCPacket p)).chain,
        { traffic s with
          acks := (traffic s).acks.map (· ++ ((acceptedPacket (.onIBCPacket p, reply)).map ackOf).toList)
          inboxes := (traffic s).inboxes.set n rest },
        [(node.chain, .onIBCPacket p, reply)],
        packetCounters s.relayers.length popped.stateFileOpens (acceptedPacket (.onIBCPacket p, reply))⟩ := by
  intro done reply
  have hopen := (ready.chains b (List.mem_of_getElem? hb)).1
  obtain ⟨chain, calls, same, counts⟩ : Answers b done _ _ _ :=
    handleIBC_data popped.stateFileOpens popped.nodeId b brings.read data
  have wired : Sound (wiring { s with nodes := s.nodes.set n { node with node := popped } }) := by
    rw [wiring_node hn popped]
    exact sound
  rw [chain, calls]
  refine absorb_shown sound ready hn hb popped left same rfl ?_
  by_cases expected : p.sequence = (resolve b p.dstPort p.dstChannel).nextSeq
  · have taken := onIBCPacket_accept hopen expected
    have accepted : acceptedPacket (.onIBCPacket p, reply) = some p := by
      rw [show reply = (b.call (.onIBCPacket p)).ret from rfl, acceptedPacket_onIBCPacket hopen, if_pos expected]
    have events : published done.effects = [recvEvent b.chainId, ackEvent b.chainId p] := by
      rw [same]
      change published (b.onIBCPacket p).effects = _
      rw [taken]
      simp [recvEvent, ackEvent]
    have told := publishAll_accepted_counted wired (ready_nodes ready _)
      (s.chains.set node.chain (b.call (.onIBCPacket p)).chain) events
    have own : counted (b.call (.onIBCPacket p)).effects = [lit "ibc_packets_received"] := by
      change counted (b.onIBCPacket p).effects = _
      rw [taken]
      simp
    have reported : counted (report (lit "packet") (lit "ibc_packets") p.sequence (b.call (.onIBCPacket p)).ret) =
        [lit "ibc_packets_processed"] := by
      change counted (report _ _ _ (.status (b.onIBCPacket p).ret)) = _
      rw [taken]
      rfl
    rw [told, counts, own, reported, accepted]
    rfl
  · have refused := onIBCPacket_reject hopen expected
    have accepted : acceptedPacket (.onIBCPacket p, reply) = none := by
      rw [show reply = (b.call (.onIBCPacket p)).ret from rfl, acceptedPacket_onIBCPacket hopen, if_neg expected]
    have events : published done.effects = [] := by
      rw [same]
      change published (b.onIBCPacket p).effects = _
      rw [refused]
      simp
    have deaf : ∀ e ∈ published done.effects, relayed e = false := by
      rw [events]
      simp
    have told := publishAll_unheard_counted wired
      (s.chains.set node.chain (b.call (.onIBCPacket p)).chain) deaf
    have own : counted (b.call (.onIBCPacket p)).effects = [] := by
      change counted (b.onIBCPacket p).effects = _
      rw [refused]
      simp
    have reported : counted (report (lit "packet") (lit "ibc_packets") p.sequence (b.call (.onIBCPacket p)).ret) =
        [lit "ibc_packets_failed"] := by
      change counted (report _ _ _ (.status (b.onIBCPacket p).ret)) = _
      rw [refused]
      rfl
    rw [told, counts, own, reported, accepted]
    rfl

theorem handedAck_shown (left : popped.inbox.q = rest) {a : IBCPacket} (brings : Brings msg a)
    (ack : a.type = .ack) :
    let done := handleIBC popped.stateFileOpens popped.nodeId b msg.bytes
    shown ({ s with nodes := s.nodes.set n { node with node := popped } }.absorb node.chain done.chain done.calls
      done.effects) =
      ⟨s.chains, { traffic s with inboxes := (traffic s).inboxes.set n rest },
        [(node.chain, .onIBCAck a, (b.call (.onIBCAck a)).ret)],
        [lit "ibc_acks_received", lit "ibc_acks_processed"] ++ snapshotErrors popped.stateFileOpens⟩ := by
  intro done
  obtain ⟨chain, calls, same, counts⟩ : Answers b done _ _ _ :=
    handleIBC_ack popped.stateFileOpens popped.nodeId b brings.read ack
  have wired : Sound (wiring { s with nodes := s.nodes.set n { node with node := popped } }) := by
    rw [wiring_node hn popped]
    exact sound
  have deaf : ∀ e ∈ published done.effects, relayed e = false := by
    rw [same]
    exact List.forall_mem_singleton.mpr rfl
  have told := publishAll_unheard_counted wired (s.chains.set node.chain (b.call (.onIBCAck a)).chain) deaf
  have none_accepted : acceptedPacket (.onIBCAck a, (b.call (.onIBCAck a)).ret) = none := rfl
  rw [chain, calls, absorb_shown sound ready hn hb popped left same rfl (told.trans counts), none_accepted]
  congr 1
  · exact set_same hb
  · simp

end Nodes

theorem relay_outcome {s : Sim} (sound : Sound (wiring s)) {r : ℕ} {rel : Relayer} (hr : s.relayers[r]? = some rel)
    (dropText : Bytes) (pkt : IBCPacket) (drops : Drops) :
    (∃ task, rel.relay dropText s.transport pkt drops =
        ({ s.transport with tasks := s.transport.tasks ++ [task] }, ⟨.ok, []⟩) ∧ Posted (wiring s) r pkt task) ∨
      ∃ status, rel.relay dropText s.transport pkt drops = (s.transport, status) ∧ status.ok = false ∧
        Fails (wiring s) r pkt drops := by
  have wired : (wiring s).relayers[r]? = some (rel.name, rel.chainAddr) := by simp [wiring, hr]
  unfold Relayer.relay
  cases mailbox : rel.chainAddr pkt.dstChain with
  | none =>
    refine .inr ⟨_, rfl, rfl, .inr fun rel' hrel' => ?_⟩
    rw [wired, Option.some.injEq] at hrel'
    rw [← hrel']
    exact mailbox
  | some addr =>
    obtain ⟨onRoute, inTransport⟩ := drops
    cases onRoute with
    | true => exact .inr ⟨_, rfl, rfl, .inl (by simp)⟩
    | false =>
      obtain ⟨n, c, endpoint, -⟩ := sound.mailboxes _ (List.mem_of_getElem? wired) _ _ mailbox
      have present : s.transport.endpoints addr = some n := endpoint
      cases inTransport with
      | true => exact .inr ⟨⟨.networkDrop, lit "Packet dropped by network"⟩, by simp [Transport.send, present], rfl,
          .inl (by simp)⟩
      | false => exact .inl ⟨_, by simp [Transport.send, present]; rfl, _, wired, mailbox, rfl⟩

theorem forwardEffects_counted (noun counter : Bytes) (pkt : IBCPacket) (status : Status) :
    counted (Relayer.forwardEffects noun counter pkt status) =
      [counter ++ if status.ok then lit "_relayed" else lit "_failed"] := by
  unfold Relayer.forwardEffects
  split
  · simp
  · simp

theorem relayer_shown (s : Sim) (r : ℕ) (rel : Relayer) (tasks : List (Bytes × Bytes)) (effects : List Effect) :
    shown ({ s with
      relayers := s.relayers.set r rel
      transport := { s.transport with tasks := tasks } }, ⟨[], effects⟩) =
      ⟨s.chains, { traffic s with
        packets := (traffic s).packets.set r rel.pendingPackets.q
        acks := (traffic s).acks.set r rel.pendingAcks.q
        tasks := tasks }, [], counted effects⟩ := by
  simp only [shown, traffic, List.map_set]

theorem forwardPacket_move {s : Sim} (sound : Sound (wiring s)) (r : ℕ) (drops : Drops) :
    Move s (.forwardPacket r drops) (shown (s.forward r fun rel t => rel.forwardPacket t drops)) := by
  unfold Sim.forward
  cases hr : s.relayers[r]? with
  | none => exact .still _
  | some rel =>
    have packets : (traffic s).packets[r]? = some rel.pendingPackets.q := by simp [traffic, hr]
    have acks : (traffic s).acks[r]? = some rel.pendingAcks.q := by simp [traffic, hr]
    dsimp only
    cases hq : rel.pendingPackets.q with
    | nil =>
      have out : rel.forwardPacket s.transport drops = (rel, s.transport, []) := by
        simp [Relayer.forwardPacket, ConcurrentQueue.tryPop, hq]
      rw [out, relayer_shown s r rel s.transport.tasks, set_same packets, set_same acks]
      exact .still _
    | cons pkt rest =>
      have head : (traffic s).packets[r]? = some (pkt :: rest) := by rw [packets, hq]
      rcases relay_outcome sound hr (lit "Packet dropped on relayer route") pkt drops with
        ⟨task, sent, posted⟩ | ⟨status, sent, failed, fails⟩
      · have counts := forwardEffects_counted (lit "packet") (lit "relayer_packets") pkt ⟨.ok, []⟩
        have out : rel.forwardPacket s.transport drops =
            ({ rel with
                pendingPackets := { rel.pendingPackets with q := rest }
                packetsRelayed := rel.packetsRelayed + 1 },
              { s.transport with tasks := s.transport.tasks ++ [task] },
              Relayer.forwardEffects (lit "packet") (lit "relayer_packets") pkt ⟨.ok, []⟩) := by
          simp [Relayer.forwardPacket, ConcurrentQueue.tryPop, hq, Relayer.relayPacket, sent, Status.ok]
        rw [out, relayer_shown s r, set_same acks, counts]
        exact .relayedPacket r drops pkt rest task head posted
      · have counts := forwardEffects_counted (lit "packet") (lit "relayer_packets") pkt status
        rw [failed] at counts
        have out : rel.forwardPacket s.transport drops =
            ({ rel with
                pendingPackets := { rel.pendingPackets with q := rest }
                failures := rel.failures + 1 },
              s.transport, Relayer.forwardEffects (lit "packet") (lit "relayer_packets") pkt status) := by
          simp [Relayer.forwardPacket, ConcurrentQueue.tryPop, hq, Relayer.relayPacket, sent, failed]
        rw [out, relayer_shown s r _ s.transport.tasks, set_same acks, counts]
        exact .failedPacket r drops pkt rest head fails

theorem forwardAck_move {s : Sim} (sound : Sound (wiring s)) (r : ℕ) (drops : Drops) :
    Move s (.forwardAck r drops) (shown (s.forward r fun rel t => rel.forwardAck t drops)) := by
  unfold Sim.forward
  cases hr : s.relayers[r]? with
  | none => exact .still _
  | some rel =>
    have packets : (traffic s).packets[r]? = some rel.pendingPackets.q := by simp [traffic, hr]
    have acks : (traffic s).acks[r]? = some rel.pendingAcks.q := by simp [traffic, hr]
    dsimp only
    cases hq : rel.pendingAcks.q with
    | nil =>
      have out : rel.forwardAck s.transport drops = (rel, s.transport, []) := by
        simp [Relayer.forwardAck, ConcurrentQueue.tryPop, hq]
      rw [out, relayer_shown s r rel s.transport.tasks, set_same packets, set_same acks]
      exact .still _
    | cons ack rest =>
      have head : (traffic s).acks[r]? = some (ack :: rest) := by rw [acks, hq]
      rcases relay_outcome sound hr (lit "Ack dropped on relayer route") ack drops with
        ⟨task, sent, posted⟩ | ⟨status, sent, failed, fails⟩
      · have counts := forwardEffects_counted (lit "ack") (lit "relayer_acks") ack ⟨.ok, []⟩
        have out : rel.forwardAck s.transport drops =
            ({ rel with
                pendingAcks := { rel.pendingAcks with q := rest }
                acksRelayed := rel.acksRelayed + 1 },
              { s.transport with tasks := s.transport.tasks ++ [task] },
              Relayer.forwardEffects (lit "ack") (lit "relayer_acks") ack ⟨.ok, []⟩) := by
          simp [Relayer.forwardAck, ConcurrentQueue.tryPop, hq, Relayer.relayAck, sent, Status.ok]
        rw [out, relayer_shown s r, set_same packets, counts]
        exact .relayedAck r drops ack rest task head posted
      · have counts := forwardEffects_counted (lit "ack") (lit "relayer_acks") ack status
        rw [failed] at counts
        have out : rel.forwardAck s.transport drops =
            ({ rel with
                pendingAcks := { rel.pendingAcks with q := rest }
                failures := rel.failures + 1 },
              s.transport, Relayer.forwardEffects (lit "ack") (lit "relayer_acks") ack status) := by
          simp [Relayer.forwardAck, ConcurrentQueue.tryPop, hq, Relayer.relayAck, sent, failed]
        rw [out, relayer_shown s r _ s.transport.tasks, set_same packets, counts]
        exact .failedAck r drops ack rest head fails

theorem onBytes_open {node : Node} {bytes : Bytes} {msg : NodeMessage} (isOpen : node.inbox.closed = false)
    (read : deserializeNodeMessage bytes = .ok msg) :
    node.onBytes bytes = ({ node with inbox := { node.inbox with q := node.inbox.q ++ [msg] } }, []) := by
  have pushed : (deserializeNodeMessage bytes >>= node.inbox.push) = node.inbox.push msg := by
    rw [read]
    rfl
  rw [Node.onBytes, pushed, ConcurrentQueue.push_open isOpen]

theorem node_shown (s : Sim) {n : ℕ} {node : SimNode} (moved : Node) (tasks : List (Bytes × Bytes))
    (effects : List Effect) :
    shown ({ s with
      transport := { s.transport with tasks := tasks }
      nodes := s.nodes.set n { node with node := moved } }, ⟨[], effects⟩) =
      ⟨s.chains, { traffic s with
        tasks := tasks
        inboxes := (traffic s).inboxes.set n moved.inbox.q }, [], counted effects⟩ := by
  simp only [shown, traffic, List.map_set]

/-- What holds in every state of a run that nothing forges into. -/
structure Genuine (w : Wiring) (s : Sim) (calls : Calls) : Prop where
  wired : wiring s = w
  ready : Ready s
  authentic : Authentic w (traffic s) calls
  receptive : Receptive s

section Steps
variable {w : Wiring} {s : Sim} {calls : Calls}

theorem deliver_move (genuine : Genuine w s calls) (k : ℕ) : Move s (.deliver k) (shown (s.deliver k)) := by
  unfold Sim.deliver
  cases hk : s.transport.tasks[k]? with
  | none => exact .still _
  | some task =>
    obtain ⟨msg, p, read, -, n, c, endpoint, home, -⟩ := genuine.authentic.tasks task (List.mem_of_getElem? hk)
    rw [← genuine.wired] at endpoint home
    have present : s.transport.endpoints task.1 = some n := endpoint
    obtain ⟨node, hn, -⟩ : ∃ node, s.nodes[n]? = some node ∧ node.chain = c := by
      simpa [wiring] using home
    have inbox : (traffic s).inboxes[n]? = some node.node.inbox.q := by simp [traffic, hn]
    have got := onBytes_open (genuine.receptive node (List.mem_of_getElem? hn)) read
    dsimp only
    rw [present]
    dsimp only
    rw [hn]
    dsimp only
    rw [got, node_shown]
    exact .delivered k n task _ msg hk endpoint inbox read

theorem nodeStep_move (sound : Sound w) (genuine : Genuine w s calls) (n : ℕ) :
    Move s (.nodeStep n) (shown (s.nodeStep n)) := by
  have here : Sound (wiring s) := by
    rw [genuine.wired]
    exact sound
  unfold Sim.nodeStep
  cases hn : s.nodes[n]? with
  | none => exact .still _
  | some node =>
    dsimp only
    cases hb : s.chains[node.chain]? with
    | none => exact .still _
    | some b =>
      have inbox : (traffic s).inboxes[n]? = some node.node.inbox.q := by simp [traffic, hn]
      have home : (wiring s).homes[n]? = some node.chain := by simp [wiring, hn]
      dsimp only
      have file : Files s n node.node.stateFileOpens := by simp [Files, hn]
      rcases loopStep_cases node.node b with ⟨msg, rest, -, hq, moved⟩ | ⟨point, moved, -⟩
      · have head : (traffic s).inboxes[n]? = some (msg :: rest) := by rw [inbox, hq]
        obtain ⟨p, carries, -⟩ := genuine.authentic.inboxes n _ head msg List.mem_cons_self
        have brings : Brings msg p := ⟨carries.kind, carries.read⟩
        have handles : handleMessage node.node.stateFileOpens node.node.nodeId b msg =
            handleIBC node.node.stateFileOpens node.node.nodeId b msg.bytes := by
          simp only [handleMessage, carries.kind]
        let popped : Node := { node.node with
          inbox := { node.node.inbox with q := rest }
          worker := .after (handleIBC node.node.stateFileOpens node.node.nodeId b msg.bytes).thrown }
        rw [moved]
        dsimp only
        rw [handles]
        rcases carries.type with data | ack
        · rw [handedPacket_shown here genuine.ready hn hb popped rfl brings data]
          exact .handedPacket n node.chain b msg rest p _ head home hb file brings data
        · rw [handedAck_shown here genuine.ready hn hb popped rfl brings ack]
          exact .handedAck n node.chain b msg rest p _ head home hb file brings ack
      · rw [moved]
        dsimp only
        rw [node_shown s { node.node with worker := point } s.transport.tasks, set_same inbox]
        exact .still _

theorem step_move (sound : Sound w) (genuine : Genuine w s calls) (i : SimInput) :
    Move s i (shown (simMachine.step s i)) := by
  have here : Sound (wiring s) := by
    rw [genuine.wired]
    exact sound
  change Move s i (shown (if s.crashed then (s, ⟨[], []⟩) else s.act i))
  split
  · exact .still i
  · cases i with
    | sendIBC c port chan dstChain dstPort dstChan payload => exact sendIBC_move here genuine.ready ..
    | forwardPacket r drops => exact forwardPacket_move here r drops
    | forwardAck r drops => exact forwardAck_move here r drops
    | deliver k => exact deliver_move genuine k
    | lose k => exact .lost k
    | duplicate k => exact .duplicated k
    | nodeStep n => exact nodeStep_move sound genuine n

end Steps

theorem publishAll_nodes (s : Sim) (effects : List Effect) : (s.publishAll effects).1.nodes = s.nodes := by
  refine publishAll_invariant (I := fun x => x.1.nodes = s.nodes) (fun e x h same => ?_) rfl
  cases h with
  | packetSend r =>
    rw [react_packetSend]
    exact same
  | ackSend r =>
    rw [react_ackSend]
    exact same

/-- What holds of every node, where a worker keeps it that takes from the inbox, and the
    transport that puts something in. -/
theorem nodes_set {s : Sim} {I : Node → Prop} (all : ∀ x ∈ s.nodes, I x.node) {n : ℕ} (node : SimNode) {moved : Node}
    (kept : I moved) : ∀ x ∈ s.nodes.set n { node with node := moved }, I x.node := by
  intro x hx
  rcases List.mem_or_eq_of_mem_set hx with old | rfl
  · exact all x old
  · exact kept

section Kept
variable {I : Node → Prop}
  (keeps : ∀ (node : Node) (q : List NodeMessage) (w : WorkerPoint), I node →
    I { node with inbox := { node.inbox with q := q }, worker := w })
include keeps

theorem nodeStep_nodes {s : Sim} (all : ∀ x ∈ s.nodes, I x.node) (n : ℕ) : ∀ x ∈ (s.nodeStep n).1.nodes, I x.node := by
  unfold Sim.nodeStep
  cases hn : s.nodes[n]? with
  | none => exact all
  | some node =>
    have here := all node (List.mem_of_getElem? hn)
    dsimp only
    cases hb : s.chains[node.chain]? with
    | none => exact all
    | some b =>
      dsimp only
      rcases loopStep_cases node.node b with ⟨msg, rest, -, -, moved⟩ | ⟨point, moved, -⟩
      · rw [moved]
        dsimp only [Sim.absorb]
        rw [publishAll_nodes]
        exact nodes_set all node (keeps _ _ _ here)
      · rw [moved]
        exact nodes_set all node (keeps _ node.node.inbox.q _ here)

theorem deliver_nodes {s : Sim} (all : ∀ x ∈ s.nodes, I x.node) (k : ℕ) : ∀ x ∈ (s.deliver k).1.nodes, I x.node := by
  unfold Sim.deliver
  cases s.transport.tasks[k]? with
  | none => exact all
  | some task =>
    dsimp only
    cases s.transport.endpoints task.1 with
    | none => exact all
    | some n =>
      dsimp only
      cases hn : s.nodes[n]? with
      | none => exact all
      | some node =>
        have here := all node (List.mem_of_getElem? hn)
        dsimp only
        rcases onBytes_cases node.node task.2 with ⟨msg, -, -, got⟩ | ⟨text, got⟩
        · rw [got]
          exact nodes_set all node (keeps _ _ node.node.worker here)
        · rw [got]
          exact nodes_set all node here

theorem step_nodes {s : Sim} (all : ∀ x ∈ s.nodes, I x.node) (i : SimInput) :
    ∀ x ∈ (simMachine.step s i).1.nodes, I x.node := by
  change ∀ x ∈ (if s.crashed then (s, ⟨[], []⟩) else s.act i).1.nodes, I x.node
  split
  · exact all
  · cases i with
    | sendIBC c port chan dstChain dstPort dstChan payload =>
      dsimp only [Sim.act, Sim.sendIBC]
      split
      · exact all
      · rw [Sim.absorb, publishAll_nodes]
        exact all
    | forwardPacket r drops =>
      dsimp only [Sim.act, Sim.forward]
      split <;> exact all
    | forwardAck r drops =>
      dsimp only [Sim.act, Sim.forward]
      split <;> exact all
    | deliver k => exact deliver_nodes keeps all k
    | lose k | duplicate k => exact all
    | nodeStep n => exact nodeStep_nodes keeps all n

end Kept

theorem step_receptive {s : Sim} (receptive : Receptive s) (i : SimInput) : Receptive (simMachine.step s i).1 :=
  step_nodes (I := fun node => node.inbox.closed = false) (fun _ _ _ isOpen => isOpen) receptive i

theorem genuine_start {s : Sim} (idle : Idle s) : Genuine (wiring s) s.start [] where
  wired := start_wiring s
  ready := start_ready idle
  authentic := authentic_quiet (start_quiet idle)
  receptive := by
    intro x hx
    obtain ⟨node, hnode, rfl⟩ := List.mem_map.mp hx
    have inbox : node.node.start.1.inbox = node.node.inbox := by
      unfold Node.start
      split <;> rfl
    change node.node.start.1.inbox.closed = false
    rw [inbox, idle.nodes node hnode]
    rfl

theorem genuine_step {w : Wiring} (sound : Sound w) {s : Sim} {calls : Calls} (genuine : Genuine w s calls)
    (i : SimInput) : Genuine w (simMachine.step s i).1 (calls ++ (simMachine.step s i).2.calls) := by
  have next := step_spec (by rw [genuine.wired]; exact sound) genuine.ready i
  have flow := next.flow
  rw [genuine.wired] at flow
  exact ⟨next.wiring.trans genuine.wired, next.ready, flow_authentic sound genuine.authentic flow,
    step_receptive genuine.receptive i⟩

/-- What the books of a run are kept in: what a state shows, beside the calls and the
    counters so far. -/
def soFar (s : Sim) (h : List (SimInput × SimOutput)) : Shown :=
  ⟨s.chains, traffic s, callsIn h, counted (effectsIn h)⟩

/-- The invariant rule over moves, for a run that goes on from a state with a history and
    whose inputs are all given under `P`. -/
theorem moves_from {w : Wiring} (sound : Sound w) {s : Sim} {h : List (SimInput × SimOutput)}
    (genuine : Genuine w s (callsIn h)) {P : Sim → List (SimInput × SimOutput) → SimInput → Prop} {I : Shown → Prop}
    {is : List SimInput} (guarded : simMachine.Guarded P s h is) (start : I (soFar s h))
    (step : ∀ t h i next, P t h i → Genuine w t (callsIn h) → I (soFar t h) → Move t i next →
      I ⟨next.chains, next.traffic, callsIn h ++ next.calls, counted (effectsIn h) ++ next.counters⟩) :
    let last := simMachine.final s is
    I (soFar last (h ++ simMachine.trace s is)) ∧ Genuine w last (callsIn (h ++ simMachine.trace s is)) := by
  intro last
  refine (simMachine.guarded_invariant_from (P := P) (I := fun t h => I (soFar t h) ∧ Genuine w t (callsIn h)) guarded
    ⟨start, genuine⟩ ?_)
  rintro t h i given ⟨inv, genuine⟩
  have move := step_move sound genuine i
  have calls : callsIn (h ++ [(i, (simMachine.step t i).2)]) = callsIn h ++ (simMachine.step t i).2.calls := by
    simp [callsIn]
  have effects : counted (effectsIn (h ++ [(i, (simMachine.step t i).2)])) =
      counted (effectsIn h) ++ counted (simMachine.step t i).2.effects := by
    simp [effectsIn]
  refine ⟨?_, ?_⟩
  · rw [soFar, calls, effects]
    exact step t h i _ given genuine inv move
  · rw [calls]
    exact genuine_step sound genuine i

theorem run_moves {s : Sim} (sound : Sound (wiring s)) (idle : Idle s)
    {P : Sim → List (SimInput × SimOutput) → SimInput → Prop} {I : Shown → Prop} {is : List SimInput}
    (guarded : simMachine.Guarded P s.start [] is) (start : Quiet (traffic s.start) → I (soFar s.start []))
    (step : ∀ t h i next, P t h i → Genuine (wiring s) t (callsIn h) → I (soFar t h) → Move t i next →
      I ⟨next.chains, next.traffic, callsIn h ++ next.calls, counted (effectsIn h) ++ next.counters⟩) :
    let last := simMachine.final s.start is
    I (soFar last (simMachine.trace s.start is)) ∧
      Genuine (wiring s) last (callsIn (simMachine.trace s.start is)) :=
  moves_from sound (genuine_start idle) guarded (start (start_quiet idle)) step

theorem Genuine.relayers {s₀ s : Sim} {calls : Calls} (genuine : Genuine (wiring s₀) s calls) :
    s.relayers.length = s₀.relayers.length :=
  relayers_of_wiring genuine.wired

end InterchainCommunication.SimulationMoves
