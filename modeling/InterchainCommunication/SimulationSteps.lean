import InterchainCommunication.EventDelivery
import InterchainCommunication.NodeSteps

set_option autoImplicit false

/-!
# How packets move in one step

A step keeps the wiring, and moves packets between the relayer queues, the tasks
in flight and the inboxes in one of a few ways. Invariants of a run are proved
over these moves.
-/
namespace InterchainCommunication.SimulationSteps
open ListUpdates StringText CoreTypes PacketCodec ChannelSequencing BlockchainModel BlockchainSteps ChainHistory
open QueueAndBus NodeModel NodeSteps RelayerModel SimulationModel SimulationWiring EventDelivery

def OwnIds (b : Blockchain) : Prop := ∀ key ch, b.channels key = some ch → ch.chainId = b.chainId

theorem OwnIds.resolve {b : Blockchain} (h : OwnIds b) (port : PortId) (chan : ChannelId) :
    (BlockchainSteps.resolve b port chan).chainId = b.chainId := by
  unfold BlockchainSteps.resolve
  cases hc : b.channels (makeChannelKey port chan) with
  | none => rfl
  | some ch => exact h _ ch hc

theorem written_chainId {b : Blockchain} (h : OwnIds b) {op : ChainOp} {ch : IBCChannel}
    (hw : written b op = some ch) : ch.chainId = b.chainId := by
  cases op with
  | openChannel port chan =>
    simp only [written] at hw
    split at hw
    · exact absurd hw (by simp)
    · rw [← Option.some.inj hw]
      exact h.resolve port chan
  | sendIBC port chan dstChain dstPort dstChan payload =>
    rw [← Option.some.inj hw]
    exact h.resolve port chan
  | onIBCPacket pkt =>
    have stored := Option.some.inj hw
    rw [← stored]
    split <;> exact h.resolve pkt.dstPort pkt.dstChannel
  | closeChannel | onIBCAck | appendBlock | registerNodeId | addTransaction | drain =>
    simp [written] at hw

theorem call_ownIds {b : Blockchain} (hb : AllOpen b) (h : OwnIds b) (op : ChainOp) :
    OwnIds (b.call op).chain := by
  intro key ch hch
  rw [call_chainId]
  cases hp : pair op with
  | none =>
    rw [(call_channels_none hp).1] at hch
    exact h key ch hch
  | some p =>
    rw [call_channels hb hp] at hch
    cases hw : written b op with
    | none =>
      rw [hw] at hch
      exact h key ch hch
    | some ch' =>
      rw [hw] at hch
      dsimp only at hch
      by_cases same : key = makeChannelKey p.1 p.2
      · rw [same, Function.update_self, Option.some.injEq] at hch
        rw [← hch]
        exact written_chainId h hw
      · rw [Function.update_of_ne same] at hch
        exact h key ch hch

theorem sentPacket_own {b : Blockchain} (hb : AllOpen b) (h : OwnIds b) {op : ChainOp} {pkt : IBCPacket}
    (sent : sentPacket (op, (b.call op).ret) = some pkt) : pkt.type = .data ∧ pkt.srcChain = b.chainId := by
  cases op with
  | sendIBC port chan dstChain dstPort dstChan payload =>
    rw [sentPacket_sendIBC hb, Option.some.injEq] at sent
    rw [← sent]
    exact ⟨rfl, h.resolve port chan⟩
  | openChannel | closeChannel | onIBCPacket | onIBCAck | appendBlock | registerNodeId | addTransaction
  | drain => simp [sentPacket] at sent

structure Ready (s : Sim) : Prop where
  chains : ∀ b ∈ s.chains, AllOpen b ∧ OwnIds b
  relayers : ∀ rel ∈ s.relayers, Listening rel

/-- The packets on their way: the queues of the relayers, the tasks of the transport and
    the inboxes of the nodes. -/
structure Traffic where
  packets : List (List IBCPacket)
  acks : List (List IBCPacket)
  tasks : List (Bytes × Bytes)
  inboxes : List (List NodeMessage)

def traffic (s : Sim) : Traffic where
  packets := s.relayers.map (·.pendingPackets.q)
  acks := s.relayers.map (·.pendingAcks.q)
  tasks := s.transport.tasks
  inboxes := s.nodes.map (·.node.inbox.q)

def Posted (w : Wiring) (r : ℕ) (pkt : IBCPacket) (task : Bytes × Bytes) : Prop :=
  ∃ rel, w.relayers[r]? = some rel ∧ rel.2 pkt.dstChain = some task.1 ∧
    task.2 = serializeNodeMessage ⟨rel.1, .ibc, serializeIBCPacket pkt⟩

/-- Who asked for a call: the sender, or a message at the head of an inbox. -/
inductive Asked (w : Wiring) (t : Traffic) (c : ℕ) : ChainOp → List (List NodeMessage) → Prop
  | sender (port : PortId) (chan : ChannelId) (dstChain : Bytes) (dstPort : PortId) (dstChan : ChannelId)
      (payload : Bytes) : Asked w t c (.sendIBC port chan dstChain dstPort dstChan payload) t.inboxes
  | message (n : ℕ) (msg : NodeMessage) (rest : List NodeMessage) (op : ChainOp)
      (head : t.inboxes[n]? = some (msg :: rest)) (home : w.homes[n]? = some c) (asks : Requests msg op) :
      Asked w t c op (t.inboxes.set n rest)

/-- All the ways a step can move packets, with the calls it makes on chains. -/
inductive Flow (w : Wiring) (t : Traffic) : SimInput → Traffic → List (ℕ × ChainOp × ChainReply) → Prop
  | still (i : SimInput) : Flow w t i t []
  | called (i : SimInput) (c : ℕ) (op : ChainOp) (reply : ChainReply) (inboxes : List (List NodeMessage))
      (asked : Asked w t c op inboxes)
      (own : ∀ pkt, sentPacket (op, reply) = some pkt → pkt.type = .data ∧ w.ids[c]? = some pkt.srcChain) :
      Flow w t i ⟨t.packets.map (· ++ (sentPacket (op, reply)).toList),
        t.acks.map (· ++ ((acceptedPacket (op, reply)).map ackOf).toList), t.tasks, inboxes⟩ [(c, op, reply)]
  | skipped (n : ℕ) (msg : NodeMessage) (rest : List NodeMessage)
      (head : t.inboxes[n]? = some (msg :: rest)) :
      Flow w t (.nodeStep n) { t with inboxes := t.inboxes.set n rest } []
  | forwardedPacket (r : ℕ) (drops : Drops) (pkt : IBCPacket) (rest : List IBCPacket)
      (task : Option (Bytes × Bytes)) (head : t.packets[r]? = some (pkt :: rest))
      (posted : ∀ x, task = some x → Posted w r pkt x) :
      Flow w t (.forwardPacket r drops)
        { t with packets := t.packets.set r rest, tasks := t.tasks ++ task.toList } []
  | forwardedAck (r : ℕ) (drops : Drops) (ack : IBCPacket) (rest : List IBCPacket)
      (task : Option (Bytes × Bytes)) (head : t.acks[r]? = some (ack :: rest))
      (posted : ∀ x, task = some x → Posted w r ack x) :
      Flow w t (.forwardAck r drops) { t with acks := t.acks.set r rest, tasks := t.tasks ++ task.toList } []
  | dropped (k : ℕ) : Flow w t (.deliver k) { t with tasks := t.tasks.eraseIdx k } []
  | delivered (k n : ℕ) (task : Bytes × Bytes) (q : List NodeMessage) (msg : NodeMessage)
      (sent : t.tasks[k]? = some task) (endpoint : w.endpoints task.1 = some n) (inbox : t.inboxes[n]? = some q)
      (read : deserializeNodeMessage task.2 = .ok msg) :
      Flow w t (.deliver k)
        { t with tasks := t.tasks.eraseIdx k, inboxes := t.inboxes.set n (q ++ [msg]) } []
  | lost (k : ℕ) : Flow w t (.lose k) { t with tasks := t.tasks.eraseIdx k } []
  | duplicated (k : ℕ) : Flow w t (.duplicate k) { t with tasks := t.tasks ++ (t.tasks[k]?).toList } []

/-- What every step owes: the wiring stays, the state stays ready, the packets move as
    described, and the two counters are incremented by the calls alone. -/
structure Step (s : Sim) (i : SimInput) (next : Sim × SimOutput) : Prop where
  wiring : SimulationWiring.wiring next.1 = SimulationWiring.wiring s
  ready : Ready next.1
  flow : Flow (SimulationWiring.wiring s) (traffic s) i (traffic next.1) next.2.calls
  counters : receivedCounters next.2.effects = next.2.calls.flatMap fun e => callCounters e.2

theorem step_still {s : Sim} (ready : Ready s) (i : SimInput) : Step s i (s, ⟨[], []⟩) :=
  ⟨rfl, ready, .still i, rfl⟩

theorem set_chainIds {s : Sim} {c : ℕ} {b : Blockchain} (hb : s.chains[c]? = some b) (op : ChainOp) :
    (s.chains.set c (b.call op).chain).map (·.chainId) = s.chains.map (·.chainId) := by
  rw [List.map_set, call_chainId]
  exact set_same (by rw [List.getElem?_map, hb]; rfl)

theorem absorb_call {s : Sim} (sound : Sound (wiring s)) (ready : Ready s) {c : ℕ} {b : Blockchain}
    (hb : s.chains[c]? = some b) (op : ChainOp) {effects : List Effect}
    (same : published effects = published (b.call op).effects) :
    let e := (op, (b.call op).ret)
    let next := s.absorb c (b.call op).chain [e] effects
    next.1 = { s with
        chains := s.chains.set c (b.call op).chain
        relayers := s.relayers.map fun rel =>
          queued rel (sentPacket e).toList ((acceptedPacket e).map ackOf).toList } ∧
      next.2.calls = [(c, e)] := by
  intro e next
  obtain ⟨hopen, hids⟩ := ready.chains b (List.mem_of_getElem? hb)
  let s₁ : Sim := { s with chains := s.chains.set c (b.call op).chain }
  have wired : wiring s₁ = wiring s :=
    congrArg (fun ids => { wiring s with ids := ids }) (set_chainIds hb op)
  have sound₁ : Sound (wiring s₁) := by
    rw [wired]
    exact sound
  have heard : ∀ rel ∈ s.relayers, hearAll rel (published effects) =
      queued rel (sentPacket e).toList ((acceptedPacket e).map ackOf).toList := by
    intro rel hrel
    rw [hearAll_relayed, same, call_published hopen op, ← hearAll_relayed]
    exact hearAll_packetEvents (ready.relayers rel hrel) _ _ fun pkt sent => (sentPacket_own hopen hids sent).1
  refine ⟨?_, rfl⟩
  have all := foldl_publish (s := (s₁, effects)) sound₁.subscribed (published effects)
  change ((published effects).foldl Sim.publish (s₁, effects)).1 = _
  rw [all]
  exact congrArg (fun relayers => { s₁ with relayers := relayers }) (List.map_congr_left heard)

theorem call_step {s : Sim} {i : SimInput} (sound : Sound (wiring s)) (ready : Ready s) {c : ℕ}
    {b : Blockchain} (hb : s.chains[c]? = some b) {op : ChainOp} {effects : List Effect}
    (same : published effects = published (b.call op).effects)
    (counts : receivedCounters effects = receivedCounters (b.call op).effects) (nodes : List SimNode)
    (homes : nodes.map (·.chain) = s.nodes.map (·.chain))
    (asked : Asked (wiring s) (traffic s) c op (nodes.map (·.node.inbox.q))) :
    Step s i ({ s with nodes := nodes }.absorb c (b.call op).chain [(op, (b.call op).ret)] effects) := by
  obtain ⟨hopen, hids⟩ := ready.chains b (List.mem_of_getElem? hb)
  let s' : Sim := { s with nodes := nodes }
  have wired : wiring s' = wiring s := congrArg (fun homes => { wiring s with homes := homes }) homes
  have ready' : Ready s' := ⟨ready.chains, ready.relayers⟩
  have home : s'.chains[c]? = some b := hb
  obtain ⟨next, calls⟩ := absorb_call (s := s') (by rw [wired]; exact sound) ready' home op same
  constructor
  · rw [next, ← wired]
    have ids := set_chainIds home op
    have posts : (s'.relayers.map fun rel => queued rel (sentPacket (op, (b.call op).ret)).toList
        ((acceptedPacket (op, (b.call op).ret)).map ackOf).toList).map (fun r => (r.name, r.chainAddr)) =
        s'.relayers.map fun r => (r.name, r.chainAddr) := by
      rw [List.map_map]
      rfl
    simp only [wiring]
    rw [ids, posts]
  · rw [next]
    constructor
    · intro b' hb'
      rcases List.mem_or_eq_of_mem_set hb' with old | rfl
      · exact ready'.chains b' old
      · exact ⟨call_allOpen hopen op, call_ownIds hopen hids op⟩
    · intro rel hrel
      obtain ⟨rel₀, hrel₀, rfl⟩ := List.mem_map.mp hrel
      exact ready'.relayers rel₀ hrel₀
  · rw [next, calls]
    have flow := Flow.called (w := wiring s) (t := traffic s) i c op (b.call op).ret _ asked fun pkt sent => by
      obtain ⟨data, src⟩ := sentPacket_own hopen hids sent
      refine ⟨data, ?_⟩
      rw [src]
      change (s.chains.map _)[c]? = _
      rw [List.getElem?_map, hb]
      rfl
    convert flow using 1
    simp only [traffic, List.map_map]
    rfl
  · rw [calls]
    change receivedCounters (Sim.publishAll _ effects).2 = _
    rw [publishAll_counters, counts, call_counters hopen]
    simp

theorem sendIBC_step {s : Sim} (sound : Sound (wiring s)) (ready : Ready s) (c : ℕ) (port : PortId)
    (chan : ChannelId) (dstChain : Bytes) (dstPort : PortId) (dstChan : ChannelId) (payload : Bytes) :
    Step s (.sendIBC c port chan dstChain dstPort dstChan payload)
      (s.sendIBC c (.sendIBC port chan dstChain dstPort dstChan payload)) := by
  unfold Sim.sendIBC
  cases hb : s.chains[c]? with
  | none => exact step_still ready _
  | some b => exact call_step sound ready hb rfl rfl s.nodes rfl (.sender _ _ _ _ _ _)

theorem homes_set {l : List SimNode} {n : ℕ} {node : SimNode} (h : l[n]? = some node) (moved : Node) :
    (l.set n { node with node := moved }).map (·.chain) = l.map (·.chain) := by
  rw [List.map_set]
  exact set_same (by rw [List.getElem?_map, h]; rfl)

theorem nodes_step {s : Sim} (ready : Ready s) {i : SimInput} {n : ℕ} {node : SimNode}
    (hn : s.nodes[n]? = some node) {moved : Node} {tasks : List (Bytes × Bytes)} {effects : List Effect}
    (uncounted : receivedCounters effects = [])
    (flow : Flow (wiring s) (traffic s) i
      { traffic s with tasks := tasks, inboxes := (traffic s).inboxes.set n moved.inbox.q } []) :
    Step s i ({ s with
      transport := { s.transport with tasks := tasks }
      nodes := s.nodes.set n { node with node := moved } }, ⟨[], effects⟩) := by
  constructor
  · exact congrArg (fun homes => { wiring s with homes := homes }) (homes_set hn moved)
  · exact ⟨ready.chains, ready.relayers⟩
  · convert flow using 1
    simp only [traffic, List.map_set]
  · exact uncounted

theorem nodeStep_step {s : Sim} (sound : Sound (wiring s)) (ready : Ready s) (n : ℕ) :
    Step s (.nodeStep n) (s.nodeStep n) := by
  unfold Sim.nodeStep
  cases hn : s.nodes[n]? with
  | none => exact step_still ready _
  | some node =>
    dsimp only
    cases hb : s.chains[node.chain]? with
    | none => exact step_still ready _
    | some b =>
      have inbox : (traffic s).inboxes[n]? = some node.node.inbox.q := by
        simp [traffic, hn]
      have home : (wiring s).homes[n]? = some node.chain := by
        simp [wiring, hn]
      dsimp only
      rcases loopStep_cases node.node b with ⟨msg, rest, -, hq, moved⟩ | ⟨w, moved, -⟩
      · have head : (traffic s).inboxes[n]? = some (msg :: rest) := by rw [inbox, hq]
        rw [moved]
        dsimp only
        rcases handleMessage_does node.node.stateFileOpens node.node.nodeId b msg with idle | ⟨op, asks, does⟩
        · have quiet (s' : Sim) (effects : List Effect) (nothing : published effects = []) :
              s'.absorb node.chain b [] effects =
                ({ s' with chains := s'.chains.set node.chain b }, ⟨[], effects⟩) := by
            simp only [Sim.absorb, Sim.publishAll, nothing]
            rfl
          rw [idle.chain, idle.calls, quiet _ _ idle.quiet]
          dsimp only
          rw [set_same hb]
          exact nodes_step ready hn idle.uncounted (.skipped n msg rest head)
        · rw [does.chain, does.calls]
          apply call_step sound ready hb does.same does.counts _ (homes_set hn _)
          have popped := Asked.message (c := node.chain) n msg rest op head home asks
          convert popped using 1
          simp only [List.map_set, traffic]
      · rw [moved]
        refine nodes_step ready hn rfl ?_
        rw [set_same inbox]
        exact .still _

theorem relayer_step {s : Sim} (ready : Ready s) {i : SimInput} {r : ℕ} {rel rel' : Relayer}
    (tasks : List (Bytes × Bytes)) (hr : s.relayers[r]? = some rel) (name : rel'.name = rel.name)
    (addr : rel'.chainAddr = rel.chainAddr) (listening : Listening rel') {effects : List Effect}
    (uncounted : receivedCounters effects = [])
    (flow : Flow (wiring s) (traffic s) i
      { traffic s with
        packets := (traffic s).packets.set r rel'.pendingPackets.q
        acks := (traffic s).acks.set r rel'.pendingAcks.q
        tasks := tasks } []) :
    Step s i ({ s with
      relayers := s.relayers.set r rel'
      transport := { s.transport with tasks := tasks } }, ⟨[], effects⟩) := by
  constructor
  · have posts : (s.relayers.set r rel').map (fun r => (r.name, r.chainAddr)) =
        s.relayers.map fun r => (r.name, r.chainAddr) := by
      rw [List.map_set, name, addr]
      exact set_same (by rw [List.getElem?_map, hr]; rfl)
    exact congrArg (fun posts => { wiring s with relayers := posts }) posts
  · refine ⟨ready.chains, fun x hx => ?_⟩
    rcases List.mem_or_eq_of_mem_set hx with old | rfl
    · exact ready.relayers x old
    · exact listening
  · convert flow using 1
    simp only [traffic, List.map_set]
  · exact uncounted

theorem forwardEffects_counters {noun counter : Bytes} (pkt : IBCPacket) (s : Status)
    (relayed : isReceived (counter ++ lit "_relayed") = false)
    (failed : isReceived (counter ++ lit "_failed") = false) :
    receivedCounters (Relayer.forwardEffects noun counter pkt s) = [] := by
  unfold Relayer.forwardEffects
  split
  · simp [receivedCounters, relayed]
  · simp [receivedCounters, failed]

theorem forwardPacket_step {s : Sim} (ready : Ready s) (r : ℕ) (drops : Drops) :
    Step s (.forwardPacket r drops) (s.forward r fun rel t => rel.forwardPacket t drops) := by
  unfold Sim.forward
  cases hr : s.relayers[r]? with
  | none => exact step_still ready _
  | some rel =>
    have listening := ready.relayers rel (List.mem_of_getElem? hr)
    have packets : (traffic s).packets[r]? = some rel.pendingPackets.q := by simp [traffic, hr]
    have acks : (traffic s).acks[r]? = some rel.pendingAcks.q := by simp [traffic, hr]
    dsimp only
    rcases rel.forwardPacket_cases s.transport drops with
      ⟨-, still⟩ | ⟨pkt, rest, task, relayed, failures, st, hq, posted, moved⟩
    · rw [still]
      refine relayer_step ready s.transport.tasks hr rfl rfl listening rfl ?_
      rw [set_same packets, set_same acks]
      exact .still _
    · have head : (traffic s).packets[r]? = some (pkt :: rest) := by rw [packets, hq]
      have flow := Flow.forwardedPacket (w := wiring s) r drops pkt rest task head fun x hx =>
        ⟨(rel.name, rel.chainAddr), by simp [wiring, hr], posted x hx⟩
      rw [moved]
      refine relayer_step ready _ hr ?_ ?_ ?_ ?_ ?_
      · rfl
      · rfl
      · exact listening
      · exact forwardEffects_counters _ _ (by decide) (by decide)
      · dsimp only
        rw [set_same acks]
        exact flow

theorem forwardAck_step {s : Sim} (ready : Ready s) (r : ℕ) (drops : Drops) :
    Step s (.forwardAck r drops) (s.forward r fun rel t => rel.forwardAck t drops) := by
  unfold Sim.forward
  cases hr : s.relayers[r]? with
  | none => exact step_still ready _
  | some rel =>
    have listening := ready.relayers rel (List.mem_of_getElem? hr)
    have packets : (traffic s).packets[r]? = some rel.pendingPackets.q := by simp [traffic, hr]
    have acks : (traffic s).acks[r]? = some rel.pendingAcks.q := by simp [traffic, hr]
    dsimp only
    rcases rel.forwardAck_cases s.transport drops with
      ⟨-, still⟩ | ⟨ack, rest, task, relayed, failures, st, hq, posted, moved⟩
    · rw [still]
      refine relayer_step ready s.transport.tasks hr rfl rfl listening rfl ?_
      rw [set_same packets, set_same acks]
      exact .still _
    · have head : (traffic s).acks[r]? = some (ack :: rest) := by rw [acks, hq]
      have flow := Flow.forwardedAck (w := wiring s) r drops ack rest task head fun x hx =>
        ⟨(rel.name, rel.chainAddr), by simp [wiring, hr], posted x hx⟩
      rw [moved]
      refine relayer_step ready _ hr ?_ ?_ ?_ ?_ ?_
      · rfl
      · rfl
      · exact listening
      · exact forwardEffects_counters _ _ (by decide) (by decide)
      · dsimp only
        rw [set_same packets]
        exact flow

theorem tasks_step {s : Sim} (ready : Ready s) {i : SimInput} {tasks : List (Bytes × Bytes)}
    (flow : Flow (wiring s) (traffic s) i { traffic s with tasks := tasks } []) :
    Step s i ({ s with transport := { s.transport with tasks := tasks } }, ⟨[], []⟩) :=
  ⟨rfl, ⟨ready.chains, ready.relayers⟩, flow, rfl⟩

theorem deliver_step {s : Sim} (ready : Ready s) (k : ℕ) : Step s (.deliver k) (s.deliver k) := by
  unfold Sim.deliver
  cases hk : s.transport.tasks[k]? with
  | none => exact step_still ready _
  | some task =>
    dsimp only
    cases hn : s.transport.endpoints task.1 with
    | none => exact tasks_step ready (.dropped k)
    | some n =>
      dsimp only
      cases hnode : s.nodes[n]? with
      | none => exact tasks_step ready (.dropped k)
      | some node =>
        have inbox : (traffic s).inboxes[n]? = some node.node.inbox.q := by simp [traffic, hnode]
        dsimp only
        rcases onBytes_cases node.node task.2 with ⟨msg, read, -, got⟩ | ⟨text, got⟩
        · rw [got]
          exact nodes_step ready hnode rfl (.delivered k n task node.node.inbox.q msg hk hn inbox read)
        · rw [got]
          refine nodes_step ready hnode rfl ?_
          rw [set_same inbox]
          exact .dropped k

theorem act_step {s : Sim} (sound : Sound (wiring s)) (ready : Ready s) (i : SimInput) : Step s i (s.act i) := by
  cases i with
  | sendIBC c port chan dstChain dstPort dstChan payload => exact sendIBC_step sound ready ..
  | forwardPacket r drops => exact forwardPacket_step ready r drops
  | forwardAck r drops => exact forwardAck_step ready r drops
  | deliver k => exact deliver_step ready k
  | lose k => exact tasks_step ready (.lost k)
  | duplicate k => exact tasks_step ready (.duplicated k)
  | nodeStep n => exact nodeStep_step sound ready n

theorem step_spec {s : Sim} (sound : Sound (wiring s)) (ready : Ready s) (i : SimInput) :
    Step s i (simMachine.step s i) := by
  change Step s i (if s.crashed then (s, ⟨[], []⟩) else s.act i)
  split
  · exact step_still ready i
  · exact act_step sound ready i

structure Quiet (t : Traffic) : Prop where
  packets : ∀ q ∈ t.packets, q = []
  acks : ∀ q ∈ t.acks, q = []
  tasks : t.tasks = []
  inboxes : ∀ q ∈ t.inboxes, q = []

theorem start_wiring (s : Sim) : wiring s.start = wiring s := by
  have homes : s.start.nodes.map (·.chain) = s.nodes.map (·.chain) := by
    simp [Sim.start]
  exact congrArg (fun homes => { wiring s with homes := homes }) homes

theorem start_ready {s : Sim} (idle : Idle s) : Ready s.start := by
  constructor
  · intro b hb
    have none := idle.chains b hb
    refine ⟨fun key ch hch => ?_, fun key ch hch => ?_⟩ <;>
    · rw [none key] at hch
      cases hch
  · intro rel hrel
    obtain ⟨packets, acks⟩ := idle.relayers rel hrel
    rw [Listening, packets, acks]
    exact ⟨rfl, rfl⟩

theorem start_quiet {s : Sim} (idle : Idle s) : Quiet (traffic s.start) := by
  constructor
  · intro q hq
    obtain ⟨rel, hrel, rfl⟩ := List.mem_map.mp hq
    rw [(idle.relayers rel hrel).1]
    rfl
  · intro q hq
    obtain ⟨rel, hrel, rfl⟩ := List.mem_map.mp hq
    rw [(idle.relayers rel hrel).2]
    rfl
  · exact idle.tasks
  · intro q hq
    obtain ⟨started, hstarted, rfl⟩ := List.mem_map.mp hq
    obtain ⟨n, hn, rfl⟩ := List.mem_map.mp hstarted
    have inbox : n.node.start.1.inbox = n.node.inbox := by
      unfold Node.start
      split <;> rfl
    change n.node.start.1.inbox.q = []
    rw [inbox, idle.nodes n hn]
    rfl

/-- The invariant rule for what is on its way, over the calls made so far. -/
theorem traffic_invariant {s : Sim} (sound : Sound (wiring s)) (idle : Idle s)
    {I : Traffic → List (ℕ × ChainOp × ChainReply) → Prop} (is : List SimInput)
    (start : Quiet (traffic s.start) → I (traffic s.start) [])
    (step : ∀ t calls i t' new, i ∈ is → I t calls → Flow (wiring s) t i t' new → I t' (calls ++ new)) :
    I (traffic (simMachine.final s.start is)) (callsIn (simMachine.trace s.start is)) ∧
      wiring (simMachine.final s.start is) = wiring s ∧ Ready (simMachine.final s.start is) := by
  refine simMachine.history_invariant
    (I := fun t h => I (traffic t) (callsIn h) ∧ wiring t = wiring s ∧ Ready t) is
    ⟨start (start_quiet idle), start_wiring s, start_ready idle⟩ ?_
  rintro t h i hi ⟨inv, wired, ready⟩
  have next := step_spec (by rw [wired]; exact sound) ready i
  refine ⟨?_, next.wiring.trans wired, next.ready⟩
  have calls : callsIn (h ++ [(i, (simMachine.step t i).2)]) = callsIn h ++ (simMachine.step t i).2.calls := by
    simp [callsIn]
  have flow := next.flow
  rw [wired] at flow
  rw [calls]
  exact step _ _ i _ _ hi inv flow

def effectsIn (t : List (SimInput × SimOutput)) : List Effect := t.flatMap fun e => e.2.effects

theorem run_counters {s : Sim} (sound : Sound (wiring s)) (idle : Idle s) (is : List SimInput) :
    receivedCounters (effectsIn (simMachine.trace s.start is)) =
      (callsIn (simMachine.trace s.start is)).flatMap fun e => callCounters e.2 := by
  have run := simMachine.history_invariant (I := fun t h => wiring t = wiring s ∧ Ready t ∧
    receivedCounters (effectsIn h) = (callsIn h).flatMap fun e => callCounters e.2) is
    ⟨start_wiring s, start_ready idle, rfl⟩ (by
      rintro t h i - ⟨wired, ready, counters⟩
      have next := step_spec (by rw [wired]; exact sound) ready i
      refine ⟨next.wiring.trans wired, next.ready, ?_⟩
      have effects : effectsIn (h ++ [(i, (simMachine.step t i).2)]) =
          effectsIn h ++ (simMachine.step t i).2.effects := by simp [effectsIn]
      have calls : callsIn (h ++ [(i, (simMachine.step t i).2)]) = callsIn h ++ (simMachine.step t i).2.calls := by
        simp [callsIn]
      rw [effects, calls, receivedCounters_append, List.flatMap_append, counters, next.counters])
  exact run.2.2

end InterchainCommunication.SimulationSteps
