import InterchainCommunication.GracefulStop
import InterchainCommunication.ListSums
import InterchainCommunication.MetricsLedger
import InterchainCommunication.PacketBroadcast

set_option autoImplicit false

namespace InterchainCommunication.StopRank
open ListUpdates ListSums StringText CoreTypes BlockchainModel BlockchainSteps ChainHistory NodeModel NodeSteps
open RelayerModel SimulationModel SimulationWiring WiringRuns EventDelivery PacketBroadcast SimulationSteps
open AckSoundness MetricsLedger PacketCodec QueueAndBus ComponentLife StopModel StopLedger StopPhases GracefulStop

/-- A relayer whose loop ends, or that has something to forward. -/
def Busy (loop : RelayerLoop) (rel : Relayer) : Prop :=
  loop.running = false ∨ rel.pendingPackets.q ≠ [] ∨ rel.pendingAcks.q ≠ []

/-- The step gets something done, and no client of the simulation makes it. A wait of the transport
    ends for a task. -/
def Effective (r : Stopping) (i : StopInput) : Prop :=
  r.sim.crashed = false ∧
    match i with
    | .sendIBC .. | .submit .. => False
    | .relayerStep k _ => ∃ loop rel, r.loops[k]? = some loop ∧ r.sim.relayers[k]? = some rel ∧
        (loop.worker = .atTest ∨ loop.worker = .atPackets ∨ loop.worker = .atAcks) ∧ Busy loop rel
    | .deliver k => k < r.sim.transport.tasks.length
    | .nodeStep n => ∃ node, r.sim.nodes[n]? = some node ∧ (node.node.worker = .atTest ∨
        node.node.worker = .atPop ∧ (node.node.inbox.q ≠ [] ∨ node.node.inbox.closed = true))
    | .workerStep w => r.workers[w]? = some .atTest ∧ (r.transportRuns = false ∨ r.sim.transport.tasks = []) ∨
        r.workers[w]? = some .aboutToWait
    | .wake w => r.workers[w]? = some .waiting ∧ r.sim.transport.tasks ≠ []
    | .stop => r.stop.point ≠ r.point

section Ranks
variable (more crew : ℕ)

/-- A packet that reaches a chain is worth `more`, for what the relayers may hear of it. -/
def messageRank (msg : NodeMessage) : ℕ := 2 + if bears .data msg then more else 0

def taskRank (task : Bytes × Bytes) : ℕ :=
  match deserializeNodeMessage task.2 with
  | .ok msg => 1 + messageRank more msg
  | .error _ => 1

/-- What is sent may wake each of the `crew` workers of the transport. -/
def itemRank (pkt : IBCPacket) : ℕ := 6 + 3 * crew + if pkt.type = .ack then 0 else more

/-- The steps of the loop to its next packet, or else to its next ack, or to its end. -/
def loopRank (loop : RelayerLoop) (packets : List IBCPacket) : ℕ :=
  match loop.worker with
  | .atTest => if loop.running ∧ packets = [] then 2 else 1
  | .atPackets => if loop.running then if packets = [] then 1 else 0 else 3
  | .atAcks => if loop.running ∧ packets = [] then 0 else 2
  | .idle | .returned => 0

def relayerRank (x : RelayerLoop × Relayer) : ℕ :=
  (x.2.pendingPackets.q.map (itemRank more crew)).sum + (x.2.pendingAcks.q.map (itemRank more crew)).sum +
    loopRank x.1 x.2.pendingPackets.q

def workerRank : WorkerPoint → ℕ
  | .atTest => 2
  | .atPop => 1
  | .idle | .returned | .terminated _ => 0

def nodeRank (node : SimNode) : ℕ :=
  (node.node.inbox.q.map (messageRank more)).sum + workerRank node.node.worker

/-- The steps of a worker of the transport to its wait, and out of it while there are tasks. -/
def transportRank (idle : Bool) : TransportPoint → ℕ
  | .atTest => 2
  | .aboutToWait => if idle then 1 else 4
  | .waiting => if idle then 0 else 3
  | .returned => 0

def crewRank (tasks : List (Bytes × Bytes)) (workers : List TransportPoint) : ℕ :=
  (workers.map (transportRank tasks.isEmpty)).sum

def callerRank : Caller → ℕ
  | .free => 3
  | .closing => 2
  | .closingAcks => 1
  | .joining => 0

def pointRank (relayers nodes : ℕ) : StopPoint → ℕ
  | .notCalled => 4 * nodes + 4 * relayers + (2 * crew + 14)
  | .traffic => 4 * nodes + 4 * relayers + (2 * crew + 13)
  | .relayer k c => 4 * nodes + (2 * crew + 9) + 4 * (relayers - k) + callerRank c
  | .node n c => 2 * crew + 5 + 4 * (nodes - n) + callerRank c
  | .draining => 2 * crew + 4
  | .shuttingDown => 2 * crew + 3
  | .notifying => 2 * crew + 2
  | .worker w => 1 + (crew - w)
  | .returned => 0

/-- A step of `stop` may clear the flag of a relayer, whose loop then has to end. -/
def rank (r : Stopping) : ℕ :=
  4 * pointRank r.workers.length r.loops.length r.sim.nodes.length r.point +
    ((r.loops.zip r.sim.relayers).map (relayerRank more r.workers.length)).sum +
    (r.sim.transport.tasks.map (taskRank more)).sum + (r.sim.nodes.map (nodeRank more)).sum +
    crewRank r.sim.transport.tasks r.workers

theorem taskRank_le (task : Bytes × Bytes) : taskRank more task ≤ 3 + more := by
  unfold taskRank messageRank
  split
  · split <;> omega
  · omega

theorem taskRank_posted {w : Wiring} (sound : Sound w) {k : ℕ} {pkt : IBCPacket} {task : Option (Bytes × Bytes)}
    (posted : ∀ x, task = some x → Posted w k pkt x) :
    (task.toList.map (taskRank more)).sum + 3 + 3 * crew ≤ itemRank more crew pkt := by
  cases task with
  | none =>
    simp only [Option.toList_none, List.map_nil, List.sum_nil, itemRank]
    omega
  | some x =>
    simp only [Option.toList_some, List.map_cons, List.map_nil, List.sum_cons, List.sum_nil, itemRank]
    by_cases ack : pkt.type = .ack
    · obtain ⟨msg, read, -⟩ := posted_read sound (posted x rfl)
      have light := taskBears_posted sound (.inr ack) (posted x rfl) .data
      rw [taskBears_read read, ack] at light
      have rank : taskRank more x = 3 := by simp [taskRank, read, messageRank, light]
      rw [if_pos ack]
      omega
    · have bound := taskRank_le more x
      rw [if_neg ack]
      omega

theorem crewRank_le (tasks tasks' : List (Bytes × Bytes)) (workers : List TransportPoint) :
    crewRank tasks' workers ≤ crewRank tasks workers + 3 * workers.length := by
  unfold crewRank
  induction workers with
  | nil => exact Nat.le_refl _
  | cons p workers ih =>
    have first : transportRank tasks'.isEmpty p ≤ transportRank tasks.isEmpty p + 3 := by
      cases p <;> cases tasks'.isEmpty <;> cases tasks.isEmpty <;> decide
    simp only [List.map_cons, List.sum_cons, List.length_cons]
    omega

theorem crewRank_fewer {tasks tasks' : List (Bytes × Bytes)} (some : tasks ≠ []) (workers : List TransportPoint) :
    crewRank tasks' workers ≤ crewRank tasks workers := by
  have busy : tasks.isEmpty = false := List.isEmpty_eq_false_iff.mpr some
  unfold crewRank
  rw [busy]
  induction workers with
  | nil => exact Nat.le_refl _
  | cons p workers ih =>
    have first : transportRank tasks'.isEmpty p ≤ transportRank false p := by
      cases p <;> cases tasks'.isEmpty <;> decide
    simp only [List.map_cons, List.sum_cons]
    omega

theorem crewRank_notified (tasks : List (Bytes × Bytes)) (workers : List TransportPoint) :
    crewRank tasks (workers.map TransportPoint.notified) ≤ crewRank tasks workers + 2 * workers.length := by
  unfold crewRank
  exact sum_map_le (fun p => by cases p <;> cases tasks.isEmpty <;> decide) workers

theorem loopRank_cleared (loop : RelayerLoop) (packets : List IBCPacket) :
    loopRank { loop with running := false } packets ≤ loopRank loop packets + 3 := by
  unfold loopRank
  cases loop.worker with
  | idle | returned => exact Nat.zero_le _
  | atTest | atPackets | atAcks => simp

end Ranks

structure Settled (w : Wiring) (r : Stopping) : Prop where
  kept : Kept r
  wired : wiring r.sim = w
  opened : ∀ b ∈ r.sim.chains, AllOpen b
  crewed : r.loops.length = r.sim.relayers.length

section Chains
variable {s : Sim}

theorem absorb_chains (c : ℕ) (b : Blockchain) (calls : List (ChainOp × ChainReply)) (effects : List Effect) :
    (s.absorb c b calls effects).1.chains = s.chains.set c b := by
  obtain ⟨relayers, same⟩ := publishAll_frame { s with chains := s.chains.set c b } effects
  exact congrArg Sim.chains same

theorem opened_set (opened : ∀ b ∈ s.chains, AllOpen b) {c : ℕ} {b : Blockchain} (fresh : AllOpen b) :
    ∀ b' ∈ s.chains.set c b, AllOpen b' := by
  intro b' member
  rcases List.mem_or_eq_of_mem_set member with old | rfl
  · exact opened b' old
  · exact fresh

theorem opened_sendIBC (opened : ∀ b ∈ s.chains, AllOpen b) (c : ℕ) (op : ChainOp) :
    ∀ b ∈ (s.sendIBC c op).1.chains, AllOpen b := by
  unfold Sim.sendIBC
  cases at_c : s.chains[c]? with
  | none => exact opened
  | some b =>
    dsimp only
    rw [absorb_chains]
    exact opened_set opened (call_allOpen (opened b (List.mem_of_getElem? at_c)) op)

theorem opened_submit (opened : ∀ b ∈ s.chains, AllOpen b) (n : ℕ) (tx : Transaction) (drop : Bool) :
    ∀ b ∈ (StopModel.submit s n tx drop).chains, AllOpen b := by
  unfold StopModel.submit
  split
  · exact opened
  · split
    · exact opened
    · rename_i b at_c
      exact opened_set opened (call_allOpen (opened b (List.mem_of_getElem? at_c)) (.addTransaction tx))

theorem opened_nodeStep (opened : ∀ b ∈ s.chains, AllOpen b) (n : ℕ) : ∀ b ∈ (s.nodeStep n).1.chains, AllOpen b := by
  unfold Sim.nodeStep
  cases at_n : s.nodes[n]? with
  | none => exact opened
  | some node =>
    dsimp only
    cases at_c : s.chains[node.chain]? with
    | none => exact opened
    | some b =>
      have before := opened b (List.mem_of_getElem? at_c)
      dsimp only
      rcases loopStep_cases node.node b with ⟨msg, rest, -, -, moved⟩ | ⟨w, moved, -⟩
      · rw [moved]
        dsimp only
        rw [absorb_chains]
        refine opened_set opened ?_
        rcases handleMessage_does node.node.stateFileOpens node.node.nodeId b msg with idle | ⟨op, -, does⟩
        · rw [idle.chain]
          exact before
        · rw [does.chain]
          exact call_allOpen before op
      · rw [moved]
        exact opened

end Chains

/-- A step outside the threads of `stop`, of the relayers and of the transport leaves those as they are. -/
structure Aside (r r' : Stopping) : Prop where
  loops : r'.loops = r.loops
  point : r'.point = r.point
  workers : r'.workers = r.workers
  runs : r'.transportRuns = r.transportRuns

theorem nodeStep_sim (r : Stopping) (n : ℕ) : (r.nodeStep n).sim = (r.sim.nodeStep n).1 ∧ Aside r (r.nodeStep n) := by
  unfold Stopping.nodeStep
  cases at_n : r.sim.nodes[n]? with
  | none =>
    refine ⟨?_, rfl, rfl, rfl, rfl⟩
    simp only [Sim.nodeStep, at_n]
  | some node =>
    dsimp only
    cases at_c : r.sim.chains[node.chain]? with
    | none =>
      refine ⟨?_, rfl, rfl, rfl, rfl⟩
      simp only [Sim.nodeStep, at_n, at_c]
    | some b =>
      dsimp only
      split
      · split <;> exact ⟨rfl, rfl, rfl, rfl, rfl⟩
      · exact ⟨rfl, rfl, rfl, rfl, rfl⟩

theorem deliver_sim {r : Stopping} (sized : Sized (ledger r)) (k : ℕ) :
    (r.deliver k).sim = (r.sim.deliver k).1 ∧ Aside r (r.deliver k) := by
  have lengths : r.taskNumbers.length = r.sim.transport.tasks.length := sized.tasks
  unfold Stopping.deliver
  cases at_k : r.sim.transport.tasks[k]? with
  | none =>
    refine ⟨?_, rfl, rfl, rfl, rfl⟩
    simp only [Sim.deliver, at_k]
  | some task =>
    have inside : k < r.taskNumbers.length := lengths ▸ (List.getElem?_eq_some_iff.mp at_k).1
    rw [List.getElem?_eq_getElem inside]
    dsimp only
    split <;> exact ⟨rfl, rfl, rfl, rfl, rfl⟩

section Steps
variable {w : Wiring} {r : Stopping}

theorem sends_workers (r : Stopping) (s : Sim) : (r.sends s).workers = r.workers := by
  unfold Stopping.sends
  split <;> rfl

theorem sends_runs (r : Stopping) (s : Sim) : (r.sends s).transportRuns = r.transportRuns := by
  unfold Stopping.sends
  split <;> rfl

theorem relayerStep_frame (r : Stopping) (k : ℕ) (drops : Drops) :
    (r.relayerStep k drops).sim.chains = r.sim.chains ∧ (r.relayerStep k drops).sim.nodes = r.sim.nodes ∧
      (r.relayerStep k drops).sim.relayers.length = r.sim.relayers.length ∧
      (r.relayerStep k drops).loops.length = r.loops.length ∧
      (r.relayerStep k drops).workers = r.workers ∧ (r.relayerStep k drops).transportRuns = r.transportRuns := by
  have forward (half : Relayer → Transport → Relayer × Transport × List Effect) :
      (r.sim.forward k half).1.chains = r.sim.chains ∧ (r.sim.forward k half).1.nodes = r.sim.nodes ∧
        (r.sim.forward k half).1.relayers.length = r.sim.relayers.length := by
    unfold Sim.forward
    split
    · exact ⟨rfl, rfl, rfl⟩
    · exact ⟨rfl, rfl, List.length_set⟩
  unfold Stopping.relayerStep
  split
  · exact ⟨rfl, rfl, rfl, rfl, rfl, rfl⟩
  · split
    · exact ⟨rfl, rfl, rfl, List.length_set, rfl, rfl⟩
    · obtain ⟨chains, nodes, relayers⟩ := forward fun rel t => rel.forwardPacket t drops
      simp only [sends_sim]
      exact ⟨chains, nodes, relayers, List.length_set, sends_workers r _, sends_runs r _⟩
    · obtain ⟨chains, nodes, relayers⟩ := forward fun rel t => rel.forwardAck t drops
      simp only [sends_sim]
      exact ⟨chains, nodes, relayers, List.length_set, sends_workers r _, sends_runs r _⟩
    · exact ⟨rfl, rfl, rfl, rfl, rfl, rfl⟩
    · exact ⟨rfl, rfl, rfl, rfl, rfl, rfl⟩

theorem stop_frame (r : Stopping) : r.stop.sim.chains = r.sim.chains ∧ r.stop.sim.transport = r.sim.transport ∧
    r.stop.sim.relayers.length = r.sim.relayers.length := by
  have moved := stop_cases r
  generalize r.stop = r' at moved ⊢
  cases moved with
  | called | goes | node => exact ⟨rfl, rfl, rfl⟩
  | relayer => exact ⟨rfl, rfl, List.length_modify ..⟩

/-- Every step of `stop` with what it found. -/
inductive Advance (r : Stopping) : Stopping → Prop
  | waits : Advance r r
  | called (here : r.point = .notCalled) : Advance r { r with point := .traffic, sentBefore := some r.sent }
  | joinedTraffic (here : r.point = .traffic) : Advance r { r with point := .relayer 0 .free }
  | clearedRelayer (k : ℕ) (loop : RelayerLoop) (here : r.point = .relayer k .free) (at_k : r.loops[k]? = some loop) :
      Advance r { r with loops := r.loops.set k { loop with running := false }, point := .relayer k .closing }
  | passedRelayer (k : ℕ) (loop : RelayerLoop) (here : r.point = .relayer k .free) (at_k : r.loops[k]? = some loop)
      (down : loop.running = false) : Advance r { r with point := .relayer (k + 1) .free }
  | pastRelayers (k : ℕ) (here : r.point = .relayer k .free) (none : r.loops[k]? = none) :
      Advance r { r with point := .node 0 .free }
  | closedPackets (k : ℕ) (here : r.point = .relayer k .closing) :
      Advance r { r.moveRelayer k Relayer.closePackets with point := .relayer k .closingAcks }
  | closedAcks (k : ℕ) (here : r.point = .relayer k .closingAcks) :
      Advance r { r.moveRelayer k Relayer.closeAcks with point := .relayer k .joining }
  | joinedRelayer (k : ℕ) (loop : RelayerLoop) (here : r.point = .relayer k .joining) (at_k : r.loops[k]? = some loop)
      (returned : loop.worker = .returned) : Advance r { r with point := .relayer (k + 1) .free }
  | clearedNode (n : ℕ) (node : SimNode) (here : r.point = .node n .free) (at_n : r.sim.nodes[n]? = some node) :
      Advance r { r.moveNode n Node.clearRunning with point := .node n .closing }
  | passedNode (n : ℕ) (node : SimNode) (here : r.point = .node n .free) (at_n : r.sim.nodes[n]? = some node)
      (down : node.node.running = false) : Advance r { r with point := .node (n + 1) .free }
  | pastNodes (n : ℕ) (here : r.point = .node n .free) (none : r.sim.nodes[n]? = none) :
      Advance r { r with point := .draining }
  | closedNode (n : ℕ) (here : r.point = .node n .closing) :
      Advance r { r.moveNode n Node.closeInbox with point := .node n .joining }
  | joinedNode (n : ℕ) (node : SimNode) (here : r.point = .node n .joining) (at_n : r.sim.nodes[n]? = some node)
      (returned : node.node.worker = .returned) : Advance r { r with point := .node (n + 1) .free }
  | drained (here : r.point = .draining) (empty : r.sim.transport.tasks = []) :
      Advance r { r with point := .shuttingDown }
  | clearedFlag (here : r.point = .shuttingDown) : Advance r { r with transportRuns := false, point := .notifying }
  | notified (here : r.point = .notifying) :
      Advance r { r with workers := r.workers.map TransportPoint.notified, point := .worker 0 }
  | joinedWorker (w : ℕ) (here : r.point = .worker w) (at_w : r.workers[w]? = some .returned) :
      Advance r { r with point := .worker (w + 1) }
  | pastWorkers (w : ℕ) (here : r.point = .worker w) (none : r.workers[w]? = none) :
      Advance r { r with point := .returned }

theorem stop_advances (r : Stopping) : Advance r r.stop := by
  cases here : r.point with
  | notCalled =>
    simp only [Stopping.stop, here]
    exact .called here
  | traffic =>
    simp only [Stopping.stop, here]
    exact .joinedTraffic here
  | relayer k c =>
    cases c with
    | free =>
      cases at_k : r.loops[k]? with
      | none =>
        simp only [Stopping.stop, here, at_k]
        exact .pastRelayers k here at_k
      | some loop =>
        simp only [Stopping.stop, here, at_k]
        split
        · exact .clearedRelayer k loop here at_k
        · rename_i down
          exact .passedRelayer k loop here at_k (Bool.eq_false_iff.mpr down)
    | closing =>
      simp only [Stopping.stop, here]
      exact .closedPackets k here
    | closingAcks =>
      simp only [Stopping.stop, here]
      exact .closedAcks k here
    | joining =>
      cases at_k : r.loops[k]? with
      | none =>
        simp only [Stopping.stop, here, at_k]
        exact .waits
      | some loop =>
        simp only [Stopping.stop, here, at_k]
        split
        · rename_i returned
          exact .joinedRelayer k loop here at_k returned
        · exact .waits
  | node n c =>
    cases c with
    | free =>
      cases at_n : r.sim.nodes[n]? with
      | none =>
        simp only [Stopping.stop, here, at_n]
        exact .pastNodes n here at_n
      | some node =>
        simp only [Stopping.stop, here, at_n]
        split
        · exact .clearedNode n node here at_n
        · rename_i down
          exact .passedNode n node here at_n (Bool.eq_false_iff.mpr down)
    | closing =>
      simp only [Stopping.stop, here]
      exact .closedNode n here
    | closingAcks =>
      simp only [Stopping.stop, here]
      exact .waits
    | joining =>
      cases at_n : r.sim.nodes[n]? with
      | none =>
        simp only [Stopping.stop, here, at_n]
        exact .waits
      | some node =>
        simp only [Stopping.stop, here, at_n]
        split
        · rename_i returned
          exact .joinedNode n node here at_n returned
        · exact .waits
  | draining =>
    simp only [Stopping.stop, here]
    split
    · rename_i empty
      exact .drained here empty
    · exact .waits
  | shuttingDown =>
    simp only [Stopping.stop, here]
    exact .clearedFlag here
  | notifying =>
    simp only [Stopping.stop, here]
    exact .notified here
  | worker w =>
    cases at_w : r.workers[w]? with
    | none =>
      simp only [Stopping.stop, here, at_w]
      exact .pastWorkers w here at_w
    | some p =>
      simp only [Stopping.stop, here, at_w]
      split
      · rename_i returned
        exact .joinedWorker w here (at_w.trans (congrArg some returned))
      · exact .waits
  | returned =>
    simp only [Stopping.stop, here]
    exact .waits

theorem opened_act (sized : Sized (ledger r)) (opened : ∀ b ∈ r.sim.chains, AllOpen b) (i : StopInput) :
    ∀ b ∈ (r.act i).sim.chains, AllOpen b := by
  cases i with
  | sendIBC c port chan dstChain dstPort dstChan payload =>
    simp only [Stopping.act]
    split
    · exact opened_sendIBC opened c _
    · exact opened
  | submit n tx drop =>
    simp only [Stopping.act]
    split
    · rw [sends_sim]
      exact opened_submit opened n tx drop
    · exact opened
  | relayerStep k drops =>
    change ∀ b ∈ (r.relayerStep k drops).sim.chains, AllOpen b
    rw [(relayerStep_frame r k drops).1]
    exact opened
  | deliver k =>
    change ∀ b ∈ (r.deliver k).sim.chains, AllOpen b
    rw [(deliver_sim sized k).1, chains_deliver]
    exact opened
  | workerStep w =>
    obtain ⟨workers, moved⟩ := workerStep_frame r w
    simp only [Stopping.act, moved]
    exact opened
  | wake w =>
    obtain ⟨workers, moved⟩ := wake_frame r w
    simp only [Stopping.act, moved]
    exact opened
  | nodeStep n =>
    change ∀ b ∈ (r.nodeStep n).sim.chains, AllOpen b
    rw [(nodeStep_sim r n).1]
    exact opened_nodeStep opened n
  | stop =>
    change ∀ b ∈ r.stop.sim.chains, AllOpen b
    rw [(stop_frame r).1]
    exact opened

theorem length_loops_stop (r : Stopping) : r.stop.loops.length = r.loops.length := by
  have advance := stop_advances r
  generalize r.stop = r' at advance ⊢
  cases advance with
  | clearedRelayer => exact List.length_set
  | waits | called | joinedTraffic | passedRelayer | pastRelayers | closedPackets | closedAcks | joinedRelayer
  | clearedNode | passedNode | pastNodes | closedNode | joinedNode | drained | clearedFlag | notified
  | joinedWorker | pastWorkers => rfl

theorem length_loops_act (sized : Sized (ledger r)) (i : StopInput) : (r.act i).loops.length = r.loops.length := by
  cases i with
  | sendIBC c port chan dstChain dstPort dstChan payload =>
    simp only [Stopping.act]
    split <;> rfl
  | submit n tx drop =>
    simp only [Stopping.act]
    split
    · unfold Stopping.sends
      split <;> rfl
    · rfl
  | relayerStep k drops => exact (relayerStep_frame r k drops).2.2.2.1
  | deliver k => exact congrArg List.length (deliver_sim sized k).2.loops
  | nodeStep n => exact congrArg List.length (nodeStep_sim r n).2.loops
  | workerStep w =>
    obtain ⟨workers, moved⟩ := workerStep_frame r w
    simp only [Stopping.act, moved]
  | wake w =>
    obtain ⟨workers, moved⟩ := wake_frame r w
    simp only [Stopping.act, moved]
  | stop => exact length_loops_stop r

theorem settled_act (h : Settled w r) (i : StopInput) : Settled w (r.act i) := by
  have sized := h.kept.booked.sized
  refine ⟨kept_act h.kept i, (wiring_act r i).trans h.wired, opened_act sized h.opened i, ?_⟩
  rw [length_loops_act sized i, relayers_of_wiring (wiring_act r i)]
  exact h.crewed

end Steps

section Falls
variable {w : Wiring} {r r' : Stopping} {more : ℕ}

structure Worked (r r' : Stopping) (k : ℕ) (loop' : RelayerLoop) (rel' : Relayer) (task : Option (Bytes × Bytes)) :
    Prop where
  loops : r'.loops = r.loops.set k loop'
  relayers : r'.sim.relayers = r.sim.relayers.set k rel'
  tasks : r'.sim.transport.tasks = r.sim.transport.tasks ++ task.toList
  nodes : r'.sim.nodes = r.sim.nodes
  point : r'.point = r.point
  workers : r'.workers = r.workers

theorem Worked.rank {k : ℕ} {loop loop' : RelayerLoop} {rel rel' : Relayer} {task : Option (Bytes × Bytes)}
    (worked : Worked r r' k loop' rel' task) (at_k : r.loops[k]? = some loop) (at_rel : r.sim.relayers[k]? = some rel)
    (more : ℕ) : rank more r' + relayerRank more r.workers.length (loop, rel) +
        crewRank r.sim.transport.tasks r.workers =
      rank more r + relayerRank more r.workers.length (loop', rel') + (task.toList.map (taskRank more)).sum +
        crewRank (r.sim.transport.tasks ++ task.toList) r.workers := by
  have there : (r.loops.zip r.sim.relayers)[k]? = some (loop, rel) := List.getElem?_zip_eq_some.mpr ⟨at_k, at_rel⟩
  have moved := sum_set (f := relayerRank more r.workers.length) there (loop', rel')
  simp only [StopRank.rank, worked.loops, worked.relayers, worked.tasks, worked.nodes, worked.point, worked.workers, zip_set,
    List.length_set, List.map_append, List.sum_append]
  omega

theorem posts_posted {s : Sim} {k : ℕ} {rel : Relayer} (at_k : s.relayers[k]? = some rel) {pkt : IBCPacket}
    {task : Option (Bytes × Bytes)} (posts : rel.Posts pkt task) : ∀ x, task = some x → Posted (wiring s) k pkt x := by
  intro x same
  refine ⟨(rel.name, rel.chainAddr), ?_, (posts x same).1, (posts x same).2⟩
  rw [wiring, List.getElem?_map, at_k]
  rfl

theorem loopRank_test {loop : RelayerLoop} (test : loop.worker = .atTest) (packets : List IBCPacket) :
    loopRank { loop with worker := if loop.running then .atPackets else .returned } packets < loopRank loop packets := by
  obtain ⟨running, worker⟩ := loop
  subst test
  cases running with
  | false => simp [loopRank]
  | true => cases packets <;> simp [loopRank]

theorem loopRank_packets {loop : RelayerLoop} (here : loop.worker = .atPackets) :
    loopRank { loop with worker := .atAcks } [] < loopRank loop [] := by
  obtain ⟨running, worker⟩ := loop
  subst here
  cases running <;> simp [loopRank]

theorem loopRank_acks {loop : RelayerLoop} (here : loop.worker = .atAcks) {packets : List IBCPacket}
    (busy : loop.running = false ∨ packets ≠ []) :
    loopRank { loop with worker := .atTest } packets < loopRank loop packets := by
  obtain ⟨running, worker⟩ := loop
  subst here
  cases running with
  | false => simp [loopRank]
  | true => cases packets <;> simp_all [loopRank]

theorem loopRank_le (loop : RelayerLoop) (packets : List IBCPacket) :
    loopRank { loop with worker := .atAcks } packets ≤ 2 ∧ loopRank { loop with worker := .atTest } packets ≤ 2 := by
  simp only [loopRank]
  constructor <;> split <;> omega

theorem relayer_falls (sound : Sound w) (h : Settled w r) {k : ℕ} {drops : Drops}
    (effective : Effective r (.relayerStep k drops)) (more : ℕ) : rank more (r.relayerStep k drops) < rank more r := by
  obtain ⟨-, loop, rel, at_k, at_rel, point, busy⟩ := effective
  have sound : Sound (wiring r.sim) := h.wired ▸ sound
  rcases point with test | packets | acks
  · have worked : Worked r (r.relayerStep k drops) k
        { loop with worker := if loop.running then .atPackets else .returned } rel none := by
      constructor <;> simp only [Stopping.relayerStep, at_k, test, Option.toList_none, List.append_nil]
      exact (set_same at_rel).symm
    have moved := worked.rank at_k at_rel more
    have nearer := loopRank_test test rel.pendingPackets.q
    simp only [relayerRank, Option.toList_none, List.append_nil, List.map_nil, List.sum_nil] at moved
    omega
  · rcases rel.forwardPacket_cases r.sim.transport drops with
      ⟨empty, still⟩ | ⟨pkt, rest, task, relayed, failures, s, head, posts, moves⟩
    · have worked : Worked r (r.relayerStep k drops) k { loop with worker := .atAcks } rel none := by
        constructor <;> simp only [Stopping.relayerStep, at_k, packets, sends_sim, sends_point, sends_workers, Sim.forward, at_rel,
          still, Option.toList_none, List.append_nil]
      have moved := worked.rank at_k at_rel more
      have nearer := loopRank_packets packets
      simp only [relayerRank, empty, Option.toList_none, List.append_nil, List.map_nil, List.sum_nil] at moved
      omega
    · have worked : Worked r (r.relayerStep k drops) k { loop with worker := .atAcks }
          { rel with
            pendingPackets := { rel.pendingPackets with q := rest }
            packetsRelayed := relayed
            failures := failures } task := by
        constructor <;> simp only [Stopping.relayerStep, at_k, packets, sends_sim, sends_point, sends_workers, Sim.forward, at_rel, moves]
      have moved := worked.rank at_k at_rel more
      have lighter := taskRank_posted more r.workers.length sound (posts_posted at_rel posts)
      have wakes := crewRank_le r.sim.transport.tasks (r.sim.transport.tasks ++ task.toList) r.workers
      have low := (loopRank_le loop rest).1
      simp only [relayerRank, head, List.map_cons, List.sum_cons] at moved
      omega
  · rcases rel.forwardAck_cases r.sim.transport drops with
      ⟨empty, still⟩ | ⟨ack, rest, task, relayed, failures, s, head, posts, moves⟩
    · have worked : Worked r (r.relayerStep k drops) k { loop with worker := .atTest } rel none := by
        constructor <;> simp only [Stopping.relayerStep, at_k, acks, sends_sim, sends_point, sends_workers, Sim.forward, at_rel,
          still, Option.toList_none, List.append_nil]
      have moved := worked.rank at_k at_rel more
      have busy : loop.running = false ∨ rel.pendingPackets.q ≠ [] := by
        rcases busy with down | packets | some
        · exact .inl down
        · exact .inr packets
        · exact absurd empty some
      have nearer := loopRank_acks acks busy
      simp only [relayerRank, Option.toList_none, List.append_nil, List.map_nil, List.sum_nil] at moved
      omega
    · have worked : Worked r (r.relayerStep k drops) k { loop with worker := .atTest }
          { rel with
            pendingAcks := { rel.pendingAcks with q := rest }
            acksRelayed := relayed
            failures := failures } task := by
        constructor <;> simp only [Stopping.relayerStep, at_k, acks, sends_sim, sends_point, sends_workers, Sim.forward, at_rel, moves]
      have moved := worked.rank at_k at_rel more
      have lighter := taskRank_posted more r.workers.length sound (posts_posted at_rel posts)
      have wakes := crewRank_le r.sim.transport.tasks (r.sim.transport.tasks ++ task.toList) r.workers
      have low := (loopRank_le loop rel.pendingPackets.q).2
      simp only [relayerRank, head, List.map_cons, List.sum_cons] at moved
      omega

theorem nodes_put {l : List SimNode} {n : ℕ} {node : SimNode} (at_n : l[n]? = some node) (moved : Node) (more : ℕ) :
    ((l.set n { node with node := moved }).map (nodeRank more)).sum + nodeRank more node =
      (l.map (nodeRank more)).sum + ((moved.inbox.q.map (messageRank more)).sum + workerRank moved.worker) :=
  sum_set at_n _

theorem deliver_falls (h : Settled w r) {k : ℕ} (effective : Effective r (.deliver k)) (more : ℕ) :
    rank more (r.deliver k) < rank more r := by
  obtain ⟨-, inside⟩ := effective
  obtain ⟨sim, loops, point, workers, -⟩ := deliver_sim h.kept.booked.sized k
  have busy : r.sim.transport.tasks ≠ [] := List.ne_nil_of_length_pos (Nat.zero_lt_of_lt inside)
  have at_k : r.sim.transport.tasks[k]? = some r.sim.transport.tasks[k] := List.getElem?_eq_getElem inside
  generalize r.sim.transport.tasks[k] = task at at_k
  have taken := sum_eraseIdx (f := taskRank more) at_k
  have positive : 1 ≤ taskRank more task := by
    unfold taskRank
    split <;> omega
  have left : (r.sim.deliver k).1.relayers = r.sim.relayers ∧
      (r.sim.deliver k).1.transport.tasks = r.sim.transport.tasks.eraseIdx k ∧
      ((r.sim.deliver k).1.nodes.map (nodeRank more)).sum + 1 ≤
        (r.sim.nodes.map (nodeRank more)).sum + taskRank more task ∧
      (r.sim.deliver k).1.nodes.length = r.sim.nodes.length := by
    unfold Sim.deliver
    simp only [at_k]
    split
    · exact ⟨rfl, rfl, Nat.add_le_add_left positive _, rfl⟩
    · split
      · exact ⟨rfl, rfl, Nat.add_le_add_left positive _, rfl⟩
      · rename_i node at_n
        refine ⟨rfl, rfl, ?_, List.length_set⟩
        have put := nodes_put at_n (node.node.onBytes task.2).1 more
        rcases onBytes_cases node.node task.2 with ⟨msg, read, -, got⟩ | ⟨text, got⟩
        · have worth : taskRank more task = 1 + messageRank more msg := by rw [taskRank, read]
          simp only [got, nodeRank, List.map_append, List.sum_append, List.map_cons, List.map_nil, List.sum_cons,
            List.sum_nil] at put ⊢
          omega
        · simp only [got, nodeRank] at put ⊢
          omega
  obtain ⟨relayers, tasks, nodes, count⟩ := left
  have wakes := @crewRank_fewer _ (r.sim.transport.tasks.eraseIdx k) busy r.workers
  simp only [rank, sim, loops, point, workers, relayers, tasks, count]
  omega

theorem hear_ackEvent_acks (rel : Relayer) (chainId : Bytes) (pkt : IBCPacket) :
    (hear rel (ackEvent chainId pkt)).pendingAcks.q = rel.pendingAcks.q ∨
      (hear rel (ackEvent chainId pkt)).pendingAcks.q = rel.pendingAcks.q ++ [ackOf pkt] := by
  have here : hear rel (ackEvent chainId pkt) = (rel.onIBCAckSendEvent (ackEvent chainId pkt)).1 := rfl
  have read : deserializeIBCPacket (ackEvent chainId pkt).detail = .ok (ackOf pkt) :=
    deserialize_serialize (ackOf pkt) (stoi_type (.inr rfl))
  have ack : (ackOf pkt).type = .ack := rfl
  rw [here]
  simp only [Relayer.onIBCAckSendEvent, read, ack, if_true]
  cases closed : rel.pendingAcks.closed with
  | true =>
    left
    simp [ConcurrentQueue.push, closed]
  | false =>
    right
    rw [ConcurrentQueue.push_open closed]

/-- What a relayer hears of a handled message is at most one ack, and that for a packet. -/
theorem hears_ack (opens : Bool) (nodeId : Bytes) {b : Blockchain} (opened : AllOpen b) (msg : NodeMessage)
    (rel : Relayer) :
    let done := handleMessage opens nodeId b msg
    (hearAll rel (published done.effects)).pendingPackets = rel.pendingPackets ∧
      ((hearAll rel (published done.effects)).pendingAcks.q = rel.pendingAcks.q ∨
        bears .data msg = true ∧ ∃ ack, ack.type = .ack ∧
          (hearAll rel (published done.effects)).pendingAcks.q = rel.pendingAcks.q ++ [ack]) := by
  dsimp only
  rcases handleMessage_does opens nodeId b msg with idle | ⟨op, asks, does⟩
  · rw [idle.quiet]
    exact ⟨rfl, .inl rfl⟩
  · rw [does.same, hearAll_relayed, call_published opened op, ← hearAll_relayed]
    generalize (b.call op).ret = ret
    have unsent : sentPacket (op, ret) = none := by
      cases op with
      | sendIBC => exact absurd asks id
      | openChannel | closeChannel | onIBCPacket | onIBCAck | appendBlock | registerNodeId | addTransaction | drain => rfl
    cases accepted : acceptedPacket (op, ret) with
    | none =>
      have deaf : hearAll rel (packetEvents b.chainId (op, ret)) = rel := by
        simp only [packetEvents, unsent, accepted]
        rfl
      rw [deaf]
      exact ⟨rfl, .inl rfl⟩
    | some pkt =>
      have one : hearAll rel (packetEvents b.chainId (op, ret)) = hear rel (ackEvent b.chainId pkt) := by
        simp only [packetEvents, unsent, accepted]
        rfl
      obtain rfl := acceptedPacket_op accepted
      obtain ⟨kind, read, type⟩ := asks
      have heavy : bears .data msg = true := by simp [bears, kind, read, type]
      rw [one]
      refine ⟨hear_ackEvent_packets rel b.chainId pkt, ?_⟩
      rcases hear_ackEvent_acks rel b.chainId pkt with same | added
      · exact .inl same
      · exact .inr ⟨heavy, ackOf pkt, rfl, added⟩

theorem heard_rank (loops : List RelayerLoop) (relayers : List Relayer) {hear : Relayer → Relayer} {c more crew : ℕ}
    (each : ∀ loop rel, relayerRank more crew (loop, hear rel) ≤ relayerRank more crew (loop, rel) + c) :
    ((loops.zip (relayers.map hear)).map (relayerRank more crew)).sum ≤
      ((loops.zip relayers).map (relayerRank more crew)).sum + c * relayers.length := by
  have whole := sum_map_le (f := relayerRank more crew) (g := Prod.map id hear) (c := c)
    (fun x => each x.1 x.2) (loops.zip relayers)
  rw [List.zip_map_right]
  have fewer : (loops.zip relayers).length ≤ relayers.length := by
    rw [List.length_zip]
    exact Nat.min_le_right _ _
  exact whole.trans (Nat.add_le_add_left (Nat.mul_le_mul_left c fewer) _)

theorem loopStep_ready {n : Node} (b : Blockchain)
    (ready : n.worker = .atTest ∨ n.worker = .atPop ∧ (n.inbox.q ≠ [] ∨ n.inbox.closed = true)) :
    (∃ msg rest, n.worker = .atPop ∧ n.inbox.q = msg :: rest ∧
      let done := handleMessage n.stateFileOpens n.nodeId b msg
      n.loopStep b = ({ n with inbox := { n.inbox with q := rest }, worker := .after done.thrown }, done.chain,
        some (msg, done))) ∨
    ∃ v, n.loopStep b = ({ n with worker := v }, b, none) ∧ workerRank v < workerRank n.worker := by
  obtain ⟨nodeId, address, opens, running, ⟨q, closed⟩, worker⟩ := n
  rcases ready with rfl | ⟨rfl, some⟩
  · refine .inr ⟨_, rfl, ?_⟩
    split <;> simp [workerRank]
  · cases q with
    | nil =>
      obtain rfl : closed = true := some.resolve_left (absurd rfl)
      exact .inr ⟨_, rfl, by simp [workerRank]⟩
    | cons msg rest => exact .inl ⟨msg, rest, rfl, rfl, rfl⟩

theorem workerRank_after (thrown : Option StdException) : workerRank (.after thrown) ≤ 2 := by
  cases thrown with
  | none => exact Nat.le_refl 2
  | some e => exact Nat.zero_le 2

def ackRank (crew : ℕ) : ℕ := 6 + 3 * crew

theorem nodeStep_falls (sound : Sound w) (h : Settled w r) {n : ℕ} (effective : Effective r (.nodeStep n)) :
    let more := ackRank r.workers.length * w.relayers.length
    rank more (r.nodeStep n) < rank more r := by
  obtain ⟨-, node, at_n, ready⟩ := effective
  obtain ⟨sim, loops, point, workers, -⟩ := nodeStep_sim r n
  obtain ⟨b, at_c⟩ := h.kept.housed.chain at_n
  have heard : Subscribed (wiring r.sim) := (h.wired ▸ sound).subscribed
  have crew : w.relayers.length = r.sim.relayers.length := by
    rw [← h.wired]
    exact List.length_map ..
  have opened := h.opened b (List.mem_of_getElem? at_c)
  dsimp only
  rw [crew]
  generalize total : ackRank r.workers.length * r.sim.relayers.length = more
  have put := nodes_put at_n (node.node.loopStep b).1 more
  obtain ⟨nodes, transport⟩ := nodeStep_frame r.sim at_n at_c
  simp only [rank, sim, loops, point, workers, nodes, transport, List.length_set]
  rcases loopStep_ready b ready with ⟨msg, rest, pop, head, moved⟩ | ⟨v, moved, less⟩
  · let done := handleMessage node.node.stateFileOpens node.node.nodeId b msg
    have ears : (r.sim.nodeStep n).1.relayers = r.sim.relayers.map fun rel => hearAll rel (published done.effects) := by
      simp only [Sim.nodeStep, at_n, at_c, moved]
      exact congrArg Sim.relayers (foldl_publish (subscribed_same (s := r.sim) rfl rfl heard) (published done.effects))
    have each : ∀ loop rel, relayerRank more r.workers.length (loop, hearAll rel (published done.effects)) ≤
        relayerRank more r.workers.length (loop, rel) + if bears .data msg then ackRank r.workers.length else 0 := by
      intro loop rel
      obtain ⟨packets, same | ⟨heavy, ack, type, one⟩⟩ :=
        hears_ack node.node.stateFileOpens node.node.nodeId opened msg rel
      · simp only [relayerRank, done, packets, same]
        omega
      · simp only [relayerRank, done, packets, one, heavy, itemRank, ackRank, type, if_true, List.map_append,
          List.sum_append, List.map_cons, List.map_nil, List.sum_cons, List.sum_nil]
        omega
    have gained := heard_rank r.loops r.sim.relayers each
    have low := workerRank_after (handleMessage node.node.stateFileOpens node.node.nodeId b msg).thrown
    simp only [ears, moved, nodeRank, pop, head, List.map_cons, List.sum_cons, messageRank] at put gained ⊢
    have popped : workerRank .atPop = 1 := rfl
    rw [popped] at put
    cases heavy : bears .data msg with
    | true =>
      simp only [heavy, if_true] at put gained
      omega
    | false =>
      simp only [heavy, Bool.false_eq_true, if_false] at put gained
      omega
  · have deaf : (r.sim.nodeStep n).1.relayers = r.sim.relayers := by
      simp only [Sim.nodeStep, at_n, at_c, moved]
    simp only [deaf, moved, nodeRank] at put ⊢
    omega

theorem workers_put {tasks : List (Bytes × Bytes)} {workers : List TransportPoint} {k : ℕ} {p : TransportPoint}
    (at_k : workers[k]? = some p) {p' : TransportPoint}
    (less : transportRank tasks.isEmpty p' < transportRank tasks.isEmpty p) :
    crewRank tasks (workers.set k p') < crewRank tasks workers := by
  have put := sum_set (f := transportRank tasks.isEmpty) at_k p'
  unfold crewRank
  omega

theorem rank_workers {workers : List TransportPoint} (more : ℕ) (count : workers.length = r.workers.length)
    (less : crewRank r.sim.transport.tasks workers < crewRank r.sim.transport.tasks r.workers) :
    rank more { r with workers := workers } < rank more r := by
  simp only [rank, count]
  omega

theorem transport_falls {k : ℕ} {i : StopInput} (which : i = .workerStep k ∨ i = .wake k) (effective : Effective r i)
    (more : ℕ) : rank more (r.act i) < rank more r := by
  rcases which with rfl | rfl
  · obtain ⟨-, ⟨at_k, ends⟩ | at_k⟩ := effective
    · cases runs : r.transportRuns with
      | false =>
        simp only [Stopping.act, Stopping.workerStep, at_k, runs, Bool.false_eq_true, if_false]
        refine rank_workers more List.length_set (workers_put at_k ?_)
        cases r.sim.transport.tasks.isEmpty <;> decide
      | true =>
        have empty : r.sim.transport.tasks = [] := ends.resolve_left (by rw [runs]; decide)
        simp only [Stopping.act, Stopping.workerStep, at_k, runs, empty, if_true]
        refine rank_workers more List.length_set (workers_put at_k ?_)
        rw [empty]
        decide
    · simp only [Stopping.act, Stopping.workerStep, at_k]
      refine rank_workers more List.length_set (workers_put at_k ?_)
      cases r.sim.transport.tasks.isEmpty <;> decide
  · obtain ⟨-, at_k, some⟩ := effective
    simp only [Stopping.act, Stopping.wake, at_k]
    refine rank_workers more List.length_set (workers_put at_k ?_)
    rw [List.isEmpty_eq_false_iff.mpr some]
    decide

theorem rank_onward {r : Stopping} {point : StopPoint} (more : ℕ)
    (less : pointRank r.workers.length r.loops.length r.sim.nodes.length point < pointRank r.workers.length r.loops.length r.sim.nodes.length r.point) :
    rank more { r with point := point } < rank more r := by
  simp only [rank]
  omega

theorem rank_moveRelayer {k : ℕ} {f : Relayer → Relayer} {point : StopPoint} (more : ℕ)
    (less : pointRank r.workers.length r.loops.length r.sim.nodes.length point < pointRank r.workers.length r.loops.length r.sim.nodes.length r.point)
    (queues : ∀ rel, (f rel).pendingPackets.q = rel.pendingPackets.q ∧ (f rel).pendingAcks.q = rel.pendingAcks.q) :
    rank more { r.moveRelayer k f with point := point } < rank more r := by
  have crew := sum_modify (f := relayerRank more r.workers.length) (g := Prod.map id f) (fun x => by
    simp only [relayerRank, Prod.map_snd, Prod.map_fst, id_eq, queues]) (r.loops.zip r.sim.relayers) k
  simp only [rank, Stopping.moveRelayer, zip_modify, crew]
  omega

theorem rank_moveNode {n : ℕ} {f : Node → Node} {point : StopPoint} (more : ℕ)
    (less : pointRank r.workers.length r.loops.length r.sim.nodes.length point < pointRank r.workers.length r.loops.length r.sim.nodes.length r.point)
    (same : ∀ node, (f node).inbox.q = node.inbox.q ∧ (f node).worker = node.worker) :
    rank more { r.moveNode n f with point := point } < rank more r := by
  have nodes := sum_modify (f := nodeRank more) (g := fun node => { node with node := f node.node }) (fun node => by
    simp only [nodeRank, same]) r.sim.nodes n
  simp only [rank, Stopping.moveNode, nodes, List.length_modify]
  omega

theorem stop_falls (h : Settled w r) (effective : Effective r .stop) (more : ℕ) : rank more r.stop < rank more r := by
  have moves : r.stop.point ≠ r.point := effective.2
  have advance := stop_advances r
  generalize r.stop = r' at advance moves ⊢
  cases advance with
  | waits => exact absurd rfl moves
  | clearedRelayer k loop here at_k =>
    have inside := (List.getElem?_eq_some_iff.mp at_k).1
    rw [h.crewed] at inside
    have at_rel : r.sim.relayers[k]? = some r.sim.relayers[k] := List.getElem?_eq_getElem inside
    generalize r.sim.relayers[k] = rel at at_rel
    have there : (r.loops.zip r.sim.relayers)[k]? = some (loop, rel) := List.getElem?_zip_eq_some.mpr ⟨at_k, at_rel⟩
    have put := sum_set (f := relayerRank more r.workers.length) there ({ loop with running := false }, rel)
    rw [← zip_set, set_same at_rel] at put
    have bound := loopRank_cleared loop rel.pendingPackets.q
    have before : relayerRank more r.workers.length ({ loop with running := false }, rel) ≤
        relayerRank more r.workers.length (loop, rel) + 3 := by
      simp only [relayerRank]
      omega
    simp only [rank, here, pointRank, callerRank, List.length_set]
    omega
  | closedPackets k here =>
    refine rank_moveRelayer more ?_ fun rel => ⟨rfl, rfl⟩
    simp only [here, pointRank, callerRank]
    omega
  | closedAcks k here =>
    refine rank_moveRelayer more ?_ fun rel => ⟨rfl, rfl⟩
    simp only [here, pointRank, callerRank]
    omega
  | clearedNode n node here at_n =>
    refine rank_moveNode more ?_ fun node => ⟨rfl, rfl⟩
    simp only [here, pointRank, callerRank]
    omega
  | closedNode n here =>
    refine rank_moveNode more ?_ fun node => ⟨rfl, rfl⟩
    simp only [here, pointRank, callerRank]
    omega
  | passedRelayer k loop here at_k | joinedRelayer k loop here at_k =>
    have inside := (List.getElem?_eq_some_iff.mp at_k).1
    apply rank_onward
    simp only [here, pointRank, callerRank]
    omega
  | passedNode n node here at_n | joinedNode n node here at_n =>
    have inside := (List.getElem?_eq_some_iff.mp at_n).1
    apply rank_onward
    simp only [here, pointRank, callerRank]
    omega
  | joinedWorker k here at_k =>
    have inside := (List.getElem?_eq_some_iff.mp at_k).1
    apply rank_onward
    simp only [here, pointRank]
    omega
  | clearedFlag here =>
    simp only [rank, here, pointRank]
    omega
  | notified here =>
    have woken := crewRank_notified r.sim.transport.tasks r.workers
    simp only [rank, here, pointRank, List.length_map]
    omega
  | called here | joinedTraffic here | pastRelayers k here | pastNodes n here | drained here | pastWorkers k here =>
    apply rank_onward
    simp only [here, pointRank, callerRank]
    omega

/-- Every step that gets something done leaves less to do. -/
theorem act_falls (sound : Sound w) (h : Settled w r) {i : StopInput} (effective : Effective r i) :
    let more := ackRank r.workers.length * w.relayers.length
    rank more (r.act i) < rank more r := by
  cases i with
  | sendIBC | submit => exact absurd effective.2 id
  | relayerStep k drops => exact relayer_falls sound h effective _
  | deliver k => exact deliver_falls h effective _
  | nodeStep n => exact nodeStep_falls sound h effective
  | workerStep k => exact transport_falls (.inl rfl) effective _
  | wake k => exact transport_falls (.inr rfl) effective _
  | stop => exact stop_falls h effective _

end Falls

end InterchainCommunication.StopRank
