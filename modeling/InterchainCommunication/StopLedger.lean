import InterchainCommunication.StopModel

set_option autoImplicit false

namespace InterchainCommunication.StopLedger
open BagCounting ListUpdates StringText CoreTypes BlockchainModel QueueAndBus NodeModel NodeSteps
open RelayerModel SimulationModel EventDelivery SimulationSteps LoopBackCounting StopModel

section Frames
variable (s : Sim)

theorem react_frame (e : Event) (s : Sim × List Effect) (h : Handler) :
    ∃ relayers, (Sim.react e s h).1 = { s.1 with relayers := relayers } := by
  cases h with
  | packetSend r => exact ⟨_, react_packetSend e s r⟩
  | ackSend r => exact ⟨_, react_ackSend e s r⟩

theorem publishAll_frame (effects : List Effect) :
    ∃ relayers, (s.publishAll effects).1 = { s with relayers := relayers } := by
  refine publishAll_invariant (I := fun x => ∃ relayers, x.1 = { s with relayers := relayers }) ?_ ⟨s.relayers, rfl⟩
  intro e x h
  rintro ⟨_, before⟩
  obtain ⟨relayers, one⟩ := react_frame e x h
  rw [before] at one
  exact ⟨relayers, one⟩

theorem absorb_frame (c : ℕ) (b : Blockchain) (calls : List (ChainOp × ChainReply)) (effects : List Effect) :
    (s.absorb c b calls effects).1.nodes = s.nodes ∧ (s.absorb c b calls effects).1.transport = s.transport := by
  obtain ⟨relayers, same⟩ := publishAll_frame { s with chains := s.chains.set c b } effects
  have whole : (s.absorb c b calls effects).1 = _ := same
  rw [whole]
  exact ⟨rfl, rfl⟩

theorem sendIBC_frame (c : ℕ) (op : ChainOp) :
    (s.sendIBC c op).1.nodes = s.nodes ∧ (s.sendIBC c op).1.transport = s.transport := by
  unfold Sim.sendIBC
  split
  · exact ⟨rfl, rfl⟩
  · exact absorb_frame s c _ _ _

structure AtMostSends (s s' : Sim) : Prop where
  nodes : s'.nodes = s.nodes
  tasks : ∃ task : Option (Bytes × Bytes), s'.transport.tasks = s.transport.tasks ++ task.toList

theorem forward_sends (r : ℕ) {half : Relayer → Transport → Relayer × Transport × List Effect}
    (one : ∀ rel t, ∃ task : Option (Bytes × Bytes), (half rel t).2.1.tasks = t.tasks ++ task.toList) :
    AtMostSends s (s.forward r half).1 := by
  unfold Sim.forward
  split
  · exact ⟨rfl, none, (List.append_nil _).symm⟩
  · exact ⟨rfl, one _ _⟩

theorem forwardPacket_tasks (rel : Relayer) (t : Transport) (drops : Drops) :
    ∃ task : Option (Bytes × Bytes), (rel.forwardPacket t drops).2.1.tasks = t.tasks ++ task.toList := by
  rcases rel.forwardPacket_cases t drops with ⟨-, still⟩ | ⟨_, _, task, _, _, _, -, -, moved⟩
  · rw [still]
    exact ⟨none, (List.append_nil _).symm⟩
  · rw [moved]
    exact ⟨task, rfl⟩

theorem forwardAck_tasks (rel : Relayer) (t : Transport) (drops : Drops) :
    ∃ task : Option (Bytes × Bytes), (rel.forwardAck t drops).2.1.tasks = t.tasks ++ task.toList := by
  rcases rel.forwardAck_cases t drops with ⟨-, still⟩ | ⟨_, _, task, _, _, _, -, -, moved⟩
  · rw [still]
    exact ⟨none, (List.append_nil _).symm⟩
  · rw [moved]
    exact ⟨task, rfl⟩

theorem submit_sends (n : ℕ) (tx : Transaction) (drop : Bool) : AtMostSends s (StopModel.submit s n tx drop) := by
  unfold StopModel.submit
  split
  · exact ⟨rfl, none, (List.append_nil _).symm⟩
  · rename_i node _
    split
    · exact ⟨rfl, none, (List.append_nil _).symm⟩
    · refine ⟨rfl, ?_⟩
      rcases send_tasks s.transport node.node.address (node.node.submission tx) drop with ⟨-, same⟩ | ⟨-, more, -⟩
      · exact ⟨none, same.trans (List.append_nil _).symm⟩
      · exact ⟨some _, more⟩

theorem deliver_refused {k : ℕ} {task : Bytes × Bytes} (hk : s.transport.tasks[k]? = some task)
    (refused : takenIn s task = none) : (s.deliver k).1.nodes = s.nodes ∧
      (s.deliver k).1.transport.tasks = s.transport.tasks.eraseIdx k := by
  unfold Sim.deliver
  unfold takenIn at refused
  simp only [hk]
  cases endpoint : s.transport.endpoints task.1 with
  | none => exact ⟨rfl, rfl⟩
  | some n =>
    rw [endpoint] at refused
    dsimp only at refused ⊢
    cases hn : s.nodes[n]? with
    | none => exact ⟨rfl, rfl⟩
    | some node =>
      rw [hn] at refused
      refine ⟨?_, rfl⟩
      dsimp only at refused ⊢
      rcases onBytes_cases node.node task.2 with ⟨msg, read, opened, -⟩ | ⟨text, got⟩
      · rw [opened, read] at refused
        cases refused
      · rw [got]
        exact set_same hn

theorem deliver_taken {k n : ℕ} {task : Bytes × Bytes} (hk : s.transport.tasks[k]? = some task)
    (taken : takenIn s task = some n) : ∃ node msg, s.nodes[n]? = some node ∧
      (s.deliver k).1.nodes = s.nodes.set n { node with
        node := { node.node with inbox := { node.node.inbox with q := node.node.inbox.q ++ [msg] } } } ∧
      (s.deliver k).1.transport.tasks = s.transport.tasks.eraseIdx k := by
  unfold Sim.deliver
  unfold takenIn at taken
  simp only [hk]
  cases endpoint : s.transport.endpoints task.1 with
  | none =>
    rw [endpoint] at taken
    cases taken
  | some m =>
    rw [endpoint] at taken
    dsimp only at taken ⊢
    cases hm : s.nodes[m]? with
    | none =>
      rw [hm] at taken
      cases taken
    | some node =>
      rw [hm] at taken
      dsimp only at taken ⊢
      split at taken
      · cases taken
      · rename_i opened
        cases read : deserializeNodeMessage task.2 with
        | error e =>
          rw [read] at taken
          cases taken
        | ok msg =>
          rw [read] at taken
          obtain rfl : m = n := Option.some.inj taken
          have queued := onBytes_open (n := node.node) (Bool.eq_false_iff.mpr opened) task.2
          rcases onBytes_cases node.node task.2 with ⟨msg', -, -, got⟩ | ⟨text, got⟩
          · rw [got]
            exact ⟨node, msg', hm, rfl, rfl⟩
          · rw [got, read] at queued
            have longer := congrArg (fun c : ConcurrentQueue NodeMessage => c.q.length) queued
            simp [Except.toOption] at longer

theorem nodeStep_frame {n : ℕ} {node : SimNode} {b : Blockchain} (hn : s.nodes[n]? = some node)
    (hb : s.chains[node.chain]? = some b) :
    (s.nodeStep n).1.nodes = s.nodes.set n { node with node := (node.node.loopStep b).1 } ∧
      (s.nodeStep n).1.transport = s.transport := by
  unfold Sim.nodeStep
  simp only [hn, hb]
  split
  · exact ⟨rfl, rfl⟩
  · exact absorb_frame { s with nodes := s.nodes.set n { node with node := (node.node.loopStep b).1 } } _ _ _ _

end Frames

/-- A worker that takes nothing stays, tests its flag, or finds the inbox closed and empty. -/
theorem loopStep_walks {n : Node} (b : Blockchain) (nothing : takenBy n = none) :
    ∃ w, (n.loopStep b).1 = { n with worker := w } ∧ (w = n.worker ∨
      (n.worker = .atTest ∧ w = if n.running then .atPop else .returned) ∨
      (n.inbox.q = [] ∧ w = .returned)) := by
  obtain ⟨nodeId, address, opens, running, ⟨q, closed⟩, worker⟩ := n
  cases worker with
  | atTest => exact ⟨_, rfl, .inr (.inl ⟨rfl, rfl⟩)⟩
  | atPop =>
    cases q with
    | nil =>
      cases closed with
      | true => exact ⟨_, rfl, .inr (.inr ⟨rfl, rfl⟩)⟩
      | false => exact ⟨_, rfl, .inl rfl⟩
    | cons msg rest => exact absurd nothing (by simp [takenBy])
  | idle | returned | terminated e => exact ⟨_, rfl, .inl rfl⟩

theorem loopStep_took {n : Node} (b : Blockchain) {msg : NodeMessage} (taken : takenBy n = some msg) :
    ∃ rest, n.worker = .atPop ∧ n.inbox.q = msg :: rest ∧
      (((n.loopStep b).1 = { n with inbox := { n.inbox with q := rest }, worker := .atTest } ∧
          ((n.loopStep b).2.2.bind fun taken => taken.2.thrown) = none) ∨
        ∃ e, (n.loopStep b).1 = { n with inbox := { n.inbox with q := rest }, worker := .terminated e } ∧
          ((n.loopStep b).2.2.bind fun taken => taken.2.thrown) = some e) := by
  unfold takenBy at taken
  split at taken
  · rename_i pop
    obtain ⟨rest, hq⟩ := List.head?_eq_some_iff.mp taken
    refine ⟨rest, pop, hq, ?_⟩
    rcases loopStep_cases n b with ⟨msg', rest', -, hq', moved⟩ | ⟨w, moved, why⟩
    · rw [hq] at hq'
      obtain ⟨rfl, rfl⟩ := List.cons.inj hq'
      rw [moved]
      rcases after_cases (handleMessage n.stateFileOpens n.nodeId b msg).thrown with ⟨whole, on⟩ | ⟨e, thrown, ended⟩
      · exact .inl ⟨by rw [on], whole⟩
      · exact .inr ⟨e, by rw [ended], thrown⟩
    · have same := (loopStep_takes n b).2.1
      rw [moved] at same
      have longer := congrArg List.length same
      simp [takenBy, pop, hq] at longer
  · cases taken

/-- What the books are about. -/
structure Ledger where
  nodes : List SimNode
  tasks : List (Bytes × Bytes)
  sent : ℕ
  taskNumbers : List ℕ
  inboxNumbers : List (List ℕ)
  handled : List ℕ
  lost : List ℕ

def ledger (r : Stopping) : Ledger :=
  ⟨r.sim.nodes, r.sim.transport.tasks, r.sent, r.taskNumbers, r.inboxNumbers, r.handled, r.lost⟩

/-- Each inbox has as many numbers as messages, and the tasks too. -/
structure Sized (l : Ledger) : Prop where
  tasks : l.taskNumbers.length = l.tasks.length
  inboxes : l.inboxNumbers.map List.length = l.nodes.map fun node => node.node.inbox.q.length

/-- What a step can do to the books. -/
inductive Move (r : Stopping) : StopInput → Ledger → Prop
  | quiet (i : StopInput) : Move r i (ledger r)
  | sent (i : StopInput) (task : Bytes × Bytes) : Move r i { ledger r with
      tasks := r.sim.transport.tasks ++ [task], sent := r.sent + 1, taskNumbers := r.taskNumbers ++ [r.sent] }
  | refused (k id : ℕ) (task : Bytes × Bytes) (at_k : r.sim.transport.tasks[k]? = some task)
      (number : r.taskNumbers[k]? = some id) (no : takenIn r.sim task = none) : Move r (.deliver k) { ledger r with
        tasks := r.sim.transport.tasks.eraseIdx k, taskNumbers := r.taskNumbers.eraseIdx k, lost := r.lost ++ [id] }
  | delivered (k n id : ℕ) (task : Bytes × Bytes) (node : SimNode) (msg : NodeMessage)
      (at_k : r.sim.transport.tasks[k]? = some task) (number : r.taskNumbers[k]? = some id)
      (yes : takenIn r.sim task = some n) (at_n : r.sim.nodes[n]? = some node) : Move r (.deliver k) { ledger r with
        tasks := r.sim.transport.tasks.eraseIdx k, taskNumbers := r.taskNumbers.eraseIdx k
        nodes := r.sim.nodes.set n { node with
          node := { node.node with inbox := { node.node.inbox with q := node.node.inbox.q ++ [msg] } } }
        inboxNumbers := r.inboxNumbers.modify n (· ++ [id]) }
  | walked (n : ℕ) (node : SimNode) (w : WorkerPoint) (at_n : r.sim.nodes[n]? = some node)
      (why : w = node.node.worker ∨ (node.node.worker = .atTest ∧ w = if node.node.running then .atPop else .returned) ∨
        (node.node.inbox.q = [] ∧ w = .returned)) : Move r (.nodeStep n) { ledger r with
        nodes := r.sim.nodes.set n { node with node := { node.node with worker := w } } }
  | took (n id : ℕ) (node : SimNode) (msg : NodeMessage) (rest : List NodeMessage) (ids : List ℕ)
      (at_n : r.sim.nodes[n]? = some node) (pop : node.node.worker = .atPop) (queue : node.node.inbox.q = msg :: rest)
      (numbers : r.inboxNumbers[n]? = some (id :: ids)) : Move r (.nodeStep n) { ledger r with
        nodes := r.sim.nodes.set n { node with
          node := { node.node with inbox := { node.node.inbox with q := rest }, worker := .atTest } }
        inboxNumbers := r.inboxNumbers.set n ids, handled := r.handled ++ [id] }
  | broke (n id : ℕ) (node : SimNode) (msg : NodeMessage) (rest : List NodeMessage) (ids : List ℕ) (e : StdException)
      (at_n : r.sim.nodes[n]? = some node) (pop : node.node.worker = .atPop) (queue : node.node.inbox.q = msg :: rest)
      (numbers : r.inboxNumbers[n]? = some (id :: ids)) : Move r (.nodeStep n) { ledger r with
        nodes := r.sim.nodes.set n { node with
          node := { node.node with inbox := { node.node.inbox with q := rest }, worker := .terminated e } }
        inboxNumbers := r.inboxNumbers.set n ids, lost := r.lost ++ [id] }
  | flagged (n : ℕ) (node : SimNode) (m : Node) (at_n : r.sim.nodes[n]? = some node)
      (queue : m.inbox.q = node.node.inbox.q) (worker : m.worker = node.node.worker) : Move r .stop { ledger r with
        nodes := r.sim.nodes.set n { node with node := m } }

section Sends
variable (r : Stopping) (s : Sim)

@[simp] theorem sends_sim : (r.sends s).sim = s := by
  unfold Stopping.sends
  split <;> rfl

@[simp] theorem sends_point : (r.sends s).point = r.point := by
  unfold Stopping.sends
  split <;> rfl

@[simp] theorem sends_sentBefore : (r.sends s).sentBefore = r.sentBefore := by
  unfold Stopping.sends
  split <;> rfl

end Sends

theorem sends_moves {r : Stopping} {s : Sim} (h : AtMostSends r.sim s) (i : StopInput) :
    Move r i (ledger (r.sends s)) := by
  obtain ⟨nodes, task, tasks⟩ := h
  unfold Stopping.sends
  cases task with
  | none =>
    rw [Option.toList_none, List.append_nil] at tasks
    rw [if_neg (by rw [tasks]; exact Nat.lt_irrefl _)]
    have same : ledger { r with sim := s } = ledger r := by simp only [ledger, nodes, tasks]
    rw [same]
    exact .quiet i
  | some task =>
    rw [if_pos (by rw [tasks]; simp)]
    have same : ledger { r with sim := s, sent := r.sent + 1, taskNumbers := r.taskNumbers ++ [r.sent] } =
        { ledger r with
          tasks := r.sim.transport.tasks ++ [task], sent := r.sent + 1, taskNumbers := r.taskNumbers ++ [r.sent] } := by
      simp only [ledger, nodes, tasks, Option.toList_some]
    rw [same]
    exact .sent i task

theorem relayerStep_moves (r : Stopping) (k : ℕ) (drops : Drops) :
    Move r (.relayerStep k drops) (ledger (r.relayerStep k drops)) := by
  unfold Stopping.relayerStep
  split
  · exact .quiet _
  · split
    · exact .quiet _
    · exact sends_moves (forward_sends r.sim k fun rel t => forwardPacket_tasks rel t drops) _
    · exact sends_moves (forward_sends r.sim k fun rel t => forwardAck_tasks rel t drops) _
    · exact .quiet _
    · exact .quiet _

theorem deliver_moves (r : Stopping) (k : ℕ) : Move r (.deliver k) (ledger (r.deliver k)) := by
  unfold Stopping.deliver
  cases at_k : r.sim.transport.tasks[k]? with
  | none => exact .quiet _
  | some task =>
    cases number : r.taskNumbers[k]? with
    | none => exact .quiet _
    | some id =>
      dsimp only
      cases taken : takenIn r.sim task with
      | none =>
        obtain ⟨nodes, tasks⟩ := deliver_refused r.sim at_k taken
        have move := Move.refused k id task at_k number taken
        convert move using 1
        simp only [ledger, nodes, tasks]
      | some n =>
        obtain ⟨node, msg, at_n, nodes, tasks⟩ := deliver_taken r.sim at_k taken
        have move := Move.delivered k n id task node msg at_k number taken at_n
        convert move using 1
        simp only [ledger, nodes, tasks]

theorem numbers_of_queue {r : Stopping} (sized : Sized (ledger r)) {n : ℕ} {node : SimNode}
    (at_n : r.sim.nodes[n]? = some node) :
    ∃ numbers, r.inboxNumbers[n]? = some numbers ∧ numbers.length = node.node.inbox.q.length := by
  have both := congrArg (fun l : List ℕ => l[n]?) sized.inboxes
  simp only [List.getElem?_map] at both
  rw [show (ledger r).nodes[n]? = some node from at_n] at both
  obtain ⟨numbers, found, length⟩ := Option.map_eq_some_iff.mp both
  exact ⟨numbers, found, length⟩

theorem rest_of_queue {r : Stopping} (sized : Sized (ledger r)) {n id : ℕ} {node : SimNode}
    (at_n : r.sim.nodes[n]? = some node) {msg : NodeMessage} {rest : List NodeMessage}
    (queue : node.node.inbox.q = msg :: rest) {ids : List ℕ} (numbers : r.inboxNumbers[n]? = some (id :: ids)) :
    ids.length = rest.length := by
  obtain ⟨numbers', found, length⟩ := numbers_of_queue sized at_n
  obtain rfl : id :: ids = numbers' := Option.some.inj (numbers.symm.trans found)
  rw [queue, List.length_cons, List.length_cons] at length
  exact Nat.succ.inj length

theorem nodeStep_moves {r : Stopping} (sized : Sized (ledger r)) (n : ℕ) :
    Move r (.nodeStep n) (ledger (r.nodeStep n)) := by
  unfold Stopping.nodeStep
  cases at_n : r.sim.nodes[n]? with
  | none => exact .quiet _
  | some node =>
    dsimp only
    cases at_c : r.sim.chains[node.chain]? with
    | none => exact .quiet _
    | some b =>
      obtain ⟨nodes, transport⟩ := nodeStep_frame r.sim at_n at_c
      obtain ⟨numbers, found, length⟩ := numbers_of_queue sized at_n
      dsimp only
      cases taken : takenBy node.node with
      | none =>
        obtain ⟨w, moved, why⟩ := loopStep_walks b taken
        have move := Move.walked n node w at_n why
        convert move using 1
        simp only [ledger, nodes, transport, moved]
      | some msg =>
        obtain ⟨rest, pop, queue, outcome⟩ := loopStep_took b taken
        rw [queue, List.length_cons] at length
        obtain ⟨id, ids, rfl⟩ := List.exists_cons_of_length_eq_add_one length
        rw [found]
        dsimp only
        rcases outcome with ⟨moved, whole⟩ | ⟨e, moved, thrown⟩
        · rw [whole]
          have move := Move.took n id node msg rest ids at_n pop queue found
          convert move using 1
          simp only [ledger, nodes, transport, moved]
        · rw [thrown]
          have move := Move.broke n id node msg rest ids e at_n pop queue found
          convert move using 1
          simp only [ledger, nodes, transport, moved]

theorem moveNode_moves (r : Stopping) (n : ℕ) {f : Node → Node} (point : StopPoint)
    (kept : ∀ m, (f m).inbox.q = m.inbox.q ∧ (f m).worker = m.worker) :
    Move r .stop (ledger { r.moveNode n f with point := point }) := by
  cases at_n : r.sim.nodes[n]? with
  | none =>
    have same : ledger { r.moveNode n f with point := point } = ledger r := by
      simp only [ledger, Stopping.moveNode, modify_of_none at_n]
    rw [same]
    exact .quiet _
  | some node =>
    have move := Move.flagged n node (f node.node) at_n (kept node.node).1 (kept node.node).2
    have here := set_eq_modify at_n fun node => { node with node := f node.node }
    convert move using 1
    simp only [ledger, Stopping.moveNode, ← here]

/-- What one step of `stop` can do: note the call, go on, or touch one relayer or one node. -/
inductive StopMove (r : Stopping) : Stopping → Prop
  | called (first : r.point = .notCalled) : StopMove r { r with point := .traffic, sentBefore := some r.sent }
  | goes (loops : List RelayerLoop) (transportRuns : Bool) (workers : List TransportPoint) (point : StopPoint)
      (begun : r.point ≠ .notCalled) :
      StopMove r { r with loops := loops, transportRuns := transportRuns, workers := workers, point := point }
  | relayer (k : ℕ) (f : Relayer → Relayer) (point : StopPoint) (begun : r.point ≠ .notCalled)
      (which : f = Relayer.closePackets ∨ f = Relayer.closeAcks) : StopMove r { r.moveRelayer k f with point := point }
  | node (n : ℕ) (f : Node → Node) (point : StopPoint) (begun : r.point ≠ .notCalled)
      (which : f = Node.clearRunning ∨ f = Node.closeInbox) : StopMove r { r.moveNode n f with point := point }

theorem stop_cases (r : Stopping) : StopMove r r.stop := by
  unfold Stopping.stop
  split
  · rename_i here
    exact .called here
  all_goals
    rename_i here
    have begun : r.point ≠ .notCalled := by
      rw [here]
      intro f
      cases f
  · exact .goes _ _ _ _ begun
  · split
    · exact .goes _ _ _ _ begun
    · split <;> exact .goes _ _ _ _ begun
  · exact .relayer _ _ _ begun (.inl rfl)
  · exact .relayer _ _ _ begun (.inr rfl)
  · split
    · exact .goes _ _ _ _ begun
    · split <;> exact .goes _ _ _ _ begun
  · split
    · exact .goes _ _ _ _ begun
    · split
      · exact .node _ _ _ begun (.inl rfl)
      · exact .goes _ _ _ _ begun
  · exact .node _ _ _ begun (.inr rfl)
  · exact .goes _ _ _ _ begun
  · split
    · exact .goes _ _ _ _ begun
    · split <;> exact .goes _ _ _ _ begun
  · split <;> exact .goes _ _ _ _ begun
  · exact .goes _ _ _ _ begun
  · exact .goes _ _ _ _ begun
  · split
    · exact .goes _ _ _ _ begun
    · split <;> exact .goes _ _ _ _ begun
  · exact .goes _ _ _ _ begun

theorem stop_moves (r : Stopping) : Move r .stop (ledger r.stop) := by
  have moved := stop_cases r
  generalize r.stop = r' at moved ⊢
  cases moved with
  | called | goes | relayer => exact .quiet _
  | node n f point begun which =>
    refine moveNode_moves r n point fun m => ?_
    rcases which with rfl | rfl <;> exact ⟨rfl, rfl⟩

theorem workerStep_frame (r : Stopping) (w : ℕ) : ∃ workers, r.workerStep w = { r with workers := workers } := by
  unfold Stopping.workerStep
  split
  · split
    · split <;> exact ⟨_, rfl⟩
    · exact ⟨_, rfl⟩
  · exact ⟨_, rfl⟩
  · exact ⟨_, rfl⟩

theorem wake_frame (r : Stopping) (w : ℕ) : ∃ workers, r.wake w = { r with workers := workers } := by
  unfold Stopping.wake
  split <;> exact ⟨_, rfl⟩

theorem act_moves {r : Stopping} (sized : Sized (ledger r)) (i : StopInput) : Move r i (ledger (r.act i)) := by
  cases i with
  | sendIBC c port chan dstChain dstPort dstChan payload =>
    simp only [Stopping.act]
    split
    · obtain ⟨nodes, transport⟩ :=
        sendIBC_frame r.sim c (.sendIBC port chan dstChain dstPort dstChan payload)
      have quiet := Move.quiet (r := r) (.sendIBC c port chan dstChain dstPort dstChan payload)
      convert quiet using 1
      simp only [ledger, nodes, transport]
    · exact .quiet _
  | submit n tx drop =>
    simp only [Stopping.act]
    split
    · exact sends_moves (submit_sends r.sim n tx drop) _
    · exact .quiet _
  | relayerStep k drops => exact relayerStep_moves r k drops
  | deliver k => exact deliver_moves r k
  | nodeStep n => exact nodeStep_moves sized n
  | workerStep w =>
    obtain ⟨workers, moved⟩ := workerStep_frame r w
    simp only [Stopping.act, moved]
    exact .quiet _
  | wake w =>
    obtain ⟨workers, moved⟩ := wake_frame r w
    simp only [Stopping.act, moved]
    exact .quiet _
  | stop => exact stop_moves r

/-- In how many places the number stands. -/
def places (id : ℕ) (l : Ledger) : ℕ :=
  l.taskNumbers.count id + weight (· == id) l.inboxNumbers + l.handled.count id + l.lost.count id

theorem places_eq (id : ℕ) (l : Ledger) : places id l = l.taskNumbers.countP (· == id) +
    weight (· == id) l.inboxNumbers + l.handled.countP (· == id) + l.lost.countP (· == id) := rfl

def issued (sent id : ℕ) : ℕ := if id < sent then 1 else 0

theorem issued_succ (sent id : ℕ) : issued (sent + 1) id = issued sent id + [sent].countP (· == id) := by
  unfold issued
  rw [List.countP_singleton]
  simp only [beq_iff_eq]
  split
  · split
    · rw [if_neg (by omega)]
    · rw [if_pos (by omega)]
  · rw [if_neg (by omega), if_neg (by omega)]

/-- Each number given out is in exactly one place. -/
structure Booked (l : Ledger) : Prop where
  sized : Sized l
  once : ∀ id, places id l = issued l.sent id

theorem sized_set {r : Stopping} (h : Sized (ledger r)) (n : ℕ) (node : SimNode) {m : Node} {numbers : List ℕ}
    (length : numbers.length = m.inbox.q.length) :
    (r.inboxNumbers.set n numbers).map List.length =
      (r.sim.nodes.set n { node with node := m }).map fun node => node.node.inbox.q.length := by
  have inboxes : r.inboxNumbers.map List.length = r.sim.nodes.map fun node => node.node.inbox.q.length := h.inboxes
  rw [List.map_set, List.map_set, inboxes, length]

theorem sized_keep {r : Stopping} (h : Sized (ledger r)) {n : ℕ} {node : SimNode} (at_n : r.sim.nodes[n]? = some node)
    {m : Node} (queue : m.inbox.q = node.node.inbox.q) :
    r.inboxNumbers.map List.length =
      (r.sim.nodes.set n { node with node := m }).map fun node => node.node.inbox.q.length := by
  obtain ⟨numbers, found, length⟩ := numbers_of_queue h at_n
  have same : (r.inboxNumbers.set n numbers).map List.length = _ := sized_set h n node (m := m) (by rw [queue, length])
  rwa [set_same found] at same

theorem booked_move {r : Stopping} {i : StopInput} {l : Ledger} (h : Booked (ledger r)) (move : Move r i l) :
    Booked l := by
  have tasks : r.taskNumbers.length = r.sim.transport.tasks.length := h.sized.tasks
  have once (id : ℕ) : r.taskNumbers.countP (· == id) + weight (· == id) r.inboxNumbers +
      r.handled.countP (· == id) + r.lost.countP (· == id) = issued r.sent id := h.once id
  cases move with
  | quiet => exact h
  | sent i task =>
    refine ⟨⟨?_, h.sized.inboxes⟩, fun id => ?_⟩
    · simp only [List.length_append, List.length_singleton, tasks]
    · have old := once id
      have next := issued_succ r.sent id
      simp only [places_eq, ledger, List.countP_append]
      omega
  | refused k id task at_k number no =>
    refine ⟨⟨eraseIdx_lengths tasks at_k, h.sized.inboxes⟩, fun id' => ?_⟩
    have erased := countP_eraseIdx_of_some (· == id') number
    have old := once id'
    simp only [places_eq, ledger, List.countP_append]
    omega
  | delivered k n id task node msg at_k number yes at_n =>
    obtain ⟨numbers, found, length⟩ := numbers_of_queue h.sized at_n
    have here := set_eq_modify found (· ++ [id])
    refine ⟨⟨eraseIdx_lengths tasks at_k, ?_⟩, fun id' => ?_⟩
    · rw [← here]
      apply sized_set h.sized n node
      rw [List.length_append, List.length_append, length]
      rfl
    · have erased := countP_eraseIdx_of_some (· == id') number
      have pushed := weight_push (· == id') found id
      have old := once id'
      rw [show numbers ++ [id] = (· ++ [id]) numbers from rfl, here] at pushed
      simp only [places_eq, ledger]
      omega
  | walked n node w at_n why => exact ⟨⟨tasks, sized_keep h.sized at_n rfl⟩, once⟩
  | flagged n node m at_n queue worker => exact ⟨⟨tasks, sized_keep h.sized at_n queue⟩, once⟩
  | took n id node msg rest ids at_n pop queue numbers =>
    refine ⟨⟨tasks, sized_set h.sized n node (rest_of_queue h.sized at_n queue numbers)⟩, fun id' => ?_⟩
    have popped := weight_pop (· == id') numbers
    have old := once id'
    simp only [places_eq, ledger, List.countP_append]
    omega
  | broke n id node msg rest ids e at_n pop queue numbers =>
    refine ⟨⟨tasks, sized_set h.sized n node (rest_of_queue h.sized at_n queue numbers)⟩, fun id' => ?_⟩
    have popped := weight_pop (· == id') numbers
    have old := once id'
    simp only [places_eq, ledger, List.countP_append]
    omega

end InterchainCommunication.StopLedger
