import InterchainCommunication.StopRank

set_option autoImplicit false

namespace InterchainCommunication.StopLiveness
open MachineRuns ListUpdates StringText CoreTypes NodeModel RelayerModel SimulationModel SimulationWiring UniqueWiring
open SimulationSteps ComponentLife Restarting StopModel StopLedger StopPhases GracefulStop StopRank

/-- The relayers whose flag `stop` has cleared, and those it has joined. -/
def endedRelayers (count : ℕ) : StopPoint → ℕ
  | .notCalled | .traffic => 0
  | .relayer k .free => k
  | .relayer k _ => k + 1
  | .node _ _ | .draining | .shuttingDown | .notifying | .worker _ | .returned => count

def joinedRelayers (count : ℕ) : StopPoint → ℕ
  | .notCalled | .traffic => 0
  | .relayer k _ => k
  | .node _ _ | .draining | .shuttingDown | .notifying | .worker _ | .returned => count

/-- Every worker was started, and those that `stop` waits for are on their way out. -/
structure Manned (r : Stopping) : Prop where
  relayers : ∀ loop ∈ r.loops, loop.worker ≠ .idle
  nodes : ∀ node ∈ r.sim.nodes, node.node.worker ≠ .idle
  flags : ∀ k loop, r.loops[k]? = some loop →
    (loop.running = false ↔ k < endedRelayers r.loops.length r.point)
  left : ∀ k loop, r.loops[k]? = some loop → k < joinedRelayers r.loops.length r.point → loop.worker = .returned
  inside : ∀ k c, r.point = .relayer k c → c ≠ .free → k < r.loops.length
  closing : ∀ n c, r.point = .node n c → c ≠ .free → c ≠ .closingAcks ∧ ∃ node, r.sim.nodes[n]? = some node ∧
    node.node.running = false ∧ (c = .joining → node.node.inbox.closed = true)

section Others
variable {r : Stopping} {i : StopInput}

theorem other_loop (sized : Sized (ledger r)) (other : i ≠ .stop) {k : ℕ} {loop' : RelayerLoop}
    (at_k : (r.act i).loops[k]? = some loop') : ∃ loop, r.loops[k]? = some loop ∧ loop'.running = loop.running ∧
      (loop.worker ≠ .idle → loop'.worker ≠ .idle) ∧ (loop.worker = .returned → loop'.worker = .returned) := by
  have still (same : (r.act i).loops = r.loops) : ∃ loop, r.loops[k]? = some loop ∧ loop'.running = loop.running ∧
      (loop.worker ≠ .idle → loop'.worker ≠ .idle) ∧ (loop.worker = .returned → loop'.worker = .returned) :=
    ⟨loop', same ▸ at_k, rfl, id, id⟩
  cases i with
  | sendIBC c port chan dstChain dstPort dstChan payload =>
    refine still ?_
    simp only [Stopping.act]
    split <;> rfl
  | submit n tx drop =>
    refine still ?_
    simp only [Stopping.act]
    split
    · unfold Stopping.sends
      split <;> rfl
    · rfl
  | deliver k => exact still (deliver_sim sized k).2.loops
  | nodeStep n => exact still (nodeStep_sim r n).2.loops
  | workerStep w =>
    obtain ⟨workers, moved⟩ := workerStep_frame r w
    exact still (by simp only [Stopping.act, moved])
  | wake w =>
    obtain ⟨workers, moved⟩ := wake_frame r w
    exact still (by simp only [Stopping.act, moved])
  | stop => exact absurd rfl other
  | relayerStep m drops =>
    have moved {loop : RelayerLoop} {v : RelayerPoint} (at_m : r.loops[m]? = some loop)
        (here : (r.relayerStep m drops).loops = r.loops.set m { loop with worker := v }) (up : v ≠ .idle)
        (alive : loop.worker ≠ .returned) : ∃ loop, r.loops[k]? = some loop ∧ loop'.running = loop.running ∧
          (loop.worker ≠ .idle → loop'.worker ≠ .idle) ∧ (loop.worker = .returned → loop'.worker = .returned) := by
      change (r.relayerStep m drops).loops[k]? = some loop' at at_k
      rw [here] at at_k
      rcases getElem?_set_cases at_k with ⟨rfl, rfl⟩ | old
      · exact ⟨loop, at_m, rfl, fun _ => up, fun gone => absurd gone alive⟩
      · exact ⟨loop', old, rfl, id, id⟩
    cases at_m : r.loops[m]? with
    | none =>
      refine still ?_
      simp only [Stopping.act, Stopping.relayerStep, at_m]
    | some loop =>
      cases point : loop.worker with
      | idle | returned =>
        refine still ?_
        simp only [Stopping.act, Stopping.relayerStep, at_m, point]
      | atTest =>
        refine moved at_m (v := if loop.running then .atPackets else .returned) ?_ ?_ (by rw [point]; decide)
        · simp only [Stopping.relayerStep, at_m, point]
        · split <;> decide
      | atPackets =>
        refine moved at_m (v := .atAcks) ?_ (by decide) (by rw [point]; decide)
        simp only [Stopping.relayerStep, at_m, point]
      | atAcks =>
        refine moved at_m (v := .atTest) ?_ (by decide) (by rw [point]; decide)
        simp only [Stopping.relayerStep, at_m, point]

theorem other_node {l : Ledger} (move : Move r i l) (other : i ≠ .stop) {m : ℕ} {node' : SimNode}
    (at_m : l.nodes[m]? = some node') : ∃ node, r.sim.nodes[m]? = some node ∧
      node'.node.inbox.closed = node.node.inbox.closed ∧ (node.node.worker ≠ .idle → node'.node.worker ≠ .idle) := by
  have unchanged (at_m : r.sim.nodes[m]? = some node') : ∃ node, r.sim.nodes[m]? = some node ∧
      node'.node.inbox.closed = node.node.inbox.closed ∧ (node.node.worker ≠ .idle → node'.node.worker ≠ .idle) :=
    ⟨node', at_m, rfl, id⟩
  cases move with
  | quiet | sent | refused => exact unchanged at_m
  | delivered k n id task node msg at_k number yes at_n =>
    rcases getElem?_set_cases at_m with ⟨rfl, rfl⟩ | old
    · exact ⟨node, at_n, rfl, fun up => up⟩
    · exact unchanged old
  | walked n node w at_n why =>
    rcases getElem?_set_cases at_m with ⟨rfl, rfl⟩ | old
    · refine ⟨node, at_n, rfl, fun up => ?_⟩
      rcases why with rfl | ⟨-, rfl⟩ | ⟨-, rfl⟩
      · exact up
      · dsimp only
        split <;> exact fun f => nomatch f
      · exact fun f => nomatch f
    · exact unchanged old
  | took n id node msg rest ids at_n =>
    rcases getElem?_set_cases at_m with ⟨rfl, rfl⟩ | old
    · exact ⟨node, at_n, rfl, fun _ f => nomatch f⟩
    · exact unchanged old
  | broke n id node msg rest ids e at_n =>
    rcases getElem?_set_cases at_m with ⟨rfl, rfl⟩ | old
    · exact ⟨node, at_n, rfl, fun _ f => nomatch f⟩
    · exact unchanged old
  | flagged => exact absurd rfl other

theorem manned_other (h : Manned r) (sized : Sized (ledger r)) (count : (r.act i).loops.length = r.loops.length)
    (other : i ≠ .stop) : Manned (r.act i) := by
  have move := act_moves sized i
  have point := (act_point (r := r) other).1
  constructor
  · intro loop' member
    obtain ⟨k, at_k⟩ := List.mem_iff_getElem?.mp member
    obtain ⟨loop, before, -, up, -⟩ := other_loop sized other at_k
    exact up (h.relayers loop (List.mem_of_getElem? before))
  · intro node' member
    obtain ⟨m, at_m⟩ := List.mem_iff_getElem?.mp member
    obtain ⟨node, before, -, up⟩ := other_node move other at_m
    exact up (h.nodes node (List.mem_of_getElem? before))
  · intro k loop' at_k
    obtain ⟨loop, before, flag, -⟩ := other_loop sized other at_k
    rw [flag, count, point]
    exact h.flags k loop before
  · intro k loop' at_k earlier
    obtain ⟨loop, before, -, -, gone⟩ := other_loop sized other at_k
    rw [count, point] at earlier
    exact gone (h.left k loop before earlier)
  · intro k c here inside
    rw [count]
    exact h.inside k c (point.symm.trans here) inside
  · intro n c here inside
    obtain ⟨which, node, at_n, down, shut⟩ := h.closing n c (point.symm.trans here) inside
    refine ⟨which, ?_⟩
    have there : n < (r.act i).sim.nodes.length := by
      have same : (r.act i).sim.nodes.length = r.sim.nodes.length := (move_counts move).1
      rw [same]
      exact (List.getElem?_eq_some_iff.mp at_n).1
    have after : (r.act i).sim.nodes[n]? = some (r.act i).sim.nodes[n] := List.getElem?_eq_getElem there
    obtain ⟨node', before, flag, -⟩ := move_node move after
    obtain ⟨node'', before', closed, -⟩ := other_node move other after
    obtain rfl : node' = node := Option.some.inj (before.symm.trans at_n)
    obtain rfl : node'' = node' := Option.some.inj (before'.symm.trans at_n)
    exact ⟨_, after, (flag other).trans down, fun joining => closed.trans (shut joining)⟩

end Others

section Stops
variable {r r' : Stopping}

theorem Manned.onward (h : Manned r) (loops : r'.loops = r.loops)
    (nodes : ∀ node' ∈ r'.sim.nodes, ∃ node ∈ r.sim.nodes, node'.node.worker = node.node.worker)
    (flags : ∀ k < r.loops.length,
      (k < endedRelayers r.loops.length r'.point ↔ k < endedRelayers r.loops.length r.point))
    (left : ∀ k loop, r.loops[k]? = some loop → k < joinedRelayers r.loops.length r'.point →
      loop.worker = .returned)
    (inside : ∀ k c, r'.point = .relayer k c → c ≠ .free → k < r.loops.length)
    (closing : ∀ n c, r'.point = .node n c → c ≠ .free → c ≠ .closingAcks ∧ ∃ node, r'.sim.nodes[n]? = some node ∧
      node.node.running = false ∧ (c = .joining → node.node.inbox.closed = true)) : Manned r' := by
  constructor
  · rw [loops]
    exact h.relayers
  · intro node' member
    obtain ⟨node, before, same⟩ := nodes node' member
    rw [same]
    exact h.nodes node before
  · rw [loops]
    intro k loop at_k
    rw [h.flags k loop at_k, flags k (List.getElem?_eq_some_iff.mp at_k).1]
  · rw [loops]
    exact left
  · rw [loops]
    exact inside
  · exact closing

theorem Manned.passing (h : Manned r) (loops : r'.loops = r.loops) (nodes : r'.sim.nodes = r.sim.nodes)
    (flags : ∀ k < r.loops.length,
      (k < endedRelayers r.loops.length r'.point ↔ k < endedRelayers r.loops.length r.point))
    (left : ∀ k loop, r.loops[k]? = some loop → k < joinedRelayers r.loops.length r'.point →
      loop.worker = .returned)
    (inside : ∀ k c, r'.point = .relayer k c → c ≠ .free → k < r.loops.length)
    (outside : ∀ n c, r'.point = .node n c → c = .free) : Manned r' := by
  refine h.onward loops (fun node member => ⟨node, nodes ▸ member, rfl⟩) flags left inside ?_
  intro n c here within
  exact absurd (outside n c here) within

theorem Manned.inNode (h : Manned r) {n : ℕ} {c c' : Caller} {f : Node → Node} (here : r.point = .node n c)
    (kept : ∀ node, (f node).worker = node.worker) (which : c' ≠ .closingAcks)
    (touched : ∃ node, r.sim.nodes[n]? = some node ∧ (f node.node).running = false ∧
      (c' = .joining → (f node.node).inbox.closed = true)) :
    Manned { r.moveNode n f with point := .node n c' } := by
  refine h.onward rfl ?_ ?_ ?_ ?_ ?_
  · intro node' member
    obtain ⟨m, at_m⟩ := List.mem_iff_getElem?.mp member
    obtain ⟨node, before, ⟨-, moved⟩ | ⟨-, rfl⟩⟩ := node_modify at_m
    · refine ⟨node, List.mem_of_getElem? before, ?_⟩
      rw [moved, kept]
    · exact ⟨node', List.mem_of_getElem? before, rfl⟩
  · intro k inside
    rw [here]
    exact Iff.rfl
  · intro k loop at_k earlier
    refine h.left k loop at_k ?_
    rw [here]
    exact earlier
  · intro k c'' there
    cases there
  · intro m c'' there inside
    obtain ⟨rfl, rfl⟩ := StopPoint.node.inj there
    obtain ⟨node, at_n, down, shut⟩ := touched
    refine ⟨which, { node with node := f node.node }, ?_, down, shut⟩
    change (r.sim.nodes.modify n _)[n]? = _
    rw [List.getElem?_modify_eq, at_n]
    rfl

theorem Manned.clearedRelayer (h : Manned r) {k : ℕ} {loop : RelayerLoop} (here : r.point = .relayer k .free)
    (at_k : r.loops[k]? = some loop) :
    Manned { r with loops := r.loops.set k { loop with running := false }, point := .relayer k .closing } := by
  have within := (List.getElem?_eq_some_iff.mp at_k).1
  have flags := h.flags
  have left := h.left
  rw [here] at left flags
  refine ⟨?_, h.nodes, ?_, ?_, ?_, fun n c f => nomatch f⟩
  · intro loop' member
    rcases List.mem_or_eq_of_mem_set member with old | rfl
    · exact h.relayers loop' old
    · exact h.relayers loop (List.mem_of_getElem? at_k)
  · intro m loop' at_m
    change loop'.running = false ↔ m < k + 1
    rcases getElem?_set_split at_m with ⟨rfl, rfl⟩ | ⟨other, old⟩
    · exact ⟨fun _ => Nat.lt_succ_self m, fun _ => rfl⟩
    · rw [flags m loop' old]
      change m < k ↔ m < k + 1
      omega
  · intro m loop' at_m earlier
    change m < k at earlier
    rcases getElem?_set_split at_m with ⟨rfl, rfl⟩ | ⟨other, old⟩
    · exact absurd earlier (Nat.lt_irrefl m)
    · exact left m loop' old earlier
  · intro m c there _
    obtain ⟨rfl, -⟩ := StopPoint.relayer.inj there
    change k < (r.loops.set k _).length
    rw [List.length_set]
    exact within

theorem Manned.joinedRelayer (h : Manned r) {k : ℕ} {loop : RelayerLoop} (here : r.point = .relayer k .joining)
    (at_k : r.loops[k]? = some loop) (returned : loop.worker = .returned) :
    Manned { r with point := .relayer (k + 1) .free } := by
  have left := h.left
  rw [here] at left
  refine h.passing rfl rfl ?_ ?_ ?_ (fun n c f => nomatch f)
  · rw [here]
    exact fun m _ => Iff.rfl
  · intro m loop' at_m earlier
    rcases Nat.lt_succ_iff_lt_or_eq.mp earlier with before | rfl
    · exact left m loop' at_m before
    · obtain rfl : loop' = loop := Option.some.inj (at_m.symm.trans at_k)
      exact returned
  · intro m c there outside
    exact absurd (StopPoint.relayer.inj there).2.symm outside

theorem manned_stop (h : Manned r) : Manned r.stop := by
  have advance := stop_advances r
  have left := h.left
  have inside := h.inside
  generalize r.stop = r' at advance ⊢
  cases advance with
  | waits => exact h
  | called here =>
    refine h.passing rfl rfl ?_ ?_ (fun k c f => nomatch f) (fun n c f => nomatch f)
    · rw [here]
      exact fun k _ => Iff.rfl
    · exact fun k loop _ none => absurd none (Nat.not_lt_zero k)
  | joinedTraffic here =>
    refine h.passing rfl rfl ?_ ?_ ?_ (fun n c f => nomatch f)
    · rw [here]
      exact fun k _ => Iff.rfl
    · exact fun k loop _ none => absurd none (Nat.not_lt_zero k)
    · intro k c there outside
      exact absurd (StopPoint.relayer.inj there).2.symm outside
  | clearedRelayer k loop here at_k => exact h.clearedRelayer here at_k
  | passedRelayer k loop here at_k down =>
    have earlier := (h.flags k loop at_k).mp down
    rw [here] at earlier
    exact absurd earlier (Nat.lt_irrefl k)
  | pastRelayers k here none =>
    have all := List.getElem?_eq_none_iff.mp none
    rw [here] at left
    refine h.passing rfl rfl ?_ ?_ (fun k c f => nomatch f) ?_
    · intro m within
      rw [here]
      exact ⟨fun _ => Nat.lt_of_lt_of_le within all, fun _ => within⟩
    · intro m loop at_m _
      exact left m loop at_m (Nat.lt_of_lt_of_le (List.getElem?_eq_some_iff.mp at_m).1 all)
    · intro n c there
      exact (StopPoint.node.inj there).2.symm
  | closedPackets k here | closedAcks k here =>
    rw [here] at left
    refine h.passing rfl rfl ?_ left ?_ (fun n c f => nomatch f)
    · rw [here]
      exact fun m _ => Iff.rfl
    · intro m c there _
      obtain ⟨rfl, -⟩ := StopPoint.relayer.inj there
      exact inside _ _ here (by decide)
  | joinedRelayer k loop here at_k returned => exact h.joinedRelayer here at_k returned
  | clearedNode n node here at_n =>
    exact h.inNode here (fun node => rfl) (by decide) ⟨node, at_n, rfl, fun f => nomatch f⟩
  | closedNode n here =>
    obtain ⟨-, node, at_n, down, -⟩ := h.closing n _ here (by decide)
    exact h.inNode here (fun node => rfl) (by decide) ⟨node, at_n, down, fun _ => rfl⟩
  | passedNode n node here | joinedNode n node here =>
    rw [here] at left
    refine h.passing rfl rfl ?_ left (fun k c f => nomatch f) ?_
    · rw [here]
      exact fun m _ => Iff.rfl
    · intro m c there
      exact (StopPoint.node.inj there).2.symm
  | pastNodes n here | drained here | clearedFlag here | notified here | joinedWorker w here | pastWorkers w here =>
    rw [here] at left
    refine h.passing rfl rfl ?_ left (fun k c f => nomatch f) (fun n c f => nomatch f)
    rw [here]
    exact fun m _ => Iff.rfl

end Stops

def FlagDown : StopPoint → Prop
  | .notifying | .worker _ | .returned => True
  | _ => False

def Notified : StopPoint → Prop
  | .worker _ | .returned => True
  | _ => False

def joinedWorkers (count : ℕ) : StopPoint → ℕ
  | .worker w => w
  | .returned => count
  | _ => 0

/-- How far the transport is shut down. -/
structure Shutting (r : Stopping) : Prop where
  empty : Drained r.point → r.sim.transport.tasks = []
  flag : FlagDown r.point → r.transportRuns = false
  left : ∀ w p, r.workers[w]? = some p → w < joinedWorkers r.workers.length r.point → p = .returned

/-- Not in a wait, and not on the way into one. -/
def Alert (p : TransportPoint) : Prop := p = .atTest ∨ p = .returned

section Transport
variable {r : Stopping} {i : StopInput}

/-- Only `stop` clears the flag, and once it is down a worker goes one way. -/
structure Crewed (r r' : Stopping) : Prop where
  runs : r'.transportRuns = r.transportRuns
  count : r'.workers.length = r.workers.length
  workers : ∀ (w : ℕ) (p' : TransportPoint), r'.workers[w]? = some p' → ∃ p : TransportPoint, r.workers[w]? = some p ∧ (p = .returned → p' = .returned) ∧
    (r.transportRuns = false → Alert p → Alert p')

theorem crewed_same {r' : Stopping} (workers : r'.workers = r.workers) (runs : r'.transportRuns = r.transportRuns) :
    Crewed r r' :=
  ⟨runs, by rw [workers], fun w p' at_w => ⟨p', workers ▸ at_w, id, fun _ => id⟩⟩

theorem crewed_set {k : ℕ} {p p' : TransportPoint} (at_k : r.workers[k]? = some p) (alive : p ≠ .returned)
    (alert : r.transportRuns = false → Alert p → Alert p') : Crewed r { r with workers := r.workers.set k p' } := by
  refine ⟨rfl, List.length_set, fun w q at_w => ?_⟩
  rcases getElem?_set_cases at_w with ⟨rfl, rfl⟩ | old
  · exact ⟨p, at_k, fun gone => absurd gone alive, alert⟩
  · exact ⟨q, old, id, fun _ => id⟩

theorem other_worker (sized : Sized (ledger r)) (other : i ≠ .stop) : Crewed r (r.act i) := by
  cases i with
  | sendIBC =>
    simp only [Stopping.act]
    split <;> exact crewed_same rfl rfl
  | submit =>
    simp only [Stopping.act]
    split
    · exact crewed_same (sends_workers r _) (sends_runs r _)
    · exact crewed_same rfl rfl
  | relayerStep k drops =>
    obtain ⟨-, -, -, -, workers, runs⟩ := relayerStep_frame r k drops
    exact crewed_same workers runs
  | deliver k =>
    have aside := (deliver_sim sized k).2
    exact crewed_same aside.workers aside.runs
  | nodeStep n =>
    have aside := (nodeStep_sim r n).2
    exact crewed_same aside.workers aside.runs
  | workerStep w =>
    simp only [Stopping.act, Stopping.workerStep]
    split
    · rename_i at_w
      split
      · rename_i runs
        split
        · exact crewed_set at_w (by decide) fun down => absurd (down.symm.trans runs) (by decide)
        · exact crewed_same rfl rfl
      · exact crewed_set at_w (by decide) fun _ _ => .inr rfl
    · rename_i at_w
      refine crewed_set at_w (by decide) fun _ alert => ?_
      rcases alert with f | f <;> cases f
    · exact crewed_same rfl rfl
  | wake w =>
    simp only [Stopping.act, Stopping.wake]
    split
    · rename_i at_w
      exact crewed_set at_w (by decide) fun _ _ => .inl rfl
    · exact crewed_same rfl rfl
  | stop => exact absurd rfl other

theorem other_empty (manned : Manned r) (other : i ≠ .stop) (late : Drained r.point)
    (empty : r.sim.transport.tasks = []) : (r.act i).sim.transport.tasks = [] := by
  have silent : r.trafficRuns = false := by
    unfold Stopping.trafficRuns
    cases point : r.point <;> rw [point] at late <;> first | exact late.elim | rfl
  have joined : joinedRelayers r.loops.length r.point = r.loops.length := by
    cases point : r.point <;> rw [point] at late <;> first | exact late.elim | rfl
  cases i with
  | sendIBC | submit => simp [Stopping.act, silent, empty]
  | relayerStep k drops =>
    simp only [Stopping.act, Stopping.relayerStep]
    cases at_k : r.loops[k]? with
    | none => exact empty
    | some loop =>
      have gone := manned.left k loop at_k (by rw [joined]; exact (List.getElem?_eq_some_iff.mp at_k).1)
      dsimp only
      rw [gone]
      exact empty
  | deliver k =>
    have nothing : r.deliver k = r := by simp [Stopping.deliver, empty]
    simp only [Stopping.act, nothing, empty]
  | nodeStep n =>
    simp only [Stopping.act, (nodeStep_sim r n).1]
    cases at_n : r.sim.nodes[n]? with
    | none => simpa only [Sim.nodeStep, at_n] using empty
    | some node =>
      cases at_c : r.sim.chains[node.chain]? with
      | none => simpa only [Sim.nodeStep, at_n, at_c] using empty
      | some b => rw [(nodeStep_frame r.sim at_n at_c).2, empty]
  | workerStep w =>
    obtain ⟨workers, moved⟩ := workerStep_frame r w
    simp only [Stopping.act, moved, empty]
  | wake w =>
    obtain ⟨workers, moved⟩ := wake_frame r w
    simp only [Stopping.act, moved, empty]
  | stop => exact absurd rfl other

theorem shutting_other (h : Shutting r) (manned : Manned r) (sized : Sized (ledger r)) (other : i ≠ .stop) :
    Shutting (r.act i) := by
  have point := (act_point (r := r) other).1
  obtain ⟨runs, count, workers⟩ := other_worker sized other
  constructor
  · rw [point]
    exact fun late => other_empty manned other late (h.empty late)
  · rw [point, runs]
    exact h.flag
  · rw [point, count]
    intro w p' at_w earlier
    obtain ⟨p, before, gone, -⟩ := workers w p' at_w
    exact gone (h.left w p before earlier)

theorem shutting_stop (h : Shutting r) : Shutting r.stop := by
  have advance := stop_advances r
  have early {r' : Stopping} (undrained : ¬ Drained r'.point) (up : ¬ FlagDown r'.point)
      (none : joinedWorkers r'.workers.length r'.point = 0) : Shutting r' :=
    ⟨fun late => absurd late undrained, fun down => absurd down up,
      fun w p _ earlier => absurd (none ▸ earlier) (Nat.not_lt_zero w)⟩
  generalize r.stop = r' at advance ⊢
  cases advance with
  | waits => exact h
  | called | joinedTraffic | clearedRelayer | passedRelayer | pastRelayers | closedPackets | closedAcks | joinedRelayer
  | clearedNode | passedNode | pastNodes | closedNode | joinedNode => exact early id id rfl
  | drained here empty =>
    exact ⟨fun _ => empty, fun down => down.elim, fun w p _ earlier => absurd earlier (Nat.not_lt_zero w)⟩
  | clearedFlag here =>
    have late : Drained r.point := by rw [here]; trivial
    exact ⟨fun _ => h.empty late, fun _ => rfl, fun w p _ earlier => absurd earlier (Nat.not_lt_zero w)⟩
  | notified here =>
    have late : Drained r.point ∧ FlagDown r.point := by rw [here]; exact ⟨trivial, trivial⟩
    exact ⟨fun _ => h.empty late.1, fun _ => h.flag late.2, fun w p _ earlier => absurd earlier (Nat.not_lt_zero w)⟩
  | joinedWorker k here at_k =>
    have late : Drained r.point ∧ FlagDown r.point := by rw [here]; exact ⟨trivial, trivial⟩
    have left := h.left
    rw [here] at left
    refine ⟨fun _ => h.empty late.1, fun _ => h.flag late.2, fun w p at_w earlier => ?_⟩
    rcases Nat.lt_succ_iff_lt_or_eq.mp earlier with before | rfl
    · exact left w p at_w before
    · exact Option.some.inj (at_w.symm.trans at_k)
  | pastWorkers k here none =>
    have late : Drained r.point ∧ FlagDown r.point := by rw [here]; exact ⟨trivial, trivial⟩
    have left := h.left
    rw [here] at left
    refine ⟨fun _ => h.empty late.1, fun _ => h.flag late.2, fun w p at_w _ => left w p at_w ?_⟩
    exact Nat.lt_of_lt_of_le (List.getElem?_eq_some_iff.mp at_w).1 (List.getElem?_eq_none_iff.mp none)

/-- `shutdown` does not notify while a worker stands between the test of its wait and the block. -/
def NotifiesAwake (r : Stopping) (i : StopInput) : Prop :=
  i = .stop → r.point = .notifying → .aboutToWait ∉ r.workers

/-- Then no worker waits once they have been notified. -/
def Alerted (r : Stopping) : Prop := Notified r.point → ∀ p ∈ r.workers, Alert p

theorem alerted_act (h : Alerted r) (shutting : Shutting r) (sized : Sized (ledger r)) (awake : NotifiesAwake r i) :
    Alerted (r.act i) := by
  by_cases other : i = .stop
  · subst other
    have advance := stop_advances r
    change Alerted r.stop
    generalize r.stop = r' at advance ⊢
    cases advance with
    | waits => exact h
    | called | joinedTraffic | clearedRelayer | passedRelayer | pastRelayers | closedPackets | closedAcks | joinedRelayer
    | clearedNode | passedNode | pastNodes | closedNode | joinedNode | drained | clearedFlag => exact fun f => f.elim
    | notified here =>
      intro _ p member
      obtain ⟨q, old, rfl⟩ := List.mem_map.mp member
      cases q with
      | atTest | waiting => exact .inl rfl
      | returned => exact .inr rfl
      | aboutToWait => exact absurd old (awake rfl here)
    | joinedWorker k here | pastWorkers k here => exact fun _ => h (by rw [here]; trivial)
  · obtain ⟨-, -, workers⟩ := other_worker sized other
    intro notified p' member
    rw [(act_point (r := r) other).1] at notified
    obtain ⟨w, at_w⟩ := List.mem_iff_getElem?.mp member
    obtain ⟨p, before, -, alert⟩ := workers w p' at_w
    refine alert (shutting.flag ?_) (h notified p (List.mem_of_getElem? before))
    cases point : r.point <;> rw [point] at notified <;> first | exact notified.elim | trivial

theorem act_crew (sized : Sized (ledger r)) (i : StopInput) : (r.act i).workers.length = r.workers.length := by
  by_cases other : i = .stop
  · subst other
    have advance := stop_advances r
    change r.stop.workers.length = _
    generalize r.stop = r' at advance ⊢
    cases advance with
    | notified => exact List.length_map ..
    | waits | called | joinedTraffic | clearedRelayer | passedRelayer | pastRelayers | closedPackets | closedAcks
    | joinedRelayer | clearedNode | passedNode | pastNodes | closedNode | joinedNode | drained | clearedFlag
    | joinedWorker | pastWorkers => rfl
  · exact (other_worker sized other).count

end Transport

/-- No step is left that gets something done. -/
def Stuck (r : Stopping) : Prop := ∀ i, ¬ Effective r i

structure Running (w : Wiring) (r : Stopping) : Prop where
  settled : Settled w r
  manned : Manned r
  shutting : Shutting r

theorem running_act {w : Wiring} {r : Stopping} (h : Running w r) (i : StopInput) : Running w (r.act i) := by
  have settled := settled_act h.settled i
  have sized := h.settled.kept.booked.sized
  by_cases other : i = .stop
  · subst other
    exact ⟨settled, manned_stop h.manned, shutting_stop h.shutting⟩
  · have count := length_loops_act sized i
    exact ⟨settled, manned_other h.manned sized count other, shutting_other h.shutting h.manned sized other⟩

theorem running_step {w : Wiring} {r : Stopping} (h : Running w r) (i : StopInput) :
    Running w (stopMachine.step r i).1 := by
  rcases stop_step r i with ⟨-, same⟩ | ⟨-, moved⟩
  · rw [same]
    exact h
  · rw [moved]
    exact running_act h i

/-- A join waits only for a worker that can go on. -/
theorem stuck_relayer {w : Wiring} {r : Stopping} (h : Running w r) (alive : r.sim.crashed = false) (stuck : Stuck r)
    {k : ℕ} {c : Caller} (here : r.point = .relayer k c) : r.stop.point ≠ r.point := by
  cases c with
  | free =>
    simp only [Stopping.stop, here]
    split
    · intro same
      cases same
    · split
      · intro same
        cases same
      · simp
  | closing | closingAcks => simp [Stopping.stop, here]
  | joining =>
    have within := h.manned.inside k _ here (by decide)
    have at_k : r.loops[k]? = some r.loops[k] := List.getElem?_eq_getElem within
    rw [h.settled.crewed] at within
    have at_rel : r.sim.relayers[k]? = some r.sim.relayers[k] := List.getElem?_eq_getElem within
    generalize r.loops[k] = loop at at_k
    have down : loop.running = false := by
      rw [h.manned.flags k loop at_k, here]
      exact Nat.lt_succ_self k
    have still (point : loop.worker = .atTest ∨ loop.worker = .atPackets ∨ loop.worker = .atAcks) : False :=
      stuck (.relayerStep k ⟨false, false⟩) ⟨alive, loop, _, at_k, at_rel, point, .inl down⟩
    cases gone : loop.worker with
    | idle => exact absurd gone (h.manned.relayers loop (List.mem_of_getElem? at_k))
    | atTest => exact (still (.inl gone)).elim
    | atPackets => exact (still (.inr (.inl gone))).elim
    | atAcks => exact (still (.inr (.inr gone))).elim
    | returned => simp [Stopping.stop, here, at_k, gone]

theorem stuck_node {w : Wiring} {r : Stopping} (h : Running w r) (alive : r.sim.crashed = false) (stuck : Stuck r)
    {n : ℕ} {c : Caller} (here : r.point = .node n c) : r.stop.point ≠ r.point := by
  cases c with
  | free =>
    simp only [Stopping.stop, here]
    split
    · intro same
      cases same
    · split
      · intro same
        cases same
      · simp
  | closing => simp [Stopping.stop, here]
  | closingAcks => exact absurd rfl (h.manned.closing n _ here (by decide)).1
  | joining =>
    obtain ⟨-, node, at_n, -, shut⟩ := h.manned.closing n _ here (by decide)
    cases gone : node.node.worker with
    | idle => exact absurd gone (h.manned.nodes node (List.mem_of_getElem? at_n))
    | atTest => exact absurd ⟨alive, node, at_n, .inl gone⟩ (stuck (.nodeStep n))
    | atPop => exact absurd ⟨alive, node, at_n, .inr ⟨gone, .inr (shut rfl)⟩⟩ (stuck (.nodeStep n))
    | terminated e =>
      have dead := crashed_of_terminated (List.mem_of_getElem? at_n) gone
      rw [alive] at dead
      cases dead
    | returned => simp [Stopping.stop, here, at_n, gone]

/-- `stop` has returned, and nothing runs any more. -/
structure Returned (r : Stopping) : Prop where
  point : r.point = .returned
  tasks : r.sim.transport.tasks = []
  loops : ∀ loop ∈ r.loops, loop.worker = .returned
  nodes : ∀ node ∈ r.sim.nodes, node.node.worker = .returned
  workers : ∀ p ∈ r.workers, p = .returned

/-- `shutdown` joins a worker that waits for a notification it has missed. -/
def Missed (r : Stopping) : Prop := ∃ w, r.point = .worker w ∧ r.workers[w]? = some .waiting

theorem stuck_worker {w : Wiring} {r : Stopping} (h : Running w r) (alive : r.sim.crashed = false) (stuck : Stuck r)
    {k : ℕ} (here : r.point = .worker k) : r.stop.point ≠ r.point ∨ Missed r := by
  have down : r.transportRuns = false := h.shutting.flag (by rw [here]; trivial)
  cases at_k : r.workers[k]? with
  | none =>
    left
    simp [Stopping.stop, here, at_k]
  | some p =>
    cases p with
    | returned =>
      left
      simp [Stopping.stop, here, at_k]
    | atTest => exact absurd ⟨alive, .inl ⟨at_k, .inl down⟩⟩ (stuck (.workerStep k))
    | aboutToWait => exact absurd ⟨alive, .inr at_k⟩ (stuck (.workerStep k))
    | waiting => exact .inr ⟨k, here, at_k⟩

theorem stuck_ends {w : Wiring} {r : Stopping} (h : Running w r) (called : r.point ≠ .notCalled)
    (alive : r.sim.crashed = false) (stuck : Stuck r) : Returned r ∨ Missed r := by
  have stays : r.stop.point = r.point := by
    by_contra moves
    exact stuck .stop ⟨alive, moves⟩
  have empty : r.sim.transport.tasks = [] := by
    by_contra some
    exact stuck (.deliver 0) ⟨alive, List.length_pos_iff.mpr some⟩
  have ends : r.point = .returned ∨ Missed r := by
    cases here : r.point with
    | notCalled => exact absurd here called
    | traffic | shuttingDown | notifying => simp [Stopping.stop, here] at stays
    | draining => simp [Stopping.stop, here, empty] at stays
    | returned => exact .inl rfl
    | relayer k c => exact absurd stays (stuck_relayer h alive stuck here)
    | node n c => exact absurd stays (stuck_node h alive stuck here)
    | worker k => exact .inr ((stuck_worker h alive stuck here).resolve_left (absurd stays))
  refine ends.imp_left fun returned => ⟨returned, empty, ?_, ?_, ?_⟩
  · intro loop member
    obtain ⟨k, at_k⟩ := List.mem_iff_getElem?.mp member
    refine h.manned.left k loop at_k ?_
    rw [returned]
    exact (List.getElem?_eq_some_iff.mp at_k).1
  · intro node member
    obtain ⟨m, at_m⟩ := List.mem_iff_getElem?.mp member
    refine h.settled.kept.phased.gone m node at_m ?_
    rw [returned]
    exact (List.getElem?_eq_some_iff.mp at_m).1
  · intro p member
    obtain ⟨k, at_k⟩ := List.mem_iff_getElem?.mp member
    refine h.shutting.left k p at_k ?_
    rw [returned]
    exact (List.getElem?_eq_some_iff.mp at_k).1

theorem not_missed {r : Stopping} (h : Alerted r) : ¬ Missed r := by
  rintro ⟨k, here, at_k⟩
  rcases h (by rw [here]; trivial) _ (List.mem_of_getElem? at_k) with f | f <;> cases f

theorem called_act {r : Stopping} (called : r.point ≠ .notCalled) (i : StopInput) : (r.act i).point ≠ .notCalled := by
  by_cases other : i = .stop
  · subst other
    have advance := stop_advances r
    change r.stop.point ≠ _
    generalize r.stop = r' at advance ⊢
    cases advance with
    | waits => exact called
    | called | joinedTraffic | clearedRelayer | passedRelayer | pastRelayers | closedPackets | closedAcks | joinedRelayer
    | clearedNode | passedNode | pastNodes | closedNode | joinedNode | drained | clearedFlag | notified | joinedWorker
    | pastWorkers => exact fun f => nomatch f
  · rw [(act_point other).1]
    exact called

theorem started_running {opens : Bytes → Bool} {relayerCount : ℕ} {configs : List ChainConfig} {s : Sim} (laid : Laid opens relayerCount configs s)
    (idle : Idle s) : Running (wiring s) (started s) := by
  have fresh : ∀ loop ∈ (started s).loops, loop = ⟨true, .atTest⟩ := by
    intro loop member
    obtain ⟨rel, -, same⟩ := List.mem_map.mp member
    exact same.symm
  refine ⟨⟨GracefulStop.Laid.kept laid, start_wiring s, fun b member => ((start_ready idle).chains b member).1, ?_⟩,
    ⟨?_, ?_, ?_, ?_, (by rintro _ _ ⟨⟩), (by rintro _ _ ⟨⟩)⟩, ⟨False.elim, False.elim, ?_⟩⟩
  · exact List.length_map ..
  · intro loop member
    rw [fresh loop member]
    exact fun f => nomatch f
  · intro node member
    obtain ⟨old, hold, rfl⟩ := List.mem_map.mp member
    obtain ⟨c, cfg, i, -, -, rfl⟩ := laid.mem_nodes.mp hold
    exact fun f => nomatch f
  · intro k loop at_k
    rw [fresh loop (List.mem_of_getElem? at_k)]
    exact ⟨fun f => absurd f (by decide), fun none => absurd none (Nat.not_lt_zero k)⟩
  · exact fun k loop _ none => absurd none (Nat.not_lt_zero k)
  · exact fun k p _ none => absurd none (Nat.not_lt_zero k)

def leftToDo (w : Wiring) (r : Stopping) : ℕ := rank (ackRank r.workers.length * w.relayers.length) r

theorem effective_falls {w : Wiring} (sound : Sound w) (r : Stopping) (i : StopInput)
    (h : Running w r ∧ r.point ≠ .notCalled) (effective : Effective r i) :
    (Running w (stopMachine.step r i).1 ∧ (stopMachine.step r i).1.point ≠ .notCalled) ∧
      leftToDo w (stopMachine.step r i).1 < leftToDo w r := by
  rcases stop_step r i with ⟨dead, -⟩ | ⟨-, moved⟩
  · rw [effective.1] at dead
    cases dead
  · rw [moved]
    refine ⟨⟨running_act h.1 i, called_act h.2 i⟩, ?_⟩
    unfold leftToDo
    rw [act_crew h.1.settled.kept.booked.sized i]
    exact act_falls sound h.1.settled effective

theorem alerted_step {w : Wiring} {r : Stopping} {i : StopInput} (awake : NotifiesAwake r i) (running : Running w r)
    (h : Alerted r) : Alerted (stopMachine.step r i).1 := by
  rcases stop_step r i with ⟨-, same⟩ | ⟨-, moved⟩
  · rw [same]
    exact h
  · rw [moved]
    exact alerted_act h running.shutting running.settled.kept.booked.sized awake

/-- A step that gets something done can be put off to one that does not notify too early. -/
theorem stuck_awake {r : Stopping} (none : ∀ i, ¬ (Effective r i ∧ NotifiesAwake r i)) : Stuck r := by
  intro i effective
  refine none i ⟨effective, ?_⟩
  rintro rfl here member
  obtain ⟨k, at_k⟩ := List.mem_iff_getElem?.mp member
  exact none (.workerStep k) ⟨⟨effective.1, .inr at_k⟩, by rintro ⟨⟩⟩

/-- Once `stop` has been called, every schedule comes to its end: `stop` has returned, or an exception has
    ended the process, or `shutdown` waits for a worker that missed the notification. The last cannot be
    where it never notifies while a worker stands before its wait. -/
theorem stop_returns (opens : Bytes → Bool) (relayerCount : ℕ) (configs : List ChainConfig)
    (distinct : (configs.map (·.chainId)).Nodup) :
    ∃ s, Sim.init opens relayerCount configs = .ok s ∧
      ∀ before : List StopInput, (stopMachine.final (started s) before).point ≠ .notCalled →
        let goes := stopMachine.Guarded (fun r _ i => Effective r i) (stopMachine.final (started s) before) []
        let awake := stopMachine.Guarded (fun r _ i => NotifiesAwake r i)
        (∃ own, goes own ∧ awake (stopMachine.final (started s) before) [] own ∧
          Stuck (stopMachine.final (started s) (before ++ own))) ∧
        ∃ bound, ∀ own, goes own → own.length ≤ bound ∧
          let r := stopMachine.final (started s) (before ++ own)
          Stuck r → (r.sim.crashed = true ∨ Returned r ∨ Missed r) ∧
            (awake (started s) [] (before ++ own) → r.sim.crashed = true ∨ Returned r) := by
  obtain ⟨s, init, built⟩ := init_built opens relayerCount configs distinct
  obtain ⟨s', init', laid⟩ := init_lays opens relayerCount (init_distinct init)
  obtain rfl : s = s' := Except.ok.inj (init.symm.trans init')
  refine ⟨s, init, fun before called => ?_⟩
  have fresh := started_running laid built.idle
  have start := stopMachine.invariant (I := Running (wiring s)) before fresh fun r i _ running => running_step running i
  have falls := effective_falls built.sound
  intro goes awake
  constructor
  · obtain ⟨own, guarded, none⟩ := stopMachine.exists_maximal (P := fun r i => Effective r i ∧ NotifiesAwake r i)
      (fun r i h both => falls r i h both.1) [] ⟨start, called⟩
    refine ⟨own, stopMachine.guarded_mono (fun _ _ _ both => both.1) guarded,
      stopMachine.guarded_mono (fun _ _ _ both => both.2) guarded, ?_⟩
    rw [stopMachine.final_append]
    exact stuck_awake none
  · refine ⟨leftToDo (wiring s) (stopMachine.final (started s) before), fun own guarded => ?_⟩
    obtain ⟨⟨running, called'⟩, bound⟩ := stopMachine.guarded_length_le falls guarded ⟨start, called⟩
    refine ⟨(Nat.le_add_right _ _).trans bound, fun stuck => ?_⟩
    rw [← stopMachine.final_append] at running called'
    cases alive : (stopMachine.final (started s) (before ++ own)).sim.crashed with
    | true => exact ⟨.inl rfl, fun _ => .inl rfl⟩
    | false =>
      have ends := stuck_ends running called' alive stuck
      refine ⟨.inr ends, fun safe => .inr (ends.resolve_right (not_missed ?_))⟩
      have alerted := stopMachine.guarded_invariant (I := fun r _ => Running (wiring s) r ∧ Alerted r) safe
        ⟨fresh, False.elim⟩ fun r _ i awake h => ⟨running_step h.1 i, alerted_step awake h.1 h.2⟩
      exact alerted.2

def relayedPair : Sim := (Sim.init (fun _ => true) 1 [⟨lit "A", 1⟩, ⟨lit "B", 1⟩]).toOption.getD .empty

theorem stop_returns_early : ∃ own, let r := stopMachine.final (started relayedPair) ([.stop] ++ own)
    r.sim.crashed = true ∨ r.point = .returned := by
  obtain ⟨s, init, returns⟩ := stop_returns (fun _ => true) 1 [⟨lit "A", 1⟩, ⟨lit "B", 1⟩] (by decide)
  have built : Sim.init (fun _ => true) 1 [⟨lit "A", 1⟩, ⟨lit "B", 1⟩] = .ok relayedPair := rfl
  obtain rfl : s = relayedPair := Except.ok.inj (init.symm.trans built)
  obtain ⟨⟨own, goes, awake, stuck⟩, bound, ends⟩ := returns [.stop] (by decide +kernel)
  have first : NotifiesAwake (started relayedPair) .stop := by
    rintro - ⟨⟩
  have safe := (stopMachine.guarded_append (P := fun r _ i => NotifiesAwake r i) (started relayedPair) [] [.stop]
    own).mpr ⟨⟨first, trivial⟩, ?_⟩
  · exact ⟨own, (((ends own goes).2 stuck).2 safe).imp_right fun back => back.point⟩
  · exact stopMachine.guarded_history _ [] _ awake

theorem missed_act {w : Wiring} {r : Stopping} {i : StopInput} (running : Running w r) (missed : Missed r)
    (effective : Effective r i) : Missed (r.act i) := by
  obtain ⟨k, here, at_k⟩ := missed
  have still : r.stop = r := by simp [Stopping.stop, here, at_k]
  have other : i ≠ .stop := by
    rintro rfl
    exact effective.2 (congrArg Stopping.point still)
  have elsewhere {j : ℕ} {p p' : TransportPoint} (at_j : r.workers[j]? = some p) (awake : p ≠ .waiting) :
      (r.workers.set j p')[k]? = some .waiting := by
    have apart : j ≠ k := by
      rintro rfl
      exact awake (Option.some.inj (at_j.symm.trans at_k))
    rw [List.getElem?_set_ne apart]
    exact at_k
  refine ⟨k, (act_point other).1.trans here, ?_⟩
  cases i with
  | sendIBC | submit => exact effective.2.elim
  | relayerStep j drops =>
    obtain ⟨-, -, -, -, workers, -⟩ := relayerStep_frame r j drops
    exact (congrArg (·[k]?) workers).trans at_k
  | deliver j =>
    have workers := (deliver_sim running.settled.kept.booked.sized j).2.workers
    exact (congrArg (·[k]?) workers).trans at_k
  | nodeStep n =>
    have workers := (nodeStep_sim r n).2.workers
    exact (congrArg (·[k]?) workers).trans at_k
  | workerStep j =>
    simp only [Stopping.act, Stopping.workerStep]
    split
    · rename_i at_j
      split
      · split
        · exact elsewhere at_j (by decide)
        · exact at_k
      · exact elsewhere at_j (by decide)
    · rename_i at_j
      exact elsewhere at_j (by decide)
    · exact at_k
  | wake j => exact absurd (running.shutting.empty (by rw [here]; trivial)) effective.2.2
  | stop => exact absurd rfl other

/-- Where `shutdown` has come to such a worker, `stop` never returns. -/
theorem missed_for_ever {relayerCount : ℕ} {configs : List ChainConfig} {opens : Bytes → Bool} {s : Sim}
    (laid : Laid opens relayerCount configs s) (idle : Idle s) (before : List StopInput)
    (missed : Missed (stopMachine.final (started s) before)) (own : List StopInput)
    (goes : stopMachine.Guarded (fun r _ i => Effective r i) (stopMachine.final (started s) before) [] own) :
    Missed (stopMachine.final (started s) (before ++ own)) := by
  have start := stopMachine.invariant (I := Running (wiring s)) before (started_running laid idle)
    fun r i _ running => running_step running i
  rw [stopMachine.final_append]
  refine (stopMachine.guarded_invariant (I := fun r _ => Running (wiring s) r ∧ Missed r) goes ⟨start, missed⟩ ?_).2
  rintro r - i effective ⟨running, missed⟩
  refine ⟨running_step running i, ?_⟩
  rcases stop_step r i with ⟨dead, -⟩ | ⟨-, moved⟩
  · rw [effective.1] at dead
    cases dead
  · rw [moved]
    exact missed_act running missed effective

/-- The relayer and both nodes are joined, and then the flag is cleared and the notification sent while
    the first worker goes into its wait. -/
example : Missed (stopMachine.final (started relayedPair) (List.replicate 5 .stop ++ [.relayerStep 0 ⟨false, false⟩] ++
    List.replicate 4 .stop ++ [.nodeStep 0] ++ List.replicate 3 .stop ++ [.nodeStep 1] ++ List.replicate 3 .stop ++
    [.workerStep 0, .stop, .stop, .workerStep 0])) :=
  ⟨0, by decide +kernel, by decide +kernel⟩

end InterchainCommunication.StopLiveness
