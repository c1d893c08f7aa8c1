import InterchainCommunication.StopPhases

set_option autoImplicit false

namespace InterchainCommunication.GracefulStop
open BagCounting ListUpdates StringText CoreTypes NodeModel
open RelayerModel SimulationModel SimulationWiring SimulationSteps WiringRuns UniqueWiring
open LoopBackCounting StopModel StopLedger StopPhases

/-- The message is lost, or it waits in an inbox whose worker has gone. -/
def LeftBehind (l : Ledger) (id : ℕ) : Prop :=
  id ∈ l.lost ∨ ∃ (n : ℕ) (node : SimNode) (numbers : List ℕ), l.nodes[n]? = some node ∧
    l.inboxNumbers[n]? = some numbers ∧ node.node.worker = .returned ∧ id ∈ numbers

theorem move_numbers {r : Stopping} {i : StopInput} {l : Ledger} (move : Move r i l) {m : ℕ} {node : SimNode}
    {numbers : List ℕ} (at_m : r.sim.nodes[m]? = some node) (found : r.inboxNumbers[m]? = some numbers)
    (gone : node.node.worker = .returned) :
    ∃ numbers', l.inboxNumbers[m]? = some numbers' ∧ ∀ id ∈ numbers, id ∈ numbers' := by
  have other {n : ℕ} {node' : SimNode} (at_n : r.sim.nodes[n]? = some node') (pop : node'.node.worker = .atPop) :
      n ≠ m := by
    rintro rfl
    obtain rfl : node' = node := Option.some.inj (at_n.symm.trans at_m)
    rw [gone] at pop
    cases pop
  cases move with
  | quiet | sent | refused | walked | flagged => exact ⟨numbers, found, fun id h => h⟩
  | delivered k n id =>
    by_cases here : n = m
    · subst here
      refine ⟨numbers ++ [id], ?_, fun id' h => List.mem_append_left _ h⟩
      change (r.inboxNumbers.modify n _)[n]? = _
      rw [List.getElem?_modify_eq, found]
      rfl
    · refine ⟨numbers, ?_, fun id' h => h⟩
      change (r.inboxNumbers.modify n _)[m]? = _
      rw [List.getElem?_modify, found]
      simp [here]
  | took n id node' msg rest ids at_n pop =>
    refine ⟨numbers, ?_, fun id' h => h⟩
    change (r.inboxNumbers.set n ids)[m]? = _
    rw [List.getElem?_set_ne (other at_n pop), found]
  | broke n id node' msg rest ids e at_n pop =>
    refine ⟨numbers, ?_, fun id' h => h⟩
    change (r.inboxNumbers.set n ids)[m]? = _
    rw [List.getElem?_set_ne (other at_n pop), found]

theorem move_lost {r : Stopping} {i : StopInput} {l : Ledger} (move : Move r i l) {id : ℕ} (h : id ∈ r.lost) :
    id ∈ l.lost := by
  cases move with
  | quiet | sent | delivered | walked | took | flagged => exact h
  | refused | broke => exact List.mem_append_left _ h

theorem left_stays {r : Stopping} {i : StopInput} {l : Ledger} (move : Move r i l) {id : ℕ}
    (left : LeftBehind (ledger r) id) : LeftBehind l id := by
  rcases left with lost | ⟨m, node, numbers, at_m, found, gone, waits⟩
  · exact .inl (move_lost move lost)
  · obtain ⟨count, -, -⟩ := move_counts move
    have inside : m < l.nodes.length := by
      rw [count]
      exact (List.getElem?_eq_some_iff.mp at_m).1
    have at_l : l.nodes[m]? = some l.nodes[m] := List.getElem?_eq_getElem inside
    obtain ⟨node', at_r, -, stays⟩ := move_node move at_l
    obtain rfl : node' = node := Option.some.inj (at_r.symm.trans at_m)
    obtain ⟨numbers', found', kept⟩ := move_numbers move at_m found gone
    exact .inr ⟨m, _, numbers', at_l, found', stays gone, kept id waits⟩

/-- A step that spares the early messages leaves none of them behind, unless it ends the process. -/
theorem left_new {r : Stopping} {i : StopInput} {l : Ledger} (sized : Sized (ledger r)) (move : Move r i l)
    (spares : Spares r i) {id : ℕ} (early : Early r id) (left : LeftBehind l id) :
    LeftBehind (ledger r) id ∨ ∃ node ∈ l.nodes, ∃ e, node.node.worker = .terminated e := by
  cases move with
  | quiet | sent => exact .inl left
  | refused k id' task at_k number no =>
    rcases left with lost | waits
    · rcases List.mem_append.mp lost with old | new
      · exact .inl (.inl old)
      · rw [List.mem_singleton] at new
        subst new
        obtain ⟨n, node, yes, -⟩ := spares task id at_k number early
        rw [no] at yes
        cases yes
    · exact .inl (.inr waits)
  | delivered k n id' task node msg at_k number yes at_n =>
    rcases left with lost | ⟨m, node', numbers, at_m, found, gone, waits⟩
    · exact .inl (.inl lost)
    · left
      change (r.inboxNumbers.modify n (· ++ [id']))[m]? = some numbers at found
      rw [List.getElem?_modify] at found
      obtain ⟨old, stood, same⟩ := Option.map_eq_some_iff.mp found
      rcases getElem?_set_split at_m with ⟨rfl, rfl⟩ | ⟨here, before⟩
      · rw [if_pos rfl] at same
        subst same
        rcases List.mem_append.mp waits with earlier | new
        · exact .inr ⟨m, node, old, at_n, stood, gone, earlier⟩
        · rw [List.mem_singleton] at new
          subst new
          obtain ⟨n', node', yes', at_n', stays⟩ := spares task id at_k number early
          obtain rfl : m = n' := Option.some.inj (yes.symm.trans yes')
          obtain rfl : node = node' := Option.some.inj (at_n.symm.trans at_n')
          exact absurd gone stays
      · rw [if_neg here] at same
        subst same
        exact .inr ⟨m, node', old, before, stood, gone, waits⟩
  | walked n node w at_n why =>
    left
    rcases left with lost | ⟨m, node', numbers, at_m, found, gone, waits⟩
    · exact .inl lost
    · rcases getElem?_set_cases at_m with ⟨rfl, rfl⟩ | before
      · rcases why with stays | ⟨test, leaves⟩ | ⟨empty, -⟩
        · exact .inr ⟨m, node, numbers, at_n, found, stays.symm.trans gone, waits⟩
        · have down : node.node.running = false := by
            by_contra up
            rw [Bool.not_eq_false] at up
            rw [up] at leaves
            exact absurd (leaves.symm.trans gone) (by decide)
          exact absurd early (spares node numbers at_n found test down id waits)
        · obtain ⟨numbers', found', length⟩ := numbers_of_queue sized at_n
          obtain rfl : numbers = numbers' := Option.some.inj (found.symm.trans found')
          rw [empty] at length
          rw [List.length_eq_zero_iff.mp length] at waits
          cases waits
      · exact .inr ⟨m, node', numbers, before, found, gone, waits⟩
  | took n id' node msg rest ids at_n pop queue numbers' =>
    left
    rcases left with lost | ⟨m, node', numbers, at_m, found, gone, waits⟩
    · exact .inl lost
    · rcases getElem?_set_split at_m with ⟨rfl, rfl⟩ | ⟨here, before⟩
      · cases gone
      · change (r.inboxNumbers.set n ids)[m]? = some numbers at found
        rw [List.getElem?_set_ne here] at found
        exact .inr ⟨m, node', numbers, before, found, gone, waits⟩
  | broke n id' node msg rest ids e at_n =>
    right
    have inside : n < r.sim.nodes.length := (List.getElem?_eq_some_iff.mp at_n).1
    exact ⟨_, List.mem_of_getElem? (List.getElem?_set_self inside), e, rfl⟩
  | flagged n node m' at_n queue worker =>
    left
    rcases left with lost | ⟨m, node', numbers, at_m, found, gone, waits⟩
    · exact .inl lost
    · rcases getElem?_set_cases at_m with ⟨rfl, rfl⟩ | before
      · exact .inr ⟨m, node, numbers, at_n, found, worker.symm.trans gone, waits⟩
      · exact .inr ⟨m, node', numbers, before, found, gone, waits⟩

theorem wiring_submit (s : Sim) (n : ℕ) (tx : Transaction) (drop : Bool) :
    wiring (StopModel.submit s n tx drop) = wiring s := by
  unfold StopModel.submit
  split
  · rfl
  · split
    · rfl
    · rename_i node _ _ b hb
      have ids : (s.chains.set node.chain (b.addTransaction tx)).map (·.chainId) = s.chains.map (·.chainId) := by
        rw [List.map_set]
        exact set_same (by rw [List.getElem?_map, hb]; rfl)
      have endpoints : (s.transport.send node.node.address (node.node.submission tx) drop).1.endpoints =
          s.transport.endpoints := by
        unfold Transport.send
        split
        · rfl
        · split <;> rfl
      simp only [wiring, submitTransaction]
      rw [ids, endpoints]

theorem wiring_stop (r : Stopping) : wiring r.stop.sim = wiring r.sim := by
  have moved := stop_cases r
  generalize r.stop = r' at moved ⊢
  cases moved with
  | called | goes => rfl
  | relayer k f point begun which =>
    refine wiring_modify r.sim k fun rel => ?_
    rcases which with rfl | rfl <;> exact ⟨rfl, rfl⟩
  | node n f =>
    cases at_n : r.sim.nodes[n]? with
    | none => simp only [Stopping.moveNode, modify_of_none at_n]
    | some node =>
      simp only [Stopping.moveNode, ← set_eq_modify at_n]
      exact wiring_moveNode at_n _

theorem wiring_act (r : Stopping) (i : StopInput) : wiring (r.act i).sim = wiring r.sim := by
  cases i with
  | sendIBC c port chan dstChain dstPort dstChan payload =>
    simp only [Stopping.act]
    split
    · exact wiring_sendIBC r.sim c _
    · rfl
  | submit n tx drop =>
    simp only [Stopping.act]
    split
    · rw [sends_sim]
      exact wiring_submit r.sim n tx drop
    · rfl
  | relayerStep k drops =>
    simp only [Stopping.act, Stopping.relayerStep]
    split
    · rfl
    · split
      · rfl
      · rw [sends_sim]
        exact wiring_forward k fun rel t => forwardPacket_static rel t drops
      · rw [sends_sim]
        exact wiring_forward k fun rel t => forwardAck_static rel t drops
      · rfl
      · rfl
  | deliver k =>
    simp only [Stopping.act, Stopping.deliver]
    split
    · split <;> exact wiring_deliver r.sim k
    · rfl
  | nodeStep n =>
    simp only [Stopping.act, Stopping.nodeStep]
    split
    · rfl
    · split
      · rfl
      · split
        · split <;> exact wiring_nodeStep r.sim n
        · exact wiring_nodeStep r.sim n
  | workerStep w =>
    obtain ⟨workers, moved⟩ := workerStep_frame r w
    simp only [Stopping.act, moved]
  | wake w =>
    obtain ⟨workers, moved⟩ := wake_frame r w
    simp only [Stopping.act, moved]
  | stop => exact wiring_stop r

def Housed (w : Wiring) : Prop := ∀ c ∈ w.homes, c < w.ids.length

theorem Housed.chain {s : Sim} (h : Housed (wiring s)) {n : ℕ} {node : SimNode} (at_n : s.nodes[n]? = some node) :
    ∃ b, s.chains[node.chain]? = some b := by
  have inside := h node.chain (List.mem_map.mpr ⟨node, List.mem_of_getElem? at_n, rfl⟩)
  have length : (wiring s).ids.length = s.chains.length := List.length_map ..
  rw [length] at inside
  exact ⟨_, List.getElem?_eq_getElem inside⟩

theorem left_deliver {r : Stopping} (sized : Sized (ledger r)) {k id : ℕ} {task : Bytes × Bytes}
    (at_k : r.sim.transport.tasks[k]? = some task) (number : r.taskNumbers[k]? = some id)
    (missed : ∀ n node, takenIn r.sim task = some n → r.sim.nodes[n]? = some node → node.node.worker = .returned) :
    LeftBehind (ledger (r.act (.deliver k))) id := by
  cases taken : takenIn r.sim task with
  | none =>
    left
    simp only [ledger, Stopping.act, Stopping.deliver, at_k, number, taken]
    exact List.mem_append_right _ List.mem_cons_self
  | some n =>
    obtain ⟨node, msg, at_n, nodes, -⟩ := deliver_taken r.sim at_k taken
    obtain ⟨numbers, found, -⟩ := numbers_of_queue sized at_n
    have gone : node.node.worker = .returned := missed n node taken at_n
    have inside : n < r.sim.nodes.length := (List.getElem?_eq_some_iff.mp at_n).1
    have at_l := (congrArg (fun l : List SimNode => l[n]?) nodes).trans (List.getElem?_set_self inside)
    right
    refine ⟨n, _, numbers ++ [id], Eq.trans ?_ at_l, ?_, gone, List.mem_append_right _ List.mem_cons_self⟩
    · simp only [ledger, Stopping.act, Stopping.deliver, at_k, number, taken]
    · simp only [ledger, Stopping.act, Stopping.deliver, at_k, number, taken]
      rw [List.getElem?_modify_eq, found]
      rfl

theorem left_flag {r : Stopping} (housed : Housed (wiring r.sim)) {n : ℕ} {node : SimNode} {numbers : List ℕ}
    (at_n : r.sim.nodes[n]? = some node) (found : r.inboxNumbers[n]? = some numbers)
    (test : node.node.worker = .atTest) (down : node.node.running = false) {id : ℕ} (waits : id ∈ numbers) :
    LeftBehind (ledger (r.act (.nodeStep n))) id := by
  obtain ⟨b, at_c⟩ := housed.chain at_n
  obtain ⟨nodes, -⟩ := nodeStep_frame r.sim at_n at_c
  have nothing : takenBy node.node = none := by simp [takenBy, test]
  have leaves : (node.node.loopStep b).1.worker = .returned := by simp [Node.loopStep, test, down]
  have inside : n < r.sim.nodes.length := (List.getElem?_eq_some_iff.mp at_n).1
  have at_l := (congrArg (fun l : List SimNode => l[n]?) nodes).trans (List.getElem?_set_self inside)
  right
  refine ⟨n, _, numbers, Eq.trans ?_ at_l, ?_, leaves, waits⟩
  · simp only [ledger, Stopping.act, Stopping.nodeStep, at_n, at_c, nothing]
  · simp only [ledger, Stopping.act, Stopping.nodeStep, at_n, at_c, nothing]
    exact found

theorem left_unspared {r : Stopping} (sized : Sized (ledger r)) (housed : Housed (wiring r.sim)) {i : StopInput}
    (not : ¬ Spares r i) : i ≠ .stop ∧ ∃ id, Early r id ∧ LeftBehind (ledger (r.act i)) id := by
  cases i with
  | sendIBC | submit | relayerStep | workerStep | wake | stop => exact absurd trivial not
  | deliver k =>
    refine ⟨by simp, ?_⟩
    by_contra all
    refine not fun task id at_k number early => ?_
    by_contra none
    refine all ⟨id, early, left_deliver sized at_k number fun n node taken at_n => ?_⟩
    by_contra stays
    exact none ⟨n, node, taken, at_n, stays⟩
  | nodeStep n =>
    refine ⟨by simp, ?_⟩
    by_contra all
    exact not fun node numbers at_n found test down id waits early =>
      all ⟨id, early, left_flag housed at_n found test down waits⟩

structure Kept (r : Stopping) : Prop where
  booked : Booked (ledger r)
  phased : Phased r
  housed : Housed (wiring r.sim)

theorem kept_act {r : Stopping} (h : Kept r) (i : StopInput) : Kept (r.act i) := by
  refine ⟨booked_move h.booked (act_moves h.booked.sized i), phased_act h.phased h.booked.sized i, ?_⟩
  rw [wiring_act]
  exact h.housed

theorem stop_step (r : Stopping) (i : StopInput) :
    (r.sim.crashed = true ∧ (stopMachine.step r i).1 = r) ∨
      (r.sim.crashed = false ∧ (stopMachine.step r i).1 = r.act i) := by
  change (_ ∧ (if r.sim.crashed then r else r.act i) = r) ∨ _ ∧ (if r.sim.crashed then r else r.act i) = r.act i
  cases r.sim.crashed with
  | true => exact .inl ⟨rfl, rfl⟩
  | false => exact .inr ⟨rfl, rfl⟩

theorem kept_step {r : Stopping} (h : Kept r) (i : StopInput) : Kept (stopMachine.step r i).1 := by
  rcases stop_step r i with ⟨-, same⟩ | ⟨-, moved⟩
  · rw [same]
    exact h
  · rw [moved]
    exact kept_act h i

theorem kept_run {r : Stopping} (h : Kept r) (is : List StopInput) : Kept (stopMachine.final r is) :=
  stopMachine.invariant is h fun _ i _ kept => kept_step kept i

theorem final_crashed {r : Stopping} (dead : r.sim.crashed = true) (is : List StopInput) :
    stopMachine.final r is = r := by
  refine stopMachine.invariant (I := fun r' => r' = r) is rfl fun r' i _ same => ?_
  subst same
  rcases stop_step r' i with ⟨-, same⟩ | ⟨alive, -⟩
  · exact same
  · rw [dead] at alive
    cases alive

theorem crashed_of_terminated {s : Sim} {node : SimNode} (hn : node ∈ s.nodes) {e : StdException}
    (ended : node.node.worker = .terminated e) : s.crashed = true := by
  unfold Sim.crashed
  rw [List.any_eq_true]
  exact ⟨node, hn, by rw [ended]⟩

theorem Kept.alive {r : Stopping} (h : Kept r) (returned : r.point = .returned) : r.sim.crashed = false := by
  unfold Sim.crashed
  rw [List.any_eq_false]
  intro node hn
  obtain ⟨m, at_m⟩ := List.mem_iff_getElem?.mp hn
  have inside : m < r.sim.nodes.length := (List.getElem?_eq_some_iff.mp at_m).1
  have gone := h.phased.gone m node at_m (by rw [returned]; exact inside)
  rw [gone]
  exact Bool.false_ne_true

theorem early_act {r : Stopping} (h : Kept r) (i : StopInput) (id : ℕ) :
    (Early (r.act i) id → Early r id) ∧ (id < r.sent → Early r id → Early (r.act i) id) := by
  have mark : (r.act i).sentBefore = r.sentBefore ∨
      (r.sentBefore = none ∧ (r.act i).sentBefore = some r.sent) := by
    by_cases other : i = .stop
    · subst other
      have moved := stop_cases r
      change r.stop.sentBefore = _ ∨ _ ∧ r.stop.sentBefore = _
      generalize r.stop = r' at moved ⊢
      cases moved with
      | called first => exact .inr ⟨h.phased.called.mp first, rfl⟩
      | goes | relayer | node => exact .inl rfl
    · exact .inl (act_point other).2
  unfold Early
  rcases mark with same | ⟨none, now⟩
  · rw [same]
    exact ⟨fun early => early, fun _ early => early⟩
  · rw [none, now]
    refine ⟨fun _ c called => absurd called (by simp), fun sent _ c called => ?_⟩
    rw [← Option.some.inj called]
    exact sent

theorem LeftBehind.placed {l : Ledger} {id : ℕ} (h : LeftBehind l id) :
    0 < weight (· == id) l.inboxNumbers + l.lost.count id := by
  rcases h with lost | ⟨n, node, numbers, -, found, -, waits⟩
  · exact Nat.add_pos_right _ (List.count_pos_iff.mpr lost)
  · exact Nat.add_pos_left (weight_pos (· == id) found waits (beq_self_eq_true id)) _

theorem LeftBehind.sent {l : Ledger} {id : ℕ} (h : LeftBehind l id) (booked : Booked l) : id < l.sent := by
  have placed := h.placed
  have once := booked.once id
  unfold places issued at once
  by_contra later
  rw [if_neg later] at once
  omega

theorem LeftBehind.unhandled {l : Ledger} {id : ℕ} (h : LeftBehind l id) (booked : Booked l) : id ∉ l.handled := by
  intro handled
  have counted := List.count_pos_iff.mpr handled
  have placed := h.placed
  have once := booked.once id
  unfold places issued at once
  split at once <;> omega

def Fails (r : Stopping) : Prop := ∃ id, Early r id ∧ LeftBehind (ledger r) id

theorem fails_act {r : Stopping} (h : Kept r) (fails : Fails r) (i : StopInput) : Fails (r.act i) := by
  obtain ⟨id, early, left⟩ := fails
  exact ⟨id, (early_act h i id).2 (left.sent h.booked) early, left_stays (act_moves h.booked.sized i) left⟩

theorem fails_run {r : Stopping} (h : Kept r) (fails : Fails r) (is : List StopInput) :
    Fails (stopMachine.final r is) := by
  refine (stopMachine.invariant (I := fun r => Kept r ∧ Fails r) is ⟨h, fails⟩ ?_).2
  rintro r i - ⟨kept, fails⟩
  refine ⟨kept_step kept i, ?_⟩
  rcases stop_step r i with ⟨-, same⟩ | ⟨-, moved⟩
  · rw [same]
    exact fails
  · rw [moved]
    exact fails_act kept fails i

theorem graceful_returned {r : Stopping} (h : Kept r) (returned : r.point = .returned) :
    Graceful r ↔ ¬ Fails r := by
  cases called : r.sentBefore with
  | none =>
    have first := h.phased.called.mpr called
    rw [returned] at first
    cases first
  | some c =>
    have low := h.phased.mark c called
    constructor
    · rintro graceful ⟨id, early, left⟩
      exact left.unhandled h.booked (graceful c called id (early c called))
    · intro fine c' called' id before
      obtain rfl : c = c' := Option.some.inj (called.symm.trans called')
      have early : Early r id := fun c' called' => Option.some.inj (called.symm.trans called') ▸ before
      have delivered : r.taskNumbers.count id = 0 :=
        List.count_eq_zero.mpr fun waits => h.phased.drained (by rw [returned]; trivial) id waits early
      have taken : weight (· == id) r.inboxNumbers = 0 := by
        refine weight_eq_zero _ fun numbers hnumbers id' waits => ?_
        obtain ⟨m, found⟩ := List.mem_iff_getElem?.mp hnumbers
        by_contra same
        rw [Bool.not_eq_false, beq_iff_eq] at same
        subst same
        have count : r.inboxNumbers.length = r.sim.nodes.length := by
          have lengths := congrArg List.length h.booked.sized.inboxes
          rwa [List.length_map, List.length_map] at lengths
        have inside : m < r.sim.nodes.length := count ▸ (List.getElem?_eq_some_iff.mp found).1
        have at_m : r.sim.nodes[m]? = some r.sim.nodes[m] := List.getElem?_eq_getElem inside
        have gone := h.phased.gone m _ at_m (by rw [returned]; exact inside)
        exact fine ⟨id', early, .inr ⟨m, _, numbers, at_m, found, gone, waits⟩⟩
      have kept : r.lost.count id = 0 := List.count_eq_zero.mpr fun lost => fine ⟨id, early, .inl lost⟩
      have once := h.booked.once id
      have sent : issued r.sent id = 1 := if_pos (by omega)
      change r.taskNumbers.count id + weight (· == id) r.inboxNumbers + r.handled.count id + r.lost.count id =
        issued r.sent id at once
      exact List.count_pos_iff.mp (by omega)

/-- While every step spares the early messages, none is left behind in a process that lives. -/
theorem guarded_spares {r : Stopping} (h : Kept r) (fine : ¬ Fails r) {is : List StopInput}
    (guarded : stopMachine.Guarded (fun r _ i => Spares r i) r [] is)
    (alive : (stopMachine.final r is).sim.crashed = false) : ¬ Fails (stopMachine.final r is) := by
  have run := stopMachine.guarded_invariant
    (I := fun r _ => Kept r ∧ (r.sim.crashed = false → ¬ Fails r)) guarded ⟨h, fun _ => fine⟩ ?_
  · exact run.2 alive
  rintro r - i spares ⟨kept, fine⟩
  refine ⟨kept_step kept i, ?_⟩
  rcases stop_step r i with ⟨-, same⟩ | ⟨alive, moved⟩
  · rw [same]
    exact fine
  · rw [moved]
    rintro alive' ⟨id, early, left⟩
    have before := (early_act kept i id).1 early
    rcases left_new kept.booked.sized (act_moves kept.booked.sized i) spares before left with old | ⟨node, hn, e, ended⟩
    · exact fine alive ⟨id, before, old⟩
    · have dead := crashed_of_terminated hn ended
      rw [alive'] at dead
      cases dead

/-- A run that leaves nothing behind spared the early messages at every step. -/
theorem guarded_of_fine {r : Stopping} (h : Kept r) (is : List StopInput) (t : List (StopInput × Unit))
    (alive : (stopMachine.final r is).sim.crashed = false) (fine : ¬ Fails (stopMachine.final r is)) :
    stopMachine.Guarded (fun r _ i => Spares r i) r t is := by
  induction is generalizing r t with
  | nil => trivial
  | cons i is ih =>
    refine ⟨?_, ih (kept_step h i) _ alive fine⟩
    by_contra not
    obtain ⟨other, id, early, left⟩ := left_unspared h.booked.sized h.housed not
    rcases stop_step r i with ⟨dead, -⟩ | ⟨-, moved⟩
    · rw [final_crashed dead] at alive
      rw [dead] at alive
      cases alive
    · have mark := (act_point (r := r) other).2
      have fails : Fails (stopMachine.step r i).1 := by
        rw [moved]
        refine ⟨id, ?_, left⟩
        unfold Early
        rw [mark]
        exact early
      exact fine (fails_run (kept_step h i) fails is)

theorem Laid.kept {opens : Bytes → Bool} {relayerCount : ℕ} {configs : List ChainConfig} {s : Sim}
    (h : Laid opens relayerCount configs s) :
    Kept (started s) := by
  have fresh {m : ℕ} {node : SimNode} (at_m : (started s).sim.nodes[m]? = some node) :
      node.node.running = true ∧ node.node.inbox.q = [] := by
    obtain ⟨old, hold, rfl⟩ := List.mem_map.mp (List.mem_of_getElem? at_m)
    obtain ⟨c, cfg, i, -, -, rfl⟩ := h.mem_nodes.mp hold
    exact ⟨rfl, rfl⟩
  refine ⟨⟨⟨?_, ?_⟩, fun id => ?_⟩, ⟨?_, ?_, ?_, ?_, ?_⟩, ?_⟩
  · exact (congrArg List.length h.tasks).symm
  · change (s.nodes.map fun _ => ([] : List ℕ)).map List.length = (s.nodes.map _).map _
    rw [List.map_map, List.map_map]
    refine List.map_congr_left fun node hn => ?_
    obtain ⟨c, cfg, i, -, -, rfl⟩ := h.mem_nodes.mp hn
    rfl
  · have empty : weight (· == id) (s.nodes.map fun _ => ([] : List ℕ)) = 0 :=
      weight_empty _ fun bag hbag => (List.mem_map.mp hbag).elim fun _ found => found.2.symm
    simp only [places, ledger, started, List.count_nil, empty, issued, Nat.not_lt_zero, if_false]
  · exact fun m node at_m _ => (fresh at_m).1
  · exact fun m node _ none => absurd none (Nat.not_lt_zero m)
  · exact fun _ id hid => absurd hid List.not_mem_nil
  · exact fun c called => absurd called (by simp [started])
  · exact ⟨fun _ => rfl, fun _ => rfl⟩
  · have same : wiring (started s).sim = wiring s := start_wiring s
    rw [same]
    intro c hc
    obtain ⟨node, hn, rfl⟩ := List.mem_map.mp hc
    obtain ⟨c, cfg, i, at_c, -, rfl⟩ := h.mem_nodes.mp hn
    change c < (s.chains.map (·.chainId)).length
    rw [h.ids, List.length_map]
    exact (List.getElem?_eq_some_iff.mp at_c).1

theorem started_fine (s : Sim) : ¬ Fails (started s) := by
  rintro ⟨id, -, lost | ⟨n, node, numbers, -, found, -, waits⟩⟩
  · cases lost
  · obtain ⟨_, -, rfl⟩ := List.mem_map.mp (List.mem_of_getElem? found)
    cases waits

/-- The messages sent before `stop` was called are handled before it returns if and only if
    each of them that is delivered before it returns finds an open inbox and a worker in its loop,
    and no worker leaves its loop while one is in the inbox. -/
theorem graceful_iff {opens : Bytes → Bool} {relayerCount : ℕ} {configs : List ChainConfig} {s : Sim}
    (run : Sim.init opens relayerCount configs = .ok s) (is : List StopInput)
    (returned : (stopMachine.final (started s) is).point = .returned) :
    Graceful (stopMachine.final (started s) is) ↔
      stopMachine.Guarded (fun r _ i => Spares r i) (started s) [] is := by
  obtain ⟨s', run', laid⟩ := init_lays opens relayerCount (init_distinct run)
  obtain rfl : s = s' := Except.ok.inj (run.symm.trans run')
  have start : Kept (started s) := Laid.kept laid
  have finish := kept_run start is
  have alive := finish.alive returned
  rw [graceful_returned finish returned]
  constructor
  · exact guarded_of_fine start is [] alive
  · intro guarded
    exact guarded_spares start (started_fine s) guarded alive

def oneNode : Sim := (Sim.init (fun _ => true) 0 [⟨lit "A", 1⟩]).toOption.getD .empty

theorem init_oneNode : Sim.init (fun _ => true) 0 [⟨lit "A", 1⟩] = .ok oneNode := rfl

/-- `stop` from its call to the wait for the transport, where it joins the one node. -/
def stopsNode : List StopInput := List.replicate 5 .stop ++ [.nodeStep 0, .stop, .stop]

/-- `stop` from there to its end: it shuts the transport down and joins its workers. -/
def shutsDown : List StopInput :=
  List.replicate 3 .stop ++ (List.range 4).map .workerStep ++ List.replicate 5 .stop

def payment (id : Bytes) : StopInput := .submit 0 ⟨lit "alice", lit "bob", lit "5", .regular, id⟩ false

theorem graceful_iff_handled :
    (stopMachine.final (started oneNode) ([payment (lit "tx-1"), .deliver 0, .nodeStep 0, .nodeStep 0] ++ stopsNode ++
        shutsDown)).handled = [0] ∧
      (Graceful (stopMachine.final (started oneNode)
          ([payment (lit "tx-1"), .deliver 0, .nodeStep 0, .nodeStep 0] ++ stopsNode ++ shutsDown)) ↔
        stopMachine.Guarded (fun r _ i => Spares r i) (started oneNode) []
          ([payment (lit "tx-1"), .deliver 0, .nodeStep 0, .nodeStep 0] ++ stopsNode ++ shutsDown)) :=
  ⟨by decide +kernel, graceful_iff init_oneNode _ (by decide +kernel)⟩

theorem messages_left_behind : ¬ ∀ (opens : Bytes → Bool) (relayerCount : ℕ) (configs : List ChainConfig) (s : Sim)
    (is : List StopInput), Sim.init opens relayerCount configs = .ok s → (stopMachine.final (started s) is).point = .returned →
      Graceful (stopMachine.final (started s) is) := by
  intro h
  let run := [payment (lit "tx-1"), payment (lit "tx-2"), .deliver 0] ++ stopsNode ++ .deliver 0 :: shutsDown
  have graceful := h (fun _ => true) 0 [⟨lit "A", 1⟩] oneNode run init_oneNode (by decide +kernel)
  have called : (stopMachine.final (started oneNode) run).sentBefore = some 2 := by decide +kernel
  have handled := graceful 2 called 0 (by omega)
  exact absurd handled (by decide +kernel)

end InterchainCommunication.GracefulStop
