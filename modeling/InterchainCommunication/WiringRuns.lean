import InterchainCommunication.SimulationSteps

set_option autoImplicit false

namespace InterchainCommunication.WiringRuns
open ListUpdates StringText CoreTypes BlockchainModel BlockchainSteps NodeModel
open NodeSteps RelayerModel SimulationModel SimulationWiring EventDelivery SimulationSteps

/-- Relayers keep their names and mailboxes, whatever they do. -/
theorem wiring_modify (s : Sim) (r : ℕ) {f : Relayer → Relayer}
    (kept : ∀ rel, (f rel).name = rel.name ∧ (f rel).chainAddr = rel.chainAddr) :
    wiring { s with relayers := s.relayers.modify r f } = wiring s := by
  have posts : (s.relayers.modify r f).map (fun rel => (rel.name, rel.chainAddr)) =
      s.relayers.map fun rel => (rel.name, rel.chainAddr) := by
    apply List.ext_getElem?
    intro k
    rw [List.getElem?_map, List.getElem?_map, List.getElem?_modify]
    cases s.relayers[k]? with
    | none => rfl
    | some rel =>
      by_cases here : r = k
      · simp [here, kept rel]
      · simp [here]
  exact congrArg (fun posts => { wiring s with relayers := posts }) posts

theorem wiring_react (e : Event) (s : Sim × List Effect) (h : Handler) :
    wiring (Sim.react e s h).1 = wiring s.1 := by
  cases h with
  | packetSend r =>
    rw [react_packetSend]
    refine wiring_modify s.1 r fun rel => ?_
    obtain ⟨items, added⟩ := rel.onIBCPacketSendEvent_adds e
    rw [added]
    exact ⟨rfl, rfl⟩
  | ackSend r =>
    rw [react_ackSend]
    refine wiring_modify s.1 r fun rel => ?_
    obtain ⟨items, added⟩ := rel.onIBCAckSendEvent_adds e
    rw [added]
    exact ⟨rfl, rfl⟩

theorem wiring_publishAll (s : Sim) (effects : List Effect) : wiring (s.publishAll effects).1 = wiring s := by
  refine publishAll_invariant (I := fun x => wiring x.1 = wiring s) (fun e x h same => ?_) rfl
  exact (wiring_react e x h).trans same

theorem wiring_absorb {s : Sim} {c : ℕ} {b b' : Blockchain} (hb : s.chains[c]? = some b)
    (same : b'.chainId = b.chainId) (calls : List (ChainOp × ChainReply)) (effects : List Effect) :
    wiring (s.absorb c b' calls effects).1 = wiring s := by
  have ids : (s.chains.set c b').map (·.chainId) = s.chains.map (·.chainId) := by
    rw [List.map_set, same]
    exact set_same (by rw [List.getElem?_map, hb]; rfl)
  refine (wiring_publishAll _ effects).trans ?_
  exact congrArg (fun ids => { wiring s with ids := ids }) ids

theorem wiring_sendIBC (s : Sim) (c : ℕ) (op : ChainOp) : wiring (s.sendIBC c op).1 = wiring s := by
  unfold Sim.sendIBC
  split
  · rfl
  · rename_i b hb
    exact wiring_absorb hb (call_chainId b _) _ _

theorem wiring_moveNode {s : Sim} {n : ℕ} {node : SimNode} (hn : s.nodes[n]? = some node) (moved : Node) :
    wiring { s with nodes := s.nodes.set n { node with node := moved } } = wiring s :=
  congrArg (fun homes => { wiring s with homes := homes }) (homes_set hn moved)

theorem wiring_forward {s : Sim} (r : ℕ) {half : Relayer → Transport → Relayer × Transport × List Effect}
    (kept : ∀ rel t, (half rel t).1.name = rel.name ∧ (half rel t).1.chainAddr = rel.chainAddr ∧
      (half rel t).2.1.endpoints = t.endpoints) : wiring (s.forward r half).1 = wiring s := by
  unfold Sim.forward
  cases hr : s.relayers[r]? with
  | none => rfl
  | some rel =>
    obtain ⟨name, addr, endpoints⟩ := kept rel s.transport
    have posts : (s.relayers.set r (half rel s.transport).1).map (fun rel => (rel.name, rel.chainAddr)) =
        s.relayers.map fun rel => (rel.name, rel.chainAddr) := by
      rw [List.map_set, name, addr]
      exact set_same (by rw [List.getElem?_map, hr]; rfl)
    simp only [wiring]
    rw [posts, endpoints]

theorem forwardPacket_static (rel : Relayer) (t : Transport) (drops : Drops) :
    (rel.forwardPacket t drops).1.name = rel.name ∧ (rel.forwardPacket t drops).1.chainAddr = rel.chainAddr ∧
      (rel.forwardPacket t drops).2.1.endpoints = t.endpoints := by
  rcases rel.forwardPacket_cases t drops with ⟨-, still⟩ | ⟨_, _, _, _, _, _, -, -, moved⟩
  · rw [still]
    exact ⟨rfl, rfl, rfl⟩
  · rw [moved]
    exact ⟨rfl, rfl, rfl⟩

theorem forwardAck_static (rel : Relayer) (t : Transport) (drops : Drops) :
    (rel.forwardAck t drops).1.name = rel.name ∧ (rel.forwardAck t drops).1.chainAddr = rel.chainAddr ∧
      (rel.forwardAck t drops).2.1.endpoints = t.endpoints := by
  rcases rel.forwardAck_cases t drops with ⟨-, still⟩ | ⟨_, _, _, _, _, _, -, -, moved⟩
  · rw [still]
    exact ⟨rfl, rfl, rfl⟩
  · rw [moved]
    exact ⟨rfl, rfl, rfl⟩

theorem wiring_deliver (s : Sim) (k : ℕ) : wiring (s.deliver k).1 = wiring s := by
  unfold Sim.deliver
  split
  · rfl
  · dsimp only
    split
    · rfl
    · split
      · rfl
      · rename_i node hn
        exact wiring_moveNode hn _

theorem chains_deliver (s : Sim) (k : ℕ) : (s.deliver k).1.chains = s.chains := by
  unfold Sim.deliver
  split
  · rfl
  · dsimp only
    split
    · rfl
    · split <;> rfl

theorem wiring_nodeStep (s : Sim) (n : ℕ) : wiring (s.nodeStep n).1 = wiring s := by
  unfold Sim.nodeStep
  cases hn : s.nodes[n]? with
  | none => rfl
  | some node =>
    dsimp only
    cases hb : s.chains[node.chain]? with
    | none => rfl
    | some b =>
      dsimp only
      rcases loopStep_cases node.node b with ⟨msg, rest, -, -, moved⟩ | ⟨w, moved, -⟩
      · have same : (handleMessage node.node.stateFileOpens node.node.nodeId b msg).chain.chainId = b.chainId := by
          rcases handleMessage_does node.node.stateFileOpens node.node.nodeId b msg with idle | ⟨op, -, does⟩
          · rw [idle.chain]
          · rw [does.chain, call_chainId]
        rw [moved]
        exact (wiring_absorb (s := { s with nodes := s.nodes.set n _ }) hb same _ _).trans (wiring_moveNode hn _)
      · rw [moved]
        exact wiring_moveNode hn _

theorem wiring_step (s : Sim) (i : SimInput) : wiring (simMachine.step s i).1 = wiring s := by
  change wiring (if s.crashed then (s, (⟨[], []⟩ : SimOutput)) else s.act i).1 = wiring s
  split
  · rfl
  · cases i with
    | sendIBC c port chan dstChain dstPort dstChan payload => exact wiring_sendIBC s c _
    | forwardPacket r drops => exact wiring_forward r fun rel t => forwardPacket_static rel t drops
    | forwardAck r drops => exact wiring_forward r fun rel t => forwardAck_static rel t drops
    | deliver k => exact wiring_deliver s k
    | nodeStep n => exact wiring_nodeStep s n
    | lose | duplicate => rfl

theorem wiring_run (s : Sim) (is : List SimInput) : wiring (simMachine.final s is) = wiring s :=
  simMachine.invariant (I := fun s' => wiring s' = wiring s) is rfl fun s' i _ h => (wiring_step s' i).trans h

end InterchainCommunication.WiringRuns
