import InterchainCommunication.RouteUse

set_option autoImplicit false

namespace InterchainCommunication.LostPackets
open ListUpdates StringText CoreTypes MachineRuns PacketCodec ChannelSequencing BlockchainModel BlockchainSteps
open ChainHistory OrderedDelivery LinkDelivery InOrderAcceptance NodeModel RelayerModel SimulationModel
open SimulationWiring SimulationSteps AckSoundness SimulationMoves RouteUse

/-- The `n`-th packet of the route, counted from zero. -/
def Numbered (route : Route) (n : ℕ) (p : IBCPacket) : Prop :=
  p.type = .data ∧ route.takes p = true ∧ p.sequence = sequenceAt n

/-- No copy of the `n`-th packet waits or flies anywhere. -/
structure Gone (route : Route) (n : ℕ) (t : Traffic) : Prop where
  queues : ∀ q ∈ t.packets, ∀ p ∈ q, ¬Numbered route n p
  tasks : ∀ task ∈ t.tasks, ∀ msg p, deserializeNodeMessage task.2 = .ok msg → Brings msg p → ¬Numbered route n p
  inboxes : ∀ q ∈ t.inboxes, ∀ msg ∈ q, ∀ p, Brings msg p → ¬Numbered route n p

section Moves
variable {route : Route} {n : ℕ} {w : Wiring} {s : Sim} {h : List (SimInput × SimOutput)}

theorem Gone.posted {t : Traffic} (gone : Gone route n t) {task : Bytes × Bytes}
    (other : ∀ msg p, deserializeNodeMessage task.2 = .ok msg → Brings msg p → ¬Numbered route n p)
    {packets : List (List IBCPacket)} (queues : ∀ q ∈ packets, ∀ p ∈ q, ¬Numbered route n p)
    (acks : List (List IBCPacket)) : Gone route n ⟨packets, acks, t.tasks ++ [task], t.inboxes⟩ := by
  refine ⟨queues, fun x hx => ?_, gone.inboxes⟩
  rcases List.mem_append.mp hx with old | new
  · exact gone.tasks x old
  · obtain rfl := List.mem_singleton.mp new
    exact other

end Moves

end InterchainCommunication.LostPackets
