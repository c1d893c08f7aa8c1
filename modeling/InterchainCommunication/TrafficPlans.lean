import InterchainCommunication.TransactionTrail

set_option autoImplicit false

namespace InterchainCommunication.TrafficPlans
open ListSums StringText CoreTypes MachineRuns PacketCodec BlockchainModel SimulationModel SimulationWiring WiringRuns
open TransactionTraffic TransactionMoves TransactionSteps TransactionTrail JsonReading DetailedLog LogFiles SharedLog

def makes : Job → Bool
  | .injected _ _ _ | .random _ _ => true
  | .injectedPacket _ _ _ | .randomPacket _ _ => false

/-- The numbers drawn for a transaction are those of nodes. -/
def Drawn (n : ℕ) : Job → Prop
  | .injected sender receiver _ | .random sender receiver => sender < n ∧ receiver < n
  | .injectedPacket _ _ _ | .randomPacket _ _ => True

section Turns
variable {r : TrafficRun}

theorem ticket_length {s : Sim} {job : Job} (drawn : Drawn s.nodes.length job) (clock now : ℤ) (counter : UInt64) :
    (job.ticket s clock now counter).toList.length = [job].countP makes := by
  cases job with
  | injected sender receiver i =>
    obtain ⟨sends, receives⟩ := drawn
    simp [Job.ticket, makes, sends, receives]
  | random sender receiver =>
    obtain ⟨sends, receives⟩ := drawn
    simp [Job.ticket, makes, sends, receives]
  | injectedPacket | randomPacket => rfl

/-- A step takes a turn from a generator, if any, and makes what the turn makes. -/
inductive Turn (r : TrafficRun) (next : TrafficRun × TrafficOutput) : Prop
  | still (nodes : next.1.sim.nodes.length = r.sim.nodes.length) (same : next.1.generators = r.generators)
      (nothing : next.2.made = none) : Turn r next
  | taken (nodes : next.1.sim.nodes.length = r.sim.nodes.length) (g : ℕ) (gen gen' : Generator) (done : List Job)
      (at_g : r.generators[g]? = some gen) (set : next.1.generators = r.generators.set g gen') (jobs : gen.jobs = done ++ gen'.jobs)
      (made : next.2.made.toList.length = done.countP makes) : Turn r next

theorem nextJob_turn {g : ℕ} {gen : Generator} (at_g : r.generators[g]? = some gen)
    (drawn : ∀ job ∈ gen.jobs, Drawn r.sim.nodes.length job) (clock now : ℤ) :
    Turn r (r.nextJob g gen clock now) := by
  unfold TrafficRun.nextJob
  cases plan : gen.jobs with
  | nil => exact .still rfl rfl rfl
  | cons job rest =>
    have length := ticket_length (drawn job (by rw [plan]; exact List.mem_cons_self)) clock now r.counter
    dsimp only
    cases ticket : job.ticket r.sim clock now r.counter with
    | some k =>
      rw [ticket] at length
      exact .taken rfl g gen ⟨rest, some (.made, k), job.counted⟩ [job] at_g rfl plan length
    | none =>
      rw [ticket] at length
      dsimp only
      cases job.send r.sim clock with
      | none => exact .taken rfl g gen { gen with jobs := rest } [job] at_g rfl plan length
      | some i =>
        exact .taken (nodes_of_wiring (wiring_step r.sim i)) g gen { gen with jobs := rest } [job] at_g rfl plan length

theorem handOver_turn {g : ℕ} {gen : Generator} (at_g : r.generators[g]? = some gen) (node : SimNode) (b : Blockchain)
    (k : Ticket) (drop : Bool) (stage : Stage) : Turn r (r.handOver g gen node b k drop stage) := by
  cases stage with
  | made => exact .taken rfl g gen { gen with hand := some (.created, k) } [] at_g rfl rfl rfl
  | created => exact .taken rfl g gen { gen with hand := some (.pooled, k) } [] at_g rfl rfl rfl
  | pooled => exact .taken rfl g gen { gen with hand := some (.submitted, k) } [] at_g rfl rfl rfl
  | submitted => exact .taken rfl g gen { gen with hand := none } [] at_g rfl rfl rfl

theorem step_turn (drawn : ∀ gen ∈ r.generators, ∀ job ∈ gen.jobs, Drawn r.sim.nodes.length job) (i : TrafficInput) :
    Turn r (trafficMachine.step r i) := by
  unfold trafficMachine
  dsimp only
  split
  · exact .still rfl rfl rfl
  · cases i with
    | sim i => exact .still (nodes_of_wiring (wiring_step r.sim i)) rfl rfl
    | generator g clock now drop =>
      dsimp only
      unfold TrafficRun.generate
      cases at_g : r.generators[g]? with
      | none => exact .still rfl rfl rfl
      | some gen =>
        dsimp only
        cases gen.hand with
        | none => exact nextJob_turn at_g (drawn gen (List.mem_of_getElem? at_g)) clock now
        | some held =>
          obtain ⟨stage, k⟩ := held
          dsimp only
          cases r.sim.nodes[k.sender]? with
          | none => exact .still rfl rfl rfl
          | some node =>
            dsimp only
            cases r.sim.chains[node.chain]? with
            | none => exact .still rfl rfl rfl
            | some b => exact handOver_turn at_g node b k drop stage

end Turns

end InterchainCommunication.TrafficPlans
