import InterchainCommunication.LoopBackCounting
import InterchainCommunication.DetailedLog
import InterchainCommunication.SimulationModel
import InterchainCommunication.TrafficDelivery
import InterchainCommunication.TrafficRate

set_option autoImplicit false

/-!
# The transactions that the simulation generates

`injectTraffic` runs on the main thread and `trafficGeneratorLoop` on a thread of
its own. Each makes a transaction with a new id, logs it and submits it to a node,
while the other threads of the simulation go on. Draws and clocks are inputs.
-/
namespace InterchainCommunication.TransactionTraffic
open StringText CoreTypes MachineRuns BlockchainModel NodeModel RelayerModel SimulationModel DetailedLog
open TrafficDelivery (srcPort srcChan dstPort dstChan)

/-- `now` is the count of the clock. -/
def generateTxId (now : ℤ) (counter : UInt64) : Bytes :=
  lit "tx_" ++ intText now ++ lit "_" ++ decimal counter.toNat

def txTypeToString : TxType → Bytes
  | .regular => lit "regular"
  | .ibcPacket => lit "ibc_packet"
  | .ibcAck => lit "ibc_ack"
  | .unknown | .other _ => lit "unknown"

/-- One turn of a generator with its random draws: of `injectTraffic` with the number of the turn, or of
    `generateRandomTransaction` and `generateRandomIBCPacket`. -/
inductive Job
  | injected (sender receiver i : ℕ)
  | random (sender receiver : ℕ)
  | injectedPacket (src dst i : ℕ)
  | randomPacket (src dst : ℕ)
  deriving DecidableEq

/-- A transaction with the number of the node it is submitted to. -/
structure Ticket where
  tx : Transaction
  sender : ℕ
  deriving DecidableEq

inductive Stage
  | made
  | created
  | pooled
  | submitted
  deriving DecidableEq

/-- The thread between two turns, or with a transaction in hand, which the loop counts. -/
structure Generator where
  jobs : List Job
  hand : Option (Stage × Ticket)
  counts : Bool
  deriving DecidableEq

inductive TxEvent
  | created
  | submitted
  | received
  deriving DecidableEq

def TxEvent.type : TxEvent → TxEventType
  | created => .created
  | submitted => .submitted
  | received => .received

/-- The arguments of `logTransactionEvent`. No caller gives a block height. -/
structure Logged where
  event : TxEvent
  txId : Bytes
  txType : Bytes
  «from» : Bytes
  «to» : Bytes
  payload : Bytes
  chainId : Bytes
  nodeId : Bytes
  deriving DecidableEq

def Logged.of (event : TxEvent) (tx : Transaction) (chainId nodeId : Bytes) : Logged :=
  ⟨event, tx.txId, txTypeToString tx.type, tx.from, tx.to, tx.payload, chainId, nodeId⟩

namespace Job

def ticket (s : Sim) (clock now : ℤ) (counter : UInt64) : Job → Option Ticket
  | injected sender receiver i => do
    let node ← s.nodes[sender]?
    let other ← s.nodes[receiver]?
    let payload := lit "regular_tx_from_" ++ node.node.address ++ lit "_to_" ++ other.node.address ++ lit "_seq_" ++
      decimal i
    return ⟨⟨node.node.address, other.node.address, payload, .regular, generateTxId now counter⟩, sender⟩
  | random sender receiver => do
    let node ← s.nodes[sender]?
    let other ← s.nodes[receiver]?
    let payload := lit "auto_gen_tx_" ++ intText clock
    return ⟨⟨node.node.address, other.node.address, payload, .regular, generateTxId now counter⟩, sender⟩
  | injectedPacket _ _ _ | randomPacket _ _ => none

def counted : Job → Bool
  | random _ _ => true
  | _ => false

/-- The send of a turn with a packet. The two chains are drawn again until they differ. -/
def send (s : Sim) (clock : ℤ) : Job → Option SimInput
  | injectedPacket src dst i => do
    let a ← s.chains[src]?
    let b ← s.chains[dst]?
    let payload := lit "ibc_payload_from_" ++ a.chainId ++ lit "_to_" ++ b.chainId ++ lit "_seq_" ++ decimal i
    if src = dst then none else return .sendIBC src srcPort srcChan b.chainId dstPort dstChan payload
  | randomPacket src dst => do
    let a ← s.chains[src]?
    let b ← s.chains[dst]?
    let payload := lit "auto_ibc_" ++ a.chainId ++ lit "_to_" ++ b.chainId ++ lit "_" ++ intText clock
    if src = dst then none else return .sendIBC src srcPort srcChan b.chainId dstPort dstChan payload
  | injected _ _ _ | random _ _ => none

def chainName (s : Sim) (c : ℕ) : Bytes := (s.chains[c]?.map fun b => b.chainId).getD []

def report (s : Sim) (status : Status) : Job → List Effect
  | injectedPacket src dst _ =>
    if status.ok then [.log .info (lit "Sent IBC packet from " ++ chainName s src ++ lit " to " ++ chainName s dst ++
      lit " (will be auto-relayed)")]
    else [.log .warn (lit "Failed to send IBC packet from " ++ chainName s src ++ lit ": " ++ status.message)]
  | randomPacket _ _ =>
    if status.ok then [.incCounter (lit "traffic_ibc_tx_generated")]
    else [.log .warn (lit "Failed to generate IBC packet: " ++ status.message),
      .incCounter (lit "traffic_ibc_tx_failed")]
  | injected _ _ _ | random _ _ => []

end Job

/-- The simulation, the counter of `generateTxId` and the threads that generate. -/
structure TrafficRun where
  sim : Sim
  counter : UInt64
  generators : List Generator

/-- A step of the other threads, or of a generator: with the clock for the payload, the clock for the id,
    and whether the network drops the message. -/
inductive TrafficInput
  | sim (i : SimInput)
  | generator (g : ℕ) (clock now : ℤ) (drop : Bool)

structure TrafficOutput where
  effects : List Effect
  logged : List Logged
  made : Option Ticket

def TrafficOutput.nothing : TrafficOutput := ⟨[], [], none⟩

/-- The node whose loop took the transaction logs it. -/
def receivedIn (s : Sim) (calls : List (ℕ × ChainOp × ChainReply)) : SimInput → List Logged
  | .nodeStep n =>
    calls.flatMap fun call =>
      match call.2.1, s.nodes[n]? with
      | .addTransaction tx, some node => [.of .received tx (Job.chainName s call.1) node.node.nodeId]
      | _, _ => []
  | _ => []

namespace TrafficRun

def hold (r : TrafficRun) (g : ℕ) (gen : Generator) : TrafficRun := { r with generators := r.generators.set g gen }

def nextJob (r : TrafficRun) (g : ℕ) (gen : Generator) (clock now : ℤ) : TrafficRun × TrafficOutput :=
  match gen.jobs with
  | [] => (r, .nothing)
  | job :: rest =>
    match job.ticket r.sim clock now r.counter with
    | some k =>
      ({ r.hold g ⟨rest, some (.made, k), job.counted⟩ with counter := r.counter + 1 }, ⟨[], [], some k⟩)
    | none =>
      match job.send r.sim clock with
      | none => (r.hold g { gen with jobs := rest }, .nothing)
      | some i =>
        let next := simMachine.step r.sim i
        let reports := next.2.calls.flatMap fun call =>
          match call.2.2 with
          | .packet result => job.report r.sim result.status
          | _ => []
        ({ r.hold g { gen with jobs := rest } with sim := next.1 }, ⟨next.2.effects ++ reports, [], none⟩)

/-- The steps of a generator with a transaction in hand. From the second on they are the body of
    `submitTransaction`, called on the node. -/
def handOver (r : TrafficRun) (g : ℕ) (gen : Generator) (node : SimNode) (b : Blockchain) (k : Ticket)
    (drop : Bool) : Stage → TrafficRun × TrafficOutput
  | .made =>
    (r.hold g { gen with hand := some (.created, k) }, ⟨[], [.of .created k.tx [] []], none⟩)
  | .created =>
    ({ r.hold g { gen with hand := some (.pooled, k) } with
        sim := { r.sim with chains := r.sim.chains.set node.chain (b.addTransaction k.tx) } }, .nothing)
  | .pooled =>
    (r.hold g { gen with hand := some (.submitted, k) },
      ⟨[], [.of .submitted k.tx b.chainId node.node.nodeId], none⟩)
  | .submitted =>
    let sent := r.sim.transport.send node.node.address (node.node.submission k.tx) drop
    ({ r.hold g { gen with hand := none } with sim := { r.sim with transport := sent.1 } },
      ⟨.incCounter (lit "tx_submitted") ::
        if gen.counts then [.incCounter (lit "traffic_regular_tx_generated")] else [], [], none⟩)

def generate (r : TrafficRun) (g : ℕ) (clock now : ℤ) (drop : Bool) : TrafficRun × TrafficOutput :=
  match r.generators[g]? with
  | none => (r, .nothing)
  | some gen =>
    match gen.hand with
    | none => r.nextJob g gen clock now
    | some (stage, k) =>
      match r.sim.nodes[k.sender]? with
      | none => (r, .nothing)
      | some node =>
        match r.sim.chains[node.chain]? with
        | none => (r, .nothing)
        | some b => r.handOver g gen node b k drop stage

end TrafficRun

def trafficMachine : Machine TrafficRun TrafficInput TrafficOutput where
  step r i :=
    if r.sim.crashed then (r, .nothing)
    else
      match i with
      | .sim i =>
        let next := simMachine.step r.sim i
        ({ r with sim := next.1 }, ⟨next.2.effects, receivedIn r.sim next.2.calls i, none⟩)
      | .generator g clock now drop => r.generate g clock now drop

def begun (s : Sim) (plans : List (List Job)) : TrafficRun :=
  ⟨s.start, 0, plans.map fun jobs => ⟨jobs, none, false⟩⟩

def madeIn (t : List (TrafficInput × TrafficOutput)) : List Ticket := t.filterMap fun e => e.2.made

def loggedIn (t : List (TrafficInput × TrafficOutput)) : List Logged := t.flatMap fun e => e.2.logged

end InterchainCommunication.TransactionTraffic
