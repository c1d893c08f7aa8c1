import InterchainCommunication.LoopBackCounting
import InterchainCommunication.Restarting
import InterchainCommunication.UniqueWiring

set_option autoImplicit false

namespace InterchainCommunication.StopModel
open StringText CoreTypes MachineRuns NodeModel RelayerModel SimulationModel
open ComponentLife Restarting LoopBackCounting

/-- How far `stop` has come. Inside the `stop` of one component it stands where the owner
    of the component stands. -/
inductive StopPoint
  | notCalled
  | traffic
  | relayer (r : ℕ) (c : Caller)
  | node (n : ℕ) (c : Caller)
  | draining
  | shuttingDown
  | notifying
  | worker (w : ℕ)
  | returned
  deriving DecidableEq

/-- Where a worker of the transport stands: before the test of its wait, between the test and
    the block, in the wait, or through its loop. -/
inductive TransportPoint
  | atTest
  | aboutToWait
  | waiting
  | returned
  deriving DecidableEq

def TransportPoint.notified : TransportPoint → TransportPoint
  | .waiting => .atTest
  | p => p

structure RelayerLoop where
  running : Bool
  worker : RelayerPoint

/-- The numbers stand beside what they number: the tasks of the transport and the
    messages of each inbox. A message that is refused by its node or ends the process is lost. -/
structure Stopping where
  sim : Sim
  loops : List RelayerLoop
  transportRuns : Bool
  workers : List TransportPoint
  point : StopPoint
  sentBefore : Option ℕ
  sent : ℕ
  taskNumbers : List ℕ
  inboxNumbers : List (List ℕ)
  handled : List ℕ
  lost : List ℕ

inductive StopInput
  | sendIBC (c : ℕ) (port : PortId) (chan : ChannelId) (dstChain : Bytes) (dstPort : PortId)
      (dstChan : ChannelId) (payload : Bytes)
  | submit (n : ℕ) (tx : Transaction) (drop : Bool)
  | relayerStep (r : ℕ) (drops : Drops)
  | deliver (k : ℕ)
  | nodeStep (n : ℕ)
  | workerStep (w : ℕ)
  | wake (w : ℕ)
  | stop
  deriving DecidableEq

def submit (s : Sim) (n : ℕ) (tx : Transaction) (drop : Bool) : Sim :=
  match s.nodes[n]? with
  | none => s
  | some node =>
    match s.chains[node.chain]? with
    | none => s
    | some b =>
      let done := submitTransaction node.node b s.transport tx drop
      { s with chains := s.chains.set node.chain done.1, transport := done.2.1 }

def takenIn (s : Sim) (task : Bytes × Bytes) : Option ℕ :=
  match s.transport.endpoints task.1 with
  | none => none
  | some n =>
    match s.nodes[n]? with
    | none => none
    | some node =>
      if node.node.inbox.closed then none
      else
        match deserializeNodeMessage task.2 with
        | .ok _ => some n
        | .error _ => none

namespace Stopping

def trafficRuns (r : Stopping) : Bool := r.point == .notCalled || r.point == .traffic

/-- A step that may send: a new task gets the next number. -/
def sends (r : Stopping) (s : Sim) : Stopping :=
  if r.sim.transport.tasks.length < s.transport.tasks.length then
    { r with sim := s, sent := r.sent + 1, taskNumbers := r.taskNumbers ++ [r.sent] }
  else { r with sim := s }

def relayerStep (r : Stopping) (k : ℕ) (drops : Drops) : Stopping :=
  match r.loops[k]? with
  | none => r
  | some loop =>
    match loop.worker with
    | .atTest =>
      { r with loops := r.loops.set k { loop with worker := if loop.running then .atPackets else .returned } }
    | .atPackets =>
      { r.sends (r.sim.forward k fun rel t => rel.forwardPacket t drops).1 with
        loops := r.loops.set k { loop with worker := .atAcks } }
    | .atAcks =>
      { r.sends (r.sim.forward k fun rel t => rel.forwardAck t drops).1 with
        loops := r.loops.set k { loop with worker := .atTest } }
    | .idle | .returned => r

def deliver (r : Stopping) (k : ℕ) : Stopping :=
  match r.sim.transport.tasks[k]?, r.taskNumbers[k]? with
  | some task, some id =>
    let r' := { r with sim := (r.sim.deliver k).1, taskNumbers := r.taskNumbers.eraseIdx k }
    match takenIn r.sim task with
    | some n => { r' with inboxNumbers := r.inboxNumbers.modify n (· ++ [id]) }
    | none => { r' with lost := r.lost ++ [id] }
  | _, _ => r

def nodeStep (r : Stopping) (n : ℕ) : Stopping :=
  match r.sim.nodes[n]? with
  | none => r
  | some node =>
    match r.sim.chains[node.chain]? with
    | none => r
    | some b =>
      let r' := { r with sim := (r.sim.nodeStep n).1 }
      match takenBy node.node, r.inboxNumbers[n]? with
      | some _, some (id :: rest) =>
        match (node.node.loopStep b).2.2.bind fun taken => taken.2.thrown with
        | none => { r' with inboxNumbers := r.inboxNumbers.set n rest, handled := r.handled ++ [id] }
        | some _ => { r' with inboxNumbers := r.inboxNumbers.set n rest, lost := r.lost ++ [id] }
      | _, _ => r'

def workerStep (r : Stopping) (w : ℕ) : Stopping :=
  match r.workers[w]? with
  | some .atTest =>
    if r.transportRuns then
      if r.sim.transport.tasks = [] then { r with workers := r.workers.set w .aboutToWait } else r
    else { r with workers := r.workers.set w .returned }
  | some .aboutToWait => { r with workers := r.workers.set w .waiting }
  | _ => r

/-- A wait ends with the notification of a send, or spuriously. -/
def wake (r : Stopping) (w : ℕ) : Stopping :=
  match r.workers[w]? with
  | some .waiting => { r with workers := r.workers.set w .atTest }
  | _ => r

def moveNode (r : Stopping) (n : ℕ) (f : Node → Node) : Stopping :=
  { r with sim := { r.sim with nodes := r.sim.nodes.modify n fun node => { node with node := f node.node } } }

def moveRelayer (r : Stopping) (k : ℕ) (f : Relayer → Relayer) : Stopping :=
  { r with sim := { r.sim with relayers := r.sim.relayers.modify k f } }

/-- The next thing the stopping thread does. A join waits for the worker, and the wait for
    pending deliveries for the tasks. -/
def stop (r : Stopping) : Stopping :=
  match r.point with
  | .notCalled => { r with point := .traffic, sentBefore := some r.sent }
  | .traffic => { r with point := .relayer 0 .free }
  | .relayer k .free =>
    match r.loops[k]? with
    | none => { r with point := .node 0 .free }
    | some loop =>
      if loop.running then
        { r with loops := r.loops.set k { loop with running := false }, point := .relayer k .closing }
      else { r with point := .relayer (k + 1) .free }
  | .relayer k .closing => { r.moveRelayer k Relayer.closePackets with point := .relayer k .closingAcks }
  | .relayer k .closingAcks => { r.moveRelayer k Relayer.closeAcks with point := .relayer k .joining }
  | .relayer k .joining =>
    match r.loops[k]? with
    | none => r
    | some loop => if loop.worker = .returned then { r with point := .relayer (k + 1) .free } else r
  | .node n .free =>
    match r.sim.nodes[n]? with
    | none => { r with point := .draining }
    | some node =>
      if node.node.running then { r.moveNode n Node.clearRunning with point := .node n .closing }
      else { r with point := .node (n + 1) .free }
  | .node n .closing => { r.moveNode n Node.closeInbox with point := .node n .joining }
  | .node _ .closingAcks => r
  | .node n .joining =>
    match r.sim.nodes[n]? with
    | none => r
    | some node => if node.node.worker = .returned then { r with point := .node (n + 1) .free } else r
  | .draining => if r.sim.transport.tasks = [] then { r with point := .shuttingDown } else r
  -- `shutdown` clears the flag and notifies without holding the mutex of the waits
  | .shuttingDown => { r with transportRuns := false, point := .notifying }
  | .notifying => { r with workers := r.workers.map TransportPoint.notified, point := .worker 0 }
  | .worker w =>
    match r.workers[w]? with
    | none => { r with point := .returned }
    | some p => if p = .returned then { r with point := .worker (w + 1) } else r
  | .returned => r

def act (r : Stopping) : StopInput → Stopping
  | .sendIBC c port chan dstChain dstPort dstChan payload =>
    if r.trafficRuns then
      { r with sim := (r.sim.sendIBC c (.sendIBC port chan dstChain dstPort dstChan payload)).1 }
    else r
  | .submit n tx drop => if r.trafficRuns then r.sends (StopModel.submit r.sim n tx drop) else r
  | .relayerStep k drops => r.relayerStep k drops
  | .deliver k => r.deliver k
  | .nodeStep n => r.nodeStep n
  | .workerStep w => r.workerStep w
  | .wake w => r.wake w
  | .stop => r.stop

end Stopping

/-- An exception that leaves a worker has ended the process. -/
def stopMachine : Machine Stopping StopInput Unit where
  step r i := (if r.sim.crashed then r else r.act i, ())

/-- After `init` and `start`, with every worker at the test of its loop. -/
def started (s : Sim) : Stopping where
  sim := s.start
  loops := s.relayers.map fun _ => ⟨true, .atTest⟩
  transportRuns := true
  workers := List.replicate 4 .atTest
  point := .notCalled
  sentBefore := none
  sent := 0
  taskNumbers := []
  inboxNumbers := s.nodes.map fun _ => []
  handled := []
  lost := []

/-- Every message whose send returned Ok before `stop` was called has been handled. -/
def Graceful (r : Stopping) : Prop := ∀ c, r.sentBefore = some c → ∀ id < c, id ∈ r.handled

/-- The message was sent before `stop` was called, as far as the call has been made. -/
def Early (r : Stopping) (id : ℕ) : Prop := ∀ c, r.sentBefore = some c → id < c

/-- An early message that is delivered finds an open inbox and a worker in its loop, and a
    worker leaves its loop with no early message in its inbox. -/
def Spares (r : Stopping) : StopInput → Prop
  | .deliver k => ∀ task id, r.sim.transport.tasks[k]? = some task → r.taskNumbers[k]? = some id → Early r id →
      ∃ n node, takenIn r.sim task = some n ∧ r.sim.nodes[n]? = some node ∧ node.node.worker ≠ .returned
  | .nodeStep n => ∀ node numbers, r.sim.nodes[n]? = some node → r.inboxNumbers[n]? = some numbers →
      node.node.worker = .atTest → node.node.running = false → ∀ id ∈ numbers, ¬ Early r id
  | _ => True

end InterchainCommunication.StopModel
