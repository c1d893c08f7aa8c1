import InterchainCommunication.RelayerModel

set_option autoImplicit false

/-!
# The whole simulation

`SimulationController::init` wires chains, nodes and relayers together. A run
interleaves sends on the chains, forwards of the relayers, deliveries of the
transport and steps of the node workers, in any order. Nobody submits
transactions in it.
-/
namespace InterchainCommunication.SimulationModel
open StringText CoreTypes MachineRuns PacketCodec BlockchainModel QueueAndBus NodeModel RelayerModel

structure ChainConfig where
  chainId : Bytes
  nodeCount : ℕ
  deriving DecidableEq

/-- The two lambdas a relayer subscribes, with the number of the relayer they capture. -/
inductive Handler
  | packetSend (relayer : ℕ)
  | ackSend (relayer : ℕ)
  deriving DecidableEq

structure SimNode where
  node : Node
  chain : ℕ
  deriving DecidableEq

structure Sim where
  chains : List Blockchain
  nodes : List SimNode
  relayers : List Relayer
  bus : EventBus Handler
  transport : Transport

namespace Sim

def empty : Sim := ⟨[], [], [], .new, .new⟩

def nodeName (i : ℕ) : Bytes := lit "node-" ++ decimal i

def addressOf (chainId : Bytes) (i : ℕ) : Bytes := chainId ++ lit ":" ++ nodeName i

section Init
-- which files the logger can open
variable (opens : Bytes → Bool)

/-- The constructor of `Node`, on the chain that is added last. -/
def addNode (chainId : Bytes) (s : Sim) (i : ℕ) : Except StdException Sim :=
  let chain := s.chains.length - 1
  let registered := s.transport.registerEndpoint (addressOf chainId i) s.nodes.length
  if registered.2.ok then
    .ok { s with
      transport := registered.1
      nodes := s.nodes ++ [⟨.new (nodeName i) (addressOf chainId i) (opens (nodeStateFile chainId (nodeName i))), chain⟩]
      chains := s.chains.modify chain fun b => (b.registerNodeId (nodeName i)).chain }
  else .error (.runtimeError (lit "Transport endpoint registration failed"))

/-- The constructor of `Relayer`, which subscribes to both kinds of events. -/
def addRelayer (s : Sim) : Sim :=
  let r := s.relayers.length
  { s with
    bus := ((s.bus.subscribe .ibcPacketSend (.packetSend r)).1.subscribe .ibcAckSend (.ackSend r)).1
    relayers := s.relayers ++ [.new (lit "relayer-" ++ decimal r)] }

def connectRelayer (chainId mailbox : Bytes) (s : Sim) (r : ℕ) : Sim :=
  let s := if s.relayers.length ≤ r then s.addRelayer else s
  { s with relayers := s.relayers.modify r fun rel => rel.connectChainMailbox chainId mailbox }

/-- One chain with its nodes. The chain stands in the list before its nodes, which only
    keep a reference to it. A chain without nodes has no mailbox. -/
def addChain (relayerCount : ℕ) (s : Sim) (cfg : ChainConfig) : Except StdException Sim := do
  let s ← (List.range cfg.nodeCount).foldlM (addNode opens cfg.chainId)
    { s with chains := s.chains ++ [.new cfg.chainId] }
  if cfg.nodeCount = 0 then return s
  else return (List.range relayerCount).foldl (connectRelayer cfg.chainId (addressOf cfg.chainId 0)) s

def init (relayerCount : ℕ) (configs : List ChainConfig) : Except StdException Sim :=
  configs.foldlM (addChain opens relayerCount) empty

end Init

def start (s : Sim) : Sim := { s with nodes := s.nodes.map fun n => { n with node := n.node.start.1 } }

def react (e : Event) (s : Sim × List Effect) : Handler → Sim × List Effect
  | .packetSend r =>
    match s.1.relayers[r]? with
    | none => s
    | some rel =>
      let heard := rel.onIBCPacketSendEvent e
      ({ s.1 with relayers := s.1.relayers.set r heard.1 }, s.2 ++ heard.2)
  | .ackSend r =>
    match s.1.relayers[r]? with
    | none => s
    | some rel =>
      let heard := rel.onIBCAckSendEvent e
      ({ s.1 with relayers := s.1.relayers.set r heard.1 }, s.2 ++ heard.2)

def publish (s : Sim × List Effect) (e : Event) : Sim × List Effect :=
  (s.1.bus.handlers e.kind).foldl (react e) s

/-- Events reach the bus in the order the call published them. -/
def publishAll (s : Sim) (effects : List Effect) : Sim × List Effect :=
  (published effects).foldl publish (s, effects)

end Sim

inductive SimInput
  | sendIBC (c : ℕ) (port : PortId) (chan : ChannelId) (dstChain : Bytes) (dstPort : PortId)
      (dstChan : ChannelId) (payload : Bytes)
  | forwardPacket (r : ℕ) (drops : Drops)
  | forwardAck (r : ℕ) (drops : Drops)
  | deliver (k : ℕ)
  | lose (k : ℕ)
  | duplicate (k : ℕ)
  | nodeStep (n : ℕ)
  deriving DecidableEq

/-- The calls a step made on chains, each with the chain's number, and its effects. -/
structure SimOutput where
  calls : List (ℕ × ChainOp × ChainReply)
  effects : List Effect

namespace Sim

/-- Chain `c` has become `b` through `calls`, and what they published goes out. -/
def absorb (s : Sim) (c : ℕ) (b : Blockchain) (calls : List (ChainOp × ChainReply)) (effects : List Effect) :
    Sim × SimOutput :=
  let out := { s with chains := s.chains.set c b }.publishAll effects
  (out.1, ⟨calls.map fun call => (c, call), out.2⟩)

def sendIBC (s : Sim) (c : ℕ) (op : ChainOp) : Sim × SimOutput :=
  match s.chains[c]? with
  | none => (s, ⟨[], []⟩)
  | some b => s.absorb c (b.call op).chain [(op, (b.call op).ret)] (b.call op).effects

def forward (s : Sim) (r : ℕ) (half : Relayer → Transport → Relayer × Transport × List Effect) :
    Sim × SimOutput :=
  match s.relayers[r]? with
  | none => (s, ⟨[], []⟩)
  | some rel =>
    let out := half rel s.transport
    ({ s with relayers := s.relayers.set r out.1, transport := out.2.1 }, ⟨[], out.2.2⟩)

/-- A worker of the transport takes task `k` and calls the endpoint, if there is one. -/
def deliver (s : Sim) (k : ℕ) : Sim × SimOutput :=
  match s.transport.tasks[k]? with
  | none => (s, ⟨[], []⟩)
  | some task =>
    let s' := { s with transport := { s.transport with tasks := s.transport.tasks.eraseIdx k } }
    match s.transport.endpoints task.1 with
    | none => (s', ⟨[], []⟩)
    | some n =>
      match s.nodes[n]? with
      | none => (s', ⟨[], []⟩)
      | some node =>
        let got := node.node.onBytes task.2
        ({ s' with nodes := s.nodes.set n { node with node := got.1 } }, ⟨[], got.2⟩)

def lose (s : Sim) (k : ℕ) : Sim :=
  { s with transport := { s.transport with tasks := s.transport.tasks.eraseIdx k } }

def duplicate (s : Sim) (k : ℕ) : Sim :=
  { s with transport := { s.transport with
    tasks := s.transport.tasks ++ (s.transport.tasks[k]?).toList } }

def nodeStep (s : Sim) (n : ℕ) : Sim × SimOutput :=
  match s.nodes[n]? with
  | none => (s, ⟨[], []⟩)
  | some node =>
    match s.chains[node.chain]? with
    | none => (s, ⟨[], []⟩)
    | some b =>
      let moved := node.node.loopStep b
      let s' := { s with nodes := s.nodes.set n { node with node := moved.1 } }
      match moved.2.2 with
      | none => (s', ⟨[], []⟩)
      | some (_, done) => s'.absorb node.chain done.chain done.calls done.effects

/-- An exception that leaves a worker has ended the process. -/
def crashed (s : Sim) : Bool :=
  s.nodes.any fun n =>
    match n.node.worker with
    | .terminated _ => true
    | _ => false

def act (s : Sim) : SimInput → Sim × SimOutput
  | .sendIBC c port chan dstChain dstPort dstChan payload =>
    s.sendIBC c (.sendIBC port chan dstChain dstPort dstChan payload)
  | .forwardPacket r drops => s.forward r fun rel t => rel.forwardPacket t drops
  | .forwardAck r drops => s.forward r fun rel t => rel.forwardAck t drops
  | .deliver k => s.deliver k
  | .lose k => (s.lose k, ⟨[], []⟩)
  | .duplicate k => (s.duplicate k, ⟨[], []⟩)
  | .nodeStep n => s.nodeStep n

end Sim

def simMachine : Machine Sim SimInput SimOutput where
  step s i := if s.crashed then (s, ⟨[], []⟩) else s.act i

def callsIn (t : List (SimInput × SimOutput)) : List (ℕ × ChainOp × ChainReply) :=
  t.flatMap fun e => e.2.calls

end InterchainCommunication.SimulationModel
