import InterchainCommunication.BlockchainModel
import InterchainCommunication.QueueAndBus

set_option autoImplicit false

namespace InterchainCommunication.NodeModel
open StringText CoreTypes PacketCodec BlockchainModel QueueAndBus

inductive NodeMessageKind
  | block
  | transaction
  | ibc
  | unknown
  | other (value : {v : ℤ // v < 0 ∨ 3 < v})
  deriving DecidableEq, Repr

def NodeMessageKind.toInt : NodeMessageKind → ℤ
  | block => 0
  | transaction => 1
  | ibc => 2
  | unknown => 3
  | other v => v.val

def NodeMessageKind.ofInt (v : ℤ) : NodeMessageKind :=
  if h : v < 0 ∨ 3 < v then .other ⟨v, h⟩
  else if v = 0 then .block else if v = 1 then .transaction else if v = 2 then .ibc else .unknown

theorem NodeMessageKind.ofInt_toInt (k : NodeMessageKind) : ofInt k.toInt = k := by
  cases k with
  | other v => simp [ofInt, toInt, v.property]
  | block | transaction | ibc | unknown => rfl

structure NodeMessage where
  fromAddress : Bytes
  kind : NodeMessageKind
  bytes : Bytes
  deriving DecidableEq, Repr

def serializeNodeMessage (msg : NodeMessage) : Bytes :=
  msg.fromAddress ++ [pipe] ++ intText msg.kind.toInt ++ [pipe] ++ msg.bytes

def deserializeNodeMessage (s : Bytes) : Except StdException NodeMessage :=
  let p1 := find s pipe 0
  let p2 := find s pipe (after p1)
  match p1, p2 with
  | some p1, some p2 => do
    let kind ← stoi (substr s (p1 + 1) (p2 - p1 - 1))
    return ⟨substr s 0 p1, .ofInt kind, s.drop (p2 + 1)⟩
  | _, _ => .error (.runtimeError (lit "Malformed NodeMessage"))

/-- `from|to|payload|type|tx_id`. -/
def serializeTransaction (tx : Transaction) : Bytes :=
  tx.from ++ [pipe] ++ tx.to ++ [pipe] ++ tx.payload ++ [pipe] ++ intText tx.type.toInt ++ [pipe] ++ tx.txId

def nodeStateFile (chainId nodeId : Bytes) : Bytes :=
  lit "node_state_" ++ chainId ++ lit "_" ++ nodeId ++ lit ".jsonl"

/-- What the constructor of `LogStream` throws. -/
def openError (filename : Bytes) : StdException :=
  .runtimeError (lit "LogStream: failed to open file: " ++ filename)

/-- `opens` says whether the file of the node's states can be opened, or is not asked for since
    its category is off. -/
def snapshotState (opens : Bool) (nodeId : Bytes) (b : Blockchain) : Except StdException Effect :=
  if opens then
    .ok (.nodeState b.chainId nodeId b.head.header.height (lit "hash_" ++ decimal b.head.header.height.toNat)
      b.mempool.length)
  else .error (openError (nodeStateFile b.chainId nodeId))

/-- What the handling of one message did: the chain, the calls on it with their replies, all
    effects in order, and the exception that left it. -/
structure Handled where
  chain : Blockchain
  calls : List (ChainOp × ChainReply)
  effects : List Effect
  thrown : Option StdException

namespace Handled

def still (b : Blockchain) (effects : List Effect) : Handled := ⟨b, [], effects, none⟩

def throws (b : Blockchain) (e : StdException) : Handled := ⟨b, [], [], some e⟩

def ofCall (b : Blockchain) (op : ChainOp) (before : List Effect) (afterwards : ChainReply → List Effect) : Handled :=
  let o := b.call op
  ⟨o.chain, [(op, o.ret)], before ++ o.effects ++ afterwards o.ret, none⟩

def snapshot (done : Handled) (opens : Bool) (nodeId : Bytes) : Handled :=
  match snapshotState opens nodeId done.chain with
  | .ok state => { done with effects := done.effects ++ [state] }
  | .error e => { done with thrown := some e }

/-- The `catch` of the packet branch. -/
def caught (done : Handled) : Handled :=
  match done.thrown with
  | none => done
  | some e =>
    { done with
      effects := done.effects ++ [.log .error (lit "Failed to deserialize IBC packet: " ++ e.what),
        .incCounter (lit "ibc_deserialization_errors")]
      thrown := none }

end Handled

/-- The `Transaction` case, without a `try`: an exception of `stoi` or of the snapshot leaves it. -/
def handleTransaction (opens : Bool) (nodeId : Bytes) (b : Blockchain) (bytes : Bytes) : Handled :=
  let p1 := find bytes pipe 0
  let p2 := find bytes pipe (after p1)
  let p3 := find bytes pipe (after p2)
  let p4 := find bytes pipe (after p3)
  match p1, p2, p3, p4 with
  | some p1, some p2, some p3, some p4 =>
    match stoi (substr bytes (p3 + 1) (p4 - p3 - 1)) with
    | .error e => .throws b e
    | .ok type =>
      let tx : Transaction := {
        «from» := substr bytes 0 p1
        «to» := substr bytes (p1 + 1) (p2 - p1 - 1)
        payload := substr bytes (p2 + 1) (p3 - p2 - 1)
        type := .ofInt type
        txId := bytes.drop (p4 + 1) }
      (Handled.ofCall b (.addTransaction tx) [] fun _ => [.incCounter (lit "tx_received"),
        .log .debug (lit "Node " ++ nodeId ++ lit " received tx from " ++ tx.from)]).snapshot opens nodeId
  | _, _, _, _ => .still b [.log .warn (lit "Malformed tx message")]

def report (noun counter : Bytes) (sequence : UInt64) : ChainReply → List Effect
  | .status s =>
    if s.ok then
      [.incCounter (counter ++ lit "_processed"),
        .log .info (lit "Successfully processed IBC " ++ noun ++ lit " seq=" ++ decimal sequence.toNat)]
    else
      [.incCounter (counter ++ lit "_failed"),
        .log .warn (lit "Failed to process IBC " ++ noun ++ lit ": " ++ s.message)]
  | _ => []

def received (nodeId what : Bytes) (pkt : IBCPacket) : List Effect :=
  [.log .debug (lit "Node " ++ nodeId ++ lit " received IBC " ++ what ++ lit " from " ++ pkt.srcChain ++
    lit " to " ++ pkt.dstChain ++ lit " (seq=" ++ decimal pkt.sequence.toNat ++ lit ")")]

/-- The `IBC` case: a packet of a type outside the named ones leaves the snapshot only. -/
def handleIBC (opens : Bool) (nodeId : Bytes) (b : Blockchain) (bytes : Bytes) : Handled :=
  match deserializeIBCPacket bytes with
  | .error e => (Handled.throws b e).caught
  | .ok pkt =>
    let done : Handled :=
      match pkt.type with
      | .data => .ofCall b (.onIBCPacket pkt) (received nodeId (lit "data packet") pkt)
          (report (lit "packet") (lit "ibc_packets") pkt.sequence)
      | .ack => .ofCall b (.onIBCAck pkt) (received nodeId (lit "ack") pkt)
          (report (lit "ack") (lit "ibc_acks") pkt.sequence)
      | .other _ => .still b []
    (done.snapshot opens nodeId).caught

def handleMessage (opens : Bool) (nodeId : Bytes) (b : Blockchain) (msg : NodeMessage) : Handled :=
  match msg.kind with
  | .transaction => handleTransaction opens nodeId b msg.bytes
  | .block => .still b [.log .debug (lit "Node " ++ nodeId ++ lit " received block (not implemented)")]
  | .ibc => handleIBC opens nodeId b msg.bytes
  | .unknown | .other _ => .still b [.log .warn (lit "Node " ++ nodeId ++ lit " received unknown message kind")]

/-- Where the worker thread stands: not started, before the test of `running_`, inside
    `waitPop`, returned, or ended by an exception nobody catches. -/
inductive WorkerPoint
  | idle
  | atTest
  | atPop
  | returned
  | terminated (e : StdException)
  deriving DecidableEq

def WorkerPoint.after : Option StdException → WorkerPoint
  | none => .atTest
  | some e => .terminated e

structure Node where
  nodeId : Bytes
  address : Bytes
  stateFileOpens : Bool
  running : Bool
  inbox : ConcurrentQueue NodeMessage
  worker : WorkerPoint
  deriving DecidableEq

namespace Node

def new (nodeId address : Bytes) (stateFileOpens : Bool) : Node :=
  ⟨nodeId, address, stateFileOpens, false, .new, .idle⟩

def start (n : Node) : Node × Status :=
  if n.running then (n, ⟨.invalidState, lit "Node already running"⟩)
  else ({ n with running := true, worker := .atTest }, ⟨.ok, []⟩)

/-- The `catch` covers the decoder and the push. -/
def onBytes (n : Node) (bytes : Bytes) : Node × List Effect :=
  match deserializeNodeMessage bytes >>= n.inbox.push with
  | .ok inbox => ({ n with inbox := inbox }, [])
  | .error e => (n, [.log .error (lit "Failed to deserialize NodeMessage: " ++ e.what)])

/-- What `submitTransaction` sends, from the node to itself. -/
def submission (n : Node) (tx : Transaction) : Bytes :=
  serializeNodeMessage ⟨n.address, .transaction, serializeTransaction tx⟩

/-- One step of the worker. At `waitPop` on an open and empty inbox nothing moves. -/
def loopStep (n : Node) (b : Blockchain) : Node × Blockchain × Option (NodeMessage × Handled) :=
  match n.worker with
  | .atTest => ({ n with worker := if n.running then .atPop else .returned }, b, none)
  | .atPop =>
    match n.inbox.waitPop with
    | none => (n, b, none)
    | some (.error _) => ({ n with worker := .returned }, b, none)
    | some (.ok (msg, inbox)) =>
      let done := handleMessage n.stateFileOpens n.nodeId b msg
      ({ n with inbox := inbox, worker := .after done.thrown }, done.chain, some (msg, done))
  | .idle | .returned | .terminated _ => (n, b, none)

/-- `stop()` first clears the flag and then closes the inbox. -/
def clearRunning (n : Node) : Node := { n with running := false }

def closeInbox (n : Node) : Node := { n with inbox := n.inbox.close }

end Node

end InterchainCommunication.NodeModel
