import InterchainCommunication.ChainHistory
import InterchainCommunication.NodeModel

set_option autoImplicit false

namespace InterchainCommunication.NodeSteps
open StringText CoreTypes PacketCodec BlockchainModel BlockchainSteps ChainHistory QueueAndBus NodeModel

def Requests (msg : NodeMessage) : ChainOp → Prop
  | .addTransaction _ => msg.kind = .transaction
  | .onIBCPacket pkt => msg.kind = .ibc ∧ deserializeIBCPacket msg.bytes = .ok pkt ∧ pkt.type = .data
  | .onIBCAck ack => msg.kind = .ibc ∧ deserializeIBCPacket msg.bytes = .ok ack ∧ ack.type = .ack
  | _ => False

structure Idle (b : Blockchain) (done : Handled) : Prop where
  chain : done.chain = b
  calls : done.calls = []
  quiet : published done.effects = []
  uncounted : receivedCounters done.effects = []

structure Does (b : Blockchain) (done : Handled) (op : ChainOp) : Prop where
  chain : done.chain = (b.call op).chain
  calls : done.calls = [(op, (b.call op).ret)]
  same : published done.effects = published (b.call op).effects
  counts : receivedCounters done.effects = receivedCounters (b.call op).effects

theorem report_published (noun counter : Bytes) (sequence : UInt64) (reply : ChainReply) :
    published (report noun counter sequence reply) = [] := by
  unfold report
  split
  · split <;> rfl
  · rfl

theorem report_counters {noun counter : Bytes} (sequence : UInt64) (reply : ChainReply)
    (processed : isReceived (counter ++ lit "_processed") = false)
    (failed : isReceived (counter ++ lit "_failed") = false) :
    receivedCounters (report noun counter sequence reply) = [] := by
  unfold report
  split
  · split
    · simp [receivedCounters, processed]
    · simp [receivedCounters, failed]
  · rfl

theorem does_ofCall (b : Blockchain) (op : ChainOp) {before : List Effect}
    {afterwards : ChainReply → List Effect} (first : published before = [] ∧ receivedCounters before = [])
    (last : ∀ reply, published (afterwards reply) = [] ∧ receivedCounters (afterwards reply) = []) :
    Does b (Handled.ofCall b op before afterwards) op where
  chain := rfl
  calls := rfl
  same := by simp [Handled.ofCall, first.1, (last _).1]
  counts := by simp [Handled.ofCall, first.2, (last _).2]

theorem does_received (nodeId what noun counter : Bytes) (b : Blockchain) (op : ChainOp) (pkt : IBCPacket)
    (processed : isReceived (counter ++ lit "_processed") = false)
    (failed : isReceived (counter ++ lit "_failed") = false) :
    Does b (.ofCall b op (received nodeId what pkt) (report noun counter pkt.sequence)) op :=
  does_ofCall b op ⟨rfl, rfl⟩ fun reply =>
    ⟨report_published _ _ _ reply, report_counters _ reply processed failed⟩

theorem idle_still (b : Blockchain) {effects : List Effect} (quiet : published effects = [])
    (uncounted : receivedCounters effects = []) : Idle b (.still b effects) := ⟨rfl, rfl, quiet, uncounted⟩

theorem idle_throws (b : Blockchain) (e : StdException) : Idle b (.throws b e) := ⟨rfl, rfl, rfl, rfl⟩

section Endings
variable {b : Blockchain} {done : Handled} {op : ChainOp} {opens : Bool} {nodeId : Bytes}

theorem snapshot_frame (done : Handled) (opens : Bool) (nodeId : Bytes) :
    let after := done.snapshot opens nodeId
    after.chain = done.chain ∧ after.calls = done.calls ∧
      ∃ states, after.effects = done.effects ++ states ∧ published states = [] ∧ counted states = [] := by
  cases opens with
  | true => exact ⟨rfl, rfl, _, rfl, rfl, rfl⟩
  | false => exact ⟨rfl, rfl, [], (List.append_nil _).symm, rfl, rfl⟩

theorem caught_frame (done : Handled) :
    let after := done.caught
    after.chain = done.chain ∧ after.calls = done.calls ∧ after.thrown = none ∧
      ∃ failed, after.effects = done.effects ++ failed ∧ published failed = [] ∧ receivedCounters failed = [] := by
  obtain ⟨chain, calls, effects, thrown⟩ := done
  cases thrown with
  | none => exact ⟨rfl, rfl, rfl, [], (List.append_nil _).symm, rfl, rfl⟩
  | some e => exact ⟨rfl, rfl, rfl, _, rfl, rfl, rfl⟩

theorem Does.snapshot (h : Does b done op) : Does b (done.snapshot opens nodeId) op := by
  obtain ⟨chain, calls, states, effects, quiet, uncounted⟩ := snapshot_frame done opens nodeId
  refine ⟨chain.trans h.chain, calls.trans h.calls, ?_, ?_⟩
  · rw [effects, published_append, h.same, quiet, List.append_nil]
  · rw [effects, receivedCounters_append, h.counts, receivedCounters, receivedCounters, uncounted, List.filter_nil,
      List.append_nil]

theorem Idle.snapshot (h : Idle b done) : Idle b (done.snapshot opens nodeId) := by
  obtain ⟨chain, calls, states, effects, quiet, uncounted⟩ := snapshot_frame done opens nodeId
  refine ⟨chain.trans h.chain, calls.trans h.calls, ?_, ?_⟩
  · rw [effects, published_append, h.quiet, quiet, List.append_nil]
  · rw [effects, receivedCounters_append, h.uncounted, receivedCounters, uncounted, List.filter_nil, List.append_nil]

theorem Does.caught (h : Does b done op) : Does b done.caught op := by
  obtain ⟨chain, calls, -, failed, effects, quiet, uncounted⟩ := caught_frame done
  refine ⟨chain.trans h.chain, calls.trans h.calls, ?_, ?_⟩
  · rw [effects, published_append, h.same, quiet, List.append_nil]
  · rw [effects, receivedCounters_append, h.counts, uncounted, List.append_nil]

theorem Idle.caught (h : Idle b done) : Idle b done.caught := by
  obtain ⟨chain, calls, -, failed, effects, quiet, uncounted⟩ := caught_frame done
  refine ⟨chain.trans h.chain, calls.trans h.calls, ?_, ?_⟩
  · rw [effects, published_append, h.quiet, quiet, List.append_nil]
  · rw [effects, receivedCounters_append, h.uncounted, uncounted, List.append_nil]

end Endings

theorem handleTransaction_does (opens : Bool) (nodeId : Bytes) (b : Blockchain) (bytes : Bytes) :
    Idle b (handleTransaction opens nodeId b bytes) ∨
      ∃ tx, Does b (handleTransaction opens nodeId b bytes) (.addTransaction tx) := by
  unfold handleTransaction
  dsimp only
  split
  · rename_i p1 p2 p3 p4 _ _ _ _
    cases stoi (substr bytes (p3 + 1) (p4 - p3 - 1)) with
    | error e => exact .inl (idle_throws b e)
    | ok type => exact .inr ⟨_, (does_ofCall b _ ⟨rfl, rfl⟩ fun _ => ⟨rfl, rfl⟩).snapshot⟩
  · exact .inl (idle_still b rfl rfl)

theorem handleIBC_does (opens : Bool) (nodeId : Bytes) (b : Blockchain) (bytes : Bytes) :
    Idle b (handleIBC opens nodeId b bytes) ∨ ∃ pkt, deserializeIBCPacket bytes = .ok pkt ∧
      ((pkt.type = .data ∧ Does b (handleIBC opens nodeId b bytes) (.onIBCPacket pkt)) ∨
        (pkt.type = .ack ∧ Does b (handleIBC opens nodeId b bytes) (.onIBCAck pkt))) := by
  unfold handleIBC
  cases deserializeIBCPacket bytes with
  | error e => exact .inl (idle_throws b e).caught
  | ok pkt =>
    dsimp only
    cases type : pkt.type with
    | data =>
      have call := does_received nodeId (lit "data packet") (lit "packet") (lit "ibc_packets") b (.onIBCPacket pkt) pkt
        (by decide) (by decide)
      exact .inr ⟨pkt, rfl, .inl ⟨type, call.snapshot.caught⟩⟩
    | ack =>
      have call := does_received nodeId (lit "ack") (lit "ack") (lit "ibc_acks") b (.onIBCAck pkt) pkt
        (by decide) (by decide)
      exact .inr ⟨pkt, rfl, .inr ⟨type, call.snapshot.caught⟩⟩
    | other v => exact .inl (idle_still b rfl rfl).snapshot.caught

theorem handleMessage_does (opens : Bool) (nodeId : Bytes) (b : Blockchain) (msg : NodeMessage) :
    let done := handleMessage opens nodeId b msg
    Idle b done ∨ ∃ op, Requests msg op ∧ Does b done op := by
  unfold handleMessage
  cases kind : msg.kind with
  | transaction =>
    rcases handleTransaction_does opens nodeId b msg.bytes with idle | ⟨tx, does⟩
    · exact .inl idle
    · exact .inr ⟨.addTransaction tx, kind, does⟩
  | ibc =>
    rcases handleIBC_does opens nodeId b msg.bytes with idle | ⟨pkt, read, ⟨type, does⟩ | ⟨type, does⟩⟩
    · exact .inl idle
    · exact .inr ⟨.onIBCPacket pkt, ⟨kind, read, type⟩, does⟩
    · exact .inr ⟨.onIBCAck pkt, ⟨kind, read, type⟩, does⟩
  | block | unknown | other v => exact .inl (idle_still b rfl rfl)

/-- The packet branch lets no exception out, and the others none but a transaction's. -/
theorem handleIBC_thrown (opens : Bool) (nodeId : Bytes) (b : Blockchain) (bytes : Bytes) :
    (handleIBC opens nodeId b bytes).thrown = none := by
  unfold handleIBC
  cases deserializeIBCPacket bytes with
  | error e => exact (caught_frame _).2.2.1
  | ok pkt => exact (caught_frame _).2.2.1

theorem onBytes_cases (n : Node) (bs : Bytes) :
    (∃ msg, deserializeNodeMessage bs = .ok msg ∧ n.inbox.closed = false ∧
      n.onBytes bs = ({ n with inbox := { n.inbox with q := n.inbox.q ++ [msg] } }, [])) ∨
    ∃ text, n.onBytes bs = (n, [.log .error text]) := by
  unfold Node.onBytes
  cases read : deserializeNodeMessage bs with
  | error e =>
    have refused : (deserializeNodeMessage bs >>= n.inbox.push) = .error e := by rw [read]; rfl
    rw [← read, refused]
    exact .inr ⟨_, rfl⟩
  | ok msg =>
    have pushed : (deserializeNodeMessage bs >>= n.inbox.push) = n.inbox.push msg := by rw [read]; rfl
    rw [← read, pushed]
    cases hc : n.inbox.closed with
    | true =>
      have refused : n.inbox.push msg = .error (.runtimeError (lit "Queue is closed")) := by
        simp [ConcurrentQueue.push, hc]
      rw [refused]
      exact .inr ⟨_, rfl⟩
    | false =>
      rw [ConcurrentQueue.push_open hc]
      exact .inl ⟨msg, read, rfl, rfl⟩

/-- What one step of the worker can do. -/
theorem loopStep_cases (n : Node) (b : Blockchain) :
    (∃ msg rest, n.worker = .atPop ∧ n.inbox.q = msg :: rest ∧
      let done := handleMessage n.stateFileOpens n.nodeId b msg
      n.loopStep b = ({ n with inbox := { n.inbox with q := rest }, worker := .after done.thrown }, done.chain,
        some (msg, done))) ∨
    ∃ w, n.loopStep b = ({ n with worker := w }, b, none) ∧ (w = n.worker ∨
      (n.worker = .atTest ∧ w = if n.running then .atPop else .returned) ∨
      (n.inbox.closed = true ∧ w = .returned)) := by
  obtain ⟨nodeId, address, opens, running, ⟨q, closed⟩, worker⟩ := n
  cases worker with
  | atTest => exact .inr ⟨_, rfl, .inr (.inl ⟨rfl, rfl⟩)⟩
  | atPop =>
    cases q with
    | nil =>
      cases closed with
      | true => exact .inr ⟨_, rfl, .inr (.inr ⟨rfl, rfl⟩)⟩
      | false => exact .inr ⟨_, rfl, .inl rfl⟩
    | cons msg rest => exact .inl ⟨msg, rest, rfl, rfl, rfl⟩
  | idle | returned | terminated e => exact .inr ⟨_, rfl, .inl rfl⟩

theorem after_cases (thrown : Option StdException) :
    (thrown = none ∧ WorkerPoint.after thrown = .atTest) ∨
      ∃ e, thrown = some e ∧ WorkerPoint.after thrown = .terminated e := by
  cases thrown with
  | none => exact .inl ⟨rfl, rfl⟩
  | some e => exact .inr ⟨e, rfl, rfl⟩

end InterchainCommunication.NodeSteps
