import InterchainCommunication.NodeSurvival

set_option autoImplicit false

namespace InterchainCommunication.TransactionWire
open StringText CoreTypes PacketCodec BlockchainModel BlockchainSteps QueueAndBus
open NodeModel NodeSteps NodeText NodeSurvival

/-- The enumeration is an `int`. -/
def IsInt (t : TxType) : Prop := -2 ^ 31 ≤ t.toInt ∧ t.toInt < 2 ^ 31

/-- No field before the last holds a pipe. -/
structure Plain (address : Bytes) (tx : Transaction) : Prop where
  address : pipe ∉ address
  sender : pipe ∉ tx.from
  recipient : pipe ∉ tx.to
  payload : pipe ∉ tx.payload

/-- The node's own message comes in and its worker takes one step. -/
def loopBack (n : Node) (b : Blockchain) (tx : Transaction) : Node × Blockchain × Option (NodeMessage × Handled) :=
  (n.onBytes (n.submission tx)).1.loopStep b

theorem serializeTransaction_eq (tx : Transaction) : serializeTransaction tx =
    tx.from ++ pipe :: (tx.to ++ pipe :: (tx.payload ++ pipe :: (intText tx.type.toInt ++ pipe :: tx.txId))) := by
  simp [serializeTransaction]

theorem cutTransaction_serialize {address : Bytes} {tx : Transaction} (plain : Plain address tx) :
    cutTransaction (serializeTransaction tx) =
      some (tx.from, tx.to, tx.payload, intText tx.type.toInt, tx.txId) :=
  cutTransaction_eq_some.mpr ⟨serializeTransaction_eq tx, plain.sender, plain.recipient, plain.payload,
    pipe_notMem_intText _⟩

theorem deserialize_submission {n : Node} {tx : Transaction} (plain : pipe ∉ n.address) :
    deserializeNodeMessage (n.submission tx) = .ok ⟨n.address, .transaction, serializeTransaction tx⟩ := by
  have kind : stoi (intText NodeMessageKind.transaction.toInt) = .ok NodeMessageKind.transaction.toInt := by
    decide
  exact deserialize_serialize_message plain kind

def ReadAs (bytes : Bytes) (tx : Transaction) : Prop :=
  ∃ type v, cutTransaction bytes = some (tx.from, tx.to, tx.payload, type, tx.txId) ∧ stoi type = .ok v ∧
    tx.type = .ofInt v

theorem readAs_serialize {address : Bytes} {tx : Transaction} (plain : Plain address tx) (range : IsInt tx.type) :
    ReadAs (serializeTransaction tx) tx :=
  ⟨_, _, cutTransaction_serialize plain, stoi_intText range.1 range.2, (TxType.ofInt_toInt tx.type).symm⟩

theorem handleTransaction_of_readAs (opens : Bool) (nodeId : Bytes) (b : Blockchain) {bytes : Bytes}
    {tx : Transaction} (read : ReadAs bytes tx) :
    (handleTransaction opens nodeId b bytes).chain = b.addTransaction tx := by
  obtain ⟨sender, recipient, payload, kind, txId⟩ := tx
  obtain ⟨type, v, fields, number, same⟩ := read
  obtain rfl : kind = .ofInt v := same
  rw [handleTransaction_eq, fields]
  dsimp only
  rw [number]
  exact (snapshot_frame _ opens nodeId).1

theorem handleTransaction_adds (opens : Bool) (nodeId : Bytes) (b : Blockchain) (bytes : Bytes) :
    (handleTransaction opens nodeId b bytes).chain = b ∨
      ∃ tx, ReadAs bytes tx ∧ (handleTransaction opens nodeId b bytes).chain = b.addTransaction tx := by
  rw [handleTransaction_eq]
  cases read : cutTransaction bytes with
  | none => exact .inl rfl
  | some fields =>
    obtain ⟨sender, recipient, payload, type, txId⟩ := fields
    dsimp only
    cases value : stoi type with
    | error e => exact .inl rfl
    | ok v =>
      exact .inr ⟨⟨sender, recipient, payload, .ofInt v, txId⟩, ⟨type, v, read, value, rfl⟩,
        (snapshot_frame _ opens nodeId).1⟩

/-- Only a message that reads as a transaction reaches the mempool. -/
theorem handleMessage_mempool (opens : Bool) (nodeId : Bytes) (b : Blockchain) (msg : NodeMessage) :
    let done := handleMessage opens nodeId b msg
    done.chain.mempool = b.mempool ∨
      ∃ tx, msg.kind = .transaction ∧ ReadAs msg.bytes tx ∧ done.chain = b.addTransaction tx := by
  cases kind : msg.kind with
  | transaction =>
    unfold handleMessage
    rw [kind]
    rcases handleTransaction_adds opens nodeId b msg.bytes with same | ⟨tx, read, added⟩
    · exact .inl (congrArg Blockchain.mempool same)
    · exact .inr ⟨tx, rfl, read, added⟩
  | block | ibc | unknown | other v =>
    left
    rcases handleMessage_does opens nodeId b msg with idle | ⟨op, requests, does⟩
    · rw [idle.chain]
    · rw [does.chain]
      rw [call_mempool]
      cases op with
      | addTransaction tx =>
        have transaction : msg.kind = .transaction := requests
        rw [kind] at transaction
        cases transaction
      | onIBCPacket | onIBCAck => rfl
      | openChannel | closeChannel | sendIBC | appendBlock | registerNodeId | drain => exact requests.elim

theorem loopBack_mempool {n : Node} (b : Blockchain) (tx : Transaction) (pops : n.worker = .atPop)
    (empty : n.inbox = .new) : (loopBack n b tx).2.1.mempool = b.mempool ++ [tx] ↔
      ∃ msg, deserializeNodeMessage (n.submission tx) = .ok msg ∧ msg.kind = .transaction ∧ ReadAs msg.bytes tx := by
  have longer : b.mempool ≠ b.mempool ++ [tx] := by simp
  obtain ⟨nodeId, address, opens, running, inbox, worker⟩ := n
  obtain rfl : worker = .atPop := pops
  obtain rfl : inbox = .new := empty
  unfold loopBack
  generalize hn : (⟨nodeId, address, opens, running, .new, .atPop⟩ : Node) = n
  constructor
  · intro added
    rcases onBytes_cases n (n.submission tx) with ⟨msg, read, -, got⟩ | ⟨text, got⟩
    · refine ⟨msg, read, ?_⟩
      rw [got, ← hn] at added
      simp only [Node.loopStep, ConcurrentQueue.waitPop, ConcurrentQueue.new, List.nil_append] at added
      rcases handleMessage_mempool opens nodeId b msg with same | ⟨tx', kind, readAs, put⟩
      · rw [same] at added
        exact absurd added longer
      · rw [put] at added
        have here : b.mempool ++ [tx'] = b.mempool ++ [tx] := added
        rw [List.append_cancel_left_eq, List.singleton_inj] at here
        rw [← here]
        exact ⟨kind, readAs⟩
    · rw [got, ← hn] at added
      exact absurd added longer
  · rintro ⟨msg, read, kind, readAs⟩
    have put : (handleMessage opens nodeId b msg).chain = b.addTransaction tx := by
      unfold handleMessage
      rw [kind]
      exact handleTransaction_of_readAs opens nodeId b readAs
    have got : n.onBytes (n.submission tx) = ({ n with inbox := ⟨[msg], false⟩ }, []) := by
      have pushed : (deserializeNodeMessage (n.submission tx) >>= n.inbox.push) = n.inbox.push msg := by
        rw [read]
        rfl
      unfold Node.onBytes
      rw [pushed, ← hn]
      rfl
    rw [got, ← hn]
    simp only [Node.loopStep, ConcurrentQueue.waitPop, put]
    rfl

/-- The pipes of the two texts are as many, so none is left for the address. -/
theorem plain_of_readAs {n : Node} {tx : Transaction} {msg : NodeMessage}
    (read : deserializeNodeMessage (n.submission tx) = .ok msg) (readAs : ReadAs msg.bytes tx) :
    Plain n.address tx := by
  obtain ⟨kind, value, text, plainAddress, plainKind, -⟩ := deserializeNodeMessage_ok.mp read
  obtain ⟨type, v, fields, -⟩ := readAs
  obtain ⟨body, sender, recipient, payload, plainType⟩ := cutTransaction_eq_some.mp fields
  have sent : n.submission tx = n.address ++ pipe :: (intText 1 ++ pipe :: serializeTransaction tx) := by
    simp [Node.submission, serializeNodeMessage, NodeMessageKind.toInt]
  have counted := congrArg (List.count pipe) (sent.symm.trans text)
  rw [body, serializeTransaction_eq] at counted
  have none (field : Bytes) (h : pipe ∉ field) : field.count pipe = 0 := List.count_eq_zero.mpr h
  simp only [List.count_append, List.count_cons_self, none _ plainAddress, none _ plainKind, none _ sender,
    none _ recipient, none _ payload, none _ plainType, none _ (pipe_notMem_intText _)] at counted
  have address : n.address.count pipe = 0 := by omega
  exact ⟨List.count_eq_zero.mp address, sender, recipient, payload⟩

/-- The transaction that comes back is the one submitted exactly when the node's
    address and the fields before the type hold no pipe. -/
theorem comes_back_iff (n : Node) (b : Blockchain) (tx : Transaction) (pops : n.worker = .atPop)
    (empty : n.inbox = .new) (range : IsInt tx.type) :
    (loopBack n b tx).2.1.mempool = b.mempool ++ [tx] ↔ Plain n.address tx := by
  rw [loopBack_mempool b tx pops empty]
  constructor
  · rintro ⟨msg, read, -, readAs⟩
    exact plain_of_readAs read readAs
  · intro plain
    exact ⟨_, deserialize_submission plain.address, rfl, readAs_serialize plain range⟩

theorem comes_back_iff_packet : (loopBack { Node.new (lit "node-0") (lit "A:node-0") true with worker := .atPop }
      (.new (lit "A")) ⟨lit "alice", lit "bob", lit "5", .ibcPacket, lit "tx|1"⟩).2.1.mempool =
        [] ++ [⟨lit "alice", lit "bob", lit "5", .ibcPacket, lit "tx|1"⟩] ↔
    Plain (lit "A:node-0") ⟨lit "alice", lit "bob", lit "5", .ibcPacket, lit "tx|1"⟩ :=
  comes_back_iff { Node.new (lit "node-0") (lit "A:node-0") true with worker := .atPop } (.new (lit "A"))
    ⟨lit "alice", lit "bob", lit "5", .ibcPacket, lit "tx|1"⟩ rfl rfl ⟨by decide, by decide⟩

theorem pipe_moves_the_fields : ¬ ∀ (n : Node) (b : Blockchain) (tx : Transaction), n.worker = .atPop →
    n.inbox = .new → IsInt tx.type → (loopBack n b tx).2.1.mempool = b.mempool ++ [tx] := by
  intro h
  have back := h { Node.new (lit "node-0") (lit "A:node-0") true with worker := .atPop } (.new (lit "A"))
    ⟨lit "a|b", lit "c", lit "0", .regular, lit "tx"⟩ rfl rfl ⟨by decide, by decide⟩
  exact absurd back (by decide)

end InterchainCommunication.TransactionWire
