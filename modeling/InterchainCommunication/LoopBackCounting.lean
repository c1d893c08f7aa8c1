import InterchainCommunication.BagCounting
import InterchainCommunication.ListUpdates
import InterchainCommunication.RelayerModel
import InterchainCommunication.TransactionWire

set_option autoImplicit false

namespace InterchainCommunication.LoopBackCounting
open BagCounting ListUpdates StringText CoreTypes MachineRuns BlockchainModel QueueAndBus NodeModel
open NodeText RelayerModel TransactionWire

/-- Nodes on one chain, and the transport between them. -/
structure Pool where
  chain : Blockchain
  nodes : List Node
  transport : Transport

inductive PoolInput
  | newNode (nodeId address : Bytes) (stateFileOpens : Bool)
  | start (n : ℕ)
  | submit (n : ℕ) (tx : Transaction) (drop : Bool)
  | deliver (k : ℕ)
  | nodeStep (n : ℕ)
  | drain (maxTxs : ℕ)

/-- A submission: the address of the node, the transaction, and whether the send was Ok. -/
structure Submission where
  address : Bytes
  tx : Transaction
  sent : Bool

structure PoolOutput where
  submitted : Option Submission
  taken : Option NodeMessage
  drained : List Transaction

def quiet : PoolOutput := ⟨none, none, []⟩

/-- What `submitTransaction` does to the chain and the transport. The status of the send
    is thrown away. -/
def submitTransaction (n : Node) (b : Blockchain) (t : Transport) (tx : Transaction) (drop : Bool) :
    Blockchain × Transport × Status :=
  let sent := t.send n.address (n.submission tx) drop
  (b.addTransaction tx, sent.1, sent.2)

def takenBy (n : Node) : Option NodeMessage := if n.worker = .atPop then n.inbox.q.head? else none

def Pool.act (p : Pool) : PoolInput → Pool × PoolOutput
  | .newNode nodeId address stateFileOpens =>
    let registered := p.transport.registerEndpoint address p.nodes.length
    if registered.2.ok then
      (⟨(p.chain.registerNodeId nodeId).chain, p.nodes ++ [.new nodeId address stateFileOpens], registered.1⟩, quiet)
    else (p, quiet)
  | .start n => ({ p with nodes := p.nodes.modify n fun node => node.start.1 }, quiet)
  | .submit n tx drop =>
    match p.nodes[n]? with
    | none => (p, quiet)
    | some node =>
      let done := submitTransaction node p.chain p.transport tx drop
      ({ p with chain := done.1, transport := done.2.1 },
        { quiet with submitted := some ⟨node.address, tx, done.2.2.ok⟩ })
  | .deliver k =>
    match p.transport.tasks[k]? with
    | none => (p, quiet)
    | some task =>
      let transport := { p.transport with tasks := p.transport.tasks.eraseIdx k }
      match p.transport.endpoints task.1 with
      | none => ({ p with transport := transport }, quiet)
      | some n =>
        ({ p with transport := transport, nodes := p.nodes.modify n fun node => (node.onBytes task.2).1 }, quiet)
  | .nodeStep n =>
    match p.nodes[n]? with
    | none => (p, quiet)
    | some node =>
      let moved := node.loopStep p.chain
      ({ p with chain := moved.2.1, nodes := p.nodes.set n moved.1 }, { quiet with taken := takenBy node })
  | .drain maxTxs => ({ p with chain := (p.chain.drain maxTxs).1 }, { quiet with drained := (p.chain.drain maxTxs).2 })

def poolMachine : Machine Pool PoolInput PoolOutput where
  step := Pool.act

def emptyPool (chainId : Bytes) : Pool := ⟨.new chainId, [], .new⟩

abbrev PoolTrace := List (PoolInput × PoolOutput)

def submissions (t : PoolTrace) : List Submission := t.filterMap fun e => e.2.submitted

def submittedIn (t : PoolTrace) : List Transaction := (submissions t).map (·.tx)

def sentIn (t : PoolTrace) : List Submission := (submissions t).filter (·.sent)

def drainedIn (t : PoolTrace) : List Transaction := t.flatMap fun e => e.2.drained

/-- The transaction the loop makes of a message. -/
def reads (msg : NodeMessage) : Option Transaction :=
  if msg.kind = .transaction then
    match cutTransaction msg.bytes with
    | none => none
    | some (sender, recipient, payload, type, txId) =>
      match stoi type with
      | .ok v => some ⟨sender, recipient, payload, .ofInt v, txId⟩
      | .error _ => none
  else none

/-- The transactions that came back in messages the loops have taken. -/
def loopedIn (t : PoolTrace) : List Transaction := t.filterMap fun e => e.2.taken.bind reads

def readBack (bytes : Bytes) : Option Transaction := (deserializeNodeMessage bytes).toOption.bind reads

/-- The number of copies of `tx` that are still in an inbox or in the transport. -/
def waiting (tx : Transaction) (p : Pool) : ℕ :=
  weight (fun msg => reads msg == some tx) (p.nodes.map (·.inbox.q)) +
    p.transport.tasks.countP fun task => readBack task.2 == some tx

theorem reads_eq_some {msg : NodeMessage} {tx : Transaction} :
    reads msg = some tx ↔ msg.kind = .transaction ∧ ReadAs msg.bytes tx := by
  unfold reads ReadAs
  by_cases kind : msg.kind = .transaction
  · rw [if_pos kind]
    cases cutTransaction msg.bytes with
    | none => simp
    | some fields =>
      obtain ⟨sender, recipient, payload, type, txId⟩ := fields
      dsimp only
      cases number : stoi type with
      | error e =>
        constructor
        · exact fun h => nomatch h
        · rintro ⟨-, type', v, same, number', -⟩
          cases same
          rw [number] at number'
          cases number'
      | ok v =>
        constructor
        · intro h
          cases h
          exact ⟨kind, type, v, rfl, number, rfl⟩
        · rintro ⟨-, type', v', same, number', shape⟩
          obtain ⟨sender', recipient', payload', kind', txId'⟩ := tx
          cases same
          rw [number] at number'
          cases number'
          rw [show kind' = .ofInt v from shape]
  · rw [if_neg kind]
    simp [kind]

theorem handleMessage_reads (opens : Bool) (nodeId : Bytes) (b : Blockchain) (msg : NodeMessage) :
    (handleMessage opens nodeId b msg).chain.mempool = b.mempool ++ (reads msg).toList := by
  cases read : reads msg with
  | none =>
    rcases handleMessage_mempool opens nodeId b msg with same | ⟨tx, kind, readAs, -⟩
    · rw [same]
      exact (List.append_nil _).symm
    · rw [reads_eq_some.mpr ⟨kind, readAs⟩] at read
      cases read
  | some tx =>
    obtain ⟨kind, readAs⟩ := reads_eq_some.mp read
    unfold handleMessage
    rw [kind]
    exact congrArg Blockchain.mempool (handleTransaction_of_readAs opens nodeId b readAs)

theorem loopStep_takes (n : Node) (b : Blockchain) :
    (n.loopStep b).2.1.mempool = b.mempool ++ ((takenBy n).bind reads).toList ∧
      (takenBy n).toList ++ (n.loopStep b).1.inbox.q = n.inbox.q ∧
      (n.loopStep b).1.inbox.closed = n.inbox.closed := by
  obtain ⟨nodeId, address, opens, running, ⟨q, closed⟩, worker⟩ := n
  cases worker with
  | atPop =>
    cases q with
    | nil => cases closed <;> exact ⟨(List.append_nil _).symm, rfl, rfl⟩
    | cons msg rest => exact ⟨handleMessage_reads opens nodeId b msg, rfl, rfl⟩
  | atTest | idle | returned | terminated e => exact ⟨(List.append_nil _).symm, rfl, rfl⟩

/-- What was drained and what is left is what was there before, then what came in. -/
theorem act_mempool (p : Pool) (i : PoolInput) : (p.act i).2.drained ++ (p.act i).1.chain.mempool =
    p.chain.mempool ++ ((p.act i).2.submitted.map (·.tx)).toList ++ ((p.act i).2.taken.bind reads).toList := by
  have same : ([] : List Transaction) ++ p.chain.mempool = p.chain.mempool ++ [] ++ [] := by simp
  cases i with
  | newNode nodeId address opens =>
    simp only [Pool.act]
    split
    · change [] ++ (p.chain.registerNodeId nodeId).chain.mempool = p.chain.mempool ++ [] ++ []
      rw [← same]
      exact congrArg ([] ++ ·) (BlockchainSteps.call_mempool p.chain (.registerNodeId nodeId))
    · exact same
  | start n => exact same
  | submit n tx drop =>
    simp only [Pool.act]
    cases p.nodes[n]? with
    | none => exact same
    | some node =>
      change [] ++ (p.chain.mempool ++ [tx]) = p.chain.mempool ++ [tx] ++ []
      simp
  | deliver k =>
    simp only [Pool.act]
    split
    · exact same
    · split <;> exact same
  | nodeStep n =>
    simp only [Pool.act]
    cases p.nodes[n]? with
    | none => exact same
    | some node =>
      change [] ++ (node.loopStep p.chain).2.1.mempool =
        p.chain.mempool ++ [] ++ ((takenBy node).bind reads).toList
      rw [(loopStep_takes node p.chain).1]
      simp
  | drain maxTxs =>
    change p.chain.mempool.take maxTxs ++ p.chain.mempool.drop maxTxs = p.chain.mempool ++ [] ++ []
    simp

/-- Endpoints lead to nodes, no inbox is closed, and what is sent has an endpoint. -/
structure Wired (p : Pool) : Prop where
  routed : ∀ addr n, p.transport.endpoints addr = some n → n < p.nodes.length
  opened : ∀ node ∈ p.nodes, node.inbox.closed = false
  known : ∀ task ∈ p.transport.tasks, p.transport.endpoints task.1 ≠ none

theorem onBytes_open {n : Node} (h : n.inbox.closed = false) (bs : Bytes) :
    (n.onBytes bs).1.inbox = { n.inbox with q := n.inbox.q ++ (deserializeNodeMessage bs).toOption.toList } := by
  cases read : deserializeNodeMessage bs with
  | error e =>
    have refused : (deserializeNodeMessage bs >>= n.inbox.push) = .error e := by
      rw [read]
      rfl
    unfold Node.onBytes
    rw [refused]
    simp [Except.toOption]
  | ok msg =>
    have pushed : (deserializeNodeMessage bs >>= n.inbox.push) = n.inbox.push msg := by
      rw [read]
      rfl
    unfold Node.onBytes
    rw [pushed, ConcurrentQueue.push_open h]
    rfl

theorem start_inbox (n : Node) : n.start.1.inbox = n.inbox := by
  unfold Node.start
  split <;> rfl

theorem send_endpoints (t : Transport) (addr data : Bytes) (drop : Bool) :
    (t.send addr data drop).1.endpoints = t.endpoints := by
  unfold Transport.send
  split
  · rfl
  · split <;> rfl

theorem send_tasks (t : Transport) (addr data : Bytes) (drop : Bool) :
    ((t.send addr data drop).2.ok = false ∧ (t.send addr data drop).1.tasks = t.tasks) ∨
      ((t.send addr data drop).2.ok = true ∧ (t.send addr data drop).1.tasks = t.tasks ++ [(addr, data)] ∧
        t.endpoints addr ≠ none) := by
  unfold Transport.send
  split
  · exact .inl ⟨rfl, rfl⟩
  · rename_i found
    split
    · exact .inl ⟨rfl, rfl⟩
    · exact .inr ⟨rfl, rfl, fun none => found (by rw [none]; rfl)⟩

theorem registerEndpoint_cases {t : Transport} {addr : Bytes} {n : ℕ} (ok : (t.registerEndpoint addr n).2.ok = true) :
    (t.registerEndpoint addr n).1 = { t with endpoints := Function.update t.endpoints addr (some n) } := by
  unfold Transport.registerEndpoint at ok ⊢
  split
  · rename_i taken
    rw [if_pos taken] at ok
    exact absurd ok Bool.false_ne_true
  · rfl

theorem wired_newNode {p : Pool} (h : Wired p) (nodeId address : Bytes) (opens : Bool) :
    Wired (p.act (.newNode nodeId address opens)).1 := by
  simp only [Pool.act]
  split
  · rename_i ok
    rw [registerEndpoint_cases ok]
    constructor
    · intro addr n found
      rw [List.length_append, List.length_singleton]
      dsimp only at found
      rw [Function.update_apply] at found
      split at found
      · have new := Option.some.inj found
        omega
      · have old := h.routed addr n found
        omega
    · intro node hn
      rcases List.mem_append.mp hn with old | new
      · exact h.opened node old
      · rw [List.mem_singleton.mp new]
        rfl
    · intro task ht
      dsimp only
      rw [Function.update_apply]
      split
      · exact fun f => nomatch f
      · exact h.known task ht
  · exact h

theorem wired_submit {p : Pool} (h : Wired p) (n : ℕ) (tx : Transaction) (drop : Bool) :
    Wired (p.act (.submit n tx drop)).1 := by
  simp only [Pool.act]
  cases p.nodes[n]? with
  | none => exact h
  | some node =>
    have endpoints := send_endpoints p.transport node.address (node.submission tx) drop
    constructor
    · intro addr m found
      apply h.routed addr m
      rw [← endpoints]
      exact found
    · exact h.opened
    · intro task ht
      change (p.transport.send node.address (node.submission tx) drop).1.endpoints task.1 ≠ none
      change task ∈ (p.transport.send node.address (node.submission tx) drop).1.tasks at ht
      rw [endpoints]
      rcases send_tasks p.transport node.address (node.submission tx) drop with
        ⟨-, same⟩ | ⟨-, more, found⟩
      · rw [same] at ht
        exact h.known task ht
      · rw [more, List.mem_append, List.mem_singleton] at ht
        rcases ht with old | rfl
        · exact h.known task old
        · exact found

theorem wired_deliver {p : Pool} (h : Wired p) (k : ℕ) : Wired (p.act (.deliver k)).1 := by
  have left (task : Bytes × Bytes) (ht : task ∈ p.transport.tasks.eraseIdx k) :
      p.transport.endpoints task.1 ≠ none := h.known task (List.mem_of_mem_eraseIdx ht)
  simp only [Pool.act]
  split
  · exact h
  · split
    · exact ⟨h.routed, h.opened, left⟩
    · refine ⟨fun addr m found => ?_, fun node hn => ?_, left⟩
      · rw [List.length_modify]
        exact h.routed addr m found
      · rcases mem_modify hn with old | ⟨node', old, rfl⟩
        · exact h.opened node old
        · rw [onBytes_open (h.opened node' old)]
          exact h.opened node' old

theorem wired_act {p : Pool} (h : Wired p) (i : PoolInput) : Wired (p.act i).1 := by
  cases i with
  | newNode nodeId address opens => exact wired_newNode h nodeId address opens
  | submit n tx drop => exact wired_submit h n tx drop
  | deliver k => exact wired_deliver h k
  | start n =>
    refine ⟨fun addr m found => ?_, fun node hn => ?_, h.known⟩
    · change m < (p.nodes.modify n _).length
      rw [List.length_modify]
      exact h.routed addr m found
    · rcases mem_modify hn with old | ⟨node', old, rfl⟩
      · exact h.opened node old
      · rw [start_inbox]
        exact h.opened node' old
  | nodeStep n =>
    simp only [Pool.act]
    cases hn : p.nodes[n]? with
    | none => exact h
    | some node =>
      refine ⟨fun addr m found => ?_, fun node' hn' => ?_, h.known⟩
      · change m < (p.nodes.set n _).length
        rw [List.length_set]
        exact h.routed addr m found
      · rcases List.mem_or_eq_of_mem_set hn' with old | rfl
        · exact h.opened node' old
        · rw [(loopStep_takes node p.chain).2.2]
          exact h.opened node (List.mem_of_getElem? hn)
  | drain maxTxs => exact ⟨h.routed, h.opened, h.known⟩

def wire (s : Submission) : Bytes := serializeNodeMessage ⟨s.address, .transaction, serializeTransaction s.tx⟩

def brings (tx : Transaction) (s : Submission) : Bool := s.sent && readBack (wire s) == some tx

theorem countP_toList (msg : Option NodeMessage) (tx : Transaction) :
    msg.toList.countP (fun m => reads m == some tx) = (msg.bind reads).toList.count tx := by
  cases msg with
  | none => rfl
  | some m =>
    rw [Option.toList_some, List.countP_singleton, Option.bind_some]
    cases reads m with
    | none => rfl
    | some tx' => simp [List.count_singleton]

theorem inboxes_set {nodes : List Node} {n : ℕ} {node : Node} (found : nodes[n]? = some node) (moved : Node)
    (tx : Transaction) :
    weight (fun m => reads m == some tx) ((nodes.set n moved).map (·.inbox.q)) +
        node.inbox.q.countP (fun m => reads m == some tx) =
      weight (fun m => reads m == some tx) (nodes.map (·.inbox.q)) +
        moved.inbox.q.countP (fun m => reads m == some tx) := by
  rw [List.map_set]
  exact weight_set _ (by rw [List.getElem?_map, found]; rfl) _

theorem waiting_newNode (p : Pool) (nodeId address : Bytes) (opens : Bool) (tx : Transaction) :
    waiting tx (p.act (.newNode nodeId address opens)).1 = waiting tx p := by
  simp only [Pool.act]
  split
  · rename_i ok
    have fresh (bags : List (List NodeMessage)) :
        weight (fun m => reads m == some tx) (bags ++ [[]]) = weight (fun m => reads m == some tx) bags := by
      induction bags with
      | nil => rfl
      | cons bag bags ih => rw [List.cons_append, weight, weight, ih]
    rw [registerEndpoint_cases ok]
    simp only [waiting, List.map_append, List.map_cons, List.map_nil]
    rw [show (Node.new nodeId address opens).inbox.q = [] from rfl, fresh]
  · rfl

theorem waiting_start (p : Pool) (n : ℕ) (tx : Transaction) : waiting tx (p.act (.start n)).1 = waiting tx p := by
  have kept : (p.nodes.modify n fun node => node.start.1).map (·.inbox.q) = p.nodes.map (·.inbox.q) := by
    apply List.ext_getElem?
    intro k
    rw [List.getElem?_map, List.getElem?_map, List.getElem?_modify]
    cases p.nodes[k]? with
    | none => rfl
    | some node =>
      by_cases here : n = k
      · simp [here, start_inbox]
      · simp [here]
  simp only [Pool.act, waiting, kept]

theorem waiting_submit (p : Pool) (n : ℕ) (tx' : Transaction) (drop : Bool) (tx : Transaction) :
    waiting tx (p.act (.submit n tx' drop)).1 =
      waiting tx p + (p.act (.submit n tx' drop)).2.submitted.toList.countP (brings tx) := by
  simp only [Pool.act]
  cases p.nodes[n]? with
  | none => rfl
  | some node =>
    have bytes (sent : Bool) : wire ⟨node.address, tx', sent⟩ = node.submission tx' := rfl
    simp only [waiting, submitTransaction, Option.toList_some, List.countP_singleton, brings, bytes]
    rcases send_tasks p.transport node.address (node.submission tx') drop with
        ⟨failed, same⟩ | ⟨ok, more, -⟩
    · rw [failed, same, Bool.false_and]
      rfl
    · rw [ok, more, Bool.true_and, List.countP_append, List.countP_singleton, Nat.add_assoc]

theorem waiting_deliver {p : Pool} (h : Wired p) (k : ℕ) (tx : Transaction) :
    waiting tx (p.act (.deliver k)).1 = waiting tx p := by
  simp only [Pool.act]
  cases hk : p.transport.tasks[k]? with
  | none => rfl
  | some task =>
    have erased := countP_eraseIdx_of_some (fun task : Bytes × Bytes => readBack task.2 == some tx) hk
    rw [List.countP_singleton] at erased
    dsimp only
    cases found : p.transport.endpoints task.1 with
    | none => exact absurd found (h.known task (List.mem_of_getElem? hk))
    | some n =>
      have inside := h.routed task.1 n found
      have node := List.getElem?_eq_getElem inside
      have queued : (p.nodes[n].onBytes task.2).1.inbox.q =
          p.nodes[n].inbox.q ++ (deserializeNodeMessage task.2).toOption.toList := by
        rw [onBytes_open (h.opened _ (List.getElem_mem inside))]
      have moved := inboxes_set node (p.nodes[n].onBytes task.2).1 tx
      rw [queued, List.countP_append, countP_toList, ListUpdates.set_eq_modify node (fun m => (m.onBytes task.2).1)]
        at moved
      have once : ((deserializeNodeMessage task.2).toOption.bind reads).toList.count tx =
          if (readBack task.2 == some tx) = true then 1 else 0 := by
        change (readBack task.2).toList.count tx = _
        cases readBack task.2 with
        | none => rfl
        | some tx' => simp [List.count_singleton]
      simp only [waiting]
      omega

theorem waiting_nodeStep (p : Pool) (n : ℕ) (tx : Transaction) : waiting tx (p.act (.nodeStep n)).1 +
    ((p.act (.nodeStep n)).2.taken.bind reads).toList.count tx = waiting tx p := by
  simp only [Pool.act]
  cases hn : p.nodes[n]? with
  | none => rfl
  | some node =>
    have moved := inboxes_set hn (node.loopStep p.chain).1 tx
    have inbox := congrArg (List.countP fun m => reads m == some tx) (loopStep_takes node p.chain).2.1
    rw [List.countP_append, countP_toList] at inbox
    simp only [waiting]
    omega

/-- Copies wait until they are taken: a step adds the one it sends and removes the one it takes. -/
theorem act_waiting {p : Pool} (h : Wired p) (i : PoolInput) (tx : Transaction) :
    waiting tx (p.act i).1 + ((p.act i).2.taken.bind reads).toList.count tx =
      waiting tx p + (p.act i).2.submitted.toList.countP (brings tx) := by
  cases i with
  | newNode nodeId address opens =>
    rw [waiting_newNode]
    simp only [Pool.act]
    split <;> rfl
  | start n =>
    rw [waiting_start]
    rfl
  | submit n tx' drop =>
    rw [waiting_submit]
    simp only [Pool.act]
    cases p.nodes[n]? <;> rfl
  | deliver k =>
    rw [waiting_deliver h]
    simp only [Pool.act]
    split
    · rfl
    · split <;> rfl
  | nodeStep n =>
    rw [waiting_nodeStep]
    simp only [Pool.act]
    cases p.nodes[n]? <;> rfl
  | drain maxTxs => rfl

/-- The books of a run, for one transaction: what is in the mempool or was drained, and
    what waits or was taken. -/
structure Balanced (p : Pool) (t : PoolTrace) (tx : Transaction) : Prop where
  pooled : (drainedIn t).count tx + p.chain.mempool.count tx = (submittedIn t).count tx + (loopedIn t).count tx
  moving : waiting tx p + (loopedIn t).count tx = (submissions t).countP (brings tx)

theorem balanced_act {p : Pool} {t : PoolTrace} {tx : Transaction} (wired : Wired p) (h : Balanced p t tx)
    (i : PoolInput) : Balanced (p.act i).1 (t ++ [(i, (p.act i).2)]) tx := by
  have drained : drainedIn (t ++ [(i, (p.act i).2)]) = drainedIn t ++ (p.act i).2.drained := by
    simp [drainedIn, List.flatMap_append]
  have submitted : submissions (t ++ [(i, (p.act i).2)]) = submissions t ++ (p.act i).2.submitted.toList :=
    filterMap_concat _ t _
  have looped : loopedIn (t ++ [(i, (p.act i).2)]) = loopedIn t ++ ((p.act i).2.taken.bind reads).toList :=
    filterMap_concat _ t _
  have txs : submittedIn (t ++ [(i, (p.act i).2)]) = submittedIn t ++ ((p.act i).2.submitted.map (·.tx)).toList := by
    rw [submittedIn, submitted, List.map_append]
    cases (p.act i).2.submitted <;> rfl
  have pool := congrArg (List.count tx) (act_mempool p i)
  have moved := act_waiting wired i tx
  obtain ⟨pooled, moving⟩ := h
  rw [List.count_append, List.count_append, List.count_append] at pool
  constructor
  · rw [drained, txs, looped, List.count_append, List.count_append, List.count_append]
    omega
  · rw [submitted, looped, List.count_append, List.countP_append]
    omega

theorem balanced_run (chainId : Bytes) (is : List PoolInput) :
    Wired (poolMachine.final (emptyPool chainId) is) ∧ ∀ tx, Balanced (poolMachine.final (emptyPool chainId) is)
      (poolMachine.trace (emptyPool chainId) is) tx := by
  refine poolMachine.history_invariant (I := fun p t => Wired p ∧ ∀ tx, Balanced p t tx) is ?_ fun p t i _ h => ?_
  · have wired : Wired (emptyPool chainId) :=
      ⟨(fun addr n found => nomatch found), (fun node hn => nomatch hn), (fun task ht => nomatch ht)⟩
    exact ⟨wired, fun tx => ⟨rfl, rfl⟩⟩
  · exact ⟨wired_act h.1 i, fun tx => balanced_act h.1 (h.2 tx) i⟩

theorem readBack_wire {s : Submission} (plain : Plain s.address s.tx) (range : IsInt s.tx.type) :
    readBack (wire s) = some s.tx := by
  have read : deserializeNodeMessage (wire s) = .ok ⟨s.address, .transaction, serializeTransaction s.tx⟩ :=
    deserialize_submission (n := .new [] s.address true) plain.address
  unfold readBack
  rw [read]
  exact reads_eq_some.mpr ⟨rfl, readAs_serialize plain range⟩

theorem countP_brings {l : List Submission} (plain : ∀ s ∈ l, Plain s.address s.tx ∧ IsInt s.tx.type)
    (tx : Transaction) : l.countP (brings tx) = ((l.filter (·.sent)).map (·.tx)).count tx := by
  rw [List.count, List.countP_map, List.countP_filter]
  apply List.countP_congr
  intro s hs
  rw [brings, readBack_wire (plain s hs).1 (plain s hs).2]
  cases s.sent <;> simp

theorem sent_once {l : List Submission} (distinct : ((l.map (·.tx)).map (·.txId)).Nodup) (tx : Transaction) :
    ((l.filter (·.sent)).map (·.tx)).count tx ≤ 1 := by
  have txs : ((l.filter (·.sent)).map (·.tx)).Nodup :=
    (distinct.of_map _).sublist (List.filter_sublist.map _)
  exact List.nodup_iff_count_le_one.mp txs tx

/-- In every run the transactions drained or in the mempool are those submitted together with
    those the loops read from the messages they took. With distinct ids and plain fields each
    submitted one is there once, and once more when its message has been taken. -/
theorem once_and_once_more_when_taken (chainId : Bytes) (is : List PoolInput) :
    let p := poolMachine.final (emptyPool chainId) is
    let t := poolMachine.trace (emptyPool chainId) is
    (drainedIn t ++ p.chain.mempool).Perm (submittedIn t ++ loopedIn t) ∧
      (((submittedIn t).map (·.txId)).Nodup → (∀ s ∈ submissions t, Plain s.address s.tx ∧ IsInt s.tx.type) →
        ∀ tx ∈ submittedIn t, (drainedIn t ++ p.chain.mempool).count tx = 1 + (loopedIn t).count tx ∧
          (loopedIn t).count tx + waiting tx p = ((sentIn t).map (·.tx)).count tx ∧
          ((sentIn t).map (·.tx)).count tx ≤ 1) := by
  intro p t
  have balanced : ∀ tx, Balanced p t tx := (balanced_run chainId is).2
  constructor
  · rw [List.perm_iff_count]
    intro tx
    rw [List.count_append, List.count_append]
    exact (balanced tx).pooled
  · intro distinct plain tx member
    have once : (submittedIn t).count tx = 1 := List.count_eq_one_of_mem (distinct.of_map _) member
    have pooled := (balanced tx).pooled
    have moving := (balanced tx).moving
    rw [countP_brings plain] at moving
    refine ⟨?_, (Nat.add_comm _ _).trans moving, sent_once distinct tx⟩
    rw [List.count_append]
    omega

def payment : Transaction := ⟨lit "alice", lit "bob", lit "5", .regular, lit "tx-1"⟩

def handledOnce : List PoolInput :=
  [.newNode (lit "node-0") (lit "A:node-0") true, .start 0, .submit 0 payment false, .deliver 0, .nodeStep 0, .nodeStep 0]

theorem plain_handledOnce : ∀ s ∈ submissions (poolMachine.trace (emptyPool (lit "A")) handledOnce),
    Plain s.address s.tx ∧ IsInt s.tx.type := by
  intro s hs
  have only : s ∈ [(⟨lit "A:node-0", payment, true⟩ : Submission)] := hs
  rw [List.mem_singleton.mp only]
  exact ⟨⟨by decide, by decide, by decide, by decide⟩, by decide, by decide⟩

theorem once_and_once_more_when_taken_once :
    (drainedIn (poolMachine.trace (emptyPool (lit "A")) handledOnce) ++
      (poolMachine.final (emptyPool (lit "A")) handledOnce).chain.mempool).count payment = 1 + 1 := by
  obtain ⟨-, each⟩ := once_and_once_more_when_taken (lit "A") handledOnce
  obtain ⟨count, -⟩ := each (by decide +kernel) plain_handledOnce payment (by decide +kernel)
  have looped : (loopedIn (poolMachine.trace (emptyPool (lit "A")) handledOnce)).count payment = 1 := by
    decide +kernel
  rw [count, looped]

theorem pooled_twice : ¬ ∀ (chainId : Bytes) (is : List PoolInput),
    let p := poolMachine.final (emptyPool chainId) is
    let t := poolMachine.trace (emptyPool chainId) is
    ((submittedIn t).map (·.txId)).Nodup → (∀ s ∈ submissions t, Plain s.address s.tx ∧ IsInt s.tx.type) →
      ∀ tx ∈ submittedIn t, (drainedIn t ++ p.chain.mempool).count tx = 1 := by
  intro h
  have once := h (lit "A") handledOnce (by decide +kernel) plain_handledOnce payment (by decide +kernel)
  exact absurd once (by decide +kernel)

end InterchainCommunication.LoopBackCounting
