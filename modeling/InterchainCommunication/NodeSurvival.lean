import InterchainCommunication.MachineRuns
import InterchainCommunication.NodeSteps
import InterchainCommunication.NodeText

set_option autoImplicit false

namespace InterchainCommunication.NodeSurvival
open StringText CoreTypes MachineRuns PacketCodec BlockchainModel QueueAndBus NodeModel NodeText NodeSteps

structure NodeRun where
  node : Node
  chain : Blockchain

inductive NodeInput
  | bytes (bs : Bytes)
  | loop
  | stop
  | close
  | other (op : ChainOp)

structure NodeOutput where
  effects : List Effect
  handled : Option (NodeMessage × Handled)

def silent : NodeOutput := ⟨[], none⟩

def NodeRun.act (r : NodeRun) : NodeInput → NodeRun × NodeOutput
  | .bytes bs => (⟨(r.node.onBytes bs).1, r.chain⟩, ⟨(r.node.onBytes bs).2, none⟩)
  | .loop =>
    let s := r.node.loopStep r.chain
    (⟨s.1, s.2.1⟩, ⟨[], s.2.2⟩)
  | .stop => (⟨r.node.clearRunning, r.chain⟩, silent)
  -- `stop()` gets to the inbox only after it has cleared the flag
  | .close => if r.node.running then (r, silent) else (⟨r.node.closeInbox, r.chain⟩, silent)
  | .other op => (⟨r.node, (r.chain.call op).chain⟩, silent)

/-- An exception that leaves the worker ends the process, and nothing moves after it. -/
def nodeMachine : Machine NodeRun NodeInput NodeOutput where
  step r i :=
    match r.node.worker with
    | .terminated _ => (r, silent)
    | _ => r.act i

def bytesGiven (is : List NodeInput) : List Bytes :=
  is.filterMap fun
    | .bytes bs => some bs
    | _ => none

def handledMessage (e : NodeInput × NodeOutput) : Option NodeMessage := e.2.handled.map Prod.fst

def queuedMessage : NodeInput × NodeOutput → Option NodeMessage
  | (.bytes bs, out) => if out.effects = [] then (deserializeNodeMessage bs).toOption else none
  | _ => none

/-- Bytes are queued as the message they decode to or logged, and a handled message
    leaves a call, a log line or a snapshot. -/
def Answered : NodeInput × NodeOutput → Prop
  | (.bytes bs, out) => (∃ msg, deserializeNodeMessage bs = .ok msg ∧ out.effects = []) ∨
      ∃ text, out.effects = [.log .error text]
  | (_, out) => ∀ msg done, out.handled = some (msg, done) → done.effects ≠ []

structure Survives (r : NodeRun) (is : List NodeInput) : Prop where
  alive : ∀ e, (nodeMachine.final r is).node.worker ≠ .terminated e
  accounted : (nodeMachine.trace r is).filterMap handledMessage ++ (nodeMachine.final r is).node.inbox.q =
    (nodeMachine.trace r is).filterMap queuedMessage
  answered : ∀ e ∈ nodeMachine.trace r is, Answered e
  goesOn : (nodeMachine.final r is).node.running = true → ∀ msg rest,
    (nodeMachine.final r is).node.inbox.q = msg :: rest →
      ((nodeMachine.trace (nodeMachine.final r is) [.loop, .loop]).filterMap handledMessage).head? = some msg

/-- The text is a transaction message with all its fields, and this is its type field. -/
def TransactionText (bs type : Bytes) : Prop :=
  ∃ addr kind sender recipient payload txId : Bytes,
    (∀ f ∈ [addr, kind, sender, recipient, payload, type], pipe ∉ f) ∧
      bs = [pipe].intercalate [addr, kind, sender, recipient, payload, type, txId] ∧ stoi kind = .ok 1

/-- If the text is a transaction, its type is a number and there is a file for the snapshot after it. -/
def Harmless (opens : Bool) (bs : Bytes) : Prop :=
  ∀ type, TransactionText bs type → (∃ value, stoi type = .ok value) ∧ opens = true

def Safe (opens : Bool) (msg : NodeMessage) : Prop :=
  msg.kind = .transaction → ∀ sender recipient payload type txId,
    cutTransaction msg.bytes = some (sender, recipient, payload, type, txId) →
      (∃ value, stoi type = .ok value) ∧ opens = true

theorem ofInt_eq_transaction (v : ℤ) : NodeMessageKind.ofInt v = .transaction ↔ v = 1 := by
  constructor
  · intro h
    have back := congrArg NodeMessageKind.toInt h
    unfold NodeMessageKind.ofInt at back
    split at back
    · exact back
    · split at back
      · simp [NodeMessageKind.toInt] at back
      · split at back
        · assumption
        · split at back <;> simp [NodeMessageKind.toInt] at back
  · rintro rfl
    decide

theorem deserializeNodeMessage_ok {bs : Bytes} {msg : NodeMessage} :
    deserializeNodeMessage bs = .ok msg ↔ ∃ kind value,
      bs = msg.fromAddress ++ pipe :: (kind ++ pipe :: msg.bytes) ∧ pipe ∉ msg.fromAddress ∧ pipe ∉ kind ∧
        stoi kind = .ok value ∧ msg.kind = .ofInt value := by
  rw [deserializeNodeMessage_eq]
  constructor
  · intro h
    cases h1 : cut pipe bs with
    | none => simp [h1] at h
    | some m1 =>
      obtain ⟨addr, s1⟩ := m1
      cases h2 : cut pipe s1 with
      | none => simp [h1, h2] at h
      | some m2 =>
        obtain ⟨kind, body⟩ := m2
        simp only [h1, h2] at h
        cases number : stoi kind with
        | error e =>
          rw [number] at h
          cases h
        | ok value =>
          rw [number] at h
          cases h
          obtain ⟨text1, plain1⟩ := cut_eq_some.mp h1
          obtain ⟨text2, plain2⟩ := cut_eq_some.mp h2
          exact ⟨kind, value, by rw [text1, text2], plain1, plain2, number, rfl⟩
  · rintro ⟨kind, value, text, plain1, plain2, number, hkind⟩
    have h1 := cut_eq_some.mpr ⟨text, plain1⟩
    have h2 : cut pipe (kind ++ pipe :: msg.bytes) = some (kind, msg.bytes) :=
      cut_eq_some.mpr ⟨rfl, plain2⟩
    simp only [h1, h2, number]
    change Except.ok { msg with kind := .ofInt value } = Except.ok msg
    rw [← hkind]

/-- Only a transaction lets an exception out of the loop. -/
theorem thrown_eq_none {opens : Bool} {nodeId : Bytes} {b : Blockchain} {msg : NodeMessage} :
    (handleMessage opens nodeId b msg).thrown = none ↔ Safe opens msg := by
  unfold handleMessage Safe
  cases msg.kind with
  | transaction =>
    simp only [handleTransaction_eq, true_imp_iff]
    cases fields : cutTransaction msg.bytes with
    | none => simp [Handled.still]
    | some found =>
      obtain ⟨sender, recipient, payload, type, txId⟩ := found
      have this (P : Bytes → Prop) : (∀ sender' recipient' payload' type' txId',
          some (sender, recipient, payload, type, txId) = some (sender', recipient', payload', type', txId') →
            P type') ↔ P type := by
        constructor
        · intro all
          exact all _ _ _ _ _ rfl
        · rintro holds _ _ _ _ _ ⟨⟩
          exact holds
      rw [this]
      cases number : stoi type with
      | error e => simp [number, Handled.throws]
      | ok value => cases opens <;> simp [number, Handled.snapshot, snapshotState, Handled.ofCall]
  | ibc => simp [handleIBC_thrown]
  | block | unknown | other v => simp [Handled.still]

theorem harmless_iff (opens : Bool) (bs : Bytes) :
    Harmless opens bs ↔ ∀ msg, deserializeNodeMessage bs = .ok msg → Safe opens msg := by
  have texts (addr kind sender recipient payload type txId : Bytes) :
      [pipe].intercalate [addr, kind, sender, recipient, payload, type, txId] =
        addr ++ pipe :: (kind ++ pipe :: (sender ++ pipe :: (recipient ++ pipe :: (payload ++ pipe ::
          (type ++ pipe :: txId))))) := by
    simp [List.intercalate_cons_cons]
  constructor
  · intro harmless msg read transaction sender recipient payload type txId fields
    obtain ⟨kind, value, text, plain1, plain2, number, hkind⟩ := deserializeNodeMessage_ok.mp read
    obtain ⟨body, n1, n2, n3, n4⟩ := cutTransaction_eq_some.mp fields
    have one : value = 1 := (ofInt_eq_transaction value).mp (hkind.symm.trans transaction)
    apply harmless type
    refine ⟨msg.fromAddress, kind, sender, recipient, payload, txId, ?_, ?_, ?_⟩
    · simp only [List.forall_mem_cons, List.not_mem_nil, false_imp_iff, implies_true, and_true]
      exact ⟨plain1, plain2, n1, n2, n3, n4⟩
    · rw [texts, text, body]
    · rw [number, one]
  · rintro safe type ⟨addr, kind, sender, recipient, payload, txId, plain, text, number⟩
    simp only [List.forall_mem_cons, List.not_mem_nil, false_imp_iff, implies_true, and_true] at plain
    obtain ⟨plain1, plain2, n1, n2, n3, n4⟩ := plain
    let msg : NodeMessage := ⟨addr, .transaction,
      sender ++ pipe :: (recipient ++ pipe :: (payload ++ pipe :: (type ++ pipe :: txId)))⟩
    have read : deserializeNodeMessage bs = .ok msg :=
      deserializeNodeMessage_ok.mpr ⟨kind, 1, by rw [text, texts], plain1, plain2, number,
        ((ofInt_eq_transaction 1).mpr rfl).symm⟩
    exact safe msg read rfl sender recipient payload type txId (cutTransaction_eq_some.mpr ⟨rfl, n1, n2, n3, n4⟩)

theorem caught_snapshot_effects (done : Handled) (opens : Bool) (nodeId : Bytes) :
    (done.snapshot opens nodeId).caught.effects ≠ [] := by
  cases opens with
  | true =>
    obtain ⟨-, -, -, failed, effects, -⟩ := caught_frame (done.snapshot true nodeId)
    rw [effects]
    simp [Handled.snapshot, snapshotState]
  | false => simp [Handled.snapshot, snapshotState, Handled.caught]

theorem handleMessage_effects {opens : Bool} {msg : NodeMessage} (safe : Safe opens msg) (nodeId : Bytes)
    (b : Blockchain) : (handleMessage opens nodeId b msg).effects ≠ [] := by
  unfold handleMessage
  cases kind : msg.kind with
  | transaction =>
    simp only [handleTransaction_eq]
    cases fields : cutTransaction msg.bytes with
    | none => simp [Handled.still]
    | some found =>
      obtain ⟨sender, recipient, payload, type, txId⟩ := found
      obtain ⟨⟨value, number⟩, opened⟩ := safe kind _ _ _ _ _ fields
      simp [number, opened, Handled.snapshot, snapshotState]
  | ibc =>
    simp only [handleIBC]
    cases deserializeIBCPacket msg.bytes with
    | error e => simp [Handled.throws, Handled.caught]
    | ok pkt => exact caught_snapshot_effects _ opens nodeId
  | block | unknown | other v => simp [Handled.still]

structure Healthy (r : NodeRun) : Prop where
  alive : ∀ e, r.node.worker ≠ .terminated e
  working : r.node.running = true →
    (r.node.worker = .atTest ∨ r.node.worker = .atPop) ∧ r.node.inbox.closed = false
  safe : ∀ msg ∈ r.node.inbox.q, Safe r.node.stateFileOpens msg

theorem step_alive {r : NodeRun} (h : ∀ e, r.node.worker ≠ .terminated e) (i : NodeInput) :
    nodeMachine.step r i = r.act i := by
  unfold nodeMachine
  dsimp only
  split
  · rename_i e he
    exact absurd he (h e)
  · rfl

/-- What a step owes: messages move from the inbox to the worker in order, and the
    input is answered. -/
def Owes (r : NodeRun) (i : NodeInput) (next : NodeRun × NodeOutput) : Prop :=
  (handledMessage (i, next.2)).toList ++ next.1.node.inbox.q =
      r.node.inbox.q ++ (queuedMessage (i, next.2)).toList ∧ Answered (i, next.2)

theorem bytes_step {r : NodeRun} (h : Healthy r) {bs : Bytes} (harmless : Harmless r.node.stateFileOpens bs) :
    Healthy (r.act (.bytes bs)).1 ∧ Owes r (.bytes bs) (r.act (.bytes bs)) := by
  rcases onBytes_cases r.node bs with ⟨msg, read, hopen, got⟩ | ⟨text, got⟩
  · simp only [NodeRun.act, got]
    refine ⟨⟨h.alive, h.working, ?_⟩, ?_, ?_⟩
    · intro m hm
      rw [List.mem_append, List.mem_singleton] at hm
      rcases hm with old | rfl
      · exact h.safe m old
      · exact (harmless_iff _ bs).mp harmless m read
    · simp [handledMessage, queuedMessage, read, Except.toOption]
    · exact .inl ⟨msg, read, rfl⟩
  · simp only [NodeRun.act, got]
    refine ⟨h, ?_, ?_⟩
    · simp [handledMessage, queuedMessage]
    · exact .inr ⟨text, rfl⟩

theorem loop_step {r : NodeRun} (h : Healthy r) :
    Healthy (r.act .loop).1 ∧ Owes r .loop (r.act .loop) := by
  rcases loopStep_cases r.node r.chain with ⟨msg, rest, hpop, hq, moved⟩ | ⟨w, moved, why⟩
  · have safe : Safe r.node.stateFileOpens msg := h.safe msg (by simp [hq])
    simp only [NodeRun.act, moved, thrown_eq_none.mpr safe]
    refine ⟨⟨by simp [WorkerPoint.after], ?_, ?_⟩, ?_, ?_⟩
    · intro running
      exact ⟨.inl rfl, (h.working running).2⟩
    · intro m hm
      exact h.safe m (by simp [hq, hm])
    · simp [handledMessage, queuedMessage, hq]
    · intro msg' done' same
      cases same
      exact handleMessage_effects safe r.node.nodeId r.chain
  · simp only [NodeRun.act, moved]
    refine ⟨⟨?_, ?_, h.safe⟩, ?_, ?_⟩
    · intro e he
      rcases why with same | ⟨-, next⟩ | ⟨-, next⟩
      · exact h.alive e (same.symm.trans he)
      · rw [show w = .terminated e from he] at next
        split at next <;> cases next
      · rw [show w = .terminated e from he] at next
        cases next
    · intro running
      refine ⟨?_, (h.working running).2⟩
      rcases why with same | ⟨-, next⟩ | ⟨closed, -⟩
      · rw [show w = r.node.worker from same]
        exact (h.working running).1
      · exact .inr (next.trans (if_pos running))
      · rw [(h.working running).2] at closed
        cases closed
    · simp [handledMessage, queuedMessage]
    · intro msg done same
      cases same

theorem healthy_step {r : NodeRun} (h : Healthy r) {i : NodeInput}
    (harmless : ∀ bs, i = .bytes bs → Harmless r.node.stateFileOpens bs) :
    Healthy (nodeMachine.step r i).1 ∧ Owes r i (nodeMachine.step r i) := by
  rw [step_alive h.alive]
  cases i with
  | bytes bs => exact bytes_step h (harmless bs rfl)
  | loop => exact loop_step h
  | stop =>
    refine ⟨⟨h.alive, fun running => absurd running Bool.false_ne_true, h.safe⟩, ?_, ?_⟩
    · simp [NodeRun.act, handledMessage, queuedMessage, silent, Node.clearRunning]
    · intro msg done same
      cases same
  | close =>
    cases running : r.node.running with
    | true =>
      simp only [NodeRun.act, running, if_true]
      refine ⟨h, by simp [handledMessage, queuedMessage, silent], ?_⟩
      intro msg done same
      cases same
    | false =>
      simp only [NodeRun.act, running]
      refine ⟨⟨h.alive, fun now => ?_, h.safe⟩, ?_, ?_⟩
      · rw [show r.node.running = true from now] at running
        cases running
      · simp [handledMessage, queuedMessage, silent, Node.closeInbox, ConcurrentQueue.close]
      · intro msg done same
        cases same
  | other op =>
    refine ⟨⟨h.alive, h.working, h.safe⟩, by simp [NodeRun.act, handledMessage, queuedMessage, silent], ?_⟩
    intro msg done same
    cases same

theorem step_stateFile (r : NodeRun) (i : NodeInput) :
    (nodeMachine.step r i).1.node.stateFileOpens = r.node.stateFileOpens := by
  unfold nodeMachine
  dsimp only
  split
  · rfl
  · cases i with
    | bytes bs =>
      rcases onBytes_cases r.node bs with ⟨msg, -, -, got⟩ | ⟨text, got⟩ <;> simp [NodeRun.act, got]
    | loop =>
      rcases loopStep_cases r.node r.chain with ⟨msg, rest, -, -, moved⟩ | ⟨w, moved, -⟩ <;>
        simp [NodeRun.act, moved]
    | stop | other op => rfl
    | close => cases running : r.node.running <;> simp [NodeRun.act, running, Node.closeInbox]

theorem healthy_run {r : NodeRun} (h : Healthy r) (is : List NodeInput)
    (harmless : ∀ bs ∈ bytesGiven is, Harmless r.node.stateFileOpens bs) :
    Healthy (nodeMachine.final r is) ∧
      (nodeMachine.trace r is).filterMap handledMessage ++ (nodeMachine.final r is).node.inbox.q =
        r.node.inbox.q ++ (nodeMachine.trace r is).filterMap queuedMessage ∧
      ∀ e ∈ nodeMachine.trace r is, Answered e := by
  let Kept (s : NodeRun) (t : List (NodeInput × NodeOutput)) : Prop :=
    s.node.stateFileOpens = r.node.stateFileOpens ∧ Healthy s ∧
      t.filterMap handledMessage ++ s.node.inbox.q = r.node.inbox.q ++ t.filterMap queuedMessage ∧
        ∀ e ∈ t, Answered e
  have step : ∀ s t i, i ∈ is → Kept s t →
      Kept (nodeMachine.step s i).1 (t ++ [(i, (nodeMachine.step s i).2)]) := by
    rintro s t i hi ⟨file, healthy, accounted, answered⟩
    have now : ∀ bs, i = .bytes bs → Harmless s.node.stateFileOpens bs := by
      rintro bs rfl
      rw [file]
      exact harmless bs (List.mem_filterMap.mpr ⟨_, hi, rfl⟩)
    obtain ⟨healthy', owes, answer⟩ := healthy_step healthy now
    refine ⟨(step_stateFile s i).trans file, healthy', ?_, ?_⟩
    · rw [filterMap_concat, filterMap_concat, List.append_assoc, owes, ← List.append_assoc,
        ← List.append_assoc, accounted]
    · intro e he
      rw [List.mem_append, List.mem_singleton] at he
      rcases he with old | rfl
      · exact answered e old
      · exact answer
  exact (nodeMachine.history_invariant (I := Kept) is ⟨rfl, h, by simp, by simp⟩ step).2

theorem healthy_goesOn {r : NodeRun} (h : Healthy r) (running : r.node.running = true) {msg : NodeMessage}
    {rest : List NodeMessage} (hq : r.node.inbox.q = msg :: rest) :
    ((nodeMachine.trace r [.loop, .loop]).filterMap handledMessage).head? = some msg := by
  obtain ⟨⟨nodeId, address, opens, run, ⟨q, closed⟩, worker⟩, chain⟩ := r
  obtain rfl : run = true := running
  obtain rfl : q = msg :: rest := hq
  rcases (h.working rfl).1 with rfl | rfl <;>
    simp [nodeMachine, NodeRun.act, Node.loopStep, ConcurrentQueue.waitPop, handledMessage, List.findSome?]

theorem terminated_stays {r : NodeRun} {e : StdException} (h : r.node.worker = .terminated e)
    (is : List NodeInput) : nodeMachine.final r is = r := by
  induction is with
  | nil => rfl
  | cons i is ih =>
    have stays : (nodeMachine.step r i).1 = r := by simp [nodeMachine, h]
    rw [Machine.final_cons, stays, ih]

theorem drain_throws (q : List NodeMessage) {r : NodeRun} (hq : r.node.inbox.q = q)
    (running : r.node.running = true) (test : r.node.worker = .atTest)
    (bad : ∃ msg ∈ q, ¬ Safe r.node.stateFileOpens msg) :
    ∃ e, (nodeMachine.final r (List.replicate (2 * q.length) .loop)).node.worker = .terminated e := by
  induction q generalizing r with
  | nil => simp at bad
  | cons msg rest ih =>
    obtain ⟨⟨nodeId, address, opens, run, ⟨q, closed⟩, worker⟩, chain⟩ := r
    obtain rfl : run = true := running
    obtain rfl : q = msg :: rest := hq
    obtain rfl : worker = .atTest := test
    have two : List.replicate (2 * (msg :: rest).length) NodeInput.loop =
        .loop :: .loop :: List.replicate (2 * rest.length) .loop := by
      rw [List.length_cons, Nat.mul_succ]
      rfl
    rw [two, Machine.final_cons, Machine.final_cons]
    cases thrown : (handleMessage opens nodeId chain msg).thrown with
    | some e =>
      refine ⟨e, ?_⟩
      rw [terminated_stays (e := e)]
      · simp [nodeMachine, NodeRun.act, Node.loopStep, ConcurrentQueue.waitPop, thrown, WorkerPoint.after]
      · simp [nodeMachine, NodeRun.act, Node.loopStep, ConcurrentQueue.waitPop, thrown, WorkerPoint.after]
    | none =>
      have later : ∃ m ∈ rest, ¬ Safe opens m := by
        obtain ⟨m, hm, throws⟩ := bad
        rcases List.mem_cons.mp hm with rfl | hm
        · exact absurd (thrown_eq_none.mp thrown) throws
        · exact ⟨m, hm, throws⟩
      apply ih
      · simp [nodeMachine, NodeRun.act, Node.loopStep, ConcurrentQueue.waitPop]
      · simp [nodeMachine, NodeRun.act, Node.loopStep, ConcurrentQueue.waitPop]
      · simp [nodeMachine, NodeRun.act, Node.loopStep, ConcurrentQueue.waitPop, thrown, WorkerPoint.after]
      · exact later

theorem feed (given : List Bytes) {r : NodeRun} (hopen : r.node.inbox.closed = false)
    (test : r.node.worker = .atTest) :
    nodeMachine.final r (given.map .bytes) = { r with node := { r.node with inbox := { r.node.inbox with
      q := r.node.inbox.q ++ given.filterMap fun bs => (deserializeNodeMessage bs).toOption } } } := by
  induction given generalizing r with
  | nil => simp
  | cons bs given ih =>
    have alive : ∀ e, r.node.worker ≠ .terminated e := by simp [test]
    rw [List.map_cons, Machine.final_cons, step_alive alive]
    cases read : deserializeNodeMessage bs with
    | error e =>
      have same : r.act (.bytes bs) = (r, ⟨(r.node.onBytes bs).2, none⟩) := by
        simp only [NodeRun.act, Node.onBytes, read]
        rfl
      rw [same, ih hopen test]
      simp [read, Except.toOption]
    | ok msg =>
      have queued : r.node.onBytes bs =
          ({ r.node with inbox := { r.node.inbox with q := r.node.inbox.q ++ [msg] } }, []) := by
        have pushed : (deserializeNodeMessage bs >>= r.node.inbox.push) = r.node.inbox.push msg := by
          rw [read]
          rfl
        unfold Node.onBytes
        rw [pushed, ConcurrentQueue.push_open hopen]
      simp only [NodeRun.act, queued]
      rw [ih]
      · simp [read, Except.toOption]
      · exact hopen
      · exact test

/-- A freshly started node on a chain in any state. -/
def started (opens : Bytes → Bool) (nodeId address : Bytes) (b : Blockchain) : NodeRun :=
  ⟨(Node.new nodeId address (opens (nodeStateFile b.chainId nodeId))).start.1, b⟩

/-- A node survives a list of byte strings in every interleaving exactly when each
    transaction among them has a readable type and finds the file of the node's states. -/
theorem survives_iff (opens : Bytes → Bool) (nodeId address : Bytes) (b : Blockchain) (given : List Bytes) :
    (∀ is, bytesGiven is = given → Survives (started opens nodeId address b) is) ↔
      ∀ bs ∈ given, ∀ type, TransactionText bs type →
        (∃ value, stoi type = .ok value) ∧ opens (nodeStateFile b.chainId nodeId) = true := by
  constructor
  · intro survives
    change ∀ bs ∈ given, Harmless (opens (nodeStateFile b.chainId nodeId)) bs
    by_contra harmful
    simp only [not_forall] at harmful
    obtain ⟨bs, hbs, bad⟩ := harmful
    rw [harmless_iff] at bad
    simp only [not_forall] at bad
    obtain ⟨msg, read, unsafeMsg⟩ := bad
    let q := given.filterMap fun bs => (deserializeNodeMessage bs).toOption
    let drain := List.replicate (2 * q.length) NodeInput.loop
    have onlyGiven : bytesGiven (given.map .bytes ++ drain) = given := by
      have none : bytesGiven drain = [] := by
        rw [bytesGiven, List.filterMap_eq_nil_iff]
        intro i hi
        rw [List.eq_of_mem_replicate hi]
      have all : bytesGiven (given.map .bytes) = given := by
        rw [bytesGiven, List.filterMap_map]
        exact List.filterMap_some
      rw [bytesGiven, List.filterMap_append]
      change bytesGiven (given.map .bytes) ++ bytesGiven drain = given
      rw [none, all, List.append_nil]
    have alive := (survives _ onlyGiven).alive
    rw [Machine.final_append, feed given rfl rfl] at alive
    have bad : ∃ m ∈ q, ¬ Safe (opens (nodeStateFile b.chainId nodeId)) m :=
      ⟨msg, List.mem_filterMap.mpr ⟨bs, hbs, by rw [read]; rfl⟩, unsafeMsg⟩
    let fed : NodeRun := ⟨{ (started opens nodeId address b).node with inbox := ⟨q, false⟩ }, b⟩
    obtain ⟨e, terminated⟩ := @drain_throws q fed rfl rfl rfl bad
    exact alive e terminated
  · rintro harmless is rfl
    have start : Healthy (started opens nodeId address b) := by
      refine ⟨?_, fun _ => ⟨.inl rfl, rfl⟩, ?_⟩
      · intro e he
        cases he
      · intro msg hmsg
        cases hmsg
    obtain ⟨healthy, accounted, answered⟩ := healthy_run start is harmless
    exact ⟨healthy.alive, accounted, answered, fun running msg rest hq => healthy_goesOn healthy running hq⟩

/-- A transaction whose type is not a number ends the worker, and so does the first one
    where there is no directory for the name of the chain. -/
theorem transaction_escapes :
    (¬ ∀ nodeId address b is, Survives (started (fun _ => true) nodeId address b) is) ∧
      ¬ ∀ nodeId address b is, Survives (started (fun file => !file.contains 47) nodeId address b) is := by
  constructor
  · intro h
    have alive := (h (lit "node-0") (lit "A:node-0") (.new (lit "A"))
      [.bytes (lit "a|1|f|t|p|x|id"), .loop, .loop]).alive (.invalidArgument (lit "stoi"))
    exact absurd alive (by decide)
  · intro h
    have alive := (h (lit "node-0") (lit "a/b:node-0") (.new (lit "a/b"))
      [.bytes (lit "a|1|f|t|p|0|id"), .loop, .loop]).alive (openError (nodeStateFile (lit "a/b") (lit "node-0")))
    exact absurd alive (by decide)

end InterchainCommunication.NodeSurvival
