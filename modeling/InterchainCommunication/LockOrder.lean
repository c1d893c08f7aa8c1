import InterchainCommunication.LockUse

set_option autoImplicit false

/-!
# The order of the locks

The mutex of the chains is outermost. Under it come those of the bus, of the
tables of channels, of the tables of log files and of the engines, and under all
of them the ones that are held for a single access.
-/
namespace InterchainCommunication.LockOrder
open StringText ScopedLocks LockUse SimulationModel EventLog

def rank : Lock → ℕ
  | .chainMutex => 0
  | .busMutex | .channelsMtx _ | .nodeLogsMutex | .relayerLogsMutex | .engineMutex _ => 1
  | _ => 2

/-- Whether the settings stay as they are, and which thread runs the loop of a relayer. -/
structure Setting where
  fixed : Bool
  owner : ℕ → Option ℕ

def Setting.settings (g : Setting) : Protection Lock := if g.fixed then .readOnly else .unprotected

def protect (g : Setting) : Datum → Protection Lock
  | .nodeIds _ => .mutex .chainMutex
  | .channels c => .mutex (.channelsMtx c)
  | .bindings c => .mutex (.routerMutex c)
  | .channelState c key => .mutex (.channelMtx c key)
  | .subs => .mutex .busMutex
  | .items q => .mutex (.queueMutex q)
  | .chainAddr r => .mutex (.relayerMtx r)
  | .endpoints => .mutex .endpointsMtx
  | .tasks => .mutex .tasksMtx
  | .console => .mutex .logMutex
  | .metricsFile => .mutex .metricsMutex
  | .streamFile s => .mutex (.streamMutex s)
  | .nodeStateLogs => .mutex .nodeLogsMutex
  | .relayerStateLogs => .mutex .relayerLogsMutex
  | .votes e => .mutex (.engineMutex e)
  | .relayerRng r =>
    match g.owner r with
    | some k => .thread k
    | none => .unprotected
  | .ledger _ | .routeDrop _ | .params | .level | .enabledFlag _ => g.settings
  | .mempool _ | .transportRng => .unprotected

def rules (g : Setting) (k : ℕ) : Rules Lock Datum where
  take := upwards rank
  use held d writes := (protect g d).Allows k held writes

/-- The calls that change a setting, or the ledger that `snapshotState` reads without its mutex. -/
def Call.Sets : Call → Prop
  | .setLevel | .enableCategory _ | .appendBlock _ _ | .setParams | .setDropOnRoute _ => True
  | _ => False

/-- The calls that draw a relayer's random numbers, as its loop does. -/
def Call.Draws : Call → Prop
  | .relayPacket _ | .relayAck _ => True
  | _ => False

section Functions
variable {g : Setting} {k : ℕ} {held : List Lock}

def Below (n : ℕ) (held : List Lock) : Prop := ∀ l ∈ held, rank l < n

theorem Below.cons {n : ℕ} {lock : Lock} (low : rank lock < n) (below : Below n held) : Below n (lock :: held) := by
  intro l member
  rcases List.mem_cons.mp member with rfl | outer
  · exact low
  · exact below l outer

theorem Below.mono {m n : ℕ} (le : m ≤ n) (below : Below m held) : Below n held :=
  fun l member => Nat.lt_of_lt_of_le (below l member) le

theorem below_nil (n : ℕ) : Below n [] := fun _ member => nomatch member

theorem keeps_maybe {c : Use} (h : c.Keeps (rules g k) held) : (maybe c).Keeps (rules g k) held := ⟨h, trivial⟩

theorem keeps_within {lock : Lock} {inside : Use} (below : Below (rank lock) held)
    (h : inside.Keeps (rules g k) (lock :: held)) : (within lock inside).Keeps (rules g k) held :=
  ⟨below, h, trivial⟩

theorem keeps_guarded {lock : Lock} {d : Datum} {writes : Bool} (guard : protect g d = .mutex lock) :
    (Code.touch d writes .done).Keeps (rules g k) (lock :: held) := by
  refine ⟨?_, trivial⟩
  change (protect g d).Allows k (lock :: held) writes
  rw [guard]
  exact List.mem_cons_self

theorem keeps_section {lock : Lock} {d : Datum} {writes : Bool} (below : Below (rank lock) held)
    (guard : protect g d = .mutex lock) : (within lock (.touch d writes .done)).Keeps (rules g k) held :=
  keeps_within below (keeps_guarded guard)

theorem keeps_tested {lock : Lock} {d : Datum} (below : Below (rank lock) held) (guard : protect g d = .mutex lock) :
    (tested lock d).Keeps (rules g k) held :=
  keeps_within below (keeps_list ⟨keeps_guarded guard, keeps_maybe (keeps_guarded guard)⟩)

theorem keeps_waits {lock : Lock} {d : Datum} (sleeps : ℕ) (below : Below (rank lock) held)
    (guard : protect g d = .mutex lock) : (waits sleeps lock d).Keeps (rules g k) held := by
  refine keeps_all fun c member => ?_
  rw [List.eq_of_mem_replicate member]
  exact keeps_section below guard

theorem keeps_read {d : Datum} (setting : protect g d = g.settings) : (read d).Keeps (rules g k) held := by
  refine ⟨?_, trivial⟩
  change (protect g d).Allows k held false
  rw [setting, Setting.settings]
  cases g.fixed with
  | true => exact rfl
  | false => trivial

theorem keeps_free {d : Datum} {writes : Bool} (free : protect g d = .unprotected) :
    (Code.touch d writes .done).Keeps (rules g k) held := by
  refine ⟨?_, trivial⟩
  change (protect g d).Allows k held writes
  rw [free]
  trivial

theorem keeps_log (below : Below 2 held) : Logger.log.Keeps (rules g k) held :=
  keeps_list ⟨keeps_read rfl, keeps_maybe (keeps_section below rfl)⟩

theorem keeps_incCounter (below : Below 2 held) : incCounter.Keeps (rules g k) held := keeps_section below rfl

theorem keeps_logTo (category : LogCategory) (s : Stream) (below : Below 2 held) :
    (DetailedLogger.logTo category s).Keeps (rules g k) held :=
  keeps_maybe (keeps_list ⟨keeps_read rfl, keeps_maybe (keeps_section below rfl)⟩)

theorem keeps_logNodeState (key : Bytes) (below : Below 1 held) :
    (DetailedLogger.logNodeState key).Keeps (rules g k) held :=
  keeps_list ⟨keeps_read rfl, keeps_maybe (keeps_list ⟨keeps_tested below rfl,
    keeps_maybe (keeps_section (below.mono (Nat.le_succ 1)) rfl)⟩)⟩

theorem keeps_logRelayerState (key : Bytes) (below : Below 1 held) :
    (DetailedLogger.logRelayerState key).Keeps (rules g k) held :=
  keeps_maybe (keeps_list ⟨keeps_read rfl, keeps_maybe (keeps_list ⟨keeps_tested below rfl,
    keeps_maybe (keeps_section (below.mono (Nat.le_succ 1)) rfl)⟩)⟩)

theorem keeps_flushes (keys : List Bytes) (stream : Bytes → Stream) (below : Below 2 held) :
    (Code.all (keys.map fun key => LogStream.flush (stream key))).Keeps (rules g k) held := by
  refine keeps_all fun c member => ?_
  obtain ⟨key, -, rfl⟩ := List.mem_map.mp member
  exact keeps_section below rfl

theorem keeps_flushAll (nodes relayers : List Bytes) : (DetailedLogger.flushAll nodes relayers).Keeps (rules g k) [] := by
  have inner (lock : Lock) (low : rank lock < 2) : Below 2 [lock] := .cons low (below_nil 2)
  exact keeps_list ⟨keeps_section (below_nil 2) rfl, keeps_section (below_nil 2) rfl,
    keeps_section (below_nil 2) rfl,
    keeps_within (below_nil 1) (keeps_list ⟨keeps_guarded rfl, keeps_flushes nodes _ (inner _ (by decide))⟩),
    keeps_within (below_nil 1) (keeps_list ⟨keeps_guarded rfl, keeps_flushes relayers _ (inner _ (by decide))⟩)⟩

theorem keeps_push (q : Queue) (below : Below 2 held) : (ConcurrentQueue.push q).Keeps (rules g k) held :=
  keeps_tested below rfl

theorem keeps_onSendEvent (q : Queue) (below : Below 2 held) : (EventBus.onSendEvent q).Keeps (rules g k) held :=
  ⟨keeps_list ⟨keeps_log below, keeps_incCounter below⟩,
    keeps_maybe (keeps_list ⟨keeps_push q below, keeps_log below, keeps_incCounter below⟩)⟩

theorem keeps_handle (h : Handler) (below : Below 2 held) : (EventBus.handle h).Keeps (rules g k) held := by
  cases h with
  | packetSend r => exact keeps_onSendEvent (.pendingPackets r) below
  | ackSend r => exact keeps_onSendEvent (.pendingAcks r) below

/-- The handlers need nothing that the mutex of the bus does not stand before. -/
theorem keeps_publish (handlers : List Handler) (below : Below 1 held) :
    (EventBus.publish handlers).Keeps (rules g k) held := by
  refine keeps_within below (keeps_list ⟨keeps_guarded rfl, keeps_all fun c member => ?_⟩)
  obtain ⟨h, -, rfl⟩ := List.mem_map.mp member
  exact keeps_handle h (.cons (by decide) (below.mono (by decide)))

theorem keeps_getOrCreateChannel (c : ℕ) (below : Below 1 held) :
    (Blockchain.getOrCreateChannel c).Keeps (rules g k) held :=
  keeps_within below (keeps_list ⟨keeps_guarded rfl, keeps_maybe (keeps_list ⟨keeps_guarded rfl,
    keeps_log (.cons (Nat.lt_succ_self 1) (below.mono (by decide)))⟩)⟩)

theorem below_chain (n : ℕ) : Below (n + 1) [.chainMutex] := .cons (Nat.succ_pos n) (below_nil _)

theorem keeps_openChannel (c : ℕ) (key : Bytes) : (Blockchain.openChannel c key).Keeps (rules g k) [] :=
  keeps_within (below_nil 0) (keeps_list ⟨keeps_tested (below_chain 1) rfl, keeps_log (below_chain 1),
    keeps_list ⟨keeps_getOrCreateChannel c (below_chain 0), keeps_tested (below_chain 1) rfl,
      keeps_log (below_chain 1)⟩⟩)

theorem keeps_sendIBC (c : ℕ) (key : Bytes) (handlers : List Handler) :
    (Blockchain.sendIBC c key handlers).Keeps (rules g k) [] :=
  keeps_within (below_nil 0) (keeps_list ⟨keeps_getOrCreateChannel c (below_chain 0),
    keeps_tested (below_chain 1) rfl, keeps_maybe (keeps_list ⟨keeps_tested (below_chain 1) rfl,
      keeps_log (below_chain 1), keeps_list ⟨keeps_publish handlers (below_chain 0),
        keeps_incCounter (below_chain 1), keeps_logTo _ _ (below_chain 1)⟩⟩)⟩)

theorem keeps_onIBCPacket (c : ℕ) (key : Bytes) (received acked : List Handler) :
    (Blockchain.onIBCPacket c key received acked).Keeps (rules g k) [] :=
  keeps_within (below_nil 0) (keeps_list ⟨keeps_getOrCreateChannel c (below_chain 0),
    keeps_tested (below_chain 1) rfl, keeps_maybe (keeps_list ⟨keeps_tested (below_chain 1) rfl,
      keeps_log (below_chain 1), keeps_list ⟨keeps_publish received (below_chain 0),
        keeps_incCounter (below_chain 1), keeps_logTo _ _ (below_chain 1), keeps_publish acked (below_chain 0),
        keeps_log (below_chain 1), keeps_logTo _ _ (below_chain 1)⟩⟩)⟩)

theorem keeps_onIBCAck (handlers : List Handler) : (Blockchain.onIBCAck handlers).Keeps (rules g k) [] :=
  keeps_within (below_nil 0) (keeps_list ⟨keeps_publish handlers (below_chain 0), keeps_incCounter (below_chain 1),
    keeps_log (below_chain 1), keeps_logTo _ _ (below_chain 1)⟩)

theorem keeps_head (c : ℕ) : (Blockchain.head c).Keeps (rules g k) [] :=
  keeps_within (below_nil 0) (keeps_read rfl)

theorem keeps_send : Transport.send.Keeps (rules g k) [] :=
  keeps_list ⟨keeps_section (below_nil 2) rfl, keeps_maybe (keeps_list ⟨keeps_read rfl, keeps_free rfl,
    keeps_logTo _ _ (below_nil 2), keeps_list ⟨keeps_read rfl, keeps_section (below_nil 2) rfl⟩⟩)⟩

theorem keeps_onBytes (n : ℕ) : (Node.onBytes n).Keeps (rules g k) [] :=
  ⟨keeps_log (below_nil 2), keeps_list ⟨keeps_push _ (below_nil 2), keeps_maybe (keeps_log (below_nil 2))⟩⟩

theorem keeps_submitTransaction (c : ℕ) : (Node.submitTransaction c).Keeps (rules g k) [] :=
  keeps_list ⟨keeps_free rfl, keeps_logTo _ _ (below_nil 2), keeps_send, keeps_incCounter (below_nil 2)⟩

theorem keeps_snapshotState (c : ℕ) (key : Bytes) : (Node.snapshotState c key).Keeps (rules g k) [] :=
  keeps_maybe (keeps_list ⟨keeps_head c, keeps_free rfl, keeps_read rfl, keeps_logNodeState key (below_nil 1)⟩)

theorem keeps_handleTransaction (c : ℕ) (key : Bytes) : (Node.handleTransaction c key).Keeps (rules g k) [] :=
  ⟨keeps_log (below_nil 2), keeps_maybe (keeps_list ⟨keeps_free rfl, keeps_incCounter (below_nil 2),
    keeps_log (below_nil 2), keeps_logTo _ _ (below_nil 2), keeps_snapshotState c key⟩)⟩

theorem keeps_handleIBC (c : ℕ) (key channel : Bytes) (received acked : List Handler) :
    (Node.handleIBC c key channel received acked).Keeps (rules g k) [] := by
  have log : Logger.log.Keeps (rules g k) [] := keeps_log (below_nil 2)
  have count : incCounter.Keeps (rules g k) [] := keeps_incCounter (below_nil 2)
  exact ⟨keeps_list ⟨log, count⟩, keeps_list
    ⟨⟨keeps_list ⟨log, keeps_onIBCPacket c channel received acked, count, log⟩,
      keeps_maybe (keeps_list ⟨log, keeps_onIBCAck received, count, log⟩)⟩,
    keeps_snapshotState c key, keeps_maybe (keeps_list ⟨log, count⟩)⟩⟩

theorem keeps_node (n c : ℕ) (key channel : Bytes) (sleeps : ℕ) (received acked : List Handler) :
    (Node.runLoop n c key channel sleeps received acked).Keeps (rules g k) [] :=
  keeps_list ⟨keeps_list ⟨keeps_waits sleeps (below_nil 2) rfl, keeps_tested (below_nil 2) rfl⟩,
    keeps_maybe ⟨keeps_handleTransaction c key, keeps_log (below_nil 2),
      keeps_handleIBC c key channel received acked⟩⟩

theorem keeps_worker (n sleeps : ℕ) : (Transport.workerLoop n sleeps).Keeps (rules g k) [] :=
  keeps_list ⟨keeps_waits sleeps (below_nil 2) rfl, keeps_tested (below_nil 2) rfl,
    keeps_within (below_nil 2) trivial, keeps_maybe (keeps_list ⟨keeps_section (below_nil 2) rfl,
      keeps_section (below_nil 2) rfl, keeps_maybe (keeps_onBytes n), keeps_section (below_nil 2) rfl⟩)⟩

theorem keeps_relay {r : ℕ} (mine : ∀ j, g.owner r = some j → j = k) : (Relayer.relay r).Keeps (rules g k) [] := by
  have draws : (write (.relayerRng r)).Keeps (rules g k) [] := by
    refine ⟨?_, trivial⟩
    change (protect g (.relayerRng r)).Allows k [] true
    simp only [protect]
    cases owner : g.owner r with
    | none => trivial
    | some j => exact (mine j owner).symm
  exact keeps_list ⟨keeps_section (below_nil 2) rfl,
    keeps_maybe (keeps_list ⟨keeps_read rfl, draws, keeps_maybe keeps_send⟩)⟩

theorem keeps_half (q : Queue) {relayed : Use} (key : Bytes) (h : relayed.Keeps (rules g k) []) :
    (Relayer.half q relayed key).Keeps (rules g k) [] := by
  have log : Logger.log.Keeps (rules g k) [] := keeps_log (below_nil 2)
  have count : incCounter.Keeps (rules g k) [] := keeps_incCounter (below_nil 2)
  have state : (DetailedLogger.logRelayerState key).Keeps (rules g k) [] := keeps_logRelayerState key (below_nil 1)
  exact keeps_list ⟨keeps_tested (below_nil 2) rfl, keeps_maybe (keeps_list ⟨log, h,
    keeps_list ⟨count, log, keeps_logTo _ _ (below_nil 2), state⟩, keeps_list ⟨count, log, state⟩⟩)⟩

theorem keeps_relayer {r : ℕ} (key : Bytes) (mine : ∀ j, g.owner r = some j → j = k) :
    (Relayer.runLoop r key).Keeps (rules g k) [] :=
  keeps_list ⟨keeps_half _ key (keeps_relay mine), keeps_half _ key (keeps_relay mine)⟩

/-- A call that sets something is in order only where nobody relies on the settings, and one that draws
    numbers only where no thread owns a relayer. -/
theorem keeps_call {call : Call} (sets : Call.Sets call → g.fixed = false)
    (draws : Call.Draws call → ∀ r, g.owner r = none) : call.code.Keeps (rules g k) [] := by
  have log : Logger.log.Keeps (rules g k) [] := keeps_log (below_nil 2)
  have loose (set : Call.Sets call) : g.settings = .unprotected := by
    rw [Setting.settings, sets set]
    rfl
  have relay (r : ℕ) (free : ∀ r, g.owner r = none) : (Relayer.relay r).Keeps (rules g k) [] := by
    refine keeps_relay fun j owned => ?_
    rw [free r] at owned
    cases owned
  cases call with
  | log => exact log
  | setLevel => exact keeps_within (below_nil 2) (keeps_free (loose trivial))
  | incCounter => exact keeps_incCounter (below_nil 2)
  | logTransactionEvent | logIBCEvent | logNetworkDrop => exact keeps_logTo _ _ (below_nil 2)
  | logNodeState key => exact keeps_logNodeState key (below_nil 1)
  | logRelayerState key => exact keeps_logRelayerState key (below_nil 1)
  | enableCategory category => exact keeps_free (loose trivial)
  | flushAll nodes relayers => exact keeps_flushAll nodes relayers
  | openChannel c key => exact keeps_openChannel c key
  | closeChannel c =>
    exact keeps_within (below_nil 0) (keeps_list ⟨keeps_tested (below_chain 1) rfl, keeps_log (below_chain 1)⟩)
  | bind c | unbind c => exact keeps_tested (below_nil 2) rfl
  | isBound c => exact keeps_section (below_nil 2) rfl
  | sendIBC c key handlers => exact keeps_sendIBC c key handlers
  | onIBCPacket c key received acked => exact keeps_onIBCPacket c key received acked
  | onIBCAck handlers => exact keeps_onIBCAck handlers
  | head c => exact keeps_head c
  | appendBlock c handlers =>
    exact keeps_within (below_nil 0) (keeps_list ⟨keeps_read rfl, keeps_log (below_chain 1),
      keeps_list ⟨keeps_free (loose trivial), keeps_publish handlers (below_chain 0),
        keeps_incCounter (below_chain 1), keeps_log (below_chain 1)⟩⟩)
  | registerNodeId c =>
    exact keeps_within (below_nil 0) (keeps_list ⟨keeps_guarded rfl,
      keeps_maybe (keeps_list ⟨keeps_guarded rfl, keeps_log (below_chain 1)⟩)⟩)
  | add c | drain c | size c => exact keeps_free rfl
  | subscribe => exact keeps_section (below_nil 1) rfl
  | unsubscribe => exact keeps_tested (below_nil 1) rfl
  | publish handlers => exact keeps_publish handlers (below_nil 1)
  | registerEndpoint | unregisterEndpoint => exact keeps_tested (below_nil 2) rfl
  | setParams => exact keeps_free (loose trivial)
  | send => exact keeps_send
  | waitForPendingDeliveries sleeps =>
    exact keeps_list ⟨keeps_waits sleeps (below_nil 2) rfl, keeps_section (below_nil 2) rfl⟩
  | submitTransaction c => exact keeps_submitTransaction c
  | onBytes n => exact keeps_onBytes n
  | stopNode n => exact keeps_list ⟨keeps_section (below_nil 2) rfl, log⟩
  | connectChainMailbox r => exact keeps_section (below_nil 2) rfl
  | setDropOnRoute r => exact keeps_within (below_nil 2) (keeps_free (loose trivial))
  | relayPacket r | relayAck r => exact relay r (draws trivial)
  | stopRelayer r =>
    exact keeps_list ⟨keeps_section (below_nil 2) rfl, keeps_section (below_nil 2) rfl, log⟩
  | work e =>
    have count : incCounter.Keeps (rules g k) [.engineMutex e] :=
      keeps_incCounter (.cons (Nat.lt_succ_self 1) (below_nil 2))
    exact keeps_within (below_nil 1) (keeps_list ⟨count, keeps_maybe (keeps_list ⟨keeps_guarded rfl, count⟩)⟩)
  | vote e =>
    have count : incCounter.Keeps (rules g k) [.engineMutex e] :=
      keeps_incCounter (.cons (Nat.lt_succ_self 1) (below_nil 2))
    exact keeps_within (below_nil 1) (keeps_list ⟨count, keeps_guarded rfl, keeps_maybe count⟩)
  | isFinal e => exact keeps_within (below_nil 1) (keeps_maybe (keeps_guarded rfl))

theorem keeps_jobs {jobs : List Job} (sets : ∀ call, .call call ∈ jobs → Call.Sets call → g.fixed = false)
    (draws : ∀ call, .call call ∈ jobs → Call.Draws call → ∀ r, g.owner r = none)
    (mine : ∀ r key, .relayer r key ∈ jobs → ∀ j, g.owner r = some j → j = k) :
    (Code.all (jobs.map Job.code)).Keeps (rules g k) [] := by
  refine keeps_all fun c member => ?_
  obtain ⟨job, inside, rfl⟩ := List.mem_map.mp member
  cases job with
  | call call => exact keeps_call (sets call inside) (draws call inside)
  | node n c key channel sleeps received acked => exact keeps_node n c key channel sleeps received acked
  | relayer r key => exact keeps_relayer key (mine r key inside)
  | worker n sleeps => exact keeps_worker n sleeps

end Functions

theorem takes_upwards (g : Setting) (k : ℕ) (held : List Lock) (lock : Lock) (h : (rules g k).take held lock) :
    upwards rank held lock := h

/-- However many threads there are, whatever calls and loops each of them runs, and whatever the schedule:
    two threads never hold one mutex, some thread can go on until all are through, and the steps are
    bounded. So the mutexes alone never bring the simulation to a halt. -/
theorem never_deadlocked (jobs : List (List Job)) (schedule : List (ℕ × Bool)) :
    let s := lockMachine.final (threads jobs) schedule
    Exclusive s ∧ ((∀ t ∈ s, t.Finished) ∨ ∃ k, (lockMachine.step s (k, true)).2 = true) ∧
      ((lockMachine.trace (threads jobs) schedule).filter fun e => e.2).length ≤
        ((threads jobs).map Thread.length).sum := by
  intro s
  have keeps : KeepAll (rules ⟨false, fun _ => none⟩) (threads jobs) := by
    rw [threads_eq]
    refine keeps_start fun k c at_k => ?_
    obtain ⟨js, -, rfl⟩ := List.mem_map.mp (List.mem_of_getElem? at_k)
    exact keeps_jobs (fun _ _ _ => rfl) (fun _ _ _ _ => rfl) fun _ _ _ _ owned => nomatch owned
  refine ⟨exclusive_run (threads_exclusive jobs) schedule, ?_, ?_⟩
  · by_cases through : ∀ t ∈ s, t.Finished
    · exact .inl through
    · right
      refine some_advances (takes_upwards _) (keeps_run keeps schedule) ?_
      simpa using through
  · have bounded := steps_bounded (threads jobs) schedule
    omega

end InterchainCommunication.LockOrder
