import InterchainCommunication.MachineRuns
import InterchainCommunication.SimulationModel
import InterchainCommunication.StateLog
import Mathlib.Logic.Function.Basic

set_option autoImplicit false

namespace InterchainCommunication.LogFiles
open StringText JsonGrammar JsonReading MachineRuns DetailedLog EventLog StateLog
open NodeModel (nodeStateFile openError)
open SimulationModel (Sim)

/-- A stream is the name of the file it appends to. Names that differ are taken for different files:
    none holds a zero byte, where the name ends for the system. -/
structure DetailedLogger where
  disk : Bytes → Bytes
  nodeStateLogs : Bytes → Option Bytes
  relayerStateLogs : Bytes → Option Bytes
  enabled : LogCategory → Bool

def transactionsFile : Bytes := lit "transactions.jsonl"

def ibcEventsFile : Bytes := lit "ibc_events.jsonl"

def networkDropsFile : Bytes := lit "network_drops.jsonl"

def relayerStateFile (relayerId : Bytes) : Bytes := lit "relayer_state_" ++ relayerId ++ lit ".jsonl"

section Calls
variable (opens : Bytes → Bool)

/-- The constructor of a stream. A file that is opened for appending keeps its text. -/
def openStream (filename : Bytes) : Except StdException Bytes :=
  if opens filename then .ok filename else .error (openError filename)

namespace DetailedLogger

def new (disk : Bytes → Bytes) : Except StdException DetailedLogger := do
  let _ ← openStream opens transactionsFile
  let _ ← openStream opens ibcEventsFile
  let _ ← openStream opens networkDropsFile
  return ⟨disk, fun _ => none, fun _ => none, fun _ => true⟩

def write (l : DetailedLogger) (file jsonLine : Bytes) : DetailedLogger :=
  { l with disk := Function.update l.disk file (l.disk file ++ jsonLine ++ lit "\n") }

def enableCategory (l : DetailedLogger) (category : LogCategory) (enabled : Bool) : DetailedLogger :=
  { l with enabled := Function.update l.enabled category enabled }

def getNodeStateLog (l : DetailedLogger) (chainId nodeId : Bytes) : Except StdException (DetailedLogger × Bytes) :=
  let key := chainId ++ lit "_" ++ nodeId
  match l.nodeStateLogs key with
  | some log => .ok (l, log)
  | none => do
    let log ← openStream opens (nodeStateFile chainId nodeId)
    return ({ l with nodeStateLogs := Function.update l.nodeStateLogs key (some log) }, log)

def getRelayerStateLog (l : DetailedLogger) (relayerId : Bytes) : Except StdException (DetailedLogger × Bytes) :=
  match l.relayerStateLogs relayerId with
  | some log => .ok (l, log)
  | none => do
    let log ← openStream opens (relayerStateFile relayerId)
    return ({ l with relayerStateLogs := Function.update l.relayerStateLogs relayerId (some log) }, log)

end DetailedLogger

/-- The calls of a run, each with the text of the clock. -/
inductive LoggerCall
  | transaction (now : Bytes) (event : TxEventType) (txId txType «from» «to» payload chainId nodeId : Bytes)
      (blockHeight : UInt64)
  | ibc (now : Bytes) (event : IBCEventType) (srcChain dstChain srcPort srcChannel dstPort dstChannel : Bytes)
      (sequence : UInt64) (payload relayerId : Bytes) (latency : Latency)
  | networkDrop (now «from» «to» messageType : Bytes) (messageSize : UInt64) (dropReason : Bytes)
  | nodeState (now chainId nodeId : Bytes) (blockHeight : UInt64) (blockHash : Bytes) (mempoolSize : UInt64)
      (consensusState additionalData : Bytes)
  | relayerState (now relayerId eventType : Bytes) (packetsRelayed acksRelayed failures : UInt64)
      (additionalData : Bytes)
  | enableCategory (category : LogCategory) (enabled : Bool)
  | flushAll

/-- A line is in its file as soon as it is written, so that a flush has nothing to do. -/
def DetailedLogger.call (l : DetailedLogger) : LoggerCall → Except StdException DetailedLogger
  | .transaction now event txId txType «from» «to» payload chainId nodeId blockHeight =>
    let line := transactionLine now event txId txType «from» «to» payload chainId nodeId blockHeight
    .ok (if l.enabled .transactions then l.write transactionsFile line else l)
  | .ibc now event srcChain dstChain srcPort srcChannel dstPort dstChannel sequence payload relayerId latency =>
    let line := ibcLine (fun _ => latency.printed.text) now event srcChain dstChain srcPort srcChannel dstPort dstChannel
      sequence payload relayerId latency.ms
    .ok (if l.enabled .ibcEvents then l.write ibcEventsFile line else l)
  | .networkDrop now «from» «to» messageType messageSize dropReason =>
    let line := dropLine now «from» «to» messageType messageSize dropReason
    .ok (if l.enabled .networkDrops then l.write networkDropsFile line else l)
  | .nodeState now chainId nodeId blockHeight blockHash mempoolSize consensusState additionalData =>
    if l.enabled .nodeState then do
      let (l, log) ← l.getNodeStateLog opens chainId nodeId
      return l.write log
        (nodeStateLine now chainId nodeId blockHeight blockHash mempoolSize consensusState additionalData)
    else .ok l
  | .relayerState now relayerId eventType packetsRelayed acksRelayed failures additionalData =>
    if l.enabled .relayerState then do
      let (l, log) ← l.getRelayerStateLog opens relayerId
      return l.write log (relayerStateLine now relayerId eventType packetsRelayed acksRelayed failures additionalData)
    else .ok l
  | .enableCategory category enabled => .ok (l.enableCategory category enabled)
  | .flushAll => .ok l

/-- A call that throws has changed nothing. -/
def loggerMachine : Machine DetailedLogger LoggerCall (Option StdException) where
  step l call :=
    match l.call opens call with
    | .ok l' => (l', none)
    | .error e => (l, some e)

end Calls

/-- What a call is to record, by its category: the file and the entries. -/
def LoggerCall.record : LoggerCall → Option (LogCategory × Bytes × List Entry)
  | .transaction now event txId txType «from» «to» payload chainId nodeId blockHeight =>
    some (.transactions, transactionsFile,
      transactionEntries now event txId txType «from» «to» payload chainId nodeId blockHeight)
  | .ibc now event srcChain dstChain srcPort srcChannel dstPort dstChannel sequence payload relayerId latency =>
    some (.ibcEvents, ibcEventsFile,
      ibcEntries now event srcChain dstChain srcPort srcChannel dstPort dstChannel sequence payload relayerId latency)
  | .networkDrop now «from» «to» messageType messageSize dropReason =>
    some (.networkDrops, networkDropsFile, dropEntries now «from» «to» messageType messageSize dropReason)
  | .nodeState now chainId nodeId blockHeight blockHash mempoolSize consensusState additionalData =>
    some (.nodeState, nodeStateFile chainId nodeId,
      nodeStateEntries now chainId nodeId blockHeight blockHash mempoolSize consensusState additionalData)
  | .relayerState now relayerId eventType packetsRelayed acksRelayed failures additionalData =>
    some (.relayerState, relayerStateFile relayerId,
      relayerStateEntries now relayerId eventType packetsRelayed acksRelayed failures additionalData)
  | .enableCategory _ _ | .flushAll => none

def LoggerCall.switch (enabled : LogCategory → Bool) : LoggerCall → LogCategory → Bool
  | .enableCategory category on => Function.update enabled category on
  | _ => enabled

def records : (LogCategory → Bool) → List LoggerCall → List (Bytes × List Entry)
  | _, [] => []
  | enabled, call :: calls =>
    (match call.record with
      | some (category, record) => if enabled category then [record] else []
      | none => []) ++ records (call.switch enabled) calls

def held (file : Bytes) (rs : List (Bytes × List Entry)) : List (List Entry) :=
  (rs.filter fun r => r.1 = file).map Prod.snd

def ended (entries : List Entry) : Bytes := entriesLine entries ++ lit "\n"

theorem intercalate_ended (es : List (List Entry)) :
    [10].intercalate (es.map entriesLine ++ [[]]) = es.flatMap ended := by
  induction es with
  | nil => rfl
  | cons e es ih =>
    rw [List.map_cons, List.cons_append, List.intercalate_cons_of_ne_nil (by simp), ih]
    rfl

/-- The exceptions: one for each record whose file cannot be opened. -/
def thrown (opens : Bytes → Bool) (rs : List (Bytes × List Entry)) : List StdException :=
  (rs.filter fun r => opens r.1 = false).map fun r => openError r.1

section Steps
variable {opens : Bytes → Bool} {l : DetailedLogger}

/-- The streams that are there: the three that the constructor opened, and each of the others on the
    file its key names. -/
structure Streams (opens : Bytes → Bool) (l : DetailedLogger) : Prop where
  fixed : ∀ file ∈ [transactionsFile, ibcEventsFile, networkDropsFile], opens file = true
  nodes : ∀ key log, l.nodeStateLogs key = some log →
    opens log = true ∧ log = lit "node_state_" ++ key ++ lit ".jsonl"
  relayers : ∀ key log, l.relayerStateLogs key = some log → opens log = true ∧ log = relayerStateFile key

theorem nodeStateFile_key (chainId nodeId : Bytes) :
    nodeStateFile chainId nodeId = lit "node_state_" ++ (chainId ++ lit "_" ++ nodeId) ++ lit ".jsonl" := by
  simp only [nodeStateFile, List.append_assoc]

theorem getNodeStateLog_spec (h : Streams opens l) (chainId nodeId : Bytes) :
    (opens (nodeStateFile chainId nodeId) = true ∧ ∃ logs, Streams opens { l with nodeStateLogs := logs } ∧
      l.getNodeStateLog opens chainId nodeId = .ok ({ l with nodeStateLogs := logs }, nodeStateFile chainId nodeId)) ∨
    (opens (nodeStateFile chainId nodeId) = false ∧ l.getNodeStateLog opens chainId nodeId =
      .error (openError (nodeStateFile chainId nodeId))) := by
  unfold DetailedLogger.getNodeStateLog
  dsimp only
  cases there : l.nodeStateLogs (chainId ++ lit "_" ++ nodeId) with
  | some log =>
    obtain ⟨open', same⟩ := h.nodes _ _ there
    rw [← nodeStateFile_key] at same
    subst same
    exact .inl ⟨open', l.nodeStateLogs, h, rfl⟩
  | none =>
    cases open' : opens (nodeStateFile chainId nodeId) with
    | false => exact .inr ⟨rfl, by simp only [openStream, open']; rfl⟩
    | true =>
      refine .inl ⟨rfl, Function.update l.nodeStateLogs (chainId ++ lit "_" ++ nodeId)
        (some (nodeStateFile chainId nodeId)), ⟨h.fixed, ?_, h.relayers⟩, by simp only [openStream, open']; rfl⟩
      intro key log found
      change Function.update l.nodeStateLogs _ _ key = some log at found
      by_cases here : key = chainId ++ lit "_" ++ nodeId
      · rw [here, Function.update_self] at found
        obtain rfl := Option.some.inj found
        rw [here]
        exact ⟨open', nodeStateFile_key chainId nodeId⟩
      · rw [Function.update_of_ne here] at found
        exact h.nodes key log found

theorem getRelayerStateLog_spec (h : Streams opens l) (relayerId : Bytes) :
    (opens (relayerStateFile relayerId) = true ∧ ∃ logs, Streams opens { l with relayerStateLogs := logs } ∧
      l.getRelayerStateLog opens relayerId = .ok ({ l with relayerStateLogs := logs }, relayerStateFile relayerId)) ∨
    (opens (relayerStateFile relayerId) = false ∧ l.getRelayerStateLog opens relayerId =
      .error (openError (relayerStateFile relayerId))) := by
  unfold DetailedLogger.getRelayerStateLog
  cases there : l.relayerStateLogs relayerId with
  | some log =>
    obtain ⟨open', rfl⟩ := h.relayers _ _ there
    exact .inl ⟨open', l.relayerStateLogs, h, rfl⟩
  | none =>
    cases open' : opens (relayerStateFile relayerId) with
    | false => exact .inr ⟨rfl, by simp only [openStream, open']; rfl⟩
    | true =>
      refine .inl ⟨rfl, Function.update l.relayerStateLogs relayerId (some (relayerStateFile relayerId)),
        ⟨h.fixed, h.nodes, ?_⟩, by simp only [openStream, open']; rfl⟩
      intro key log found
      change Function.update l.relayerStateLogs _ _ key = some log at found
      by_cases here : key = relayerId
      · rw [here, Function.update_self] at found
        obtain rfl := Option.some.inj found
        rw [here]
        exact ⟨open', rfl⟩
      · rw [Function.update_of_ne here] at found
        exact h.relayers key log found

/-- What a call with a record does: nothing while its category is disabled, and otherwise one line,
    or an exception if the file cannot be opened. -/
structure Recorded (opens : Bytes → Bool) (l : DetailedLogger) (category : LogCategory) (file : Bytes)
    (entries : List Entry) (next : DetailedLogger × Option StdException) : Prop where
  enabled : next.1.enabled = l.enabled
  streams : Streams opens next.1
  disk : next.1.disk = if l.enabled category ∧ opens file then Function.update l.disk file (l.disk file ++ ended entries)
    else l.disk
  reply : next.2 = if l.enabled category ∧ opens file = false then some (openError file) else none

theorem write_disk (l : DetailedLogger) (file : Bytes) (entries : List Entry) :
    (l.write file (entriesLine entries)).disk = Function.update l.disk file (l.disk file ++ ended entries) := by
  simp only [DetailedLogger.write, ended, List.append_assoc]

theorem recorded_fixed (h : Streams opens l) {category : LogCategory} {file : Bytes} (entries : List Entry)
    (fixed : opens file = true) : Recorded opens l category file entries
      (if l.enabled category then l.write file (entriesLine entries) else l, none) := by
  cases on : l.enabled category with
  | false => exact ⟨rfl, h, by simp [on], by simp [on]⟩
  | true => exact ⟨rfl, ⟨h.fixed, h.nodes, h.relayers⟩, by simp [on, fixed, write_disk], by simp [on, fixed]⟩

theorem step_recorded (h : Streams opens l) {call : LoggerCall} {category : LogCategory} {file : Bytes}
    {entries : List Entry} (record : call.record = some (category, file, entries)) :
    Recorded opens l category file entries ((loggerMachine opens).step l call) := by
  cases call with
  | transaction =>
    obtain ⟨rfl, rfl, rfl⟩ := by simpa [LoggerCall.record] using record
    simp only [loggerMachine, DetailedLogger.call, transactionLine_eq]
    exact recorded_fixed h _ (h.fixed _ (by simp))
  | ibc =>
    obtain ⟨rfl, rfl, rfl⟩ := by simpa [LoggerCall.record] using record
    rename_i latency
    simp only [loggerMachine, DetailedLogger.call, @ibcLine_eq (fun _ => latency.printed.text) latency rfl]
    exact recorded_fixed h _ (h.fixed _ (by simp))
  | networkDrop =>
    obtain ⟨rfl, rfl, rfl⟩ := by simpa [LoggerCall.record] using record
    simp only [loggerMachine, DetailedLogger.call, dropLine_eq]
    exact recorded_fixed h _ (h.fixed _ (by simp))
  | nodeState now chainId nodeId =>
    obtain ⟨rfl, rfl, rfl⟩ := by simpa [LoggerCall.record] using record
    simp only [loggerMachine, DetailedLogger.call, nodeStateLine_eq]
    cases on : l.enabled .nodeState with
    | false => exact ⟨rfl, h, by simp [on], by simp [on]⟩
    | true =>
      rcases getNodeStateLog_spec h chainId nodeId with ⟨opened, logs, streams, found⟩ | ⟨refused, thrown⟩
      · rw [found]
        exact ⟨rfl, ⟨streams.fixed, streams.nodes, streams.relayers⟩, by
          simp only [on, opened, true_and, if_true]
          exact write_disk .., by simp [on, opened]⟩
      · rw [thrown]
        exact ⟨rfl, h, by simp [on, refused], by simp [on, refused]⟩
  | relayerState now relayerId =>
    obtain ⟨rfl, rfl, rfl⟩ := by simpa [LoggerCall.record] using record
    simp only [loggerMachine, DetailedLogger.call, relayerStateLine_eq]
    cases on : l.enabled .relayerState with
    | false => exact ⟨rfl, h, by simp [on], by simp [on]⟩
    | true =>
      rcases getRelayerStateLog_spec h relayerId with ⟨opened, logs, streams, found⟩ | ⟨refused, thrown⟩
      · rw [found]
        exact ⟨rfl, ⟨streams.fixed, streams.nodes, streams.relayers⟩, by
          simp only [on, opened, true_and, if_true]
          exact write_disk .., by simp [on, opened]⟩
      · rw [thrown]
        exact ⟨rfl, h, by simp [on, refused], by simp [on, refused]⟩
  | enableCategory | flushAll => cases record

/-- One call does to the logger what its record says. -/
structure Answers (opens : Bytes → Bool) (l : DetailedLogger) (rs : List (Bytes × List Entry))
    (next : DetailedLogger) (replies : List StdException) : Prop where
  streams : Streams opens next
  disk : ∀ file, next.disk file = l.disk file ++ if opens file then (held file rs).flatMap ended else []
  replies : replies = thrown opens rs

theorem step_answers (h : Streams opens l) (call : LoggerCall) :
    ((loggerMachine opens).step l call).1.enabled = call.switch l.enabled ∧
      Answers opens l (records l.enabled [call]) ((loggerMachine opens).step l call).1
        ((loggerMachine opens).step l call).2.toList := by
  cases record : call.record with
  | none =>
    cases call with
    | enableCategory category on =>
      refine ⟨rfl, ⟨h.fixed, h.nodes, h.relayers⟩, fun file => ?_, rfl⟩
      simp [loggerMachine, DetailedLogger.call, DetailedLogger.enableCategory, records, held, LoggerCall.record]
    | flushAll =>
      refine ⟨rfl, h, fun file => ?_, rfl⟩
      simp [loggerMachine, DetailedLogger.call, records, held, LoggerCall.record]
    | transaction | ibc | networkDrop | nodeState | relayerState => cases record
  | some found =>
    obtain ⟨category, target, entries⟩ := found
    have recorded := step_recorded h record
    have switch : call.switch l.enabled = l.enabled := by
      cases call with
      | enableCategory | flushAll => cases record
      | transaction | ibc | networkDrop | nodeState | relayerState => rfl
    refine ⟨recorded.enabled.trans switch.symm, recorded.streams, fun file => ?_, ?_⟩
    · rw [recorded.disk]
      cases on : l.enabled category with
      | false => simp [on, records, record, held]
      | true =>
        by_cases here : file = target
        · subst here
          cases opened : opens file with
          | true => simp [on, records, record, held]
          | false => simp
        · have other : ¬ target = file := fun same => here same.symm
          split <;> simp [records, record, held, on, here, other]
    · rw [recorded.reply]
      cases on : l.enabled category with
      | false => simp [on, records, record, thrown]
      | true => cases opened : opens target <;> simp [on, records, record, thrown, opened]

theorem records_cons (enabled : LogCategory → Bool) (call : LoggerCall) (calls : List LoggerCall) :
    records enabled (call :: calls) = records enabled [call] ++ records (call.switch enabled) calls := by
  simp only [records, List.append_nil]

theorem held_append (file : Bytes) (rs rs' : List (Bytes × List Entry)) :
    held file (rs ++ rs') = held file rs ++ held file rs' := by
  simp only [held, List.filter_append, List.map_append]

theorem thrown_append (opens : Bytes → Bool) (rs rs' : List (Bytes × List Entry)) :
    thrown opens (rs ++ rs') = thrown opens rs ++ thrown opens rs' := by
  simp only [thrown, List.filter_append, List.map_append]

theorem run_answers (calls : List LoggerCall) (h : Streams opens l) :
    Answers opens l (records l.enabled calls) ((loggerMachine opens).final l calls)
      (((loggerMachine opens).trace l calls).filterMap Prod.snd) := by
  induction calls generalizing l with
  | nil => exact ⟨h, fun file => by simp [records, held], rfl⟩
  | cons call calls ih =>
    obtain ⟨switched, now⟩ := step_answers h call
    have later := ih now.streams
    rw [switched] at later
    rw [records_cons, Machine.final_cons, Machine.trace_cons]
    refine ⟨later.streams, fun file => ?_, ?_⟩
    · rw [later.disk, now.disk, held_append, List.flatMap_append, List.append_assoc]
      cases opens file <;> rfl
    · rw [thrown_append, ← now.replies, ← later.replies, List.filterMap_cons]
      cases ((loggerMachine opens).step l call).2 <;> rfl

end Steps

theorem writable_record {call : LoggerCall} {category : LogCategory} {file : Bytes} {entries : List Entry}
    (record : call.record = some (category, file, entries)) : Writable entries := by
  cases call with
  | transaction =>
    obtain ⟨rfl, rfl, rfl⟩ := by simpa [LoggerCall.record] using record
    exact ⟨by simp [transactionEntries], plain_transactionEntries _ _ _ _ _ _ _ _ _ _⟩
  | ibc =>
    obtain ⟨rfl, rfl, rfl⟩ := by simpa [LoggerCall.record] using record
    exact ⟨by simp [ibcEntries], plain_ibcEntries _ _ _ _ _ _ _ _ _ _ _ _⟩
  | networkDrop =>
    obtain ⟨rfl, rfl, rfl⟩ := by simpa [LoggerCall.record] using record
    exact writable_drop _ _ _ _ _ _
  | nodeState =>
    obtain ⟨rfl, rfl, rfl⟩ := by simpa [LoggerCall.record] using record
    exact writable_nodeState _ _ _ _ _ _ _ _
  | relayerState =>
    obtain ⟨rfl, rfl, rfl⟩ := by simpa [LoggerCall.record] using record
    exact writable_relayerState _ _ _ _ _ _ _
  | enableCategory | flushAll => cases record

theorem writable_records (calls : List LoggerCall) (enabled : LogCategory → Bool) :
    ∀ r ∈ records enabled calls, Writable r.2 := by
  induction calls generalizing enabled with
  | nil => simp [records]
  | cons call calls ih =>
    intro r member
    rw [records] at member
    rcases List.mem_append.mp member with now | later
    · cases record : call.record with
      | none => simp [record] at now
      | some found =>
        obtain ⟨category, file, entries⟩ := found
        rw [record] at now
        dsimp only at now
        split at now
        · rw [List.mem_singleton.mp now]
          exact writable_record record
        · cases now
    · exact ih _ r later

/-- The text is one line for each list of entries, and each line denotes the members of its entries. -/
def ReadsAs (text : Bytes) (es : List (List Entry)) : Prop :=
  text.splitOn 10 = es.map entriesLine ++ [[]] ∧
    (es.map entriesLine).map parse = es.map fun e => some (.object (e.map Entry.member))

theorem ended_readsAs {es : List (List Entry)} (writable : ∀ e ∈ es, Writable e) :
    ReadsAs (es.flatMap ended) es := by
  have no_newline : ∀ line ∈ es.map entriesLine ++ [[]], (10 : UInt8) ∉ line := by
    intro line hline
    rcases List.mem_append.mp hline with h | h
    · obtain ⟨e, he, rfl⟩ := List.mem_map.mp h
      exact fun newline => absurd (printable_entriesLine (writable e he).2 10 newline) (by decide)
    · simp at h
      simp [h]
  constructor
  · rw [← intercalate_ended, List.splitOn_intercalate 10 no_newline (by simp)]
  · rw [List.map_map, List.map_inj_left]
    intro e he
    exact parse_of_text (text_entriesLine (writable e he).1 (writable e he).2)

theorem new_streams {opens : Bytes → Bool} {disk : Bytes → Bytes} {l : DetailedLogger}
    (start : DetailedLogger.new opens disk = .ok l) :
    Streams opens l ∧ l.disk = disk ∧ l.enabled = fun _ => true := by
  unfold DetailedLogger.new openStream at start
  cases first : opens transactionsFile with
  | false => simp [first, bind, Except.bind] at start
  | true =>
    cases second : opens ibcEventsFile with
    | false => simp [first, second, bind, Except.bind] at start
    | true =>
      cases third : opens networkDropsFile with
      | false => simp [first, second, third, bind, Except.bind] at start
      | true =>
        simp only [first, second, third, bind, Except.bind, pure, Except.pure, if_true, Except.ok.injEq] at start
        subst start
        refine ⟨⟨?_, (by rintro _ _ ⟨⟩), (by rintro _ _ ⟨⟩)⟩, rfl, rfl⟩
        intro file member
        simp only [List.mem_cons, List.not_mem_nil, or_false] at member
        rcases member with rfl | rfl | rfl <;> assumption

theorem final_disk {opens : Bytes → Bool} {disk : Bytes → Bytes} {l : DetailedLogger}
    (start : DetailedLogger.new opens disk = .ok l) (calls : List LoggerCall) (file : Bytes) :
    ∃ text, ((loggerMachine opens).final l calls).disk file = disk file ++ text ∧
      if opens file then ReadsAs text (held file (records (fun _ => true) calls)) else text = [] := by
  obtain ⟨streams, there, on⟩ := new_streams start
  have answers := run_answers calls streams
  rw [on] at answers
  refine ⟨_, there ▸ answers.disk file, ?_⟩
  split
  · apply ended_readsAs
    intro e member
    obtain ⟨r, inside, rfl⟩ := List.mem_map.mp member
    exact writable_records calls _ r (List.mem_filter.mp inside).1
  · rfl

/-- A run adds to each file that can be opened one line for each of its records, in their order, from
    which the members are read back. A file that cannot be opened stays, and each record for it throws. -/
theorem files_read_back (opens : Bytes → Bool) (disk : Bytes → Bytes) {l : DetailedLogger}
    (start : DetailedLogger.new opens disk = .ok l) (calls : List LoggerCall) :
    let M := loggerMachine opens
    let rs := records (fun _ => true) calls
    (∀ file, ∃ text, (M.final l calls).disk file = disk file ++ text ∧
      if opens file then ReadsAs text (held file rs) else text = []) ∧
    (M.trace l calls).filterMap Prod.snd = thrown opens rs := by
  intro M rs
  refine ⟨final_disk start calls, ?_⟩
  obtain ⟨streams, -, on⟩ := new_streams start
  have answers := run_answers calls streams
  rw [on] at answers
  exact answers.replies

def third : Latency := ⟨1 / 3, ⟨false, lit "0", some (lit "333333"), none⟩, by constructor <;> simp <;> decide⟩

/-- A snapshot of a node, a snapshot while that category is off, a relayed packet with its latency, a
    flush, and a record of a relayer. -/
def shortRun : List LoggerCall :=
  [.nodeState (lit "t") (lit "A") (Sim.nodeName 0) 0 (lit "GENESIS") 1 (lit "idle") [], .enableCategory .nodeState false,
    .nodeState (lit "u") (lit "A") (Sim.nodeName 0) 0 (lit "GENESIS") 2 (lit "idle") [],
    .ibc (lit "v") .packetRelayed (lit "A") (lit "B") [] [] [] [] 1 [] (lit "R") third, .flushAll,
    .relayerState (lit "v") (lit "R") (lit "packet_relayed") 1 0 0 (lit "seq=1")]

theorem files_read_back_short :
    let opens := fun file => decide (file ≠ relayerStateFile (lit "R"))
    ∃ l, DetailedLogger.new opens (fun _ => lit "\x7b\x7d\n") = .ok l ∧
      ((loggerMachine opens).trace l shortRun).filterMap Prod.snd = [openError (relayerStateFile (lit "R"))] ∧
      (∃ text, ((loggerMachine opens).final l shortRun).disk (nodeStateFile (lit "A") (Sim.nodeName 0)) =
        lit "\x7b\x7d\n" ++ text ∧
        ReadsAs text [nodeStateEntries (lit "t") (lit "A") (Sim.nodeName 0) 0 (lit "GENESIS") 1 (lit "idle") []]) ∧
      ∃ text, ((loggerMachine opens).final l shortRun).disk ibcEventsFile = lit "\x7b\x7d\n" ++ text ∧
        ReadsAs text [ibcEntries (lit "v") .packetRelayed (lit "A") (lit "B") [] [] [] [] 1 [] (lit "R") third] := by
  intro opens
  have start : DetailedLogger.new opens (fun _ => lit "\x7b\x7d\n") =
      .ok ⟨fun _ => lit "\x7b\x7d\n", fun _ => none, fun _ => none, fun _ => true⟩ := rfl
  obtain ⟨files, replies⟩ := files_read_back opens _ start shortRun
  exact ⟨_, start, replies, files (nodeStateFile (lit "A") (Sim.nodeName 0)), files ibcEventsFile⟩

inductive Owner
  | node (chainId nodeId : Bytes)
  | relayer (relayerId : Bytes)
  deriving DecidableEq

def Owner.file : Owner → Bytes
  | node chainId nodeId => nodeStateFile chainId nodeId
  | relayer relayerId => relayerStateFile relayerId

/-- The name of the chain ends where the name of the node begins. -/
def Owner.Plain : Owner → Prop
  | node _ nodeId => (95 : UInt8) ∉ nodeId
  | relayer _ => True

def LoggerCall.owner : LoggerCall → Option Owner
  | .nodeState _ chainId nodeId _ _ _ _ _ => some (.node chainId nodeId)
  | .relayerState _ relayerId _ _ _ _ _ => some (.relayer relayerId)
  | _ => none

def ownRecords (o : Owner) : (LogCategory → Bool) → List LoggerCall → List (List Entry)
  | _, [] => []
  | enabled, call :: calls =>
    (match call.record with
      | some (category, _, entries) => if call.owner = some o ∧ enabled category then [entries] else []
      | none => []) ++ ownRecords o (call.switch enabled) calls

theorem plain_nodeName (i : ℕ) : (95 : UInt8) ∉ Sim.nodeName i := by
  rw [Sim.nodeName, List.mem_append, not_or]
  refine ⟨by decide, fun underscore => ?_⟩
  exact absurd (isDigit_toNat (decimal_isDigit underscore)).2 (by decide)

theorem nodeStateFile_injective {c c' n n' : Bytes} (plain : (95 : UInt8) ∉ n) (plain' : (95 : UInt8) ∉ n')
    (same : nodeStateFile c n = nodeStateFile c' n') : c = c' ∧ n = n' := by
  have back {c n : Bytes} (plain : (95 : UInt8) ∉ n) :
      cut 95 (c ++ lit "_" ++ n).reverse = some (n.reverse, c.reverse) := by
    refine cut_eq_some.mpr ⟨?_, fun inside => plain (List.mem_reverse.mp inside)⟩
    simp only [List.reverse_append, List.append_assoc]
    rfl
  rw [nodeStateFile_key, nodeStateFile_key] at same
  have keys := List.append_cancel_left (List.append_cancel_right same)
  have parts := back (c := c) plain
  rw [keys, back plain', Option.some.injEq, Prod.mk.injEq, List.reverse_inj, List.reverse_inj] at parts
  exact ⟨parts.2.symm, parts.1.symm⟩

theorem Owner.file_injective {o o' : Owner} (plain : o.Plain) (plain' : o'.Plain) (same : o.file = o'.file) :
    o = o' := by
  have first : (Owner.file o).head? = o'.file.head? := congrArg List.head? same
  cases o with
  | node c n =>
    cases o' with
    | node c' n' =>
      obtain ⟨rfl, rfl⟩ := nodeStateFile_injective plain plain' same
      rfl
    | relayer => exact absurd (Option.some.inj first) (by decide)
  | relayer r =>
    cases o' with
    | node => exact absurd (Option.some.inj first) (by decide)
    | relayer r' => rw [List.append_cancel_left (List.append_cancel_right same)]

theorem Owner.file_ne (o : Owner) : o.file ≠ transactionsFile ∧ o.file ≠ ibcEventsFile ∧ o.file ≠ networkDropsFile := by
  have start (file : Bytes) (other : o.file.take 2 ≠ file.take 2) : o.file ≠ file :=
    fun same => other (congrArg (List.take 2) same)
  cases o with
  | node =>
    have two (c n : Bytes) : (Owner.node c n).file.take 2 = lit "no" := rfl
    refine ⟨start _ ?_, start _ ?_, start _ ?_⟩ <;> rw [two] <;> decide
  | relayer =>
    have two (r : Bytes) : (Owner.relayer r).file.take 2 = lit "re" := rfl
    refine ⟨start _ ?_, start _ ?_, start _ ?_⟩ <;> rw [two] <;> decide

theorem record_file {call : LoggerCall} {category : LogCategory} {file : Bytes} {entries : List Entry} {o : Owner}
    (record : call.record = some (category, file, entries)) (plain : o.Plain)
    (others : ∀ o', call.owner = some o' → o'.Plain) : file = o.file ↔ call.owner = some o := by
  have own (o' : Owner) (is_owner : call.owner = some o') (names : file = o'.file) :
      file = o.file ↔ call.owner = some o := by
    rw [names, is_owner, Option.some.injEq]
    exact ⟨Owner.file_injective (others o' is_owner) plain, congrArg Owner.file⟩
  have nobody (none_owner : call.owner = none) (other : o.file ≠ file) : file = o.file ↔ call.owner = some o := by
    rw [none_owner]
    exact ⟨fun same => absurd same.symm other, by rintro ⟨⟩⟩
  cases call with
  | transaction =>
    obtain ⟨-, rfl, -⟩ := by simpa [LoggerCall.record] using record
    exact nobody rfl o.file_ne.1
  | ibc =>
    obtain ⟨-, rfl, -⟩ := by simpa [LoggerCall.record] using record
    exact nobody rfl o.file_ne.2.1
  | networkDrop =>
    obtain ⟨-, rfl, -⟩ := by simpa [LoggerCall.record] using record
    exact nobody rfl o.file_ne.2.2
  | nodeState now chainId nodeId =>
    obtain ⟨-, rfl, -⟩ := by simpa [LoggerCall.record] using record
    exact own (.node chainId nodeId) rfl rfl
  | relayerState now relayerId =>
    obtain ⟨-, rfl, -⟩ := by simpa [LoggerCall.record] using record
    exact own (.relayer relayerId) rfl rfl
  | enableCategory | flushAll => cases record

theorem held_own {o : Owner} (plain : o.Plain) (calls : List LoggerCall) (enabled : LogCategory → Bool)
    (others : ∀ call ∈ calls, ∀ o', call.owner = some o' → o'.Plain) :
    held o.file (records enabled calls) = ownRecords o enabled calls := by
  induction calls generalizing enabled with
  | nil => rfl
  | cons call calls ih =>
    rw [records, held_append, ownRecords, ih _ fun c hc => others c (List.mem_cons_of_mem call hc)]
    congr 1
    cases record : call.record with
    | none => rfl
    | some found =>
      obtain ⟨category, file, entries⟩ := found
      have mine := record_file record plain (others call List.mem_cons_self)
      cases on : enabled category with
      | false => simp [on, held]
      | true =>
        by_cases here : file = o.file
        · simp [on, held, here, mine.mp here]
        · have other : ¬ call.owner = some o := fun h => here (mine.mpr h)
          simp [on, held, here, other]

/-- Where no name of a node has an underscore, each node and each relayer has a file of its own: it
    gets the lines about its owner and no others. -/
theorem own_file (opens : Bytes → Bool) (disk : Bytes → Bytes) {l : DetailedLogger}
    (start : DetailedLogger.new opens disk = .ok l) {calls : List LoggerCall}
    (plain : ∀ call ∈ calls, ∀ o, call.owner = some o → o.Plain) (o : Owner) (own : o.Plain) :
    ∃ text, ((loggerMachine opens).final l calls).disk o.file = disk o.file ++ text ∧
      if opens o.file then ReadsAs text (ownRecords o (fun _ => true) calls) else text = [] := by
  have there := final_disk start calls o.file
  rw [held_own own calls _ plain] at there
  exact there

theorem own_file_short :
    ∃ text, ((loggerMachine fun _ => true).final
      ⟨fun _ => [], fun _ => none, fun _ => none, fun _ => true⟩ shortRun).disk (relayerStateFile (lit "R")) = text ∧
      ReadsAs text [relayerStateEntries (lit "v") (lit "R") (lit "packet_relayed") 1 0 0 (lit "seq=1")] := by
  have plain : ∀ call ∈ shortRun, ∀ o, call.owner = some o → o.Plain := by
    intro call member o owner
    simp only [shortRun, List.mem_cons, List.not_mem_nil, or_false] at member
    rcases member with rfl | rfl | rfl | rfl | rfl | rfl
    · cases owner
      exact plain_nodeName 0
    · cases owner
    · cases owner
      exact plain_nodeName 0
    · cases owner
    · cases owner
    · cases owner
      trivial
  exact own_file (fun _ => true) (fun _ => []) rfl plain (.relayer (lit "R")) trivial

/-- With underscores two nodes can share one. -/
example : (Owner.node (lit "a_b") (lit "c")).file = (Owner.node (lit "a") (lit "b_c")).file := by decide

end InterchainCommunication.LogFiles
