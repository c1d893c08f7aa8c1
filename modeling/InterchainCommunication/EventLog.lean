import InterchainCommunication.DetailedLog

set_option autoImplicit false

namespace InterchainCommunication.EventLog
open StringText JsonGrammar JsonReading DetailedLog

/-- The bytes of a file opened for appending. -/
structure LogStream where
  file : Bytes

def LogStream.write (s : LogStream) (jsonLine : Bytes) : LogStream := ⟨s.file ++ jsonLine ++ lit "\n"⟩

inductive LogCategory
  | transactions
  | ibcEvents
  | networkDrops
  | nodeState
  | relayerState
  deriving DecidableEq

structure DetailedLogger where
  transactionsLog : LogStream
  ibcEventsLog : LogStream
  transactionsEnabled : Bool
  ibcEventsEnabled : Bool

namespace DetailedLogger

def logTransactionEvent (l : DetailedLogger) (now : Bytes) (event : TxEventType)
    (txId txType «from» «to» payload chainId nodeId : Bytes) (blockHeight : UInt64) : DetailedLogger :=
  let line := transactionLine now event txId txType «from» «to» payload chainId nodeId blockHeight
  if l.transactionsEnabled then { l with transactionsLog := l.transactionsLog.write line } else l

def logIBCEvent (printDouble : ℚ → Bytes) (l : DetailedLogger) (now : Bytes) (event : IBCEventType)
    (srcChain dstChain srcPort srcChannel dstPort dstChannel : Bytes) (sequence : UInt64)
    (payload relayerId : Bytes) (latencyMs : ℚ) : DetailedLogger :=
  let line := ibcLine printDouble now event srcChain dstChain srcPort srcChannel dstPort dstChannel sequence payload
    relayerId latencyMs
  if l.ibcEventsEnabled then { l with ibcEventsLog := l.ibcEventsLog.write line } else l

end DetailedLogger

theorem entriesLine_denotes {entries : List Entry} {line : Bytes} {members : List (Bytes × Json)}
    (line_eq : line = entriesLine entries) (member_eq : entries.map Entry.member = members)
    (some_entry : entries ≠ []) (plain : ∀ e ∈ entries, ∀ b ∈ e.name, isPlain b = true) :
    (∀ b ∈ line, 32 ≤ b) ∧ (∀ v, Text v line ↔ v = .object members) ∧ parse line = some (.object members) := by
  have derived := text_entriesLine some_entry plain
  rw [← line_eq, member_eq] at derived
  refine ⟨?_, fun v => ⟨?_, ?_⟩, parse_of_text derived⟩
  · rw [line_eq]
    exact printable_entriesLine plain
  · exact fun h => text_unique h derived
  · rintro rfl
    exact derived

def memberUnless (absent : Prop) [Decidable absent] (name : Bytes) (v : Json) : List (Bytes × Json) :=
  if absent then [] else [(name, v)]

theorem member_unlessEmpty_string (name s : Bytes) :
    (Entry.string name s).unlessEmpty.map Entry.member = memberUnless (s = []) name (.string s) := by
  by_cases h : s = []
  · simp [Entry.unlessEmpty, memberUnless, h]
  · simp [Entry.unlessEmpty, memberUnless, h, Entry.member]

theorem member_unlessEmpty_number (name : Bytes) (n : UInt64) :
    (Entry.number name n).unlessEmpty.map Entry.member = memberUnless (n = 0) name (.number n.toNat) := by
  by_cases h : n = 0
  · simp [Entry.unlessEmpty, memberUnless, h]
  · simp [Entry.unlessEmpty, memberUnless, h, Entry.member]

/-- The arguments of `logTransactionEvent` as members, the last three left out when they are empty or 0. -/
def transactionMembers (now : Bytes) (event : TxEventType)
    (txId txType «from» «to» payload chainId nodeId : Bytes) (blockHeight : UInt64) : List (Bytes × Json) :=
  [(lit "ts", .string now), (lit "event", .string event.name), (lit "tx_id", .string txId),
    (lit "tx_type", .string txType), (lit "from", .string «from»), (lit "to", .string «to»),
    (lit "payload", .string payload)] ++
  (memberUnless (chainId = []) (lit "chain_id") (.string chainId) ++
    memberUnless (nodeId = []) (lit "node_id") (.string nodeId) ++
    memberUnless (blockHeight = 0) (lit "block_height") (.number blockHeight.toNat))

def ibcMembers (now : Bytes) (event : IBCEventType)
    (srcChain dstChain srcPort srcChannel dstPort dstChannel : Bytes) (sequence : UInt64)
    (payload relayerId : Bytes) : List (Bytes × Json) :=
  [(lit "ts", .string now), (lit "event", .string event.name), (lit "src_chain", .string srcChain),
    (lit "dst_chain", .string dstChain), (lit "src_port", .string srcPort), (lit "src_channel", .string srcChannel),
    (lit "dst_port", .string dstPort), (lit "dst_channel", .string dstChannel),
    (lit "sequence", .number sequence.toNat), (lit "payload", .string payload)] ++
  memberUnless (relayerId = []) (lit "relayer_id") (.string relayerId)

theorem member_transactionEntries (now : Bytes) (event : TxEventType)
    (txId txType «from» «to» payload chainId nodeId : Bytes) (blockHeight : UInt64) :
    (transactionEntries now event txId txType «from» «to» payload chainId nodeId blockHeight).map Entry.member =
      transactionMembers now event txId txType «from» «to» payload chainId nodeId blockHeight := by
  rw [transactionEntries, List.map_append, List.map_append, List.map_append, member_unlessEmpty_string,
    member_unlessEmpty_string, member_unlessEmpty_number]
  rfl

theorem member_ibcEntries (now : Bytes) (event : IBCEventType)
    (srcChain dstChain srcPort srcChannel dstPort dstChannel : Bytes) (sequence : UInt64)
    (payload relayerId : Bytes) :
    (ibcEntries now event srcChain dstChain srcPort srcChannel dstPort dstChannel sequence payload relayerId
        .unknown).map Entry.member =
      ibcMembers now event srcChain dstChain srcPort srcChannel dstPort dstChannel sequence payload relayerId := by
  have none_given : (Entry.latency (lit "latency_ms") .unknown).unlessEmpty = [] := by
    simp [Entry.unlessEmpty, Latency.unknown]
  rw [ibcEntries, none_given, List.append_nil, List.map_append, member_unlessEmpty_string]
  rfl

theorem names_memberUnless (absent : Prop) [Decidable absent] (name : Bytes) (v : Json) :
    ((memberUnless absent name v).map Prod.fst).Sublist [name] := by
  by_cases h : absent
  · simp [memberUnless, h]
  · simp [memberUnless, h]

theorem nodup_transactionMembers (now : Bytes) (event : TxEventType)
    (txId txType «from» «to» payload chainId nodeId : Bytes) (blockHeight : UInt64) :
    ((transactionMembers now event txId txType «from» «to» payload chainId nodeId blockHeight).map
      Prod.fst).Nodup := by
  have distinct : ([lit "ts", lit "event", lit "tx_id", lit "tx_type", lit "from", lit "to", lit "payload"] ++
      ([lit "chain_id"] ++ [lit "node_id"] ++ [lit "block_height"])).Nodup := by decide
  refine distinct.sublist ?_
  rw [transactionMembers, List.map_append, List.map_append, List.map_append]
  have chain := names_memberUnless (chainId = []) (lit "chain_id") (.string chainId)
  have node := names_memberUnless (nodeId = []) (lit "node_id") (.string nodeId)
  have height := names_memberUnless (blockHeight = 0) (lit "block_height") (.number blockHeight.toNat)
  exact (List.Sublist.refl _).append ((chain.append node).append height)

theorem nodup_ibcMembers (now : Bytes) (event : IBCEventType)
    (srcChain dstChain srcPort srcChannel dstPort dstChannel : Bytes) (sequence : UInt64)
    (payload relayerId : Bytes) :
    ((ibcMembers now event srcChain dstChain srcPort srcChannel dstPort dstChannel sequence payload relayerId).map
      Prod.fst).Nodup := by
  have distinct : ([lit "ts", lit "event", lit "src_chain", lit "dst_chain", lit "src_port", lit "src_channel",
      lit "dst_port", lit "dst_channel", lit "sequence", lit "payload"] ++ [lit "relayer_id"]).Nodup := by decide
  refine distinct.sublist ?_
  rw [ibcMembers, List.map_append]
  exact (List.Sublist.refl _).append (names_memberUnless (relayerId = []) (lit "relayer_id") (.string relayerId))

/-- A call on an enabled category appends one line without control characters. It denotes one object,
    whose members are the arguments. -/
theorem log_lines_lose_nothing (l : DetailedLogger) :
    (∀ (now : Bytes) (event : TxEventType) (txId txType «from» «to» payload chainId nodeId : Bytes)
      (blockHeight : UInt64),
      let line := transactionLine now event txId txType «from» «to» payload chainId nodeId blockHeight
      let members := transactionMembers now event txId txType «from» «to» payload chainId nodeId blockHeight
      (l.logTransactionEvent now event txId txType «from» «to» payload chainId nodeId
        blockHeight).transactionsLog.file =
          l.transactionsLog.file ++ (if l.transactionsEnabled then line ++ lit "\n" else []) ∧
      (∀ b ∈ line, 32 ≤ b) ∧ (∀ v, Text v line ↔ v = .object members) ∧ parse line = some (.object members) ∧
      (members.map Prod.fst).Nodup) ∧
    ∀ (printDouble : ℚ → Bytes) (now : Bytes) (event : IBCEventType)
      (srcChain dstChain srcPort srcChannel dstPort dstChannel : Bytes) (sequence : UInt64)
      (payload relayerId : Bytes),
      let line := ibcLine printDouble now event srcChain dstChain srcPort srcChannel dstPort dstChannel sequence
        payload relayerId 0
      let members := ibcMembers now event srcChain dstChain srcPort srcChannel dstPort dstChannel sequence payload
        relayerId
      (l.logIBCEvent printDouble now event srcChain dstChain srcPort srcChannel dstPort dstChannel sequence payload
        relayerId 0).ibcEventsLog.file =
          l.ibcEventsLog.file ++ (if l.ibcEventsEnabled then line ++ lit "\n" else []) ∧
      (∀ b ∈ line, 32 ≤ b) ∧ (∀ v, Text v line ↔ v = .object members) ∧ parse line = some (.object members) ∧
      (members.map Prod.fst).Nodup := by
  constructor
  · intro now event txId txType «from» «to» payload chainId nodeId blockHeight line members
    obtain ⟨printable, denotes, parsed⟩ := entriesLine_denotes
      (transactionLine_eq now event txId txType «from» «to» payload chainId nodeId blockHeight)
      (member_transactionEntries now event txId txType «from» «to» payload chainId nodeId blockHeight)
      (by simp [transactionEntries])
      (plain_transactionEntries now event txId txType «from» «to» payload chainId nodeId blockHeight)
    refine ⟨?_, printable, denotes, parsed,
      nodup_transactionMembers now event txId txType «from» «to» payload chainId nodeId blockHeight⟩
    unfold DetailedLogger.logTransactionEvent
    cases l.transactionsEnabled with
    | true => simp [LogStream.write, line]
    | false => simp
  · intro printDouble now event srcChain dstChain srcPort srcChannel dstPort dstChannel sequence payload relayerId
      line members
    obtain ⟨printable, denotes, parsed⟩ := entriesLine_denotes
      (ibcLine_unknown printDouble now event srcChain dstChain srcPort srcChannel dstPort dstChannel sequence payload
        relayerId)
      (member_ibcEntries now event srcChain dstChain srcPort srcChannel dstPort dstChannel sequence payload relayerId)
      (by simp [ibcEntries])
      (plain_ibcEntries now event srcChain dstChain srcPort srcChannel dstPort dstChannel sequence payload relayerId
        .unknown)
    refine ⟨?_, printable, denotes, parsed,
      nodup_ibcMembers now event srcChain dstChain srcPort srcChannel dstPort dstChannel sequence payload relayerId⟩
    unfold DetailedLogger.logIBCEvent
    cases l.ibcEventsEnabled with
    | true => simp [LogStream.write, line]
    | false => simp

end InterchainCommunication.EventLog
