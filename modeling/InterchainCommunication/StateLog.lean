import InterchainCommunication.EventLog

set_option autoImplicit false

namespace InterchainCommunication.StateLog
open StringText StringStream JsonGrammar JsonReading DetailedLog

/-- The text of the stream in `logNetworkDrop`. -/
def dropLine (now «from» «to» messageType : Bytes) (messageSize : UInt64) (dropReason : Bytes) : Bytes :=
  let ss := OStringStream.new
  let ss := ss.put (lit "\x7b")
  let ss := ((ss.put (lit "\"ts\":\"")).put (escapeJsonString now)).put (lit "\",")
  let ss := ((ss.put (lit "\"from\":\"")).put (escapeJsonString «from»)).put (lit "\",")
  let ss := ((ss.put (lit "\"to\":\"")).put (escapeJsonString «to»)).put (lit "\",")
  let ss := ((ss.put (lit "\"message_type\":\"")).put (escapeJsonString messageType)).put (lit "\",")
  let ss := ((ss.put (lit "\"message_size\":")).putUInt64 messageSize).put (lit ",")
  let ss := ((ss.put (lit "\"drop_reason\":\"")).put (escapeJsonString dropReason)).put (lit "\"")
  let ss := ss.put (lit "\x7d")
  ss.str

def nodeStateLine (now chainId nodeId : Bytes) (blockHeight : UInt64) (blockHash : Bytes) (mempoolSize : UInt64)
    (consensusState additionalData : Bytes) : Bytes :=
  let ss := OStringStream.new
  let ss := ss.put (lit "\x7b")
  let ss := ((ss.put (lit "\"ts\":\"")).put (escapeJsonString now)).put (lit "\",")
  let ss := ((ss.put (lit "\"chain_id\":\"")).put (escapeJsonString chainId)).put (lit "\",")
  let ss := ((ss.put (lit "\"node_id\":\"")).put (escapeJsonString nodeId)).put (lit "\",")
  let ss := ((ss.put (lit "\"block_height\":")).putUInt64 blockHeight).put (lit ",")
  let ss := ((ss.put (lit "\"block_hash\":\"")).put (escapeJsonString blockHash)).put (lit "\",")
  let ss := ((ss.put (lit "\"mempool_size\":")).putUInt64 mempoolSize).put (lit ",")
  let ss := ((ss.put (lit "\"consensus_state\":\"")).put (escapeJsonString consensusState)).put (lit "\"")
  let ss :=
    if additionalData ≠ [] then
      ((ss.put (lit ",\"additional\":\"")).put (escapeJsonString additionalData)).put (lit "\"")
    else ss
  let ss := ss.put (lit "\x7d")
  ss.str

def relayerStateLine (now relayerId eventType : Bytes) (packetsRelayed acksRelayed failures : UInt64)
    (additionalData : Bytes) : Bytes :=
  let ss := OStringStream.new
  let ss := ss.put (lit "\x7b")
  let ss := ((ss.put (lit "\"ts\":\"")).put (escapeJsonString now)).put (lit "\",")
  let ss := ((ss.put (lit "\"relayer_id\":\"")).put (escapeJsonString relayerId)).put (lit "\",")
  let ss := ((ss.put (lit "\"event_type\":\"")).put (escapeJsonString eventType)).put (lit "\",")
  let ss := ((ss.put (lit "\"packets_relayed\":")).putUInt64 packetsRelayed).put (lit ",")
  let ss := ((ss.put (lit "\"acks_relayed\":")).putUInt64 acksRelayed).put (lit ",")
  let ss := (ss.put (lit "\"failures\":")).putUInt64 failures
  let ss :=
    if additionalData ≠ [] then
      ((ss.put (lit ",\"additional\":\"")).put (escapeJsonString additionalData)).put (lit "\"")
    else ss
  let ss := ss.put (lit "\x7d")
  ss.str

def dropEntries (now «from» «to» messageType : Bytes) (messageSize : UInt64) (dropReason : Bytes) : List Entry :=
  [.string (lit "ts") now, .string (lit "from") «from», .string (lit "to") «to»,
    .string (lit "message_type") messageType, .number (lit "message_size") messageSize,
    .string (lit "drop_reason") dropReason]

def nodeStateEntries (now chainId nodeId : Bytes) (blockHeight : UInt64) (blockHash : Bytes) (mempoolSize : UInt64)
    (consensusState additionalData : Bytes) : List Entry :=
  [.string (lit "ts") now, .string (lit "chain_id") chainId, .string (lit "node_id") nodeId,
    .number (lit "block_height") blockHeight, .string (lit "block_hash") blockHash,
    .number (lit "mempool_size") mempoolSize, .string (lit "consensus_state") consensusState] ++
  (Entry.string (lit "additional") additionalData).unlessEmpty

def relayerStateEntries (now relayerId eventType : Bytes) (packetsRelayed acksRelayed failures : UInt64)
    (additionalData : Bytes) : List Entry :=
  [.string (lit "ts") now, .string (lit "relayer_id") relayerId, .string (lit "event_type") eventType,
    .number (lit "packets_relayed") packetsRelayed, .number (lit "acks_relayed") acksRelayed,
    .number (lit "failures") failures] ++
  (Entry.string (lit "additional") additionalData).unlessEmpty

theorem dropLine_eq (now «from» «to» messageType : Bytes) (messageSize : UInt64) (dropReason : Bytes) :
    dropLine now «from» «to» messageType messageSize dropReason =
      entriesLine (dropEntries now «from» «to» messageType messageSize dropReason) := by
  unfold dropLine
  dsimp only
  rw [OStringStream.new_eq_written, OStringStream.put_written,
    put_string _ (lit "\"ts\":\"") (lit "ts") now (lit "\",") [44] rfl rfl,
    put_string _ (lit "\"from\":\"") (lit "from") «from» (lit "\",") [44] rfl rfl,
    put_string _ (lit "\"to\":\"") (lit "to") «to» (lit "\",") [44] rfl rfl,
    put_string _ (lit "\"message_type\":\"") (lit "message_type") messageType (lit "\",") [44] rfl rfl,
    put_number _ (lit "\"message_size\":") (lit "message_size") messageSize rfl, OStringStream.put_written,
    put_string _ (lit "\"drop_reason\":\"") (lit "drop_reason") dropReason (lit "\"") [] rfl rfl,
    OStringStream.put_written, OStringStream.str_written, entriesLine, dropEntries]
  have brace : lit "\x7b" = [123] ∧ lit "\x7d" = [125] := ⟨rfl, rfl⟩
  have comma : lit "," = [44] := rfl
  simp [brace, comma, List.intercalate_cons_cons]

theorem nodeStateLine_eq (now chainId nodeId : Bytes) (blockHeight : UInt64) (blockHash : Bytes)
    (mempoolSize : UInt64) (consensusState additionalData : Bytes) :
    nodeStateLine now chainId nodeId blockHeight blockHash mempoolSize consensusState additionalData =
      entriesLine (nodeStateEntries now chainId nodeId blockHeight blockHash mempoolSize consensusState
        additionalData) := by
  unfold nodeStateLine
  dsimp only
  rw [OStringStream.new_eq_written, OStringStream.put_written,
    put_string _ (lit "\"ts\":\"") (lit "ts") now (lit "\",") [44] rfl rfl,
    put_string _ (lit "\"chain_id\":\"") (lit "chain_id") chainId (lit "\",") [44] rfl rfl,
    put_string _ (lit "\"node_id\":\"") (lit "node_id") nodeId (lit "\",") [44] rfl rfl,
    put_number _ (lit "\"block_height\":") (lit "block_height") blockHeight rfl, OStringStream.put_written,
    put_string _ (lit "\"block_hash\":\"") (lit "block_hash") blockHash (lit "\",") [44] rfl rfl,
    put_number _ (lit "\"mempool_size\":") (lit "mempool_size") mempoolSize rfl, OStringStream.put_written,
    put_string _ (lit "\"consensus_state\":\"") (lit "consensus_state") consensusState (lit "\"") [] rfl rfl,
    put_optional_string _ (lit ",\"additional\":\"") (lit "additional") additionalData rfl,
    OStringStream.put_written, OStringStream.str_written, entriesLine, nodeStateEntries, List.map_append,
    intercalate_append [44] (by simp)]
  have brace : lit "\x7b" = [123] ∧ lit "\x7d" = [125] := ⟨rfl, rfl⟩
  have comma : lit "," = [44] := rfl
  simp [brace, comma, List.intercalate_cons_cons]

theorem relayerStateLine_eq (now relayerId eventType : Bytes) (packetsRelayed acksRelayed failures : UInt64)
    (additionalData : Bytes) :
    relayerStateLine now relayerId eventType packetsRelayed acksRelayed failures additionalData =
      entriesLine (relayerStateEntries now relayerId eventType packetsRelayed acksRelayed failures
        additionalData) := by
  unfold relayerStateLine
  dsimp only
  rw [OStringStream.new_eq_written, OStringStream.put_written,
    put_string _ (lit "\"ts\":\"") (lit "ts") now (lit "\",") [44] rfl rfl,
    put_string _ (lit "\"relayer_id\":\"") (lit "relayer_id") relayerId (lit "\",") [44] rfl rfl,
    put_string _ (lit "\"event_type\":\"") (lit "event_type") eventType (lit "\",") [44] rfl rfl,
    put_number _ (lit "\"packets_relayed\":") (lit "packets_relayed") packetsRelayed rfl, OStringStream.put_written,
    put_number _ (lit "\"acks_relayed\":") (lit "acks_relayed") acksRelayed rfl, OStringStream.put_written,
    put_number _ (lit "\"failures\":") (lit "failures") failures rfl,
    put_optional_string _ (lit ",\"additional\":\"") (lit "additional") additionalData rfl,
    OStringStream.put_written, OStringStream.str_written, entriesLine, relayerStateEntries, List.map_append,
    intercalate_append [44] (by simp)]
  have brace : lit "\x7b" = [123] ∧ lit "\x7d" = [125] := ⟨rfl, rfl⟩
  have comma : lit "," = [44] := rfl
  simp [brace, comma, List.intercalate_cons_cons]

/-- Entries a line can be written of: there are some, and their names need no escaping. -/
def Writable (entries : List Entry) : Prop := entries ≠ [] ∧ ∀ e ∈ entries, ∀ b ∈ e.name, isPlain b = true

theorem writable_of_names {entries : List Entry} (names : List Bytes) (some_entry : entries ≠ [])
    (named : (entries.map Entry.name).Sublist names)
    (plain : names.all (fun name => name.all isPlain) = true) : Writable entries := by
  refine ⟨some_entry, fun e member => ?_⟩
  have inside := named.subset (List.mem_map.mpr ⟨e, member, rfl⟩)
  exact plain_of_all (List.all_eq_true.mp plain e.name inside)

theorem names_unlessEmpty (e : Entry) : (e.unlessEmpty.map Entry.name).Sublist [e.name] := by
  cases e with
  | string name s =>
    by_cases empty : s = []
    · simp [Entry.unlessEmpty, empty]
    · simp [Entry.unlessEmpty, empty]
  | number name n =>
    by_cases zero : n = 0
    · simp [Entry.unlessEmpty, zero]
    · simp [Entry.unlessEmpty, zero]
  | latency name l =>
    by_cases given : 0 < l.ms
    · simp [Entry.unlessEmpty, given]
    · simp [Entry.unlessEmpty, given]

theorem writable_drop (now «from» «to» messageType : Bytes) (messageSize : UInt64) (dropReason : Bytes) :
    Writable (dropEntries now «from» «to» messageType messageSize dropReason) :=
  writable_of_names _ (by simp [dropEntries]) (List.Sublist.refl _) rfl

theorem writable_nodeState (now chainId nodeId : Bytes) (blockHeight : UInt64) (blockHash : Bytes)
    (mempoolSize : UInt64) (consensusState additionalData : Bytes) :
    Writable (nodeStateEntries now chainId nodeId blockHeight blockHash mempoolSize consensusState additionalData) := by
  refine writable_of_names ([lit "ts", lit "chain_id", lit "node_id", lit "block_height", lit "block_hash",
    lit "mempool_size", lit "consensus_state"] ++ [lit "additional"]) (by simp [nodeStateEntries]) ?_ rfl
  rw [nodeStateEntries, List.map_append]
  exact (List.Sublist.refl _).append (names_unlessEmpty _)

theorem writable_relayerState (now relayerId eventType : Bytes) (packetsRelayed acksRelayed failures : UInt64)
    (additionalData : Bytes) :
    Writable (relayerStateEntries now relayerId eventType packetsRelayed acksRelayed failures additionalData) := by
  refine writable_of_names ([lit "ts", lit "relayer_id", lit "event_type", lit "packets_relayed", lit "acks_relayed",
    lit "failures"] ++ [lit "additional"]) (by simp [relayerStateEntries]) ?_ rfl
  rw [relayerStateEntries, List.map_append]
  exact (List.Sublist.refl _).append (names_unlessEmpty _)

end InterchainCommunication.StateLog
