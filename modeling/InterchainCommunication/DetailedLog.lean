import InterchainCommunication.JsonReading
import InterchainCommunication.StringStream

set_option autoImplicit false

namespace InterchainCommunication.DetailedLog
open StringText StringStream JsonGrammar JsonReading

/-- The body of the loop. Only a control character without a letter of its own changes the base and
    the fill of the stream, and sets them back. -/
def escapeStep (ss : OStringStream) (c : UInt8) : OStringStream :=
  if c = 34 then ss.put (lit "\\\"")
  else if c = 92 then ss.put (lit "\\\\")
  else if c = 8 then ss.put (lit "\\b")
  else if c = 12 then ss.put (lit "\\f")
  else if c = 10 then ss.put (lit "\\n")
  else if c = 13 then ss.put (lit "\\r")
  else if c = 9 then ss.put (lit "\\t")
  else if c < 32 then
    let ss := ss.put (lit "\\u")
    let ss := ((ss.setHex).setw 4).setfill 48
    let ss := ss.putInt c.toNat
    (ss.setDec).setfill 32
  else ss.put [c]

def escapeJsonString (input : Bytes) : Bytes := (input.foldl escapeStep .new).str

inductive TxEventType
  | created
  | submitted
  | received
  | includedInBlock
  | dropped
  | other (value : {v : ℤ // v < 0 ∨ 4 < v})

def TxEventType.name : TxEventType → Bytes
  | created => lit "created"
  | submitted => lit "submitted"
  | received => lit "received"
  | includedInBlock => lit "included_in_block"
  | dropped => lit "dropped"
  | other _ => lit "unknown"

inductive IBCEventType
  | packetCreated
  | packetRelayed
  | packetReceived
  | ackGenerated
  | ackRelayed
  | ackReceived
  | other (value : {v : ℤ // v < 0 ∨ 5 < v})

def IBCEventType.name : IBCEventType → Bytes
  | packetCreated => lit "packet_created"
  | packetRelayed => lit "packet_relayed"
  | packetReceived => lit "packet_received"
  | ackGenerated => lit "ack_generated"
  | ackRelayed => lit "ack_relayed"
  | ackReceived => lit "ack_received"
  | other _ => lit "unknown"

def transactionLine (now : Bytes) (event : TxEventType) (txId txType «from» «to» payload chainId nodeId : Bytes)
    (blockHeight : UInt64) : Bytes :=
  let ss := OStringStream.new
  let ss := ss.put (lit "\x7b")
  let ss := ((ss.put (lit "\"ts\":\"")).put (escapeJsonString now)).put (lit "\",")
  let ss := ((ss.put (lit "\"event\":\"")).put event.name).put (lit "\",")
  let ss := ((ss.put (lit "\"tx_id\":\"")).put (escapeJsonString txId)).put (lit "\",")
  let ss := ((ss.put (lit "\"tx_type\":\"")).put (escapeJsonString txType)).put (lit "\",")
  let ss := ((ss.put (lit "\"from\":\"")).put (escapeJsonString «from»)).put (lit "\",")
  let ss := ((ss.put (lit "\"to\":\"")).put (escapeJsonString «to»)).put (lit "\",")
  let ss := ((ss.put (lit "\"payload\":\"")).put (escapeJsonString payload)).put (lit "\"")
  let ss :=
    if chainId ≠ [] then ((ss.put (lit ",\"chain_id\":\"")).put (escapeJsonString chainId)).put (lit "\"") else ss
  let ss :=
    if nodeId ≠ [] then ((ss.put (lit ",\"node_id\":\"")).put (escapeJsonString nodeId)).put (lit "\"") else ss
  let ss := if 0 < blockHeight then (ss.put (lit ",\"block_height\":")).putUInt64 blockHeight else ss
  let ss := ss.put (lit "\x7d")
  ss.str

def ibcLine (printDouble : ℚ → Bytes) (now : Bytes) (event : IBCEventType)
    (srcChain dstChain srcPort srcChannel dstPort dstChannel : Bytes) (sequence : UInt64)
    (payload relayerId : Bytes) (latencyMs : ℚ) : Bytes :=
  let ss := OStringStream.new
  let ss := ss.put (lit "\x7b")
  let ss := ((ss.put (lit "\"ts\":\"")).put (escapeJsonString now)).put (lit "\",")
  let ss := ((ss.put (lit "\"event\":\"")).put event.name).put (lit "\",")
  let ss := ((ss.put (lit "\"src_chain\":\"")).put (escapeJsonString srcChain)).put (lit "\",")
  let ss := ((ss.put (lit "\"dst_chain\":\"")).put (escapeJsonString dstChain)).put (lit "\",")
  let ss := ((ss.put (lit "\"src_port\":\"")).put (escapeJsonString srcPort)).put (lit "\",")
  let ss := ((ss.put (lit "\"src_channel\":\"")).put (escapeJsonString srcChannel)).put (lit "\",")
  let ss := ((ss.put (lit "\"dst_port\":\"")).put (escapeJsonString dstPort)).put (lit "\",")
  let ss := ((ss.put (lit "\"dst_channel\":\"")).put (escapeJsonString dstChannel)).put (lit "\",")
  let ss := ((ss.put (lit "\"sequence\":")).putUInt64 sequence).put (lit ",")
  let ss := ((ss.put (lit "\"payload\":\"")).put (escapeJsonString payload)).put (lit "\"")
  let ss :=
    if relayerId ≠ [] then ((ss.put (lit ",\"relayer_id\":\"")).put (escapeJsonString relayerId)).put (lit "\"")
    else ss
  let ss := if 0 < latencyMs then (ss.put (lit ",\"latency_ms\":")).put (printDouble latencyMs) else ss
  let ss := ss.put (lit "\x7d")
  ss.str

/-- What one character adds to the text. -/
def escapeByte (c : UInt8) : Bytes := (escapeStep .new c).str

theorem escapeStep_written (text : Bytes) (c : UInt8) :
    escapeStep (.written text) c = .written (text ++ escapeByte c) := by
  unfold escapeByte escapeStep
  split_ifs with h1 h2 h3 h4 h5 h6 h7 h8
  · simp
  · simp
  · simp
  · simp
  · simp
  · simp
  · simp
  · have small : c.toNat < 2 ^ 32 := lt_of_lt_of_le c.toNat_lt (by decide)
    simp only [OStringStream.new_eq_written, OStringStream.put_written, OStringStream.put_hex_field _ _ _ small,
      OStringStream.str_written, List.nil_append, List.append_assoc]
  · simp

theorem escapeJsonString_eq (input : Bytes) : escapeJsonString input = input.flatMap escapeByte := by
  have loop : ∀ text, input.foldl escapeStep (.written text) = .written (text ++ input.flatMap escapeByte) := by
    induction input with
    | nil => simp
    | cons c input ih =>
      intro text
      rw [List.foldl_cons, escapeStep_written, ih, List.flatMap_cons, List.append_assoc]
  rw [escapeJsonString, OStringStream.new_eq_written, loop]
  simp

theorem control_digits (i : Fin 32) :
    let digits := OStringStream.hexText i.val
    let text := List.replicate (4 - digits.length) 48 ++ digits
    text = [48, 48, text.getD 2 0, text.getD 3 0] ∧ hexQuad 48 48 (text.getD 2 0) (text.getD 3 0) = some i.val ∧
      utf8 i.val = [UInt8.ofNat i.val] := by
  revert i
  decide

theorem character_escapeByte (c : UInt8) : Character (escapeByte c) [c] := by
  unfold escapeByte escapeStep
  split_ifs with h1 h2 h3 h4 h5 h6 h7 h8
  · exact h1 ▸ .short (by decide)
  · exact h2 ▸ .short (by decide)
  · exact h3 ▸ .short (by decide)
  · exact h4 ▸ .short (by decide)
  · exact h5 ▸ .short (by decide)
  · exact h6 ▸ .short (by decide)
  · exact h7 ▸ .short (by decide)
  · have small : c.toNat < 32 := by simpa [UInt8.lt_iff_toNat_lt] using h8
    have field := OStringStream.put_hex_field (lit "\\u") 4 c.toNat (by omega)
    obtain ⟨digits, code, denoted⟩ := control_digits ⟨c.toNat, small⟩
    have valid : c.toNat.isValidChar := .inl (by omega)
    rw [OStringStream.new_eq_written, OStringStream.put_written, List.nil_append, field, List.append_assoc]
    rw [UInt8.ofNat_toNat] at denoted
    rw [← denoted, digits]
    exact .unicode code valid
  · have printable : 32 ≤ c := by simpa [UInt8.le_iff_toNat_le, UInt8.lt_iff_toNat_lt] using h8
    simpa using Character.plain printable h1 h2

theorem characters_escapeJsonString (s : Bytes) : Characters (escapeJsonString s) s := by
  rw [escapeJsonString_eq]
  induction s with
  | nil => exact .nil
  | cons c s ih =>
    rw [List.flatMap_cons]
    exact .cons (character_escapeByte c) ih

/-- A latency in milliseconds, a finite `double`, beside the number that a stream prints for it. -/
structure Latency where
  ms : ℚ
  printed : NumberText
  valid : printed.Valid

def Latency.unknown : Latency := ⟨0, ⟨false, lit "0", none, none⟩, by constructor <;> simp; decide⟩

/-- A member of a line. -/
inductive Entry
  | string (name s : Bytes)
  | number (name : Bytes) (n : UInt64)
  | latency (name : Bytes) (l : Latency)

namespace Entry

def name : Entry → Bytes
  | string name _ | number name _ | latency name _ => name

def member : Entry → Bytes × Json
  | string name s => (name, .string s)
  | number name n => (name, .number n.toNat)
  | latency name l => (name, .number l.printed.value)

def text : Entry → Bytes
  | string name s => 34 :: (name ++ 34 :: 58 :: 34 :: (escapeJsonString s ++ [34]))
  | number name n => 34 :: (name ++ 34 :: 58 :: decimal n.toNat)
  | latency name l => 34 :: (name ++ 34 :: 58 :: l.printed.text)

/-- An optional member is there unless its value is empty or 0. -/
def unlessEmpty : Entry → List Entry
  | string name s => if s = [] then [] else [string name s]
  | number name n => if n = 0 then [] else [number name n]
  | latency name l => if 0 < l.ms then [latency name l] else []

theorem derives_text {e : Entry} (plain : ∀ b ∈ e.name, isPlain b = true) : Derives (.member e.member) e.text := by
  cases e with
  | string name s => exact derives_member (characters_plain plain) (.string (characters_escapeJsonString s))
  | number name n => exact derives_member (characters_plain plain) (derives_decimal n.toNat)
  | latency name l => exact derives_member (characters_plain plain) (.number l.valid)

theorem printable_text {e : Entry} (plain : ∀ b ∈ e.name, isPlain b = true) : ∀ b ∈ e.text, 32 ≤ b := by
  have named := printable_characters (characters_plain plain)
  cases e with
  | string name s =>
    have inside := printable_characters (characters_escapeJsonString s)
    simp only [text, List.forall_mem_cons, List.forall_mem_append]
    exact ⟨by decide, named, by decide, by decide, by decide, inside, by simp⟩
  | number name n =>
    simp only [text, List.forall_mem_cons, List.forall_mem_append]
    exact ⟨by decide, named, by decide, by decide, printable_digits fun b hb => decimal_isDigit hb⟩
  | latency name l =>
    simp only [text, List.forall_mem_cons, List.forall_mem_append]
    exact ⟨by decide, named, by decide, by decide, printable_number l.valid⟩

end Entry

def entriesLine (entries : List Entry) : Bytes := 123 :: ([44].intercalate (entries.map Entry.text) ++ [125])

theorem text_entriesLine {entries : List Entry} (some_entry : entries ≠ [])
    (plain : ∀ e ∈ entries, ∀ b ∈ e.name, isPlain b = true) :
    Text (.object (entries.map Entry.member)) (entriesLine entries) := by
  apply text_object (by simpa using some_entry)
  rw [List.forall₂_map_left_iff, List.forall₂_map_right_iff, List.forall₂_same]
  exact fun e he => e.derives_text (plain e he)

theorem printable_intercalate {texts : List Bytes} (h : ∀ t ∈ texts, ∀ b ∈ t, (32 : UInt8) ≤ b) :
    ∀ b ∈ [44].intercalate texts, (32 : UInt8) ≤ b := by
  induction texts with
  | nil => simp
  | cons t texts ih =>
    have rest := ih fun u hu => h u (by simp [hu])
    cases texts with
    | nil => simpa using h t (by simp)
    | cons u texts =>
      rw [List.intercalate_cons_cons]
      simp only [List.forall_mem_append]
      exact ⟨⟨h t (by simp), by simp⟩, rest⟩

theorem printable_entriesLine {entries : List Entry} (plain : ∀ e ∈ entries, ∀ b ∈ e.name, isPlain b = true) :
    ∀ b ∈ entriesLine entries, 32 ≤ b := by
  have inside : ∀ b ∈ [44].intercalate (entries.map Entry.text), (32 : UInt8) ≤ b := by
    apply printable_intercalate
    simp only [List.forall_mem_map]
    exact fun e he => e.printable_text (plain e he)
  unfold entriesLine
  simp only [List.forall_mem_cons, List.forall_mem_append]
  exact ⟨by decide, inside, by decide, by simp⟩

theorem put_string (text opening name s closing tail : Bytes) (ho : opening = 34 :: (name ++ [34, 58, 34]))
    (hc : closing = 34 :: tail) :
    (((OStringStream.written text).put opening).put (escapeJsonString s)).put closing =
      .written (text ++ (Entry.string name s).text ++ tail) := by
  simp [ho, hc, Entry.text]

theorem put_number (text opening name : Bytes) (n : UInt64) (ho : opening = 34 :: (name ++ [34, 58])) :
    ((OStringStream.written text).put opening).putUInt64 n = .written (text ++ (Entry.number name n).text) := by
  simp [ho, Entry.text]

theorem put_optional_string (text opening name s : Bytes) (ho : opening = 44 :: 34 :: (name ++ [34, 58, 34])) :
    (if s ≠ [] then (((OStringStream.written text).put opening).put (escapeJsonString s)).put (lit "\"")
      else .written text) =
      .written (text ++ ((Entry.string name s).unlessEmpty.map Entry.text).flatMap ([44] ++ ·)) := by
  have quote : lit "\"" = [34] := rfl
  by_cases h : s = []
  · simp [Entry.unlessEmpty, h]
  · simp [Entry.unlessEmpty, h, ho, quote, Entry.text]

theorem put_optional_number (text opening name : Bytes) (n : UInt64) (ho : opening = 44 :: 34 :: (name ++ [34, 58])) :
    (if 0 < n then ((OStringStream.written text).put opening).putUInt64 n else .written text) =
      .written (text ++ ((Entry.number name n).unlessEmpty.map Entry.text).flatMap ([44] ++ ·)) := by
  by_cases h : n = 0
  · simp [Entry.unlessEmpty, h]
  · have positive : 0 < n := UInt64.pos_iff_ne_zero.mpr h
    simp [Entry.unlessEmpty, h, positive, ho, Entry.text]

theorem put_optional_latency (text opening name : Bytes) (l : Latency) (ho : opening = 44 :: 34 :: (name ++ [34, 58])) :
    (if 0 < l.ms then ((OStringStream.written text).put opening).put l.printed.text else .written text) =
      .written (text ++ ((Entry.latency name l).unlessEmpty.map Entry.text).flatMap ([44] ++ ·)) := by
  by_cases h : 0 < l.ms
  · simp [Entry.unlessEmpty, h, ho, Entry.text]
  · simp [Entry.unlessEmpty, h]

theorem escapeJsonString_plain {s : Bytes} (plain : ∀ b ∈ s, isPlain b = true) : escapeJsonString s = s := by
  rw [escapeJsonString_eq]
  induction s with
  | nil => rfl
  | cons c s ih =>
    have first : (32 ≤ c ∧ c ≠ 34) ∧ c ≠ 92 := by simpa [isPlain] using plain c (by simp)
    have control (d : UInt8) (small : ¬ 32 ≤ d) : c ≠ d := by
      rintro rfl
      exact small first.1.1
    have large : ¬ c < 32 := by simpa [UInt8.le_iff_toNat_le, UInt8.lt_iff_toNat_lt] using first.1.1
    have byte : escapeByte c = [c] := by
      simp [escapeByte, escapeStep, first, control 8 (by decide), control 12 (by decide), control 10 (by decide),
        control 13 (by decide), control 9 (by decide), large]
    rw [List.flatMap_cons, byte, ih fun b hb => plain b (by simp [hb])]
    rfl

theorem TxEventType.plain_name (event : TxEventType) : ∀ b ∈ event.name, isPlain b = true := by
  cases event with
  | created | submitted | received | includedInBlock | dropped | other _ => exact plain_of_all rfl

theorem IBCEventType.plain_name (event : IBCEventType) : ∀ b ∈ event.name, isPlain b = true := by
  cases event with
  | packetCreated | packetRelayed | packetReceived | ackGenerated | ackRelayed | ackReceived | other _ =>
    exact plain_of_all rfl

theorem eq_of_mem_unlessEmpty {e x : Entry} (h : x ∈ e.unlessEmpty) : x = e := by
  cases e with
  | string name s =>
    simp only [Entry.unlessEmpty] at h
    split_ifs at h
    · cases h
    · simpa using h
  | number name n =>
    simp only [Entry.unlessEmpty] at h
    split_ifs at h
    · cases h
    · simpa using h
  | latency name l =>
    simp only [Entry.unlessEmpty] at h
    split_ifs at h
    · simpa using h
    · cases h

def transactionEntries (now : Bytes) (event : TxEventType)
    (txId txType «from» «to» payload chainId nodeId : Bytes) (blockHeight : UInt64) : List Entry :=
  [.string (lit "ts") now, .string (lit "event") event.name, .string (lit "tx_id") txId,
    .string (lit "tx_type") txType, .string (lit "from") «from», .string (lit "to") «to»,
    .string (lit "payload") payload] ++
  ((Entry.string (lit "chain_id") chainId).unlessEmpty ++ (Entry.string (lit "node_id") nodeId).unlessEmpty ++
    (Entry.number (lit "block_height") blockHeight).unlessEmpty)

theorem transactionLine_eq (now : Bytes) (event : TxEventType)
    (txId txType «from» «to» payload chainId nodeId : Bytes) (blockHeight : UInt64) :
    transactionLine now event txId txType «from» «to» payload chainId nodeId blockHeight =
      entriesLine (transactionEntries now event txId txType «from» «to» payload chainId nodeId blockHeight) := by
  unfold transactionLine
  dsimp only
  rw [← escapeJsonString_plain event.plain_name, OStringStream.new_eq_written, OStringStream.put_written,
    put_string _ (lit "\"ts\":\"") (lit "ts") now (lit "\",") [44] rfl rfl,
    put_string _ (lit "\"event\":\"") (lit "event") event.name (lit "\",") [44] rfl rfl,
    put_string _ (lit "\"tx_id\":\"") (lit "tx_id") txId (lit "\",") [44] rfl rfl,
    put_string _ (lit "\"tx_type\":\"") (lit "tx_type") txType (lit "\",") [44] rfl rfl,
    put_string _ (lit "\"from\":\"") (lit "from") «from» (lit "\",") [44] rfl rfl,
    put_string _ (lit "\"to\":\"") (lit "to") «to» (lit "\",") [44] rfl rfl,
    put_string _ (lit "\"payload\":\"") (lit "payload") payload (lit "\"") [] rfl rfl,
    put_optional_string _ (lit ",\"chain_id\":\"") (lit "chain_id") chainId rfl,
    put_optional_string _ (lit ",\"node_id\":\"") (lit "node_id") nodeId rfl,
    put_optional_number _ (lit ",\"block_height\":") (lit "block_height") blockHeight rfl,
    OStringStream.put_written, OStringStream.str_written, entriesLine, transactionEntries, List.map_append,
    intercalate_append [44] (by simp)]
  have brace : lit "\x7b" = [123] ∧ lit "\x7d" = [125] := ⟨rfl, rfl⟩
  simp [brace, List.intercalate_cons_cons]

def ibcEntries (now : Bytes) (event : IBCEventType)
    (srcChain dstChain srcPort srcChannel dstPort dstChannel : Bytes) (sequence : UInt64)
    (payload relayerId : Bytes) (latency : Latency) : List Entry :=
  [.string (lit "ts") now, .string (lit "event") event.name, .string (lit "src_chain") srcChain,
    .string (lit "dst_chain") dstChain, .string (lit "src_port") srcPort, .string (lit "src_channel") srcChannel,
    .string (lit "dst_port") dstPort, .string (lit "dst_channel") dstChannel, .number (lit "sequence") sequence,
    .string (lit "payload") payload] ++
  ((Entry.string (lit "relayer_id") relayerId).unlessEmpty ++ (Entry.latency (lit "latency_ms") latency).unlessEmpty)

theorem ibcLine_eq {printDouble : ℚ → Bytes} {latency : Latency} (prints : printDouble latency.ms = latency.printed.text)
    (now : Bytes) (event : IBCEventType) (srcChain dstChain srcPort srcChannel dstPort dstChannel : Bytes)
    (sequence : UInt64) (payload relayerId : Bytes) :
    ibcLine printDouble now event srcChain dstChain srcPort srcChannel dstPort dstChannel sequence payload
        relayerId latency.ms =
      entriesLine (ibcEntries now event srcChain dstChain srcPort srcChannel dstPort dstChannel sequence payload
        relayerId latency) := by
  unfold ibcLine
  dsimp only
  rw [← escapeJsonString_plain event.plain_name, OStringStream.new_eq_written, OStringStream.put_written,
    put_string _ (lit "\"ts\":\"") (lit "ts") now (lit "\",") [44] rfl rfl,
    put_string _ (lit "\"event\":\"") (lit "event") event.name (lit "\",") [44] rfl rfl,
    put_string _ (lit "\"src_chain\":\"") (lit "src_chain") srcChain (lit "\",") [44] rfl rfl,
    put_string _ (lit "\"dst_chain\":\"") (lit "dst_chain") dstChain (lit "\",") [44] rfl rfl,
    put_string _ (lit "\"src_port\":\"") (lit "src_port") srcPort (lit "\",") [44] rfl rfl,
    put_string _ (lit "\"src_channel\":\"") (lit "src_channel") srcChannel (lit "\",") [44] rfl rfl,
    put_string _ (lit "\"dst_port\":\"") (lit "dst_port") dstPort (lit "\",") [44] rfl rfl,
    put_string _ (lit "\"dst_channel\":\"") (lit "dst_channel") dstChannel (lit "\",") [44] rfl rfl,
    put_number _ (lit "\"sequence\":") (lit "sequence") sequence rfl, OStringStream.put_written,
    put_string _ (lit "\"payload\":\"") (lit "payload") payload (lit "\"") [] rfl rfl,
    put_optional_string _ (lit ",\"relayer_id\":\"") (lit "relayer_id") relayerId rfl, prints,
    put_optional_latency _ (lit ",\"latency_ms\":") (lit "latency_ms") latency rfl,
    OStringStream.put_written, OStringStream.str_written, entriesLine, ibcEntries, List.map_append,
    intercalate_append [44] (by simp)]
  have brace : lit "\x7b" = [123] ∧ lit "\x7d" = [125] := ⟨rfl, rfl⟩
  have comma : lit "," = [44] := rfl
  simp [brace, comma, List.intercalate_cons_cons]

theorem ibcLine_unknown (printDouble : ℚ → Bytes) (now : Bytes) (event : IBCEventType)
    (srcChain dstChain srcPort srcChannel dstPort dstChannel : Bytes) (sequence : UInt64) (payload relayerId : Bytes) :
    ibcLine printDouble now event srcChain dstChain srcPort srcChannel dstPort dstChannel sequence payload
        relayerId 0 =
      entriesLine (ibcEntries now event srcChain dstChain srcPort srcChannel dstPort dstChannel sequence payload
        relayerId .unknown) := by
  have same : ibcLine printDouble now event srcChain dstChain srcPort srcChannel dstPort dstChannel sequence payload
      relayerId 0 = ibcLine (fun _ => lit "0") now event srcChain dstChain srcPort srcChannel dstPort dstChannel sequence
        payload relayerId 0 := by
    unfold ibcLine
    dsimp only
    rw [if_neg (lt_irrefl 0), if_neg (lt_irrefl 0)]
  rw [same]
  exact @ibcLine_eq (fun _ => lit "0") .unknown rfl now event srcChain dstChain srcPort srcChannel dstPort dstChannel
    sequence payload relayerId

theorem plain_transactionEntries (now : Bytes) (event : TxEventType)
    (txId txType «from» «to» payload chainId nodeId : Bytes) (blockHeight : UInt64) :
    ∀ e ∈ transactionEntries now event txId txType «from» «to» payload chainId nodeId blockHeight,
      ∀ b ∈ e.name, isPlain b = true := by
  have optional {e : Entry} (plain : ∀ b ∈ e.name, isPlain b = true) :
      ∀ x ∈ e.unlessEmpty, ∀ b ∈ x.name, isPlain b = true := fun x hx => eq_of_mem_unlessEmpty hx ▸ plain
  have chain : ∀ b ∈ lit "chain_id", isPlain b = true := plain_of_all rfl
  have node : ∀ b ∈ lit "node_id", isPlain b = true := plain_of_all rfl
  have height : ∀ b ∈ lit "block_height", isPlain b = true := plain_of_all rfl
  unfold transactionEntries
  simp only [List.forall_mem_append, List.forall_mem_cons, Entry.name]
  refine ⟨⟨?_, ?_, ?_, ?_, ?_, ?_, ?_, by simp⟩, ⟨optional chain, optional node⟩, optional height⟩
  all_goals exact plain_of_all rfl

theorem plain_ibcEntries (now : Bytes) (event : IBCEventType)
    (srcChain dstChain srcPort srcChannel dstPort dstChannel : Bytes) (sequence : UInt64)
    (payload relayerId : Bytes) (latency : Latency) :
    ∀ e ∈ ibcEntries now event srcChain dstChain srcPort srcChannel dstPort dstChannel sequence payload relayerId latency,
      ∀ b ∈ e.name, isPlain b = true := by
  have optional {e : Entry} (plain : ∀ b ∈ e.name, isPlain b = true) :
      ∀ x ∈ e.unlessEmpty, ∀ b ∈ x.name, isPlain b = true := fun x hx => eq_of_mem_unlessEmpty hx ▸ plain
  have relayer : ∀ b ∈ lit "relayer_id", isPlain b = true := plain_of_all rfl
  have milliseconds : ∀ b ∈ lit "latency_ms", isPlain b = true := plain_of_all rfl
  unfold ibcEntries
  simp only [List.forall_mem_append, List.forall_mem_cons, Entry.name]
  refine ⟨⟨?_, ?_, ?_, ?_, ?_, ?_, ?_, ?_, ?_, ?_, by simp⟩, optional relayer, optional milliseconds⟩
  all_goals exact plain_of_all rfl

end InterchainCommunication.DetailedLog
