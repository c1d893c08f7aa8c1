import InterchainCommunication.CoreTypes
import InterchainCommunication.DelimitedText

set_option autoImplicit false

/-!
# The packet codec

`serializeIBCPacket` writes nine fields with `|` between them, and
`deserializeIBCPacket` reads them back through three character loops. The loops
are folds over the same accumulators as the source and are shown to compute the
functions of the delimited-text library.
-/
namespace InterchainCommunication.PacketCodec
open StringText CoreTypes

def pipe : UInt8 := 124
def backslash : UInt8 := 92

def escape (str : Bytes) : Bytes :=
  str.foldl (fun result c =>
    if c = pipe then result ++ [backslash, pipe]
    else if c = backslash then result ++ [backslash, backslash]
    else result ++ [c]) []

/-- The loop state is the text read so far and the `escaped` flag. -/
def unescapeStep (st : Bytes × Bool) (c : UInt8) : Bytes × Bool :=
  if st.2 then (st.1 ++ [c], false)
  else if c = backslash then (st.1, true)
  else (st.1 ++ [c], false)

def unescape (str : Bytes) : Bytes := (str.foldl unescapeStep ([], false)).1

structure SplitState where
  result : List Bytes
  current : Bytes
  escaped : Bool

def splitStep (delimiter : UInt8) (st : SplitState) (c : UInt8) : SplitState :=
  if st.escaped then { st with current := st.current ++ [c], escaped := false }
  else if c = backslash then { st with current := st.current ++ [c], escaped := true }
  else if c = delimiter then { st with result := st.result ++ [st.current], current := [] }
  else { st with current := st.current ++ [c] }

def split (str : Bytes) (delimiter : UInt8) : List Bytes :=
  let st := str.foldl (splitStep delimiter) ⟨[], [], false⟩
  st.result ++ [st.current]

def serializeIBCPacket (pkt : IBCPacket) : Bytes :=
  intText pkt.type.toInt ++ [pipe] ++
    escape pkt.srcChain ++ [pipe] ++
    escape pkt.dstChain ++ [pipe] ++
    escape pkt.srcPort.value ++ [pipe] ++
    escape pkt.srcChannel.value ++ [pipe] ++
    escape pkt.dstPort.value ++ [pipe] ++
    escape pkt.dstChannel.value ++ [pipe] ++
    decimal pkt.sequence.toNat ++ [pipe] ++
    escape pkt.payload

/-- The body of the `try` block: every field of the packet from its part. -/
def parseParts (type srcChain dstChain srcPort srcChannel dstPort dstChannel sequence payload : Bytes) :
    Except StdException IBCPacket := do
  let typeInt ← stoi type
  let seq ← stoull sequence
  return {
    type := .ofInt typeInt
    srcChain := unescape srcChain
    dstChain := unescape dstChain
    srcPort := ⟨unescape srcPort⟩
    srcChannel := ⟨unescape srcChannel⟩
    dstPort := ⟨unescape dstPort⟩
    dstChannel := ⟨unescape dstChannel⟩
    sequence := seq
    payload := unescape payload }

def deserializeIBCPacket (str : Bytes) : Except StdException IBCPacket :=
  match split str pipe with
  | [p0, p1, p2, p3, p4, p5, p6, p7, p8] =>
    match parseParts p0 p1 p2 p3 p4 p5 p6 p7 p8 with
    | .ok pkt => .ok pkt
    | .error e => .error (.runtimeError (lit "Failed to parse IBCPacket: " ++ e.what))
  | parts => .error (.runtimeError
      (lit "Invalid IBCPacket serialization format: expected 9 parts, got " ++ decimal parts.length))

theorem pipe_ne_backslash : pipe ≠ backslash := by decide

theorem escape_eq (str : Bytes) : escape str = DelimitedText.escape pipe backslash str := by
  have loop : ∀ result : Bytes, str.foldl (fun result c =>
      if c = pipe then result ++ [backslash, pipe]
      else if c = backslash then result ++ [backslash, backslash]
      else result ++ [c]) result = result ++ DelimitedText.escape pipe backslash str := by
    induction str with
    | nil => intro result; simp [DelimitedText.escape]
    | cons c str ih =>
      intro result
      rw [List.foldl_cons, ih, DelimitedText.escape_cons]
      by_cases hp : c = pipe
      · simp [hp]
      · by_cases hb : c = backslash
        · simp [hb, pipe_ne_backslash.symm]
        · simp [hp, hb]
  exact loop []

theorem unescape_eq (str : Bytes) : unescape str = DelimitedText.unescape backslash str := by
  have loop : ∀ result escaped, (str.foldl unescapeStep (result, escaped)).1 =
      result ++ DelimitedText.unescapeFrom backslash escaped str := by
    induction str with
    | nil => intro result escaped; cases escaped <;> simp [DelimitedText.unescapeFrom]
    | cons c str ih =>
      intro result escaped
      cases escaped with
      | true => simp [unescapeStep, DelimitedText.unescapeFrom, ih]
      | false => by_cases hb : c = backslash <;> simp [unescapeStep, DelimitedText.unescapeFrom, hb, ih]
  exact loop [] false

theorem split_eq (str : Bytes) : split str pipe = DelimitedText.split pipe backslash str := by
  have loop : ∀ st : SplitState,
      (str.foldl (splitStep pipe) st).result ++ [(str.foldl (splitStep pipe) st).current] =
        st.result ++ DelimitedText.splitFrom pipe backslash st.current st.escaped str := by
    induction str with
    | nil => intro st; simp [DelimitedText.splitFrom]
    | cons c str ih =>
      rintro ⟨result, current, escaped⟩
      rw [List.foldl_cons, ih]
      cases escaped with
      | true => simp [splitStep, DelimitedText.splitFrom]
      | false =>
        by_cases hb : c = backslash
        · simp [splitStep, DelimitedText.splitFrom, hb]
        · by_cases hp : c = pipe
          · simp [splitStep, DelimitedText.splitFrom, hp, pipe_ne_backslash]
          · simp [splitStep, DelimitedText.splitFrom, hb, hp]
  exact loop ⟨[], [], false⟩

@[simp] theorem unescape_escape (str : Bytes) : unescape (escape str) = str := by
  rw [unescape_eq, escape_eq, DelimitedText.unescape_escape]

def packetFields (pkt : IBCPacket) : List Bytes :=
  [intText pkt.type.toInt, escape pkt.srcChain, escape pkt.dstChain, escape pkt.srcPort.value,
    escape pkt.srcChannel.value, escape pkt.dstPort.value, escape pkt.dstChannel.value,
    decimal pkt.sequence.toNat, escape pkt.payload]

theorem serializeIBCPacket_eq (pkt : IBCPacket) :
    serializeIBCPacket pkt = [pipe].intercalate (packetFields pkt) := by
  simp [serializeIBCPacket, packetFields, List.intercalate_cons_cons]

theorem whole_decimal (n : ℕ) : DelimitedText.Whole pipe backslash (decimal n) := by
  apply DelimitedText.whole_of_plain
  intro b hb
  have digit := isDigit_toNat (decimal_isDigit hb)
  constructor <;> rintro rfl <;> exact absurd digit.2 (by decide)

theorem whole_intText (z : ℤ) : DelimitedText.Whole pipe backslash (intText z) := by
  unfold intText
  split
  · have minus : DelimitedText.Whole pipe backslash [45] :=
      DelimitedText.whole_singleton pipe backslash (by decide) (by decide)
    exact DelimitedText.whole_append pipe backslash minus (whole_decimal _)
  · exact whole_decimal _

theorem whole_packetFields (pkt : IBCPacket) :
    ∀ f ∈ packetFields pkt, DelimitedText.Whole pipe backslash f := by
  have text : ∀ s : Bytes, DelimitedText.Whole pipe backslash (escape s) := fun s => by
    rw [escape_eq]; exact DelimitedText.whole_escape pipe backslash s
  intro f hf
  simp only [packetFields, List.mem_cons, List.not_mem_nil, or_false] at hf
  rcases hf with rfl | rfl | rfl | rfl | rfl | rfl | rfl | rfl | rfl
  · exact whole_intText _
  · exact text _
  · exact text _
  · exact text _
  · exact text _
  · exact text _
  · exact text _
  · exact whole_decimal _
  · exact text _

theorem split_serializeIBCPacket (pkt : IBCPacket) :
    split (serializeIBCPacket pkt) pipe = packetFields pkt := by
  rw [split_eq, serializeIBCPacket_eq]
  exact DelimitedText.split_intercalate pipe backslash (by decide) _ (by simp [packetFields])
    (whole_packetFields pkt)

theorem stoi_type {t : IBCPacketType} (h : t = .data ∨ t = .ack) : stoi (intText t.toInt) = .ok t.toInt := by
  rcases h with rfl | rfl <;> decide

theorem parseParts_packetFields (pkt : IBCPacket)
    (h : stoi (intText pkt.type.toInt) = .ok pkt.type.toInt) :
    parseParts (intText pkt.type.toInt) (escape pkt.srcChain) (escape pkt.dstChain)
      (escape pkt.srcPort.value) (escape pkt.srcChannel.value) (escape pkt.dstPort.value)
      (escape pkt.dstChannel.value) (decimal pkt.sequence.toNat) (escape pkt.payload) = .ok pkt := by
  simp only [parseParts, h, stoull_decimal, unescape_escape]
  change Except.ok { pkt with type := .ofInt pkt.type.toInt } = Except.ok pkt
  rw [IBCPacketType.ofInt_toInt]

theorem deserialize_serialize (pkt : IBCPacket)
    (h : stoi (intText pkt.type.toInt) = .ok pkt.type.toInt) :
    deserializeIBCPacket (serializeIBCPacket pkt) = .ok pkt := by
  simp only [deserializeIBCPacket, split_serializeIBCPacket, packetFields]
  rw [parseParts_packetFields pkt h]

/-- A packet of either named type survives the wire in all nine fields. -/
theorem ibcPacket_round_trip (pkt : IBCPacket) (h : pkt.type = .data ∨ pkt.type = .ack) :
    deserializeIBCPacket (serializeIBCPacket pkt) = .ok pkt :=
  deserialize_serialize pkt (stoi_type h)

theorem ibcPacket_round_trip_backslashes :
    let pkt : IBCPacket := ⟨.ack, lit "a\\", lit "|b", ⟨lit "\\|"⟩, ⟨[]⟩, ⟨lit "|"⟩, ⟨lit "\\\\"⟩,
      18446744073709551615, lit "7|\\"⟩
    deserializeIBCPacket (serializeIBCPacket pkt) = .ok pkt :=
  ibcPacket_round_trip _ (.inr rfl)

end InterchainCommunication.PacketCodec
