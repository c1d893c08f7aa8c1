import InterchainCommunication.AckCounting
import InterchainCommunication.SimulationMoves

set_option autoImplicit false

namespace InterchainCommunication.MetricsLedger
open StringText CoreTypes MachineRuns BagCounting PacketCodec BlockchainModel ChainHistory NodeModel RelayerModel
open SimulationModel SimulationWiring SimulationSteps AckSoundness AckCounting SimulationMoves

/-- The counters of packets and acks, at the chains, the nodes and the relayers. -/
inductive Counter
  | packetsSent
  | packetsReceived
  | packetsProcessed
  | packetsFailed
  | acksReceived
  | acksProcessed
  | acksFailed
  | deserializationErrors
  | relayerPacketsQueued
  | relayerPacketsRelayed
  | relayerPacketsFailed
  | relayerAcksQueued
  | relayerAcksRelayed
  | relayerAcksFailed
  | relayerDeserializationErrors
  deriving DecidableEq

def Counter.name : Counter → Bytes
  | packetsSent => lit "ibc_packets_sent"
  | packetsReceived => lit "ibc_packets_received"
  | packetsProcessed => lit "ibc_packets_processed"
  | packetsFailed => lit "ibc_packets_failed"
  | acksReceived => lit "ibc_acks_received"
  | acksProcessed => lit "ibc_acks_processed"
  | acksFailed => lit "ibc_acks_failed"
  | deserializationErrors => lit "ibc_deserialization_errors"
  | relayerPacketsQueued => lit "relayer_packets_queued"
  | relayerPacketsRelayed => lit "relayer_packets_relayed"
  | relayerPacketsFailed => lit "relayer_packets_failed"
  | relayerAcksQueued => lit "relayer_acks_queued"
  | relayerAcksRelayed => lit "relayer_acks_relayed"
  | relayerAcksFailed => lit "relayer_acks_failed"
  | relayerDeserializationErrors => lit "relayer_deserialization_errors"

def Counter.all : List Counter :=
  [packetsSent, packetsReceived, packetsProcessed, packetsFailed, acksReceived, acksProcessed, acksFailed,
    deserializationErrors, relayerPacketsQueued, relayerPacketsRelayed, relayerPacketsFailed, relayerAcksQueued,
    relayerAcksRelayed, relayerAcksFailed, relayerDeserializationErrors]

theorem Counter.mem_all (c : Counter) : c ∈ Counter.all := by
  cases c <;> decide

theorem Counter.name_injective : Function.Injective Counter.name := by
  have distinct : (Counter.all.map Counter.name).Nodup := by decide +kernel
  exact fun c c' same => List.inj_on_of_nodup_map distinct c.mem_all c'.mem_all same

def tally (names : List Bytes) (c : Counter) : ℕ := names.count c.name

@[simp] theorem tally_nil (c : Counter) : tally [] c = 0 := rfl

@[simp] theorem tally_append (xs ys : List Bytes) (c : Counter) : tally (xs ++ ys) c = tally xs c + tally ys c :=
  List.count_append ..

theorem tally_name (c c' : Counter) : tally [c'.name] c = if c' = c then 1 else 0 := by
  rw [tally, List.count_singleton]
  simp only [beq_iff_eq, Counter.name_injective.eq_iff]

theorem tally_replicate (n : ℕ) (c c' : Counter) :
    tally (List.replicate n c'.name) c = if c' = c then n else 0 := by
  rw [tally, List.count_replicate]
  simp only [beq_iff_eq, Counter.name_injective.eq_iff]

def bears (type : IBCPacketType) (msg : NodeMessage) : Bool :=
  msg.kind == .ibc &&
    match deserializeIBCPacket msg.bytes with
    | .ok p => p.type == type
    | .error _ => false

def taskBears (type : IBCPacketType) (task : Bytes × Bytes) : Bool :=
  match deserializeNodeMessage task.2 with
  | .ok msg => bears type msg
  | .error _ => false

/-- Messages of a type between the relayers and the chains: in the transport or in an inbox. -/
def flying (type : IBCPacketType) (t : Traffic) : ℕ :=
  t.tasks.countP (taskBears type) + weight (bears type) t.inboxes

def waiting (queues : List (List IBCPacket)) : ℕ := weight (fun _ => true) queues

/-- Where every message is, with `R` relayers and the counters at `v`. -/
structure Balanced (R : ℕ) (v : Counter → ℕ) (t : Traffic) : Prop where
  packetsQueued : v .relayerPacketsQueued = R * v .packetsSent
  packetsLeft : v .relayerPacketsQueued =
    v .relayerPacketsRelayed + v .relayerPacketsFailed + waiting t.packets
  packetsHanded : v .relayerPacketsRelayed = v .packetsReceived + v .packetsFailed + flying .data t
  packetsProcessed : v .packetsProcessed = v .packetsReceived
  acksQueued : v .relayerAcksQueued = R * v .packetsReceived
  acksLeft : v .relayerAcksQueued = v .relayerAcksRelayed + v .relayerAcksFailed + waiting t.acks
  acksHanded : v .relayerAcksRelayed = v .acksReceived + flying .ack t
  acksProcessed : v .acksProcessed = v .acksReceived
  noErrors : v .acksFailed = 0 ∧ v .relayerDeserializationErrors = 0
  snapshots : v .deserializationErrors ≤ v .packetsReceived + v .packetsFailed + v .acksReceived

theorem bears_brings {msg : NodeMessage} {p : IBCPacket} (h : Brings msg p) (type : IBCPacketType) :
    bears type msg = (p.type == type) := by
  simp [bears, h.kind, h.read]

theorem taskBears_read {task : Bytes × Bytes} {msg : NodeMessage} (read : deserializeNodeMessage task.2 = .ok msg)
    (type : IBCPacketType) : taskBears type task = bears type msg := by
  rw [taskBears, read]

theorem taskBears_posted {w : Wiring} (sound : Sound w) {r : ℕ} {p : IBCPacket} {task : Bytes × Bytes}
    (known : p.type = .data ∨ p.type = .ack) (posted : Posted w r p task) (type : IBCPacketType) :
    taskBears type task = (p.type == type) := by
  obtain ⟨msg, read, kind, bytes, -⟩ := posted_read sound posted
  have brings : Brings msg p := ⟨kind, by rw [bytes]; exact deserialize_serialize p (stoi_type known)⟩
  rw [taskBears_read read, bears_brings brings]

def booked (v : Counter → ℕ) (names : List Bytes) (c : Counter) : ℕ := v c + tally names c

section Moves
variable {R : ℕ} {v : Counter → ℕ} {t : Traffic}

theorem waiting_broadcast {queues : List (List IBCPacket)} (count : queues.length = R) (p : Option IBCPacket) :
    waiting (queues.map (· ++ p.toList)) = waiting queues + R * p.toList.length := by
  rw [waiting, weight_broadcast, count, List.countP_true]
  rfl

theorem balanced_sent (h : Balanced R v t) (queues : t.packets.length = R) (pkt : IBCPacket) :
    Balanced R (booked v (Counter.packetsSent.name :: List.replicate R Counter.relayerPacketsQueued.name))
      { t with packets := t.packets.map (· ++ [pkt]) } := by
  have spread : waiting (t.packets.map (· ++ [pkt])) = waiting t.packets + R * 1 :=
    waiting_broadcast queues (some pkt)
  have steps (c : Counter) :
      tally (Counter.packetsSent.name :: List.replicate R Counter.relayerPacketsQueued.name) c =
        (if Counter.packetsSent = c then 1 else 0) + if Counter.relayerPacketsQueued = c then R else 0 := by
    rw [← List.singleton_append, tally_append, tally_name, tally_replicate]
  obtain ⟨queued, left, handed, processed, queuedAcks, leftAcks, handedAcks, processedAcks, errors, snapshots⟩ := h
  have same (type : IBCPacketType) : flying type { t with packets := t.packets.map (· ++ [pkt]) } = flying type t := rfl
  constructor <;>
    simp only [booked, steps, same, spread, reduceCtorEq, if_true, if_false, Nat.mul_add, Nat.mul_one] <;> omega

end Moves

/-- What the books say when nothing waits and nothing is in flight. -/
structure Settled (R : ℕ) (v : Counter → ℕ) : Prop where
  packets : R * v .packetsSent = v .packetsReceived + v .packetsFailed + v .relayerPacketsFailed
  acks : R * v .packetsReceived = v .acksReceived + v .relayerAcksFailed

theorem flying_quiet {t : Traffic} (quiet : Quiet t) (type : IBCPacketType) : flying type t = 0 := by
  rw [flying, quiet.tasks, weight_empty _ quiet.inboxes]
  rfl

theorem Balanced.settled {R : ℕ} {v : Counter → ℕ} {t : Traffic} (h : Balanced R v t) (quiet : Quiet t) :
    Settled R v := by
  obtain ⟨queued, left, handed, processed, queuedAcks, leftAcks, handedAcks, processedAcks, errors, snapshots⟩ := h
  have packets : waiting t.packets = 0 := weight_empty _ quiet.packets
  have acks : waiting t.acks = 0 := weight_empty _ quiet.acks
  rw [flying_quiet quiet] at handed handedAcks
  constructor <;> omega

theorem balanced_quiet (R : ℕ) {t : Traffic} (quiet : Quiet t) : Balanced R (tally []) t := by
  have packets : waiting t.packets = 0 := weight_empty _ quiet.packets
  have acks : waiting t.acks = 0 := weight_empty _ quiet.acks
  have nothing := flying_quiet quiet
  constructor <;> simp only [tally_nil, packets, acks, nothing, Nat.mul_zero, Nat.add_zero, and_self, le_refl]

end InterchainCommunication.MetricsLedger
