import InterchainCommunication.AckSoundness
import InterchainCommunication.SharedLog

set_option autoImplicit false

namespace InterchainCommunication.AuditTrail
open StringText CoreTypes MachineRuns JsonGrammar JsonReading DetailedLog StateLog LogFiles
open SharedLog (EventFile LogInput loggedMachine reads_own)
open EventLog (member_ibcEntries ibcMembers)
open BlockchainModel ChainHistory SimulationModel SimulationWiring SimulationSteps AckSoundness

/-- The events a chain writes. The others come from the relayers. -/
inductive ChainEvent
  | packetCreated
  | packetReceived
  | ackGenerated
  | ackReceived
  deriving DecidableEq

def ChainEvent.type : ChainEvent → IBCEventType
  | packetCreated => .packetCreated
  | packetReceived => .packetReceived
  | ackGenerated => .ackGenerated
  | ackReceived => .ackReceived

def ChainEvent.ofName (name : Bytes) : Option ChainEvent :=
  [packetCreated, packetReceived, ackGenerated, ackReceived].find? fun event => event.type.name = name

structure Logged where
  event : ChainEvent
  srcChain : Bytes
  dstChain : Bytes
  srcPort : Bytes
  srcChannel : Bytes
  dstPort : Bytes
  dstChannel : Bytes
  sequence : UInt64
  payload : Bytes
  deriving DecidableEq

namespace Logged

def of (event : ChainEvent) (pkt : IBCPacket) : Logged where
  event := event
  srcChain := pkt.srcChain
  dstChain := pkt.dstChain
  srcPort := pkt.srcPort.value
  srcChannel := pkt.srcChannel.value
  dstPort := pkt.dstPort.value
  dstChannel := pkt.dstChannel.value
  sequence := pkt.sequence
  payload := pkt.payload

def call (now : Bytes) (e : Logged) : LoggerCall :=
  .ibc now e.event.type e.srcChain e.dstChain e.srcPort e.srcChannel e.dstPort e.dstChannel e.sequence e.payload []
    .unknown

end Logged

/-- What a call on a chain writes, in this order. -/
def chainEvents (call : ChainOp × ChainReply) : List Logged :=
  (sentPacket call).toList.map (.of .packetCreated) ++
    (acceptedPacket call).toList.flatMap (fun pkt => [.of .packetReceived pkt, .of .ackGenerated (ackOf pkt)]) ++
    (processedAck call).toList.map (.of .ackReceived)

def eventsOf (out : SimOutput) : List Logged := out.calls.flatMap fun e => chainEvents e.2

def field (name : Bytes) : Json → Option Json
  | .object members => (members.find? fun m => m.1 = name).map Prod.snd
  | _ => none

def text : Json → Option Bytes
  | .string s => some s
  | _ => none

def count : Json → Option UInt64
  | .number q => some (UInt64.ofNat q.num.toNat)
  | _ => none

def Logged.read (v : Json) : Option Logged := do
  let event ← (field (lit "event") v).bind text
  return {
    event := ← ChainEvent.ofName event
    srcChain := ← (field (lit "src_chain") v).bind text
    dstChain := ← (field (lit "dst_chain") v).bind text
    srcPort := ← (field (lit "src_port") v).bind text
    srcChannel := ← (field (lit "src_channel") v).bind text
    dstPort := ← (field (lit "dst_port") v).bind text
    dstChannel := ← (field (lit "dst_channel") v).bind text
    sequence := ← (field (lit "sequence") v).bind count
    payload := ← (field (lit "payload") v).bind text }

theorem ofName_type (event : ChainEvent) : ChainEvent.ofName event.type.name = some event := by
  cases event <;> decide

theorem read_ibc (now : Bytes) (event : IBCEventType) (srcChain dstChain srcPort srcChannel dstPort dstChannel : Bytes)
    (sequence : UInt64) (payload relayerId : Bytes) (latency : Latency) :
    Logged.read (.object ((ibcEntries now event srcChain dstChain srcPort srcChannel dstPort dstChannel sequence payload
      relayerId latency).map Entry.member)) = (ChainEvent.ofName event.name).map fun e =>
        ⟨e, srcChain, dstChain, srcPort, srcChannel, dstPort, dstChannel, sequence, payload⟩ := by
  have number : count (.number sequence.toNat) = some sequence := by
    simp [count]
  have event_at : field (lit "event") (.object ((ibcEntries now event srcChain dstChain srcPort srcChannel dstPort
      dstChannel sequence payload relayerId latency).map Entry.member)) = some (.string event.name) := rfl
  unfold Logged.read
  rw [event_at]
  change (ChainEvent.ofName event.name).bind (fun e => (count (.number sequence.toNat)).bind fun n =>
    some (⟨e, srcChain, dstChain, srcPort, srcChannel, dstPort, dstChannel, n, payload⟩ : Logged)) = _
  rw [number]
  cases ChainEvent.ofName event.name <;> rfl

def loggedOf : LoggerCall → Option Logged
  | .ibc _ event srcChain dstChain srcPort srcChannel dstPort dstChannel sequence payload _ _ =>
    (ChainEvent.ofName event.name).map fun e =>
      ⟨e, srcChain, dstChain, srcPort, srcChannel, dstPort, dstChannel, sequence, payload⟩
  | _ => none

theorem loggedOf_call (now : Bytes) (e : Logged) : loggedOf (e.call now) = some e := by
  simp only [Logged.call, loggedOf, ofName_type, Option.map_some]

def ibcLog : EventFile Logged where
  category := .ibcEvents
  file := ibcEventsFile
  logged := loggedOf
  read := Logged.read
  fixed := by simp
  recorded call category' file' entries record := by
    cases call with
    | ibc now event srcChain dstChain srcPort srcChannel dstPort dstChannel sequence payload relayerId latency =>
      simp only [LoggerCall.record, Option.some.injEq, Prod.mk.injEq] at record
      obtain ⟨rfl, rfl, rfl⟩ := record
      exact .inl ⟨rfl, rfl, read_ibc ..⟩
    | transaction | networkDrop =>
      simp only [LoggerCall.record, Option.some.injEq, Prod.mk.injEq] at record
      obtain ⟨rfl, rfl, rfl⟩ := record
      exact .inr ⟨by decide, rfl⟩
    | nodeState now chainId nodeId =>
      simp only [LoggerCall.record, Option.some.injEq, Prod.mk.injEq] at record
      obtain ⟨rfl, rfl, rfl⟩ := record
      exact .inr ⟨(Owner.file_ne (.node chainId nodeId)).2.1, rfl⟩
    | relayerState now relayerId =>
      simp only [LoggerCall.record, Option.some.injEq, Prod.mk.injEq] at record
      obtain ⟨rfl, rfl, rfl⟩ := record
      exact .inr ⟨(Owner.file_ne (.relayer relayerId)).2.1, rfl⟩
    | enableCategory | flushAll => cases record
  unrecorded call none_recorded := by
    cases call with
    | enableCategory | flushAll => rfl
    | transaction | ibc | networkDrop | nodeState | relayerState => cases none_recorded

/-- What has to stand before an event. -/
def Cause (past : List Logged) (e : Logged) : Prop :=
  match e.event with
  | .packetCreated => True
  | .packetReceived => { e with event := .packetCreated } ∈ past
  | .ackGenerated => ∃ pkt, e = .of .ackGenerated (ackOf pkt) ∧ .of .packetReceived pkt ∈ past
  | .ackReceived => { e with event := .ackGenerated } ∈ past

def Caused (es : List Logged) : Prop := ∀ past e later, es = past ++ e :: later → Cause past e

theorem caused_append {es : List Logged} (h : Caused es) {new : List Logged}
    (each : ∀ past e later, new = past ++ e :: later → Cause (es ++ past) e) : Caused (es ++ new) := by
  intro past e later whole
  rcases List.append_eq_append_iff.mp whole with ⟨more, rfl, rest⟩ | ⟨more, rfl, rest⟩
  · exact each more e later rest
  · cases more with
    | nil =>
      have here := each [] e later rest.symm
      rw [List.append_nil, List.append_nil] at here
      exact here
    | cons x more =>
      rw [List.cons_append, List.cons.injEq] at rest
      obtain ⟨rfl, -⟩ := rest
      exact h past e more rfl

section Runs
variable {w : Wiring} {t : Traffic} {calls : Calls}

theorem mem_chainEvents {c : ℕ} {call : ChainOp × ChainReply} (inside : (c, call) ∈ calls) {e : Logged}
    (event : e ∈ chainEvents call) : e ∈ calls.flatMap fun x => chainEvents x.2 :=
  List.mem_flatMap.mpr ⟨(c, call), inside, event⟩

theorem created_of_sent {c : ℕ} {pkt : IBCPacket} (sent : SentBy calls c pkt) :
    Logged.of .packetCreated pkt ∈ calls.flatMap fun x => chainEvents x.2 := by
  obtain ⟨call, inside, value⟩ := sent
  refine mem_chainEvents inside ?_
  simp [chainEvents, value]

theorem generated_of_accepted {d : ℕ} {pkt : IBCPacket} (accepted : AcceptedBy calls d pkt) :
    Logged.of .ackGenerated (ackOf pkt) ∈ calls.flatMap fun x => chainEvents x.2 := by
  obtain ⟨call, inside, value⟩ := accepted
  refine mem_chainEvents inside ?_
  simp [chainEvents, value]

theorem asked_cause (authentic : Authentic w t calls) {c : ℕ} {op : ChainOp} {inboxes : List (List NodeModel.NodeMessage)}
    (asked : Asked w t c op inboxes) (reply : ChainReply) :
    ∀ past e later, chainEvents (op, reply) = past ++ e :: later →
      Cause ((calls.flatMap fun x => chainEvents x.2) ++ past) e := by
  intro past e later split
  cases op with
  | sendIBC port chan dstChain dstPort dstChan payload =>
    have created : e ∈ (sentPacket (.sendIBC port chan dstChain dstPort dstChan payload, reply)).toList.map
        (Logged.of .packetCreated) := by
      have inside : e ∈ chainEvents (.sendIBC port chan dstChain dstPort dstChan payload, reply) := by
        rw [split]
        simp
      simpa [chainEvents, acceptedPacket, processedAck] using inside
    obtain ⟨pkt, -, rfl⟩ := List.mem_map.mp created
    trivial
  | onIBCPacket pkt =>
    obtain ⟨⟨-, s, -, sent⟩, -⟩ := asked_packet authentic asked
    have events : chainEvents (.onIBCPacket pkt, reply) = [] ∨ chainEvents (.onIBCPacket pkt, reply) =
        [Logged.of .packetReceived pkt, Logged.of .ackGenerated (ackOf pkt)] := by
      cases reply with
      | status status => cases ok : status.ok <;> simp [chainEvents, sentPacket, acceptedPacket, processedAck, ok]
      | packet | txs | done => exact .inl rfl
    rcases events with none_there | two
    · rw [none_there] at split
      cases past <;> cases split
    · rw [two] at split
      cases past with
      | nil =>
        injection split with same
        subst same
        rw [List.append_nil]
        exact created_of_sent sent
      | cons x past =>
        injection split with same rest
        subst same
        cases past with
        | nil =>
          injection rest with same
          subst same
          exact ⟨pkt, rfl, by simp⟩
        | cons x past =>
          injection rest with _ rest
          cases past <;> cases rest
  | onIBCAck ack =>
    obtain ⟨⟨pkt, rfl, -, d, -, accepted⟩, -⟩ := asked_ack authentic asked
    have received : e ∈ (processedAck (.onIBCAck (ackOf pkt), reply)).toList.map (Logged.of .ackReceived) := by
      have inside : e ∈ chainEvents (.onIBCAck (ackOf pkt), reply) := by
        rw [split]
        simp
      simpa [chainEvents, sentPacket, acceptedPacket] using inside
    obtain ⟨ack, processed, rfl⟩ := List.mem_map.mp received
    have same : ack = ackOf pkt := by
      cases reply with
      | status status =>
        cases ok : status.ok with
        | false => simp [processedAck, ok] at processed
        | true => simpa [processedAck, ok] using processed
      | packet | txs | done => simp [processedAck] at processed
    rw [same]
    exact List.mem_append_left past (generated_of_accepted accepted)
  | openChannel | closeChannel | appendBlock | registerNodeId | addTransaction | drain =>
    have nothing : ∀ e', e' ∉ past ++ e :: later := by
      rw [← split]
      simp [chainEvents, sentPacket, acceptedPacket, processedAck]
    exact absurd (by simp) (nothing e)

theorem flow_caused {i : SimInput} {t' : Traffic} {new : Calls} (authentic : Authentic w t calls)
    (caused : Caused (calls.flatMap fun x => chainEvents x.2)) (flow : Flow w t i t' new) :
    Caused ((calls ++ new).flatMap fun x => chainEvents x.2) := by
  rw [List.flatMap_append]
  cases flow with
  | called _ c op reply inboxes asked own =>
    refine caused_append caused ?_
    rw [List.flatMap_singleton]
    exact asked_cause authentic asked reply
  | still | skipped | forwardedPacket | forwardedAck | dropped | delivered | lost | duplicated =>
    rw [List.flatMap_nil, List.append_nil]
    exact caused

theorem run_caused {s : Sim} (sound : Sound (wiring s)) (idle : Idle s) (is : List SimInput) :
    Caused ((callsIn (simMachine.trace s.start is)).flatMap fun x => chainEvents x.2) := by
  have run := traffic_invariant sound idle
    (I := fun t calls => Authentic (wiring s) t calls ∧ Caused (calls.flatMap fun x => chainEvents x.2)) is
    (fun quiet => ⟨authentic_quiet quiet, fun past e later split => by cases past <;> cases split⟩)
    fun t calls i t' new _ h flow => ⟨flow_authentic sound h.1 flow, flow_caused h.1 h.2 flow⟩
  exact run.1.2

end Runs

/-- Whatever the other components log in between, the events of the chains that are read back from the
    file are those of the calls of the run, in their order. A packet is received after it was created, an
    ack generated after its packet was received, and an ack received after it was generated. -/
theorem file_is_history (relayerCount : ℕ) (configs : List ChainConfig)
    (distinct : (configs.map (·.chainId)).Nodup) (opens : Bytes → Bool) {l : DetailedLogger}
    (start : DetailedLogger.new opens (fun _ => []) = .ok l) :
    ∃ s, Sim.init opens relayerCount configs = .ok s ∧
      ∀ is : List (LogInput SimInput), (∀ call, .other call ∈ is → ibcLog.Foreign call) →
        let M := loggedMachine simMachine eventsOf Logged.call opens
        let steps := is.filterMap LogInput.own?
        let events := ibcLog.readBack ((M.final (s.start, l) is).2.disk ibcEventsFile)
        (M.final (s.start, l) is).1 = simMachine.final s.start steps ∧
          events = (callsIn (simMachine.trace s.start steps)).flatMap (fun x => chainEvents x.2) ∧ Caused events := by
  obtain ⟨s, run, built⟩ := init_built opens relayerCount configs distinct
  refine ⟨s, run, fun is foreign => ?_⟩
  intro M steps events
  obtain ⟨sim, read⟩ := @reads_own _ _ _ _ simMachine eventsOf Logged.call opens ibcLog loggedOf_call (fun _ _ => trivial)
    l start is foreign s.start
  have same : events = (callsIn (simMachine.trace s.start steps)).flatMap fun x => chainEvents x.2 := by
    refine Eq.trans read ?_
    rw [callsIn, List.flatMap_assoc]
    rfl
  refine ⟨sim, same, ?_⟩
  rw [same]
  exact run_caused built.sound built.idle _

def trip : List (LogInput SimInput) :=
  .other (.ibc (lit "t") .packetRelayed (lit "A") (lit "B") [] [] [] [] 1 [] (lit "relayer-0") third) ::
    (thereAndBack ++ [SimInput.nodeStep 0]).map fun i => .own i fun _ => lit "t"

theorem file_is_history_trip :
    ∃ s l, Sim.init (fun _ => true) 1 twoChains = .ok s ∧ DetailedLogger.new (fun _ => true) (fun _ => []) = .ok l ∧
      let M := loggedMachine simMachine eventsOf Logged.call fun _ => true
      let events := ibcLog.readBack ((M.final (s.start, l) trip).2.disk ibcEventsFile)
      events.map Logged.event = [.packetCreated, .packetReceived, .ackGenerated, .ackReceived] ∧ Caused events := by
  obtain ⟨s, init, holds⟩ := file_is_history 1 twoChains (by decide) (fun _ => true)
    (l := ⟨fun _ => [], fun _ => none, fun _ => none, fun _ => true⟩) rfl
  have foreign : ∀ call, .other call ∈ trip → ibcLog.Foreign call := by
    intro call member
    rcases List.mem_cons.mp member with same | step
    · obtain rfl := LogInput.other.inj same
      exact ⟨rfl, trivial⟩
    · obtain ⟨i, -, other⟩ := List.mem_map.mp step
      cases other
  obtain ⟨-, history, caused⟩ := holds trip foreign
  have events : (Sim.init (fun _ => true) 1 twoChains).toOption.map (fun s =>
      ((callsIn (simMachine.trace s.start (thereAndBack ++ [SimInput.nodeStep 0]))).flatMap
        fun x => chainEvents x.2).map Logged.event) =
      some [.packetCreated, .packetReceived, .ackGenerated, .ackReceived] := by decide +kernel
  rw [init] at events
  refine ⟨s, _, init, rfl, ?_, caused⟩
  rw [history]
  exact Option.some.inj events

end InterchainCommunication.AuditTrail
