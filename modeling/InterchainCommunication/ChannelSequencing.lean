import InterchainCommunication.CoreTypes
import InterchainCommunication.MachineRuns

set_option autoImplicit false

/-!
# One end of a channel

`IBCChannel` has one counter. `makePacket` takes its value for an outbound
packet, and `acceptPacket` compares an inbound packet with it, so both
directions advance the same count.
-/
namespace InterchainCommunication.ChannelSequencing
open StringText CoreTypes MachineRuns

inductive ChannelState
  | init | «open» | closed
  deriving DecidableEq, Repr

structure IBCChannel where
  chainId : Bytes
  port : PortId
  chan : ChannelId
  state : ChannelState
  nextSeq : UInt64
  deriving DecidableEq, Repr

namespace IBCChannel

def new (chainId : Bytes) (port : PortId) (chan : ChannelId) : IBCChannel :=
  ⟨chainId, port, chan, .init, 1⟩

def «open» (ch : IBCChannel) : IBCChannel × Status :=
  if ch.state = .closed then (ch, ⟨.channelClosed, lit "Channel is closed"⟩)
  else if ch.state = .open then (ch, ⟨.invalidState, lit "Channel already open"⟩)
  else ({ ch with state := .open }, ⟨.ok, lit "Channel opened"⟩)

def close (ch : IBCChannel) : IBCChannel × Status :=
  if ch.state = .closed then (ch, ⟨.channelClosed, lit "Channel already closed"⟩)
  else ({ ch with state := .closed }, ⟨.ok, lit "Channel closed"⟩)

def packet (ch : IBCChannel) (dstChain : Bytes) (dstPort : PortId) (dstChan : ChannelId)
    (payload : Bytes) : IBCPacket where
  type := .data
  srcChain := ch.chainId
  dstChain := dstChain
  srcPort := ch.port
  srcChannel := ch.chan
  dstPort := dstPort
  dstChannel := dstChan
  sequence := ch.nextSeq
  payload := payload

def makePacket (ch : IBCChannel) (dstChain : Bytes) (dstPort : PortId) (dstChan : ChannelId)
    (payload : Bytes) : IBCChannel × Result IBCPacket :=
  if ch.state ≠ .open then (ch, ⟨⟨.invalidState, lit "Channel not open"⟩, none⟩)
  else ({ ch with nextSeq := ch.nextSeq + 1 },
    ⟨⟨.ok, []⟩, some (ch.packet dstChain dstPort dstChan payload)⟩)

def acceptPacket (ch : IBCChannel) (pkt : IBCPacket) : IBCChannel × Status :=
  if ch.state ≠ .open then (ch, ⟨.channelClosed, lit "Channel not open"⟩)
  else if pkt.sequence ≠ ch.nextSeq then (ch, ⟨.invalidState, lit "Packet sequence mismatch"⟩)
  else ({ ch with nextSeq := ch.nextSeq + 1 }, ⟨.ok, lit "Packet accepted"⟩)

end IBCChannel

inductive ChannelOp
  | «open»
  | close
  | makePacket (dstChain : Bytes) (dstPort : PortId) (dstChan : ChannelId) (payload : Bytes)
  | acceptPacket (pkt : IBCPacket)
  deriving DecidableEq

inductive ChannelReply
  | status (s : Status)
  | packet (r : Result IBCPacket)
  deriving DecidableEq

def channelMachine : Machine IBCChannel ChannelOp ChannelReply where
  step ch
    | .open => (ch.open.1, .status ch.open.2)
    | .close => (ch.close.1, .status ch.close.2)
    | .makePacket dstChain dstPort dstChan payload =>
      let made := ch.makePacket dstChain dstPort dstChan payload
      (made.1, .packet made.2)
    | .acceptPacket pkt => ((ch.acceptPacket pkt).1, .status (ch.acceptPacket pkt).2)

/-- The sequence number an operation issues or consumes, when it succeeds at that. -/
def carried : ChannelOp × ChannelReply → Option UInt64
  | (.makePacket _ _ _ _, .packet r) => r.value.map (·.sequence)
  | (.acceptPacket pkt, .status s) => if s.ok then some pkt.sequence else none
  | _ => none

/-- `n` consecutive sequence numbers, wrapping as `uint64_t` does. -/
def numberedFrom (start : UInt64) : ℕ → List UInt64
  | 0 => []
  | n + 1 => start :: numberedFrom (start + 1) n

theorem numberedFrom_length (start : UInt64) (n : ℕ) : (numberedFrom start n).length = n := by
  induction n generalizing start with
  | zero => rfl
  | succ n ih => simp [numberedFrom, ih]

theorem add_ofNat_succ (start : UInt64) (n : ℕ) :
    start + UInt64.ofNat (n + 1) = start + 1 + UInt64.ofNat n := by
  rw [UInt64.ofNat_add, UInt64.add_comm (UInt64.ofNat n), ← UInt64.add_assoc]
  rfl

/-- An open channel either leaves everything as it is or spends exactly its next number. -/
theorem step_carried {ch : IBCChannel} (h : ch.state = .open) {op : ChannelOp} (hop : op ≠ .close) :
    (carried (op, (channelMachine.step ch op).2) = none ∧ (channelMachine.step ch op).1 = ch) ∨
      (carried (op, (channelMachine.step ch op).2) = some ch.nextSeq ∧
        (channelMachine.step ch op).1 = { ch with nextSeq := ch.nextSeq + 1 }) := by
  cases op with
  | «open» => exact .inl ⟨rfl, by simp [channelMachine, IBCChannel.open, h]⟩
  | close => exact absurd rfl hop
  | makePacket dstChain dstPort dstChan payload =>
    right
    simp [channelMachine, IBCChannel.makePacket, IBCChannel.packet, h, carried]
  | acceptPacket pkt =>
    by_cases hs : pkt.sequence = ch.nextSeq
    · right
      simp [channelMachine, IBCChannel.acceptPacket, h, carried, Status.ok, hs]
    · left
      simp [channelMachine, IBCChannel.acceptPacket, h, carried, Status.ok, hs]

/-- Every run on an open channel counts through the numbers, whichever operations succeed. -/
theorem run_carried {ch : IBCChannel} (h : ch.state = .open) (ops : List ChannelOp)
    (hops : ChannelOp.close ∉ ops) : ∃ n,
    (channelMachine.trace ch ops).filterMap carried = numberedFrom ch.nextSeq n ∧
      channelMachine.final ch ops = { ch with nextSeq := ch.nextSeq + UInt64.ofNat n } := by
  induction ops generalizing ch with
  | nil => exact ⟨0, rfl, by simp⟩
  | cons op ops ih =>
    have hop : op ≠ .close := fun e => hops (by simp [e])
    have hrest : ChannelOp.close ∉ ops := fun e => hops (by simp [e])
    rw [Machine.trace_cons, Machine.final_cons]
    rcases step_carried h hop with ⟨hnone, hst⟩ | ⟨hsome, hst⟩
    · obtain ⟨n, htr, hfin⟩ := ih h hrest
      refine ⟨n, ?_, ?_⟩
      · rw [List.filterMap_cons_none hnone, hst, htr]
      · rw [hst, hfin]
    · obtain ⟨n, htr, hfin⟩ := @ih { ch with nextSeq := ch.nextSeq + 1 } h hrest
      refine ⟨n + 1, ?_, ?_⟩
      · rw [List.filterMap_cons_some hsome, hst, htr]
        rfl
      · rw [hst, hfin, add_ofNat_succ]

theorem final_open {ch : IBCChannel} (h : ch.state = .open) (ops : List ChannelOp)
    (hops : ChannelOp.close ∉ ops) : (channelMachine.final ch ops).state = .open := by
  obtain ⟨n, _, hfin⟩ := run_carried h ops hops
  rw [hfin]
  exact h

def madePacket : ChannelOp × ChannelReply → Option IBCPacket
  | (.makePacket _ _ _ _, .packet r) => r.value
  | _ => none

def madePackets (t : List (ChannelOp × ChannelReply)) : List IBCPacket := t.filterMap madePacket

def inbound : ChannelOp → Option IBCPacket
  | .acceptPacket pkt => some pkt
  | _ => none

def acceptsInbound (t : List (ChannelOp × ChannelReply)) : Bool :=
  t.all fun
    | (.acceptPacket _, .status s) => s.ok
    | _ => true

def InOrder (pkts : List IBCPacket) : Prop :=
  pkts.map (·.sequence) = numberedFrom 1 pkts.length

theorem makePacket_open {ch : IBCChannel} (h : ch.state = .open) (dstChain : Bytes)
    (dstPort : PortId) (dstChan : ChannelId) (payload : Bytes) :
    ∃ pkt, (ch.makePacket dstChain dstPort dstChan payload).2 = ⟨⟨.ok, []⟩, some pkt⟩ ∧
      pkt.sequence = ch.nextSeq := by
  simp [IBCChannel.makePacket, IBCChannel.packet, h]

theorem acceptPacket_open {ch : IBCChannel} (h : ch.state = .open) (pkt : IBCPacket) :
    (ch.acceptPacket pkt).2.ok = true ↔ pkt.sequence = ch.nextSeq := by
  by_cases hs : pkt.sequence = ch.nextSeq <;> simp [IBCChannel.acceptPacket, h, hs, Status.ok]

theorem made_sequences {ch : IBCChannel} (h : ch.state = .open) (ops : List ChannelOp)
    (hops : ChannelOp.close ∉ ops) (silent : ops.filterMap inbound = []) :
    ∃ n, (madePackets (channelMachine.trace ch ops)).map (·.sequence) = numberedFrom ch.nextSeq n := by
  obtain ⟨n, htr, _⟩ := run_carried h ops hops
  refine ⟨n, ?_⟩
  rw [← htr, madePackets, List.map_filterMap]
  apply List.filterMap_congr
  intro e he
  have hop : e.1 ∈ ops := by
    rw [← channelMachine.trace_inputs ch ops]
    exact List.mem_map_of_mem he
  have hquiet := List.filterMap_eq_nil_iff.mp silent e.1 hop
  obtain ⟨op, reply⟩ := e
  cases op with
  | acceptPacket pkt => simp [inbound] at hquiet
  | «open» | close => rfl
  | makePacket => cases reply <;> rfl

theorem accepts_in_order {ch : IBCChannel} (h : ch.state = .open) (pkts : List IBCPacket)
    (order : pkts.map (·.sequence) = numberedFrom ch.nextSeq pkts.length) :
    acceptsInbound (channelMachine.trace ch (pkts.map .acceptPacket)) = true := by
  induction pkts generalizing ch with
  | nil => rfl
  | cons pkt pkts ih =>
    simp only [List.map_cons, List.length_cons, numberedFrom, List.cons.injEq] at order
    have hok := (acceptPacket_open h pkt).mpr order.1
    have hst : (ch.acceptPacket pkt).1 = { ch with nextSeq := ch.nextSeq + 1 } := by
      simp [IBCChannel.acceptPacket, h, order.1]
    have rest := @ih { ch with nextSeq := ch.nextSeq + 1 } h order.2
    rw [← hst] at rest
    simpa [acceptsInbound, channelMachine, hok] using rest

/-- Two counters would give this: whatever comes in, the packets made are numbered
    without gaps, and inbound packets in order are accepted whatever goes out. -/
def DirectionsIndependent : Prop :=
  ∀ (ch : IBCChannel) (ops : List ChannelOp), ch.state = .open → ch.nextSeq = 1 →
    ChannelOp.close ∉ ops → InOrder (madePackets (channelMachine.trace ch ops)) ∧
      (InOrder (ops.filterMap inbound) → acceptsInbound (channelMachine.trace ch ops) = true)

theorem directions_interfere : ¬ DirectionsIndependent := by
  intro h
  let pkt : IBCPacket := ⟨.data, lit "B", lit "A", ⟨lit "q"⟩, ⟨lit "d"⟩, ⟨lit "p"⟩, ⟨lit "c"⟩, 1, []⟩
  have run := (h ⟨lit "A", ⟨lit "p"⟩, ⟨lit "c"⟩, .open, 1⟩
    [.makePacket (lit "B") ⟨lit "q"⟩ ⟨lit "d"⟩ [], .acceptPacket pkt]
    rfl rfl (by decide)).2 rfl
  exact absurd run (by decide)

/-- The one count of both directions. An end that has only sent is in step with an
    end that has only received. -/
theorem directions_share_count {ch other : IBCChannel} (hopen : ch.state = .open)
    (hone : ch.nextSeq = 1) (hother : other.state = .open) (hfirst : other.nextSeq = 1)
    (ops : List ChannelOp) (hops : ChannelOp.close ∉ ops) :
    let t := channelMachine.trace ch ops
    let spent := t.filterMap carried
    let now := channelMachine.final ch ops
    spent = numberedFrom 1 spent.length ∧
      (∀ dstChain dstPort dstChan payload, ∃ pkt,
        (now.makePacket dstChain dstPort dstChan payload).2 = ⟨⟨.ok, []⟩, some pkt⟩ ∧
          pkt.sequence = 1 + UInt64.ofNat spent.length) ∧
      (∀ pkt, (now.acceptPacket pkt).2.ok = true ↔ pkt.sequence = 1 + UInt64.ofNat spent.length) ∧
      (∀ pkts, InOrder pkts → acceptsInbound (channelMachine.trace ch (pkts.map .acceptPacket)) = true) ∧
      (ops.filterMap inbound = [] → InOrder (madePackets t) ∧
        acceptsInbound (channelMachine.trace other ((madePackets t).map .acceptPacket)) = true) := by
  intro t spent now
  obtain ⟨n, htr, hfin⟩ := run_carried hopen ops hops
  have count : spent.length = n := by
    change (t.filterMap carried).length = n
    rw [htr, numberedFrom_length]
  have next : now.nextSeq = 1 + UInt64.ofNat spent.length := by
    change (channelMachine.final ch ops).nextSeq = _
    rw [hfin, hone, count]
  have still : now.state = .open := final_open hopen ops hops
  refine ⟨?_, ?_, ?_, ?_, ?_⟩
  · rw [count, ← hone]
    exact htr
  · intro dstChain dstPort dstChan payload
    obtain ⟨pkt, hmade, hseq⟩ := makePacket_open still dstChain dstPort dstChan payload
    exact ⟨pkt, hmade, hseq.trans next⟩
  · intro pkt
    rw [acceptPacket_open still, next]
  · intro pkts order
    exact accepts_in_order hopen pkts (by rw [hone]; exact order)
  · intro silent
    obtain ⟨m, hm⟩ := made_sequences hopen ops hops silent
    have order : InOrder (madePackets t) := by
      have length := congrArg List.length hm
      rw [List.length_map, numberedFrom_length] at length
      rw [InOrder, length, ← hone]
      exact hm
    exact ⟨order, accepts_in_order hother _ (by rw [hfirst]; exact order)⟩

theorem directions_share_count_pair :
    let a : IBCChannel := ⟨lit "A", ⟨lit "p"⟩, ⟨lit "c"⟩, .open, 1⟩
    let b : IBCChannel := ⟨lit "B", ⟨lit "q"⟩, ⟨lit "d"⟩, .open, 1⟩
    let ops : List ChannelOp := [.makePacket (lit "B") ⟨lit "q"⟩ ⟨lit "d"⟩ (lit "x")]
    acceptsInbound (channelMachine.trace b
      ((madePackets (channelMachine.trace a ops)).map .acceptPacket)) = true := by
  intro a b ops
  have h := @directions_share_count a b rfl rfl rfl rfl ops (by decide)
  exact (h.2.2.2.2 rfl).2

end InterchainCommunication.ChannelSequencing
