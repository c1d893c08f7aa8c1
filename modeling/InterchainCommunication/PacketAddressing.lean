import InterchainCommunication.NodeSteps

set_option autoImplicit false

namespace InterchainCommunication.PacketAddressing
open StringText CoreTypes MachineRuns PacketCodec ChannelSequencing BlockchainModel BlockchainSteps
open ChainHistory NodeModel NodeSteps

/-- The chain as a guard of its own address. -/
def AcceptsOnlyItsOwn : Prop :=
  ∀ (chainId : Bytes) (ops : List ChainOp),
    let b := chainMachine.final (.new chainId) ops
    (∀ pkt, (b.onIBCPacket pkt).ret.ok = true → pkt.type = .data ∧ pkt.dstChain = chainId) ∧
      (∀ e ∈ ackEvents (chainMachine.trace (.new chainId) ops),
        ∃ ack, e.detail = serializeIBCPacket ack ∧ ack.srcChain = chainId) ∧
      ∀ pkt, pkt.dstChain ≠ chainId → published (b.onIBCPacket pkt).effects = [] ∧
        ∀ port chan, (resolve (b.onIBCPacket pkt).chain port chan).nextSeq = (resolve b port chan).nextSeq

theorem accepts_foreign_packet : ¬ AcceptsOnlyItsOwn := by
  intro h
  let pkt : IBCPacket := ⟨.ack, lit "C", lit "B", ⟨lit "p"⟩, ⟨lit "c"⟩, ⟨lit "q"⟩, ⟨lit "d"⟩, 1, []⟩
  have taken : ((Blockchain.new (lit "A")).onIBCPacket pkt).ret.ok = true := by decide
  have own := (h (lit "A") []).1 pkt taken
  exact absurd own.2 (by decide)

theorem rejected_unchanged {b : Blockchain} (h : AllOpen b) {pkt : IBCPacket}
    (failed : (b.onIBCPacket pkt).ret.ok = false) :
    published (b.onIBCPacket pkt).effects = [] ∧
      ∀ port chan, (resolve (b.onIBCPacket pkt).chain port chan).nextSeq = (resolve b port chan).nextSeq := by
  have hs : pkt.sequence ≠ (resolve b pkt.dstPort pkt.dstChannel).nextSeq := by
    intro hs
    rw [(onIBCPacket_ok h pkt).mpr hs] at failed
    exact absurd failed (by decide)
  rw [onIBCPacket_reject h hs]
  exact ⟨by simp, fun port chan => resolve_store_opened b _ _ _ _⟩

/-- What a chain checks, what it answers for, and what its node checks before it. -/
theorem accepts_by_number (chainId : Bytes) (ops : List ChainOp) :
    let b := chainMachine.final (.new chainId) ops
    let t := chainMachine.trace (.new chainId) ops
    (∀ pkt, (b.onIBCPacket pkt).ret.ok = true ↔
        pkt.sequence = (resolve b pkt.dstPort pkt.dstChannel).nextSeq) ∧
      (∀ pkt, (b.onIBCPacket pkt).ret.ok = false → published (b.onIBCPacket pkt).effects = [] ∧
        ∀ port chan, (resolve (b.onIBCPacket pkt).chain port chan).nextSeq = (resolve b port chan).nextSeq) ∧
      ackEvents t = (acceptedPackets t).map (ackEvent chainId) ∧
      ((∀ pkt ∈ acceptedPackets t, pkt.dstChain = chainId) → ∀ e ∈ ackEvents t,
        ∃ ack, deserializeIBCPacket e.detail = .ok ack ∧ ack.srcChain = chainId) ∧
      ∀ opens nodeId msg, ∀ pkt reply,
        (ChainOp.onIBCPacket pkt, reply) ∈ (handleMessage opens nodeId b msg).calls → pkt.type = .data := by
  intro b t
  have start : AllOpen (.new chainId) := allOpen_new chainId
  have now : AllOpen b := allOpen_final start ops
  have acks : ackEvents t = (acceptedPackets t).map (ackEvent chainId) := ackEvents_trace start ops
  refine ⟨onIBCPacket_ok now, fun pkt => rejected_unchanged now, acks, ?_, ?_⟩
  · intro own e he
    rw [acks, List.mem_map] at he
    obtain ⟨pkt, hpkt, rfl⟩ := he
    exact ⟨ackOf pkt, deserialize_serialize (ackOf pkt) (stoi_type (.inr rfl)), own pkt hpkt⟩
  · intro opens nodeId msg pkt reply call
    rcases handleMessage_does opens nodeId b msg with idle | ⟨op, asked, does⟩
    · rw [idle.calls] at call
      exact absurd call List.not_mem_nil
    · rw [does.calls, List.mem_singleton, Prod.mk.injEq] at call
      rw [← call.1] at asked
      exact asked.2.2

end InterchainCommunication.PacketAddressing
