import InterchainCommunication.BlockchainSteps

set_option autoImplicit false

namespace InterchainCommunication.ChannelClosing
open StringText CoreTypes MachineRuns ChannelSequencing BlockchainModel BlockchainSteps

/-- The pair is closed from an Ok `closeChannel` until an Ok `openChannel`. -/
def closedBy (p : PortId × ChannelId) (closed : Bool) (e : ChainOp × ChainReply × List Effect) : Bool :=
  if !e.2.1.ok then closed
  else if e.1 = .closeChannel p.1 p.2 then true
  else if e.1 = .openChannel p.1 p.2 then false
  else closed

def closedAfter (p : PortId × ChannelId) (t : List (ChainOp × ChainReply × List Effect)) : Bool :=
  t.foldl (closedBy p) false

def carries (p : PortId × ChannelId) : ChainOp → Bool
  | .sendIBC port chan _ _ _ _ => (port, chan) == p
  | .onIBCPacket pkt => (pkt.dstPort, pkt.dstChannel) == p
  | _ => false

def packetOf : ChainReply → Option IBCPacket
  | .packet r => r.value
  | _ => none

/-- The call failed, made no packet and published nothing. -/
def Quiet (out : ChainReply × List Effect) : Prop :=
  out.1.ok = false ∧ packetOf out.1 = none ∧ published out.2 = []

/-- In the run, nothing gets through the pair while it is closed. -/
def ClosedCarriesNothing (p : PortId × ChannelId) (chainId : Bytes) (ops : List ChainOp) : Prop :=
  ∀ before op, before ++ [op] <+: ops →
    closedAfter p (chainMachine.trace (.new chainId) before) = true → carries p op = true →
    Quiet (chainMachine.step (chainMachine.final (.new chainId) before) op).2

/-- The operation does not send on the pair, and brings no packet for it that has the
    number its stored channel waits for. -/
def Avoids (p : PortId × ChannelId) (b : Blockchain) : ChainOp → Prop
  | .sendIBC port chan _ _ _ _ => (port, chan) ≠ p
  | .onIBCPacket pkt => (pkt.dstPort, pkt.dstChannel) = p → pkt.sequence ≠ (resolve b p.1 p.2).nextSeq
  | _ => True

def AvoidsWhileClosed (p : PortId × ChannelId) (chainId : Bytes) (ops : List ChainOp) : Prop :=
  ∀ before op, before ++ [op] <+: ops →
    closedAfter p (chainMachine.trace (.new chainId) before) = true →
    Avoids p (chainMachine.final (.new chainId) before) op

theorem sendIBC_not_quiet {b : Blockchain} (h : AllOpen b) (port : PortId) (chan : ChannelId)
    (dstChain : Bytes) (dstPort : PortId) (dstChan : ChannelId) (payload : Bytes) :
    ¬ Quiet (chainMachine.step b (.sendIBC port chan dstChain dstPort dstChan payload)).2 := by
  change ¬ Quiet (.packet (b.sendIBC port chan dstChain dstPort dstChan payload).ret, _)
  rw [sendIBC_eq h]
  rintro ⟨failed, -, -⟩
  exact absurd failed (by simp [ChainReply.ok, Status.ok])

theorem onIBCPacket_quiet {b : Blockchain} (h : AllOpen b) (pkt : IBCPacket) :
    Quiet (chainMachine.step b (.onIBCPacket pkt)).2 ↔
      pkt.sequence ≠ (resolve b pkt.dstPort pkt.dstChannel).nextSeq := by
  change Quiet (.status (b.onIBCPacket pkt).ret, (b.onIBCPacket pkt).effects) ↔ _
  constructor
  · rintro ⟨failed, -, -⟩ hs
    have ok : (b.onIBCPacket pkt).ret.ok = true := (onIBCPacket_ok h pkt).mpr hs
    exact absurd (ok.symm.trans failed) (by decide)
  · intro hs
    rw [onIBCPacket_reject h hs]
    exact ⟨rfl, rfl, by simp⟩

theorem quiet_iff_avoids {b : Blockchain} (h : AllOpen b) (p : PortId × ChannelId) (op : ChainOp) :
    (carries p op = true → Quiet (chainMachine.step b op).2) ↔ Avoids p b op := by
  cases op with
  | sendIBC port chan dstChain dstPort dstChan payload =>
    have loud := sendIBC_not_quiet h port chan dstChain dstPort dstChan payload
    simp only [carries, beq_iff_eq, Avoids, loud, imp_false, ne_eq]
  | onIBCPacket pkt =>
    rw [onIBCPacket_quiet h]
    simp only [carries, beq_iff_eq, Avoids]
    constructor <;> rintro hs rfl <;> exact hs rfl
  | openChannel | closeChannel | onIBCAck | appendBlock | registerNodeId | addTransaction | drain =>
    simp [carries, Avoids]

/-- A closed pair is silent in exactly the runs that leave it alone while it is closed. -/
theorem closed_carries_nothing_iff (p : PortId × ChannelId) (chainId : Bytes) (ops : List ChainOp) :
    ClosedCarriesNothing p chainId ops ↔ AvoidsWhileClosed p chainId ops := by
  have state (before : List ChainOp) := allOpen_final (allOpen_new chainId) before
  constructor
  · intro h before op hrun hclosed
    exact (quiet_iff_avoids (state before) p op).mp (h before op hrun hclosed)
  · intro h before op hrun hclosed
    exact (quiet_iff_avoids (state before) p op).mpr (h before op hrun hclosed)

theorem closed_channel_sends : ¬ ∀ p chainId ops, ClosedCarriesNothing p chainId ops := by
  intro h
  let port : PortId := ⟨lit "port-A"⟩
  let chan : ChannelId := ⟨lit "channel-A"⟩
  let send : ChainOp := .sendIBC port chan (lit "B") ⟨lit "port-B"⟩ ⟨lit "channel-B"⟩ (lit "x")
  have quiet := h (port, chan) (lit "A") [.openChannel port chan, .closeChannel port chan, send]
    [.openChannel port chan, .closeChannel port chan] send (List.prefix_refl _) (by decide) (by decide)
  exact absurd quiet.1 (by decide)

end InterchainCommunication.ChannelClosing
