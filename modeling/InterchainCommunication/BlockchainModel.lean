import InterchainCommunication.ChannelSequencing
import InterchainCommunication.PacketCodec
import Mathlib.Logic.Function.Basic

set_option autoImplicit false

namespace InterchainCommunication.BlockchainModel
open StringText CoreTypes MachineRuns PacketCodec ChannelSequencing

/-- `IBCRouter` is its list of bound pairs. A pair is never bound twice, so erasing
    the first match unbinds it. -/
structure IBCRouter where
  bindings : List (Bytes × Bytes)
  nodup : bindings.Nodup
  deriving DecidableEq

namespace IBCRouter

def isBound (r : IBCRouter) (port : PortId) (chan : ChannelId) : Bool :=
  r.bindings.contains (port.value, chan.value)

def bind (r : IBCRouter) (port : PortId) (chan : ChannelId) : IBCRouter × Status :=
  if h : r.isBound port chan then (r, ⟨.invalidState, lit "Binding already exists"⟩)
  else
    have fresh : (port.value, chan.value) ∉ r.bindings := by simpa [isBound] using h
    (⟨r.bindings ++ [(port.value, chan.value)], List.concat_eq_append ▸ r.nodup.concat fresh⟩,
      ⟨.ok, lit "Bound successfully"⟩)

def unbind (r : IBCRouter) (port : PortId) (chan : ChannelId) : IBCRouter × Status :=
  if r.isBound port chan then
    (⟨r.bindings.erase (port.value, chan.value), r.nodup.erase _⟩, ⟨.ok, lit "Unbound successfully"⟩)
  else (r, ⟨.notFound, lit "Binding not found"⟩)

end IBCRouter

structure Blockchain where
  chainId : Bytes
  chain : List Block
  nonempty : chain ≠ []
  mempool : List Transaction
  router : IBCRouter
  nodeIds : List Bytes
  channels : Bytes → Option IBCChannel

structure Outcome (α : Type) where
  chain : Blockchain
  ret : α
  effects : List Effect

def makeChannelKey (port : PortId) (chan : ChannelId) : Bytes := port.value ++ lit ":" ++ chan.value

/-- The acknowledgement `onIBCPacket` generates: source and destination change places. -/
def ackOf (pkt : IBCPacket) : IBCPacket where
  type := .ack
  srcChain := pkt.dstChain
  dstChain := pkt.srcChain
  srcPort := pkt.dstPort
  srcChannel := pkt.dstChannel
  dstPort := pkt.srcPort
  dstChannel := pkt.srcChannel
  sequence := pkt.sequence
  payload := lit "ack_" ++ decimal pkt.sequence.toNat

namespace Blockchain

def genesis (chainId : Bytes) : Block := ⟨⟨chainId, 0, [], 0, []⟩, [], []⟩

def new (chainId : Bytes) : Blockchain where
  chainId := chainId
  chain := [genesis chainId]
  nonempty := by simp
  mempool := []
  router := ⟨[], List.nodup_nil⟩
  nodeIds := []
  channels := fun _ => none

def store (b : Blockchain) (port : PortId) (chan : ChannelId) (ch : IBCChannel) : Blockchain :=
  { b with channels := Function.update b.channels (makeChannelKey port chan) (some ch) }

def getOrCreateChannel (b : Blockchain) (port : PortId) (chan : ChannelId) : Outcome IBCChannel :=
  match b.channels (makeChannelKey port chan) with
  | some ch => ⟨b, ch, []⟩
  | none =>
    let ch := IBCChannel.new b.chainId port chan
    ⟨b.store port chan ch, ch,
      [.log .info (lit "Created new IBC channel: " ++ makeChannelKey port chan)]⟩

/-- A failure to open that is not "already open". -/
def refused (s : Status) : Bool := !s.ok && s.code != .invalidState

def openChannel (b : Blockchain) (port : PortId) (chan : ChannelId) : Outcome Status :=
  let bound := b.router.bind port chan
  if !bound.2.ok then
    ⟨b, bound.2, [.log .warn (lit "Failed to bind channel in router: " ++ bound.2.message)]⟩
  else
    let got := { b with router := bound.1 }.getOrCreateChannel port chan
    let opened := got.ret.open
    let b' := got.chain.store port chan opened.1
    if refused opened.2 then
      ⟨b', opened.2, got.effects ++ [.log .warn (lit "Failed to open channel: " ++ opened.2.message)]⟩
    else
      ⟨b', ⟨.ok, []⟩, got.effects ++ [.log .info
        (lit "Channel opened and bound: port=" ++ port.value ++ lit " chan=" ++ chan.value)]⟩

/-- Only the router binding goes. The stored channel is not touched. -/
def closeChannel (b : Blockchain) (port : PortId) (chan : ChannelId) : Outcome Status :=
  let unbound := b.router.unbind port chan
  ⟨{ b with router := unbound.1 }, unbound.2, [
    if unbound.2.ok then
      .log .info (lit "Channel closed: port=" ++ port.value ++ lit " chan=" ++ chan.value)
    else .log .warn (lit "Failed to close channel: " ++ unbound.2.message)]⟩

def sendIBC (b : Blockchain) (port : PortId) (chan : ChannelId) (dstChain : Bytes)
    (dstPort : PortId) (dstChan : ChannelId) (payload : Bytes) : Outcome (Result IBCPacket) :=
  let got := b.getOrCreateChannel port chan
  let opened := got.ret.open
  let b₁ := got.chain.store port chan opened.1
  if refused opened.2 then ⟨b₁, ⟨opened.2, none⟩, got.effects⟩
  else
    let made := opened.1.makePacket dstChain dstPort dstChan payload
    let b₂ := b₁.store port chan made.1
    -- the status is Ok exactly when there is a packet
    match made.2.value with
    | none =>
      ⟨b₂, made.2, got.effects ++
        [.log .warn (lit "Failed to make IBC packet: " ++ made.2.status.message)]⟩
    | some pkt =>
      ⟨b₂, made.2, got.effects ++
        [.publish ⟨.ibcPacketSend, b.chainId, [], serializeIBCPacket pkt⟩,
          .incCounter (lit "ibc_packets_sent")]⟩

def onIBCPacket (b : Blockchain) (pkt : IBCPacket) : Outcome Status :=
  let got := b.getOrCreateChannel pkt.dstPort pkt.dstChannel
  let opened := got.ret.open
  let b₁ := got.chain.store pkt.dstPort pkt.dstChannel opened.1
  if refused opened.2 then ⟨b₁, opened.2, got.effects⟩
  else
    let accepted := opened.1.acceptPacket pkt
    let b₂ := b₁.store pkt.dstPort pkt.dstChannel accepted.1
    if accepted.2.ok then
      ⟨b₂, accepted.2, got.effects ++
        [.publish ⟨.ibcPacketRecv, b.chainId, [], lit "IBC packet received"⟩,
          .incCounter (lit "ibc_packets_received"),
          .publish ⟨.ibcAckSend, b.chainId, [], serializeIBCPacket (ackOf pkt)⟩,
          .log .debug (lit "Generated ack for packet seq=" ++ decimal pkt.sequence.toNat)]⟩
    else
      ⟨b₂, accepted.2, got.effects ++
        [.log .warn (lit "Failed to accept IBC packet: " ++ accepted.2.message)]⟩

def onIBCAck (b : Blockchain) (ack : IBCPacket) : Outcome Status :=
  ⟨b, ⟨.ok, lit "Ack processed"⟩,
    [.publish ⟨.ibcAckRecv, b.chainId, [], lit "IBC ack received"⟩,
      .incCounter (lit "ibc_acks_received"),
      .log .info (lit "IBC ack received for seq=" ++ decimal ack.sequence.toNat)]⟩

def head (b : Blockchain) : Block := b.chain.getLast b.nonempty

/-- The ledger is never empty, so the guard `!chain_.empty()` always holds. -/
def appendBlock (b : Blockchain) (blk : Block) : Outcome Status :=
  if blk.header.height ≠ b.head.header.height + 1 then
    ⟨b, ⟨.invalidState, lit "Block height mismatch"⟩,
      [.log .warn (lit "Block height mismatch: got " ++ decimal blk.header.height.toNat ++
        lit ", expected " ++ decimal (b.head.header.height + 1).toNat)]⟩
  else
    let text := lit "Block appended at height " ++ decimal blk.header.height.toNat
    ⟨{ b with chain := b.chain ++ [blk], nonempty := by simp }, ⟨.ok, lit "Block appended"⟩,
      [.publish ⟨.blockFinalized, b.chainId, [], text⟩, .incCounter (lit "blocks_appended"),
        .log .info text]⟩

def registerNodeId (b : Blockchain) (nodeId : Bytes) : Outcome Unit :=
  if b.nodeIds.contains nodeId then ⟨b, (), []⟩
  else ⟨{ b with nodeIds := b.nodeIds ++ [nodeId] }, (), [.log .info (lit "Node registered: " ++ nodeId)]⟩

/-- `mempool().add(tx)`, whose `verify` lets everything through. -/
def addTransaction (b : Blockchain) (tx : Transaction) : Blockchain :=
  { b with mempool := b.mempool ++ [tx] }

def drain (b : Blockchain) (maxTxs : ℕ) : Blockchain × List Transaction :=
  ({ b with mempool := b.mempool.drop maxTxs }, b.mempool.take maxTxs)

end Blockchain

inductive ChainOp
  | openChannel (port : PortId) (chan : ChannelId)
  | closeChannel (port : PortId) (chan : ChannelId)
  | sendIBC (port : PortId) (chan : ChannelId) (dstChain : Bytes) (dstPort : PortId)
      (dstChan : ChannelId) (payload : Bytes)
  | onIBCPacket (pkt : IBCPacket)
  | onIBCAck (ack : IBCPacket)
  | appendBlock (blk : Block)
  | registerNodeId (nodeId : Bytes)
  | addTransaction (tx : Transaction)
  | drain (maxTxs : ℕ)
  deriving DecidableEq

inductive ChainReply
  | status (s : Status)
  | packet (r : Result IBCPacket)
  | txs (l : List Transaction)
  | done
  deriving DecidableEq

def ChainReply.ok : ChainReply → Bool
  | status s => s.ok
  | packet r => r.status.ok
  | txs _ | done => true

def Blockchain.call (b : Blockchain) : ChainOp → Outcome ChainReply
  | .openChannel port chan => let o := b.openChannel port chan; ⟨o.chain, .status o.ret, o.effects⟩
  | .closeChannel port chan => let o := b.closeChannel port chan; ⟨o.chain, .status o.ret, o.effects⟩
  | .sendIBC port chan dstChain dstPort dstChan payload =>
    let o := b.sendIBC port chan dstChain dstPort dstChan payload
    ⟨o.chain, .packet o.ret, o.effects⟩
  | .onIBCPacket pkt => let o := b.onIBCPacket pkt; ⟨o.chain, .status o.ret, o.effects⟩
  | .onIBCAck ack => let o := b.onIBCAck ack; ⟨o.chain, .status o.ret, o.effects⟩
  | .appendBlock blk => let o := b.appendBlock blk; ⟨o.chain, .status o.ret, o.effects⟩
  | .registerNodeId nodeId => let o := b.registerNodeId nodeId; ⟨o.chain, .done, o.effects⟩
  | .addTransaction tx => ⟨b.addTransaction tx, .done, []⟩
  | .drain maxTxs => ⟨(b.drain maxTxs).1, .txs (b.drain maxTxs).2, []⟩

def chainMachine : Machine Blockchain ChainOp (ChainReply × List Effect) where
  step b op := let o := b.call op; (o.chain, (o.ret, o.effects))

end InterchainCommunication.BlockchainModel
