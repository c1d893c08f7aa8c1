import InterchainCommunication.BlockchainModel

set_option autoImplicit false

namespace InterchainCommunication.BlockchainSteps
open StringText CoreTypes MachineRuns PacketCodec ChannelSequencing BlockchainModel

namespace IBCRouter

theorem bind_ok (r : IBCRouter) (port : PortId) (chan : ChannelId) :
    (r.bind port chan).2.ok = !r.isBound port chan := by
  unfold IBCRouter.bind
  split <;> rename_i h <;> simp [h, Status.ok]

theorem pair_value {port port' : PortId} {chan chan' : ChannelId} :
    (port'.value, chan'.value) = (port.value, chan.value) ↔ port' = port ∧ chan' = chan := by
  cases port; cases port'; cases chan; cases chan'
  simp

theorem isBound_iff (r : IBCRouter) (port : PortId) (chan : ChannelId) :
    r.isBound port chan = true ↔ (port.value, chan.value) ∈ r.bindings := by
  simp [IBCRouter.isBound]

theorem bind_isBound (r : IBCRouter) (port port' : PortId) (chan chan' : ChannelId) :
    (r.bind port chan).1.isBound port' chan' = true ↔
      r.isBound port' chan' = true ∨ (port' = port ∧ chan' = chan) := by
  unfold IBCRouter.bind
  split
  · rename_i h
    refine ⟨.inl, ?_⟩
    rintro (bound | ⟨rfl, rfl⟩)
    · exact bound
    · exact h
  · simp only [isBound_iff, List.mem_append, List.mem_singleton, pair_value]

theorem unbind_isBound (r : IBCRouter) (port port' : PortId) (chan chan' : ChannelId) :
    (r.unbind port chan).1.isBound port' chan' = true ↔
      r.isBound port' chan' = true ∧ ¬(port' = port ∧ chan' = chan) := by
  unfold IBCRouter.unbind
  split
  · simp only [isBound_iff, r.nodup.mem_erase_iff, ne_eq, pair_value]
    exact and_comm
  · rename_i h
    refine ⟨fun bound => ⟨bound, ?_⟩, And.left⟩
    rintro ⟨rfl, rfl⟩
    exact h bound

end IBCRouter

/-- The channel a call on the pair works with. -/
def resolve (b : Blockchain) (port : PortId) (chan : ChannelId) : IBCChannel :=
  (b.channels (makeChannelKey port chan)).getD (IBCChannel.new b.chainId port chan)

def AllOpen (b : Blockchain) : Prop :=
  ∀ key ch, b.channels key = some ch → ch.state = .open

theorem AllOpen.resolve {b : Blockchain} (h : AllOpen b) (port : PortId) (chan : ChannelId) :
    (resolve b port chan).state ≠ .closed := by
  unfold BlockchainSteps.resolve
  cases hc : b.channels (makeChannelKey port chan) with
  | none => simp [IBCChannel.new]
  | some ch => simp [h _ _ hc]

def opened (ch : IBCChannel) : IBCChannel := { ch with state := .open }

/-- The channel after it has spent a number. -/
def advanced (ch : IBCChannel) : IBCChannel := { ch with state := .open, nextSeq := ch.nextSeq + 1 }

theorem open_fst {ch : IBCChannel} (h : ch.state ≠ .closed) : ch.open.1 = opened ch := by
  obtain ⟨chainId, port, chan, state, nextSeq⟩ := ch
  cases state with
  | init | «open» => rfl
  | closed => exact absurd rfl h

theorem open_refused {ch : IBCChannel} (h : ch.state ≠ .closed) :
    Blockchain.refused ch.open.2 = false := by
  obtain ⟨chainId, port, chan, state, nextSeq⟩ := ch
  cases state with
  | init | «open» => rfl
  | closed => exact absurd rfl h

@[simp] theorem store_store (b : Blockchain) (port : PortId) (chan : ChannelId) (ch ch' : IBCChannel) :
    (b.store port chan ch).store port chan ch' = b.store port chan ch' := by
  simp [Blockchain.store]

theorem store_same (b : Blockchain) (port : PortId) (chan : ChannelId) (ch : IBCChannel) :
    (b.store port chan ch).channels (makeChannelKey port chan) = some ch := by
  simp [Blockchain.store]

theorem store_other (b : Blockchain) {port : PortId} {chan : ChannelId} (ch : IBCChannel) {key : Bytes}
    (h : key ≠ makeChannelKey port chan) : (b.store port chan ch).channels key = b.channels key :=
  Function.update_of_ne h _ _

@[simp] theorem resolve_store_same (b : Blockchain) (port : PortId) (chan : ChannelId) (ch : IBCChannel) :
    resolve (b.store port chan ch) port chan = ch := by
  rw [resolve, store_same]
  rfl

theorem resolve_store_other (b : Blockchain) {port port' : PortId} {chan chan' : ChannelId} (ch : IBCChannel)
    (h : makeChannelKey port' chan' ≠ makeChannelKey port chan) :
    resolve (b.store port chan ch) port' chan' = resolve b port' chan' := by
  rw [resolve, store_other b ch h]
  rfl

theorem resolve_store_opened (b : Blockchain) (port port' : PortId) (chan chan' : ChannelId) :
    (resolve (b.store port chan (opened (resolve b port chan))) port' chan').nextSeq =
      (resolve b port' chan').nextSeq := by
  by_cases same : makeChannelKey port' chan' = makeChannelKey port chan
  · have stored : (b.store port chan (opened (resolve b port chan))).channels (makeChannelKey port' chan') =
        some (opened (resolve b port chan)) := by
      rw [same]
      exact store_same b port chan _
    unfold resolve at stored ⊢
    rw [stored, same]
    cases b.channels (makeChannelKey port chan) <;> rfl
  · rw [resolve_store_other b _ same]

theorem getOrCreateChannel_ret (b : Blockchain) (port : PortId) (chan : ChannelId) :
    (b.getOrCreateChannel port chan).ret = resolve b port chan := by
  unfold Blockchain.getOrCreateChannel resolve
  split <;> rename_i h <;> simp [h]

@[simp] theorem getOrCreateChannel_store (b : Blockchain) (port : PortId) (chan : ChannelId)
    (ch : IBCChannel) : (b.getOrCreateChannel port chan).chain.store port chan ch = b.store port chan ch := by
  unfold Blockchain.getOrCreateChannel
  split <;> simp

@[simp] theorem getOrCreateChannel_published (b : Blockchain) (port : PortId) (chan : ChannelId) :
    published (b.getOrCreateChannel port chan).effects = [] := by
  unfold Blockchain.getOrCreateChannel
  split <;> rfl

@[simp] theorem getOrCreateChannel_counted (b : Blockchain) (port : PortId) (chan : ChannelId) :
    counted (b.getOrCreateChannel port chan).effects = [] := by
  unfold Blockchain.getOrCreateChannel
  split <;> rfl

section Calls
variable {b : Blockchain} (h : AllOpen b)
include h

theorem sendIBC_eq (port : PortId) (chan : ChannelId) (dstChain : Bytes) (dstPort : PortId)
    (dstChan : ChannelId) (payload : Bytes) :
    b.sendIBC port chan dstChain dstPort dstChan payload =
      ⟨b.store port chan (advanced (resolve b port chan)),
        ⟨⟨.ok, []⟩, some ((resolve b port chan).packet dstChain dstPort dstChan payload)⟩,
        (b.getOrCreateChannel port chan).effects ++
          [.publish ⟨.ibcPacketSend, b.chainId, [], serializeIBCPacket
            ((resolve b port chan).packet dstChain dstPort dstChan payload)⟩,
            .incCounter (lit "ibc_packets_sent")]⟩ := by
  have live := h.resolve port chan
  simp only [Blockchain.sendIBC, getOrCreateChannel_ret, getOrCreateChannel_store, store_store,
    open_refused live, open_fst live]
  rfl

theorem onIBCPacket_accept {pkt : IBCPacket}
    (hs : pkt.sequence = (resolve b pkt.dstPort pkt.dstChannel).nextSeq) :
    b.onIBCPacket pkt =
      ⟨b.store pkt.dstPort pkt.dstChannel (advanced (resolve b pkt.dstPort pkt.dstChannel)),
        ⟨.ok, lit "Packet accepted"⟩,
        (b.getOrCreateChannel pkt.dstPort pkt.dstChannel).effects ++
          [.publish ⟨.ibcPacketRecv, b.chainId, [], lit "IBC packet received"⟩,
            .incCounter (lit "ibc_packets_received"),
            .publish ⟨.ibcAckSend, b.chainId, [], serializeIBCPacket (ackOf pkt)⟩,
            .log .debug (lit "Generated ack for packet seq=" ++ decimal pkt.sequence.toNat)]⟩ := by
  have live := h.resolve pkt.dstPort pkt.dstChannel
  have taken : (opened (resolve b pkt.dstPort pkt.dstChannel)).acceptPacket pkt =
      (advanced (resolve b pkt.dstPort pkt.dstChannel), ⟨.ok, lit "Packet accepted"⟩) := by
    simp [IBCChannel.acceptPacket, opened, advanced, hs]
  simp only [Blockchain.onIBCPacket, getOrCreateChannel_ret, getOrCreateChannel_store, store_store,
    open_refused live, open_fst live, taken]
  rfl

theorem onIBCPacket_reject {pkt : IBCPacket}
    (hs : pkt.sequence ≠ (resolve b pkt.dstPort pkt.dstChannel).nextSeq) :
    b.onIBCPacket pkt =
      ⟨b.store pkt.dstPort pkt.dstChannel (opened (resolve b pkt.dstPort pkt.dstChannel)),
        ⟨.invalidState, lit "Packet sequence mismatch"⟩,
        (b.getOrCreateChannel pkt.dstPort pkt.dstChannel).effects ++
          [.log .warn (lit "Failed to accept IBC packet: " ++ lit "Packet sequence mismatch")]⟩ := by
  have live := h.resolve pkt.dstPort pkt.dstChannel
  have refused : (opened (resolve b pkt.dstPort pkt.dstChannel)).acceptPacket pkt =
      (opened (resolve b pkt.dstPort pkt.dstChannel),
        ⟨.invalidState, lit "Packet sequence mismatch"⟩) := by
    simp [IBCChannel.acceptPacket, opened, hs]
  simp only [Blockchain.onIBCPacket, getOrCreateChannel_ret, getOrCreateChannel_store, store_store,
    open_refused live, open_fst live, refused]
  rfl

theorem onIBCPacket_ok (pkt : IBCPacket) : (b.onIBCPacket pkt).ret.ok = true ↔
    pkt.sequence = (resolve b pkt.dstPort pkt.dstChannel).nextSeq := by
  by_cases hs : pkt.sequence = (resolve b pkt.dstPort pkt.dstChannel).nextSeq
  · rw [onIBCPacket_accept h hs]
    exact ⟨fun _ => hs, fun _ => rfl⟩
  · rw [onIBCPacket_reject h hs]
    exact ⟨fun ok => absurd ok Bool.false_ne_true, fun ok => absurd ok hs⟩

theorem openChannel_unbound {port : PortId} {chan : ChannelId}
    (hb : b.router.isBound port chan = false) :
    b.openChannel port chan =
      ⟨{ b with router := (b.router.bind port chan).1 }.store port chan (opened (resolve b port chan)),
        ⟨.ok, []⟩, (b.getOrCreateChannel port chan).effects ++ [.log .info
          (lit "Channel opened and bound: port=" ++ port.value ++ lit " chan=" ++ chan.value)]⟩ := by
  have live := h.resolve port chan
  have bound : (b.router.bind port chan).2.ok = true := by rw [IBCRouter.bind_ok, hb]; rfl
  have same : ({ b with router := (b.router.bind port chan).1 }.getOrCreateChannel port chan).effects =
      (b.getOrCreateChannel port chan).effects := by
    unfold Blockchain.getOrCreateChannel
    dsimp only
    cases b.channels (makeChannelKey port chan) <;> rfl
  have ret : resolve { b with router := (b.router.bind port chan).1 } port chan = resolve b port chan := rfl
  simp only [Blockchain.openChannel, getOrCreateChannel_ret, getOrCreateChannel_store, bound, same, ret,
    open_refused live, open_fst live]
  rfl

end Calls

theorem openChannel_bound (b : Blockchain) {port : PortId} {chan : ChannelId}
    (hb : b.router.isBound port chan = true) :
    (b.openChannel port chan).chain = b ∧ (b.openChannel port chan).ret.ok = false ∧
      published (b.openChannel port chan).effects = [] := by
  have refused : (b.router.bind port chan).2.ok = false := by rw [IBCRouter.bind_ok, hb]; rfl
  simp [Blockchain.openChannel, refused]

theorem allOpen_store {b : Blockchain} (h : AllOpen b) (port : PortId) (chan : ChannelId)
    {ch : IBCChannel} (hch : ch.state = .open) : AllOpen (b.store port chan ch) := by
  intro key ch' hkey
  by_cases same : key = makeChannelKey port chan
  · subst same
    rw [store_same, Option.some.injEq] at hkey
    exact hkey ▸ hch
  · rw [store_other b ch same] at hkey
    exact h key ch' hkey

theorem call_allOpen {b : Blockchain} (h : AllOpen b) (op : ChainOp) : AllOpen (b.call op).chain := by
  cases op with
  | openChannel port chan =>
    cases hb : b.router.isBound port chan with
    | true =>
      change AllOpen (b.openChannel port chan).chain
      rw [(openChannel_bound b hb).1]
      exact h
    | false =>
      change AllOpen (b.openChannel port chan).chain
      rw [openChannel_unbound h hb]
      exact allOpen_store (b := { b with router := _ }) h port chan rfl
  | closeChannel port chan => exact h
  | sendIBC port chan dstChain dstPort dstChan payload =>
    change AllOpen (b.sendIBC port chan dstChain dstPort dstChan payload).chain
    rw [sendIBC_eq h]
    exact allOpen_store h port chan rfl
  | onIBCPacket pkt =>
    change AllOpen (b.onIBCPacket pkt).chain
    by_cases hs : pkt.sequence = (resolve b pkt.dstPort pkt.dstChannel).nextSeq
    · rw [onIBCPacket_accept h hs]
      exact allOpen_store h _ _ rfl
    · rw [onIBCPacket_reject h hs]
      exact allOpen_store h _ _ rfl
  | appendBlock blk =>
    change AllOpen (b.appendBlock blk).chain
    unfold Blockchain.appendBlock
    split <;> exact h
  | registerNodeId nodeId =>
    change AllOpen (b.registerNodeId nodeId).chain
    unfold Blockchain.registerNodeId
    split <;> exact h
  | onIBCAck | addTransaction | drain => exact h

theorem allOpen_new (chainId : Bytes) : AllOpen (Blockchain.new chainId) := by
  intro key ch hkey
  simp [Blockchain.new] at hkey

theorem allOpen_final {b : Blockchain} (h : AllOpen b) (ops : List ChainOp) :
    AllOpen (chainMachine.final b ops) :=
  chainMachine.invariant ops h fun _ op _ hb => call_allOpen hb op

def pair : ChainOp → Option (PortId × ChannelId)
  | .openChannel port chan | .closeChannel port chan | .sendIBC port chan _ _ _ _ => some (port, chan)
  | .onIBCPacket pkt => some (pkt.dstPort, pkt.dstChannel)
  | _ => none

/-- The channel a call leaves in the table, if it writes one. It is stored under the
    key of the pair the call names. -/
def written (b : Blockchain) : ChainOp → Option IBCChannel
  | .openChannel port chan =>
    if b.router.isBound port chan then none else some (opened (resolve b port chan))
  | .sendIBC port chan _ _ _ _ => some (advanced (resolve b port chan))
  | .onIBCPacket pkt =>
    let ch := resolve b pkt.dstPort pkt.dstChannel
    some (if pkt.sequence = ch.nextSeq then advanced ch else opened ch)
  | _ => none

def mempoolAfter (pool : List Transaction) : ChainOp → List Transaction
  | .addTransaction tx => pool ++ [tx]
  | .drain maxTxs => pool.drop maxTxs
  | _ => pool

theorem getOrCreateChannel_same (b : Blockchain) (port : PortId) (chan : ChannelId) :
    (b.getOrCreateChannel port chan).chain.chainId = b.chainId ∧
      (b.getOrCreateChannel port chan).chain.mempool = b.mempool ∧
      (b.getOrCreateChannel port chan).chain.chain = b.chain := by
  unfold Blockchain.getOrCreateChannel
  split <;> exact ⟨rfl, rfl, rfl⟩

/-- No call changes the name, only `add` and `drain` move the mempool, and only `appendBlock` the ledger. -/
theorem call_same (b : Blockchain) (op : ChainOp) :
    (b.call op).chain.chainId = b.chainId ∧ (b.call op).chain.mempool = mempoolAfter b.mempool op ∧
      ((∀ blk, op ≠ .appendBlock blk) → (b.call op).chain.chain = b.chain) := by
  have created (b' : Blockchain) (port : PortId) (chan : ChannelId) :
      (b'.getOrCreateChannel port chan).chain.chainId = b'.chainId ∧
        (b'.getOrCreateChannel port chan).chain.mempool = b'.mempool ∧
        ((∀ blk, op ≠ .appendBlock blk) → (b'.getOrCreateChannel port chan).chain.chain = b'.chain) := by
    obtain ⟨chainId, mempool, chain⟩ := getOrCreateChannel_same b' port chan
    exact ⟨chainId, mempool, fun _ => chain⟩
  cases op with
  | openChannel port chan =>
    simp only [Blockchain.call, Blockchain.openChannel]
    split
    · exact ⟨rfl, rfl, fun _ => rfl⟩
    · split <;> exact created { b with router := (b.router.bind port chan).1 } port chan
  | sendIBC port chan dstChain dstPort dstChan payload =>
    simp only [Blockchain.call, Blockchain.sendIBC]
    split
    · exact created b port chan
    · split <;> exact created b port chan
  | onIBCPacket pkt =>
    simp only [Blockchain.call, Blockchain.onIBCPacket]
    split
    · exact created b _ _
    · split <;> exact created b _ _
  | appendBlock blk =>
    simp only [Blockchain.call, Blockchain.appendBlock]
    split <;> exact ⟨rfl, rfl, fun other => absurd rfl (other blk)⟩
  | registerNodeId nodeId =>
    simp only [Blockchain.call, Blockchain.registerNodeId]
    split <;> exact ⟨rfl, rfl, fun _ => rfl⟩
  | closeChannel | onIBCAck | addTransaction | drain => exact ⟨rfl, rfl, fun _ => rfl⟩

theorem call_chainId (b : Blockchain) (op : ChainOp) : (b.call op).chain.chainId = b.chainId := (call_same b op).1

theorem call_mempool (b : Blockchain) (op : ChainOp) :
    (b.call op).chain.mempool = mempoolAfter b.mempool op := (call_same b op).2.1

theorem call_chain (b : Blockchain) {op : ChainOp} (other : ∀ blk, op ≠ .appendBlock blk) :
    (b.call op).chain.chain = b.chain := (call_same b op).2.2 other

theorem call_channels {b : Blockchain} (h : AllOpen b) {op : ChainOp} {port : PortId} {chan : ChannelId}
    (hop : pair op = some (port, chan)) : (b.call op).chain.channels =
      match written b op with
      | none => b.channels
      | some ch => Function.update b.channels (makeChannelKey port chan) (some ch) := by
  cases op with
  | openChannel port' chan' =>
    obtain ⟨rfl, rfl⟩ : port' = port ∧ chan' = chan := by simpa [pair] using hop
    change (b.openChannel port' chan').chain.channels = _
    cases hb : b.router.isBound port' chan' with
    | true => simp [(openChannel_bound b hb).1, written, hb]
    | false => rw [openChannel_unbound h hb]; simp [written, hb, Blockchain.store]
  | closeChannel port' chan' => rfl
  | sendIBC port' chan' dstChain dstPort dstChan payload =>
    obtain ⟨rfl, rfl⟩ : port' = port ∧ chan' = chan := by simpa [pair] using hop
    change (b.sendIBC port' chan' dstChain dstPort dstChan payload).chain.channels = _
    rw [sendIBC_eq h]; rfl
  | onIBCPacket pkt =>
    obtain ⟨rfl, rfl⟩ : pkt.dstPort = port ∧ pkt.dstChannel = chan := by simpa [pair] using hop
    change (b.onIBCPacket pkt).chain.channels = _
    by_cases hs : pkt.sequence = (resolve b pkt.dstPort pkt.dstChannel).nextSeq
    · rw [onIBCPacket_accept h hs]; simp [written, hs, Blockchain.store]
    · rw [onIBCPacket_reject h hs]; simp [written, hs, Blockchain.store]
  | onIBCAck | appendBlock | registerNodeId | addTransaction | drain => simp [pair] at hop

theorem call_channels_none {b : Blockchain} {op : ChainOp} (hop : pair op = none) :
    (b.call op).chain.channels = b.channels ∧ (b.call op).chain.router = b.router := by
  cases op with
  | openChannel | closeChannel | sendIBC | onIBCPacket => simp [pair] at hop
  | appendBlock blk =>
    change (b.appendBlock blk).chain.channels = _ ∧ (b.appendBlock blk).chain.router = _
    unfold Blockchain.appendBlock
    split <;> exact ⟨rfl, rfl⟩
  | registerNodeId nodeId =>
    change (b.registerNodeId nodeId).chain.channels = _ ∧ (b.registerNodeId nodeId).chain.router = _
    unfold Blockchain.registerNodeId
    split <;> exact ⟨rfl, rfl⟩
  | onIBCAck | addTransaction | drain => exact ⟨rfl, rfl⟩

/-- A call works with the channel under the key, or it stays off it. -/
theorem touches_or_off (op : ChainOp) (key : Bytes) : (∃ p, pair op = some p ∧ makeChannelKey p.1 p.2 = key) ∨
    ∀ port chan, pair op = some (port, chan) → makeChannelKey port chan ≠ key := by
  by_cases touched : ∃ p, pair op = some p ∧ makeChannelKey p.1 p.2 = key
  · exact .inl touched
  · exact .inr fun port chan names same => touched ⟨(port, chan), names, same⟩

theorem call_channels_other {b : Blockchain} (h : AllOpen b) {op : ChainOp} {key : Bytes}
    (hop : ∀ port chan, pair op = some (port, chan) → makeChannelKey port chan ≠ key) :
    (b.call op).chain.channels key = b.channels key := by
  cases hp : pair op with
  | none => rw [(call_channels_none hp).1]
  | some p =>
    obtain ⟨port, chan⟩ := p
    have other := hop port chan hp
    rw [call_channels h hp]
    cases written b op with
    | none => rfl
    | some ch => exact Function.update_of_ne other.symm _ _

theorem resolve_call_other {b : Blockchain} (h : AllOpen b) {op : ChainOp} {port : PortId} {chan : ChannelId}
    (hop : ∀ port' chan', pair op = some (port', chan') →
      makeChannelKey port' chan' ≠ makeChannelKey port chan) :
    resolve (b.call op).chain port chan = resolve b port chan := by
  unfold resolve
  rw [call_channels_other h hop, call_chainId]

theorem channels_call {b : Blockchain} (h : AllOpen b) {op : ChainOp} {p : PortId × ChannelId}
    (names : pair op = some p) :
    (b.call op).chain.channels (makeChannelKey p.1 p.2) =
      (written b op).or (b.channels (makeChannelKey p.1 p.2)) := by
  rw [call_channels h names]
  cases written b op with
  | none => rfl
  | some ch => exact Function.update_self _ _ _

theorem resolve_call {b : Blockchain} (h : AllOpen b) {op : ChainOp} {p : PortId × ChannelId} {port : PortId}
    {chan : ChannelId} (names : pair op = some p) (same : makeChannelKey p.1 p.2 = makeChannelKey port chan) :
    resolve (b.call op).chain port chan = (written b op).getD (resolve b port chan) := by
  unfold resolve
  rw [← same, channels_call h names, call_chainId]
  cases written b op <;> rfl

theorem call_isBound {b : Blockchain} (h : AllOpen b) (op : ChainOp) (port : PortId) (chan : ChannelId) :
    (b.call op).chain.router.isBound port chan = true ↔
      match op with
      | .openChannel port' chan' => b.router.isBound port chan = true ∨ (port = port' ∧ chan = chan')
      | .closeChannel port' chan' => b.router.isBound port chan = true ∧ ¬(port = port' ∧ chan = chan')
      | _ => b.router.isBound port chan = true := by
  cases op with
  | openChannel port' chan' =>
    change (b.openChannel port' chan').chain.router.isBound port chan = true ↔ _
    cases hb : b.router.isBound port' chan' with
    | true =>
      rw [(openChannel_bound b hb).1]
      refine ⟨.inl, ?_⟩
      rintro (bound | ⟨rfl, rfl⟩)
      · exact bound
      · exact hb
    | false =>
      rw [openChannel_unbound h hb]
      exact IBCRouter.bind_isBound _ _ _ _ _
  | closeChannel port' chan' => exact IBCRouter.unbind_isBound _ _ _ _ _
  | sendIBC port' chan' dstChain dstPort dstChan payload =>
    change (b.sendIBC port' chan' dstChain dstPort dstChan payload).chain.router.isBound port chan = true ↔ _
    rw [sendIBC_eq h]; rfl
  | onIBCPacket pkt =>
    change (b.onIBCPacket pkt).chain.router.isBound port chan = true ↔ _
    by_cases hs : pkt.sequence = (resolve b pkt.dstPort pkt.dstChannel).nextSeq
    · rw [onIBCPacket_accept h hs]; rfl
    · rw [onIBCPacket_reject h hs]; rfl
  | onIBCAck | appendBlock | registerNodeId | addTransaction | drain =>
    rw [(call_channels_none rfl).2]

end InterchainCommunication.BlockchainSteps
