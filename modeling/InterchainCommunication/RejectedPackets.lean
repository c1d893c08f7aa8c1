import InterchainCommunication.ChannelIndependence
import InterchainCommunication.RouterConsistency

set_option autoImplicit false

/-!
# What a rejected packet leaves behind

A rejected packet may leave a fresh open channel under its key. A missing
channel behaves like a fresh open one, apart from the port and channel names
that packets sent through it carry. These are the names of the pair that
created it.
-/
namespace InterchainCommunication.RejectedPackets
open StringText CoreTypes ChannelSequencing BlockchainModel BlockchainSteps ChannelIndependence
  RouterConsistency

/-- Statuses, packets and events of a run. Log lines and counters are left out. -/
def observed (t : List (ChainOp × ChainReply × List Effect)) : List (ChainReply × List Event) :=
  t.map fun e => (e.2.1, published e.2.2)

/-- The pair a call creates the channel under the key for, if the table has none. -/
def creates (key : Bytes) : ChainOp → Option ChannelPair
  | .openChannel port chan | .sendIBC port chan _ _ _ _ =>
    if makeChannelKey port chan = key then some (port, chan) else none
  | .onIBCPacket pkt =>
    if makeChannelKey pkt.dstPort pkt.dstChannel = key then some (pkt.dstPort, pkt.dstChannel) else none
  | _ => none

def sends (key : Bytes) : ChainOp → Bool
  | .sendIBC port chan _ _ _ _ => makeChannelKey port chan == key
  | _ => false

def firstCreator (key : Bytes) (ops : List ChainOp) : Option ChannelPair := ops.findSome? (creates key)

def owner (key : Bytes) (b : Blockchain) : Option ChannelPair := (b.channels key).map fun ch => (ch.port, ch.chan)

/-- The later calls cannot tell that the packet came: its key had a channel before, or nothing
    is sent under the key, or the first later call that needs the channel names the packet's own pair. -/
def Unnoticed (b : Blockchain) (pkt : IBCPacket) (later : List ChainOp) : Prop :=
  (owner (makeChannelKey pkt.dstPort pkt.dstChannel) b).isSome = true ∨
    later.any (sends (makeChannelKey pkt.dstPort pkt.dstChannel)) = false ∨
    firstCreator (makeChannelKey pkt.dstPort pkt.dstChannel) later = some (pkt.dstPort, pkt.dstChannel)

/-- Everything a call can read besides the channel table. -/
structure SameRest (b' b : Blockchain) : Prop where
  chainId : b'.chainId = b.chainId
  chain : b'.chain = b.chain
  mempool : b'.mempool = b.mempool
  router : b'.router = b.router

theorem sameRest_store {b' b : Blockchain} (h : SameRest b' b) (port port' : PortId) (chan chan' : ChannelId)
    (ch' ch : IBCChannel) : SameRest (b'.store port' chan' ch') (b.store port chan ch) :=
  ⟨h.chainId, h.chain, h.mempool, h.router⟩

theorem SameRest.symm {b' b : Blockchain} (h : SameRest b' b) : SameRest b b' :=
  ⟨h.chainId.symm, h.chain.symm, h.mempool.symm, h.router.symm⟩

theorem SameRest.trans {b'' b' b : Blockchain} (h' : SameRest b'' b') (h : SameRest b' b) : SameRest b'' b :=
  ⟨h'.chainId.trans h.chainId, h'.chain.trans h.chain, h'.mempool.trans h.mempool, h'.router.trans h.router⟩

/-- Accepted or not, a packet stores a channel for its pair and does nothing else to the chain. -/
theorem onIBCPacket_stores {b : Blockchain} (h : AllOpen b) (pkt : IBCPacket) :
    ∃ ch, (b.onIBCPacket pkt).chain = b.store pkt.dstPort pkt.dstChannel ch := by
  by_cases next : pkt.sequence = (resolve b pkt.dstPort pkt.dstChannel).nextSeq
  · exact ⟨_, congrArg Outcome.chain (onIBCPacket_accept h next)⟩
  · exact ⟨_, congrArg Outcome.chain (onIBCPacket_reject h next)⟩

theorem registerNodeId_rest (b : Blockchain) (nodeId : Bytes) : SameRest (b.registerNodeId nodeId).chain b := by
  unfold Blockchain.registerNodeId
  split <;> exact ⟨rfl, rfl, rfl, rfl⟩

theorem appendBlock_same {b' b : Blockchain} (h : SameRest b' b) (blk : Block) :
    SameRest (b'.appendBlock blk).chain (b.appendBlock blk).chain ∧
      (b'.appendBlock blk).ret = (b.appendBlock blk).ret ∧
      (b'.appendBlock blk).effects = (b.appendBlock blk).effects := by
  obtain ⟨chainId', chain', nonempty', mempool', router', nodeIds', channels'⟩ := b'
  obtain ⟨chainId, chain, nonempty, mempool, router, nodeIds, channels⟩ := b
  obtain ⟨rfl, rfl, rfl, rfl⟩ : chainId' = chainId ∧ chain' = chain ∧ mempool' = mempool ∧ router' = router :=
    ⟨h.chainId, h.chain, h.mempool, h.router⟩
  unfold Blockchain.appendBlock Blockchain.head
  dsimp only
  split
  · exact ⟨⟨rfl, rfl, rfl, rfl⟩, rfl, rfl⟩
  · exact ⟨⟨rfl, rfl, rfl, rfl⟩, rfl, rfl⟩

theorem sameRest_call {b' b : Blockchain} (left : AllOpen b') (right : AllOpen b) (h : SameRest b' b) (op : ChainOp) :
    SameRest (b'.call op).chain (b.call op).chain := by
  cases op with
  | openChannel port chan =>
    change SameRest (b'.openChannel port chan).chain (b.openChannel port chan).chain
    cases bound : b.router.isBound port chan with
    | true =>
      have bound' : b'.router.isBound port chan = true := by rw [h.router, bound]
      rw [(openChannel_bound b bound).1, (openChannel_bound b' bound').1]
      exact h
    | false =>
      have bound' : b'.router.isBound port chan = false := by rw [h.router, bound]
      rw [openChannel_unbound right bound, openChannel_unbound left bound']
      exact ⟨h.chainId, h.chain, h.mempool, congrArg (fun r => (r.bind port chan).1) h.router⟩
  | closeChannel port chan =>
    exact ⟨h.chainId, h.chain, h.mempool, congrArg (fun r => (r.unbind port chan).1) h.router⟩
  | sendIBC port chan dstChain dstPort dstChan payload =>
    change SameRest (b'.sendIBC port chan dstChain dstPort dstChan payload).chain
      (b.sendIBC port chan dstChain dstPort dstChan payload).chain
    rw [sendIBC_eq left, sendIBC_eq right]
    exact sameRest_store h _ _ _ _ _ _
  | onIBCPacket pkt =>
    change SameRest (b'.onIBCPacket pkt).chain (b.onIBCPacket pkt).chain
    obtain ⟨ch', eq'⟩ := onIBCPacket_stores left pkt
    obtain ⟨ch, eq⟩ := onIBCPacket_stores right pkt
    rw [eq', eq]
    exact sameRest_store h _ _ _ _ _ _
  | appendBlock blk => exact (appendBlock_same h blk).1
  | registerNodeId nodeId =>
    exact ((registerNodeId_rest b' nodeId).trans h).trans (registerNodeId_rest b nodeId).symm
  | addTransaction tx =>
    exact ⟨h.chainId, h.chain, congrArg (· ++ [tx]) h.mempool, h.router⟩
  | drain maxTxs =>
    exact ⟨h.chainId, h.chain, congrArg (List.drop maxTxs) h.mempool, h.router⟩
  | onIBCAck ack => exact h

theorem resolve_owner (b : Blockchain) (port : PortId) (chan : ChannelId) :
    ((resolve b port chan).port, (resolve b port chan).chan) =
      (owner (makeChannelKey port chan) b).getD (port, chan) := by
  unfold resolve owner
  cases b.channels (makeChannelKey port chan) <;> rfl

theorem creates_of_pair {key : Bytes} {op : ChainOp} {p : ChannelPair} (h : creates key op = some p) :
    pair op = some p ∧ makeChannelKey p.1 p.2 = key := by
  cases op with
  | openChannel port chan | sendIBC port chan dstChain dstPort dstChan payload =>
    simp only [creates] at h
    split at h
    · obtain rfl := Option.some.inj h
      exact ⟨rfl, by assumption⟩
    · cases h
  | onIBCPacket pkt =>
    simp only [creates] at h
    split at h
    · obtain rfl := Option.some.inj h
      exact ⟨rfl, by assumption⟩
    · cases h
  | closeChannel | onIBCAck | appendBlock | registerNodeId | addTransaction | drain => cases h

/-- The first call that needs the channel gives it its names, and they stay. -/
theorem owner_call {b : Blockchain} (h : AllOpen b) (stored : Stored b) (key : Bytes) (op : ChainOp) :
    owner key (b.call op).chain = (owner key b).or (creates key op) := by
  rcases touches_or_off op key with ⟨⟨port, chan⟩, names, rfl⟩ | off
  · have table : owner (makeChannelKey port chan) (b.call op).chain =
        ((written b op).or (b.channels (makeChannelKey port chan))).map fun ch => (ch.port, ch.chan) :=
      congrArg (Option.map _) (channels_call h names)
    rw [table]
    cases writes : written b op with
    | some ch =>
      obtain ⟨hport, hchan⟩ := written_ids names writes
      have made : creates (makeChannelKey port chan) op = some (port, chan) := by
        cases op with
        | openChannel | sendIBC | onIBCPacket =>
          obtain ⟨rfl, rfl⟩ := Prod.mk.inj (Option.some.inj names)
          exact if_pos rfl
        | closeChannel | onIBCAck | appendBlock | registerNodeId | addTransaction | drain => cases writes
      have ids := resolve_owner b port chan
      rw [← hport, ← hchan] at ids
      rw [made, Option.or_some, Option.some_or, Option.map_some, ids]
    | none =>
      cases op with
      | openChannel port' chan' =>
        obtain ⟨rfl, rfl⟩ := Prod.mk.inj (Option.some.inj names)
        have bound : b.router.isBound port' chan' = true := by
          by_contra unbound
          simp [written, unbound] at writes
        obtain ⟨ch, found⟩ := Option.isSome_iff_exists.mp (stored port' chan' bound)
        simp [owner, found]
      | closeChannel => simp [creates, owner]
      | sendIBC | onIBCPacket => cases writes
      | onIBCAck | appendBlock | registerNodeId | addTransaction | drain => cases names
  · have none_made : creates key op = none := by
      by_contra some_made
      obtain ⟨p, made⟩ := Option.ne_none_iff_exists'.mp some_made
      obtain ⟨names, same⟩ := creates_of_pair made
      exact off p.1 p.2 names same
    rw [none_made, Option.or_none, owner, call_channels_other h off, owner]

/-- The states agree on all but the names in the channel under the key. A missing channel
    counts as a fresh one. -/
structure Alike (key : Bytes) (b' b : Blockchain) : Prop where
  openLeft : AllOpen b'
  openRight : AllOpen b
  storedLeft : Stored b'
  storedRight : Stored b
  rest : SameRest b' b
  other : ∀ k, k ≠ key → b'.channels k = b.channels k
  number : ∀ port chan, (resolve b' port chan).nextSeq = (resolve b port chan).nextSeq
  home : ∀ port chan, (resolve b' port chan).chainId = (resolve b port chan).chainId

namespace Alike
variable {key : Bytes} {b' b : Blockchain}

theorem resolve_other (h : Alike key b' b) {port : PortId} {chan : ChannelId} (off : makeChannelKey port chan ≠ key) :
    resolve b' port chan = resolve b port chan := by
  unfold BlockchainSteps.resolve
  rw [h.other _ off, h.rest.chainId]

theorem packet_eq_iff (h : Alike key b' b) (port : PortId) (chan : ChannelId) (dstChain : Bytes) (dstPort : PortId)
    (dstChan : ChannelId) (payload : Bytes) :
    (resolve b' port chan).packet dstChain dstPort dstChan payload =
        (resolve b port chan).packet dstChain dstPort dstChan payload ↔
      (resolve b' port chan).port = (resolve b port chan).port ∧
        (resolve b' port chan).chan = (resolve b port chan).chan := by
  simp only [IBCChannel.packet, IBCPacket.mk.injEq, h.number, h.home, and_true, true_and]

theorem answer (h : Alike key b' b) {op : ChainOp} (silent : sends key op = false) :
    (b'.call op).ret = (b.call op).ret ∧ published (b'.call op).effects = published (b.call op).effects := by
  cases op with
  | openChannel port chan =>
    change ChainReply.status (b'.openChannel port chan).ret = .status (b.openChannel port chan).ret ∧
      published (b'.openChannel port chan).effects = published (b.openChannel port chan).effects
    cases bound : b.router.isBound port chan with
    | true =>
      have bound' : b'.router.isBound port chan = true := by rw [h.rest.router, bound]
      rw [(openChannel_bound b bound).2.2, (openChannel_bound b' bound').2.2]
      simp [Blockchain.openChannel, IBCRouter.bind, bound, bound', Status.ok]
    | false =>
      have bound' : b'.router.isBound port chan = false := by rw [h.rest.router, bound]
      rw [openChannel_unbound h.openRight bound, openChannel_unbound h.openLeft bound']
      simp
  | closeChannel port chan =>
    change ChainReply.status (b'.closeChannel port chan).ret = .status (b.closeChannel port chan).ret ∧
      published (b'.closeChannel port chan).effects = published (b.closeChannel port chan).effects
    simp only [Blockchain.closeChannel, h.rest.router, true_and]
  | sendIBC port chan dstChain dstPort dstChan payload =>
    change ChainReply.packet (b'.sendIBC port chan dstChain dstPort dstChan payload).ret =
        .packet (b.sendIBC port chan dstChain dstPort dstChan payload).ret ∧
      published (b'.sendIBC port chan dstChain dstPort dstChan payload).effects =
        published (b.sendIBC port chan dstChain dstPort dstChan payload).effects
    have off : makeChannelKey port chan ≠ key := by simpa [sends] using silent
    rw [sendIBC_eq h.openLeft, sendIBC_eq h.openRight, h.resolve_other off, h.rest.chainId]
    simp
  | onIBCPacket pkt =>
    change ChainReply.status (b'.onIBCPacket pkt).ret = .status (b.onIBCPacket pkt).ret ∧
      published (b'.onIBCPacket pkt).effects = published (b.onIBCPacket pkt).effects
    have number := h.number pkt.dstPort pkt.dstChannel
    by_cases next : pkt.sequence = (resolve b pkt.dstPort pkt.dstChannel).nextSeq
    · rw [onIBCPacket_accept h.openLeft (next.trans number.symm), onIBCPacket_accept h.openRight next,
        h.rest.chainId]
      simp
    · rw [onIBCPacket_reject h.openLeft (number ▸ next), onIBCPacket_reject h.openRight next]
      simp
  | onIBCAck ack =>
    change ChainReply.status (b'.onIBCAck ack).ret = .status (b.onIBCAck ack).ret ∧
      published (b'.onIBCAck ack).effects = published (b.onIBCAck ack).effects
    simp only [Blockchain.onIBCAck, h.rest.chainId, true_and]
  | appendBlock blk =>
    obtain ⟨-, ret, effects⟩ := appendBlock_same h.rest blk
    exact ⟨congrArg ChainReply.status ret, congrArg published effects⟩
  | registerNodeId nodeId =>
    have silent (c : Blockchain) : published (c.registerNodeId nodeId).effects = [] := by
      unfold Blockchain.registerNodeId
      split <;> rfl
    exact ⟨rfl, (silent b').trans (silent b).symm⟩
  | addTransaction tx => exact ⟨rfl, rfl⟩
  | drain maxTxs => exact ⟨congrArg (fun l : List Transaction => ChainReply.txs (l.take maxTxs)) h.rest.mempool, rfl⟩

theorem answer_send (h : Alike key b' b) (port : PortId) (chan : ChannelId) (dstChain : Bytes) (dstPort : PortId)
    (dstChan : ChannelId) (payload : Bytes) :
    let op : ChainOp := .sendIBC port chan dstChain dstPort dstChan payload
    ((b'.call op).ret = (b.call op).ret ∧ published (b'.call op).effects = published (b.call op).effects) ↔
      ((resolve b' port chan).port, (resolve b' port chan).chan) =
        ((resolve b port chan).port, (resolve b port chan).chan) := by
  change (ChainReply.packet (b'.sendIBC port chan dstChain dstPort dstChan payload).ret =
        .packet (b.sendIBC port chan dstChain dstPort dstChan payload).ret ∧
      published (b'.sendIBC port chan dstChain dstPort dstChan payload).effects =
        published (b.sendIBC port chan dstChain dstPort dstChan payload).effects) ↔ _
  rw [sendIBC_eq h.openLeft, sendIBC_eq h.openRight, h.rest.chainId, Prod.mk.injEq,
    ← h.packet_eq_iff port chan dstChain dstPort dstChan payload]
  constructor
  · rintro ⟨same, -⟩
    simpa using same
  · intro same
    rw [same]
    simp

theorem written (h : Alike key b' b) (op : ChainOp) :
    (BlockchainSteps.written b' op).map (fun ch => (ch.nextSeq, ch.chainId)) =
      (BlockchainSteps.written b op).map fun ch => (ch.nextSeq, ch.chainId) := by
  cases op with
  | openChannel port chan =>
    simp only [BlockchainSteps.written, h.rest.router]
    split
    · rfl
    · simp [opened, h.number, h.home]
  | sendIBC port chan dstChain dstPort dstChan payload =>
    simp [BlockchainSteps.written, advanced, h.number, h.home]
  | onIBCPacket pkt =>
    simp only [BlockchainSteps.written, h.number]
    split <;> simp [opened, advanced, h.number, h.home]
  | closeChannel | onIBCAck | appendBlock | registerNodeId | addTransaction | drain => rfl

theorem resolved (h : Alike key b' b) (op : ChainOp) (port : PortId) (chan : ChannelId) :
    (resolve (b'.call op).chain port chan).nextSeq = (resolve (b.call op).chain port chan).nextSeq ∧
      (resolve (b'.call op).chain port chan).chainId = (resolve (b.call op).chain port chan).chainId := by
  rcases touches_or_off op (makeChannelKey port chan) with ⟨p, names, same⟩ | off
  · rw [resolve_call h.openLeft names same, resolve_call h.openRight names same]
    have writes := h.written op
    cases left : BlockchainSteps.written b' op <;> cases right : BlockchainSteps.written b op <;>
      rw [left, right] at writes
    · exact ⟨h.number port chan, h.home port chan⟩
    · cases writes
    · cases writes
    · exact Prod.mk.inj (Option.some.inj writes)
  · rw [resolve_call_other h.openLeft off, resolve_call_other h.openRight off]
    exact ⟨h.number port chan, h.home port chan⟩

theorem call (h : Alike key b' b) (op : ChainOp) : Alike key (b'.call op).chain (b.call op).chain where
  openLeft := call_allOpen h.openLeft op
  openRight := call_allOpen h.openRight op
  storedLeft := stored_call h.openLeft h.storedLeft op
  storedRight := stored_call h.openRight h.storedRight op
  rest := sameRest_call h.openLeft h.openRight h.rest op
  other := by
    intro k off
    rcases touches_or_off op k with ⟨p, names, rfl⟩ | away
    · have writes : BlockchainSteps.written b' op = BlockchainSteps.written b op := by
        have same := h.resolve_other off
        cases op with
        | openChannel port chan =>
          obtain rfl : (port, chan) = p := Option.some.inj names
          simp only [BlockchainSteps.written, h.rest.router, same]
        | sendIBC port chan dstChain dstPort dstChan payload =>
          obtain rfl : (port, chan) = p := Option.some.inj names
          simp only [BlockchainSteps.written, same]
        | onIBCPacket pkt =>
          obtain rfl : (pkt.dstPort, pkt.dstChannel) = p := Option.some.inj names
          simp only [BlockchainSteps.written, same]
        | closeChannel | onIBCAck | appendBlock | registerNodeId | addTransaction | drain => rfl
      rw [channels_call h.openLeft names, channels_call h.openRight names, writes, h.other _ off]
    · rw [call_channels_other h.openLeft away, call_channels_other h.openRight away, h.other k off]
  number port chan := (h.resolved op port chan).1
  home port chan := (h.resolved op port chan).2

end Alike

theorem observed_cons {b' b : Blockchain} (op : ChainOp) (ops : List ChainOp) :
    observed (chainMachine.trace b' (op :: ops)) = observed (chainMachine.trace b (op :: ops)) ↔
      ((b'.call op).ret = (b.call op).ret ∧ published (b'.call op).effects = published (b.call op).effects) ∧
        observed (chainMachine.trace (b'.call op).chain ops) = observed (chainMachine.trace (b.call op).chain ops) := by
  change ((b'.call op).ret, published (b'.call op).effects) :: observed (chainMachine.trace (b'.call op).chain ops) =
    ((b.call op).ret, published (b.call op).effects) :: observed (chainMachine.trace (b.call op).chain ops) ↔ _
  rw [List.cons.injEq, Prod.mk.injEq]

/-- Runs from alike states differ exactly at the sends under the key, and there only
    in the names of its owner. -/
theorem observed_alike {key : Bytes} {p : ChannelPair} {b' b : Blockchain} (h : Alike key b' b)
    (owned : owner key b' = some p) (ops : List ChainOp) :
    observed (chainMachine.trace b' ops) = observed (chainMachine.trace b ops) ↔
      ops.any (sends key) = false ∨ (owner key b).or (firstCreator key ops) = some p := by
  induction ops generalizing b' b with
  | nil => exact iff_of_true rfl (.inl rfl)
  | cons op ops ih =>
    have owned' : owner key (b'.call op).chain = some p := by
      rw [owner_call h.openLeft h.storedLeft, owned, Option.some_or]
    have owner' := owner_call h.openRight h.storedRight key op
    have first : firstCreator key (op :: ops) = (creates key op).or (firstCreator key ops) := by
      unfold firstCreator
      rw [List.findSome?_cons]
      cases creates key op <;> rfl
    rw [observed_cons, ih (h.call op) owned', owner', Option.or_assoc, ← first, List.any_cons]
    cases sent : sends key op with
    | false => rw [and_iff_right (h.answer sent), Bool.false_or]
    | true =>
      obtain ⟨port, chan, dstChain, dstPort, dstChan, payload, rfl⟩ : ∃ port chan dstChain dstPort dstChan payload,
          op = .sendIBC port chan dstChain dstPort dstChan payload := by
        cases op with
        | sendIBC port chan dstChain dstPort dstChan payload =>
          exact ⟨port, chan, dstChain, dstPort, dstChan, payload, rfl⟩
        | openChannel | closeChannel | onIBCPacket | onIBCAck | appendBlock | registerNodeId | addTransaction
          | drain => cases sent
      obtain rfl : makeChannelKey port chan = key := by simpa [sends] using sent
      have made : creates (makeChannelKey port chan) (.sendIBC port chan dstChain dstPort dstChan payload) =
          some (port, chan) := if_pos rfl
      have named : (owner (makeChannelKey port chan) b).or (firstCreator (makeChannelKey port chan)
          (.sendIBC port chan dstChain dstPort dstChan payload :: ops)) =
            some ((owner (makeChannelKey port chan) b).getD (port, chan)) := by
        rw [first, made]
        cases owner (makeChannelKey port chan) b <;> rfl
      have answered := h.answer_send port chan dstChain dstPort dstChan payload
      dsimp only at answered
      rw [resolve_owner, resolve_owner, owned, Option.getD_some] at answered
      rw [answered, named, Option.some.injEq]
      constructor
      · rintro ⟨same, -⟩
        exact .inr same.symm
      · rintro (silent | same)
        · cases silent
        · exact ⟨same.symm, .inr same⟩

theorem rejected_number {b : Blockchain} (h : AllOpen b) {pkt : IBCPacket}
    (rejected : (b.onIBCPacket pkt).ret.ok = false) :
    pkt.sequence ≠ (resolve b pkt.dstPort pkt.dstChannel).nextSeq := by
  intro next
  rw [(onIBCPacket_ok h pkt).mpr next] at rejected
  cases rejected

theorem alike_rejected {chainId : Bytes} {before : List ChainOp} {pkt : IBCPacket}
    (absent : owner (makeChannelKey pkt.dstPort pkt.dstChannel) (chainMachine.final (.new chainId) before) = none)
    (rejected : ((chainMachine.final (.new chainId) before).onIBCPacket pkt).ret.ok = false) :
    let b := chainMachine.final (.new chainId) before
    Alike (makeChannelKey pkt.dstPort pkt.dstChannel) (b.onIBCPacket pkt).chain b ∧
      owner (makeChannelKey pkt.dstPort pkt.dstChannel) (b.onIBCPacket pkt).chain =
        some (pkt.dstPort, pkt.dstChannel) := by
  intro b
  have consistent := consistent_final chainId before
  have number := rejected_number consistent.allOpen rejected
  have left : (b.onIBCPacket pkt).chain =
      b.store pkt.dstPort pkt.dstChannel (opened (resolve b pkt.dstPort pkt.dstChannel)) :=
    congrArg Outcome.chain (onIBCPacket_reject consistent.allOpen number)
  have missing : b.channels (makeChannelKey pkt.dstPort pkt.dstChannel) = none := Option.map_eq_none_iff.mp absent
  have seen (port : PortId) (chan : ChannelId) :
      (resolve (b.onIBCPacket pkt).chain port chan).nextSeq = (resolve b port chan).nextSeq ∧
        (resolve (b.onIBCPacket pkt).chain port chan).chainId = (resolve b port chan).chainId := by
    by_cases same : makeChannelKey pkt.dstPort pkt.dstChannel = makeChannelKey port chan
    · have fresh : resolve b port chan = IBCChannel.new b.chainId port chan := by
        rw [resolve, ← same, missing]
        rfl
      have here : resolve (b.onIBCPacket pkt).chain port chan =
          opened (IBCChannel.new b.chainId pkt.dstPort pkt.dstChannel) := by
        rw [left, resolve, ← same, store_same, resolve, missing]
        rfl
      rw [here, fresh]
      exact ⟨rfl, rfl⟩
    · rw [left, resolve_store_other b _ (Ne.symm same)]
      exact ⟨rfl, rfl⟩
  have names := owner_call consistent.allOpen consistent.stored (makeChannelKey pkt.dstPort pkt.dstChannel)
    (.onIBCPacket pkt)
  rw [absent, Option.none_or] at names
  refine ⟨⟨call_allOpen consistent.allOpen (.onIBCPacket pkt), consistent.allOpen,
    stored_call consistent.allOpen consistent.stored (.onIBCPacket pkt), consistent.stored, ?_, ?_,
    fun port chan => (seen port chan).1, fun port chan => (seen port chan).2⟩, names.trans (if_pos rfl)⟩
  · rw [left]
    exact ⟨rfl, rfl, rfl, rfl⟩
  · intro k off
    rw [left, store_other b _ off]

theorem rejected_same {b : Blockchain} (h : AllOpen b) {pkt : IBCPacket}
    (present : (owner (makeChannelKey pkt.dstPort pkt.dstChannel) b).isSome = true)
    (rejected : (b.onIBCPacket pkt).ret.ok = false) : (b.onIBCPacket pkt).chain = b := by
  have number := rejected_number h rejected
  obtain ⟨ch, found⟩ : ∃ ch, b.channels (makeChannelKey pkt.dstPort pkt.dstChannel) = some ch := by
    rw [← Option.isSome_iff_exists, ← present, owner, Option.isSome_map]
  have kept : opened (resolve b pkt.dstPort pkt.dstChannel) = ch := by
    have state := h _ ch found
    rw [resolve, found]
    change ({ ch with state := .open } : IBCChannel) = ch
    rw [← state]
  rw [onIBCPacket_reject h number]
  change { b with channels := Function.update b.channels _ (some (opened _)) } = b
  rw [kept, ← found, Function.update_eq_self]

/-- A rejected packet publishes nothing, and the calls after it go as if it had never come
    exactly when they do not notice it. -/
theorem rejected_leaves_no_trace_iff (chainId : Bytes) (before : List ChainOp) (pkt : IBCPacket)
    (later : List ChainOp) (rejected : ((chainMachine.final (.new chainId) before).onIBCPacket pkt).ret.ok = false) :
    let b := chainMachine.final (.new chainId) before
    published (b.onIBCPacket pkt).effects = [] ∧
      (observed (chainMachine.trace (b.onIBCPacket pkt).chain later) = observed (chainMachine.trace b later) ↔
        Unnoticed b pkt later) := by
  intro b
  have open_b : AllOpen b := (consistent_final chainId before).allOpen
  constructor
  · rw [onIBCPacket_reject open_b (rejected_number open_b rejected)]
    simp
  · unfold Unnoticed
    cases there : owner (makeChannelKey pkt.dstPort pkt.dstChannel) b with
    | some p =>
      rw [rejected_same open_b (by rw [there]; rfl) rejected]
      exact iff_of_true rfl (.inl rfl)
    | none =>
      obtain ⟨alike, owned⟩ := alike_rejected there rejected
      rw [observed_alike alike owned, there, Option.none_or]
      simp

def early (port chan : String) : IBCPacket :=
  ⟨.data, lit "B", lit "A", ⟨lit "p"⟩, ⟨lit "c"⟩, ⟨lit port⟩, ⟨lit chan⟩, 7, []⟩

def sendFrom (port chan : String) : ChainOp := .sendIBC ⟨lit port⟩ ⟨lit chan⟩ (lit "B") ⟨lit "p"⟩ ⟨lit "c"⟩ []

theorem rejected_leaves_no_trace_own_pair :
    let b := chainMachine.final (.new (lit "A")) []
    observed (chainMachine.trace (b.onIBCPacket (early "port-B" "channel-B")).chain [sendFrom "port-B" "channel-B"]) =
      observed (chainMachine.trace b [sendFrom "port-B" "channel-B"]) := by
  intro b
  have h := rejected_leaves_no_trace_iff (lit "A") [] (early "port-B" "channel-B")
    [sendFrom "port-B" "channel-B"] (by decide)
  exact h.2.mpr (.inr (.inr (by decide)))

theorem rejected_names_stay : ¬ ∀ (chainId : Bytes) (before : List ChainOp) (pkt : IBCPacket) (later : List ChainOp),
    let b := chainMachine.final (.new chainId) before
    (b.onIBCPacket pkt).ret.ok = false →
      published (b.onIBCPacket pkt).effects = [] ∧
        observed (chainMachine.trace (b.onIBCPacket pkt).chain later) = observed (chainMachine.trace b later) := by
  intro h
  have same := (h (lit "A") [] (early "a:b" "c") [sendFrom "a" "b:c"] (by decide)).2
  exact absurd same (by decide +kernel)

end InterchainCommunication.RejectedPackets
