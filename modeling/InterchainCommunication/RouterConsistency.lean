import InterchainCommunication.BlockchainSteps

set_option autoImplicit false

namespace InterchainCommunication.RouterConsistency
open StringText CoreTypes MachineRuns BlockchainModel BlockchainSteps

/-- What a call leaves the pair as, when it opens or closes it successfully. -/
def settled (port : PortId) (chan : ChannelId) : ChainOp × ChainReply × List Effect → Option Bool
  | (.openChannel port' chan', reply, _) =>
    if (port = port' ∧ chan = chan') ∧ reply.ok = true then some true else none
  | (.closeChannel port' chan', reply, _) =>
    if (port = port' ∧ chan = chan') ∧ reply.ok = true then some false else none
  | _ => none

/-- Whether the last successful open or close of the pair was an open. -/
def lastSettled (port : PortId) (chan : ChannelId) (t : List (ChainOp × ChainReply × List Effect)) : Option Bool :=
  (t.filterMap (settled port chan)).getLast?

theorem lastSettled_concat (port : PortId) (chan : ChannelId) (t : List (ChainOp × ChainReply × List Effect))
    (e : ChainOp × ChainReply × List Effect) :
    lastSettled port chan (t ++ [e]) = (settled port chan e).or (lastSettled port chan t) := by
  unfold lastSettled
  rw [filterMap_concat]
  cases settled port chan e with
  | none => simp
  | some now => simp

theorem openChannel_ok {b : Blockchain} (h : AllOpen b) (port : PortId) (chan : ChannelId) :
    (b.openChannel port chan).ret.ok = !b.router.isBound port chan := by
  cases bound : b.router.isBound port chan with
  | true => exact (openChannel_bound b bound).2.1
  | false =>
    rw [openChannel_unbound h bound]
    rfl

theorem closeChannel_ok (b : Blockchain) (port : PortId) (chan : ChannelId) :
    (b.closeChannel port chan).ret.ok = b.router.isBound port chan := by
  change (b.router.unbind port chan).2.ok = _
  unfold IBCRouter.unbind
  cases bound : b.router.isBound port chan with
  | true => rfl
  | false => rfl

theorem isBound_settled {b : Blockchain} (h : AllOpen b) (op : ChainOp) (port : PortId) (chan : ChannelId) :
    (b.call op).chain.router.isBound port chan =
      (settled port chan (op, (chainMachine.step b op).2)).getD (b.router.isBound port chan) := by
  rw [Bool.eq_iff_iff, call_isBound h]
  cases op with
  | openChannel port' chan' =>
    have answered : (chainMachine.step b (.openChannel port' chan')).2.1.ok = !b.router.isBound port' chan' :=
      openChannel_ok h port' chan'
    by_cases same : port = port' ∧ chan = chan'
    · obtain ⟨rfl, rfl⟩ := same
      cases bound : b.router.isBound port chan <;> simp [settled, answered, bound]
    · simp [settled, same]
  | closeChannel port' chan' =>
    have answered : (chainMachine.step b (.closeChannel port' chan')).2.1.ok = b.router.isBound port' chan' :=
      closeChannel_ok b port' chan'
    by_cases same : port = port' ∧ chan = chan'
    · obtain ⟨rfl, rfl⟩ := same
      cases bound : b.router.isBound port chan <;> simp [settled, answered, bound]
    · simp [settled, same]
  | sendIBC | onIBCPacket | onIBCAck | appendBlock | registerNodeId | addTransaction | drain => rfl

theorem stored_kept {b : Blockchain} (h : AllOpen b) (op : ChainOp) {key : Bytes}
    (stored : (b.channels key).isSome = true) : ((b.call op).chain.channels key).isSome = true := by
  cases names : pair op with
  | none =>
    rw [(call_channels_none names).1]
    exact stored
  | some p =>
    obtain ⟨port, chan⟩ := p
    rw [call_channels h names]
    cases written b op with
    | none => exact stored
    | some ch =>
      change (Function.update b.channels (makeChannelKey port chan) (some ch) key).isSome = true
      rw [Function.update_apply]
      split
      · rfl
      · exact stored

def Stored (b : Blockchain) : Prop :=
  ∀ port chan, b.router.isBound port chan = true → (b.channels (makeChannelKey port chan)).isSome = true

theorem stored_call {b : Blockchain} (h : AllOpen b) (stored : Stored b) (op : ChainOp) :
    Stored (b.call op).chain := by
  intro port chan bound
  have kept (before : b.router.isBound port chan = true) :
      ((b.call op).chain.channels (makeChannelKey port chan)).isSome = true :=
    stored_kept h op (stored port chan before)
  rw [call_isBound h] at bound
  cases op with
  | openChannel port' chan' =>
    cases before : b.router.isBound port' chan' with
    | true =>
      rcases bound with old | ⟨rfl, rfl⟩
      · exact kept old
      · exact kept before
    | false =>
      rcases bound with old | ⟨rfl, rfl⟩
      · exact kept old
      · -- the pair bound just now gets its channel in the same call
        change ((b.openChannel port chan).chain.channels (makeChannelKey port chan)).isSome = true
        rw [openChannel_unbound h before, store_same]
        rfl
  | closeChannel port' chan' => exact kept bound.1
  | sendIBC | onIBCPacket | onIBCAck | appendBlock | registerNodeId | addTransaction | drain => exact kept bound

/-- The joint invariant of router and table, with the history that led to the state. -/
structure Consistent (b : Blockchain) (t : List (ChainOp × ChainReply × List Effect)) : Prop where
  unique : b.router.bindings.Nodup
  bound : ∀ port chan, b.router.isBound port chan = true ↔ lastSettled port chan t = some true
  allOpen : AllOpen b
  stored : Stored b

theorem consistent_step {b : Blockchain} {t : List (ChainOp × ChainReply × List Effect)} (h : Consistent b t)
    (op : ChainOp) : Consistent (b.call op).chain (t ++ [(op, (chainMachine.step b op).2)]) where
  unique := (b.call op).chain.router.nodup
  bound := by
    intro port chan
    rw [isBound_settled h.allOpen, lastSettled_concat]
    cases settled port chan (op, (chainMachine.step b op).2) with
    | none => exact h.bound port chan
    | some now => simp
  allOpen := call_allOpen h.allOpen op
  stored := stored_call h.allOpen h.stored op

theorem consistent_final (chainId : Bytes) (ops : List ChainOp) :
    Consistent (chainMachine.final (.new chainId) ops) (chainMachine.trace (.new chainId) ops) := by
  refine chainMachine.history_invariant ops ?_ fun b t op _ h => consistent_step h op
  refine ⟨List.nodup_nil, fun port chan => ?_, allOpen_new chainId, fun port chan bound => ?_⟩
  · exact iff_of_false Bool.false_ne_true (Option.some_ne_none true).symm
  · exact absurd bound Bool.false_ne_true

/-- No call reports a closed channel, and `open` inside a call never fails. -/
structure NeverClosed (b : Blockchain) : Prop where
  opens : ∀ port chan, Blockchain.refused (b.getOrCreateChannel port chan).ret.open.2 = false
  openChannel : ∀ port chan, (b.openChannel port chan).ret.code ≠ .channelClosed
  sendIBC : ∀ port chan dstChain dstPort dstChan payload,
    (b.sendIBC port chan dstChain dstPort dstChan payload).ret.status.code ≠ .channelClosed
  onIBCPacket : ∀ pkt, (b.onIBCPacket pkt).ret.code ≠ .channelClosed

theorem neverClosed_of_allOpen {b : Blockchain} (h : AllOpen b) : NeverClosed b where
  opens port chan := by
    rw [getOrCreateChannel_ret]
    exact open_refused (h.resolve port chan)
  openChannel port chan := by
    cases bound : b.router.isBound port chan with
    | true => simp [Blockchain.openChannel, IBCRouter.bind, bound, Status.ok]
    | false => simp [openChannel_unbound h bound]
  sendIBC port chan dstChain dstPort dstChan payload := by simp [sendIBC_eq h]
  onIBCPacket pkt := by
    by_cases next : pkt.sequence = (resolve b pkt.dstPort pkt.dstChannel).nextSeq
    · simp [onIBCPacket_accept h next]
    · simp [onIBCPacket_reject h next]

/-- Opening fails on the bound pairs only and closing on the others, and a failure
    leaves the router and the table as they are. -/
structure FailsCleanly (b : Blockchain) (port : PortId) (chan : ChannelId) : Prop where
  opening : (b.openChannel port chan).ret.ok = false ↔ b.router.isBound port chan = true
  closing : (b.closeChannel port chan).ret.ok = false ↔ b.router.isBound port chan = false
  openingKeeps : (b.openChannel port chan).ret.ok = false →
    (b.openChannel port chan).chain.router = b.router ∧ (b.openChannel port chan).chain.channels = b.channels
  closingKeeps : (b.closeChannel port chan).ret.ok = false →
    (b.closeChannel port chan).chain.router = b.router ∧ (b.closeChannel port chan).chain.channels = b.channels

theorem failsCleanly_of_allOpen {b : Blockchain} (h : AllOpen b) (port : PortId) (chan : ChannelId) :
    FailsCleanly b port chan where
  opening := by rw [openChannel_ok h, Bool.not_eq_false']
  closing := by rw [closeChannel_ok]
  openingKeeps failed := by
    rw [openChannel_ok h, Bool.not_eq_false'] at failed
    rw [(openChannel_bound b failed).1]
    exact ⟨rfl, rfl⟩
  closingKeeps failed := by
    rw [closeChannel_ok] at failed
    refine ⟨?_, rfl⟩
    change (b.router.unbind port chan).1 = b.router
    unfold IBCRouter.unbind
    rw [failed]
    rfl

/-- Router and channel table stay consistent in every run, and every call in a state reached
    finds them so. -/
theorem router_consistent (chainId : Bytes) (ops : List ChainOp) :
    let b := chainMachine.final (.new chainId) ops
    Consistent b (chainMachine.trace (.new chainId) ops) ∧ NeverClosed b ∧
      ∀ port chan, FailsCleanly b port chan := by
  intro b
  have consistent := consistent_final chainId ops
  exact ⟨consistent, neverClosed_of_allOpen consistent.allOpen, failsCleanly_of_allOpen consistent.allOpen⟩

end InterchainCommunication.RouterConsistency
