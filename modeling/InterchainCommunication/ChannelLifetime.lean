import InterchainCommunication.ChannelSequencing
import Mathlib.Data.List.Nodup

set_option autoImplicit false

namespace InterchainCommunication.ChannelLifetime
open StringText CoreTypes MachineRuns ChannelSequencing

def succeeded : ChannelOp × ChannelReply → Bool
  | (_, .status s) => s.ok
  | (_, .packet r) => r.status.ok

def isTransfer : ChannelOp → Bool
  | .makePacket _ _ _ _ | .acceptPacket _ => true
  | .open | .close => false

/-- The successful `makePacket` and `acceptPacket` calls of a run, in order. -/
def transfers (t : List (ChannelOp × ChannelReply)) : List (ChannelOp × ChannelReply) :=
  t.filter fun e => isTransfer e.1 && succeeded e

theorem transfers_concat (t : List (ChannelOp × ChannelReply)) (e : ChannelOp × ChannelReply) :
    transfers (t ++ [e]) = transfers t ++ if isTransfer e.1 && succeeded e then [e] else [] := by
  rw [transfers, List.filter_append, List.filter_singleton, cond_eq_ite]
  rfl

theorem failing_step (ch : IBCChannel) (op : ChannelOp)
    (failed : succeeded (op, (channelMachine.step ch op).2) = false) : (channelMachine.step ch op).1 = ch := by
  cases op with
  | «open» =>
    cases state : ch.state <;> simp_all [channelMachine, IBCChannel.open, succeeded, Status.ok]
  | close =>
    cases state : ch.state <;> simp_all [channelMachine, IBCChannel.close, succeeded, Status.ok]
  | makePacket dstChain dstPort dstChan payload =>
    by_cases state : ch.state = .open <;> simp_all [channelMachine, IBCChannel.makePacket, succeeded, Status.ok]
  | acceptPacket pkt =>
    by_cases state : ch.state = .open
    · by_cases same : pkt.sequence = ch.nextSeq <;>
        simp_all [channelMachine, IBCChannel.acceptPacket, succeeded, Status.ok]
    · simp [channelMachine, IBCChannel.acceptPacket, state]

theorem transfer_step {ch : IBCChannel} {op : ChannelOp} (transfer : isTransfer op = true)
    (ok : succeeded (op, (channelMachine.step ch op).2) = true) :
    carried (op, (channelMachine.step ch op).2) = some ch.nextSeq ∧
      (channelMachine.step ch op).1.nextSeq = ch.nextSeq + 1 := by
  have state : ch.state = .open := by
    by_contra shut
    cases op with
    | «open» | close => cases transfer
    | makePacket => simp [channelMachine, IBCChannel.makePacket, succeeded, Status.ok, shut] at ok
    | acceptPacket => simp [channelMachine, IBCChannel.acceptPacket, succeeded, Status.ok, shut] at ok
  have notClose : op ≠ .close := by
    rintro rfl
    cases transfer
  rcases step_carried state notClose with ⟨quiet, -⟩ | ⟨spent, next⟩
  · cases op with
    | «open» | close => cases transfer
    | makePacket => simp [channelMachine, IBCChannel.makePacket, carried, state] at quiet
    | acceptPacket pkt =>
      have ok' : (ch.acceptPacket pkt).2.ok = true := ok
      simp [channelMachine, carried, ok'] at quiet
  · rw [next]
    exact ⟨spent, rfl⟩

theorem other_step {ch : IBCChannel} {op : ChannelOp}
    (other : (isTransfer op && succeeded (op, (channelMachine.step ch op).2)) = false) :
    (channelMachine.step ch op).1.nextSeq = ch.nextSeq := by
  rcases Bool.and_eq_false_iff.mp other with open_close | failed
  · cases op with
    | «open» =>
      change ch.open.1.nextSeq = _
      unfold IBCChannel.open
      split
      · rfl
      · split <;> rfl
    | close =>
      change ch.close.1.nextSeq = _
      unfold IBCChannel.close
      split <;> rfl
    | makePacket | acceptPacket => cases open_close
  · rw [failing_step ch op failed]

/-- Whatever happened, the transfers so far carried the numbers from 1 on, and the counter
    shows the next. -/
structure Counted (ch : IBCChannel) (t : List (ChannelOp × ChannelReply)) : Prop where
  numbers : (transfers t).map carried =
    (List.range (transfers t).length).map fun k => some (1 + UInt64.ofNat k)
  next : ch.nextSeq = 1 + UInt64.ofNat (transfers t).length

theorem counted_step {ch : IBCChannel} {t : List (ChannelOp × ChannelReply)} (h : Counted ch t) (op : ChannelOp) :
    Counted (channelMachine.step ch op).1 (t ++ [(op, (channelMachine.step ch op).2)]) := by
  cases transfer : isTransfer op && succeeded (op, (channelMachine.step ch op).2) with
  | true =>
    have both := Bool.and_eq_true_iff.mp transfer
    obtain ⟨spent, next⟩ := transfer_step both.1 both.2
    constructor
    · rw [transfers_concat, if_pos transfer, List.map_append, List.length_append, List.length_singleton,
        List.range_succ, List.map_append, h.numbers, List.map_singleton, List.map_singleton, spent, h.next]
    · rw [transfers_concat, if_pos transfer, List.length_append, List.length_singleton, next, h.next,
        UInt64.ofNat_add, ← UInt64.add_assoc]
      rfl
  | false =>
    have same : transfers (t ++ [(op, (channelMachine.step ch op).2)]) = transfers t := by
      rw [transfers_concat, transfer]
      exact List.append_nil _
    constructor
    · rw [same]
      exact h.numbers
    · rw [same, other_step transfer]
      exact h.next

theorem counted_final (chainId : Bytes) (port : PortId) (chan : ChannelId) (ops : List ChannelOp) :
    Counted (channelMachine.final (.new chainId port chan) ops)
      (channelMachine.trace (.new chainId port chan) ops) :=
  channelMachine.history_invariant ops ⟨rfl, rfl⟩ fun _ _ op _ h => counted_step h op

theorem number_toNat {k : ℕ} (small : k < 2 ^ 64 - 1) : (1 + UInt64.ofNat k).toNat = k + 1 := by
  rw [UInt64.toNat_add, UInt64.toNat_ofNat']
  change (1 + k % 2 ^ 64) % 2 ^ 64 = k + 1
  omega

theorem step_closed {ch : IBCChannel} (closed : ch.state = .closed) (op : ChannelOp) :
    succeeded (op, (channelMachine.step ch op).2) = false ∧ (channelMachine.step ch op).1 = ch := by
  cases op with
  | «open» => simp [channelMachine, IBCChannel.open, closed, succeeded, Status.ok]
  | close => simp [channelMachine, IBCChannel.close, closed, succeeded, Status.ok]
  | makePacket => simp [channelMachine, IBCChannel.makePacket, closed, succeeded, Status.ok]
  | acceptPacket => simp [channelMachine, IBCChannel.acceptPacket, closed, succeeded, Status.ok]

theorem run_closed {ch : IBCChannel} (closed : ch.state = .closed) (ops : List ChannelOp) :
    ∀ e ∈ channelMachine.trace ch ops, succeeded e = false := by
  induction ops with
  | nil => exact fun e he => absurd he List.not_mem_nil
  | cons op ops ih =>
    obtain ⟨failed, same⟩ := step_closed closed op
    rw [Machine.trace_cons, same]
    intro e he
    rcases List.mem_cons.mp he with rfl | later
    · exact failed
    · exact ih e later

/-- The k-th packet made or accepted carries the number k, a failing call changes nothing,
    and a closed end answers nothing any more. -/
theorem channel_lifetime (chainId : Bytes) (port : PortId) (chan : ChannelId) (ops : List ChannelOp)
    (few : (transfers (channelMachine.trace (.new chainId port chan) ops)).length < 2 ^ 64 - 1) :
    let start := IBCChannel.new chainId port chan
    let spent := (transfers (channelMachine.trace start ops)).map carried
    (spent.map (Option.map UInt64.toNat) = (List.range spent.length).map (fun k => some (k + 1)) ∧ spent.Nodup) ∧
    (∀ earlier op later, ops = earlier ++ op :: later →
      let ch := channelMachine.final start earlier
      succeeded (op, (channelMachine.step ch op).2) = false → (channelMachine.step ch op).1 = ch) ∧
    ∀ earlier later, ops = earlier ++ .close :: later →
      let ch := channelMachine.final start earlier
      succeeded (.close, (channelMachine.step ch .close).2) = true →
        ∀ e ∈ channelMachine.trace (channelMachine.step ch .close).1 later, succeeded e = false := by
  intro start spent
  refine ⟨?_, ?_, ?_⟩
  · have numbers : spent = (List.range spent.length).map fun k => some (1 + UInt64.ofNat k) := by
      rw [List.length_map]
      exact (counted_final chainId port chan ops).numbers
    have few' : spent.length < 2 ^ 64 - 1 := by
      rw [List.length_map]
      exact few
    have toNats : spent.map (Option.map UInt64.toNat) = (List.range spent.length).map fun k => some (k + 1) := by
      conv_lhs => rw [numbers]
      rw [List.map_map]
      apply List.map_congr_left
      intro k hk
      have small : k < spent.length := List.mem_range.mp hk
      exact congrArg some (number_toNat (by omega))
    refine ⟨toNats, List.Nodup.of_map (Option.map UInt64.toNat) ?_⟩
    rw [toNats]
    refine List.nodup_range.map fun j k same => ?_
    have same' := Option.some.inj same
    omega
  · intro earlier op later _ ch failed
    exact failing_step ch op failed
  · intro earlier later _ ch ok
    refine run_closed ?_ later
    change ch.close.1.state = .closed
    have open_ : ch.state ≠ .closed := by
      intro closed
      exact absurd (ok.symm.trans (step_closed closed .close).1) (by decide)
    rw [IBCChannel.close, if_neg open_]

theorem channel_lifetime_once :
    (transfers (channelMachine.trace (.new (lit "A") ⟨lit "p"⟩ ⟨lit "c"⟩)
      [.makePacket [] ⟨[]⟩ ⟨[]⟩ [], .open, .makePacket [] ⟨[]⟩ ⟨[]⟩ [], .close])).map carried = [some 1] ∧
    (((transfers (channelMachine.trace (.new (lit "A") ⟨lit "p"⟩ ⟨lit "c"⟩)
      [.makePacket [] ⟨[]⟩ ⟨[]⟩ [], .open, .makePacket [] ⟨[]⟩ ⟨[]⟩ [], .close])).map carried).Nodup) :=
  ⟨by decide, (channel_lifetime (lit "A") ⟨lit "p"⟩ ⟨lit "c"⟩
    [.makePacket [] ⟨[]⟩ ⟨[]⟩ [], .open, .makePacket [] ⟨[]⟩ ⟨[]⟩ [], .close] (by decide)).1.2⟩

end InterchainCommunication.ChannelLifetime
