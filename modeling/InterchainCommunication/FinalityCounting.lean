import InterchainCommunication.VoteFinality
import InterchainCommunication.WorkFinality

set_option autoImplicit false

namespace InterchainCommunication.FinalityCounting
open StringText CoreTypes MachineRuns ConsensusModel QuorumVoting VoteFinality WorkFinality

/-- What `ConsensusFactory::make` reads of the configuration. -/
inductive EngineConfig
  | pow (powDifficulty : UInt32)
  | pos (validatorSetSize : UInt64)
  | pbft (pbftFaultTolerance : UInt64)
  deriving DecidableEq

def EngineConfig.make : EngineConfig → Engine
  | pow powDifficulty => .pow (.new powDifficulty)
  | pos validatorSetSize => .pos (.new validatorSetSize)
  | pbft pbftFaultTolerance => .pbft (.new pbftFaultTolerance)

def finalIds : Engine → Finset Bytes
  | .pow e => e.minedBlocks
  | .pos e => e.finalizedBlocks
  | .pbft e => e.finalizedBlocks

def finalizedCounters : List Bytes :=
  [lit "block_finalized_PoW", lit "block_finalized_PoS", lit "block_finalized_PBFT"]

def reports (effects : List Effect) : ℕ := (counted effects).countP finalizedCounters.contains

def reportsIn (t : List (EngineOp × EngineReply × List Effect)) : ℕ := (t.map fun e => reports e.2.2).sum

variable (hash : Bytes → UInt64)

def minedId (e : PoW) : EngineOp → Option Bytes
  | .propose ctx txs prev now =>
    let block := assemble hash ctx txs prev now []
    (e.search hash block 1000001 0).map (PoW.blockId block)
  | .onRemoteBlock blk =>
    match stoull blk.extra with
    | .error _ => none
    | .ok nonce => if e.solves hash blk nonce then some (PoW.blockId blk nonce) else none

/-- The id of the block that a call handles. Proof of work handles no block without work. -/
def handled : Engine → EngineOp → Option Bytes
  | .pow e, op => minedId hash e op
  | .pos _, op | .pbft _, op => some (voteOf hash op).1

/-- The block that the call handles is not final yet. -/
def FirstTime (e : Engine) (op : EngineOp) : Prop := ∀ id ∈ handled hash e op, id ∉ finalIds e

instance (e : Engine) (op : EngineOp) : Decidable (FirstTime hash e op) :=
  match h : handled hash e op with
  | none => isTrue fun id member => by simp [h] at member
  | some id => decidable_of_iff (id ∉ finalIds e) (by simp [FirstTime, h])

def Backed : Engine → Prop
  | .pow _ => True
  | .pos e => (posBallots e).Backed e.quorum.toNat
  | .pbft e => (pbftBallots e).Backed e.quorum.toNat

theorem pbft_reports (e : PBFT) (op : EngineOp) : reports ((PBFT.consensus hash).machine.step e op).2.2 =
    if e.quorum.toNat ≤ (((pbftBallots e).cast e.quorum.toNat (voteOf hash op)).votes (voteOf hash op).1).card
      then 1 else 0 := by
  have votes : ((pbftBallots e).cast e.quorum.toNat (voteOf hash op)).votes =
      Function.update e.commitVotes (voteOf hash op).1 (insert (voteOf hash op).2 (e.commitVotes (voteOf hash op).1)) :=
    rfl
  rw [votes]
  have vote : reports (e.vote (voteOf hash op).1 (voteOf hash op).2).2 = if e.quorum.toNat ≤ (Function.update
      e.commitVotes (voteOf hash op).1 (insert (voteOf hash op).2 (e.commitVotes (voteOf hash op).1))
      (voteOf hash op).1).card then 1 else 0 := by
    rw [PBFT.vote]
    split <;> rfl
  rw [← vote]
  cases op <;> rfl

theorem pos_reports (e : PoS) (op : EngineOp) : reports ((PoS.consensus hash).machine.step e op).2.2 =
    if e.quorum.toNat ≤ (((posBallots e).cast e.quorum.toNat (voteOf hash op)).votes (voteOf hash op).1).card
      then 1 else 0 := by
  have votes : ((posBallots e).cast e.quorum.toNat (voteOf hash op)).votes =
      Function.update e.signatures (voteOf hash op).1 (insert (voteOf hash op).2 (e.signatures (voteOf hash op).1)) :=
    rfl
  rw [votes]
  have signed : reports (e.sign (voteOf hash op).1 (voteOf hash op).2).2 = if e.quorum.toNat ≤ (Function.update
      e.signatures (voteOf hash op).1 (insert (voteOf hash op).2 (e.signatures (voteOf hash op).1))
      (voteOf hash op).1).card then 1 else 0 := by
    rw [PoS.sign]
    split <;> rfl
  rw [← signed]
  cases op <;> rfl

theorem pow_reports (e : PoW) (op : EngineOp) :
    ((PoW.consensus hash).machine.step e op).1.minedBlocks =
        (minedId hash e op).elim e.minedBlocks (fun id => insert id e.minedBlocks) ∧
      reports ((PoW.consensus hash).machine.step e op).2.2 = (minedId hash e op).toList.length := by
  cases op with
  | propose ctx txs prev now =>
    change (PoW.propose hash e ctx txs prev now).engine.minedBlocks = _ ∧
      reports (PoW.propose hash e ctx txs prev now).effects = _
    rw [PoW.propose, minedId]
    cases e.search hash (assemble hash ctx txs prev now []) 1000001 0 with
    | none => exact ⟨rfl, rfl⟩
    | some nonce => exact ⟨rfl, rfl⟩
  | onRemoteBlock blk =>
    change (PoW.onRemoteBlock hash e blk).engine.minedBlocks = _ ∧
      reports (PoW.onRemoteBlock hash e blk).effects = _
    rw [PoW.onRemoteBlock, minedId]
    cases stoull blk.extra with
    | error x => exact ⟨rfl, rfl⟩
    | ok nonce =>
      cases good : e.solves hash blk nonce with
      | true =>
        simp only [good, Bool.not_true, Bool.false_eq_true, if_false, if_true]
        exact ⟨rfl, rfl⟩
      | false =>
        simp only [good, Bool.not_false, Bool.false_eq_true, if_false, if_true]
        exact ⟨rfl, rfl⟩

theorem vote_balance {e : Engine} {quorum : ℕ} {b : Ballots Bytes Bytes} (backed : b.Backed quorum)
    (shows : finalIds e = b.final) (op : EngineOp) (handles : handled hash e op = some (voteOf hash op).1) :
    (if quorum ≤ ((b.cast quorum (voteOf hash op)).votes (voteOf hash op).1).card then 1 else 0) + (finalIds e).card =
      (b.cast quorum (voteOf hash op)).final.card + if FirstTime hash e op then 0 else 1 := by
  have first : FirstTime hash e op ↔ (voteOf hash op).1 ∉ b.final := by simp [FirstTime, handles, shows]
  rw [shows, Ballots.card_final_cast backed]
  by_cases old : (voteOf hash op).1 ∈ b.final
  · rw [if_pos old, if_neg (fun f => first.mp f old)]
  · rw [if_neg old, if_pos (first.mpr old)]

theorem pow_balance (e : PoW) (op : EngineOp) :
    reports ((PoW.consensus hash).machine.step e op).2.2 + e.minedBlocks.card =
      ((PoW.consensus hash).machine.step e op).1.minedBlocks.card + if FirstTime hash (.pow e) op then 0 else 1 := by
  obtain ⟨blocks, reported⟩ := pow_reports hash e op
  rw [blocks, reported]
  cases mines : minedId hash e op with
  | none =>
    have first : FirstTime hash (.pow e) op := by simp [FirstTime, handled, mines]
    rw [if_pos first]
    simp
  | some id =>
    have first : FirstTime hash (.pow e) op ↔ id ∉ e.minedBlocks := by simp [FirstTime, handled, mines, finalIds]
    by_cases old : id ∈ e.minedBlocks
    · rw [if_neg (fun f => first.mp f old)]
      simp [Finset.insert_eq_of_mem old, Nat.add_comm]
    · rw [if_pos (first.mpr old)]
      simp [Finset.card_insert_of_notMem old, Nat.add_comm]

theorem pos_balance {e : PoS} (backed : Backed (.pos e)) (op : EngineOp) :
    Backed (.pos ((PoS.consensus hash).machine.step e op).1) ∧
      reports ((PoS.consensus hash).machine.step e op).2.2 + e.finalizedBlocks.card =
        ((PoS.consensus hash).machine.step e op).1.finalizedBlocks.card +
          if FirstTime hash (.pos e) op then 0 else 1 := by
  have quorum : ((PoS.consensus hash).machine.step e op).1.quorum = e.quorum := by
    rw [pos_step, PoS.quorum, PoS.quorum, pos_validators_sign]
  have ballots : posBallots ((PoS.consensus hash).machine.step e op).1 =
      (posBallots e).cast e.quorum.toNat (voteOf hash op) := by
    rw [pos_step, pos_ballots_sign]
  constructor
  · rw [Backed, quorum, ballots]
    exact Ballots.backed_cast backed _
  · rw [pos_reports, show ((PoS.consensus hash).machine.step e op).1.finalizedBlocks = _ from
      congrArg Ballots.final ballots]
    exact vote_balance (e := .pos e) hash backed rfl op rfl

theorem pbft_balance {e : PBFT} (backed : Backed (.pbft e)) (op : EngineOp) :
    Backed (.pbft ((PBFT.consensus hash).machine.step e op).1) ∧
      reports ((PBFT.consensus hash).machine.step e op).2.2 + e.finalizedBlocks.card =
        ((PBFT.consensus hash).machine.step e op).1.finalizedBlocks.card +
          if FirstTime hash (.pbft e) op then 0 else 1 := by
  have quorum : ((PBFT.consensus hash).machine.step e op).1.quorum = e.quorum := by
    rw [pbft_step, PBFT.vote]
    split <;> rfl
  have ballots : pbftBallots ((PBFT.consensus hash).machine.step e op).1 =
      (pbftBallots e).cast e.quorum.toNat (voteOf hash op) := by
    rw [pbft_step, pbft_ballots_vote]
  constructor
  · rw [Backed, quorum, ballots]
    exact Ballots.backed_cast backed _
  · rw [pbft_reports, show ((PBFT.consensus hash).machine.step e op).1.finalizedBlocks = _ from
      congrArg Ballots.final ballots]
    exact vote_balance (e := .pbft e) hash backed rfl op rfl

/-- One call. It reports as many ids as become final, and one more for an id that was. -/
theorem step_reports {e : Engine} (backed : Backed e) (op : EngineOp) :
    Backed ((Engine.consensus hash).machine.step e op).1 ∧
      reports ((Engine.consensus hash).machine.step e op).2.2 + (finalIds e).card =
        (finalIds ((Engine.consensus hash).machine.step e op).1).card + if FirstTime hash e op then 0 else 1 := by
  cases e with
  | pow e =>
    have balance := pow_balance hash e op
    cases op <;> exact ⟨trivial, balance⟩
  | pos e =>
    have balance := pos_balance hash backed op
    cases op <;> exact balance
  | pbft e =>
    have balance := pbft_balance hash backed op
    cases op <;> exact balance

theorem backed_make (cfg : EngineConfig) : Backed cfg.make := by
  cases cfg with
  | pow => trivial
  | pos | pbft => exact fun i member => absurd member (Finset.notMem_empty i)

theorem reportsIn_concat (t : List (EngineOp × EngineReply × List Effect)) (op : EngineOp)
    (out : EngineReply × List Effect) : reportsIn (t ++ [(op, out)]) = reportsIn t + reports out.2 := by
  rw [reportsIn, reportsIn, List.map_append, List.sum_append]
  rfl

/-- Reports and final ids agree exactly in the runs that never handle a final block again. -/
theorem finalized_once_iff (cfg : EngineConfig) (ops : List EngineOp) :
    reportsIn ((Engine.consensus hash).machine.trace cfg.make ops) =
        (finalIds ((Engine.consensus hash).machine.final cfg.make ops)).card ↔
      (Engine.consensus hash).machine.Guarded (fun e _ op => FirstTime hash e op) cfg.make [] ops := by
  have all : Backed ((Engine.consensus hash).machine.final cfg.make ops) ∧
      (finalIds ((Engine.consensus hash).machine.final cfg.make ops)).card ≤
        reportsIn ((Engine.consensus hash).machine.trace cfg.make ops) ∧
      (reportsIn ((Engine.consensus hash).machine.trace cfg.make ops) =
          (finalIds ((Engine.consensus hash).machine.final cfg.make ops)).card ↔
        (Engine.consensus hash).machine.Guarded (fun e _ op => FirstTime hash e op) cfg.make [] ops) := by
    induction ops using List.reverseRecOn with
    | nil =>
      have none : (finalIds cfg.make).card = 0 := by cases cfg <;> rfl
      refine ⟨backed_make cfg, ?_, ?_⟩
      · rw [Machine.final_nil, none]
        exact Nat.zero_le _
      · rw [Machine.final_nil, none]
        exact iff_of_true rfl trivial
    | append_singleton ops op ih =>
      obtain ⟨backed, le, exact_⟩ := ih
      obtain ⟨next, balance⟩ := step_reports hash backed op
      rw [Machine.guarded_concat, ← exact_, Machine.final_concat, Machine.trace_concat, reportsIn_concat]
      refine ⟨next, ?_, ?_⟩
      · split at balance <;> omega
      · split at balance
        · rename_i first
          rw [and_iff_left first]
          omega
        · rename_i again
          exact iff_of_false (by omega) fun both => again both.2
  exact all.2.2

theorem finalized_twice : ¬ ∀ (hash : Bytes → UInt64) (cfg : EngineConfig) (ops : List EngineOp),
    reportsIn ((Engine.consensus hash).machine.trace cfg.make ops) =
      (finalIds ((Engine.consensus hash).machine.final cfg.make ops)).card := by
  intro h
  have once := h (fun _ => 0) (.pbft 0) [.onRemoteBlock (sameIdAs "0"), .onRemoteBlock (sameIdAs "0")]
  exact absurd once (by decide +kernel)

end InterchainCommunication.FinalityCounting
