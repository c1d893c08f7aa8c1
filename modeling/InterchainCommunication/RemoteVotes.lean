import InterchainCommunication.VoteFinality

set_option autoImplicit false

namespace InterchainCommunication.RemoteVotes
open StringText CoreTypes ConsensusModel QuorumVoting VoteFinality

variable (hash : Bytes → UInt64)

/-- The identities that voted for the block id in a run. -/
def voters (ops : List EngineOp) (i : Bytes) : Finset Bytes :=
  (((ops.map (voteOf hash)).filter fun p => p.1 = i).map Prod.snd).toFinset

def remoteVoters (k : ℕ) : Finset Bytes := if k = 0 then ∅ else {lit "remote"}

theorem mem_voters {ops : List EngineOp} {i v : Bytes} : v ∈ voters hash ops i ↔ (i, v) ∈ ops.map (voteOf hash) := by
  simp only [voters, List.mem_toFinset, List.mem_map (f := Prod.snd), List.mem_filter, decide_eq_true_eq]
  constructor
  · rintro ⟨⟨j, w⟩, ⟨voted, rfl⟩, rfl⟩
    exact voted
  · intro voted
    exact ⟨(i, v), ⟨voted, rfl⟩, rfl⟩

section Runs
variable {hash} {ε : Type} {c : Consensus ε} {start : ε} {quorum : ℕ} {shows : ε → Ballots Bytes Bytes}

theorem votes_eq_voters (counts : CountsVotes hash c start quorum shows) (ops : List EngineOp) (i : Bytes) :
    (shows (c.machine.final start ops)).votes i = voters hash ops i := by
  ext v
  rw [shows_final counts, tally, Ballots.mem_votes_castAll, mem_voters]
  exact or_iff_left (Finset.notMem_empty v)

/-- A block id is final exactly when a quorum of different identities voted for it. -/
theorem final_iff_voters (counts : CountsVotes hash c start quorum shows) (asks : 0 < quorum) (ops : List EngineOp)
    (i : Bytes) : i ∈ (shows (c.machine.final start ops)).final ↔ quorum ≤ (voters hash ops i).card := by
  rw [counted_final counts asks ops i, votes_eq_voters counts]

end Runs

/-- After a proposal and `k` remote confirmations, one identity has been added for the
    proposal and at most one for all the confirmations. -/
theorem voters_confirmed (ops : List EngineOp) (ctx : ConsensusContext) (txs : List Transaction) (prev : Block)
    (now : ℤ) (k : ℕ) {blk : Block} (same : headerId (assemble hash ctx txs prev now []) = headerId blk) :
    voters hash (ops ++ .propose ctx txs prev now :: List.replicate k (.onRemoteBlock blk)) (headerId blk) =
      insert ctx.nodeId (voters hash ops (headerId blk)) ∪ remoteVoters k := by
  ext v
  rw [mem_voters, Finset.mem_union, Finset.mem_insert, mem_voters, List.map_append, List.map_cons, List.map_replicate,
    List.mem_append, List.mem_cons, List.mem_replicate]
  have own : (headerId blk, v) = voteOf hash (.propose ctx txs prev now) ↔ v = ctx.nodeId := by
    rw [voteOf, Prod.mk.injEq, same]
    exact and_iff_right rfl
  have others : (k ≠ 0 ∧ (headerId blk, v) = voteOf hash (.onRemoteBlock blk)) ↔ v ∈ remoteVoters k := by
    rw [voteOf, Prod.mk.injEq, remoteVoters]
    by_cases none : k = 0
    · simp [none]
    · simp [none]
  rw [own, others]
  tauto

theorem pbft_quorum_pos (f : UInt64) : 0 < (2 * f + 1).toNat := by
  rw [UInt64.toNat_add, UInt64.toNat_mul]
  change 0 < ((2 * f.toNat) % 2 ^ 64 + 1) % 2 ^ 64
  omega

theorem pos_quorum_pos (n : UInt64) : 0 < (n * 2 / 3 + 1).toNat := by
  rw [UInt64.toNat_add, UInt64.toNat_div, UInt64.toNat_mul]
  change 0 < ((n.toNat * 2) % 2 ^ 64 / 3 + 1) % 2 ^ 64
  omega

theorem pbft_isFinal_iff (f : UInt64) (ops : List EngineOp) (blk : Block) :
    ((PBFT.consensus hash).machine.final (.new f) ops).isFinal blk = true ↔
      (2 * f + 1).toNat ≤ (voters hash ops (headerId blk)).card := by
  rw [PBFT.isFinal, decide_eq_true_eq]
  exact final_iff_voters (pbft_counts hash f) (pbft_quorum_pos f) ops (headerId blk)

theorem pos_isFinal_iff (n : UInt64) (ops : List EngineOp) (blk : Block) :
    ((PoS.consensus hash).machine.final (.new n) ops).isFinal blk = true ↔
      (n * 2 / 3 + 1).toNat ≤ (voters hash ops (headerId blk)).card := by
  rw [PoS.isFinal, decide_eq_true_eq]
  exact final_iff_voters (pos_counts hash n) (pos_quorum_pos n) ops (headerId blk)

theorem headerId_of_made {ctx : ConsensusContext} {txs : List Transaction} {prev blk : Block} {now : ℤ}
    {extra : Bytes} (made : some (assemble hash ctx txs prev now extra) = some blk) :
    headerId (assemble hash ctx txs prev now []) = headerId blk := by
  rw [← Option.some.inj made]
  rfl

/-- In every run finality is a quorum of identities. A proposal adds the node's own identity,
    and remote confirmations, however many, add the one identity "remote". -/
theorem remote_votes_count_once :
    (∀ (f : UInt64) (ops : List EngineOp),
      (∀ blk, ((PBFT.consensus hash).machine.final (.new f) ops).isFinal blk = true ↔
        (2 * f + 1).toNat ≤ (voters hash ops (headerId blk)).card) ∧
      ∀ ctx txs prev now k blk,
        (PBFT.propose hash ((PBFT.consensus hash).machine.final (.new f) ops) ctx txs prev now).ret.value = some blk →
        (((PBFT.consensus hash).machine.final (.new f)
            (ops ++ .propose ctx txs prev now :: List.replicate k (.onRemoteBlock blk))).isFinal blk = true ↔
          (2 * f + 1).toNat ≤ (insert ctx.nodeId (voters hash ops (headerId blk)) ∪ remoteVoters k).card)) ∧
    ∀ (n : UInt64) (ops : List EngineOp),
      (∀ blk, ((PoS.consensus hash).machine.final (.new n) ops).isFinal blk = true ↔
        (n * 2 / 3 + 1).toNat ≤ (voters hash ops (headerId blk)).card) ∧
      ∀ ctx txs prev now k blk,
        (PoS.propose hash ((PoS.consensus hash).machine.final (.new n) ops) ctx txs prev now).ret.value = some blk →
        (((PoS.consensus hash).machine.final (.new n)
            (ops ++ .propose ctx txs prev now :: List.replicate k (.onRemoteBlock blk))).isFinal blk = true ↔
          (n * 2 / 3 + 1).toNat ≤ (insert ctx.nodeId (voters hash ops (headerId blk)) ∪ remoteVoters k).card) := by
  constructor
  · intro f ops
    refine ⟨pbft_isFinal_iff hash f ops, fun ctx txs prev now k blk made => ?_⟩
    have block : some (assemble hash ctx txs prev now (lit "PBFT:proposed")) = some blk := made
    have same : headerId (assemble hash ctx txs prev now []) = headerId blk := headerId_of_made hash block
    rw [pbft_isFinal_iff, voters_confirmed hash ops ctx txs prev now k same]
  · intro n ops
    refine ⟨pos_isFinal_iff hash n ops, fun ctx txs prev now k blk made => ?_⟩
    have block : some (assemble hash ctx txs prev now (lit "PoS:proposed:" ++ ctx.nodeId)) = some blk := made
    have same : headerId (assemble hash ctx txs prev now []) = headerId blk := headerId_of_made hash block
    rw [pos_isFinal_iff, voters_confirmed hash ops ctx txs prev now k same]

def localProposal : EngineOp := .propose ⟨lit "A", lit "n1", 0⟩ [] ⟨⟨lit "A", 0, [], 0, lit "r"⟩, [], []⟩ 0

def proposedBlock (extra : Bytes) : Block :=
  assemble lengthHash ⟨lit "A", lit "n1", 0⟩ [] ⟨⟨lit "A", 0, [], 0, lit "r"⟩, [], []⟩ 0 extra

theorem remote_votes_count_once_second_node :
    let second : EngineOp := .propose ⟨lit "A", lit "n2", 0⟩ [] ⟨⟨lit "A", 0, [], 0, lit "r"⟩, [], []⟩ 0
    ((PBFT.consensus lengthHash).machine.final (.new 1) ([second] ++ localProposal ::
      List.replicate 2 (.onRemoteBlock (proposedBlock (lit "PBFT:proposed"))))).isFinal
        (proposedBlock (lit "PBFT:proposed")) = true := by
  intro second
  have law := ((remote_votes_count_once lengthHash).1 1 [second]).2 ⟨lit "A", lit "n1", 0⟩ []
    ⟨⟨lit "A", 0, [], 0, lit "r"⟩, [], []⟩ 0 2 (proposedBlock (lit "PBFT:proposed")) rfl
  exact law.mpr (by decide +kernel)

/-- With one faulty replica tolerated, or three validators, the proposer and as many remote
    confirmations as should do are still only two voters. -/
theorem remote_confirmations_not_enough :
    (¬ ∀ (hash : Bytes → UInt64) (f : UInt64) (ops : List EngineOp) ctx txs prev now blk,
      (PBFT.propose hash ((PBFT.consensus hash).machine.final (.new f) ops) ctx txs prev now).ret.value = some blk →
      ((PBFT.consensus hash).machine.final (.new f)
        (ops ++ .propose ctx txs prev now :: List.replicate (2 * f.toNat) (.onRemoteBlock blk))).isFinal blk = true) ∧
    ¬ ∀ (hash : Bytes → UInt64) (n : UInt64) (ops : List EngineOp) ctx txs prev now blk, 1 ≤ n →
      (PoS.propose hash ((PoS.consensus hash).machine.final (.new n) ops) ctx txs prev now).ret.value = some blk →
      ((PoS.consensus hash).machine.final (.new n)
        (ops ++ .propose ctx txs prev now :: List.replicate (2 * n.toNat / 3) (.onRemoteBlock blk))).isFinal blk =
      true := by
  constructor
  · intro h
    have final := h lengthHash 1 [] ⟨lit "A", lit "n1", 0⟩ [] ⟨⟨lit "A", 0, [], 0, lit "r"⟩, [], []⟩ 0
      (proposedBlock (lit "PBFT:proposed")) rfl
    exact absurd final (by decide +kernel)
  · intro h
    have final := h lengthHash 3 [] ⟨lit "A", lit "n1", 0⟩ [] ⟨⟨lit "A", 0, [], 0, lit "r"⟩, [], []⟩ 0
      (proposedBlock (lit "PoS:proposed:n1")) (by decide) rfl
    exact absurd final (by decide +kernel)

end InterchainCommunication.RemoteVotes
