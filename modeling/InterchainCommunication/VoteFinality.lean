import InterchainCommunication.ConsensusModel
import InterchainCommunication.QuorumVoting
import Mathlib.Tactic

set_option autoImplicit false

namespace InterchainCommunication.VoteFinality
open StringText CoreTypes MachineRuns ConsensusModel QuorumVoting

variable (hash : Bytes → UInt64)

/-- The block id a call votes for, and the identity it votes under. -/
def voteOf : EngineOp → Bytes × Bytes
  | .propose ctx txs prev now => (headerId (assemble hash ctx txs prev now []), ctx.nodeId)
  | .onRemoteBlock blk => (headerId blk, lit "remote")

def tally (quorum : ℕ) (ops : List EngineOp) : Ballots Bytes Bytes :=
  Ballots.empty.castAll quorum (ops.map (voteOf hash))

/-- An engine whose state shows the ballots that its calls cast. -/
structure CountsVotes {ε : Type} (c : Consensus ε) (start : ε) (quorum : ℕ)
    (shows : ε → Ballots Bytes Bytes) : Prop where
  starts : shows start = Ballots.empty
  casts : ∀ ops op, shows (c.machine.step (c.machine.final start ops) op).1 =
    (shows (c.machine.final start ops)).cast quorum (voteOf hash op)

theorem shows_final {hash : Bytes → UInt64} {ε : Type} {c : Consensus ε} {start : ε} {quorum : ℕ}
    {shows : ε → Ballots Bytes Bytes} (counts : CountsVotes hash c start quorum shows) (ops : List EngineOp) :
    shows (c.machine.final start ops) = tally hash quorum ops := by
  induction ops using List.reverseRecOn with
  | nil => exact counts.starts
  | append_singleton ops op ih =>
    rw [Machine.final_concat, counts.casts, ih, tally, tally, List.map_append, Ballots.castAll, Ballots.castAll,
      List.foldl_append]
    rfl

section PBFT

def pbftBallots (e : PBFT) : Ballots Bytes Bytes := ⟨e.commitVotes, e.finalizedBlocks⟩

/-- What every run keeps: the tolerance, and one table of votes kept twice. -/
def PBFTKept (f : UInt64) (e : PBFT) : Prop := e.f = f ∧ e.prepareVotes = e.commitVotes

theorem pbft_quorum_toNat {f : UInt64} (fits : 2 * f.toNat + 1 < 2 ^ 64) :
    (PBFT.new f).quorum.toNat = 2 * f.toNat + 1 := by
  change (2 * f + 1).toNat = _
  rw [UInt64.toNat_add, UInt64.toNat_mul]
  change ((2 * f.toNat) % 2 ^ 64 + 1) % 2 ^ 64 = _
  rw [Nat.mod_eq_of_lt (by omega : 2 * f.toNat < 2 ^ 64), Nat.mod_eq_of_lt fits]

theorem pbft_ballots_vote (e : PBFT) (blkId nodeId : Bytes) :
    pbftBallots (e.vote blkId nodeId).1 = (pbftBallots e).cast e.quorum.toNat (blkId, nodeId) := by
  let votes := Function.update e.commitVotes blkId (insert nodeId (e.commitVotes blkId))
  change _ = (⟨votes, if e.quorum.toNat ≤ (votes blkId).card then insert blkId e.finalizedBlocks
    else e.finalizedBlocks⟩ : Ballots Bytes Bytes)
  rw [PBFT.vote]
  by_cases reached : e.quorum.toNat ≤ (votes blkId).card
  · rw [if_pos reached, if_pos reached]
    rfl
  · rw [if_neg reached, if_neg reached]
    rfl

theorem pbft_kept_vote {f : UInt64} {e : PBFT} (h : PBFTKept f e) (blkId nodeId : Bytes) :
    PBFTKept f (e.vote blkId nodeId).1 := by
  obtain ⟨tolerance, tables⟩ := h
  simp only [PBFT.vote, tables]
  split <;> exact ⟨tolerance, rfl⟩

theorem pbft_step (e : PBFT) (op : EngineOp) :
    ((PBFT.consensus hash).machine.step e op).1 = (e.vote (voteOf hash op).1 (voteOf hash op).2).1 := by
  cases op with
  | propose ctx txs prev now => rfl
  | onRemoteBlock blk => rfl

theorem pbft_kept_final (f : UInt64) (ops : List EngineOp) :
    PBFTKept f ((PBFT.consensus hash).machine.final (.new f) ops) := by
  refine Machine.invariant _ ops ⟨rfl, rfl⟩ ?_
  intro e op _ h
  rw [pbft_step]
  exact pbft_kept_vote h _ _

theorem pbft_counts (f : UInt64) :
    CountsVotes hash (PBFT.consensus hash) (.new f) (PBFT.new f).quorum.toNat pbftBallots where
  starts := rfl
  casts := by
    intro ops op
    have tolerance := (pbft_kept_final hash f ops).1
    rw [pbft_step, pbft_ballots_vote, PBFT.quorum, tolerance]
    rfl

theorem pbft_countsVotes {f : UInt64} (fits : 2 * f.toNat + 1 < 2 ^ 64) :
    CountsVotes hash (PBFT.consensus hash) (.new f) (2 * f.toNat + 1) pbftBallots := by
  rw [← pbft_quorum_toNat fits]
  exact pbft_counts hash f

end PBFT

section PoS

def posBallots (e : PoS) : Ballots Bytes Bytes := ⟨e.signatures, e.finalizedBlocks⟩

theorem pos_quorum_toNat {n : UInt64} (fits : 2 * n.toNat < 2 ^ 64) :
    (PoS.new n).quorum.toNat = 2 * n.toNat / 3 + 1 := by
  change (n * 2 / 3 + 1).toNat = _
  rw [UInt64.toNat_add, UInt64.toNat_div, UInt64.toNat_mul]
  change ((n.toNat * 2) % 2 ^ 64 / 3 + 1) % 2 ^ 64 = _
  rw [Nat.mod_eq_of_lt (by omega : n.toNat * 2 < 2 ^ 64), Nat.mod_eq_of_lt (by omega), Nat.mul_comm]

theorem pos_ballots_sign (e : PoS) (blkId nodeId : Bytes) :
    posBallots (e.sign blkId nodeId).1 = (posBallots e).cast e.quorum.toNat (blkId, nodeId) := by
  let votes := Function.update e.signatures blkId (insert nodeId (e.signatures blkId))
  change _ = (⟨votes, if e.quorum.toNat ≤ (votes blkId).card then insert blkId e.finalizedBlocks
    else e.finalizedBlocks⟩ : Ballots Bytes Bytes)
  rw [PoS.sign]
  by_cases reached : e.quorum.toNat ≤ (votes blkId).card
  · rw [if_pos reached, if_pos reached]
    rfl
  · rw [if_neg reached, if_neg reached]
    rfl

theorem pos_validators_sign (e : PoS) (blkId nodeId : Bytes) :
    (e.sign blkId nodeId).1.validators = e.validators := by
  simp only [PoS.sign]
  split <;> rfl

theorem pos_step (e : PoS) (op : EngineOp) :
    ((PoS.consensus hash).machine.step e op).1 = (e.sign (voteOf hash op).1 (voteOf hash op).2).1 := by
  cases op with
  | propose ctx txs prev now => rfl
  | onRemoteBlock blk => rfl

theorem pos_validators_final (n : UInt64) (ops : List EngineOp) :
    ((PoS.consensus hash).machine.final (.new n) ops).validators = n := by
  refine Machine.invariant (I := fun e : PoS => e.validators = n) _ ops rfl ?_
  intro e op _ h
  rw [pos_step, pos_validators_sign, h]

theorem pos_counts (n : UInt64) :
    CountsVotes hash (PoS.consensus hash) (.new n) (PoS.new n).quorum.toNat posBallots where
  starts := rfl
  casts := by
    intro ops op
    have size := pos_validators_final hash n ops
    rw [pos_step, pos_ballots_sign, PoS.quorum, size]
    rfl

theorem pos_countsVotes {n : UInt64} (fits : 2 * n.toNat < 2 ^ 64) :
    CountsVotes hash (PoS.consensus hash) (.new n) (2 * n.toNat / 3 + 1) posBallots := by
  rw [← pos_quorum_toNat fits]
  exact pos_counts hash n

end PoS

section Runs
variable {hash} {ε : Type} {c : Consensus ε} {start : ε} {quorum : ℕ} {shows : ε → Ballots Bytes Bytes}

theorem counted_final (counts : CountsVotes hash c start quorum shows) (asks : 0 < quorum)
    (ops : List EngineOp) : (shows (c.machine.final start ops)).Counted quorum := by
  rw [shows_final counts]
  exact Ballots.counted_castAll (Ballots.counted_empty asks) _

theorem final_mono (counts : CountsVotes hash c start quorum shows) (ops more : List EngineOp) :
    (shows (c.machine.final start ops)).final ⊆ (shows (c.machine.final start (ops ++ more))).final := by
  rw [shows_final counts, shows_final counts, tally, tally, List.map_append, Ballots.castAll, Ballots.castAll,
    List.foldl_append]
  exact Ballots.final_castAll_mono quorum _ _

theorem final_of_voters (counts : CountsVotes hash c start quorum shows) (asks : 0 < quorum)
    {ops : List EngineOp} {i : Bytes} (voters : Finset Bytes) (enough : quorum ≤ voters.card)
    (voted : ∀ v ∈ voters, (i, v) ∈ ops.map (voteOf hash)) :
    i ∈ (shows (c.machine.final start ops)).final := by
  rw [counted_final counts asks ops i, shows_final counts]
  refine enough.trans (Finset.card_le_card fun v hv => ?_)
  exact (Ballots.mem_votes_castAll quorum _ _ i v).mpr (.inl (voted v hv))

theorem pbft_final_of_voters {f : UInt64} (fits : 2 * f.toNat + 1 < 2 ^ 64) {ops : List EngineOp} {i : Bytes}
    (voters : Finset Bytes) (enough : 2 * f.toNat + 1 ≤ voters.card)
    (voted : ∀ v ∈ voters, (i, v) ∈ ops.map (voteOf hash)) :
    i ∈ ((PBFT.consensus hash).machine.final (.new f) ops).finalizedBlocks :=
  final_of_voters (pbft_countsVotes hash fits) (by omega) voters enough voted

theorem pos_final_of_voters {n : UInt64} (fits : 2 * n.toNat < 2 ^ 64) {ops : List EngineOp} {i : Bytes}
    (voters : Finset Bytes) (enough : 2 * n.toNat / 3 + 1 ≤ voters.card)
    (voted : ∀ v ∈ voters, (i, v) ∈ ops.map (voteOf hash)) :
    i ∈ ((PoS.consensus hash).machine.final (.new n) ops).finalizedBlocks :=
  final_of_voters (pos_countsVotes hash fits) (by omega) voters enough voted

theorem voters_known {electorate : Finset Bytes} {ops : List EngineOp}
    (known : ∀ op ∈ ops, (voteOf hash op).2 ∈ electorate) :
    ∀ p ∈ ops.map (voteOf hash), p.2 ∈ electorate := by
  intro p hp
  obtain ⟨op, member, rfl⟩ := List.mem_map.mp hp
  exact known op member

theorem overlap_final (counts : CountsVotes hash c start quorum shows) (asks : 0 < quorum)
    {electorate : Finset Bytes} {ops : List EngineOp} (known : ∀ op ∈ ops, (voteOf hash op).2 ∈ electorate)
    {i j : Bytes} (hi : i ∈ (shows (c.machine.final start ops)).final)
    (hj : j ∈ (shows (c.machine.final start ops)).final) :
    2 * quorum ≤ electorate.card + ((shows (c.machine.final start ops)).votes i ∩
      (shows (c.machine.final start ops)).votes j).card := by
  rw [shows_final counts] at hi hj ⊢
  exact shared_voters asks (voters_known known) hi hj

end Runs

/-- Finality is having a quorum, for good, and final ids share voters. -/
theorem finality_by_quorum :
    (∀ (f : UInt64) (ops : List EngineOp), 2 * f.toNat + 1 < 2 ^ 64 →
      let run := (PBFT.consensus hash).machine.final (.new f)
      let e := run ops
      (∀ i, i ∈ e.finalizedBlocks ↔ 2 * f.toNat + 1 ≤ (e.commitVotes i).card) ∧
      (∀ i, e.prepareVotes i = e.commitVotes i) ∧
      (∀ more, e.finalizedBlocks ⊆ (run (ops ++ more)).finalizedBlocks) ∧
      ∀ electorate : Finset Bytes, electorate.card ≤ 3 * f.toNat + 1 →
        (∀ op ∈ ops, (voteOf hash op).2 ∈ electorate) → ∀ i ∈ e.finalizedBlocks, ∀ j ∈ e.finalizedBlocks,
          f.toNat + 1 ≤ (e.commitVotes i ∩ e.commitVotes j).card) ∧
    ∀ (n : UInt64) (ops : List EngineOp), 2 * n.toNat < 2 ^ 64 →
      let run := (PoS.consensus hash).machine.final (.new n)
      let e := run ops
      (∀ i, i ∈ e.finalizedBlocks ↔ 2 * n.toNat / 3 + 1 ≤ (e.signatures i).card) ∧
      (∀ more, e.finalizedBlocks ⊆ (run (ops ++ more)).finalizedBlocks) ∧
      ∀ electorate : Finset Bytes, electorate.card ≤ n.toNat →
        (∀ op ∈ ops, (voteOf hash op).2 ∈ electorate) → ∀ i ∈ e.finalizedBlocks, ∀ j ∈ e.finalizedBlocks,
          n.toNat < 3 * (e.signatures i ∩ e.signatures j).card := by
  constructor
  · intro f ops fits run e
    have counts := pbft_countsVotes hash fits
    refine ⟨counted_final counts (by omega) ops, congrFun (pbft_kept_final hash f ops).2,
      fun more => final_mono counts ops more, ?_⟩
    intro electorate size known i hi j hj
    have overlap := overlap_final counts (by omega) known hi hj
    change _ ≤ electorate.card + (e.commitVotes i ∩ e.commitVotes j).card at overlap
    omega
  · intro n ops fits run e
    have counts := pos_countsVotes hash fits
    refine ⟨counted_final counts (by omega) ops, fun more => final_mono counts ops more, ?_⟩
    intro electorate size known i hi j hj
    have overlap := overlap_final counts (by omega) known hi hj
    change _ ≤ electorate.card + (e.signatures i ∩ e.signatures j).card at overlap
    omega

def fourVoters : List EngineOp :=
  [("n1", "r"), ("n2", "r"), ("n3", "r"), ("n2", "s"), ("n3", "s"), ("n4", "s")].map fun p =>
    .propose ⟨lit "A", lit p.1, 0⟩ [] ⟨⟨lit "A", 0, [], 0, lit p.2⟩, [], []⟩ 0

def lengthHash (s : Bytes) : UInt64 := UInt64.ofNat s.length

theorem finality_by_quorum_four_voters :
    (1 : UInt64).toNat + 1 ≤
      (((PBFT.consensus lengthHash).machine.final (.new 1) fourVoters).commitVotes (lit "A:1:r") ∩
        ((PBFT.consensus lengthHash).machine.final (.new 1) fourVoters).commitVotes (lit "A:1:s")).card ∧
    (4 : UInt64).toNat <
      3 * (((PoS.consensus lengthHash).machine.final (.new 4) fourVoters).signatures (lit "A:1:r") ∩
        ((PoS.consensus lengthHash).machine.final (.new 4) fourVoters).signatures (lit "A:1:s")).card := by
  have known : ∀ op ∈ fourVoters,
      (voteOf lengthHash op).2 ∈ ([lit "n1", lit "n2", lit "n3", lit "n4"]).toFinset := by decide +kernel
  have first : ∀ v ∈ ([lit "n1", lit "n2", lit "n3"]).toFinset,
      (lit "A:1:r", v) ∈ fourVoters.map (voteOf lengthHash) := by decide +kernel
  have second : ∀ v ∈ ([lit "n2", lit "n3", lit "n4"]).toFinset,
      (lit "A:1:s", v) ∈ fourVoters.map (voteOf lengthHash) := by decide +kernel
  have law := finality_by_quorum lengthHash
  exact ⟨(law.1 1 fourVoters (by decide)).2.2.2 _ (by decide +kernel) known
      _ (pbft_final_of_voters (by decide) _ (by decide +kernel) first)
      _ (pbft_final_of_voters (by decide) _ (by decide +kernel) second),
    (law.2 4 fourVoters (by decide)).2.2 _ (by decide +kernel) known
      _ (pos_final_of_voters (by decide) _ (by decide +kernel) first)
      _ (pos_final_of_voters (by decide) _ (by decide +kernel) second)⟩

end InterchainCommunication.VoteFinality
