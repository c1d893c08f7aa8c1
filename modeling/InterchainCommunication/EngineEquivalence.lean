import InterchainCommunication.RemoteVotes

set_option autoImplicit false

namespace InterchainCommunication.EngineEquivalence
open StringText CoreTypes MachineRuns ConsensusModel QuorumVoting VoteFinality RemoteVotes

variable (hash : Bytes → UInt64)

section Relabelling

def posCounter (name : Bytes) : Bytes := name.take (name.length - (lit "PBFT").length) ++ lit "PoS"

def posEffect : Effect → Effect
  | .incCounter name => .incCounter (posCounter name)
  | e => e

/-- A proposed block with the text that the other engine leaves in `extra`. -/
def posBlock (nodeId : Bytes) (blk : Block) : Block := { blk with extra := lit "PoS:proposed:" ++ nodeId }

def posReply : EngineOp → EngineReply → EngineReply
  | .propose ctx _ _ _, .block r => .block ⟨r.status, r.value.map (posBlock ctx.nodeId)⟩
  | _, reply => reply

/-- What a PoS engine answers where a PBFT engine gives the answer. -/
def asPoS (e : EngineOp × EngineReply × List Effect) : EngineOp × EngineReply × List Effect :=
  (e.1, posReply e.1 e.2.1, e.2.2.map posEffect)

/-- The two engines hold the same votes and the same final ids, and ask for the same quorum. -/
structure Alike (p : PBFT) (s : PoS) : Prop where
  votes : s.signatures = p.commitVotes
  final : s.finalizedBlocks = p.finalizedBlocks
  quorum : s.quorum = p.quorum

theorem vote_alike {p : PBFT} {s : PoS} (alike : Alike p s) (blkId nodeId : Bytes) :
    Alike (p.vote blkId nodeId).1 (s.sign blkId nodeId).1 ∧
      (s.sign blkId nodeId).2 = (p.vote blkId nodeId).2.map posEffect := by
  have quorum := alike.quorum
  rw [PBFT.vote, PoS.sign, alike.votes, alike.final, quorum]
  by_cases reached : p.quorum.toNat ≤
      (Function.update p.commitVotes blkId (insert nodeId (p.commitVotes blkId)) blkId).card
  · simp only [if_pos reached]
    exact ⟨⟨rfl, rfl, quorum⟩, rfl⟩
  · simp only [if_neg reached]
    exact ⟨⟨rfl, rfl, quorum⟩, rfl⟩

theorem step_alike {p : PBFT} {s : PoS} (alike : Alike p s) (op : EngineOp) :
    let a := (PBFT.consensus hash).machine.step p op
    let b := (PoS.consensus hash).machine.step s op
    Alike a.1 b.1 ∧ (op, b.2) = asPoS (op, a.2) := by
  cases op with
  | propose ctx txs prev now =>
    obtain ⟨next, effects⟩ := vote_alike alike (headerId (assemble hash ctx txs prev now [])) ctx.nodeId
    refine ⟨next, ?_⟩
    refine Prod.ext rfl (Prod.ext rfl ?_)
    exact congrArg (.incCounter (lit "block_proposed_PoS") :: ·) effects
  | onRemoteBlock blk =>
    obtain ⟨next, effects⟩ := vote_alike alike (headerId blk) (lit "remote")
    refine ⟨next, ?_⟩
    refine Prod.ext rfl (Prod.ext rfl ?_)
    exact congrArg (.incCounter (lit "block_received_PoS") :: ·) effects

theorem run_alike {p : PBFT} {s : PoS} (alike : Alike p s) (ops : List EngineOp) :
    Alike ((PBFT.consensus hash).machine.final p ops) ((PoS.consensus hash).machine.final s ops) ∧
      (PoS.consensus hash).machine.trace s ops = ((PBFT.consensus hash).machine.trace p ops).map asPoS := by
  obtain ⟨finish, shown⟩ := (PBFT.consensus hash).machine.refines (PoS.consensus hash).machine Alike Prod.fst
    (fun e => some (asPoS e)) some
    (fun p s op alike => (step_alike hash alike op).imp_right fun same => congrArg some same.symm) ops alike
  rw [(PBFT.consensus hash).machine.trace_inputs] at finish shown
  refine ⟨finish, ?_⟩
  rw [List.filterMap_some, List.filterMap_eq_map'] at shown
  exact shown.symm

end Relabelling

section Quorums

def genesis : Block := ⟨⟨[], 0, [], 0, []⟩, [], []⟩

def proposals (k : ℕ) : List EngineOp := (List.range k).map fun i => .propose ⟨[], decimal i, 0⟩ [] genesis 0

def proposed : Block := assemble hash ⟨[], [], 0⟩ [] genesis 0 []

theorem card_voters_proposals (k : ℕ) : (voters hash (proposals k) (headerId (proposed hash))).card = k := by
  have everyone : voters hash (proposals k) (headerId (proposed hash)) = (Finset.range k).image decimal := by
    ext v
    rw [mem_voters, Finset.mem_image, proposals, List.map_map, List.mem_map]
    constructor
    · rintro ⟨i, inside, vote⟩
      exact ⟨i, Finset.mem_range.mpr (List.mem_range.mp inside), congrArg Prod.snd vote⟩
    · rintro ⟨i, inside, rfl⟩
      exact ⟨i, List.mem_range.mpr (Finset.mem_range.mp inside), rfl⟩
  rw [everyone, Finset.card_image_of_injective _ decimal_injective, Finset.card_range]

/-- A stake engine of `n` validators answers every run as a fault-tolerant engine for `f` faults
    does, but for the texts, exactly when `n` is `3f` or `3f + 1`. -/
theorem engines_agree_iff {f n : UInt64} (fitsF : 2 * f.toNat + 1 < 2 ^ 64) (fitsN : 2 * n.toNat < 2 ^ 64) :
    (∀ ops : List EngineOp,
      (PoS.consensus hash).machine.trace (.new n) ops = ((PBFT.consensus hash).machine.trace (.new f) ops).map asPoS ∧
      ∀ blk, ((PoS.consensus hash).machine.final (.new n) ops).isFinal blk =
        ((PBFT.consensus hash).machine.final (.new f) ops).isFinal blk) ↔
      n.toNat = 3 * f.toNat ∨ n.toNat = 3 * f.toNat + 1 := by
  have pbft : (2 * f + 1).toNat = 2 * f.toNat + 1 := pbft_quorum_toNat fitsF
  have pos : (n * 2 / 3 + 1).toNat = 2 * n.toNat / 3 + 1 := pos_quorum_toNat fitsN
  constructor
  · intro agree
    -- as many proposals as either quorum asks for tell larger quorums apart
    have quorums (k : ℕ) : 2 * n.toNat / 3 + 1 ≤ k ↔ 2 * f.toNat + 1 ≤ k := by
      have final := (agree (proposals k)).2 (proposed hash)
      rw [Bool.eq_iff_iff, pos_isFinal_iff, pbft_isFinal_iff, card_voters_proposals, pbft, pos] at final
      exact final
    have less := (quorums (2 * f.toNat + 1)).mpr le_rfl
    have more := (quorums (2 * n.toNat / 3 + 1)).mp le_rfl
    omega
  · intro size ops
    have quorum : (PoS.new n).quorum = (PBFT.new f).quorum := by
      rw [← UInt64.toNat_inj, pbft_quorum_toNat fitsF, pos_quorum_toNat fitsN]
      omega
    obtain ⟨alike, trace⟩ := run_alike hash (p := .new f) (s := .new n) ⟨rfl, rfl, quorum⟩ ops
    refine ⟨trace, fun blk => ?_⟩
    rw [PoS.isFinal, PBFT.isFinal, alike.final]
    rfl

theorem engines_agree_ten :
    (PoS.consensus lengthHash).machine.trace (.new 10) fourVoters =
      ((PBFT.consensus lengthHash).machine.trace (.new 3) fourVoters).map asPoS :=
  (((engines_agree_iff lengthHash (f := 3) (n := 10) (by decide) (by decide)).mpr (.inr rfl)) fourVoters).1

end Quorums

section Lonely

/-- Every proposal of the run is made under one name. -/
def ProposedBy (nodeId : Bytes) (ops : List EngineOp) : Prop :=
  ∀ ctx txs prev now, .propose ctx txs prev now ∈ ops → ctx.nodeId = nodeId

theorem voters_proposedBy {nodeId : Bytes} {ops : List EngineOp} (own : ProposedBy nodeId ops) (i : Bytes) :
    voters hash ops i ⊆ {nodeId, lit "remote"} := by
  intro v member
  obtain ⟨op, there, vote⟩ := List.mem_map.mp ((mem_voters hash).mp member)
  rw [Finset.mem_insert, Finset.mem_singleton]
  cases op with
  | propose ctx txs prev now => exact .inl ((congrArg Prod.snd vote).symm.trans (own ctx txs prev now there))
  | onRemoteBlock blk => exact .inr (congrArg Prod.snd vote).symm

def confirmed (nodeId : Bytes) : List EngineOp :=
  [.propose ⟨[], nodeId, 0⟩ [] genesis 0, .onRemoteBlock (proposed hash)]

theorem card_voters_confirmed {nodeId : Bytes} (other : nodeId ≠ lit "remote") :
    (voters hash (confirmed hash nodeId) (headerId (proposed hash))).card = 2 := by
  have both : voters hash (confirmed hash nodeId) (headerId (proposed hash)) = {nodeId, lit "remote"} := by
    ext v
    rw [mem_voters, Finset.mem_insert, Finset.mem_singleton]
    have own : headerId (proposed hash) = (voteOf hash (.propose ⟨[], nodeId, 0⟩ [] genesis 0)).1 := rfl
    simp only [confirmed, List.map_cons, List.map_nil, List.mem_cons, List.not_mem_nil, or_false]
    constructor
    · rintro (vote | vote)
      · exact .inl (congrArg Prod.snd vote)
      · exact .inr (congrArg Prod.snd vote)
    · rintro (rfl | rfl)
      · exact .inl (Prod.ext own rfl)
      · exact .inr rfl
  rw [both, Finset.card_pair other]

/-- A node whose engine only it proposes to sees some block final in some run exactly when the
    engine tolerates no fault, or has at most two validators. -/
theorem lonely_final_iff {nodeId : Bytes} (other : nodeId ≠ lit "remote") :
    (∀ f : UInt64, 2 * f.toNat + 1 < 2 ^ 64 →
      ((∃ ops, ProposedBy nodeId ops ∧
        ∃ blk, ((PBFT.consensus hash).machine.final (.new f) ops).isFinal blk = true) ↔ f.toNat = 0)) ∧
    ∀ n : UInt64, 2 * n.toNat < 2 ^ 64 →
      ((∃ ops, ProposedBy nodeId ops ∧
        ∃ blk, ((PoS.consensus hash).machine.final (.new n) ops).isFinal blk = true) ↔ n.toNat ≤ 2) := by
  have few {ops : List EngineOp} (own : ProposedBy nodeId ops) (i : Bytes) : (voters hash ops i).card ≤ 2 :=
    (Finset.card_le_card (voters_proposedBy hash own i)).trans Finset.card_le_two
  have own : ProposedBy nodeId (confirmed hash nodeId) := by
    intro ctx txs prev now member
    simp only [confirmed, List.mem_cons, EngineOp.propose.injEq, reduceCtorEq, List.not_mem_nil, or_false] at member
    rw [member.1]
  constructor
  · intro f fits
    have quorum : (2 * f + 1).toNat = 2 * f.toNat + 1 := pbft_quorum_toNat fits
    constructor
    · rintro ⟨ops, lonely, blk, final⟩
      have reached := (pbft_isFinal_iff hash f ops blk).mp final
      have bound := few lonely (headerId blk)
      omega
    · intro none
      refine ⟨confirmed hash nodeId, own, proposed hash, (pbft_isFinal_iff ..).mpr ?_⟩
      rw [card_voters_confirmed hash other]
      omega
  · intro n fits
    have quorum : (n * 2 / 3 + 1).toNat = 2 * n.toNat / 3 + 1 := pos_quorum_toNat fits
    constructor
    · rintro ⟨ops, lonely, blk, final⟩
      have reached := (pos_isFinal_iff hash n ops blk).mp final
      have bound := few lonely (headerId blk)
      omega
    · intro small
      refine ⟨confirmed hash nodeId, own, proposed hash, (pos_isFinal_iff ..).mpr ?_⟩
      rw [card_voters_confirmed hash other]
      omega

theorem lonely_final_four :
    ¬∃ ops, ProposedBy (lit "node-0") ops ∧
      ∃ blk, ((PBFT.consensus lengthHash).machine.final (.new 1) ops).isFinal blk = true := by
  intro final
  have other : lit "node-0" ≠ lit "remote" := by decide
  have none := ((lonely_final_iff lengthHash other).1 1 (by decide)).mp final
  exact absurd none (by decide)

end Lonely
end InterchainCommunication.EngineEquivalence
