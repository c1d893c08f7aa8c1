import InterchainCommunication.VoteFinality
import Mathlib.Data.UInt

set_option autoImplicit false

namespace InterchainCommunication.VoteAgreement
open StringText CoreTypes MachineRuns ConsensusModel QuorumVoting VoteFinality

/-- The block an entry of a trace proposed, with the proposing node. -/
def proposal : EngineOp × EngineReply × List Effect → Option (Bytes × Block)
  | (.propose ctx _ _ _, .block r, _) => r.value.map (ctx.nodeId, ·)
  | _ => none

def proposed (t : List (EngineOp × EngineReply × List Effect)) : List (Bytes × Block) :=
  t.filterMap proposal

def ProposedBy (electorate : Finset Bytes) (op : EngineOp) : Prop :=
  ∃ ctx txs prev now, op = .propose ctx txs prev now ∧ ctx.nodeId ∈ electorate

/-- The two blocks claim the same place: one chain id, one height. -/
def Rivals (b b' : Block) : Prop :=
  b.header.chainId = b'.header.chainId ∧ b.header.height = b'.header.height

instance (b b' : Block) : Decidable (Rivals b b') := inferInstanceAs (Decidable (_ ∧ _))

def OneContent (ps : List (Bytes × Block)) : Prop :=
  ∀ p ∈ ps, ∀ q ∈ ps, p.1 = q.1 → Rivals p.2 q.2 →
    p.2.header.prevHash = q.2.header.prevHash ∧ p.2.txs = q.2.txs

def OneParent (ps : List (Bytes × Block)) : Prop :=
  ∀ p ∈ ps, ∀ q ∈ ps, p.1 = q.1 → Rivals p.2 q.2 → p.2.header.prevHash = q.2.header.prevHash

/-- No block id is shared across chain ids or heights. -/
def Unambiguous (ps : List (Bytes × Block)) : Prop :=
  ∀ p ∈ ps, ∀ q ∈ ps, headerId p.2 = headerId q.2 → Rivals p.2 q.2

/-- In every run of at most `size` proposers that keep the promise, final rivals
    are the same in the given respect. -/
def Agreement {ε : Type} (c : Consensus ε) (start : ε) (size : ℕ) (promise : List (Bytes × Block) → Prop)
    (same : Block → Block → Prop) : Prop :=
  ∀ (ops : List EngineOp) (electorate : Finset Bytes), electorate.card ≤ size →
    (∀ op ∈ ops, ProposedBy electorate op) → promise (proposed (c.machine.trace start ops)) →
    ∀ p ∈ proposed (c.machine.trace start ops), ∀ q ∈ proposed (c.machine.trace start ops), Rivals p.2 q.2 →
      c.isFinal (c.machine.final start ops) p.2 = true → c.isFinal (c.machine.final start ops) q.2 = true →
      same p.2 q.2

theorem oneContent_of_nodup {ps : List (Bytes × Block)} (once : (ps.map Prod.fst).Nodup) : OneContent ps := by
  intro p hp q hq same _
  obtain rfl := List.inj_on_of_nodup_map once hp hq same
  exact ⟨rfl, rfl⟩

theorem oneParent_of_oneContent {ps : List (Bytes × Block)} (h : OneContent ps) : OneParent ps :=
  fun p hp q hq same rivals => (h p hp q hq same rivals).1

section Ids

/-- Behind its last separator a text is read in one way. -/
theorem split_last {c : UInt8} {s s' t t' : Bytes} (ht : c ∉ t) (ht' : c ∉ t')
    (h : s ++ c :: t = s' ++ c :: t') : s = s' ∧ t = t' := by
  have first : cut c (s ++ c :: t).reverse = some (t.reverse, s.reverse) :=
    cut_eq_some.mpr ⟨by simp, by simpa using ht⟩
  have second : cut c (s' ++ c :: t').reverse = some (t'.reverse, s'.reverse) :=
    cut_eq_some.mpr ⟨by simp, by simpa using ht'⟩
  rw [h, second] at first
  simpa [and_comm, eq_comm] using first

theorem colon_notMem_decimal (n : ℕ) : (58 : UInt8) ∉ decimal n := by
  intro member
  exact absurd (decimal_isDigit member) (by decide)

theorem headerId_eq (b : Block) :
    headerId b = (b.header.chainId ++ 58 :: decimal b.header.height.toNat) ++ 58 :: b.header.prevHash := by
  have colon : lit ":" = [58] := by decide
  simp [headerId, colon]

theorem height_of_decimal {b b' : Block}
    (h : decimal b.header.height.toNat = decimal b'.header.height.toNat) :
    b.header.height = b'.header.height := UInt64.toNat_inj.mp (decimal_injective h)

/-- State roots are decimals, so on a parent that an engine made the id is unambiguous. -/
theorem unambiguous_of_prevHash {ps : List (Bytes × Block)}
    (plain : ∀ p ∈ ps, (58 : UInt8) ∉ p.2.header.prevHash) : Unambiguous ps := by
  intro p hp q hq same
  rw [headerId_eq, headerId_eq] at same
  obtain ⟨front, -⟩ := split_last (plain p hp) (plain q hq) same
  obtain ⟨chain, height⟩ := split_last (colon_notMem_decimal _) (colon_notMem_decimal _) front
  exact ⟨chain, height_of_decimal height⟩

theorem unambiguous_of_chainId {ps : List (Bytes × Block)}
    (plain : ∀ p ∈ ps, (58 : UInt8) ∉ p.2.header.chainId) : Unambiguous ps := by
  intro p hp q hq same
  have read (b : Block) (hb : (58 : UInt8) ∉ b.header.chainId) : cut 58 (headerId b) =
      some (b.header.chainId, decimal b.header.height.toNat ++ 58 :: b.header.prevHash) :=
    cut_eq_some.mpr ⟨by rw [headerId_eq]; simp, hb⟩
  have rest (b : Block) : cut 58 (decimal b.header.height.toNat ++ 58 :: b.header.prevHash) =
      some (decimal b.header.height.toNat, b.header.prevHash) :=
    cut_eq_some.mpr ⟨rfl, colon_notMem_decimal _⟩
  have chain := read p.2 (plain p hp)
  rw [same, read q.2 (plain q hq)] at chain
  obtain ⟨name, tail⟩ := Prod.mk.inj (Option.some.inj chain)
  have height := rest p.2
  rw [← tail, rest q.2] at height
  exact ⟨name.symm, height_of_decimal (Prod.mk.inj (Option.some.inj height)).1.symm⟩

theorem prevHash_of_headerId {b b' : Block} (rivals : Rivals b b') (same : headerId b = headerId b') :
    b.header.prevHash = b'.header.prevHash := by
  rw [headerId_eq, headerId_eq, rivals.1, rivals.2] at same
  exact (List.cons.inj (List.append_cancel_left same)).2

end Ids

section Runs
variable {hash : Bytes → UInt64} {ε : Type} {c : Consensus ε} {start : ε} {quorum : ℕ}
  {shows : ε → Ballots Bytes Bytes}

def ReturnsBlock (hash : Bytes → UInt64) (c : Consensus ε) (extra : Bytes → Bytes) : Prop :=
  ∀ e ctx txs prev now,
    (c.propose e ctx txs prev now).ret.value = some (assemble hash ctx txs prev now (extra ctx.nodeId))

def proposalOf (hash : Bytes → UInt64) (extra : Bytes → Bytes) : EngineOp → Option (Bytes × Block)
  | .propose ctx txs prev now => some (ctx.nodeId, assemble hash ctx txs prev now (extra ctx.nodeId))
  | .onRemoteBlock _ => none

theorem proposed_trace {extra : Bytes → Bytes} (returns : ReturnsBlock hash c extra) (s : ε)
    (ops : List EngineOp) : proposed (c.machine.trace s ops) = ops.filterMap (proposalOf hash extra) := by
  induction ops generalizing s with
  | nil => rfl
  | cons op ops ih =>
    have first : proposal (op, (c.machine.step s op).2) = proposalOf hash extra op := by
      cases op with
      | propose ctx txs prev now => exact congrArg (Option.map (ctx.nodeId, ·)) (returns s ctx txs prev now)
      | onRemoteBlock blk => rfl
    have rest : List.filterMap proposal _ = _ := ih (c.machine.step s op).1
    rw [Machine.trace_cons, proposed, List.filterMap_cons, first, List.filterMap_cons, rest]

theorem vote_proposed {electorate : Finset Bytes} {ops : List EngineOp}
    (known : ∀ op ∈ ops, ProposedBy electorate op) (extra : Bytes → Bytes) {i v : Bytes}
    (voted : (i, v) ∈ ops.map (voteOf hash)) :
    ∃ b, (v, b) ∈ ops.filterMap (proposalOf hash extra) ∧ headerId b = i := by
  obtain ⟨op, member, vote⟩ := List.mem_map.mp voted
  obtain ⟨ctx, txs, prev, now, rfl, -⟩ := known op member
  obtain ⟨rfl, rfl⟩ := Prod.mk.inj vote
  exact ⟨_, List.mem_filterMap.mpr ⟨_, member, rfl⟩, rfl⟩

theorem voters_proposed {electorate : Finset Bytes} {ops : List EngineOp}
    (known : ∀ op ∈ ops, ProposedBy electorate op) : ∀ op ∈ ops, (voteOf hash op).2 ∈ electorate := by
  intro op hop
  obtain ⟨ctx, txs, prev, now, rfl, inside⟩ := known op hop
  exact inside

/-- The voter two quorums share proposed on both parents, so they are one. -/
theorem agreement_of_votes (counts : CountsVotes hash c start quorum shows) {extra : Bytes → Bytes}
    (returns : ReturnsBlock hash c extra) (finals : ∀ e b, c.isFinal e b = true ↔ headerId b ∈ (shows e).final)
    (asks : 0 < quorum) {size : ℕ} (majority : size < 2 * quorum) :
    Agreement c start size (fun ps => OneParent ps ∧ Unambiguous ps)
      fun b b' => b.header.prevHash = b'.header.prevHash := by
  intro ops electorate small known promise p hp q hq rivals finalP finalQ
  rw [proposed_trace returns] at promise hp hq
  obtain ⟨oneParent, unambiguous⟩ := promise
  rw [finals, shows_final counts] at finalP finalQ
  obtain ⟨v, votedP, votedQ⟩ := common_voter asks (by omega)
    (voters_known (voters_proposed known)) finalP finalQ
  obtain ⟨b, memB, idB⟩ := vote_proposed known extra votedP
  obtain ⟨b', memB', idB'⟩ := vote_proposed known extra votedQ
  have placeB : Rivals b p.2 := unambiguous _ memB _ hp idB
  have placeB' : Rivals b' q.2 := unambiguous _ memB' _ hq idB'
  have place : Rivals b b' :=
    ⟨placeB.1.trans (rivals.1.trans placeB'.1.symm), placeB.2.trans (rivals.2.trans placeB'.2.symm)⟩
  have parent : b.header.prevHash = b'.header.prevHash := oneParent _ memB _ memB' rfl place
  rw [← prevHash_of_headerId placeB idB, parent, prevHash_of_headerId placeB' idB']

end Runs

theorem pbft_returnsBlock (hash : Bytes → UInt64) :
    ReturnsBlock hash (PBFT.consensus hash) fun _ => lit "PBFT:proposed" :=
  fun _ _ _ _ _ => rfl

theorem pos_returnsBlock (hash : Bytes → UInt64) :
    ReturnsBlock hash (PoS.consensus hash) fun nodeId => lit "PoS:proposed:" ++ nodeId :=
  fun _ _ _ _ _ => rfl

section Rivalry

def rivalTx : Transaction := ⟨lit "a", lit "b", lit "pay", .regular, lit "t1"⟩

def rivalPrev : Block := ⟨⟨lit "A", 0, [], 0, lit "r"⟩, [], []⟩

/-- One node proposes a transaction and two nodes propose none, all on one parent. -/
def rivalContents : List EngineOp :=
  [(lit "n1", [rivalTx]), (lit "n2", []), (lit "n3", [])].map fun p =>
    .propose ⟨lit "A", p.1, 0⟩ p.2 rivalPrev 0

def threeNodes : Finset Bytes := ([lit "n1", lit "n2", lit "n3"]).toFinset

def rivalBlock (extra : Bytes → Bytes) : Bool → Block
  | true => assemble lengthHash ⟨lit "A", lit "n1", 0⟩ [rivalTx] rivalPrev 0 (extra (lit "n1"))
  | false => assemble lengthHash ⟨lit "A", lit "n2", 0⟩ [] rivalPrev 0 (extra (lit "n2"))

theorem threeNodes_card : threeNodes.card = 3 := by decide +kernel

theorem rivalContents_proposedBy : ∀ op ∈ rivalContents, ProposedBy threeNodes op := by
  refine List.forall_mem_map.mpr fun p hp => ⟨_, _, _, _, rfl, ?_⟩
  revert p
  decide +kernel

theorem rivalBlock_voted (extra : Bytes → Bytes) (b : Bool) :
    ∀ v ∈ threeNodes, (headerId (rivalBlock extra b), v) ∈ rivalContents.map (voteOf lengthHash) := by
  cases b
  · change ∀ v ∈ threeNodes, (headerId (rivalBlock id false), v) ∈ _
    decide +kernel
  · change ∀ v ∈ threeNodes, (headerId (rivalBlock id true), v) ∈ _
    decide +kernel

theorem rivalBlock_rivals (extra : Bytes → Bytes) : Rivals (rivalBlock extra true) (rivalBlock extra false) := by
  simp only [Rivals, rivalBlock, assemble, and_self]

theorem rivalBlock_stateRoot (extra : Bytes → Bytes) :
    (rivalBlock extra true).header.stateRoot ≠ (rivalBlock extra false).header.stateRoot := by
  change computeStateRoot lengthHash [rivalTx] ≠ computeStateRoot lengthHash []
  decide +kernel

variable {ε : Type} {c : Consensus ε} {start : ε} {quorum : ℕ} {shows : ε → Ballots Bytes Bytes}
  {extra : Bytes → Bytes}

theorem rivalBlock_proposed (returns : ReturnsBlock lengthHash c extra) (start : ε) :
    (lit "n1", rivalBlock extra true) ∈ proposed (c.machine.trace start rivalContents) ∧
      (lit "n2", rivalBlock extra false) ∈ proposed (c.machine.trace start rivalContents) := by
  rw [proposed_trace returns]
  exact ⟨List.mem_cons_self, List.mem_cons_of_mem _ List.mem_cons_self⟩

theorem rivalContents_oneContent (returns : ReturnsBlock lengthHash c extra) (start : ε) :
    OneContent (proposed (c.machine.trace start rivalContents)) := by
  rw [proposed_trace returns]
  apply oneContent_of_nodup
  change [lit "n1", lit "n2", lit "n3"].Nodup
  decide +kernel

theorem rivalContents_unambiguous (returns : ReturnsBlock lengthHash c extra) (start : ε) :
    Unambiguous (proposed (c.machine.trace start rivalContents)) := by
  rw [proposed_trace returns]
  apply unambiguous_of_prevHash
  intro p hp
  obtain ⟨op, member, made⟩ := List.mem_filterMap.mp hp
  obtain ⟨q, -, rfl⟩ := List.mem_map.mp member
  obtain rfl := Option.some.inj made
  change (58 : UInt8) ∉ lit "r"
  decide +kernel

theorem rivalBlock_final (extra : Bytes → Bytes) (counts : CountsVotes lengthHash c start quorum shows)
    (finals : ∀ e b, c.isFinal e b = true ↔ headerId b ∈ (shows e).final) (asks : 0 < quorum)
    (few : quorum ≤ 3) (b : Bool) :
    c.isFinal (c.machine.final start rivalContents) (rivalBlock extra b) = true := by
  have three := threeNodes_card
  exact (finals _ _).mpr (final_of_voters counts asks threeNodes (by omega) (rivalBlock_voted extra b))

theorem not_agreement (counts : CountsVotes lengthHash c start quorum shows)
    (returns : ReturnsBlock lengthHash c extra) (finals : ∀ e b, c.isFinal e b = true ↔ headerId b ∈ (shows e).final)
    (asks : 0 < quorum) (few : quorum ≤ 3) {size : ℕ} (room : 3 ≤ size) :
    ¬ Agreement c start size OneContent fun b b' =>
      b.header.prevHash = b'.header.prevHash ∧ b.header.stateRoot = b'.header.stateRoot := by
  intro h
  have three := threeNodes_card
  have listed := rivalBlock_proposed returns start
  have same := h rivalContents threeNodes (by omega) rivalContents_proposedBy
    (rivalContents_oneContent returns start) _ listed.1 _ listed.2 (rivalBlock_rivals extra)
    (rivalBlock_final extra counts finals asks few true) (rivalBlock_final extra counts finals asks few false)
  exact rivalBlock_stateRoot extra same.2

end Rivalry

/-- Final rivals have one parent. Their contents may differ. -/
theorem final_rivals_share_parent (hash : Bytes → UInt64) :
    (∀ f : UInt64, 2 * f.toNat + 1 < 2 ^ 64 →
      Agreement (PBFT.consensus hash) (.new f) (3 * f.toNat + 1) (fun ps => OneParent ps ∧ Unambiguous ps)
        fun b b' => b.header.prevHash = b'.header.prevHash) ∧
    ∀ n : UInt64, 2 * n.toNat < 2 ^ 64 →
      Agreement (PoS.consensus hash) (.new n) n.toNat (fun ps => OneParent ps ∧ Unambiguous ps)
        fun b b' => b.header.prevHash = b'.header.prevHash := by
  constructor
  · intro f fits
    exact agreement_of_votes (pbft_countsVotes hash fits) (pbft_returnsBlock hash)
      (fun e b => decide_eq_true_iff) (by omega) (by omega)
  · intro n fits
    exact agreement_of_votes (pos_countsVotes hash fits) (pos_returnsBlock hash)
      (fun e b => decide_eq_true_iff) (by omega) (by omega)

theorem final_rivals_share_parent_three_nodes :
    (rivalBlock (fun _ => lit "PBFT:proposed") true).header.prevHash =
      (rivalBlock (fun _ => lit "PBFT:proposed") false).header.prevHash ∧
    (rivalBlock (lit "PoS:proposed:" ++ ·) true).header.prevHash =
      (rivalBlock (lit "PoS:proposed:" ++ ·) false).header.prevHash := by
  have law := final_rivals_share_parent lengthHash
  have three := threeNodes_card
  constructor
  · have returns := pbft_returnsBlock lengthHash
    have final := rivalBlock_final (fun _ => lit "PBFT:proposed") (pbft_countsVotes lengthHash (f := 1) (by decide))
      (fun e b => decide_eq_true_iff) (by decide) (by decide)
    have listed := rivalBlock_proposed returns (.new 1)
    exact law.1 1 (by decide) rivalContents threeNodes (by rw [three]; decide) rivalContents_proposedBy
      ⟨oneParent_of_oneContent (rivalContents_oneContent returns _), rivalContents_unambiguous returns _⟩
      _ listed.1 _ listed.2 (rivalBlock_rivals _) (final true) (final false)
  · have returns := pos_returnsBlock lengthHash
    have final := rivalBlock_final (lit "PoS:proposed:" ++ ·) (pos_countsVotes lengthHash (n := 3) (by decide))
      (fun e b => decide_eq_true_iff) (by decide) (by decide)
    have listed := rivalBlock_proposed returns (.new 3)
    exact law.2 3 (by decide) rivalContents threeNodes (by rw [three]; decide) rivalContents_proposedBy
      ⟨oneParent_of_oneContent (rivalContents_oneContent returns _), rivalContents_unambiguous returns _⟩
      _ listed.1 _ listed.2 (rivalBlock_rivals _) (final true) (final false)

theorem final_rivals_differ :
    (¬ ∀ f : UInt64, Agreement (PBFT.consensus lengthHash) (.new f) (3 * f.toNat + 1) OneContent fun b b' =>
      b.header.prevHash = b'.header.prevHash ∧ b.header.stateRoot = b'.header.stateRoot) ∧
    ¬ ∀ n : UInt64, Agreement (PoS.consensus lengthHash) (.new n) n.toNat OneContent fun b b' =>
      b.header.prevHash = b'.header.prevHash ∧ b.header.stateRoot = b'.header.stateRoot := by
  constructor
  · intro h
    exact not_agreement (pbft_countsVotes lengthHash (f := 1) (by decide)) (pbft_returnsBlock lengthHash)
      (fun e b => decide_eq_true_iff) (by decide) (by decide) (by decide) (h 1)
  · intro h
    exact not_agreement (pos_countsVotes lengthHash (n := 3) (by decide)) (pos_returnsBlock lengthHash)
      (fun e b => decide_eq_true_iff) (by decide) (by decide) (by decide) (h 3)

section Ambiguity

def emptyOn (chainId v root : String) (height : UInt64) : EngineOp :=
  .propose ⟨lit chainId, lit v, 0⟩ [] ⟨⟨lit chainId, height, [], 0, lit root⟩, [], []⟩ 0

def sharedId : List EngineOp :=
  [emptyOn "a" "n1" "p" 0, emptyOn "a" "n2" "p" 0, emptyOn "a" "n3" "p" 0, emptyOn "a" "n4" "2:x" 0,
    emptyOn "a:1" "n1" "x" 1, emptyOn "a:1" "n2" "x" 1]

def sharedBlock (root : String) : Block :=
  assemble lengthHash ⟨lit "a", [], 0⟩ [] ⟨⟨lit "a", 0, [], 0, lit root⟩, [], []⟩ 0 (lit "PBFT:proposed")

theorem sharedId_proposedBy :
    ∀ op ∈ sharedId, ProposedBy ([lit "n1", lit "n2", lit "n3", lit "n4"]).toFinset op := by
  have by_name (chainId v root : String) (height : UInt64)
      (known : lit v ∈ ([lit "n1", lit "n2", lit "n3", lit "n4"]).toFinset) :
      ProposedBy ([lit "n1", lit "n2", lit "n3", lit "n4"]).toFinset (emptyOn chainId v root height) :=
    ⟨_, _, _, _, rfl, known⟩
  simp only [sharedId, List.forall_mem_cons, List.not_mem_nil, false_imp_iff, implies_true, and_true]
  refine ⟨?_, ?_, ?_, ?_, ?_, ?_⟩ <;> exact by_name _ _ _ _ (by decide +kernel)

theorem sharedId_final (root : String) (voters : Finset Bytes) (enough : 3 ≤ voters.card)
    (voted : ∀ v ∈ voters, (headerId (sharedBlock root), v) ∈ sharedId.map (voteOf lengthHash)) :
    (PBFT.consensus lengthHash).isFinal ((PBFT.consensus lengthHash).machine.final (.new 1) sharedId)
      (sharedBlock root) = true :=
  decide_eq_true (pbft_final_of_voters (f := 1) (by decide) voters enough voted)

/-- With the separator in chain ids, votes add up for different parents. -/
theorem parents_differ_of_shared_id : ¬ Agreement (PBFT.consensus lengthHash) (.new 1) 4 OneContent
    fun b b' => b.header.prevHash = b'.header.prevHash := by
  intro h
  have agree := h sharedId _ (by decide +kernel) sharedId_proposedBy
  rw [proposed_trace (pbft_returnsBlock lengthHash)] at agree
  have first := sharedId_final "p" ([lit "n1", lit "n2", lit "n3"]).toFinset (by decide +kernel)
    (by decide +kernel)
  have second := sharedId_final "2:x" ([lit "n1", lit "n2", lit "n4"]).toFinset (by decide +kernel)
    (by decide +kernel)
  have parent := agree (by unfold OneContent; decide +kernel) (lit "n1", sharedBlock "p") (by decide +kernel)
    (lit "n4", sharedBlock "2:x") (by decide +kernel) (by decide +kernel) first second
  exact absurd parent (by decide +kernel)

/-- At this tolerance the quorum `2 * f + 1` wraps to one. -/
theorem parents_differ_of_overflow : ¬ Agreement (PBFT.consensus lengthHash) (.new (2 ^ 63)) (3 * 2 ^ 63 + 1)
    (fun ps => OneContent ps ∧ Unambiguous ps) fun b b' => b.header.prevHash = b'.header.prevHash := by
  intro h
  have known : ∀ op ∈ [emptyOn "a" "n1" "p" 0, emptyOn "a" "n4" "2:x" 0],
      ProposedBy ([lit "n1", lit "n4"]).toFinset op := by
    intro op hop
    rcases List.mem_pair.mp hop with rfl | rfl <;> exact ⟨_, _, _, _, rfl, by decide +kernel⟩
  have agree := h _ _ (by decide +kernel) known
  rw [proposed_trace (pbft_returnsBlock lengthHash)] at agree
  have parent := agree ⟨by unfold OneContent; decide +kernel, by unfold Unambiguous; decide +kernel⟩
    (lit "n1", sharedBlock "p") (by decide +kernel) (lit "n4", sharedBlock "2:x") (by decide +kernel)
    (by decide +kernel) (by decide +kernel) (by decide +kernel)
  exact absurd parent (by decide +kernel)

end Ambiguity

end InterchainCommunication.VoteAgreement
