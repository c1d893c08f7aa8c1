import InterchainCommunication.BlockchainSteps
import Mathlib.Data.List.Chain

set_option autoImplicit false

namespace InterchainCommunication.LedgerIntegrity
open StringText CoreTypes MachineRuns BlockchainModel BlockchainSteps

/-- The block carries the chain's id and points at `prev`. -/
def Follows (chainId : Bytes) (prev blk : Block) : Prop :=
  blk.header.chainId = chainId ∧ blk.header.prevHash = prev.header.stateRoot

/-- Heights count up from the genesis block, modulo `2 ^ 64`. -/
def Numbered (ledger : List Block) : Prop :=
  ∀ i blk, ledger[i]? = some blk → blk.header.height = UInt64.ofNat i

theorem getLast?_head (b : Blockchain) : b.chain.getLast? = some b.head :=
  List.getLast?_eq_some_getLast b.nonempty

theorem getElem?_head (b : Blockchain) : b.chain[b.chain.length - 1]? = some b.head := by
  rw [← List.getLast?_eq_getElem?, getLast?_head]

theorem appendBlock_accepts {b : Blockchain} {blk : Block} (next : blk.header.height = b.head.header.height + 1) :
    (b.appendBlock blk).ret.ok = true ∧ (b.appendBlock blk).chain.chain = b.chain ++ [blk] := by
  have passes : ¬ blk.header.height ≠ b.head.header.height + 1 := not_not.mpr next
  rw [Blockchain.appendBlock, if_neg passes]
  exact ⟨rfl, rfl⟩

theorem appendBlock_rejects {b : Blockchain} {blk : Block} (gap : blk.header.height ≠ b.head.header.height + 1) :
    (b.appendBlock blk).ret.ok = false ∧ (b.appendBlock blk).chain = b ∧
      published (b.appendBlock blk).effects = [] := by
  rw [Blockchain.appendBlock, if_pos gap]
  exact ⟨rfl, rfl, rfl⟩

theorem appendBlock_ok (b : Blockchain) (blk : Block) :
    (b.appendBlock blk).ret.ok = true ↔ blk.header.height = b.head.header.height + 1 := by
  constructor
  · intro ok
    by_contra gap
    exact absurd (ok.symm.trans (appendBlock_rejects gap).1) (by decide)
  · exact fun next => (appendBlock_accepts next).1

theorem numbered_concat {b : Blockchain} {blk : Block} (h : Numbered b.chain)
    (next : blk.header.height = b.head.header.height + 1) : Numbered (b.chain ++ [blk]) := by
  intro i blk' found
  rcases getElem?_concat_cases found with inside | ⟨rfl, rfl⟩
  · exact h i blk' inside
  · have size : b.chain.length - 1 + 1 = b.chain.length :=
      Nat.sub_add_cancel (List.length_pos_iff.mpr b.nonempty)
    have last := h _ _ (getElem?_head b)
    rw [next, last, ← size]
    simp

theorem numbered_call {b : Blockchain} (h : Numbered b.chain) (op : ChainOp) :
    Numbered (b.call op).chain.chain := by
  by_cases append : ∃ blk, op = .appendBlock blk
  · obtain ⟨blk, rfl⟩ := append
    change Numbered (b.appendBlock blk).chain.chain
    by_cases next : blk.header.height = b.head.header.height + 1
    · rw [(appendBlock_accepts next).2]
      exact numbered_concat h next
    · rw [(appendBlock_rejects next).2.1]
      exact h
  · rw [call_chain _ fun blk same => append ⟨blk, same⟩]
    exact h

theorem numbered_new (chainId : Bytes) : Numbered (Blockchain.new chainId).chain := by
  intro i blk found
  cases i with
  | zero =>
    obtain rfl : Blockchain.genesis chainId = blk := Option.some.inj found
    rfl
  | succ i => cases found

theorem numbered_final (chainId : Bytes) (ops : List ChainOp) :
    Numbered (chainMachine.final (.new chainId) ops).chain :=
  chainMachine.invariant (I := fun b => Numbered b.chain) ops (numbered_new chainId)
    fun _ op _ h => numbered_call h op

/-- A ledger that grows by one block stays a chain exactly when the block follows the head. -/
theorem isChain_concat (b : Blockchain) (R : Block → Block → Prop) (blk : Block) :
    (b.chain ++ [blk]).IsChain R ↔ b.chain.IsChain R ∧ R b.head blk := by
  rw [List.isChain_append, getLast?_head]
  constructor
  · rintro ⟨front, -, joint⟩
    exact ⟨front, joint _ rfl blk rfl⟩
  · rintro ⟨front, joint⟩
    refine ⟨front, List.isChain_singleton blk, ?_⟩
    simpa using joint

/-- Every block the run appended followed the head it was appended to. -/
def AppendsLinked (chainId : Bytes) (ops : List ChainOp) : Prop :=
  ∀ before blk, before ++ [.appendBlock blk] <+: ops →
    blk.header.height = (chainMachine.final (.new chainId) before).head.header.height + 1 →
    Follows chainId (chainMachine.final (.new chainId) before).head blk

theorem linked_iff (chainId : Bytes) (ops : List ChainOp) :
    (chainMachine.final (.new chainId) ops).chain.IsChain (Follows chainId) ↔ AppendsLinked chainId ops := by
  induction ops using List.reverseRecOn with
  | nil =>
    refine iff_of_true (List.isChain_singleton _) fun before blk h => ?_
    exact absurd (List.prefix_nil.mp h) (by simp)
  | append_singleton ops op ih =>
    let b := chainMachine.final (.new chainId) ops
    have earlier : AppendsLinked chainId (ops ++ [op]) ↔ AppendsLinked chainId ops ∧
        ∀ blk, op = .appendBlock blk → blk.header.height = b.head.header.height + 1 →
          Follows chainId b.head blk := by
      constructor
      · intro h
        refine ⟨fun before blk hrun => h before blk (hrun.trans (List.prefix_append _ _)), ?_⟩
        rintro blk rfl
        exact h ops blk (List.prefix_refl _)
      · rintro ⟨old, last⟩ before blk hrun
        rcases List.prefix_concat_iff.mp hrun with whole | inside
        · obtain ⟨rfl, same⟩ := List.append_inj' whole rfl
          exact last blk (List.cons.inj same).1.symm
        · exact old before blk inside
    rw [earlier, ← ih, Machine.final_concat]
    change (b.call op).chain.chain.IsChain _ ↔ b.chain.IsChain _ ∧ _
    by_cases append : ∃ blk, op = .appendBlock blk
    · obtain ⟨blk, rfl⟩ := append
      change (b.appendBlock blk).chain.chain.IsChain _ ↔ _
      by_cases next : blk.header.height = b.head.header.height + 1
      · rw [(appendBlock_accepts next).2, isChain_concat]
        refine and_congr_right fun _ => ⟨fun joint blk' same _ => ?_, fun h => h blk rfl next⟩
        obtain rfl := ChainOp.appendBlock.inj same
        exact joint
      · rw [(appendBlock_rejects next).2.1]
        refine (and_iff_left fun blk' same next' => ?_).symm
        obtain rfl := ChainOp.appendBlock.inj same
        exact absurd next' next
    · rw [call_chain _ fun blk same => append ⟨blk, same⟩]
      exact (and_iff_left fun blk same _ => absurd ⟨blk, same⟩ append).symm

/-- Heights decide what is appended, and nothing else does. -/
theorem ledger_by_height (chainId : Bytes) (ops : List ChainOp) :
    let b := chainMachine.final (.new chainId) ops
    (∀ blk, ((b.appendBlock blk).ret.ok = true ↔ blk.header.height = b.head.header.height + 1) ∧
      ((b.appendBlock blk).ret.ok = true → (b.appendBlock blk).chain.chain = b.chain ++ [blk]) ∧
      ((b.appendBlock blk).ret.ok = false →
        (b.appendBlock blk).chain = b ∧ published (b.appendBlock blk).effects = [])) ∧
    Numbered b.chain ∧ (b.chain.IsChain (Follows chainId) ↔ AppendsLinked chainId ops) := by
  intro b
  refine ⟨fun blk => ⟨appendBlock_ok b blk, fun ok => ?_, fun failed => ?_⟩,
    numbered_final chainId ops, linked_iff chainId ops⟩
  · exact (appendBlock_accepts ((appendBlock_ok b blk).mp ok)).2
  · have gap : blk.header.height ≠ b.head.header.height + 1 := fun next =>
      absurd ((appendBlock_ok b blk).mpr next) (by rw [failed]; decide)
    exact (appendBlock_rejects gap).2

def foreign : Block := ⟨⟨lit "B", 1, lit "elsewhere", 0, lit "root"⟩, [], []⟩

theorem ledger_by_height_foreign :
    (chainMachine.final (.new (lit "A")) [.appendBlock foreign]).chain = [Blockchain.genesis (lit "A"), foreign] ∧
      published ((chainMachine.final (.new (lit "A")) [.appendBlock foreign]).appendBlock foreign).effects = [] ∧
      ¬ AppendsLinked (lit "A") [.appendBlock foreign] := by
  have empty := (ledger_by_height (lit "A") []).1 foreign
  have law := ledger_by_height (lit "A") [.appendBlock foreign]
  refine ⟨empty.2.1 (by decide +kernel), ((law.1 foreign).2.2 (by decide +kernel)).2, ?_⟩
  rw [← law.2.2]
  intro linked
  have follows := (isChain_concat (.new (lit "A")) _ foreign).mp linked
  exact absurd follows.2.1 (by decide)

theorem foreign_block_appended : ¬ ∀ (chainId : Bytes) (blks : List Block),
    (chainMachine.final (.new chainId) (blks.map .appendBlock)).chain.IsChain (Follows chainId) := by
  intro h
  have follows := (isChain_concat (.new (lit "A")) _ foreign).mp (h (lit "A") [foreign])
  exact absurd follows.2.1 (by decide)

end InterchainCommunication.LedgerIntegrity
