import InterchainCommunication.ConsensusModel
import InterchainCommunication.XorFolds

set_option autoImplicit false

namespace InterchainCommunication.StateRoots
open StringText CoreTypes ConsensusModel XorFolds

def hashedText (tx : Transaction) : Bytes := tx.from ++ tx.to ++ tx.payload

theorem computeStateRoot_eq (hash : Bytes → UInt64) (txs : List Transaction) :
    computeStateRoot hash txs = decimal (xorFold hash (txs.map hashedText)).toNat := by
  rw [computeStateRoot, xorFold, List.foldl_map]
  rfl

/-- The lists agree position by position in what a transaction says. -/
def SameTransfers (txs txs' : List Transaction) : Prop :=
  txs.map (fun tx => (tx.from, tx.to, tx.payload)) = txs'.map fun tx => (tx.from, tx.to, tx.payload)

/-- The root fixes how often each text occurs, up to pairs, and nothing else. -/
theorem stateRoot_eq_iff (txs txs' : List Transaction) :
    (∀ hash : Bytes → UInt64, computeStateRoot hash txs = computeStateRoot hash txs') ↔
      ∀ text, Even ((txs.map hashedText).count text) ↔ Even ((txs'.map hashedText).count text) := by
  rw [← xorFold_eq_iff]
  constructor
  · intro roots hash
    have root := roots hash
    rw [computeStateRoot_eq, computeStateRoot_eq] at root
    exact UInt64.toNat_inj.mp (decimal_injective root)
  · intro folds hash
    rw [computeStateRoot_eq, computeStateRoot_eq, folds hash]

def transfer («from» «to» payload : String) : Transaction := ⟨lit «from», lit «to», lit payload, .regular, []⟩

/-- Two lists in which no transaction agrees, with one root under every hash. -/
theorem stateRoot_ambiguous : ¬ ∀ txs txs' : List Transaction,
    (∀ hash : Bytes → UInt64, computeStateRoot hash txs = computeStateRoot hash txs') → SameTransfers txs txs' := by
  intro h
  have roots (hash : Bytes → UInt64) : computeStateRoot hash [transfer "alice" "bob" "5"] =
      computeStateRoot hash [transfer "a" "licebob" "5", transfer "x" "y" "z", transfer "x" "y" "z"] := by
    rw [computeStateRoot_eq, computeStateRoot_eq]
    apply congrArg (fun fold => decimal (UInt64.toNat fold))
    have paired : List.map hashedText [transfer "a" "licebob" "5", transfer "x" "y" "z", transfer "x" "y" "z"] =
        [lit "alicebob5", lit "xyz", lit "xyz"] := by decide
    have single : List.map hashedText [transfer "alice" "bob" "5"] = [lit "alicebob5"] := by decide
    rw [single, paired]
    simp
  exact absurd (h _ _ roots) (by unfold SameTransfers; decide)

end InterchainCommunication.StateRoots
