import InterchainCommunication.WorkFinality

set_option autoImplicit false

namespace InterchainCommunication.WorkBinding
open StringText CoreTypes MachineRuns ConsensusModel WorkFinality

/-- The text that `computeBlockHash` hashes. -/
def hashedText (blk : Block) (nonce : UInt64) : Bytes :=
  blk.header.chainId ++ decimal blk.header.height.toNat ++ blk.header.prevHash ++ blk.header.stateRoot ++
    decimal nonce.toNat

theorem computeBlockHash_eq (hash : Bytes → UInt64) (blk : Block) (nonce : UInt64) :
    PoW.computeBlockHash hash blk nonce = hex16 (hash (hashedText blk nonce)) := rfl

/-- The header fields under the hash, and the nonce. -/
structure SameWork (b b' : Block) (n n' : UInt64) : Prop where
  chainId : b.header.chainId = b'.header.chainId
  height : b.header.height = b'.header.height
  prevHash : b.header.prevHash = b'.header.prevHash
  stateRoot : b.header.stateRoot = b'.header.stateRoot
  nonce : n = n'

/-- The fields before the nonce end at the same places. -/
structure SameLengths (b b' : Block) : Prop where
  chainId : b.header.chainId.length = b'.header.chainId.length
  height : (decimal b.header.height.toNat).length = (decimal b'.header.height.toNat).length
  prevHash : b.header.prevHash.length = b'.header.prevHash.length
  stateRoot : b.header.stateRoot.length = b'.header.stateRoot.length

theorem sameWork_of_text {b b' : Block} {n n' : UInt64} (same : hashedText b n = hashedText b' n')
    (lengths : SameLengths b b') : SameWork b b' n n' := by
  rw [hashedText, hashedText, List.append_assoc, List.append_assoc, List.append_assoc, List.append_assoc,
    List.append_assoc, List.append_assoc] at same
  obtain ⟨chainId, same⟩ := List.append_inj same lengths.chainId
  obtain ⟨height, same⟩ := List.append_inj same lengths.height
  obtain ⟨prevHash, same⟩ := List.append_inj same lengths.prevHash
  obtain ⟨stateRoot, nonce⟩ := List.append_inj same lengths.stateRoot
  exact ⟨chainId, UInt64.toNat_inj.mp (decimal_injective height), prevHash, stateRoot,
    UInt64.toNat_inj.mp (decimal_injective nonce)⟩

theorem blockHash_eq_iff (b b' : Block) (n n' : UInt64) :
    (∀ hash : Bytes → UInt64, PoW.computeBlockHash hash b n = PoW.computeBlockHash hash b' n') ↔
      hashedText b n = hashedText b' n' := by
  constructor
  · intro same
    by_contra other
    have marked := same fun text => if text = hashedText b n then 0 else 1
    rw [computeBlockHash_eq, computeBlockHash_eq, if_pos rfl, if_neg (fun e => other e.symm)] at marked
    exact absurd marked (by decide)
  · intro same hash
    rw [computeBlockHash_eq, computeBlockHash_eq, same]

/-- Two headers have the same hash under every hash function exactly when their texts run
    together to the same one. Where the fields end at the same places, all of them agree. -/
theorem work_bound_to_text (b b' : Block) (n n' : UInt64) :
    let sameHash := ∀ hash : Bytes → UInt64, PoW.computeBlockHash hash b n = PoW.computeBlockHash hash b' n'
    (sameHash ↔ hashedText b n = hashedText b' n') ∧ (sameHash → SameLengths b b' → SameWork b b' n n') := by
  intro sameHash
  refine ⟨blockHash_eq_iff b b' n n', fun same lengths => ?_⟩
  exact sameWork_of_text ((blockHash_eq_iff b b' n n').mp same) lengths

def blockAt (height : UInt64) (prevHash stateRoot : String) : Block :=
  ⟨⟨lit "A", height, lit prevHash, 0, lit stateRoot⟩, [], []⟩

theorem work_transfers : ¬ ∀ (b b' : Block) (n n' : UInt64),
    (∀ hash : Bytes → UInt64, PoW.computeBlockHash hash b n = PoW.computeBlockHash hash b' n') →
      SameWork b b' n n' := by
  intro h
  have same : hashedText (blockAt 1 "25" "7") 0 = hashedText (blockAt 12 "5" "7") 0 := by decide
  have agree := h (blockAt 1 "25" "7") (blockAt 12 "5" "7") 0 0 ((blockHash_eq_iff _ _ _ _).mpr same)
  exact absurd agree.height (by decide)

/-- The verdict and everything else about a remote block rest on its header and its nonce.
    What `propose` returns has the root of its transactions. -/
theorem verification_ignores_txs (hash : Bytes → UInt64) (e : PoW) (blk : Block) :
    ((PoW.onRemoteBlock hash e blk).ret.ok = true ↔ Worked hash e blk) ∧
    (∀ txs, PoW.onRemoteBlock hash e { blk with txs := txs } = PoW.onRemoteBlock hash e blk) ∧
    ∀ ctx txs prev now sealed, (PoW.propose hash e ctx txs prev now).ret = ⟨⟨.ok, []⟩, some sealed⟩ →
      sealed.header.stateRoot = computeStateRoot hash sealed.txs := by
  refine ⟨onRemoteBlock_ok hash e blk, fun _ => rfl, ?_⟩
  intro ctx txs prev now sealed proposed
  have value := congrArg Result.value proposed
  rcases propose_cases hash e ctx txs prev now with ⟨-, none⟩ | ⟨n, -, made, -⟩
  · rw [none] at value
    cases value
  · obtain rfl := Option.some.inj (value.symm.trans made)
    rfl

theorem forged_txs_accepted : ¬ ∀ (hash : Bytes → UInt64) (e : PoW) (blk : Block),
    (PoW.onRemoteBlock hash e blk).ret.ok = true → blk.header.stateRoot = computeStateRoot hash blk.txs := by
  intro h
  let forged : Block := { sameIdAs "0" with txs := [⟨lit "alice", lit "bob", lit "5", .regular, []⟩] }
  have root := h shortHash (.new 16) forged (by decide +kernel)
  exact absurd root (by decide +kernel)

end InterchainCommunication.WorkBinding
