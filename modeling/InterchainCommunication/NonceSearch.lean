import InterchainCommunication.BoundedSearch
import InterchainCommunication.ConsensusModel

set_option autoImplicit false

namespace InterchainCommunication.NonceSearch
open StringText CoreTypes MachineRuns ConsensusModel BoundedSearch

variable (hash : Bytes → UInt64)

/-- The `while (true)` of `propose`, run for so many turns. -/
def mine (e : PoW) (blk : Block) : ℕ → UInt64 → Option (Option UInt64)
  | 0, _ => none
  | turns + 1, nonce =>
    if e.solves hash blk nonce then some (some nonce)
    else if 1000000 < nonce + 1 then some none
    else mine e blk turns (nonce + 1)

def passes (e : PoW) (blk : Block) (n : ℕ) : Bool := e.solves hash blk (UInt64.ofNat n)

theorem next_nonce (n : ℕ) : UInt64.ofNat n + 1 = UInt64.ofNat (n + 1) := by
  rw [UInt64.ofNat_add]
  rfl

theorem beyond_iff {n : ℕ} (within : n ≤ 1000000) : 1000000 < UInt64.ofNat n + 1 ↔ 1000000 < n + 1 := by
  rw [next_nonce, UInt64.lt_iff_toNat_lt, UInt64.toNat_ofNat']
  change 1000000 < (n + 1) % 2 ^ 64 ↔ _
  omega

/-- No nonce of the loop leaves the range where 64-bit numbers count like others. -/
theorem mine_eq (e : PoW) (blk : Block) {n : ℕ} (within : n ≤ 1000000) (turns : ℕ) :
    mine hash e blk turns (UInt64.ofNat n) =
      (loop (passes hash e blk) 1000000 turns n).map fun found => found.map UInt64.ofNat := by
  induction turns generalizing n with
  | zero => rfl
  | succ turns ih =>
    rw [mine, loop]
    by_cases good : e.solves hash blk (UInt64.ofNat n) = true
    · rw [if_pos good, if_pos (show passes hash e blk n = true from good)]
      rfl
    · rw [if_neg good, if_neg (show ¬ passes hash e blk n = true from good)]
      by_cases last : 1000000 < n + 1
      · rw [if_pos ((beyond_iff within).mpr last), if_pos last]
        rfl
      · rw [if_neg (fun far => last ((beyond_iff within).mp far)), if_neg last, next_nonce]
        exact ih (by omega)

theorem mine_search (e : PoW) (blk : Block) {n tries : ℕ} (left : n + tries = 1000000) (more : ℕ) :
    mine hash e blk (tries + 1 + more) (UInt64.ofNat n) =
      some (e.search hash blk (tries + 1) (UInt64.ofNat n)) := by
  induction tries generalizing n with
  | zero =>
    rw [Nat.zero_add, Nat.add_comm, mine, PoW.search, PoW.search]
    have far : 1000000 < UInt64.ofNat n + 1 := (beyond_iff (by omega)).mpr (by omega)
    rw [if_pos far]
    split <;> rfl
  | succ tries ih =>
    have near : ¬ 1000000 < UInt64.ofNat n + 1 := fun far => by
      have := (beyond_iff (by omega)).mp far
      omega
    rw [show tries + 1 + 1 + more = (tries + 1 + more) + 1 by omega, mine, PoW.search, if_neg near]
    split
    · rfl
    · rw [next_nonce]
      exact ih (by omega)

theorem search_loop (e : PoW) (blk : Block) {found : Option ℕ}
    (ended : loop (passes hash e blk) 1000000 1000001 0 = some found) :
    e.search hash blk 1000001 0 = found.map UInt64.ofNat := by
  have last := mine_search hash e blk (Nat.zero_add 1000000) 0
  have first := mine_eq hash e blk (Nat.zero_le 1000000) 1000001
  rw [ended] at first
  exact Option.some.inj (last.symm.trans first)

theorem hasLeadingZeros_length {s : Bytes} {zeros : ℕ} (h : hasLeadingZeros s zeros = true) : zeros ≤ s.length := by
  induction zeros generalizing s with
  | zero => exact Nat.zero_le _
  | succ zeros ih =>
    cases s with
    | nil => cases h
    | cons b rest =>
      rw [hasLeadingZeros, Bool.and_eq_true] at h
      exact Nat.succ_le_succ (ih h.2)

theorem hex16_length (h : UInt64) : (hex16 h).length = 16 := by
  have digits : (Nat.toDigits 16 h.toNat).length ≤ 16 :=
    (Nat.length_toDigits_le_iff (by decide) (by decide)).mpr h.toNat_lt
  rw [hex16, List.length_append, List.length_replicate, List.length_map]
  omega

theorem solves_difficulty {e : PoW} {blk : Block} {nonce : UInt64} (good : e.solves hash blk nonce = true) :
    e.difficulty.toNat ≤ 16 := by
  have long := hasLeadingZeros_length good
  rw [PoW.computeBlockHash, hex16_length] at long
  exact long

def Minable (e : PoW) (blk : Block) : Prop := ∃ n, n ≤ 1000000 ∧ passes hash e blk n = true

def Fails (e : PoW) (o : Answer PoW (Result Block)) : Prop :=
  o.ret = ⟨⟨.consensusFault, lit "PoW: nonce search failed"⟩, none⟩ ∧ o.engine = e

theorem propose_found {e : PoW} {ctx : ConsensusContext} {txs : List Transaction} {prev : Block} {now : ℤ} {n : ℕ}
    (least : LeastFrom (passes hash e (assemble hash ctx txs prev now [])) 1000000 0 n) :
    let blk := assemble hash ctx txs prev now []
    let o := PoW.propose hash e ctx txs prev now
    o.ret = ⟨⟨.ok, []⟩, some { blk with extra := decimal n }⟩ ∧
      o.engine = { e with minedBlocks := insert (PoW.blockId blk (UInt64.ofNat n)) e.minedBlocks } := by
  intro blk o
  have inside := least.inside
  have found : e.search hash blk 1000001 0 = some (UInt64.ofNat n) :=
    search_loop hash e blk (loop_found least (by omega))
  have number : (UInt64.ofNat n).toNat = n := by
    rw [UInt64.toNat_ofNat']
    omega
  change (PoW.propose hash e ctx txs prev now).ret = _ ∧ (PoW.propose hash e ctx txs prev now).engine = _
  rw [PoW.propose]
  simp only [show e.search hash (assemble hash ctx txs prev now []) 1000001 0 = some (UInt64.ofNat n) from found,
    number]
  exact ⟨rfl, rfl⟩

theorem propose_failed {e : PoW} {ctx : ConsensusContext} {txs : List Transaction} {prev : Block} {now : ℤ}
    (none_ : ¬ Minable hash e (assemble hash ctx txs prev now [])) :
    Fails e (PoW.propose hash e ctx txs prev now) := by
  have fails : ∀ n, 0 ≤ n → n ≤ 1000000 → passes hash e (assemble hash ctx txs prev now []) n = false := by
    intro n _ inside
    by_contra good
    exact none_ ⟨n, inside, by simpa using good⟩
  have lost : e.search hash (assemble hash ctx txs prev now []) 1000001 0 = none :=
    search_loop hash e _ (loop_exhausted fails (Nat.zero_le _) (by omega))
  rw [PoW.propose]
  simp only [lost]
  exact ⟨rfl, rfl⟩

/-- Mining ends, seals the block with the least nonce that solves it, and fails without one. -/
theorem nonce_search (e : PoW) (ctx : ConsensusContext) (txs : List Transaction) (prev : Block) (now : ℤ) :
    let blk := assemble hash ctx txs prev now []
    let o := PoW.propose hash e ctx txs prev now
    (∀ more, mine hash e blk (1000001 + more) 0 = some (e.search hash blk 1000001 0)) ∧
    (Minable hash e blk → ∃ n, LeastFrom (passes hash e blk) 1000000 0 n ∧
      o.ret = ⟨⟨.ok, []⟩, some { blk with extra := decimal n }⟩ ∧
      o.engine = { e with minedBlocks := insert (PoW.blockId blk (UInt64.ofNat n)) e.minedBlocks }) ∧
    (¬ Minable hash e blk → Fails e o) ∧ (16 < e.difficulty → Fails e o) := by
  intro blk o
  refine ⟨fun more => ?_, ?_, propose_failed hash, ?_⟩
  · exact mine_search hash e blk (Nat.zero_add 1000000) more
  · rintro ⟨n, inside, good⟩
    obtain ⟨least, h⟩ := exists_least ⟨n, Nat.zero_le n, inside, good⟩
    exact ⟨least, h, propose_found hash h⟩
  · intro hard
    apply propose_failed hash
    rintro ⟨n, -, good⟩
    have few := solves_difficulty hash good
    have many : 16 < e.difficulty.toNat := UInt32.lt_iff_toNat_lt.mp hard
    omega

end InterchainCommunication.NonceSearch
