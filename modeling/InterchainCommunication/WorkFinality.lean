import InterchainCommunication.ConsensusModel
import Mathlib.Tactic

set_option autoImplicit false

namespace InterchainCommunication.WorkFinality
open StringText CoreTypes MachineRuns ConsensusModel

variable (hash : Bytes → UInt64)

/-- The block that a call added to the mined ones: an Ok proposal or an accepted remote block. -/
def mined : EngineOp × EngineReply × List Effect → Option Block
  | (.propose _ _ _ _, .block r, _) => r.value
  | (.onRemoteBlock blk, .status s, _) => if s.ok then some blk else none
  | _ => none

/-- The nonce in the block's extra field, when it reads as one. -/
def nonceOf (blk : Block) : Option UInt64 := (stoull blk.extra).toOption

/-- The block carries a nonce with which it meets the difficulty of the engine. -/
def Worked (e : PoW) (blk : Block) : Prop := ∃ n, nonceOf blk = some n ∧ e.solves hash blk n = true

def idOf (blk : Block) : Option Bytes := (nonceOf blk).map (PoW.blockId blk)

def remember (e : PoW) (blk : Block) (n : UInt64) : PoW :=
  { e with minedBlocks := insert (PoW.blockId blk n) e.minedBlocks }

/-- The remembered ids are those of the blocks mined so far, each with its work. -/
structure Accounted (difficulty : UInt32) (e : PoW) (t : List (EngineOp × EngineReply × List Effect)) :
    Prop where
  same : e.difficulty = difficulty
  ids : ∀ id, id ∈ e.minedBlocks ↔ ∃ b ∈ t.filterMap mined, idOf b = some id
  work : ∀ b ∈ t.filterMap mined, Worked hash e b

theorem search_solves {e : PoW} {blk : Block} {tries : ℕ} {nonce n : UInt64}
    (found : e.search hash blk tries nonce = some n) : e.solves hash blk n = true := by
  induction tries generalizing nonce with
  | zero => cases found
  | succ tries ih =>
    rw [PoW.search] at found
    split at found
    · rename_i good
      obtain rfl := Option.some.inj found
      exact good
    · exact ih found

theorem propose_cases (e : PoW) (ctx : ConsensusContext) (txs : List Transaction) (prev : Block) (now : ℤ) :
    ((PoW.propose hash e ctx txs prev now).engine = e ∧ (PoW.propose hash e ctx txs prev now).ret.value = none) ∨
    ∃ n, e.solves hash (assemble hash ctx txs prev now (decimal n.toNat)) n = true ∧
      (PoW.propose hash e ctx txs prev now).ret.value =
        some (assemble hash ctx txs prev now (decimal n.toNat)) ∧
      (PoW.propose hash e ctx txs prev now).engine =
        remember e (assemble hash ctx txs prev now (decimal n.toNat)) n := by
  rw [PoW.propose]
  cases found : e.search hash (assemble hash ctx txs prev now []) 1000001 0 with
  | none => exact .inl ⟨rfl, rfl⟩
  | some n =>
    have good : e.solves hash (assemble hash ctx txs prev now []) n = true := search_solves hash found
    exact .inr ⟨n, good, rfl, rfl⟩

theorem onRemoteBlock_accepts {e : PoW} {blk : Block} {n : UInt64} (parsed : nonceOf blk = some n)
    (good : e.solves hash blk n = true) :
    (PoW.onRemoteBlock hash e blk).ret.ok = true ∧
      (PoW.onRemoteBlock hash e blk).engine = remember e blk n := by
  rw [PoW.onRemoteBlock]
  cases read : stoull blk.extra with
  | error x =>
    rw [nonceOf, read] at parsed
    cases parsed
  | ok m =>
    rw [nonceOf, read] at parsed
    obtain rfl : m = n := Option.some.inj parsed
    simp only [good, Bool.not_true, Bool.false_eq_true, if_false]
    exact ⟨rfl, rfl⟩

theorem onRemoteBlock_rejects {e : PoW} {blk : Block} (bad : ¬ Worked hash e blk) :
    (PoW.onRemoteBlock hash e blk).ret.ok = false ∧ (PoW.onRemoteBlock hash e blk).engine = e := by
  rw [PoW.onRemoteBlock]
  cases read : stoull blk.extra with
  | error x => exact ⟨rfl, rfl⟩
  | ok m =>
    have short : e.solves hash blk m = false := by
      by_contra good
      exact bad ⟨m, by rw [nonceOf, read]; rfl, by simpa using good⟩
    simp only [short, Bool.not_false, if_true]
    exact ⟨rfl, trivial⟩

theorem onRemoteBlock_ok (e : PoW) (blk : Block) :
    (PoW.onRemoteBlock hash e blk).ret.ok = true ↔ Worked hash e blk := by
  constructor
  · intro ok
    by_contra bad
    exact absurd (ok.symm.trans (onRemoteBlock_rejects hash bad).1) (by decide)
  · rintro ⟨n, parsed, good⟩
    exact (onRemoteBlock_accepts hash parsed good).1

theorem nonceOf_assemble (ctx : ConsensusContext) (txs : List Transaction) (prev : Block) (now : ℤ)
    (n : UInt64) : nonceOf (assemble hash ctx txs prev now (decimal n.toNat)) = some n := by
  change (stoull (decimal n.toNat)).toOption = some n
  rw [stoull_decimal]
  rfl

/-- What a proof-of-work call can do: nothing to the table, or one block mined with its work. -/
theorem step_cases (e : PoW) (op : EngineOp) :
    (((PoW.consensus hash).machine.step e op).1 = e ∧
      mined (op, ((PoW.consensus hash).machine.step e op).2) = none) ∨
    ∃ b n, mined (op, ((PoW.consensus hash).machine.step e op).2) = some b ∧ nonceOf b = some n ∧
      e.solves hash b n = true ∧ ((PoW.consensus hash).machine.step e op).1 = remember e b n := by
  cases op with
  | propose ctx txs prev now =>
    rcases propose_cases hash e ctx txs prev now with quiet | ⟨n, good, value, next⟩
    · exact .inl quiet
    · exact .inr ⟨_, n, value, nonceOf_assemble hash ctx txs prev now n, good, next⟩
  | onRemoteBlock blk =>
    have shown : mined (.onRemoteBlock blk, ((PoW.consensus hash).machine.step e (.onRemoteBlock blk)).2) =
      if (PoW.onRemoteBlock hash e blk).ret.ok then some blk else none := rfl
    by_cases worked : Worked hash e blk
    · obtain ⟨n, parsed, good⟩ := worked
      obtain ⟨ok, next⟩ := onRemoteBlock_accepts hash parsed good
      rw [ok] at shown
      exact .inr ⟨blk, n, shown, parsed, good, next⟩
    · obtain ⟨failed, same⟩ := onRemoteBlock_rejects hash worked
      rw [failed] at shown
      exact .inl ⟨same, shown⟩

theorem accounted_step {difficulty : UInt32} {e : PoW} {t : List (EngineOp × EngineReply × List Effect)}
    (h : Accounted hash difficulty e t) (op : EngineOp) :
    Accounted hash difficulty ((PoW.consensus hash).machine.step e op).1
      (t ++ [(op, ((PoW.consensus hash).machine.step e op).2)]) := by
  rcases step_cases hash e op with ⟨same, quiet⟩ | ⟨b, n, minedB, parsed, good, next⟩
  · have blocks : (t ++ [(op, ((PoW.consensus hash).machine.step e op).2)]).filterMap mined =
        t.filterMap mined := by
      rw [filterMap_concat, quiet]
      exact List.append_nil _
    rw [same]
    exact ⟨h.same, fun id => by rw [blocks, h.ids], fun b hb => h.work b (blocks ▸ hb)⟩
  · have blocks : (t ++ [(op, ((PoW.consensus hash).machine.step e op).2)]).filterMap mined =
        t.filterMap mined ++ [b] := by
      rw [filterMap_concat, minedB]
      rfl
    have id : idOf b = some (PoW.blockId b n) := by rw [idOf, parsed]; rfl
    rw [next]
    refine ⟨h.same, ?_, ?_⟩
    · intro i
      change i ∈ insert (PoW.blockId b n) e.minedBlocks ↔ _
      rw [Finset.mem_insert, h.ids, blocks]
      simp only [List.mem_append, List.mem_singleton]
      constructor
      · rintro (rfl | ⟨b', member, same⟩)
        · exact ⟨b, .inr rfl, id⟩
        · exact ⟨b', .inl member, same⟩
      · rintro ⟨b', member | rfl, same⟩
        · exact .inr ⟨b', member, same⟩
        · exact .inl (Option.some.inj (same.symm.trans id))
    · intro b' member
      rw [blocks] at member
      rcases List.mem_append.mp member with old | new
      · exact h.work b' old
      · obtain rfl := List.mem_singleton.mp new
        exact ⟨n, parsed, good⟩

theorem accounted_final (difficulty : UInt32) (ops : List EngineOp) :
    Accounted hash difficulty ((PoW.consensus hash).machine.final (.new difficulty) ops)
      ((PoW.consensus hash).machine.trace (.new difficulty) ops) := by
  refine Machine.history_invariant _ ops ⟨rfl, fun id => ?_, fun b hb => ?_⟩ ?_
  · exact iff_of_false (Finset.notMem_empty id) fun ⟨b, hb, _⟩ => List.not_mem_nil hb
  · exact absurd hb List.not_mem_nil
  · exact fun e t op _ h => accounted_step hash h op

theorem isFinal_iff (e : PoW) (blk : Block) :
    e.isFinal blk = true ↔ ∃ id, idOf blk = some id ∧ id ∈ e.minedBlocks := by
  unfold PoW.isFinal idOf nonceOf
  cases stoull blk.extra with
  | error x => simp [Except.toOption]
  | ok nonce => simp [Except.toOption]

/-- Finality is work done for a block with the same id, and a remote block is accepted for
    work of its own. The two agree on blocks that share the whole hashed header. -/
theorem final_by_work (difficulty : UInt32) (ops : List EngineOp) :
    let e := (PoW.consensus hash).machine.final (.new difficulty) ops
    let blocks := ((PoW.consensus hash).machine.trace (.new difficulty) ops).filterMap mined
    (∀ blk, e.isFinal blk = true ↔
      ∃ id, idOf blk = some id ∧ ∃ b ∈ blocks, idOf b = some id ∧ Worked hash e b) ∧
    (∀ blk, (PoW.onRemoteBlock hash e blk).ret.ok = true ↔ Worked hash e blk) ∧
    ∀ blk, ∀ b ∈ blocks, nonceOf blk = nonceOf b → blk.header.chainId = b.header.chainId →
      blk.header.height = b.header.height → blk.header.prevHash = b.header.prevHash →
      blk.header.stateRoot = b.header.stateRoot →
        e.isFinal blk = true ∧ (PoW.onRemoteBlock hash e blk).ret.ok = true := by
  intro e blocks
  have accounted := accounted_final hash difficulty ops
  refine ⟨fun blk => ?_, onRemoteBlock_ok hash e, ?_⟩
  · rw [isFinal_iff]
    constructor
    · rintro ⟨id, named, member⟩
      obtain ⟨b, minedB, sameId⟩ := (accounted.ids id).mp member
      exact ⟨id, named, b, minedB, sameId, accounted.work b minedB⟩
    · rintro ⟨id, named, b, minedB, sameId, -⟩
      exact ⟨id, named, (accounted.ids id).mpr ⟨b, minedB, sameId⟩⟩
  · intro blk b minedB nonce chainId height prevHash stateRoot
    obtain ⟨n, parsed, good⟩ := accounted.work b minedB
    have idB : idOf b = some (PoW.blockId b n) := by
      rw [idOf, parsed]
      rfl
    have idBlk : idOf blk = idOf b := by
      simp only [idOf, nonce, parsed, PoW.blockId, headerId, chainId, height, prevHash, Option.map_some]
    have solved : e.solves hash blk n = true := by
      simpa only [PoW.solves, PoW.computeBlockHash, chainId, height, prevHash, stateRoot] using good
    constructor
    · exact (isFinal_iff e blk).mpr ⟨_, idBlk.trans idB, (accounted.ids _).mpr ⟨b, minedB, idB⟩⟩
    · exact (onRemoteBlock_ok hash e blk).mpr ⟨n, nonce.trans parsed, solved⟩

/-- Zero on short texts only, so that a longer state root spoils the work. -/
def shortHash (s : Bytes) : UInt64 := if s.length ≤ 4 then 0 else 1

def oneMined : List EngineOp :=
  [.propose ⟨lit "A", lit "n1", 0⟩ [] ⟨⟨lit "A", 0, [], 0, []⟩, [], []⟩ 0]

def sameIdAs (root : String) : Block := ⟨⟨lit "A", 1, [], 7, lit root⟩, [], lit "0"⟩

theorem final_by_work_one_mined :
    ((PoW.consensus shortHash).machine.final (.new 16) oneMined).isFinal (sameIdAs "0") = true ∧
      (PoW.onRemoteBlock shortHash ((PoW.consensus shortHash).machine.final (.new 16) oneMined)
        (sameIdAs "0")).ret.ok = true := by
  refine (final_by_work shortHash 16 oneMined).2.2 (sameIdAs "0") ⟨⟨lit "A", 1, [], 0, lit "0"⟩, [], lit "0"⟩
    ?_ rfl rfl rfl rfl rfl
  decide +kernel

theorem final_without_work : ¬ ∀ (hash : Bytes → UInt64) (difficulty : UInt32) (ops : List EngineOp) (blk : Block),
    ((PoW.consensus hash).machine.final (.new difficulty) ops).isFinal blk = true →
      Worked hash ((PoW.consensus hash).machine.final (.new difficulty) ops) blk ∧
        (PoW.onRemoteBlock hash ((PoW.consensus hash).machine.final (.new difficulty) ops) blk).ret.ok = true := by
  intro h
  have accepted := (h shortHash 16 oneMined (sameIdAs "forged") (by decide +kernel)).2
  exact absurd accepted (by decide +kernel)

theorem hasLeadingZeros_mono {s : Bytes} {zeros fewer : ℕ} (le : fewer ≤ zeros)
    (h : hasLeadingZeros s zeros = true) : hasLeadingZeros s fewer = true := by
  induction fewer generalizing s zeros with
  | zero => rw [hasLeadingZeros]
  | succ fewer ih =>
    obtain ⟨zeros, rfl⟩ := Nat.exists_eq_add_one_of_ne_zero (show zeros ≠ 0 by omega)
    cases s with
    | nil => cases h
    | cons b rest =>
      rw [hasLeadingZeros, Bool.and_eq_true] at h ⊢
      exact ⟨h.1, ih (by omega) h.2⟩

theorem solves_mono {e e' : PoW} (easier : e'.difficulty ≤ e.difficulty) {blk : Block} {n : UInt64}
    (good : e.solves hash blk n = true) : e'.solves hash blk n = true :=
  hasLeadingZeros_mono (UInt32.le_iff_toNat_le.mp easier) good

theorem difficulty_final (difficulty : UInt32) (ops : List EngineOp) :
    ((PoW.consensus hash).machine.final (.new difficulty) ops).difficulty = difficulty :=
  (accounted_final hash difficulty ops).same

theorem mem_remember (e : PoW) (blk : Block) (n : UInt64) : PoW.blockId blk n ∈ (remember e blk n).minedBlocks :=
  Finset.mem_insert_self _ _

theorem minedBlocks_mono (e : PoW) (more : List EngineOp) :
    e.minedBlocks ⊆ ((PoW.consensus hash).machine.final e more).minedBlocks := by
  refine Machine.invariant (I := fun e' : PoW => e.minedBlocks ⊆ e'.minedBlocks) _ more (Finset.Subset.refl _) ?_
  intro e' op _ kept
  rcases step_cases hash e' op with ⟨same, -⟩ | ⟨b, n, -, -, -, next⟩
  · rw [same]
    exact kept
  · rw [next]
    exact kept.trans (Finset.subset_insert _ _)

theorem isFinal_stays {e : PoW} {blk : Block} (final : e.isFinal blk = true) (more : List EngineOp) :
    ((PoW.consensus hash).machine.final e more).isFinal blk = true := by
  obtain ⟨id, named, member⟩ := (isFinal_iff e blk).mp final
  exact (isFinal_iff _ blk).mpr ⟨id, named, minedBlocks_mono hash e more member⟩

theorem isFinal_remember {e : PoW} {blk : Block} {n : UInt64} (parsed : nonceOf blk = some n) :
    (remember e blk n).isFinal blk = true := by
  refine (isFinal_iff _ blk).mpr ⟨PoW.blockId blk n, ?_, mem_remember e blk n⟩
  rw [idOf, parsed]
  rfl

/-- What one engine mines every engine of at most its difficulty accepts, and the block is
    final on both from then on. -/
theorem mined_block_verified (d d' : UInt32) (easier : d' ≤ d) (ops ops' : List EngineOp) (ctx : ConsensusContext)
    (txs : List Transaction) (prev : Block) (now : ℤ) (blk : Block)
    (proposed : (PoW.propose hash ((PoW.consensus hash).machine.final (.new d) ops) ctx txs prev now).ret =
      ⟨⟨.ok, []⟩, some blk⟩) :
    let proposer := (PoW.propose hash ((PoW.consensus hash).machine.final (.new d) ops) ctx txs prev now).engine
    let verified := PoW.onRemoteBlock hash ((PoW.consensus hash).machine.final (.new d') ops') blk
    verified.ret.ok = true ∧
      (∀ more, ((PoW.consensus hash).machine.final proposer more).isFinal blk = true) ∧
      ∀ more, ((PoW.consensus hash).machine.final verified.engine more).isFinal blk = true := by
  intro proposer verified
  have value := congrArg Result.value proposed
  rcases propose_cases hash ((PoW.consensus hash).machine.final (.new d) ops) ctx txs prev now with
    ⟨-, none⟩ | ⟨n, good, made, sealed⟩
  · rw [none] at value
    cases value
  · obtain rfl : blk = assemble hash ctx txs prev now (decimal n.toNat) := Option.some.inj (value.symm.trans made)
    have parsed := nonceOf_assemble hash ctx txs prev now n
    have lower : ((PoW.consensus hash).machine.final (.new d') ops').difficulty ≤
        ((PoW.consensus hash).machine.final (.new d) ops).difficulty := by
      rw [difficulty_final, difficulty_final]
      exact easier
    obtain ⟨ok, next⟩ := onRemoteBlock_accepts hash parsed (solves_mono hash lower good)
    have final : proposer.isFinal (assemble hash ctx txs prev now (decimal n.toNat)) = true := by
      rw [show proposer = _ from sealed]
      exact isFinal_remember parsed
    have final' : verified.engine.isFinal (assemble hash ctx txs prev now (decimal n.toNat)) = true := by
      rw [show verified.engine = _ from next]
      exact isFinal_remember parsed
    exact ⟨ok, isFinal_stays hash final, isFinal_stays hash final'⟩

theorem mined_block_verified_lower :
    (PoW.onRemoteBlock shortHash ((PoW.consensus shortHash).machine.final (.new 3) [])
      ⟨⟨lit "A", 1, [], 0, lit "0"⟩, [], lit "0"⟩).ret.ok = true :=
  (mined_block_verified shortHash 16 3 (by decide) [] [] ⟨lit "A", lit "n1", 0⟩ [] ⟨⟨lit "A", 0, [], 0, []⟩, [], []⟩ 0
    ⟨⟨lit "A", 1, [], 0, lit "0"⟩, [], lit "0"⟩ (by decide +kernel)).1

end InterchainCommunication.WorkFinality
