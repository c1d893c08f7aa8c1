import InterchainCommunication.LedgerIntegrity
import InterchainCommunication.WorkFinality

set_option autoImplicit false

namespace InterchainCommunication.HonestProposing
open StringText CoreTypes MachineRuns ConsensusModel BlockchainModel BlockchainSteps LedgerIntegrity

/-- Snapshots of `head()` taken so far, and the proposals made, each with its parent. -/
structure World where
  chain : Blockchain
  engines : List Engine
  snapshots : List Block
  proposals : List (Block × Block)

inductive WorldOp
  | snapshot
  | propose (engine : ℕ) (nodeId : Bytes) (currentHeight : UInt64) (txs : List Transaction)
      (snapshot : ℕ) (now : ℤ)
  | onRemoteBlock (engine : ℕ) (blk : Block)
  | append (proposal : ℕ)
  | call (op : {op : ChainOp // ∀ blk, op ≠ .appendBlock blk})

inductive WorldReply
  | head (blk : Block)
  | block (r : Result Block)
  | status (s : Status)
  | appended (prev : Block) (s : Status)
  | chain (r : ChainReply)
  | absent
  deriving DecidableEq

variable (hash : Bytes → UInt64)

def World.step (w : World) : WorldOp → World × WorldReply
  | .snapshot => ({ w with snapshots := w.snapshots ++ [w.chain.head] }, .head w.chain.head)
  | .propose engine nodeId currentHeight txs snapshot now =>
    match w.engines[engine]?, w.snapshots[snapshot]? with
    | some e, some prev =>
      let o := e.propose hash ⟨w.chain.chainId, nodeId, currentHeight⟩ txs prev now
      ({ w with engines := w.engines.set engine o.engine,
                proposals := w.proposals ++ (o.ret.value.map (prev, ·)).toList }, .block o.ret)
    | _, _ => (w, .absent)
  | .onRemoteBlock engine blk =>
    match w.engines[engine]? with
    | some e =>
      let o := e.onRemoteBlock hash blk
      ({ w with engines := w.engines.set engine o.engine }, .status o.ret)
    | none => (w, .absent)
  | .append proposal =>
    match w.proposals[proposal]? with
    | some p =>
      let o := w.chain.appendBlock p.2
      ({ w with chain := o.chain }, .appended p.1 o.ret)
    | none => (w, .absent)
  | .call op => let o := w.chain.call op; ({ w with chain := o.chain }, .chain o.ret)

def worldMachine : Machine World WorldOp WorldReply := ⟨World.step hash⟩

def World.new (chainId : Bytes) (engines : List Engine) : World := ⟨.new chainId, engines, [], []⟩

/-- The block an appended block was built on. -/
def parentOf : WorldOp × WorldReply → Option Block
  | (_, .appended prev s) => if s.ok then some prev else none
  | _ => none

def builtOn (t : List (WorldOp × WorldReply)) : List Block := t.filterMap parentOf

def Extends (chainId : Bytes) (prev blk : Block) : Prop :=
  Follows chainId prev blk ∧ blk.header.height = prev.header.height + 1

structure Honest (chainId : Bytes) (w : World) (t : List (WorldOp × WorldReply)) : Prop where
  opened : AllOpen w.chain
  named : w.chain.chainId = chainId
  numbered : Numbered w.chain.chain
  ids : ∀ blk ∈ w.chain.chain, blk.header.chainId = chainId
  snapshots : ∀ prev ∈ w.snapshots, prev ∈ w.chain.chain
  proposals : ∀ p ∈ w.proposals, p.1 ∈ w.chain.chain ∧ Extends chainId p.1 p.2
  linked : w.chain.chain.length ≤ 2 ^ 64 →
    w.chain.chain.IsChain (Follows chainId) ∧ builtOn t = w.chain.chain.dropLast

theorem propose_extends {e : Engine} {ctx : ConsensusContext} {txs : List Transaction} {prev b : Block} {now : ℤ}
    (made : (e.propose hash ctx txs prev now).ret.value = some b) : Extends ctx.chainId prev b := by
  have shape : ∃ extra, b = assemble hash ctx txs prev now extra := by
    cases e with
    | pow e =>
      rcases WorkFinality.propose_cases hash e ctx txs prev now with ⟨-, none⟩ | ⟨n, -, some, -⟩
      · exact absurd (none.symm.trans made) (by simp)
      · exact ⟨_, Option.some.inj (made.symm.trans some)⟩
    | pos e => exact ⟨_, (Option.some.inj made).symm⟩
    | pbft e => exact ⟨_, (Option.some.inj made).symm⟩
  obtain ⟨extra, rfl⟩ := shape
  exact ⟨⟨rfl, rfl⟩, rfl⟩

/-- Below `2 ^ 64` blocks a height is held by one block. -/
theorem eq_head_of_height {b : Blockchain} (numbered : Numbered b.chain) (short : b.chain.length ≤ 2 ^ 64)
    {prev : Block} (member : prev ∈ b.chain) (same : prev.header.height = b.head.header.height) :
    prev = b.head := by
  obtain ⟨i, inside, rfl⟩ := List.mem_iff_getElem.mp member
  have found : b.chain[i]? = some b.chain[i] := List.getElem?_eq_getElem inside
  have last := getElem?_head b
  rw [numbered i _ found, numbered _ _ last] at same
  have index : i = b.chain.length - 1 := by
    have words := congrArg UInt64.toNat same
    rw [UInt64.toNat_ofNat_of_lt' (by change i < 2 ^ 64; omega),
      UInt64.toNat_ofNat_of_lt' (by change _ < 2 ^ 64; omega)] at words
    exact words
  rw [← index, found] at last
  exact Option.some.inj last

section Steps
variable {hash} {chainId : Bytes} {w w' : World} {t : List (WorldOp × WorldReply)} {e : WorldOp × WorldReply}

theorem Honest.keep (h : Honest chainId w t) (opened : AllOpen w'.chain) (named : w'.chain.chainId = chainId)
    (ledger : w'.chain.chain = w.chain.chain) (quiet : parentOf e = none)
    (snapshots : ∀ prev ∈ w'.snapshots, prev ∈ w.chain.chain)
    (proposals : ∀ p ∈ w'.proposals, p.1 ∈ w.chain.chain ∧ Extends chainId p.1 p.2) :
    Honest chainId w' (t ++ [e]) where
  opened := opened
  named := named
  numbered := by
    rw [ledger]
    exact h.numbered
  ids := by
    rw [ledger]
    exact h.ids
  snapshots := by
    rw [ledger]
    exact snapshots
  proposals := by
    rw [ledger]
    exact proposals
  linked := by
    rw [ledger, builtOn, filterMap_concat, quiet]
    simpa [builtOn] using h.linked

/-- The height check lets the block through only on the head. -/
theorem Honest.extend (h : Honest chainId w t) {p : Block × Block} (proposed : p ∈ w.proposals)
    (next : p.2.header.height = w.chain.head.header.height + 1) {chain : Blockchain}
    (appended : chain.chain = w.chain.chain ++ [p.2]) (opened : AllOpen chain) (named : chain.chainId = chainId)
    (shown : parentOf e = some p.1) : Honest chainId { w with chain := chain } (t ++ [e]) where
  opened := opened
  named := named
  numbered := by
    change Numbered chain.chain
    rw [appended]
    exact numbered_concat h.numbered next
  ids := by
    change ∀ blk ∈ chain.chain, _
    rw [appended]
    intro blk member
    rcases List.mem_append.mp member with old | new
    · exact h.ids blk old
    · obtain rfl := List.mem_singleton.mp new
      exact (h.proposals p proposed).2.1.1
  snapshots := by
    intro prev member
    change prev ∈ chain.chain
    rw [appended]
    exact List.mem_append_left _ (h.snapshots prev member)
  proposals := by
    intro q member
    change q.1 ∈ chain.chain ∧ _
    rw [appended]
    exact ⟨List.mem_append_left _ (h.proposals q member).1, (h.proposals q member).2⟩
  linked := by
    change chain.chain.length ≤ 2 ^ 64 → _
    intro short
    rw [appended, List.length_append, List.length_singleton] at short
    obtain ⟨parent, follows, height⟩ := h.proposals p proposed
    obtain ⟨links, built⟩ := h.linked (by omega)
    have same : p.1.header.height = w.chain.head.header.height :=
      (UInt64.add_left_inj 1).mp (height.symm.trans next)
    have head : p.1 = w.chain.head := eq_head_of_height h.numbered (by omega) parent same
    have shorter : chain.chain.dropLast = w.chain.chain := by rw [appended, List.dropLast_concat]
    constructor
    · change chain.chain.IsChain _
      rw [appended, isChain_concat]
      exact ⟨links, head ▸ follows⟩
    · change builtOn _ = chain.chain.dropLast
      rw [shorter, builtOn, filterMap_concat, shown]
      change builtOn t ++ [p.1] = _
      rw [built, head]
      exact List.dropLast_append_getLast w.chain.nonempty

theorem honest_step (h : Honest chainId w t) (op : WorldOp) :
    Honest chainId ((worldMachine hash).step w op).1 (t ++ [(op, ((worldMachine hash).step w op).2)]) := by
  cases op with
  | snapshot =>
    refine h.keep h.opened h.named rfl rfl ?_ h.proposals
    intro prev member
    rcases List.mem_append.mp member with old | new
    · exact h.snapshots prev old
    · obtain rfl := List.mem_singleton.mp new
      exact List.getLast_mem w.chain.nonempty
  | propose engine nodeId currentHeight txs snapshot now =>
    change Honest chainId (w.step hash _).1 (t ++ [(_, (w.step hash _).2)])
    rw [World.step]
    cases he : w.engines[engine]? with
    | none => exact h.keep h.opened h.named rfl rfl h.snapshots h.proposals
    | some e =>
      cases hs : w.snapshots[snapshot]? with
      | none => exact h.keep h.opened h.named rfl rfl h.snapshots h.proposals
      | some prev =>
        refine h.keep h.opened h.named rfl rfl h.snapshots ?_
        intro p member
        rcases List.mem_append.mp member with old | new
        · exact h.proposals p old
        · obtain ⟨b, made, rfl⟩ := Option.map_eq_some_iff.mp (Option.mem_toList.mp new)
          have extends_prev := propose_extends hash made
          exact ⟨h.snapshots prev (List.mem_of_getElem? hs), h.named ▸ extends_prev⟩
  | onRemoteBlock engine blk =>
    change Honest chainId (w.step hash _).1 (t ++ [(_, (w.step hash _).2)])
    rw [World.step]
    cases w.engines[engine]? with
    | none => exact h.keep h.opened h.named rfl rfl h.snapshots h.proposals
    | some e => exact h.keep h.opened h.named rfl rfl h.snapshots h.proposals
  | append proposal =>
    change Honest chainId (w.step hash _).1 (t ++ [(_, (w.step hash _).2)])
    rw [World.step]
    cases hp : w.proposals[proposal]? with
    | none => exact h.keep h.opened h.named rfl rfl h.snapshots h.proposals
    | some p =>
      have proposed : p ∈ w.proposals := List.mem_of_getElem? hp
      have opened : AllOpen (w.chain.appendBlock p.2).chain := call_allOpen h.opened (.appendBlock p.2)
      have named : (w.chain.appendBlock p.2).chain.chainId = chainId :=
        (call_chainId _ (.appendBlock p.2)).trans h.named
      by_cases next : p.2.header.height = w.chain.head.header.height + 1
      · obtain ⟨ok, appended⟩ := appendBlock_accepts next
        exact h.extend proposed next appended opened named (if_pos ok)
      · obtain ⟨failed, same, -⟩ := appendBlock_rejects next
        refine h.keep opened named (congrArg Blockchain.chain same) ?_ h.snapshots h.proposals
        exact if_neg (by rw [failed]; decide)
  | call op =>
    exact h.keep (call_allOpen h.opened op.1) ((call_chainId _ op.1).trans h.named)
      (call_chain _ op.2) rfl h.snapshots h.proposals

end Steps

theorem honest_final (chainId : Bytes) (engines : List Engine) (ops : List WorldOp) :
    Honest chainId ((worldMachine hash).final (.new chainId engines) ops)
      ((worldMachine hash).trace (.new chainId engines) ops) := by
  refine Machine.history_invariant _ ops ?_ fun w t op _ h => honest_step h op
  refine ⟨allOpen_new chainId, rfl, numbered_new chainId, ?_, ?_, ?_, fun _ => ⟨List.isChain_singleton _, rfl⟩⟩
  · intro blk member
    obtain rfl := List.mem_singleton.mp member
    rfl
  · exact fun prev member => absurd member List.not_mem_nil
  · exact fun p member => absurd member List.not_mem_nil

theorem height_toNat {ledger : List Block} (numbered : Numbered ledger) (short : ledger.length ≤ 2 ^ 64)
    {i : ℕ} {blk : Block} (found : ledger[i]? = some blk) : blk.header.height.toNat = i := by
  have inside := (List.getElem?_eq_some_iff.mp found).1
  rw [numbered i blk found]
  exact UInt64.toNat_ofNat_of_lt' (by change i < 2 ^ 64; omega)

theorem nodup_of_numbered {ledger : List Block} (numbered : Numbered ledger) (short : ledger.length ≤ 2 ^ 64) :
    ledger.Nodup := by
  rw [List.nodup_iff_getElem?_ne_getElem?]
  intro i j before inside same
  have found : ledger[j]? = some ledger[j] := List.getElem?_eq_getElem inside
  have atI := height_toNat numbered short (same.trans found)
  have atJ := height_toNat numbered short found
  omega

/-- The ledger of honest proposers is a hash chain, and no head is extended twice. -/
theorem honest_ledger (chainId : Bytes) (engines : List Engine) (ops : List WorldOp)
    (short : ((worldMachine hash).final (.new chainId engines) ops).chain.chain.length ≤ 2 ^ 64) :
    let ledger := ((worldMachine hash).final (.new chainId engines) ops).chain.chain
    let parents := builtOn ((worldMachine hash).trace (.new chainId engines) ops)
    (∀ (i : ℕ) (blk : Block), ledger[i]? = some blk → blk.header.height.toNat = i) ∧
    (∀ blk ∈ ledger, blk.header.chainId = chainId) ∧
    ledger.IsChain (fun prev blk : Block => blk.header.prevHash = prev.header.stateRoot) ∧
    parents = ledger.dropLast ∧ parents.Nodup := by
  intro ledger parents
  have honest := honest_final hash chainId engines ops
  obtain ⟨links, built⟩ := honest.linked short
  have once := nodup_of_numbered honest.numbered short
  refine ⟨fun i blk found => height_toNat honest.numbered short found, honest.ids,
    links.imp fun prev blk follows => follows.2, built, ?_⟩
  rw [show parents = ledger.dropLast from built]
  exact once.sublist (List.dropLast_sublist ledger)

def twoProposers : List WorldOp :=
  [.snapshot, .propose 0 (lit "n1") 0 [] 0 0, .propose 1 (lit "n2") 0 [] 0 0, .append 0, .append 1]

theorem honest_ledger_two_proposers :
    (builtOn ((worldMachine fun _ => 0).trace (.new (lit "A") [.pbft (.new 1), .pow (.new 1)])
      twoProposers)).Nodup :=
  (honest_ledger (fun _ => 0) (lit "A") [.pbft (.new 1), .pow (.new 1)] twoProposers
    (by decide +kernel)).2.2.2.2

end InterchainCommunication.HonestProposing
