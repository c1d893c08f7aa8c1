import InterchainCommunication.CoreTypes
import InterchainCommunication.MachineRuns
import Mathlib.Data.Finset.Insert
import Mathlib.Logic.Function.Basic

set_option autoImplicit false

/-!
# The consensus engines

Each engine runs its methods under a mutex of its own, so a call is a function
of the whole engine. `hash` stands for `std::hash` and `now` for the clock that
`propose` reads. A map of sets is a function that is empty where the map has no
entry.
-/
namespace InterchainCommunication.ConsensusModel
open StringText CoreTypes MachineRuns

structure ConsensusContext where
  chainId : Bytes
  nodeId : Bytes
  currentHeight : UInt64
  deriving DecidableEq, Repr

structure Answer (ε α : Type) where
  engine : ε
  ret : α
  effects : List Effect

/-- The strategy interface: the virtual methods of `Consensus`. -/
structure Consensus (ε : Type) where
  propose : ε → ConsensusContext → List Transaction → Block → ℤ → Answer ε (Result Block)
  onRemoteBlock : ε → Block → Answer ε Status
  isFinal : ε → Block → Bool

inductive EngineOp
  | propose (ctx : ConsensusContext) (txs : List Transaction) (prev : Block) (now : ℤ)
  | onRemoteBlock (blk : Block)
  deriving DecidableEq, Repr

inductive EngineReply
  | block (r : Result Block)
  | status (s : Status)
  deriving DecidableEq, Repr

def Consensus.call {ε : Type} (c : Consensus ε) (e : ε) : EngineOp → Answer ε EngineReply
  | .propose ctx txs prev now =>
    let o := c.propose e ctx txs prev now
    ⟨o.engine, .block o.ret, o.effects⟩
  | .onRemoteBlock blk => let o := c.onRemoteBlock e blk; ⟨o.engine, .status o.ret, o.effects⟩

def Consensus.machine {ε : Type} (c : Consensus ε) : Machine ε EngineOp (EngineReply × List Effect) where
  step e op := let o := c.call e op; (o.engine, (o.ret, o.effects))

variable (hash : Bytes → UInt64)

/-- The same function in all three engines. -/
def computeStateRoot (txs : List Transaction) : Bytes :=
  decimal (txs.foldl (fun h tx => h ^^^ hash (tx.from ++ tx.to ++ tx.payload)) 0).toNat

/-- The header and transactions every `propose` fills in before it votes or mines. -/
def assemble (ctx : ConsensusContext) (txs : List Transaction) (prev : Block) (now : ℤ)
    (extra : Bytes) : Block where
  header :=
    { chainId := ctx.chainId
      height := prev.header.height + 1
      prevHash := prev.header.stateRoot
      timestamp := now
      stateRoot := computeStateRoot hash txs }
  txs := txs
  extra := extra

/-- `chainId:height:prevHash`. -/
def headerId (blk : Block) : Bytes :=
  blk.header.chainId ++ lit ":" ++ decimal blk.header.height.toNat ++ lit ":" ++ blk.header.prevHash

structure PBFT where
  f : UInt64
  prepareVotes : Bytes → Finset Bytes
  commitVotes : Bytes → Finset Bytes
  finalizedBlocks : Finset Bytes

namespace PBFT

def new (f : UInt64) : PBFT := ⟨f, fun _ => ∅, fun _ => ∅, ∅⟩

def quorum (e : PBFT) : UInt64 := 2 * e.f + 1

def blockId (blk : Block) : Bytes := headerId blk

/-- The two insertions and the check against the quorum, as both methods make them. -/
def vote (e : PBFT) (blkId nodeId : Bytes) : PBFT × List Effect :=
  let prepareVotes := Function.update e.prepareVotes blkId (insert nodeId (e.prepareVotes blkId))
  let commitVotes := Function.update e.commitVotes blkId (insert nodeId (e.commitVotes blkId))
  if e.quorum.toNat ≤ (commitVotes blkId).card then
    ({ e with prepareVotes := prepareVotes, commitVotes := commitVotes,
              finalizedBlocks := insert blkId e.finalizedBlocks },
      [.incCounter (lit "block_finalized_PBFT")])
  else ({ e with prepareVotes := prepareVotes, commitVotes := commitVotes }, [])

def propose (e : PBFT) (ctx : ConsensusContext) (txs : List Transaction) (prev : Block) (now : ℤ) :
    Answer PBFT (Result Block) :=
  let block := assemble hash ctx txs prev now (lit "PBFT:proposed")
  let voted := e.vote (blockId block) ctx.nodeId
  ⟨voted.1, ⟨⟨.ok, []⟩, some block⟩, .incCounter (lit "block_proposed_PBFT") :: voted.2⟩

def onRemoteBlock (e : PBFT) (blk : Block) : Answer PBFT Status :=
  let voted := e.vote (blockId blk) (lit "remote")
  ⟨voted.1, ⟨.ok, []⟩, .incCounter (lit "block_received_PBFT") :: voted.2⟩

def isFinal (e : PBFT) (blk : Block) : Bool := decide (blockId blk ∈ e.finalizedBlocks)

def consensus : Consensus PBFT := ⟨propose hash, onRemoteBlock, isFinal⟩

end PBFT

structure PoS where
  validators : UInt64
  signatures : Bytes → Finset Bytes
  finalizedBlocks : Finset Bytes

namespace PoS

def new (validatorSetSize : UInt64) : PoS := ⟨validatorSetSize, fun _ => ∅, ∅⟩

def quorum (e : PoS) : UInt64 := (e.validators * 2) / 3 + 1

def blockId (blk : Block) : Bytes := headerId blk

def sign (e : PoS) (blkId nodeId : Bytes) : PoS × List Effect :=
  let signatures := Function.update e.signatures blkId (insert nodeId (e.signatures blkId))
  if e.quorum.toNat ≤ (signatures blkId).card then
    ({ e with signatures := signatures, finalizedBlocks := insert blkId e.finalizedBlocks },
      [.incCounter (lit "block_finalized_PoS")])
  else ({ e with signatures := signatures }, [])

def propose (e : PoS) (ctx : ConsensusContext) (txs : List Transaction) (prev : Block) (now : ℤ) :
    Answer PoS (Result Block) :=
  let block := assemble hash ctx txs prev now (lit "PoS:proposed:" ++ ctx.nodeId)
  let signed := e.sign (blockId block) ctx.nodeId
  ⟨signed.1, ⟨⟨.ok, []⟩, some block⟩, .incCounter (lit "block_proposed_PoS") :: signed.2⟩

def onRemoteBlock (e : PoS) (blk : Block) : Answer PoS Status :=
  let signed := e.sign (blockId blk) (lit "remote")
  ⟨signed.1, ⟨.ok, []⟩, .incCounter (lit "block_received_PoS") :: signed.2⟩

def isFinal (e : PoS) (blk : Block) : Bool := decide (blockId blk ∈ e.finalizedBlocks)

def consensus : Consensus PoS := ⟨propose hash, onRemoteBlock, isFinal⟩

end PoS

def hex16 (h : UInt64) : Bytes :=
  let digits := (Nat.toDigits 16 h.toNat).map Char.toUInt8
  List.replicate (16 - digits.length) 48 ++ digits

/-- The loop over `zeros`, which stops at the first byte that is missing or not '0'. -/
def hasLeadingZeros : Bytes → ℕ → Bool
  | _, 0 => true
  | [], _ + 1 => false
  | b :: rest, zeros + 1 => b == 48 && hasLeadingZeros rest zeros

structure PoW where
  difficulty : UInt32
  minedBlocks : Finset Bytes
  deriving DecidableEq

namespace PoW

def new (difficulty : UInt32) : PoW := ⟨difficulty, ∅⟩

def blockId (blk : Block) (nonce : UInt64) : Bytes := headerId blk ++ lit ":" ++ decimal nonce.toNat

def computeBlockHash (blk : Block) (nonce : UInt64) : Bytes :=
  hex16 (hash (blk.header.chainId ++ decimal blk.header.height.toNat ++ blk.header.prevHash ++
    blk.header.stateRoot ++ decimal nonce.toNat))

def solves (e : PoW) (blk : Block) (nonce : UInt64) : Bool :=
  hasLeadingZeros (computeBlockHash hash blk nonce) e.difficulty.toNat

/-- The search loop from `nonce` on, with `tries` nonces left before it gives up. -/
def search (e : PoW) (blk : Block) : ℕ → UInt64 → Option UInt64
  | 0, _ => none
  | tries + 1, nonce => if e.solves hash blk nonce then some nonce else search e blk tries (nonce + 1)

/-- The loop gives up once the nonce exceeds one million. -/
def propose (e : PoW) (ctx : ConsensusContext) (txs : List Transaction) (prev : Block) (now : ℤ) :
    Answer PoW (Result Block) :=
  let block := assemble hash ctx txs prev now []
  match e.search hash block 1000001 0 with
  | none =>
    ⟨e, ⟨⟨.consensusFault, lit "PoW: nonce search failed"⟩, none⟩,
      [.incCounter (lit "block_proposed_PoW")]⟩
  | some nonce =>
    ⟨{ e with minedBlocks := insert (blockId block nonce) e.minedBlocks },
      ⟨⟨.ok, []⟩, some { block with extra := decimal nonce.toNat }⟩,
      [.incCounter (lit "block_proposed_PoW"), .incCounter (lit "block_finalized_PoW")]⟩

def onRemoteBlock (e : PoW) (blk : Block) : Answer PoW Status :=
  let received : Effect := .incCounter (lit "block_received_PoW")
  match stoull blk.extra with
  | .error _ => ⟨e, ⟨.invalidState, lit "PoW: invalid nonce in extra"⟩, [received]⟩
  | .ok nonce =>
    if !e.solves hash blk nonce then ⟨e, ⟨.consensusFault, lit "PoW: invalid PoW"⟩, [received]⟩
    else
      ⟨{ e with minedBlocks := insert (blockId blk nonce) e.minedBlocks }, ⟨.ok, []⟩,
        [received, .incCounter (lit "block_finalized_PoW")]⟩

def isFinal (e : PoW) (blk : Block) : Bool :=
  match stoull blk.extra with
  | .error _ => false
  | .ok nonce => decide (blockId blk nonce ∈ e.minedBlocks)

def consensus : Consensus PoW := ⟨propose hash, onRemoteBlock hash, isFinal⟩

end PoW

inductive Engine
  | pow (e : PoW)
  | pos (e : PoS)
  | pbft (e : PBFT)

namespace Engine

def propose (e : Engine) (ctx : ConsensusContext) (txs : List Transaction) (prev : Block) (now : ℤ) :
    Answer Engine (Result Block) :=
  match e with
  | pow e => let o := PoW.propose hash e ctx txs prev now; ⟨.pow o.engine, o.ret, o.effects⟩
  | pos e => let o := PoS.propose hash e ctx txs prev now; ⟨.pos o.engine, o.ret, o.effects⟩
  | pbft e => let o := PBFT.propose hash e ctx txs prev now; ⟨.pbft o.engine, o.ret, o.effects⟩

def onRemoteBlock (e : Engine) (blk : Block) : Answer Engine Status :=
  match e with
  | pow e => let o := PoW.onRemoteBlock hash e blk; ⟨.pow o.engine, o.ret, o.effects⟩
  | pos e => let o := PoS.onRemoteBlock e blk; ⟨.pos o.engine, o.ret, o.effects⟩
  | pbft e => let o := PBFT.onRemoteBlock e blk; ⟨.pbft o.engine, o.ret, o.effects⟩

def isFinal (e : Engine) (blk : Block) : Bool :=
  match e with
  | pow e => e.isFinal blk
  | pos e => e.isFinal blk
  | pbft e => e.isFinal blk

def consensus : Consensus Engine := ⟨propose hash, onRemoteBlock hash, isFinal⟩

end Engine
end InterchainCommunication.ConsensusModel
