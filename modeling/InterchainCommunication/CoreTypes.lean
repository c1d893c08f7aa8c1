import InterchainCommunication.StringText

set_option autoImplicit false

namespace InterchainCommunication.CoreTypes
open StringText

inductive ErrorCode
  | ok | timeout | networkDrop | invalidState | serialization
  | consensusFault | channelClosed | notFound | cancelled | unknown
  deriving DecidableEq, Repr

structure Status where
  code : ErrorCode
  message : Bytes
  deriving DecidableEq, Repr

def Status.ok (s : Status) : Bool := s.code == .ok

structure Result (α : Type) where
  status : Status
  value : Option α
  deriving DecidableEq, Repr

structure PortId where
  value : Bytes
  deriving DecidableEq, Repr

structure ChannelId where
  value : Bytes
  deriving DecidableEq, Repr

inductive IBCPacketType
  | data
  | ack
  | other (value : {v : ℤ // v ≠ 0 ∧ v ≠ 1})
  deriving DecidableEq, Repr

def IBCPacketType.toInt : IBCPacketType → ℤ
  | data => 0
  | ack => 1
  | other v => v.val

def IBCPacketType.ofInt (v : ℤ) : IBCPacketType :=
  if h0 : v = 0 then .data else if h1 : v = 1 then .ack else .other ⟨v, h0, h1⟩

theorem IBCPacketType.ofInt_toInt (t : IBCPacketType) : ofInt t.toInt = t := by
  cases t with
  | data => rfl
  | ack => rfl
  | other v => simp [ofInt, toInt, v.property]

structure IBCPacket where
  type : IBCPacketType
  srcChain : Bytes
  dstChain : Bytes
  srcPort : PortId
  srcChannel : ChannelId
  dstPort : PortId
  dstChannel : ChannelId
  sequence : UInt64
  payload : Bytes
  deriving DecidableEq, Repr

inductive TxType
  | regular
  | ibcPacket
  | ibcAck
  | unknown
  | other (value : {v : ℤ // v < 0 ∨ 3 < v})
  deriving DecidableEq, Repr

def TxType.ofInt (v : ℤ) : TxType :=
  if h : v < 0 ∨ 3 < v then .other ⟨v, h⟩
  else if v = 0 then .regular else if v = 1 then .ibcPacket else if v = 2 then .ibcAck else .unknown

def TxType.toInt : TxType → ℤ
  | regular => 0
  | ibcPacket => 1
  | ibcAck => 2
  | unknown => 3
  | other v => v.val

theorem TxType.ofInt_toInt (t : TxType) : ofInt t.toInt = t := by
  cases t with
  | other v => simp [ofInt, toInt, v.property]
  | regular | ibcPacket | ibcAck | unknown => rfl

structure Transaction where
  «from» : Bytes
  «to» : Bytes
  payload : Bytes
  type : TxType
  txId : Bytes
  deriving DecidableEq, Repr

structure BlockHeader where
  chainId : Bytes
  height : UInt64
  prevHash : Bytes
  timestamp : ℤ
  stateRoot : Bytes
  deriving DecidableEq, Repr

structure Block where
  header : BlockHeader
  txs : List Transaction
  extra : Bytes
  deriving DecidableEq, Repr

inductive EventKind
  | blockProposed | blockFinalized | ibcPacketSend | ibcPacketRecv | ibcAckSend | ibcAckRecv
  | consensusRound | networkDrop | error
  deriving DecidableEq, Repr

structure Event where
  kind : EventKind
  chainId : Bytes
  nodeId : Bytes
  detail : Bytes
  deriving DecidableEq, Repr

inductive LogLevel
  | trace | debug | info | warn | error
  deriving DecidableEq, Repr

/-- What a call does besides changing its object and returning: a line to the
    logger, an event on the bus, a counter increment at the metrics sink, a
    node-state record. -/
inductive Effect
  | log (level : LogLevel) (message : Bytes)
  | publish (e : Event)
  | incCounter (name : Bytes)
  | nodeState (chainId nodeId : Bytes) (height : UInt64) (blockHash : Bytes) (mempoolSize : ℕ)
  deriving DecidableEq, Repr

def published (effects : List Effect) : List Event :=
  effects.filterMap fun
    | .publish e => some e
    | _ => none

@[simp] theorem published_nil : published [] = [] := rfl

@[simp] theorem published_log (l : LogLevel) (m : Bytes) (es : List Effect) :
    published (.log l m :: es) = published es := rfl

@[simp] theorem published_publish (e : Event) (es : List Effect) :
    published (.publish e :: es) = e :: published es := rfl

@[simp] theorem published_incCounter (n : Bytes) (es : List Effect) :
    published (.incCounter n :: es) = published es := rfl

@[simp] theorem published_nodeState (c n h : Bytes) (k : UInt64) (m : ℕ) (es : List Effect) :
    published (.nodeState c n k h m :: es) = published es := rfl

@[simp] theorem published_append (xs ys : List Effect) :
    published (xs ++ ys) = published xs ++ published ys := List.filterMap_append

def counted (effects : List Effect) : List Bytes :=
  effects.filterMap fun
    | .incCounter name => some name
    | _ => none

@[simp] theorem counted_nil : counted [] = [] := rfl

@[simp] theorem counted_log (l : LogLevel) (m : Bytes) (es : List Effect) :
    counted (.log l m :: es) = counted es := rfl

@[simp] theorem counted_publish (e : Event) (es : List Effect) :
    counted (.publish e :: es) = counted es := rfl

@[simp] theorem counted_incCounter (n : Bytes) (es : List Effect) :
    counted (.incCounter n :: es) = n :: counted es := rfl

@[simp] theorem counted_nodeState (c n h : Bytes) (k : UInt64) (m : ℕ) (es : List Effect) :
    counted (.nodeState c n k h m :: es) = counted es := rfl

@[simp] theorem counted_append (xs ys : List Effect) :
    counted (xs ++ ys) = counted xs ++ counted ys := List.filterMap_append

end InterchainCommunication.CoreTypes
