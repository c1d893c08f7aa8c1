import InterchainCommunication.ChainHistory
import InterchainCommunication.OrderedDelivery

set_option autoImplicit false

/-!
# One channel from a source chain to a destination chain

The source only sends and the destination only receives. Whatever the relayers
in between repeat, reorder or lose, the pair refines in-order delivery over a
replaying network.
-/
namespace InterchainCommunication.LinkDelivery
open StringText CoreTypes MachineRuns PacketCodec ChannelSequencing BlockchainModel BlockchainSteps
open ChainHistory OrderedDelivery

structure Link where
  src : Blockchain
  dst : Blockchain
  sent : List IBCPacket

inductive LinkInput
  | send (payload : Bytes)
  | deliver (k : ℕ)

inductive LinkOutput
  | source (op : ChainOp) (reply : ChainReply)
  | destination (op : ChainOp) (reply : ChainReply) (effects : List Effect)
  | idle

structure Ends where
  srcPort : PortId
  srcChannel : ChannelId
  dstPort : PortId
  dstChannel : ChannelId

variable (ends : Ends)

/-- `deliver k` hands the destination the packet the source sent as its `k`-th. -/
def linkMachine : Machine Link LinkInput LinkOutput where
  step l
    | .send payload =>
      let op : ChainOp := .sendIBC ends.srcPort ends.srcChannel l.dst.chainId ends.dstPort ends.dstChannel payload
      let o := l.src.call op
      (⟨o.chain, l.dst, l.sent ++ (sentPacket (op, o.ret)).toList⟩, .source op o.ret)
    | .deliver k =>
      match l.sent[k]? with
      | none => (l, .idle)
      | some pkt =>
        let o := l.dst.call (.onIBCPacket pkt)
        (⟨l.src, o.chain, l.sent⟩, .destination (.onIBCPacket pkt) o.ret o.effects)

def sentBy : LinkInput × LinkOutput → Option IBCPacket
  | (_, .source op reply) => sentPacket (op, reply)
  | _ => none

def acceptedBy : LinkInput × LinkOutput → Option IBCPacket
  | (_, .destination op reply _) => acceptedPacket (op, reply)
  | _ => none

def destinationEvents (t : List (LinkInput × LinkOutput)) : List Event :=
  t.flatMap fun e =>
    match e.2 with
    | .destination _ _ effects => published effects
    | _ => []

/-- The label of a position is the sequence number sent there. -/
def sequenceAt (k : ℕ) : UInt64 := UInt64.ofNat (k + 1)

theorem sequenceAt_distinct {bound : ℕ} (h : bound < 2 ^ 64) : Distinct sequenceAt bound := by
  intro m n hm hn same
  have values := congrArg UInt64.toNat same
  simp only [sequenceAt, UInt64.toNat_ofNat'] at values
  omega

theorem sequenceAt_succ (k : ℕ) : sequenceAt (k + 1) = sequenceAt k + 1 := by
  simp [sequenceAt, UInt64.ofNat_add]

/-- What the replaying network sees of a step. -/
def abstractInput : LinkInput × LinkOutput → ReplayInput IBCPacket
  | (.send payload, out) => .send (sentBy (.send payload, out)).toList
  | (.deliver k, _) => .deliver k

/-- The counters of the two channel ends are the lengths the replaying network keeps. -/
structure Tracks (dstId : Bytes) (l : Link) (r : Replay IBCPacket) : Prop where
  openSrc : AllOpen l.src
  openDst : AllOpen l.dst
  dstId : l.dst.chainId = dstId
  sent : l.sent = r.sent
  next : (resolve l.src ends.srcPort ends.srcChannel).nextSeq = sequenceAt r.sent.length
  expected : (resolve l.dst ends.dstPort ends.dstChannel).nextSeq = sequenceAt r.taken
  numbered : ∀ k pkt, r.sent[k]? = some pkt →
    pkt.sequence = sequenceAt k ∧ pkt.dstPort = ends.dstPort ∧ pkt.dstChannel = ends.dstChannel

theorem tracks_send {dstId : Bytes} {l : Link} {r : Replay IBCPacket} (h : Tracks ends dstId l r)
    (payload : Bytes) :
    let e := (linkMachine ends).step l (.send payload)
    let j := abstractInput (.send payload, e.2)
    Tracks ends dstId e.1 ((replayMachine sequenceAt).step r j).1 ∧
      acceptedBy (.send payload, e.2) = ((replayMachine sequenceAt).step r j).2 := by
  let op : ChainOp := .sendIBC ends.srcPort ends.srcChannel l.dst.chainId ends.dstPort ends.dstChannel payload
  let ch := resolve l.src ends.srcPort ends.srcChannel
  let pkt := ch.packet l.dst.chainId ends.dstPort ends.dstChannel payload
  have made : sentPacket (op, (l.src.call op).ret) = some pkt := sentPacket_sendIBC h.openSrc _ _ _ _ _ _
  have stored : (l.src.call op).chain = l.src.store ends.srcPort ends.srcChannel (advanced ch) := by
    change (l.src.sendIBC _ _ _ _ _ _).chain = _
    rw [sendIBC_eq h.openSrc]
  have step : (linkMachine ends).step l (.send payload) =
      (⟨(l.src.call op).chain, l.dst, l.sent ++ [pkt]⟩, .source op (l.src.call op).ret) := by
    change (Link.mk _ _ (l.sent ++ (sentPacket (op, (l.src.call op).ret)).toList), _) = _
    rw [made]
    rfl
  have seen : abstractInput (.send payload, .source op (l.src.call op).ret) = .send [pkt] := by
    simp only [abstractInput, sentBy, made, Option.toList_some]
  dsimp only
  rw [step, seen]
  refine ⟨⟨call_allOpen h.openSrc op, h.openDst, h.dstId, ?_, ?_, h.expected, ?_⟩, rfl⟩
  · change l.sent ++ [pkt] = r.sent ++ [pkt]
    rw [h.sent]
  · change (resolve (l.src.call op).chain ends.srcPort ends.srcChannel).nextSeq =
      sequenceAt (r.sent ++ [pkt]).length
    rw [stored, resolve_store_same, List.length_append, List.length_singleton, sequenceAt_succ, ← h.next]
    rfl
  · intro k p hp
    rcases getElem?_concat_cases hp with old | ⟨rfl, rfl⟩
    · exact h.numbered k p old
    · exact ⟨h.next, rfl, rfl⟩

theorem tracks_deliver {dstId : Bytes} {l : Link} {r : Replay IBCPacket} (h : Tracks ends dstId l r) (k : ℕ) :
    let e := (linkMachine ends).step l (.deliver k)
    let j := abstractInput (.deliver k, e.2)
    Tracks ends dstId e.1 ((replayMachine sequenceAt).step r j).1 ∧
      acceptedBy (.deliver k, e.2) = ((replayMachine sequenceAt).step r j).2 := by
  cases hk : r.sent[k]? with
  | none =>
    have step : (linkMachine ends).step l (.deliver k) = (l, .idle) := by
      simp only [linkMachine, h.sent, hk]
    have step' : (replayMachine sequenceAt).step r (.deliver k) = (r, none) := by
      simp only [replayMachine, hk]
    dsimp only
    rw [step, abstractInput, step']
    exact ⟨h, rfl⟩
  | some pkt =>
    obtain ⟨hseq, hport, hchan⟩ := h.numbered k pkt hk
    let op : ChainOp := .onIBCPacket pkt
    have step : (linkMachine ends).step l (.deliver k) =
        (⟨l.src, (l.dst.call op).chain, l.sent⟩, .destination op (l.dst.call op).ret (l.dst.call op).effects) := by
      simp only [linkMachine, h.sent, hk]
      rfl
    have accepted : acceptedPacket (op, (l.dst.call op).ret) =
        if sequenceAt k = sequenceAt r.taken then some pkt else none := by
      rw [acceptedPacket_onIBCPacket h.openDst, hseq, hport, hchan, h.expected]
    have step' : (replayMachine sequenceAt).step r (.deliver k) =
        if sequenceAt k = sequenceAt r.taken then (⟨r.sent, r.taken + 1⟩, some pkt) else (r, none) := by
      simp only [replayMachine, hk]
    dsimp only
    rw [step, abstractInput, step']
    change Tracks ends dstId ⟨l.src, (l.dst.call op).chain, l.sent⟩ _ ∧ acceptedPacket (op, (l.dst.call op).ret) = _
    rw [accepted]
    have kept : (l.dst.call op).chain.chainId = dstId := (call_chainId _ op).trans h.dstId
    split
    · rename_i same
      refine ⟨⟨h.openSrc, call_allOpen h.openDst op, kept, h.sent, h.next, ?_, h.numbered⟩, rfl⟩
      change (resolve (l.dst.onIBCPacket pkt).chain _ _).nextSeq = sequenceAt (r.taken + 1)
      rw [onIBCPacket_accept h.openDst (by rw [hseq, hport, hchan, h.expected, same]), ← hport, ← hchan,
        resolve_store_same, sequenceAt_succ, ← h.expected, hport, hchan]
      rfl
    · rename_i differs
      refine ⟨⟨h.openSrc, call_allOpen h.openDst op, kept, h.sent, h.next, ?_, h.numbered⟩, rfl⟩
      change (resolve (l.dst.onIBCPacket pkt).chain _ _).nextSeq = sequenceAt r.taken
      rw [onIBCPacket_reject h.openDst (by rw [hseq, hport, hchan, h.expected]; exact differs), ← hport,
        ← hchan, resolve_store_same, ← h.expected, hport, hchan]
      rfl

/-- The link refines in-order delivery over a replaying network. -/
theorem link_refines {dstId : Bytes} {l : Link} {r : Replay IBCPacket} (h : Tracks ends dstId l r)
    (is : List LinkInput) :
    let t := (linkMachine ends).trace l is
    Tracks ends dstId ((linkMachine ends).final l is)
        ((replayMachine sequenceAt).final r (t.map abstractInput)) ∧
      t.filterMap acceptedBy =
        ((replayMachine sequenceAt).trace r (t.map abstractInput)).filterMap Prod.snd := by
  apply (linkMachine ends).refines (replayMachine sequenceAt) (Tracks ends dstId) abstractInput acceptedBy
    Prod.snd
  · intro l' r' i h'
    cases i with
    | send payload => exact tracks_send ends h' payload
    | deliver k => exact tracks_deliver ends h' k
  · exact h

theorem sent_eq (l : Link) (is : List LinkInput) : ((linkMachine ends).final l is).sent =
    l.sent ++ ((linkMachine ends).trace l is).filterMap sentBy := by
  apply (linkMachine ends).history_invariant (I := fun s t => s.sent = l.sent ++ t.filterMap sentBy)
  · simp
  · intro s t i _ ih
    rw [filterMap_concat, ← List.append_assoc, ← ih]
    cases i with
    | send payload => rfl
    | deliver k =>
      simp only [linkMachine]
      cases s.sent[k]? with
      | none => exact (List.append_nil _).symm
      | some pkt => exact (List.append_nil _).symm

theorem destination_acks {l : Link} (h : AllOpen l.dst) (is : List LinkInput) :
    (destinationEvents ((linkMachine ends).trace l is)).filter isAckSend =
      (((linkMachine ends).trace l is).filterMap acceptedBy).map (ackEvent l.dst.chainId) := by
  have run := (linkMachine ends).history_invariant
    (I := fun s t => (AllOpen s.dst ∧ s.dst.chainId = l.dst.chainId) ∧
      (destinationEvents t).filter isAckSend = (t.filterMap acceptedBy).map (ackEvent l.dst.chainId))
    is ⟨⟨h, rfl⟩, rfl⟩
  refine (run ?_).2
  rintro s t i - ⟨⟨hopen, hid⟩, ih⟩
  rw [filterMap_concat, List.map_append, ← ih, destinationEvents, List.flatMap_append, List.filter_append]
  change _ ∧ (destinationEvents t).filter isAckSend ++ _ = (destinationEvents t).filter isAckSend ++ _
  cases i with
  | send payload => exact ⟨⟨hopen, hid⟩, rfl⟩
  | deliver k =>
    simp only [linkMachine]
    cases s.sent[k]? with
    | none => exact ⟨⟨hopen, hid⟩, rfl⟩
    | some pkt =>
      refine ⟨⟨call_allOpen hopen _, (call_chainId _ _).trans hid⟩, ?_⟩
      have acks := ackEvents_call hopen (.onIBCPacket pkt)
      rw [hid] at acks
      rw [List.flatMap_singleton]
      exact congrArg _ acks

theorem accepted_prefix_link {src dst : Blockchain} (openSrc : AllOpen src) (openDst : AllOpen dst)
    (freshSrc : (resolve src ends.srcPort ends.srcChannel).nextSeq = 1)
    (freshDst : (resolve dst ends.dstPort ends.dstChannel).nextSeq = 1) (is : List LinkInput)
    (few : (((linkMachine ends).trace ⟨src, dst, []⟩ is).filterMap sentBy).length < 2 ^ 64) :
    ((linkMachine ends).trace ⟨src, dst, []⟩ is).filterMap acceptedBy <+:
      ((linkMachine ends).trace ⟨src, dst, []⟩ is).filterMap sentBy := by
  have start : Tracks ends dst.chainId ⟨src, dst, []⟩ ⟨[], 0⟩ :=
    ⟨openSrc, openDst, rfl, rfl, freshSrc, freshDst, fun k pkt hk => by simp at hk⟩
  obtain ⟨tracks, same⟩ := link_refines ends start is
  have sent := sent_eq ends ⟨src, dst, []⟩ is
  rw [List.nil_append] at sent
  rw [← sent] at few ⊢
  rw [tracks.sent] at few ⊢
  rw [same]
  exact taken_prefix sequenceAt _ (sequenceAt_distinct few)

/-- The operation sends or receives on the channel stored under the key. -/
def spends (key : Bytes) : ChainOp → Bool
  | .sendIBC port chan _ _ _ _ => makeChannelKey port chan == key
  | .onIBCPacket pkt => makeChannelKey pkt.dstPort pkt.dstChannel == key
  | _ => false

theorem unspent_call {b : Blockchain} (h : AllOpen b) {op : ChainOp} {port : PortId} {chan : ChannelId}
    (unspent : spends (makeChannelKey port chan) op = false) :
    (resolve (b.call op).chain port chan).nextSeq = (resolve b port chan).nextSeq := by
  cases op with
  | openChannel port' chan' =>
    change (resolve (b.openChannel port' chan').chain port chan).nextSeq = _
    cases hb : b.router.isBound port' chan' with
    | true => rw [(openChannel_bound b hb).1]
    | false =>
      rw [openChannel_unbound h hb]
      exact resolve_store_opened { b with router := _ } port' port chan' chan
  | closeChannel port' chan' => rfl
  | sendIBC port' chan' dstChain dstPort dstChan payload =>
    rw [resolve_call_other h]
    intro port₁ chan₁ hop
    obtain ⟨rfl, rfl⟩ : port' = port₁ ∧ chan' = chan₁ := by simpa [pair] using hop
    exact beq_eq_false_iff_ne.mp unspent
  | onIBCPacket pkt =>
    rw [resolve_call_other h]
    intro port₁ chan₁ hop
    obtain ⟨rfl, rfl⟩ : pkt.dstPort = port₁ ∧ pkt.dstChannel = chan₁ := by simpa [pair] using hop
    exact beq_eq_false_iff_ne.mp unspent
  | onIBCAck | appendBlock | registerNodeId | addTransaction | drain =>
    rw [resolve_call_other h]
    intro port₁ chan₁ hop
    cases hop

theorem unspent_final (chainId : Bytes) (ops : List ChainOp) {port : PortId} {chan : ChannelId}
    (unspent : ∀ op ∈ ops, spends (makeChannelKey port chan) op = false) :
    (resolve (chainMachine.final (.new chainId) ops) port chan).nextSeq = 1 := by
  have step : ∀ b op, op ∈ ops → AllOpen b ∧ (resolve b port chan).nextSeq = 1 →
      AllOpen (b.call op).chain ∧ (resolve (b.call op).chain port chan).nextSeq = 1 := by
    intro b op hop hb
    exact ⟨call_allOpen hb.1 op, (unspent_call hb.1 (unspent op hop)).trans hb.2⟩
  exact (chainMachine.invariant (I := fun b => AllOpen b ∧ (resolve b port chan).nextSeq = 1) ops
    ⟨allOpen_new chainId, rfl⟩ step).2

/-- Exactly-once, in-order reception. From any reachable chains whose two channel ends
    have not been used, in every run, what the destination accepted is a prefix of what
    the source sent, and it has published one ack for each. -/
theorem accepted_prefix_of_sent (srcId dstId : Bytes) (srcOps dstOps : List ChainOp)
    (freshSrc : ∀ op ∈ srcOps, spends (makeChannelKey ends.srcPort ends.srcChannel) op = false)
    (freshDst : ∀ op ∈ dstOps, spends (makeChannelKey ends.dstPort ends.dstChannel) op = false)
    (is : List LinkInput) :
    let src := chainMachine.final (.new srcId) srcOps
    let dst := chainMachine.final (.new dstId) dstOps
    let t := (linkMachine ends).trace ⟨src, dst, []⟩ is
    (t.filterMap sentBy).length < 2 ^ 64 →
      t.filterMap acceptedBy <+: t.filterMap sentBy ∧
        (destinationEvents t).filter isAckSend = (t.filterMap acceptedBy).map (ackEvent dst.chainId) := by
  intro src dst t few
  have openSrc : AllOpen src := allOpen_final (allOpen_new srcId) srcOps
  have openDst : AllOpen dst := allOpen_final (allOpen_new dstId) dstOps
  exact ⟨accepted_prefix_link ends openSrc openDst (unspent_final srcId srcOps freshSrc)
    (unspent_final dstId dstOps freshDst) is few, destination_acks ends openDst is⟩

theorem accepted_prefix_of_sent_twice :
    let ends : Ends := ⟨⟨lit "p"⟩, ⟨lit "c"⟩, ⟨lit "q"⟩, ⟨lit "d"⟩⟩
    let dst := chainMachine.final (.new (lit "D")) [.openChannel ⟨lit "q"⟩ ⟨lit "d"⟩]
    let t := (linkMachine ends).trace ⟨.new (lit "S"), dst, []⟩
      [.send (lit "x"), .send (lit "y"), .deliver 1, .deliver 0, .deliver 0, .deliver 1]
    t.filterMap acceptedBy <+: t.filterMap sentBy :=
  (accepted_prefix_of_sent _ (lit "S") (lit "D") [] [.openChannel ⟨lit "q"⟩ ⟨lit "d"⟩] (by decide)
    (by decide) _ (by decide)).1

end InterchainCommunication.LinkDelivery
