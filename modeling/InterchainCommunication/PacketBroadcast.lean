import InterchainCommunication.EventDelivery

set_option autoImplicit false

namespace InterchainCommunication.PacketBroadcast
open ListUpdates StringText CoreTypes MachineRuns PacketCodec BlockchainModel BlockchainSteps
open ChainHistory QueueAndBus RelayerModel SimulationModel SimulationWiring EventDelivery

/-- Everything that touches the chains, the bus and the packet queues: chains and relayers
    are made, any thread calls a chain, and a relayer takes from its queues or closes them. -/
inductive BusInput
  | newChain (chainId : Bytes)
  | newRelayer
  | call (c : ℕ) (op : ChainOp)
  | forwardPacket (r : ℕ) (drops : Drops)
  | forwardAck (r : ℕ) (drops : Drops)
  | closePackets (r : ℕ)
  | closeAcks (r : ℕ)
  deriving DecidableEq

structure BusOutput where
  calls : List (ℕ × ChainOp × ChainReply)
  pushed : ℕ → List IBCPacket

def pushedBetween (s s' : Sim) (r : ℕ) : List IBCPacket :=
  match s.relayers[r]?, s'.relayers[r]? with
  | some rel, some rel' => rel'.pendingPackets.q.drop rel.pendingPackets.q.length
  | _, _ => []

def busAct (s : Sim) : BusInput → Sim × SimOutput
  | .newChain chainId => ({ s with chains := s.chains ++ [.new chainId] }, ⟨[], []⟩)
  | .newRelayer => (s.addRelayer, ⟨[], []⟩)
  | .call c op => s.sendIBC c op
  | .forwardPacket r drops => s.forward r fun rel t => rel.forwardPacket t drops
  | .forwardAck r drops => s.forward r fun rel t => rel.forwardAck t drops
  | .closePackets r => ({ s with relayers := s.relayers.modify r Relayer.closePackets }, ⟨[], []⟩)
  | .closeAcks r => ({ s with relayers := s.relayers.modify r Relayer.closeAcks }, ⟨[], []⟩)

def busMachine : Machine Sim BusInput BusOutput where
  step s i := let o := busAct s i; (o.1, ⟨o.2.calls, pushedBetween s o.1⟩)

def callsOf (t : List (BusInput × BusOutput)) : List (ℕ × ChainOp × ChainReply) := t.flatMap fun e => e.2.calls

def sentIn (t : List (BusInput × BusOutput)) : List IBCPacket := (callsOf t).filterMap fun call => sentPacket call.2

def pushedIn (r : ℕ) (t : List (BusInput × BusOutput)) : List IBCPacket := t.flatMap fun e => e.2.pushed r

def isSend : ChainOp → Bool
  | .sendIBC _ _ _ _ _ _ => true
  | _ => false

def names (key : Bytes) (op : ChainOp) : Bool := (pair op).any fun p => makeChannelKey p.1 p.2 == key

/-- The packet a call sent through the channel under the key of chain `c`. -/
def sentThrough (c : ℕ) (key : Bytes) (call : ℕ × ChainOp × ChainReply) : Option IBCPacket :=
  if call.1 = c ∧ names key call.2.1 = true then sentPacket call.2 else none

def touches (c : ℕ) (key : Bytes) : BusInput → Bool
  | .call c' op => c' == c && names key op
  | _ => false

def numberOf (s : Sim) (c : ℕ) (key : Bytes) : UInt64 :=
  ((s.chains[c]?.bind fun b => b.channels key).map (·.nextSeq)).getD 1

structure Wired (s : Sim) : Prop where
  chains : ∀ b ∈ s.chains, AllOpen b
  heard : Subscribed (wiring s)

theorem subscribed_same {s s' : Sim} (bus : s'.bus = s.bus) (count : s'.relayers.length = s.relayers.length)
    (h : Subscribed (wiring s)) : Subscribed (wiring s') := by
  have relayers : (wiring s').relayers.length = (wiring s).relayers.length := by
    simp [wiring, count]
  have same : (wiring s').bus = (wiring s).bus := bus
  constructor
  · rw [same, relayers]
    exact h.packetHandlers
  · rw [same, relayers]
    exact h.ackHandlers
  · rw [same]
    exact h.otherHandlers

theorem call_heard {s : Sim} (wired : Wired s) {c : ℕ} {b : Blockchain} (found : s.chains[c]? = some b)
    (op : ChainOp) : s.sendIBC c op =
      ({ s with
          chains := s.chains.set c (b.call op).chain
          relayers := s.relayers.map fun rel => hearAll rel (published (b.call op).effects) },
        ⟨[(c, op, (b.call op).ret)], (s.sendIBC c op).2.effects⟩) := by
  let s₁ : Sim := { s with chains := s.chains.set c (b.call op).chain }
  have heard : Subscribed (wiring s₁) := subscribed_same (s := s) rfl rfl wired.heard
  have all := foldl_publish (s := (s₁, (b.call op).effects)) heard (published (b.call op).effects)
  simp only [Sim.sendIBC, found]
  exact Prod.ext all rfl

theorem hear_packets_closed (rel : Relayer) (e : Event) :
    (hear rel e).pendingPackets.closed = rel.pendingPackets.closed := by
  obtain ⟨items, packets⟩ := rel.onIBCPacketSendEvent_adds e
  obtain ⟨items', acks⟩ := rel.onIBCAckSendEvent_adds e
  unfold hear
  split
  · rw [packets]
  · rw [acks]
  · rfl

theorem hearAll_packets_closed (rel : Relayer) (es : List Event) :
    (hearAll rel es).pendingPackets.closed = rel.pendingPackets.closed := by
  induction es generalizing rel with
  | nil => rfl
  | cons e es ih => exact (ih (hear rel e)).trans (hear_packets_closed rel e)

theorem hear_sendEvent_packets {rel : Relayer} (taking : rel.pendingPackets.closed = false) (chainId : Bytes)
    {pkt : IBCPacket} (data : pkt.type = .data) :
    (hear rel (sendEvent chainId pkt)).pendingPackets.q = rel.pendingPackets.q ++ [pkt] := by
  have read : deserializeIBCPacket (sendEvent chainId pkt).detail = .ok pkt :=
    deserialize_serialize pkt (stoi_type (.inl data))
  have here : hear rel (sendEvent chainId pkt) = (rel.onIBCPacketSendEvent (sendEvent chainId pkt)).1 := rfl
  rw [here]
  simp only [Relayer.onIBCPacketSendEvent, read, data, if_true, ConcurrentQueue.push_open taking]

theorem hear_ackEvent_packets (rel : Relayer) (chainId : Bytes) (pkt : IBCPacket) :
    (hear rel (ackEvent chainId pkt)).pendingPackets = rel.pendingPackets := by
  have here : hear rel (ackEvent chainId pkt) = (rel.onIBCAckSendEvent (ackEvent chainId pkt)).1 := rfl
  obtain ⟨items, added⟩ := rel.onIBCAckSendEvent_adds (ackEvent chainId pkt)
  rw [here, added]

theorem sentPacket_data {b : Blockchain} (h : AllOpen b) {op : ChainOp} {pkt : IBCPacket}
    (sent : sentPacket (op, (b.call op).ret) = some pkt) : pkt.type = .data := by
  cases op with
  | sendIBC port chan dstChain dstPort dstChan payload =>
    rw [sentPacket_sendIBC h, Option.some.injEq] at sent
    rw [← sent]
    rfl
  | openChannel | closeChannel | onIBCPacket | onIBCAck | appendBlock | registerNodeId | addTransaction | drain =>
    cases sent

theorem hearAll_packets {b : Blockchain} (h : AllOpen b) (op : ChainOp) {rel : Relayer}
    (taking : rel.pendingPackets.closed = false) :
    (hearAll rel (published (b.call op).effects)).pendingPackets.q =
      rel.pendingPackets.q ++ (sentPacket (op, (b.call op).ret)).toList := by
  rw [hearAll_relayed, call_published h op, ← hearAll_relayed]
  generalize reply : (b.call op).ret = ret
  cases sent : sentPacket (op, ret) with
  | some pkt =>
    have silent : acceptedPacket (op, ret) = none := by
      cases op with
      | onIBCPacket pkt' => cases sent
      | sendIBC | openChannel | closeChannel | onIBCAck | appendBlock | registerNodeId | addTransaction | drain => rfl
    have one : hearAll rel (packetEvents b.chainId (op, ret)) = hear rel (sendEvent b.chainId pkt) := by
      simp only [packetEvents, sent, silent]
      rfl
    rw [one]
    exact hear_sendEvent_packets taking b.chainId (sentPacket_data h (reply ▸ sent))
  | none =>
    cases accepted : acceptedPacket (op, ret) with
    | none =>
      have deaf : hearAll rel (packetEvents b.chainId (op, ret)) = rel := by
        simp only [packetEvents, sent, accepted]
        rfl
      rw [deaf]
      exact (List.append_nil _).symm
    | some pkt =>
      have one : hearAll rel (packetEvents b.chainId (op, ret)) = hear rel (ackEvent b.chainId pkt) := by
        simp only [packetEvents, sent, accepted]
        rfl
      rw [one, hear_ackEvent_packets]
      exact (List.append_nil _).symm

theorem pushedBetween_append {s s' : Sim} {r : ℕ} {rel rel' : Relayer} {l : List IBCPacket}
    (before : s.relayers[r]? = some rel) (after : s'.relayers[r]? = some rel')
    (grown : rel'.pendingPackets.q = rel.pendingPackets.q ++ l) : pushedBetween s s' r = l := by
  simp only [pushedBetween, before, after, grown, List.drop_left]

theorem pushedBetween_none {s s' : Sim} {r : ℕ} {rel rel' : Relayer} (before : s.relayers[r]? = some rel)
    (after : s'.relayers[r]? = some rel') (shorter : rel'.pendingPackets.q.length ≤ rel.pendingPackets.q.length) :
    pushedBetween s s' r = [] := by
  simp only [pushedBetween, before, after]
  exact List.drop_eq_nil_of_le shorter

def OnlyTakes (rel rel' : Relayer) : Prop :=
  rel'.pendingPackets.q.length ≤ rel.pendingPackets.q.length ∧
    (rel.pendingPackets.closed = true → rel'.pendingPackets.closed = true)

theorem forwardPacket_onlyTakes (rel : Relayer) (t : Transport) (drops : Drops) :
    OnlyTakes rel (rel.forwardPacket t drops).1 := by
  rcases rel.forwardPacket_cases t drops with ⟨-, still⟩ | ⟨pkt, rest, _, _, _, _, full, -, moved⟩
  · rw [still]
    exact ⟨le_refl _, id⟩
  · have shorter : rest.length ≤ rel.pendingPackets.q.length := by
      rw [full]
      exact Nat.le_succ _
    rw [moved]
    exact ⟨shorter, id⟩

theorem forwardAck_onlyTakes (rel : Relayer) (t : Transport) (drops : Drops) :
    OnlyTakes rel (rel.forwardAck t drops).1 := by
  rcases rel.forwardAck_cases t drops with ⟨-, still⟩ | ⟨_, _, _, _, _, _, -, -, moved⟩
  · rw [still]
    exact ⟨le_refl _, id⟩
  · rw [moved]
    exact ⟨le_refl _, id⟩

/-- How the packet queue of each relayer goes through a step: a closed one stays closed, and an
    open one has been given what was sent. -/
def Queued (s s' : Sim) (sent : List IBCPacket) : Prop :=
  ∀ (r : ℕ) (rel : Relayer), s.relayers[r]? = some rel → ∃ rel', s'.relayers[r]? = some rel' ∧
    (rel.pendingPackets.closed = true → rel'.pendingPackets.closed = true) ∧
    (rel'.pendingPackets.closed = false → pushedBetween s s' r = sent)

theorem queued_same {s s' : Sim} (same : s'.relayers = s.relayers) : Queued s s' [] := by
  intro r rel found
  have found' : s'.relayers[r]? = some rel := by rw [same, found]
  exact ⟨rel, found', id, fun _ => pushedBetween_none found found' (le_refl _)⟩

theorem queued_modify {s s' : Sim} {k : ℕ} {f : Relayer → Relayer} (same : s'.relayers = s.relayers.modify k f)
    (takes : ∀ rel, s.relayers[k]? = some rel → OnlyTakes rel (f rel)) : Queued s s' [] := by
  intro r rel found
  by_cases here : k = r
  · subst here
    have found' : s'.relayers[k]? = some (f rel) := by
      rw [same, List.getElem?_modify, found]
      simp
    obtain ⟨shorter, closed⟩ := takes rel found
    exact ⟨f rel, found', closed, fun _ => pushedBetween_none found found' shorter⟩
  · have found' : s'.relayers[r]? = some rel := by
      rw [same, List.getElem?_modify, found]
      simp [here]
    exact ⟨rel, found', id, fun _ => pushedBetween_none found found' (le_refl _)⟩

def sentBy (calls : List (ℕ × ChainOp × ChainReply)) : List IBCPacket := calls.filterMap fun call => sentPacket call.2

def AllSent (calls : List (ℕ × ChainOp × ChainReply)) : Prop :=
  ∀ call ∈ calls, isSend call.2.1 = true → ∃ pkt, call.2.2 = .packet ⟨⟨.ok, []⟩, some pkt⟩

/-- What every step does: the invariant holds on, the queues get what was sent, and every
    send succeeds. -/
structure Hands (s : Sim) (o : Sim × SimOutput) : Prop where
  wired : Wired o.1
  queues : Queued s o.1 (sentBy o.2.calls)
  replies : AllSent o.2.calls

theorem allSent_nil : AllSent [] := fun _ h => absurd h List.not_mem_nil

theorem hands_call {s : Sim} (wired : Wired s) (c : ℕ) (op : ChainOp) : Hands s (s.sendIBC c op) := by
  cases found : s.chains[c]? with
  | none =>
    have nothing : s.sendIBC c op = (s, ⟨[], []⟩) := by simp only [Sim.sendIBC, found]
    rw [nothing]
    exact ⟨wired, queued_same rfl, allSent_nil⟩
  | some b =>
    have h := wired.chains b (List.mem_of_getElem? found)
    rw [call_heard wired found op]
    refine ⟨⟨?_, ?_⟩, ?_, ?_⟩
    · intro b' member
      rcases List.mem_or_eq_of_mem_set member with old | rfl
      · exact wired.chains b' old
      · exact call_allOpen h op
    · exact subscribed_same (s := s) rfl (List.length_map ..) wired.heard
    · intro r rel there
      have there' : (s.relayers.map fun rel => hearAll rel (published (b.call op).effects))[r]? =
          some (hearAll rel (published (b.call op).effects)) := by
        rw [List.getElem?_map, there]
        rfl
      refine ⟨_, there', fun closed => ?_, fun taking => ?_⟩
      · rw [hearAll_packets_closed, closed]
      · rw [hearAll_packets_closed] at taking
        have one : sentBy [(c, op, (b.call op).ret)] = (sentPacket (op, (b.call op).ret)).toList := by
          unfold sentBy
          cases sent : sentPacket (op, (b.call op).ret) <;> simp [sent]
        rw [one]
        exact pushedBetween_append there there' (hearAll_packets h op taking)
    · intro call member isSent
      obtain rfl := List.mem_singleton.mp member
      cases op with
      | sendIBC port chan dstChain dstPort dstChan payload =>
        refine ⟨_, congrArg ChainReply.packet (congrArg Outcome.ret
          (sendIBC_eq h port chan dstChain dstPort dstChan payload))⟩
      | openChannel | closeChannel | onIBCPacket | onIBCAck | appendBlock | registerNodeId | addTransaction
        | drain => cases isSent

theorem hands_forward {s : Sim} (wired : Wired s) (r : ℕ)
    {half : Relayer → Transport → Relayer × Transport × List Effect}
    (takes : ∀ rel t, OnlyTakes rel (half rel t).1) : Hands s (s.forward r half) := by
  unfold Sim.forward
  cases found : s.relayers[r]? with
  | none => exact ⟨wired, queued_same rfl, allSent_nil⟩
  | some rel =>
    have same : s.relayers.set r (half rel s.transport).1 =
        s.relayers.modify r fun rel => (half rel s.transport).1 :=
      set_eq_modify found fun rel => (half rel s.transport).1
    refine ⟨⟨wired.chains, ?_⟩, queued_modify same fun rel _ => takes rel _, allSent_nil⟩
    exact subscribed_same (s := s) rfl (List.length_set ..) wired.heard

theorem hands_modify {s : Sim} (wired : Wired s) (r : ℕ) {f : Relayer → Relayer}
    (takes : ∀ rel, OnlyTakes rel (f rel)) : Hands s ({ s with relayers := s.relayers.modify r f }, ⟨[], []⟩) := by
  refine ⟨⟨wired.chains, ?_⟩, queued_modify rfl fun rel _ => takes rel, allSent_nil⟩
  exact subscribed_same (s := s) rfl (List.length_modify ..) wired.heard

theorem busAct_hands {s : Sim} (wired : Wired s) (i : BusInput) : Hands s (busAct s i) := by
  cases i with
  | newChain chainId =>
    refine ⟨⟨fun b member => ?_, subscribed_same (s := s) rfl rfl wired.heard⟩, queued_same rfl, allSent_nil⟩
    rcases List.mem_append.mp member with old | new
    · exact wired.chains b old
    · rw [List.mem_singleton.mp new]
      exact allOpen_new chainId
  | newRelayer =>
    refine ⟨⟨wired.chains, subscribed_addRelayer wired.heard⟩, fun r rel found => ?_, allSent_nil⟩
    have found' : s.addRelayer.relayers[r]? = some rel := getElem?_append_of_some found _
    exact ⟨rel, found', id, fun _ => pushedBetween_none found found' (le_refl _)⟩
  | call c op => exact hands_call wired c op
  | forwardPacket r drops => exact hands_forward wired r fun rel t => forwardPacket_onlyTakes rel t drops
  | forwardAck r drops => exact hands_forward wired r fun rel t => forwardAck_onlyTakes rel t drops
  | closePackets r => exact hands_modify wired r fun rel => ⟨le_refl _, fun _ => rfl⟩
  | closeAcks r => exact hands_modify wired r fun rel => ⟨le_refl _, id⟩

theorem wired_empty : Wired Sim.empty :=
  ⟨fun _ member => absurd member List.not_mem_nil, built_empty.sound.subscribed⟩

theorem wired_final {s : Sim} (wired : Wired s) (is : List BusInput) : Wired (busMachine.final s is) :=
  busMachine.invariant is wired fun _ i _ h => (busAct_hands h i).wired

theorem sentIn_cons (s : Sim) (i : BusInput) (is : List BusInput) : sentIn (busMachine.trace s (i :: is)) =
    sentBy (busAct s i).2.calls ++ sentIn (busMachine.trace (busAct s i).1 is) := by
  change (callsOf ((i, _) :: _)).filterMap _ = _
  rw [callsOf, List.flatMap_cons, List.filterMap_append]
  rfl

/-- Over a run, an open queue has been given exactly the packets the sends returned. -/
theorem run_queued {s : Sim} (wired : Wired s) (is : List BusInput) (r : ℕ) (rel : Relayer)
    (found : s.relayers[r]? = some rel) : ∃ rel', (busMachine.final s is).relayers[r]? = some rel' ∧
      (rel.pendingPackets.closed = true → rel'.pendingPackets.closed = true) ∧
      (rel'.pendingPackets.closed = false → pushedIn r (busMachine.trace s is) = sentIn (busMachine.trace s is)) := by
  induction is generalizing s rel with
  | nil => exact ⟨rel, found, id, fun _ => rfl⟩
  | cons i is ih =>
    have hands := busAct_hands wired i
    obtain ⟨mid, at_mid, closing, pushed⟩ := hands.queues r rel found
    obtain ⟨rel', at_end, closing', pushed'⟩ := ih hands.wired mid at_mid
    refine ⟨rel', at_end, fun closed => closing' (closing closed), fun taking => ?_⟩
    have taking_mid : mid.pendingPackets.closed = false := by
      by_contra closed
      rw [closing' (by simpa using closed)] at taking
      cases taking
    rw [sentIn_cons, ← pushed' taking, ← pushed taking_mid]
    rfl

theorem run_allSent {s : Sim} (wired : Wired s) (is : List BusInput) : AllSent (callsOf (busMachine.trace s is)) := by
  induction is generalizing s with
  | nil => exact allSent_nil
  | cons i is ih =>
    intro call member
    rcases List.mem_append.mp member with now | later
    · exact (busAct_hands wired i).replies call now
    · exact ih (busAct_hands wired i).wired call later

def throughIn (c : ℕ) (key : Bytes) (t : List (BusInput × BusOutput)) : List IBCPacket :=
  (callsOf t).filterMap (sentThrough c key)

/-- How the number of a channel goes through a step, with what was sent through it. -/
inductive Counts (before after : UInt64) : List IBCPacket → Prop
  | still (same : after = before) : Counts before after []
  | spent (next : after = before + 1) : Counts before after []
  | sent (pkt : IBCPacket) (number : pkt.sequence = before) (next : after = before + 1) : Counts before after [pkt]

theorem resolve_numberOf {s : Sim} {c : ℕ} {b : Blockchain} (found : s.chains[c]? = some b) (port : PortId)
    (chan : ChannelId) : (resolve b port chan).nextSeq = numberOf s c (makeChannelKey port chan) := by
  unfold numberOf resolve
  rw [found, Option.bind_some]
  cases b.channels (makeChannelKey port chan) <;> rfl

theorem counts_named {s : Sim} (wired : Wired s) {c : ℕ} {b : Blockchain} (found : s.chains[c]? = some b)
    {op : ChainOp} {p : PortId × ChannelId} (named : pair op = some p) :
    Counts (numberOf s c (makeChannelKey p.1 p.2))
      (((written b op).map (·.nextSeq)).getD (numberOf s c (makeChannelKey p.1 p.2)))
      ((sentPacket (op, (b.call op).ret)).toList) := by
  have h := wired.chains b (List.mem_of_getElem? found)
  cases op with
  | openChannel port chan =>
    obtain rfl : (port, chan) = p := Option.some.inj named
    refine .still ?_
    cases bound : b.router.isBound port chan with
    | true => simp [written, bound]
    | false =>
      simp only [written, bound]
      exact resolve_numberOf found port chan
  | closeChannel port chan => exact .still rfl
  | sendIBC port chan dstChain dstPort dstChan payload =>
    obtain rfl : (port, chan) = p := Option.some.inj named
    rw [sentPacket_sendIBC h]
    refine .sent _ (resolve_numberOf found port chan) ?_
    exact congrArg (· + 1) (resolve_numberOf found port chan)
  | onIBCPacket pkt =>
    obtain rfl : (pkt.dstPort, pkt.dstChannel) = p := Option.some.inj named
    have number := resolve_numberOf found pkt.dstPort pkt.dstChannel
    by_cases next : pkt.sequence = (resolve b pkt.dstPort pkt.dstChannel).nextSeq
    · simp only [written, if_pos next]
      exact .spent (congrArg (· + 1) number)
    · simp only [written, if_neg next]
      exact .still number
  | onIBCAck | appendBlock | registerNodeId | addTransaction | drain => cases named

theorem counts_call {s : Sim} (wired : Wired s) {c : ℕ} {b : Blockchain} (found : s.chains[c]? = some b)
    (op : ChainOp) (key : Bytes) :
    let o := s.sendIBC c op
    Counts (numberOf s c key) (numberOf o.1 c key) (o.2.calls.filterMap (sentThrough c key)) ∧
      (names key op = false →
        numberOf o.1 c key = numberOf s c key ∧ o.2.calls.filterMap (sentThrough c key) = []) := by
  intro o
  have h := wired.chains b (List.mem_of_getElem? found)
  have calls : o.2.calls = [(c, op, (b.call op).ret)] := congrArg (fun o => o.2.calls) (call_heard wired found op)
  have chains : o.1.chains = s.chains.set c (b.call op).chain :=
    congrArg (fun o => o.1.chains) (call_heard wired found op)
  have inside : c < s.chains.length := (List.getElem?_eq_some_iff.mp found).1
  have after : numberOf o.1 c key = (((b.call op).chain.channels key).map (·.nextSeq)).getD 1 := by
    rw [numberOf, chains, List.getElem?_set_self inside, Option.bind_some]
  have before : numberOf s c key = ((b.channels key).map (·.nextSeq)).getD 1 := by
    rw [numberOf, found, Option.bind_some]
  rw [calls]
  cases named : names key op with
  | false =>
    have off : ∀ port chan, pair op = some (port, chan) → makeChannelKey port chan ≠ key := by
      intro port chan hp same
      rw [names, hp, Option.any_some, same] at named
      simp at named
    have same : numberOf o.1 c key = numberOf s c key := by
      rw [after, before, call_channels_other h off]
    have none : [(c, op, (b.call op).ret)].filterMap (sentThrough c key) = [] := by
      simp [sentThrough, named]
    rw [none, same]
    exact ⟨.still rfl, fun _ => ⟨rfl, rfl⟩⟩
  | true =>
    obtain ⟨p, hp, same⟩ := (Option.any_eq_true _ _).mp named
    obtain rfl := beq_iff_eq.mp same
    have next : numberOf o.1 c (makeChannelKey p.1 p.2) =
        ((written b op).map (·.nextSeq)).getD (numberOf s c (makeChannelKey p.1 p.2)) := by
      rw [after, before, channels_call h hp]
      cases written b op <;> rfl
    have sent : [(c, op, (b.call op).ret)].filterMap (sentThrough c (makeChannelKey p.1 p.2)) =
        (sentPacket (op, (b.call op).ret)).toList := by
      cases sent : sentPacket (op, (b.call op).ret) <;> simp [sentThrough, named, sent]
    rw [next, sent]
    exact ⟨counts_named wired found hp, fun other => absurd other Bool.noConfusion⟩

theorem counts_step {s : Sim} (wired : Wired s) (i : BusInput) (c : ℕ) (key : Bytes) :
    let o := busAct s i
    Counts (numberOf s c key) (numberOf o.1 c key) (o.2.calls.filterMap (sentThrough c key)) ∧
      (touches c key i = false →
        numberOf o.1 c key = numberOf s c key ∧ o.2.calls.filterMap (sentThrough c key) = []) := by
  intro o
  have quiet (same : numberOf o.1 c key = numberOf s c key)
      (none : o.2.calls.filterMap (sentThrough c key) = []) :
      Counts (numberOf s c key) (numberOf o.1 c key) (o.2.calls.filterMap (sentThrough c key)) ∧
        (touches c key i = false →
          numberOf o.1 c key = numberOf s c key ∧ o.2.calls.filterMap (sentThrough c key) = []) := by
    rw [none]
    exact ⟨.still same, fun _ => ⟨same, rfl⟩⟩
  have forwarded (r : ℕ) (half : Relayer → Transport → Relayer × Transport × List Effect) :
      numberOf (s.forward r half).1 c key = numberOf s c key ∧ (s.forward r half).2.calls = [] := by
    unfold Sim.forward
    cases s.relayers[r]? <;> exact ⟨rfl, rfl⟩
  cases i with
  | newChain chainId =>
    refine quiet ?_ rfl
    change ((((s.chains ++ [Blockchain.new chainId])[c]?).bind _).map _).getD 1 = _
    rcases Nat.lt_or_ge c s.chains.length with inside | outside
    · rw [List.getElem?_append_left inside]
      rfl
    · rw [numberOf, List.getElem?_append_right outside, List.getElem?_eq_none_iff.mpr outside]
      cases found : ([Blockchain.new chainId] : List Blockchain)[c - s.chains.length]? with
      | none => rfl
      | some b =>
        obtain rfl := List.mem_singleton.mp (List.mem_of_getElem? found)
        rfl
  | call c' op =>
    cases found : s.chains[c']? with
    | none =>
      have nothing : o = (s, ⟨[], []⟩) := by simp only [o, busAct, Sim.sendIBC, found]
      refine quiet ?_ ?_
      · rw [nothing]
      · rw [nothing]
        rfl
    | some b =>
      by_cases here : c' = c
      · subst here
        obtain ⟨counts, silent⟩ := counts_call wired found op key
        exact ⟨counts, fun off => silent (by simpa [touches] using off)⟩
      · have eq : o = _ := call_heard wired found op
        refine quiet ?_ ?_
        · rw [eq, numberOf, List.getElem?_set_ne here]
          rfl
        · rw [eq]
          simp [sentThrough, here]
  | forwardPacket r drops | forwardAck r drops =>
    obtain ⟨same, calls⟩ := forwarded r _
    exact quiet same (congrArg (List.filterMap (sentThrough c key)) calls)
  | newRelayer | closePackets r | closeAcks r => exact quiet rfl rfl

theorem throughIn_cons (c : ℕ) (key : Bytes) (s : Sim) (i : BusInput) (is : List BusInput) :
    throughIn c key (busMachine.trace s (i :: is)) =
      (busAct s i).2.calls.filterMap (sentThrough c key) ++ throughIn c key (busMachine.trace (busAct s i).1 is) := by
  change (callsOf ((i, _) :: _)).filterMap _ = _
  rw [callsOf, List.flatMap_cons, List.filterMap_append]
  rfl

/-- As long as the number does not wrap, it only grows, and so do the numbers of the packets. -/
theorem run_numbers {s : Sim} (wired : Wired s) (is : List BusInput) (c : ℕ) (key : Bytes) {N : ℕ}
    (number : numberOf s c key = UInt64.ofNat N) (room : N + is.countP (touches c key) ≤ 2 ^ 64) :
    ((throughIn c key (busMachine.trace s is)).map (·.sequence.toNat)).Pairwise (· < ·) ∧
      ∀ pkt ∈ throughIn c key (busMachine.trace s is), N ≤ pkt.sequence.toNat := by
  induction is generalizing s N with
  | nil => exact ⟨List.Pairwise.nil, fun _ h => absurd h List.not_mem_nil⟩
  | cons i is ih =>
    have wired' := (busAct_hands wired i).wired
    obtain ⟨counts, silent⟩ := counts_step wired i c key
    rw [throughIn_cons]
    cases touched : touches c key i with
    | false =>
      obtain ⟨same, none⟩ := silent touched
      rw [none]
      exact ih wired' (same.trans number) (by simpa [touched] using room)
    | true =>
      have room' : N + 1 + is.countP (touches c key) ≤ 2 ^ 64 := by
        rw [List.countP_cons, touched] at room
        simp only [if_true] at room
        omega
      have succ : UInt64.ofNat N + 1 = UInt64.ofNat (N + 1) := (UInt64.ofNat_add N 1).symm
      generalize (busAct s i).2.calls.filterMap (sentThrough c key) = now at counts
      cases counts with
      | still same => exact ih wired' (same.trans number) (by omega)
      | spent next =>
        obtain ⟨growing, above⟩ := ih wired' (N := N + 1) (by rw [next, number, succ]) room'
        exact ⟨growing, fun pkt member => (Nat.le_succ N).trans (above pkt member)⟩
      | sent pkt mine next =>
        obtain ⟨growing, above⟩ := ih wired' (N := N + 1) (by rw [next, number, succ]) room'
        have value : pkt.sequence.toNat = N := by
          rw [mine, number, UInt64.toNat_ofNat', Nat.mod_eq_of_lt (by omega)]
        refine ⟨List.pairwise_cons.mpr ⟨fun n member => ?_, growing⟩, fun pkt' member => ?_⟩
        · obtain ⟨later, there, rfl⟩ := List.mem_map.mp member
          exact lt_of_eq_of_lt value (above later there)
        · rcases List.mem_cons.mp member with rfl | there
          · exact value.ge
          · exact (Nat.le_succ N).trans (above pkt' there)

/-- From every state and for every interleaving: all sends succeed, each relayer whose packet
    queue is open in the end has been given what the sends returned, and the numbers of a
    channel grow until its counter wraps. -/
theorem sends_reach_every_relayer (earlier is : List BusInput) :
    let s := busMachine.final Sim.empty earlier
    let t := busMachine.trace s is
    AllSent (callsOf t) ∧
      (∀ (r : ℕ) (rel : Relayer), r < s.relayers.length → (busMachine.final s is).relayers[r]? = some rel →
        rel.pendingPackets.closed = false → pushedIn r t = sentIn t) ∧
      ∀ c key, (numberOf s c key).toNat + is.countP (touches c key) ≤ 2 ^ 64 →
        ((throughIn c key t).map (·.sequence.toNat)).Pairwise (· < ·) := by
  intro s t
  have wired : Wired s := wired_final wired_empty earlier
  refine ⟨run_allSent wired is, fun r rel inside at_end taking => ?_, fun c key room => ?_⟩
  · obtain ⟨rel', at_end', -, pushed⟩ := run_queued wired is r s.relayers[r] (List.getElem?_eq_getElem inside)
    obtain rfl : rel = rel' := Option.some.inj (at_end.symm.trans at_end')
    exact pushed taking
  · exact (run_numbers wired is c key UInt64.ofNat_toNat.symm room).1

def oneClosed : List BusInput := [.newChain (lit "A"), .newRelayer, .newRelayer, .closePackets 1]

def opOnA : ChainOp := .sendIBC ⟨lit "p"⟩ ⟨lit "c"⟩ (lit "B") ⟨lit "q"⟩ ⟨lit "d"⟩ (lit "x|y")

def sendOnA : BusInput := .call 0 opOnA

theorem sends_reach_every_relayer_one_closed :
    let s := busMachine.final Sim.empty oneClosed
    pushedIn 0 (busMachine.trace s [sendOnA, sendOnA]) = sentIn (busMachine.trace s [sendOnA, sendOnA]) ∧
      (sentIn (busMachine.trace s [sendOnA, sendOnA])).map (·.sequence) = [1, 2] := by
  intro s
  obtain ⟨-, handed, -⟩ := sends_reach_every_relayer oneClosed [sendOnA, sendOnA]
  obtain ⟨rel, at_end, taking⟩ : ∃ rel, (busMachine.final s [sendOnA, sendOnA]).relayers[0]? = some rel ∧
      rel.pendingPackets.closed = false := ⟨_, rfl, by decide +kernel⟩
  exact ⟨handed 0 rel (by decide +kernel) at_end taking, by decide +kernel⟩

theorem sends_through_one_channel {s : Sim} (wired : Wired s) {b : Blockchain} (found : s.chains[0]? = some b)
    {rel : Relayer} (here : s.relayers[0]? = some rel) (taking : rel.pendingPackets.closed = false) (n : ℕ) :
    let t := busMachine.trace s (List.replicate n sendOnA)
    (throughIn 0 (lit "p:c") t).length = n ∧ sentIn t = throughIn 0 (lit "p:c") t ∧
      ∃ rel', (busMachine.final s (List.replicate n sendOnA)).relayers[0]? = some rel' ∧
        rel'.pendingPackets.closed = false := by
  induction n generalizing s b rel with
  | zero => exact ⟨rfl, rfl, rel, here, taking⟩
  | succ n ih =>
    have eq : busAct s sendOnA = _ := call_heard wired found opOnA
    have inside : 0 < s.chains.length := (List.getElem?_eq_some_iff.mp found).1
    have found' : (busAct s sendOnA).1.chains[0]? = some (b.call opOnA).chain := by
      rw [eq]
      exact List.getElem?_set_self inside
    have here' : (busAct s sendOnA).1.relayers[0]? = some (hearAll rel (published (b.call opOnA).effects)) := by
      rw [eq]
      simp only [List.getElem?_map, here, Option.map_some]
    have taking' := (hearAll_packets_closed rel (published (b.call opOnA).effects)).trans taking
    obtain ⟨count, same, opened⟩ := ih (busAct_hands wired sendOnA).wired found' here' taking'
    have one : ((busAct s sendOnA).2.calls.filterMap (sentThrough 0 (lit "p:c"))).length = 1 := by
      rw [eq]
      simp only [List.filterMap_cons, List.filterMap_nil, sentThrough]
      rw [if_pos ⟨trivial, by decide⟩, opOnA, sentPacket_sendIBC (wired.chains b (List.mem_of_getElem? found))]
      rfl
    have whole : sentBy (busAct s sendOnA).2.calls =
        (busAct s sendOnA).2.calls.filterMap (sentThrough 0 (lit "p:c")) := by
      rw [eq]
      simp only [sentBy, List.filterMap_cons, List.filterMap_nil, sentThrough]
      rw [if_pos ⟨trivial, by decide⟩]
    intro t
    have through : throughIn 0 (lit "p:c") t = _ := throughIn_cons 0 (lit "p:c") s sendOnA (List.replicate n sendOnA)
    have sent : sentIn t = _ := sentIn_cons s sendOnA (List.replicate n sendOnA)
    rw [through, sent, List.length_append, one, count, same, whole]
    exact ⟨Nat.add_comm 1 n, rfl, opened⟩

theorem not_growing {sent : List IBCPacket} (many : 2 ^ 64 < sent.length) :
    ¬ (sent.map (·.sequence.toNat)).Pairwise (· < ·) := by
  intro growing
  have distinct : (sent.map (·.sequence.toNat)).Nodup := growing.imp fun less => less.ne
  have small : sent.map (·.sequence.toNat) ⊆ List.range (2 ^ 64) := by
    intro k member
    obtain ⟨pkt, -, rfl⟩ := List.mem_map.mp member
    exact List.mem_range.mpr pkt.sequence.toNat_lt
  have few := (distinct.subperm small).length_le
  rw [List.length_map, List.length_range] at few
  omega

/-- One channel that sends more packets than there are numbers: all its relayer is given are the packets
    of this channel, and their numbers do not keep growing. -/
theorem numbers_wrap :
    let s := busMachine.final Sim.empty [.newChain (lit "A"), .newRelayer]
    let t := busMachine.trace s (List.replicate (2 ^ 64 + 1) sendOnA)
    pushedIn 0 t = sentIn t ∧ sentIn t = throughIn 0 (lit "p:c") t ∧
      ¬ ((pushedIn 0 t).map (·.sequence.toNat)).Pairwise (· < ·) := by
  obtain ⟨n, many⟩ : ∃ n, n = 2 ^ 64 + 1 := ⟨_, rfl⟩
  rw [← many]
  intro s t
  have wired := wired_final wired_empty [.newChain (lit "A"), .newRelayer]
  obtain ⟨count, same, rel, here, taking⟩ := sends_through_one_channel wired rfl rfl rfl n
  obtain ⟨rel', here', -, handed⟩ := run_queued wired (List.replicate n sendOnA) 0 _ rfl
  obtain rfl : rel = rel' := Option.some.inj (here.symm.trans here')
  have pushed : pushedIn 0 t = sentIn t := handed taking
  refine ⟨pushed, same, ?_⟩
  rw [pushed, same]
  exact not_growing (by omega)

end InterchainCommunication.PacketBroadcast
