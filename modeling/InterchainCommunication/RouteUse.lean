import InterchainCommunication.InOrderAcceptance
import InterchainCommunication.SimulationMoves

set_option autoImplicit false

namespace InterchainCommunication.RouteUse
open ListUpdates StringText CoreTypes MachineRuns PacketCodec ChannelSequencing BlockchainModel BlockchainSteps
open ChainHistory OrderedDelivery LinkDelivery InOrderAcceptance NodeModel RelayerModel SimulationModel
open SimulationWiring SimulationSteps AckSoundness SimulationMoves

/-- The two ends, each by the number and the id of its chain and the key of its channel. -/
structure Route where
  src : ℕ
  srcId : Bytes
  srcKey : Bytes
  dst : ℕ
  dstId : Bytes
  dstKey : Bytes

def callsAt (c : ℕ) (calls : Calls) : List (ChainOp × ChainReply) :=
  calls.filterMap fun e => if e.1 = c then some e.2 else none

namespace Route
variable (route : Route)

structure Fits (w : Wiring) : Prop where
  src : w.ids[route.src]? = some route.srcId
  dst : w.ids[route.dst]? = some route.dstId

/-- The packet is addressed to the end of the route. -/
def takes (p : IBCPacket) : Bool :=
  p.dstChain == route.dstId && makeChannelKey p.dstPort p.dstChannel == route.dstKey

def sent (calls : Calls) : List IBCPacket := (callsAt route.src calls).filterMap (sentOn route.srcKey)

def handed (calls : Calls) : List IBCPacket := (callsAt route.dst calls).filterMap (handedOn route.dstKey)

def accepted (calls : Calls) : List IBCPacket := (callsAt route.dst calls).filterMap (acceptedOn route.dstKey)

/-- Sends use the two ends for nothing but the route. -/
def Confines : SimInput → Prop
  | .sendIBC c port chan dstChain dstPort dstChan _ =>
    (c = route.src ∧ makeChannelKey port chan = route.srcKey ↔
      dstChain = route.dstId ∧ makeChannelKey dstPort dstChan = route.dstKey) ∧
    ¬(c = route.dst ∧ makeChannelKey port chan = route.dstKey) ∧
    ¬(dstChain = route.srcId ∧ makeChannelKey dstPort dstChan = route.srcKey)
  | _ => True

instance decidableConfines : ∀ i, Decidable (route.Confines i)
  | .sendIBC c port chan dstChain dstPort dstChan _ => inferInstanceAs (Decidable
    ((c = route.src ∧ makeChannelKey port chan = route.srcKey ↔
      dstChain = route.dstId ∧ makeChannelKey dstPort dstChan = route.dstKey) ∧
    ¬(c = route.dst ∧ makeChannelKey port chan = route.dstKey) ∧
    ¬(dstChain = route.srcId ∧ makeChannelKey dstPort dstChan = route.srcKey)))
  | .forwardPacket _ _ | .forwardAck _ _ | .deliver _ | .lose _ | .duplicate _ | .nodeStep _ =>
    inferInstanceAs (Decidable True)

end Route

theorem callsAt_same (c : ℕ) (calls : Calls) (e : ChainOp × ChainReply) (f : ChainOp × ChainReply → Option IBCPacket) :
    (callsAt c (calls ++ [(c, e)])).filterMap f = (callsAt c calls).filterMap f ++ (f e).toList := by
  have grown : callsAt c (calls ++ [(c, e)]) = callsAt c calls ++ [e] := by
    rw [callsAt, filterMap_concat, if_pos rfl]
    rfl
  rw [grown, filterMap_concat]

theorem callsAt_other {c c' : ℕ} (other : c' ≠ c) (calls : Calls) (e : ChainOp × ChainReply) :
    callsAt c (calls ++ [(c', e)]) = callsAt c calls := by
  rw [callsAt, filterMap_concat, if_neg other]
  exact List.append_nil _

theorem callsAt_concat (c c' : ℕ) (calls : Calls) (e : ChainOp × ChainReply)
    (f : ChainOp × ChainReply → Option IBCPacket) : (callsAt c (calls ++ [(c', e)])).filterMap f =
      (callsAt c calls).filterMap f ++ (if c' = c then f e else none).toList := by
  by_cases same : c' = c
  · rw [same, callsAt_same, if_pos rfl]
  · rw [callsAt_other same, if_neg same]
    exact (List.append_nil _).symm

theorem callsAt_ignored (c c' : ℕ) (calls : Calls) {e : ChainOp × ChainReply}
    {f : ChainOp × ChainReply → Option IBCPacket} (ignored : f e = none) :
    (callsAt c (calls ++ [(c', e)])).filterMap f = (callsAt c calls).filterMap f := by
  rw [callsAt_concat, ignored, ite_self]
  exact List.append_nil _

section Chains
variable {chains : List Blockchain} {c d : ℕ} {b : Blockchain} {key : Bytes} {calls : Calls}
  (hb : chains[c]? = some b) (allOpen : AllOpen b) (op : ChainOp)
include hb allOpen

theorem sending_set
    (h : ∀ b', chains[d]? = some b' → Sending (numberAt b' key) ((callsAt d calls).filterMap (sentOn key)))
    (sending : c = d → handedOn key (op, (b.call op).ret) = none) :
    ∀ b', (chains.set c (b.call op).chain)[d]? = some b' → Sending (numberAt b' key)
      ((callsAt d (calls ++ [(c, op, (b.call op).ret)])).filterMap (sentOn key)) := by
  intro b' hb'
  by_cases same : c = d
  · subst same
    rw [List.getElem?_set_self (List.getElem?_eq_some_iff.mp hb).1, Option.some.injEq] at hb'
    have use := call_use allOpen op key
    dsimp only at use
    rw [sending rfl] at use
    have none : acceptedOn key (op, (b.call op).ret) = none := by
      rw [acceptedOn, sending rfl]
      rfl
    rw [none] at use
    rw [callsAt_same, ← hb']
    exact (h b hb).use use
  · rw [List.getElem?_set_ne same] at hb'
    rw [callsAt_other same]
    exact h b' hb'

theorem receiving_set
    (h : ∀ b', chains[d]? = some b' → Receiving (numberAt b' key) ((callsAt d calls).filterMap (handedOn key))
      ((callsAt d calls).filterMap (acceptedOn key)))
    (receiving : c = d → sentOn key (op, (b.call op).ret) = none) :
    ∀ b', (chains.set c (b.call op).chain)[d]? = some b' → Receiving (numberAt b' key)
      ((callsAt d (calls ++ [(c, op, (b.call op).ret)])).filterMap (handedOn key))
      ((callsAt d (calls ++ [(c, op, (b.call op).ret)])).filterMap (acceptedOn key)) := by
  intro b' hb'
  by_cases same : c = d
  · subst same
    rw [List.getElem?_set_self (List.getElem?_eq_some_iff.mp hb).1, Option.some.injEq] at hb'
    have use := call_use allOpen op key
    dsimp only at use
    rw [receiving rfl] at use
    rw [callsAt_same, callsAt_same, ← hb']
    exact (h b hb).use use
  · rw [List.getElem?_set_ne same] at hb'
    rw [callsAt_other same]
    exact h b' hb'

end Chains

/-- The calls of a run that kept to the route. -/
structure Confined (route : Route) (x : Shown) : Prop where
  source : ∀ b, x.chains[route.src]? = some b → Sending (numberAt b route.srcKey) (route.sent x.calls)
  target : ∀ b, x.chains[route.dst]? = some b →
    Receiving (numberAt b route.dstKey) (route.handed x.calls) (route.accepted x.calls)
  known : ∀ e ∈ x.calls, ∀ p, sentPacket e.2 = some p → (route.takes p = true → p ∈ route.sent x.calls) ∧
    ¬(p.dstChain = route.srcId ∧ makeChannelKey p.dstPort p.dstChannel = route.srcKey)
  genuine : ∀ p ∈ route.handed x.calls, p ∈ route.sent x.calls

section Moves
variable {route : Route} {w : Wiring} {s : Sim} {h : List (SimInput × SimOutput)}

theorem packet_takes {ch : IBCChannel} {dstChain payload : Bytes} {dstPort : PortId} {dstChan : ChannelId} :
    route.takes (ch.packet dstChain dstPort dstChan payload) = true ↔
      dstChain = route.dstId ∧ makeChannelKey dstPort dstChan = route.dstKey := by
  simp [Route.takes, IBCChannel.packet]

theorem sent_sendIBC {b : Blockchain} (allOpen : AllOpen b) {c : ℕ} {port : PortId} {chan : ChannelId}
    {dstChain payload : Bytes} {dstPort : PortId} {dstChan : ChannelId} (calls : Calls)
    (confines : route.Confines (.sendIBC c port chan dstChain dstPort dstChan payload)) :
    let op : ChainOp := .sendIBC port chan dstChain dstPort dstChan payload
    let pkt := (resolve b port chan).packet dstChain dstPort dstChan payload
    route.sent (calls ++ [(c, op, (b.call op).ret)]) =
      route.sent calls ++ (if route.takes pkt = true then some pkt else none).toList := by
  intro op pkt
  have made : sentPacket (op, (b.call op).ret) = some pkt := sentPacket_sendIBC allOpen ..
  have takes : route.takes pkt = true ↔ c = route.src ∧ makeChannelKey port chan = route.srcKey :=
    packet_takes.trans confines.1.symm
  have reads : sentOn route.srcKey (op, (b.call op).ret) =
      if makeChannelKey port chan = route.srcKey then some pkt else none := by
    rw [← made]
    rfl
  rw [Route.sent, callsAt_concat, reads]
  by_cases own : c = route.src
  · simp [takes, own, Route.sent]
  · simp [takes, own, Route.sent]

theorem confined_sent (genuine : Genuine w s (callsIn h)) (confined : Confined route (soFar s h)) {c : ℕ}
    {b : Blockchain} {port : PortId} {chan : ChannelId} {dstChain payload : Bytes} {dstPort : PortId}
    {dstChan : ChannelId} (home : s.chains[c]? = some b)
    (confines : route.Confines (.sendIBC c port chan dstChain dstPort dstChan payload)) (t : Traffic)
    (counters : List Bytes) :
    let op : ChainOp := .sendIBC port chan dstChain dstPort dstChan payload
    Confined route ⟨s.chains.set c (b.call op).chain, t, callsIn h ++ [(c, op, (b.call op).ret)], counters⟩ := by
  intro op
  let pkt := (resolve b port chan).packet dstChain dstPort dstChan payload
  have allOpen := (genuine.ready.chains b (List.mem_of_getElem? home)).1
  have made : sentPacket (op, (b.call op).ret) = some pkt := sentPacket_sendIBC allOpen ..
  have sent : route.sent (callsIn h ++ [(c, op, (b.call op).ret)]) = route.sent (callsIn h) ++
      (if route.takes pkt = true then some pkt else none).toList := sent_sendIBC allOpen (callsIn h) confines
  have handed : route.handed (callsIn h ++ [(c, op, (b.call op).ret)]) = route.handed (callsIn h) :=
    callsAt_ignored route.dst c _ rfl
  constructor
  · exact sending_set home allOpen op confined.source fun _ => rfl
  · refine receiving_set home allOpen op confined.target fun same => ?_
    exact if_neg fun key => confines.2.1 ⟨same, key⟩
  · intro e he p hp
    rw [sent]
    rcases List.mem_append.mp he with old | new
    · obtain ⟨onRoute, other⟩ := confined.known e old p hp
      exact ⟨fun taken => List.mem_append_left _ (onRoute taken), other⟩
    · obtain rfl := List.mem_singleton.mp new
      obtain rfl : pkt = p := Option.some.inj (made.symm.trans hp)
      refine ⟨fun taken => ?_, confines.2.2⟩
      rw [if_pos taken]
      exact List.mem_append_right _ (List.mem_singleton_self pkt)
  · intro p hp
    rw [handed] at hp
    rw [sent]
    exact List.mem_append_left _ (confined.genuine p hp)

/-- A packet that a message brings was sent, and the chain of the node is its destination. -/
theorem brought_sent (genuine : Genuine w s (callsIn h)) {n c : ℕ} {msg : NodeMessage} {rest : List NodeMessage}
    {p : IBCPacket} (head : (traffic s).inboxes[n]? = some (msg :: rest)) (homes : w.homes[n]? = some c)
    (brings : Brings msg p) (data : p.type = .data) :
    w.ids[c]? = some p.dstChain ∧ ∃ e ∈ callsIn h, sentPacket e.2 = some p := by
  obtain ⟨p', carries, c', home, dst⟩ := genuine.authentic.inboxes n _ head msg List.mem_cons_self
  obtain rfl : p' = p := Except.ok.inj (carries.read.symm.trans brings.read)
  obtain rfl : c' = c := Option.some.inj (home.symm.trans homes)
  refine ⟨dst, ?_⟩
  rcases carries.genuine with ⟨-, c₀, -, e, made, sent⟩ | ⟨q, rfl, -⟩
  · exact ⟨(c₀, e), made, sent⟩
  · cases data

theorem confined_handedPacket (fits : route.Fits w) (genuine : Genuine w s (callsIn h))
    (confined : Confined route (soFar s h)) {n c : ℕ} {b : Blockchain} {msg : NodeMessage} {rest : List NodeMessage}
    {p : IBCPacket} (head : (traffic s).inboxes[n]? = some (msg :: rest)) (homes : w.homes[n]? = some c)
    (home : s.chains[c]? = some b) (brings : Brings msg p) (data : p.type = .data) (t : Traffic)
    (counters : List Bytes) :
    let op : ChainOp := .onIBCPacket p
    Confined route ⟨s.chains.set c (b.call op).chain, t, callsIn h ++ [(c, op, (b.call op).ret)], counters⟩ := by
  intro op
  have allOpen := (genuine.ready.chains b (List.mem_of_getElem? home)).1
  obtain ⟨dst, e₀, made, sentBefore⟩ := brought_sent genuine head homes brings data
  obtain ⟨known, notBack⟩ := confined.known e₀ made p sentBefore
  have handedBy (key : Bytes) : handedOn key (op, (b.call op).ret) =
      if makeChannelKey p.dstPort p.dstChannel = key then some p else none := rfl
  have sent : route.sent (callsIn h ++ [(c, op, (b.call op).ret)]) = route.sent (callsIn h) :=
    callsAt_ignored route.src c _ rfl
  constructor
  · refine sending_set home allOpen op confined.source fun same => ?_
    rw [handedBy]
    refine if_neg fun key => notBack ⟨?_, key⟩
    rw [same, fits.src] at dst
    exact (Option.some.inj dst).symm
  · exact receiving_set home allOpen op confined.target fun _ => rfl
  · intro e he p' hp'
    rw [sent]
    rcases List.mem_append.mp he with old | new
    · exact confined.known e old p' hp'
    · obtain rfl := List.mem_singleton.mp new
      cases hp'
  · intro p' hp'
    rw [Route.handed, callsAt_concat, handedBy] at hp'
    rw [sent]
    rcases List.mem_append.mp hp' with old | new
    · exact confined.genuine p' old
    · split at new
      · rename_i here
        split at new
        · rename_i key
          obtain rfl : p' = p := by simpa using new
          rw [here, fits.dst] at dst
          apply known
          simp [Route.takes, Option.some.inj dst, key]
        · simp at new
      · simp at new

theorem confined_handedAck (genuine : Genuine w s (callsIn h)) (confined : Confined route (soFar s h)) {c : ℕ}
    {b : Blockchain} (a : IBCPacket) (home : s.chains[c]? = some b) (t : Traffic) (counters : List Bytes) :
    Confined route ⟨s.chains, t, callsIn h ++ [(c, .onIBCAck a, (b.call (.onIBCAck a)).ret)], counters⟩ := by
  let op : ChainOp := .onIBCAck a
  have allOpen := (genuine.ready.chains b (List.mem_of_getElem? home)).1
  have chains : s.chains.set c (b.call op).chain = s.chains := set_same home
  have sent : route.sent (callsIn h ++ [(c, op, (b.call op).ret)]) = route.sent (callsIn h) :=
    callsAt_ignored route.src c _ rfl
  have handed : route.handed (callsIn h ++ [(c, op, (b.call op).ret)]) = route.handed (callsIn h) :=
    callsAt_ignored route.dst c _ rfl
  constructor
  · have next := sending_set home allOpen op confined.source fun _ => rfl
    rw [chains] at next
    exact next
  · have next := receiving_set home allOpen op confined.target fun _ => rfl
    rw [chains] at next
    exact next
  · intro e he p hp
    rw [sent]
    rcases List.mem_append.mp he with old | new
    · exact confined.known e old p hp
    · obtain rfl := List.mem_singleton.mp new
      cases hp
  · intro p hp
    rw [handed] at hp
    rw [sent]
    exact confined.genuine p hp

theorem Confined.uncalled {x : Shown} (confined : Confined route x) (t : Traffic) (counters : List Bytes) :
    Confined route ⟨x.chains, t, x.calls ++ [], counters⟩ := by
  rw [List.append_nil]
  exact ⟨confined.source, confined.target, confined.known, confined.genuine⟩

theorem move_confined (fits : route.Fits w) (genuine : Genuine w s (callsIn h))
    (confined : Confined route (soFar s h)) {i : SimInput} {next : Shown} (confines : route.Confines i)
    (move : Move s i next) :
    Confined route ⟨next.chains, next.traffic, callsIn h ++ next.calls, counted (effectsIn h) ++ next.counters⟩ := by
  cases move with
  | sent c b port chan dstChain dstPort dstChan payload home => exact confined_sent genuine confined home confines _ _
  | handedPacket n c b msg rest p opens head homes home file brings data =>
    rw [genuine.wired] at homes
    exact confined_handedPacket fits genuine confined head homes home brings data _ _
  | handedAck n c b msg rest a opens head homes home file brings ack => exact confined_handedAck genuine confined a home _ _
  | still | relayedPacket | failedPacket | relayedAck | failedAck | delivered | lost | duplicated =>
    exact confined.uncalled _ _

end Moves

theorem confined_start (route : Route) {s : Sim} (idle : Idle s) : Confined route (soFar s.start []) := by
  have fresh {c : ℕ} {b : Blockchain} (hb : s.start.chains[c]? = some b) (key : Bytes) : numberAt b key = 1 := by
    rw [numberAt, idle.chains b (List.mem_of_getElem? hb) key]
    rfl
  constructor
  · intro b hb
    rw [fresh hb]
    exact ⟨rfl, rfl⟩
  · intro b hb
    rw [fresh hb]
    exact ⟨rfl, rfl, rfl⟩
  · intro e he
    cases he
  · intro p hp
    cases hp

theorem ends_found {route : Route} {w : Wiring} {s : Sim} {calls : Calls} (fits : route.Fits w)
    (genuine : Genuine w s calls) :
    (∃ src, s.chains[route.src]? = some src) ∧ ∃ dst, s.chains[route.dst]? = some dst := by
  have chain {c : ℕ} {id : Bytes} (hc : w.ids[c]? = some id) : ∃ b, s.chains[c]? = some b := by
    rw [← genuine.wired, wiring, List.getElem?_map, Option.map_eq_some_iff] at hc
    obtain ⟨b, hb, -⟩ := hc
    exact ⟨b, hb⟩
  exact ⟨chain fits.src, chain fits.dst⟩

/-- As long as the numbers have not come round, the destination has accepted the front of
    what was sent. -/
theorem Confined.front {route : Route} {x : Shown} (h : Confined route x) {src dst : Blockchain}
    (hsrc : x.chains[route.src]? = some src) (hdst : x.chains[route.dst]? = some dst)
    (few : (route.sent x.calls).length < 2 ^ 64) : route.accepted x.calls <+: route.sent x.calls := by
  have source := h.source src hsrc
  have target := h.target dst hdst
  have handed : ∀ p ∈ route.accepted x.calls, p ∈ route.handed x.calls := by
    intro p hp
    obtain ⟨e, he, accepted⟩ := List.mem_filterMap.mp hp
    unfold acceptedOn at accepted
    split at accepted
    · rename_i given
      obtain ⟨p', given⟩ := Option.isSome_iff_exists.mp given
      obtain ⟨op, reply⟩ := e
      obtain rfl : op = .onIBCPacket p := acceptedPacket_op accepted
      have same : p' = p := by
        simp only [handedOn] at given
        split at given
        · exact (Option.some.inj given).symm
        · cases given
      exact List.mem_filterMap.mpr ⟨_, he, same ▸ given⟩
    · cases accepted
  exact numbered_prefix sequenceAt (sequenceAt_distinct few) target.numbers source.numbers
    fun p hp => h.genuine p (handed p hp)

def aToB : Route :=
  ⟨0, lit "A", makeChannelKey ⟨lit "p"⟩ ⟨lit "c"⟩, 1, lit "B", makeChannelKey ⟨lit "q"⟩ ⟨lit "d"⟩⟩

end InterchainCommunication.RouteUse
