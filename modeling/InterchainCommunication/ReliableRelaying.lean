import InterchainCommunication.RouteUse

set_option autoImplicit false

namespace InterchainCommunication.ReliableRelaying
open ListUpdates StringText CoreTypes MachineRuns PacketCodec ChannelSequencing BlockchainModel BlockchainSteps
open ChainHistory OrderedDelivery LinkDelivery InOrderAcceptance NodeModel RelayerModel SimulationModel
open SimulationWiring SimulationSteps AckSoundness SimulationMoves RouteUse

/-- The relayer that is trusted with a route, and the node its mailbox leads to. -/
structure Carrier where
  relayer : ℕ
  name : Bytes
  mailbox : Bytes
  node : ℕ

def brought (route : Route) (msg : NodeMessage) : Option IBCPacket :=
  match deserializeIBCPacket msg.bytes with
  | .ok p => if msg.kind = .ibc ∧ p.type = .data ∧ route.takes p then some p else none
  | .error _ => none

namespace Carrier
variable (carrier : Carrier) (route : Route)

structure Serves (w : Wiring) : Prop where
  relayer : ∃ addr, w.relayers[carrier.relayer]? = some (carrier.name, addr) ∧ addr route.dstId = some carrier.mailbox
  endpoint : w.endpoints carrier.mailbox = some carrier.node
  home : w.homes[carrier.node]? = some route.dst

def flown (task : Bytes × Bytes) : Option IBCPacket :=
  match deserializeNodeMessage task.2 with
  | .ok msg => if task.1 = carrier.mailbox ∧ msg.fromAddress = carrier.name then brought route msg else none
  | .error _ => none

def arrived (t : Traffic) : List IBCPacket := (t.inboxes[carrier.node]?.getD []).filterMap (brought route)

def flying (t : Traffic) : List IBCPacket := t.tasks.filterMap (carrier.flown route)

def queued (t : Traffic) : List IBCPacket := (t.packets[carrier.relayer]?.getD []).filter route.takes

/-- The packets of the route between the relayer and the destination, the oldest first. -/
def underWay (t : Traffic) : List IBCPacket :=
  carrier.arrived route t ++ (carrier.flying route t ++ carrier.queued route t)

/-- What is asked of the relayer. It drops nothing, and its tasks on the route are neither
    lost nor overtaken. -/
def Reliable (s : Sim) : SimInput → Prop
  | .forwardPacket r drops => r = carrier.relayer → drops = ⟨false, false⟩
  | .deliver k => (s.transport.tasks[k]?.bind (carrier.flown route)).isSome →
    (s.transport.tasks.take k).filterMap (carrier.flown route) = []
  | .lose k => s.transport.tasks[k]?.bind (carrier.flown route) = none
  | .sendIBC _ _ _ _ _ _ _ | .forwardAck _ _ | .duplicate _ | .nodeStep _ => True

instance decidableReliable (s : Sim) : ∀ i, Decidable (carrier.Reliable route s i)
  | .forwardPacket r drops => inferInstanceAs (Decidable (r = carrier.relayer → drops = ⟨false, false⟩))
  | .deliver k => inferInstanceAs (Decidable ((s.transport.tasks[k]?.bind (carrier.flown route)).isSome →
    (s.transport.tasks.take k).filterMap (carrier.flown route) = []))
  | .lose k => inferInstanceAs (Decidable (s.transport.tasks[k]?.bind (carrier.flown route) = none))
  | .sendIBC _ _ _ _ _ _ _ | .forwardAck _ _ | .duplicate _ | .nodeStep _ => inferInstanceAs (Decidable True)

end Carrier

section Lists
variable {α β : Type} (f : α → Option β) {l : List α} {k : ℕ} {x : α}

theorem filterMap_eraseIdx_none (hk : l[k]? = some x) (none : f x = none) :
    (l.eraseIdx k).filterMap f = l.filterMap f := by
  obtain ⟨bound, rfl⟩ := List.getElem?_eq_some_iff.mp hk
  have parts : l = l.take k ++ l[k] :: l.drop (k + 1) := by
    rw [List.cons_getElem_drop_succ, List.take_append_drop]
  rw [List.eraseIdx_eq_take_drop_succ, List.filterMap_append]
  conv_rhs => rw [parts, List.filterMap_append, List.filterMap_cons_none none]

theorem filterMap_eraseIdx_first {y : β} (hk : l[k]? = some x) (some : f x = some y)
    (first : (l.take k).filterMap f = []) : l.filterMap f = y :: (l.eraseIdx k).filterMap f := by
  obtain ⟨bound, rfl⟩ := List.getElem?_eq_some_iff.mp hk
  have parts : l = l.take k ++ l[k] :: l.drop (k + 1) := by
    rw [List.cons_getElem_drop_succ, List.take_append_drop]
  rw [List.eraseIdx_eq_take_drop_succ, List.filterMap_append, first]
  conv_lhs => rw [parts, List.filterMap_append, first, List.filterMap_cons_some some]
  rfl

end Lists

section Moves
variable {route : Route} {carrier : Carrier} {w : Wiring}

theorem brought_brings {msg : NodeMessage} {p : IBCPacket} (brings : Brings msg p) :
    brought route msg = if p.type = .data ∧ route.takes p then some p else none := by
  simp only [brought, brings.read, brings.kind, true_and]

theorem flown_read {task : Bytes × Bytes} {msg : NodeMessage} (read : deserializeNodeMessage task.2 = .ok msg) :
    carrier.flown route task = if task.1 = carrier.mailbox ∧ msg.fromAddress = carrier.name then brought route msg else none := by
  simp only [Carrier.flown, read]

theorem flown_posted (sound : Sound w) (serves : carrier.Serves route w) {p : IBCPacket} {task : Bytes × Bytes}
    (data : p.type = .data) (posted : Posted w carrier.relayer p task) :
    carrier.flown route task = if route.takes p then some p else none := by
  obtain ⟨rel, hrel, mailbox, bytes⟩ := posted
  obtain ⟨addr, here, leads⟩ := serves.relayer
  obtain rfl : rel = (carrier.name, addr) := Option.some.inj (hrel.symm.trans here)
  have kind : stoi (intText NodeMessageKind.ibc.toInt) = .ok NodeMessageKind.ibc.toInt := by decide
  have read : deserializeNodeMessage task.2 = .ok ⟨carrier.name, .ibc, serializeIBCPacket p⟩ := by
    rw [bytes]
    exact NodeText.deserialize_serialize_message (sound.names _ (List.mem_of_getElem? hrel)) kind
  have brings : Brings ⟨carrier.name, .ibc, serializeIBCPacket p⟩ p := ⟨rfl, deserialize_serialize p (stoi_type (.inl data))⟩
  rw [flown_read read, brought_brings brings]
  by_cases takes : route.takes p = true
  · have dst : p.dstChain = route.dstId := by
      simp only [Route.takes, Bool.and_eq_true, beq_iff_eq] at takes
      exact takes.1
    have there : task.1 = carrier.mailbox := by
      rw [dst] at mailbox
      exact Option.some.inj (mailbox.symm.trans leads)
    simp [takes, there, data]
  · simp [takes]

theorem queued_at {q : List IBCPacket} {t : Traffic} (h : t.packets[carrier.relayer]? = some q) :
    carrier.queued route t = q.filter route.takes := by
  rw [Carrier.queued, h]
  rfl

theorem arrived_at {q : List NodeMessage} {t : Traffic} (h : t.inboxes[carrier.node]? = some q) :
    carrier.arrived route t = q.filterMap (brought route) := by
  rw [Carrier.arrived, h]
  rfl

theorem queued_set_other {r : ℕ} (other : r ≠ carrier.relayer) (q : List IBCPacket) {t t' : Traffic}
    (set : t'.packets = t.packets.set r q) : carrier.queued route t' = carrier.queued route t := by
  rw [Carrier.queued, Carrier.queued, set, List.getElem?_set_ne other]

theorem arrived_set_other {n : ℕ} (other : n ≠ carrier.node) (q : List NodeMessage) {t t' : Traffic}
    (set : t'.inboxes = t.inboxes.set n q) : carrier.arrived route t' = carrier.arrived route t := by
  rw [Carrier.arrived, Carrier.arrived, set, List.getElem?_set_ne other]

theorem underWay_more {t t' : Traffic} (more : Bytes × Bytes) (tasks : t'.tasks = t.tasks ++ [more])
    (inboxes : t'.inboxes = t.inboxes) (queued : carrier.queued route t' = carrier.queued route t) :
    (carrier.underWay route t).Sublist (carrier.underWay route t') := by
  have same : carrier.arrived route t' = carrier.arrived route t := by rw [Carrier.arrived, Carrier.arrived, inboxes]
  have grown : carrier.flying route t' = carrier.flying route t ++ (carrier.flown route more).toList := by
    rw [Carrier.flying, Carrier.flying, tasks, filterMap_concat]
  rw [Carrier.underWay, Carrier.underWay, same, grown, queued]
  exact ((List.sublist_append_left ..).append_right _).append_left _

theorem relayedPacket_underWay (sound : Sound w) (serves : carrier.Serves route w) {t : Traffic} {r : ℕ} {pkt : IBCPacket}
    {rest : List IBCPacket} {task : Bytes × Bytes} (head : t.packets[r]? = some (pkt :: rest))
    (data : pkt.type = .data) (posted : Posted w r pkt task) : (carrier.underWay route t).Sublist
      (carrier.underWay route { t with packets := t.packets.set r rest, tasks := t.tasks ++ [task] }) := by
  by_cases own : r = carrier.relayer
  · subst own
    let t' : Traffic := { t with packets := t.packets.set carrier.relayer rest, tasks := t.tasks ++ [task] }
    have bound := (List.getElem?_eq_some_iff.mp head).1
    have left : carrier.queued route t' = rest.filter route.takes := queued_at (List.getElem?_set_self bound)
    have flies : carrier.flying route t' = carrier.flying route t ++ (if route.takes pkt then some pkt else none).toList := by
      rw [Carrier.flying, filterMap_concat, flown_posted sound serves data posted]
      rfl
    have same : carrier.flying route t' ++ carrier.queued route t' = carrier.flying route t ++ carrier.queued route t := by
      rw [flies, left, queued_at head, List.append_assoc]
      cases takes : route.takes pkt <;> simp [takes]
    change (carrier.arrived route t ++ (carrier.flying route t ++ carrier.queued route t)).Sublist
      (carrier.arrived route t ++ (carrier.flying route t' ++ carrier.queued route t'))
    rw [same]
  · exact underWay_more task rfl rfl (queued_set_other own rest rfl)

theorem failedPacket_underWay (serves : carrier.Serves route w) {t : Traffic} {r : ℕ} {pkt : IBCPacket} {rest : List IBCPacket}
    {drops : Drops} (head : t.packets[r]? = some (pkt :: rest)) (fails : Fails w r pkt drops)
    (keeps : r = carrier.relayer → drops = ⟨false, false⟩) : (carrier.underWay route t).Sublist
      (carrier.underWay route { t with packets := t.packets.set r rest }) := by
  have same : carrier.queued route { t with packets := t.packets.set r rest } = carrier.queued route t := by
    by_cases own : r = carrier.relayer
    · subst own
      obtain ⟨addr, here, leads⟩ := serves.relayer
      have nowhere : addr pkt.dstChain = none := by
        rcases fails with dropped | nowhere
        · exact absurd (keeps rfl) dropped
        · exact nowhere _ here
      have off : route.takes pkt = false := by
        by_contra takes
        simp only [Bool.not_eq_false, Route.takes, Bool.and_eq_true, beq_iff_eq] at takes
        rw [takes.1, leads] at nowhere
        cases nowhere
      have bound := (List.getElem?_eq_some_iff.mp head).1
      rw [queued_at (List.getElem?_set_self bound), queued_at head, List.filter_cons_of_neg (by simp [off])]
    · exact queued_set_other own rest rfl
  change (carrier.arrived route t ++ (carrier.flying route t ++ carrier.queued route t)).Sublist (carrier.arrived route t ++ (carrier.flying route t ++ _))
  rw [same]

theorem delivered_underWay (serves : carrier.Serves route w) {t : Traffic} {k n : ℕ} {task : Bytes × Bytes}
    {q : List NodeMessage} {msg : NodeMessage} (sent : t.tasks[k]? = some task)
    (endpoint : w.endpoints task.1 = some n) (inbox : t.inboxes[n]? = some q)
    (read : deserializeNodeMessage task.2 = .ok msg)
    (first : (t.tasks[k]?.bind (carrier.flown route)).isSome → (t.tasks.take k).filterMap (carrier.flown route) = []) :
    (carrier.underWay route t).Sublist
      (carrier.underWay route { t with tasks := t.tasks.eraseIdx k, inboxes := t.inboxes.set n (q ++ [msg]) }) := by
  let t' : Traffic := { t with tasks := t.tasks.eraseIdx k, inboxes := t.inboxes.set n (q ++ [msg]) }
  have bound := (List.getElem?_eq_some_iff.mp inbox).1
  rw [sent, Option.bind_some] at first
  cases flown : carrier.flown route task with
  | none =>
    have flies : carrier.flying route t' = carrier.flying route t := filterMap_eraseIdx_none (carrier.flown route) sent flown
    have arrives : (carrier.arrived route t).Sublist (carrier.arrived route t') := by
      by_cases home : n = carrier.node
      · subst home
        have now : carrier.arrived route t' = (q ++ [msg]).filterMap (brought route) :=
          arrived_at (List.getElem?_set_self bound)
        rw [now, arrived_at inbox]
        exact (List.sublist_append_left ..).filterMap _
      · have same : carrier.arrived route t' = carrier.arrived route t := arrived_set_other home _ rfl
        rw [same]
    change (carrier.arrived route t ++ (carrier.flying route t ++ carrier.queued route t)).Sublist
      (carrier.arrived route t' ++ (carrier.flying route t' ++ carrier.queued route t))
    rw [flies]
    exact arrives.append_right _
  | some p =>
    rw [flown_read read] at flown
    split at flown
    · rename_i own
      have node : n = carrier.node := by
        rw [own.1, serves.endpoint] at endpoint
        exact (Option.some.inj endpoint).symm
      subst node
      have carries : carrier.flown route task = some p := by rw [flown_read read, if_pos own, flown]
      have flies : carrier.flying route t = p :: carrier.flying route t' :=
        filterMap_eraseIdx_first (carrier.flown route) sent carries (first (by rw [carries]; rfl))
      have now : carrier.arrived route t' = carrier.arrived route t ++ [p] := by
        have after : carrier.arrived route t' = (q ++ [msg]).filterMap (brought route) :=
          arrived_at (List.getElem?_set_self bound)
        rw [after, arrived_at inbox, filterMap_concat, flown]
        rfl
      change (carrier.arrived route t ++ (carrier.flying route t ++ carrier.queued route t)).Sublist
        (carrier.arrived route t' ++ (carrier.flying route t' ++ carrier.queued route t))
      rw [flies, now, List.append_assoc]
      exact List.Sublist.refl _
    · cases flown

theorem lost_underWay {t : Traffic} {k : ℕ} (other : t.tasks[k]?.bind (carrier.flown route) = none) :
    carrier.underWay route { t with tasks := t.tasks.eraseIdx k } = carrier.underWay route t := by
  have flies : carrier.flying route { t with tasks := t.tasks.eraseIdx k } = carrier.flying route t := by
    cases hk : t.tasks[k]? with
    | none =>
      rw [Carrier.flying, List.eraseIdx_of_length_le (List.getElem?_eq_none_iff.mp hk)]
      rfl
    | some task =>
      rw [hk, Option.bind_some] at other
      exact filterMap_eraseIdx_none (carrier.flown route) hk other
  change carrier.arrived route t ++ (_ ++ carrier.queued route t) = _
  rw [flies]
  rfl

theorem duplicated_underWay (t : Traffic) (k : ℕ) :
    (carrier.underWay route t).Sublist (carrier.underWay route { t with tasks := t.tasks ++ (t.tasks[k]?).toList }) := by
  cases t.tasks[k]? with
  | none => rw [Option.toList_none, List.append_nil]
  | some task => exact underWay_more task rfl rfl rfl

theorem popped_underWay {t : Traffic} {n : ℕ} {msg : NodeMessage} {rest : List NodeMessage}
    (head : t.inboxes[n]? = some (msg :: rest)) (got : List IBCPacket)
    (handed : n = carrier.node → (brought route msg).toList.Sublist got) :
    (carrier.underWay route t).Sublist (got ++ carrier.underWay route { t with inboxes := t.inboxes.set n rest }) := by
  let t' : Traffic := { t with inboxes := t.inboxes.set n rest }
  have arrives : (carrier.arrived route t).Sublist (got ++ carrier.arrived route t') := by
    by_cases home : n = carrier.node
    · subst home
      have bound := (List.getElem?_eq_some_iff.mp head).1
      have now : carrier.arrived route t' = rest.filterMap (brought route) := arrived_at (List.getElem?_set_self bound)
      have before : carrier.arrived route t = (brought route msg).toList ++ rest.filterMap (brought route) := by
        rw [arrived_at head]
        cases taken : brought route msg with
        | none => rw [List.filterMap_cons_none taken]; rfl
        | some p => rw [List.filterMap_cons_some taken]; rfl
      rw [now, before]
      exact (handed rfl).append_right _
    · have same : carrier.arrived route t' = carrier.arrived route t := arrived_set_other home _ rfl
      rw [same]
      exact List.sublist_append_right ..
  change (carrier.arrived route t ++ (carrier.flying route t ++ carrier.queued route t)).Sublist
    (got ++ (carrier.arrived route t' ++ (carrier.flying route t ++ carrier.queued route t)))
  rw [← List.append_assoc got]
  exact arrives.append_right _

end Moves

/-- The books of a route with a carrier. -/
structure Kept (route : Route) (carrier : Carrier) (x : Shown) : Prop where
  confined : Confined route x
  pipeline : (route.sent x.calls).Sublist (route.handed x.calls ++ carrier.underWay route x.traffic)

section Runs
variable {route : Route} {carrier : Carrier} {w : Wiring} {s : Sim} {h : List (SimInput × SimOutput)}

theorem queue_found (serves : carrier.Serves route w) (genuine : Genuine w s (callsIn h)) :
    ∃ q, (traffic s).packets[carrier.relayer]? = some q := by
  obtain ⟨addr, here, -⟩ := serves.relayer
  rw [← genuine.wired, wiring, List.getElem?_map, Option.map_eq_some_iff] at here
  obtain ⟨rel, hrel, -⟩ := here
  exact ⟨rel.pendingPackets.q, by simp [traffic, hrel]⟩

theorem sent_underWay (serves : carrier.Serves route w) (genuine : Genuine w s (callsIn h)) (pkt : IBCPacket) :
    carrier.underWay route { traffic s with packets := (traffic s).packets.map (· ++ [pkt]) } =
      carrier.underWay route (traffic s) ++ (if route.takes pkt = true then some pkt else none).toList := by
  have queues : carrier.queued route { traffic s with packets := (traffic s).packets.map (· ++ [pkt]) } =
      carrier.queued route (traffic s) ++ (if route.takes pkt = true then some pkt else none).toList := by
    obtain ⟨q, hq⟩ := queue_found serves genuine
    have after : ((traffic s).packets.map (· ++ [pkt]))[carrier.relayer]? = some (q ++ [pkt]) := by
      rw [List.getElem?_map, hq]
      rfl
    rw [queued_at after, queued_at hq, List.filter_append]
    by_cases taken : route.takes pkt = true
    · rw [if_pos taken, List.filter_cons_of_pos taken]
      rfl
    · rw [if_neg taken, List.filter_cons_of_neg taken]
      rfl
  change carrier.arrived route (traffic s) ++ (carrier.flying route (traffic s) ++ _) = _
  rw [queues, ← List.append_assoc (carrier.flying route (traffic s)),
    ← List.append_assoc (carrier.arrived route (traffic s))]
  rfl

/-- What one step does to the pipeline of a route. Only a send makes it longer at its end, and
    what leaves it at the front has been handed to the destination. -/
theorem move_pipeline (sound : Sound w) (serves : carrier.Serves route w) (genuine : Genuine w s (callsIn h))
    (kept : Kept route carrier (soFar s h)) {i : SimInput} {next : Shown} (confines : route.Confines i)
    (reliable : carrier.Reliable route s i) (move : Move s i next) :
    (route.sent (callsIn h ++ next.calls)).Sublist
      (route.handed (callsIn h ++ next.calls) ++ carrier.underWay route next.traffic) := by
  have pipeline : (route.sent (callsIn h)).Sublist (route.handed (callsIn h) ++ carrier.underWay route (traffic s)) :=
    kept.pipeline
  have travels {t : Traffic} (more : (carrier.underWay route (traffic s)).Sublist (carrier.underWay route t)) :
      (route.sent (callsIn h ++ [])).Sublist (route.handed (callsIn h ++ []) ++ carrier.underWay route t) := by
    rw [List.append_nil]
    exact pipeline.trans (List.Sublist.append_left more _)
  cases move with
  | still => exact travels (List.Sublist.refl _)
  | sent c b port chan dstChain dstPort dstChan payload home =>
    have allOpen := (genuine.ready.chains b (List.mem_of_getElem? home)).1
    have handed : route.handed (callsIn h ++ [(c, .sendIBC port chan dstChain dstPort dstChan payload,
        (b.call (.sendIBC port chan dstChain dstPort dstChan payload)).ret)]) = route.handed (callsIn h) :=
      callsAt_ignored route.dst c _ rfl
    dsimp only
    rw [sent_sendIBC allOpen (callsIn h) confines, handed, sent_underWay serves genuine, ← List.append_assoc]
    exact pipeline.append_right _
  | relayedPacket r drops pkt rest task head posted =>
    rw [genuine.wired] at posted
    have data := (genuine.authentic.packets _ (List.mem_of_getElem? head) pkt List.mem_cons_self).1
    exact travels (relayedPacket_underWay sound serves head data posted)
  | failedPacket r drops pkt rest head fails =>
    rw [genuine.wired] at fails
    exact travels (failedPacket_underWay serves head fails reliable)
  | relayedAck r drops ack rest task head posted => exact travels (underWay_more task rfl rfl rfl)
  | failedAck r drops ack rest head fails => exact travels (List.Sublist.refl _)
  | delivered k n task q msg sent endpoint inbox read =>
    rw [genuine.wired] at endpoint
    exact travels (delivered_underWay serves sent endpoint inbox read reliable)
  | lost k =>
    have same : carrier.underWay route { traffic s with tasks := (traffic s).tasks.eraseIdx k } =
        carrier.underWay route (traffic s) := lost_underWay reliable
    refine travels ?_
    rw [same]
  | duplicated k => exact travels (duplicated_underWay _ k)
  | handedPacket n c b msg rest p opens head homes home file brings data =>
    rw [genuine.wired] at homes
    have sent : route.sent (callsIn h ++ [(c, .onIBCPacket p, (b.call (.onIBCPacket p)).ret)]) =
        route.sent (callsIn h) := callsAt_ignored route.src c _ rfl
    have reads : handedOn route.dstKey (.onIBCPacket p, (b.call (.onIBCPacket p)).ret) =
        if makeChannelKey p.dstPort p.dstChannel = route.dstKey then some p else none := rfl
    dsimp only
    rw [sent, Route.handed, callsAt_concat, reads, List.append_assoc]
    refine pipeline.trans (List.Sublist.append_left ?_ _)
    refine popped_underWay head _ fun own => ?_
    subst own
    obtain rfl : route.dst = c := Option.some.inj (serves.home.symm.trans homes)
    rw [brought_brings brings, if_pos rfl]
    by_cases taken : route.takes p = true
    · have key : makeChannelKey p.dstPort p.dstChannel = route.dstKey := by
        simp only [Route.takes, Bool.and_eq_true, beq_iff_eq] at taken
        exact taken.2
      rw [if_pos ⟨data, taken⟩, if_pos key]
    · rw [if_neg fun both => taken both.2]
      exact List.nil_sublist _
  | handedAck n c b msg rest a opens head homes home file brings ack =>
    have sent : route.sent (callsIn h ++ [(c, .onIBCAck a, (b.call (.onIBCAck a)).ret)]) = route.sent (callsIn h) :=
      callsAt_ignored route.src c _ rfl
    have handed : route.handed (callsIn h ++ [(c, .onIBCAck a, (b.call (.onIBCAck a)).ret)]) =
        route.handed (callsIn h) := callsAt_ignored route.dst c _ rfl
    have ignored : brought route msg = none := by
      rw [brought_brings brings, ack]
      simp
    dsimp only
    rw [sent, handed]
    refine pipeline.trans (List.Sublist.append_left ?_ _)
    exact popped_underWay head [] fun _ => by rw [ignored]; exact List.nil_sublist _

end Runs

/-- When the numbers have not come round, what is sent and not yet accepted is still under
    way, in order. -/
theorem Kept.pending {route : Route} {carrier : Carrier} {x : Shown} (h : Kept route carrier x) {src dst : Blockchain}
    (hsrc : x.chains[route.src]? = some src) (hdst : x.chains[route.dst]? = some dst)
    (few : (route.sent x.calls).length < 2 ^ 64) :
    ∃ pending, route.sent x.calls = route.accepted x.calls ++ pending ∧
      pending.Sublist (carrier.underWay route x.traffic) := by
  have source := h.confined.source src hsrc
  have target := h.confined.target dst hdst
  obtain ⟨pending, whole⟩ := h.confined.front hsrc hdst few
  refine ⟨pending, whole.symm, ?_⟩
  obtain ⟨front, rest, parts, taken, left⟩ := List.sublist_append_iff.mp h.pipeline
  have numbered : front.map (·.sequence) = (List.range front.length).map sequenceAt := by
    have all := source.numbers
    rw [parts, List.map_append, List.length_append, List.range_add, List.map_append] at all
    exact (List.append_inj all (by simp)).1
  have enough : front.length ≤ (route.accepted x.calls).length := by
    rw [← target.accepted_iff front.length, ← numbered]
    exact taken.map _
  have tail : pending = rest.drop ((route.accepted x.calls).length - front.length) := by
    have cut : (route.accepted x.calls ++ pending).drop (route.accepted x.calls).length = pending := List.drop_left ..
    rw [← cut, whole, parts, List.drop_append, List.drop_eq_nil_of_le enough, List.nil_append]
  rw [tail]
  exact (List.drop_sublist ..).trans left

/-- In every run that keeps to the route, what was sent on it is what was accepted, in order,
    and a rest that is still under way at the trusted relayer, however the other relayers
    and the rest of the traffic behave. -/
theorem reliable_relayer_suffices (opens : Bytes → Bool) (relayerCount : ℕ) (configs : List ChainConfig)
    (distinct : (configs.map (·.chainId)).Nodup) :
    ∃ s, Sim.init opens relayerCount configs = .ok s ∧
      ∀ (route : Route) (carrier : Carrier) (is : List SimInput), route.Fits (wiring s) →
        carrier.Serves route (wiring s) →
        simMachine.Guarded (fun t _ i => route.Confines i ∧ carrier.Reliable route t i) s.start [] is →
        let calls := callsIn (simMachine.trace s.start is)
        let t := traffic (simMachine.final s.start is)
        (route.sent calls).length < 2 ^ 64 →
          (∃ pending, route.sent calls = route.accepted calls ++ pending ∧
              pending.Sublist (carrier.underWay route t)) ∧
            (carrier.underWay route t = [] → route.accepted calls = route.sent calls) := by
  obtain ⟨s, init, built⟩ := init_built opens relayerCount configs distinct
  refine ⟨s, init, ?_⟩
  intro route carrier is fits serves keeps calls t few
  obtain ⟨kept, genuine⟩ := run_moves built.sound built.idle (I := Kept route carrier) keeps
    (fun _ => ⟨confined_start route built.idle, List.nil_sublist _⟩)
    fun t h i next keeps genuine kept move => ⟨move_confined fits genuine kept.confined keeps.1 move,
      move_pipeline built.sound serves genuine kept keeps.1 keeps.2 move⟩
  obtain ⟨⟨src, hsrc⟩, dst, hdst⟩ := ends_found fits genuine
  obtain ⟨pending, whole, left⟩ := kept.pending hsrc hdst few
  refine ⟨⟨pending, whole, left⟩, fun nothing => ?_⟩
  change pending.Sublist (carrier.underWay route t) at left
  rw [nothing] at left
  obtain rfl := List.sublist_nil.mp left
  exact ((List.append_nil _).symm.trans whole.symm)

def secondRelayer : Carrier := ⟨1, lit "relayer-1", lit "B:node-0", 1⟩

def firstDrops : List SimInput :=
  [.sendIBC 0 ⟨lit "p"⟩ ⟨lit "c"⟩ (lit "B") ⟨lit "q"⟩ ⟨lit "d"⟩ (lit "x"),
    .sendIBC 0 ⟨lit "p"⟩ ⟨lit "c"⟩ (lit "B") ⟨lit "q"⟩ ⟨lit "d"⟩ (lit "y"),
    .forwardPacket 0 ⟨true, false⟩, .forwardPacket 1 ⟨false, false⟩, .forwardPacket 0 ⟨false, false⟩, .deliver 1,
    .forwardPacket 1 ⟨false, false⟩, .deliver 0, .deliver 0,
    .nodeStep 1, .nodeStep 1, .nodeStep 1, .nodeStep 1, .nodeStep 1, .nodeStep 1]

theorem reliable_relayer_suffices_second :
    ∃ s, Sim.init (fun _ => true) 2 twoChains = .ok s ∧
      let calls := callsIn (simMachine.trace s.start firstDrops)
      aToB.accepted calls = aToB.sent calls ∧ (aToB.sent calls).length = 2 := by
  obtain ⟨s, init, complete⟩ := reliable_relayer_suffices (fun _ => true) 2 twoChains (by decide)
  have wired : (Sim.init (fun _ => true) 2 twoChains).toOption.map (fun s =>
      ((wiring s).ids, (wiring s).homes, (wiring s).endpoints (lit "B:node-0"))) =
      some ([lit "A", lit "B"], [0, 1], some 1) := by decide +kernel
  have trusted : (Sim.init (fun _ => true) 2 twoChains).toOption.map (fun s =>
      ((wiring s).relayers[1]?).map fun rel => (rel.1, rel.2 (lit "B"))) =
      some (some (lit "relayer-1", some (lit "B:node-0"))) := by decide +kernel
  have ran : (Sim.init (fun _ => true) 2 twoChains).toOption.map (fun s =>
      (decide (simMachine.Guarded (fun t _ i => aToB.Confines i ∧ secondRelayer.Reliable aToB t i) s.start []
          firstDrops),
        (aToB.sent (callsIn (simMachine.trace s.start firstDrops))).length,
        secondRelayer.underWay aToB (traffic (simMachine.final s.start firstDrops)))) =
      some (true, 2, []) := by decide +kernel
  rw [init] at wired trusted ran
  simp only [Except.toOption, Option.map_some, Option.some.injEq, Prod.mk.injEq, decide_eq_true_eq] at wired ran
  obtain ⟨ids, homes, endpoint⟩ := wired
  obtain ⟨keeps, two, nothing⟩ := ran
  obtain ⟨⟨name, addr⟩, here, same⟩ := Option.map_eq_some_iff.mp (Option.some.inj trusted)
  obtain ⟨rfl, leads⟩ := Prod.mk.inj same
  have fits : aToB.Fits (wiring s) := ⟨by rw [ids]; rfl, by rw [ids]; rfl⟩
  have serves : secondRelayer.Serves aToB (wiring s) := ⟨⟨addr, here, leads⟩, endpoint, by rw [homes]; rfl⟩
  obtain ⟨-, all⟩ := complete aToB secondRelayer firstDrops fits serves keeps (by rw [two]; decide)
  exact ⟨s, init, all nothing, two⟩

end InterchainCommunication.ReliableRelaying
