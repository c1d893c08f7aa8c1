import InterchainCommunication.NodeText
import InterchainCommunication.SimulationSteps

set_option autoImplicit false

namespace InterchainCommunication.AckSoundness
open ListUpdates StringText CoreTypes PacketCodec BlockchainModel ChainHistory NodeModel NodeSteps NodeText
open RelayerModel SimulationModel SimulationWiring SimulationSteps

abbrev Calls := List (ℕ × ChainOp × ChainReply)

/-- Chain `c` has returned the packet from `sendIBC`. -/
def SentBy (calls : Calls) (c : ℕ) (p : IBCPacket) : Prop := ∃ e, (c, e) ∈ calls ∧ sentPacket e = some p

/-- Chain `d` has returned Ok from `onIBCPacket` for the packet. -/
def AcceptedBy (calls : Calls) (d : ℕ) (p : IBCPacket) : Prop :=
  ∃ e, (d, e) ∈ calls ∧ acceptedPacket e = some p

def GenuinePacket (w : Wiring) (calls : Calls) (p : IBCPacket) : Prop :=
  p.type = .data ∧ ∃ c, w.ids[c]? = some p.srcChain ∧ SentBy calls c p

def GenuineAck (w : Wiring) (calls : Calls) (a : IBCPacket) : Prop :=
  ∃ p, a = ackOf p ∧ GenuinePacket w calls p ∧ ∃ d, w.ids[d]? = some p.dstChain ∧ AcceptedBy calls d p

/-- The message carries this packet or ack. -/
structure Carries (w : Wiring) (calls : Calls) (msg : NodeMessage) (p : IBCPacket) : Prop where
  kind : msg.kind = .ibc
  bytes : msg.bytes = serializeIBCPacket p
  genuine : GenuinePacket w calls p ∨ GenuineAck w calls p

/-- Node `n` belongs to the chain with this id. -/
def Home (w : Wiring) (n : ℕ) (id : Bytes) : Prop := ∃ c, w.homes[n]? = some c ∧ w.ids[c]? = some id

structure Authentic (w : Wiring) (t : Traffic) (calls : Calls) : Prop where
  packets : ∀ q ∈ t.packets, ∀ p ∈ q, GenuinePacket w calls p
  acks : ∀ q ∈ t.acks, ∀ a ∈ q, GenuineAck w calls a
  tasks : ∀ task ∈ t.tasks, ∃ msg p, deserializeNodeMessage task.2 = .ok msg ∧ Carries w calls msg p ∧
    Reaches w task.1 p.dstChain
  inboxes : ∀ (n : ℕ) (q : List NodeMessage), t.inboxes[n]? = some q → ∀ msg ∈ q,
    ∃ p, Carries w calls msg p ∧ Home w n p.dstChain

section later
variable {w : Wiring} {calls : Calls} (new : Calls)

theorem GenuinePacket.later {p : IBCPacket} (h : GenuinePacket w calls p) : GenuinePacket w (calls ++ new) p := by
  obtain ⟨data, c, src, e, sent, value⟩ := h
  exact ⟨data, c, src, e, List.mem_append_left new sent, value⟩

theorem GenuineAck.later {a : IBCPacket} (h : GenuineAck w calls a) : GenuineAck w (calls ++ new) a := by
  obtain ⟨p, ack, genuine, d, dst, e, accepted, value⟩ := h
  exact ⟨p, ack, genuine.later new, d, dst, e, List.mem_append_left new accepted, value⟩

theorem Carries.later {msg : NodeMessage} {p : IBCPacket} (h : Carries w calls msg p) :
    Carries w (calls ++ new) msg p :=
  ⟨h.kind, h.bytes, h.genuine.imp (GenuinePacket.later new) (GenuineAck.later new)⟩

theorem Authentic.later {t : Traffic} (h : Authentic w t calls) : Authentic w t (calls ++ new) := by
  constructor
  · exact fun q hq p hp => (h.packets q hq p hp).later new
  · exact fun q hq a ha => (h.acks q hq a ha).later new
  · intro task ht
    obtain ⟨msg, p, read, carries, reaches⟩ := h.tasks task ht
    exact ⟨msg, p, read, carries.later new, reaches⟩
  · intro n q hq msg hm
    obtain ⟨p, carries, home⟩ := h.inboxes n q hq msg hm
    exact ⟨p, carries.later new, home⟩

end later

variable {w : Wiring} {t : Traffic} {calls : Calls}

theorem Carries.type {msg : NodeMessage} {p : IBCPacket} (h : Carries w calls msg p) :
    p.type = .data ∨ p.type = .ack := by
  rcases h.genuine with ⟨data, -⟩ | ⟨q, rfl, -⟩
  · exact .inl data
  · exact .inr rfl

theorem Carries.read {msg : NodeMessage} {p : IBCPacket} (h : Carries w calls msg p) :
    deserializeIBCPacket msg.bytes = .ok p := by
  rw [h.bytes]
  exact deserialize_serialize p (stoi_type h.type)

theorem asked_packet (h : Authentic w t calls) {c : ℕ} {p : IBCPacket} {inboxes : List (List NodeMessage)}
    (asked : Asked w t c (.onIBCPacket p) inboxes) : GenuinePacket w calls p ∧ w.ids[c]? = some p.dstChain := by
  cases asked with
  | message n msg rest _ head home asks =>
    obtain ⟨-, read, data⟩ := asks
    obtain ⟨p', carries, c', home', dst⟩ := h.inboxes n _ head msg List.mem_cons_self
    obtain rfl : p' = p := Except.ok.inj (carries.read.symm.trans read)
    obtain rfl : c' = c := Option.some.inj (home'.symm.trans home)
    refine ⟨carries.genuine.resolve_right ?_, dst⟩
    rintro ⟨q, rfl, -⟩
    cases data

theorem asked_ack (h : Authentic w t calls) {c : ℕ} {a : IBCPacket} {inboxes : List (List NodeMessage)}
    (asked : Asked w t c (.onIBCAck a) inboxes) : GenuineAck w calls a ∧ w.ids[c]? = some a.dstChain := by
  cases asked with
  | message n msg rest _ head home asks =>
    obtain ⟨-, read, ack⟩ := asks
    obtain ⟨a', carries, c', home', dst⟩ := h.inboxes n _ head msg List.mem_cons_self
    obtain rfl : a' = a := Except.ok.inj (carries.read.symm.trans read)
    obtain rfl : c' = c := Option.some.inj (home'.symm.trans home)
    refine ⟨carries.genuine.resolve_left ?_, dst⟩
    rintro ⟨data, -⟩
    rw [data] at ack
    cases ack

theorem asked_inboxes (h : Authentic w t calls) {c : ℕ} {op : ChainOp} {inboxes : List (List NodeMessage)}
    (asked : Asked w t c op inboxes) :
    ∀ (n : ℕ) (q : List NodeMessage), inboxes[n]? = some q → ∀ msg ∈ q,
      ∃ p, Carries w calls msg p ∧ Home w n p.dstChain := by
  cases asked with
  | sender => exact h.inboxes
  | message k msg rest _ head home asks =>
    intro n q hq msg' hm
    rcases getElem?_set_cases hq with ⟨rfl, rfl⟩ | old
    · exact h.inboxes n _ head msg' (List.mem_cons_of_mem msg hm)
    · exact h.inboxes n q old msg' hm

theorem called_authentic (h : Authentic w t calls) {c : ℕ} {op : ChainOp} {reply : ChainReply}
    {inboxes : List (List NodeMessage)} (asked : Asked w t c op inboxes)
    (own : ∀ pkt, sentPacket (op, reply) = some pkt → pkt.type = .data ∧ w.ids[c]? = some pkt.srcChain) :
    Authentic w ⟨t.packets.map (· ++ (sentPacket (op, reply)).toList),
      t.acks.map (· ++ ((acceptedPacket (op, reply)).map ackOf).toList), t.tasks, inboxes⟩
      (calls ++ [(c, op, reply)]) := by
  have made : (c, op, reply) ∈ calls ++ [(c, op, reply)] := by simp
  have later := h.later [(c, op, reply)]
  constructor
  · intro q hq p hp
    obtain ⟨q₀, hq₀, rfl⟩ := List.mem_map.mp hq
    rcases List.mem_append.mp hp with old | fresh
    · exact later.packets q₀ hq₀ p old
    · have sent : sentPacket (op, reply) = some p := Option.mem_toList.mp fresh
      obtain ⟨data, src⟩ := own p sent
      exact ⟨data, c, src, _, made, sent⟩
  · intro q hq a ha
    obtain ⟨q₀, hq₀, rfl⟩ := List.mem_map.mp hq
    rcases List.mem_append.mp ha with old | fresh
    · exact later.acks q₀ hq₀ a old
    · obtain ⟨p, accepted, rfl⟩ := Option.map_eq_some_iff.mp (Option.mem_toList.mp fresh)
      obtain rfl : op = .onIBCPacket p := acceptedPacket_op accepted
      obtain ⟨genuine, dst⟩ := asked_packet h asked
      exact ⟨p, rfl, genuine.later _, c, dst, _, made, accepted⟩
  · exact later.tasks
  · intro n q hq msg hm
    obtain ⟨p, carries, home⟩ := asked_inboxes h asked n q hq msg hm
    exact ⟨p, carries.later _, home⟩

theorem posted_read (sound : Sound w) {r : ℕ} {p : IBCPacket} {task : Bytes × Bytes} (posted : Posted w r p task) :
    ∃ msg, deserializeNodeMessage task.2 = .ok msg ∧ msg.kind = .ibc ∧ msg.bytes = serializeIBCPacket p ∧
      Reaches w task.1 p.dstChain := by
  obtain ⟨rel, hrel, mailbox, bytes⟩ := posted
  have mem : rel ∈ w.relayers := List.mem_of_getElem? hrel
  have kind : stoi (intText NodeMessageKind.ibc.toInt) = .ok NodeMessageKind.ibc.toInt := by decide
  refine ⟨⟨rel.1, .ibc, serializeIBCPacket p⟩, ?_, rfl, rfl, sound.mailboxes rel mem _ _ mailbox⟩
  rw [bytes]
  exact deserialize_serialize_message (sound.names rel mem) kind

theorem tasks_authentic (h : Authentic w t calls) {tasks : List (Bytes × Bytes)}
    (sub : ∀ task ∈ tasks, task ∈ t.tasks ∨ ∃ msg p, deserializeNodeMessage task.2 = .ok msg ∧
      Carries w calls msg p ∧ Reaches w task.1 p.dstChain) : Authentic w { t with tasks := tasks } calls := by
  refine ⟨h.packets, h.acks, ?_, h.inboxes⟩
  intro task ht
  rcases sub task ht with old | new
  · exact h.tasks task old
  · exact new

theorem delivered_authentic (h : Authentic w t calls) {k n : ℕ} {task : Bytes × Bytes} {q : List NodeMessage}
    {msg : NodeMessage} (sent : t.tasks[k]? = some task) (endpoint : w.endpoints task.1 = some n)
    (inbox : t.inboxes[n]? = some q) (read : deserializeNodeMessage task.2 = .ok msg) :
    Authentic w { t with tasks := t.tasks.eraseIdx k, inboxes := t.inboxes.set n (q ++ [msg]) } calls := by
  refine ⟨h.packets, h.acks, fun task ht => h.tasks task (List.mem_of_mem_eraseIdx ht), ?_⟩
  intro m q' hq' msg' hm
  rcases getElem?_set_cases hq' with ⟨rfl, rfl⟩ | old
  · rcases List.mem_append.mp hm with old | fresh
    · exact h.inboxes m q inbox msg' old
    · obtain rfl := List.mem_singleton.mp fresh
      obtain ⟨msg₀, p, read₀, carries, n', c, endpoint', home, dst⟩ := h.tasks task (List.mem_of_getElem? sent)
      obtain rfl : msg₀ = msg' := Except.ok.inj (read₀.symm.trans read)
      obtain rfl : n' = m := Option.some.inj (endpoint'.symm.trans endpoint)
      exact ⟨p, carries, c, home, dst⟩
  · exact h.inboxes m q' old msg' hm

theorem flow_authentic (sound : Sound w) {i : SimInput} {t' : Traffic} {new : Calls} (h : Authentic w t calls)
    (flow : Flow w t i t' new) : Authentic w t' (calls ++ new) := by
  cases flow with
  | still => exact h.later []
  | called _ c op reply inboxes asked own => exact called_authentic h asked own
  | skipped n msg rest head =>
    rw [List.append_nil]
    refine ⟨h.packets, h.acks, h.tasks, ?_⟩
    intro m q hq msg' hm
    rcases getElem?_set_cases hq with ⟨rfl, rfl⟩ | old
    · exact h.inboxes m _ head msg' (List.mem_cons_of_mem msg hm)
    · exact h.inboxes m q old msg' hm
  | forwardedPacket r drops pkt rest task head posted =>
    rw [List.append_nil]
    have mem := List.mem_of_getElem? head
    have popped : Authentic w { t with packets := t.packets.set r rest } calls := by
      refine ⟨fun q hq p hp => ?_, h.acks, h.tasks, h.inboxes⟩
      rcases List.mem_or_eq_of_mem_set hq with old | rfl
      · exact h.packets q old p hp
      · exact h.packets _ mem p (List.mem_cons_of_mem pkt hp)
    refine tasks_authentic popped fun x hx => (List.mem_append.mp hx).imp_right fun fresh => ?_
    obtain ⟨msg, read, kind, bytes, reaches⟩ := posted_read sound (posted x (Option.mem_toList.mp fresh))
    exact ⟨msg, pkt, read, ⟨kind, bytes, .inl (h.packets _ mem pkt List.mem_cons_self)⟩, reaches⟩
  | forwardedAck r drops ack rest task head posted =>
    rw [List.append_nil]
    have mem := List.mem_of_getElem? head
    have popped : Authentic w { t with acks := t.acks.set r rest } calls := by
      refine ⟨h.packets, fun q hq a ha => ?_, h.tasks, h.inboxes⟩
      rcases List.mem_or_eq_of_mem_set hq with old | rfl
      · exact h.acks q old a ha
      · exact h.acks _ mem a (List.mem_cons_of_mem ack ha)
    refine tasks_authentic popped fun x hx => (List.mem_append.mp hx).imp_right fun fresh => ?_
    obtain ⟨msg, read, kind, bytes, reaches⟩ := posted_read sound (posted x (Option.mem_toList.mp fresh))
    exact ⟨msg, ack, read, ⟨kind, bytes, .inr (h.acks _ mem ack List.mem_cons_self)⟩, reaches⟩
  | dropped k | lost k =>
    rw [List.append_nil]
    exact tasks_authentic h fun task ht => .inl (List.mem_of_mem_eraseIdx ht)
  | delivered k n task q msg sent endpoint inbox read =>
    rw [List.append_nil]
    exact delivered_authentic h sent endpoint inbox read
  | duplicated k =>
    rw [List.append_nil]
    refine tasks_authentic h fun task ht => .inl ?_
    rcases List.mem_append.mp ht with old | copy
    · exact old
    · exact List.mem_of_getElem? (Option.mem_toList.mp copy)

theorem genuineAck_chain {a : IBCPacket} {c : ℕ} (distinct : w.ids.Nodup) (genuine : GenuineAck w calls a)
    (dst : w.ids[c]? = some a.dstChain) : ∃ p, SentBy calls c p ∧ a = ackOf p ∧
      ∃ d, w.ids[d]? = some p.dstChain ∧ AcceptedBy calls d p := by
  obtain ⟨p, rfl, ⟨-, c', src, sent⟩, accepted⟩ := genuine
  have inside := (List.getElem?_eq_some_iff.mp dst).1
  obtain rfl : c = c' := (List.getElem?_inj inside distinct).mp (dst.trans src.symm)
  exact ⟨p, sent, rfl, accepted⟩

theorem authentic_quiet (h : Quiet t) : Authentic w t [] := by
  constructor
  · intro q hq p hp
    rw [h.packets q hq] at hp
    cases hp
  · intro q hq a ha
    rw [h.acks q hq] at ha
    cases ha
  · intro task ht
    rw [h.tasks] at ht
    cases ht
  · intro n q hq msg hm
    rw [h.inboxes q (List.mem_of_getElem? hq)] at hm
    cases hm

theorem flow_ack {i : SimInput} {t' : Traffic} {new : Calls} {c : ℕ} {a : IBCPacket} {reply : ChainReply}
    (flow : Flow w t i t' new) (call : (c, ChainOp.onIBCAck a, reply) ∈ new) :
    ∃ inboxes, Asked w t c (.onIBCAck a) inboxes := by
  cases flow with
  | called _ c' op reply' inboxes asked own =>
    have same := List.mem_singleton.mp call
    simp only [Prod.mk.injEq] at same
    obtain ⟨rfl, rfl, rfl⟩ := same
    exact ⟨inboxes, asked⟩
  | still | skipped | forwardedPacket | forwardedAck | dropped | delivered | lost | duplicated => cases call

/-- An ack a chain processes is addressed to that chain and answers a packet that this chain
    sent and the packet's destination accepted before. -/
theorem acks_sound (opens : Bytes → Bool) (relayerCount : ℕ) (configs : List ChainConfig)
    (distinct : (configs.map (·.chainId)).Nodup) :
    ∃ s, Sim.init opens relayerCount configs = .ok s ∧
      ∀ (is : List SimInput) (i : SimInput) (c : ℕ) (a : IBCPacket) (reply : ChainReply),
        (c, ChainOp.onIBCAck a, reply) ∈ (simMachine.step (simMachine.final s.start is) i).2.calls →
        let before := callsIn (simMachine.trace s.start is)
        (configs.map (·.chainId))[c]? = some a.dstChain ∧
          ∃ p, SentBy before c p ∧ p.srcPort = a.dstPort ∧ p.srcChannel = a.dstChannel ∧
            p.dstChain = a.srcChain ∧ p.dstPort = a.srcPort ∧ p.dstChannel = a.srcChannel ∧
            p.sequence = a.sequence ∧
            ∃ d, (configs.map (·.chainId))[d]? = some p.dstChain ∧ AcceptedBy before d p := by
  obtain ⟨s, run, built⟩ := init_built opens relayerCount configs distinct
  refine ⟨s, run, ?_⟩
  intro is i c a reply call before
  obtain ⟨authentic, wired, ready⟩ := traffic_invariant built.sound built.idle
    (I := Authentic (wiring s)) is authentic_quiet
    fun t calls i t' new _ h flow => flow_authentic built.sound h flow
  have next := step_spec (by rw [wired]; exact built.sound) ready i
  have flow := next.flow
  rw [wired] at flow
  obtain ⟨inboxes, asked⟩ := flow_ack flow call
  obtain ⟨genuine, dst⟩ := asked_ack authentic asked
  rw [← built.ids] at distinct
  obtain ⟨p, sent, rfl, accepted⟩ := genuineAck_chain distinct genuine dst
  rw [built.ids] at dst accepted
  exact ⟨dst, p, sent, rfl, rfl, rfl, rfl, rfl, rfl, accepted⟩

def twoChains : List ChainConfig := [⟨lit "A", 1⟩, ⟨lit "B", 1⟩]

def thereAndBack : List SimInput :=
  [.sendIBC 0 ⟨lit "p"⟩ ⟨lit "c"⟩ (lit "B") ⟨lit "q"⟩ ⟨lit "d"⟩ (lit "x"), .forwardPacket 0 ⟨false, false⟩,
    .deliver 0, .nodeStep 1, .nodeStep 1, .forwardAck 0 ⟨false, false⟩, .deliver 0, .nodeStep 0]

theorem acks_sound_pair :
    ∃ s, Sim.init (fun _ => true) 1 twoChains = .ok s ∧
      let before := callsIn (simMachine.trace s.start thereAndBack)
      ∃ p, SentBy before 0 p ∧ p.sequence = 1 ∧ p.dstChain = lit "B" ∧ ∃ d, AcceptedBy before d p := by
  obtain ⟨s, init, sound⟩ := acks_sound (fun _ => true) 1 twoChains (by decide)
  have processed : (Sim.init (fun _ => true) 1 twoChains).toOption.map
      (fun s => (simMachine.step (simMachine.final s.start thereAndBack) (.nodeStep 0)).2.calls) =
      some [(0, .onIBCAck ⟨.ack, lit "B", lit "A", ⟨lit "q"⟩, ⟨lit "d"⟩, ⟨lit "p"⟩, ⟨lit "c"⟩, 1, lit "ack_1"⟩,
        .status ⟨.ok, lit "Ack processed"⟩)] := by decide +kernel
  rw [init] at processed
  have call := List.mem_of_getElem? (congrArg (fun calls => calls[0]?) (Option.some.inj processed))
  obtain ⟨-, p, sent, -, -, dst, -, -, sequence, d, -, accepted⟩ := sound thereAndBack _ _ _ _ call
  exact ⟨s, init, p, sent, sequence, dst, d, accepted⟩

end InterchainCommunication.AckSoundness
