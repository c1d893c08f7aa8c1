import InterchainCommunication.ListUpdates
import InterchainCommunication.SimulationModel

set_option autoImplicit false

namespace InterchainCommunication.SimulationWiring
open StringText CoreTypes PacketCodec ChannelSequencing BlockchainModel QueueAndBus NodeModel RelayerModel
open SimulationModel ListUpdates

variable {opens : Bytes → Bool}

structure Wiring where
  ids : List Bytes
  homes : List ℕ
  relayers : List (Bytes × (Bytes → Option Bytes))
  bus : EventBus Handler
  endpoints : Bytes → Option ℕ

def wiring (s : Sim) : Wiring where
  ids := s.chains.map (·.chainId)
  homes := s.nodes.map (·.chain)
  relayers := s.relayers.map fun r => (r.name, r.chainAddr)
  bus := s.bus
  endpoints := s.transport.endpoints

theorem nodes_of_wiring {s s' : Sim} (same : wiring s' = wiring s) : s'.nodes.length = s.nodes.length := by
  have homes := congrArg (fun w => w.homes.length) same
  simpa [wiring] using homes

theorem relayers_of_wiring {s s' : Sim} (same : wiring s' = wiring s) : s'.relayers.length = s.relayers.length := by
  have posts := congrArg (fun w => w.relayers.length) same
  simpa [wiring] using posts

/-- The address leads to a node of the chain with this id. -/
def Reaches (w : Wiring) (addr id : Bytes) : Prop :=
  ∃ n c, w.endpoints addr = some n ∧ w.homes[n]? = some c ∧ w.ids[c]? = some id

structure Sound (w : Wiring) : Prop where
  names : ∀ rel ∈ w.relayers, pipe ∉ rel.1
  mailboxes : ∀ rel ∈ w.relayers, ∀ id addr, rel.2 id = some addr → Reaches w addr id
  packetHandlers : w.bus.handlers .ibcPacketSend = (List.range w.relayers.length).map .packetSend
  ackHandlers : w.bus.handlers .ibcAckSend = (List.range w.relayers.length).map .ackSend
  otherHandlers : ∀ kind, kind ≠ .ibcPacketSend → kind ≠ .ibcAckSend → w.bus.handlers kind = []

/-- Every relayer hears both kinds of packet events once, in the order of their numbers. -/
structure Subscribed (w : Wiring) : Prop where
  packetHandlers : w.bus.handlers .ibcPacketSend = (List.range w.relayers.length).map .packetSend
  ackHandlers : w.bus.handlers .ibcAckSend = (List.range w.relayers.length).map .ackSend
  otherHandlers : ∀ kind, kind ≠ .ibcPacketSend → kind ≠ .ibcAckSend → w.bus.handlers kind = []

theorem Sound.subscribed {w : Wiring} (h : Sound w) : Subscribed w := ⟨h.packetHandlers, h.ackHandlers, h.otherHandlers⟩

/-- Nothing has happened yet: no channel, nothing queued, nothing in flight. -/
structure Idle (s : Sim) : Prop where
  chains : ∀ b ∈ s.chains, ∀ key, b.channels key = none
  nodes : ∀ n ∈ s.nodes, n.node.inbox = .new
  relayers : ∀ rel ∈ s.relayers, rel.pendingPackets = .new ∧ rel.pendingAcks = .new
  tasks : s.transport.tasks = []

theorem addressOf_injective {id id' : Bytes} {i j : ℕ} (h : Sim.addressOf id i = Sim.addressOf id' j) :
    id = id' ∧ i = j := by
  have plain (k : ℕ) : (58 : UInt8) ∉ (Sim.nodeName k).reverse := by
    rw [List.mem_reverse, Sim.nodeName, List.mem_append, not_or]
    refine ⟨by decide, fun colon => ?_⟩
    exact absurd (isDigit_toNat (decimal_isDigit colon)).2 (by decide)
  have back (id : Bytes) (k : ℕ) :
      cut 58 (Sim.addressOf id k).reverse = some ((Sim.nodeName k).reverse, id.reverse) := by
    refine cut_eq_some.mpr ⟨?_, plain k⟩
    simp only [Sim.addressOf, List.reverse_append, List.append_assoc]
    rfl
  have parts := back id i
  rw [h, back id' j, Option.some.injEq, Prod.mk.injEq, List.reverse_inj, List.reverse_inj] at parts
  exact ⟨parts.2.symm, (decimal_injective (List.append_cancel_left parts.1)).symm⟩

structure Grows (w w' : Wiring) : Prop where
  ids : ∀ (c : ℕ) (id : Bytes), w.ids[c]? = some id → w'.ids[c]? = some id
  homes : ∀ n c : ℕ, w.homes[n]? = some c → w'.homes[n]? = some c
  endpoints : ∀ (addr : Bytes) (n : ℕ), w.endpoints addr = some n → w'.endpoints addr = some n

theorem Grows.reaches {w w' : Wiring} (grows : Grows w w') {addr id : Bytes} (h : Reaches w addr id) :
    Reaches w' addr id := by
  obtain ⟨n, c, hn, hc, hi⟩ := h
  exact ⟨n, c, grows.endpoints _ _ hn, grows.homes _ _ hc, grows.ids _ _ hi⟩

theorem Grows.sound {w w' : Wiring} (grows : Grows w w') (relayers : w'.relayers = w.relayers)
    (bus : w'.bus = w.bus) (h : Sound w) : Sound w' := by
  constructor
  · rw [relayers]
    exact h.names
  · rw [relayers]
    exact fun rel hrel id addr hmail => grows.reaches (h.mailboxes rel hrel id addr hmail)
  · rw [bus, relayers]
    exact h.packetHandlers
  · rw [bus, relayers]
    exact h.ackHandlers
  · rw [bus]
    exact h.otherHandlers

theorem registerNodeId_same (b : Blockchain) (nodeId : Bytes) :
    (b.registerNodeId nodeId).chain.chainId = b.chainId ∧ (b.registerNodeId nodeId).chain.channels = b.channels := by
  unfold Blockchain.registerNodeId
  split <;> exact ⟨rfl, rfl⟩

theorem modify_ids (l : List Blockchain) (c : ℕ) (nodeId : Bytes) :
    (l.modify c fun b => (b.registerNodeId nodeId).chain).map (·.chainId) = l.map (·.chainId) := by
  apply List.ext_getElem?
  intro k
  rw [List.getElem?_map, List.getElem?_map, List.getElem?_modify]
  cases l[k]? with
  | none => rfl
  | some b =>
    by_cases here : c = k
    · simp [here, (registerNodeId_same b nodeId).1]
    · simp [here]

theorem registerEndpoint_free {t : Transport} {addr : Bytes} (n : ℕ) (free : t.endpoints addr = none) :
    (t.registerEndpoint addr n).2.ok = true ∧
      (t.registerEndpoint addr n).1.endpoints = Function.update t.endpoints addr (some n) ∧
      (t.registerEndpoint addr n).1.tasks = t.tasks := by
  simp [Transport.registerEndpoint, free, Status.ok]

/-- The state while the nodes of the chain `id` are added: `before` are the chains that
    are complete, and `added` the nodes the new chain has. -/
structure Adding (before : List Bytes) (id : Bytes) (added : List ℕ) (s : Sim) : Prop where
  ids : (wiring s).ids = before ++ [id]
  sound : Sound (wiring s)
  idle : Idle s
  reaches : ∀ i ∈ added, Reaches (wiring s) (Sim.addressOf id i) id
  registered : ∀ addr, (wiring s).endpoints addr ≠ none →
    (∃ id' ∈ before, ∃ i, addr = Sim.addressOf id' i) ∨ ∃ i ∈ added, addr = Sim.addressOf id i

structure AddsNode (s : Sim) (addr : Bytes) (s' : Sim) : Prop where
  ids : (wiring s').ids = (wiring s).ids
  homes : (wiring s').homes = (wiring s).homes ++ [s.chains.length - 1]
  endpoints : (wiring s').endpoints = Function.update (wiring s).endpoints addr (some s.nodes.length)
  relayers : (wiring s').relayers = (wiring s).relayers
  bus : (wiring s').bus = (wiring s).bus

theorem addNode_free {id : Bytes} {i : ℕ} {s : Sim} (free : s.transport.endpoints (Sim.addressOf id i) = none)
    (idle : Idle s) : ∃ s', Sim.addNode opens id s i = .ok s' ∧ AddsNode s (Sim.addressOf id i) s' ∧ Idle s' := by
  obtain ⟨ok, endpoints, tasks⟩ := registerEndpoint_free s.nodes.length free
  let s' : Sim := { s with
    transport := (s.transport.registerEndpoint (Sim.addressOf id i) s.nodes.length).1
    nodes := s.nodes ++ [⟨.new (Sim.nodeName i) (Sim.addressOf id i) (opens (nodeStateFile id (Sim.nodeName i))), s.chains.length - 1⟩]
    chains := s.chains.modify (s.chains.length - 1) fun b => (b.registerNodeId (Sim.nodeName i)).chain }
  have ids : (wiring s').ids = (wiring s).ids := modify_ids s.chains _ _
  have homes : (wiring s').homes = (wiring s).homes ++ [s.chains.length - 1] := by
    change (s.nodes ++ [_]).map SimNode.chain = _
    rw [List.map_append]
    rfl
  refine ⟨s', ?_, ⟨ids, homes, endpoints, rfl, rfl⟩, ?_⟩
  · simp only [Sim.addNode, ok]
    rfl
  · constructor
    · intro b hb key
      rcases mem_modify hb with old | ⟨b', hb', rfl⟩
      · exact idle.chains b old key
      · rw [(registerNodeId_same b' _).2]
        exact idle.chains b' hb' key
    · intro n hn
      rcases List.mem_append.mp hn with old | new
      · exact idle.nodes n old
      · rw [List.mem_singleton.mp new]
        rfl
    · exact idle.relayers
    · exact tasks.trans idle.tasks

theorem AddsNode.grows {s s' : Sim} {addr : Bytes} (adds : AddsNode s addr s')
    (free : s.transport.endpoints addr = none) : Grows (wiring s) (wiring s') := by
  refine ⟨fun c j hj => ?_, fun n c hc => ?_, fun addr' n hn => ?_⟩
  · rw [adds.ids]
    exact hj
  · rw [adds.homes]
    exact getElem?_append_of_some hc _
  · have other : addr' ≠ addr := by
      rintro rfl
      rw [show (wiring s).endpoints _ = none from free] at hn
      cases hn
    rw [adds.endpoints, Function.update_of_ne other, hn]

theorem addNode_adds {before : List Bytes} {id : Bytes} {added : List ℕ} {i : ℕ} {s : Sim} (fresh : id ∉ before)
    (next : i ∉ added) (h : Adding before id added s) :
    ∃ s', Sim.addNode opens id s i = .ok s' ∧ Adding before id (added ++ [i]) s' := by
  have free : s.transport.endpoints (Sim.addressOf id i) = none := by
    by_contra taken
    rcases h.registered _ taken with ⟨id', hid', j, same⟩ | ⟨j, hj, same⟩
    · exact fresh ((addressOf_injective same).1 ▸ hid')
    · exact next ((addressOf_injective same).2 ▸ hj)
  obtain ⟨s', run, adds, idle⟩ := addNode_free free h.idle
  have grows := adds.grows free
  have length : s.chains.length = before.length + 1 := by
    have count := congrArg List.length h.ids
    simpa [wiring] using count
  refine ⟨s', run, adds.ids.trans h.ids, grows.sound adds.relayers adds.bus h.sound, idle, ?_, ?_⟩
  · intro j hj
    rcases List.mem_append.mp hj with old | new
    · exact grows.reaches (h.reaches j old)
    · obtain rfl := List.mem_singleton.mp new
      refine ⟨s.nodes.length, s.chains.length - 1, ?_, ?_, ?_⟩
      · rw [adds.endpoints, Function.update_self]
      · have count : (wiring s).homes.length = s.nodes.length := List.length_map ..
        rw [adds.homes, ← count, List.getElem?_concat_length]
      · rw [adds.ids, h.ids, length, Nat.add_sub_cancel, List.getElem?_concat_length]
  · intro addr used
    by_cases same : addr = Sim.addressOf id i
    · exact .inr ⟨i, by simp, same⟩
    · rw [adds.endpoints, Function.update_of_ne same] at used
      rcases h.registered addr used with old | ⟨j, hj, new⟩
      · exact .inl old
      · exact .inr ⟨j, by simp [hj], new⟩

structure SameChains (s s' : Sim) : Prop where
  ids : (wiring s').ids = (wiring s).ids
  homes : (wiring s').homes = (wiring s).homes
  endpoints : (wiring s').endpoints = (wiring s).endpoints
  sound : Sound (wiring s')
  idle : Idle s'

theorem SameChains.reaches {s s' : Sim} (same : SameChains s s') {addr id : Bytes}
    (h : Reaches (wiring s) addr id) : Reaches (wiring s') addr id := by
  refine Grows.reaches ⟨?_, ?_, ?_⟩ h
  · rw [same.ids]
    exact fun _ _ h => h
  · rw [same.homes]
    exact fun _ _ h => h
  · rw [same.endpoints]
    exact fun _ _ h => h

theorem sameChains_refl {s : Sim} (sound : Sound (wiring s)) (idle : Idle s) : SameChains s s :=
  ⟨rfl, rfl, rfl, sound, idle⟩

theorem SameChains.trans {s s' s'' : Sim} (h : SameChains s s') (h' : SameChains s' s'') : SameChains s s'' :=
  ⟨h'.ids.trans h.ids, h'.homes.trans h.homes, h'.endpoints.trans h.endpoints, h'.sound, h'.idle⟩

theorem addRelayer_relayers (s : Sim) : (wiring s.addRelayer).relayers =
    (wiring s).relayers ++ [(lit "relayer-" ++ decimal s.relayers.length, fun _ => none)] := by
  change (s.relayers ++ [_]).map _ = _
  rw [List.map_append]
  rfl

theorem subscribed_addRelayer {s : Sim} (h : Subscribed (wiring s)) : Subscribed (wiring s.addRelayer) := by
  have count : (wiring s).relayers.length = s.relayers.length := List.length_map ..
  have handlers (kind : EventKind) : (wiring s.addRelayer).bus.handlers kind =
      (s.bus.handlers kind ++ if kind = .ibcPacketSend then [.packetSend s.relayers.length] else []) ++
        if kind = .ibcAckSend then [.ackSend s.relayers.length] else [] := by
    change EventBus.handlers (EventBus.subscribe _ _ _).1 kind = _
    rw [EventBus.handlers_subscribe, EventBus.handlers_subscribe]
  have numbered (f : ℕ → Handler) : (List.range (wiring s.addRelayer).relayers.length).map f =
      (List.range (wiring s).relayers.length).map f ++ [f s.relayers.length] := by
    rw [addRelayer_relayers, List.length_append, List.length_singleton, List.range_succ, List.map_append, count]
    rfl
  constructor
  · rw [handlers, show s.bus.handlers _ = _ from h.packetHandlers, numbered]
    simp
  · rw [handlers, show s.bus.handlers _ = _ from h.ackHandlers, numbered]
    simp
  · intro kind notPacket notAck
    rw [handlers, if_neg notPacket, if_neg notAck, show s.bus.handlers kind = [] from
      h.otherHandlers kind notPacket notAck]
    rfl

theorem addRelayer_same {s : Sim} (sound : Sound (wiring s)) (idle : Idle s) : SameChains s s.addRelayer := by
  have relayers := addRelayer_relayers s
  have heard := subscribed_addRelayer sound.subscribed
  have grows : Grows (wiring s) (wiring s.addRelayer) := ⟨fun _ _ h => h, fun _ _ h => h, fun _ _ h => h⟩
  refine ⟨rfl, rfl, rfl, ⟨?_, ?_, heard.packetHandlers, heard.ackHandlers, heard.otherHandlers⟩,
    idle.chains, idle.nodes, ?_, idle.tasks⟩
  · intro rel hrel
    rw [relayers, List.mem_append, List.mem_singleton] at hrel
    rcases hrel with old | rfl
    · exact sound.names rel old
    · rw [List.mem_append, not_or]
      refine ⟨by decide, fun bar => ?_⟩
      exact absurd (isDigit_toNat (decimal_isDigit bar)).2 (by decide)
  · intro rel hrel id addr hmail
    rw [relayers, List.mem_append, List.mem_singleton] at hrel
    rcases hrel with old | rfl
    · exact grows.reaches (sound.mailboxes rel old id addr hmail)
    · cases hmail
  · intro rel hrel
    rcases List.mem_append.mp hrel with old | new
    · exact idle.relayers rel old
    · rw [List.mem_singleton.mp new]
      exact ⟨rfl, rfl⟩

theorem connectRelayer_same {s : Sim} {id mailbox : Bytes} (r : ℕ) (sound : Sound (wiring s)) (idle : Idle s)
    (reaches : Reaches (wiring s) mailbox id) : SameChains s (Sim.connectRelayer id mailbox s r) := by
  let s₁ := if s.relayers.length ≤ r then s.addRelayer else s
  have added : SameChains s s₁ := by
    by_cases new : s.relayers.length ≤ r
    · simp only [s₁, if_pos new]
      exact addRelayer_same sound idle
    · simp only [s₁, if_neg new]
      exact sameChains_refl sound idle
  let s₂ : Sim := { s₁ with relayers := s₁.relayers.modify r fun rel => rel.connectChainMailbox id mailbox }
  change SameChains s s₂
  have grows : Grows (wiring s₁) (wiring s₂) := ⟨fun _ _ h => h, fun _ _ h => h, fun _ _ h => h⟩
  have count : (wiring s₂).relayers.length = (wiring s₁).relayers.length := by
    simp [wiring, s₂]
  refine added.trans ⟨rfl, rfl, rfl, ?_, added.idle.chains, added.idle.nodes, ?_, added.idle.tasks⟩
  · constructor
    · intro rel hrel
      obtain ⟨rel', hrel', rfl⟩ := List.mem_map.mp hrel
      rcases mem_modify hrel' with old | ⟨rel₀, old, rfl⟩
      · exact added.sound.names _ (List.mem_map_of_mem old)
      · exact added.sound.names (rel₀.name, rel₀.chainAddr) (List.mem_map.mpr ⟨rel₀, old, rfl⟩)
    · intro rel hrel id' addr hmail
      obtain ⟨rel', hrel', rfl⟩ := List.mem_map.mp hrel
      rcases mem_modify hrel' with old | ⟨rel₀, old, rfl⟩
      · exact grows.reaches (added.sound.mailboxes _ (List.mem_map_of_mem old) id' addr hmail)
      · by_cases same : id' = id
        · subst same
          obtain rfl : mailbox = addr := by simpa [Relayer.connectChainMailbox] using hmail
          exact grows.reaches (added.reaches reaches)
        · have before : rel₀.chainAddr id' = some addr := by
            simpa [Relayer.connectChainMailbox, same] using hmail
          exact grows.reaches (added.sound.mailboxes _ (List.mem_map_of_mem old) id' addr before)
    · rw [count]
      exact added.sound.packetHandlers
    · rw [count]
      exact added.sound.ackHandlers
    · exact added.sound.otherHandlers
  · intro rel hrel
    rcases mem_modify hrel with old | ⟨rel₀, old, rfl⟩
    · exact added.idle.relayers rel old
    · exact added.idle.relayers rel₀ old

theorem connectRelayers_same {s : Sim} {id mailbox : Bytes} (rs : List ℕ) (sound : Sound (wiring s))
    (idle : Idle s) (reaches : Reaches (wiring s) mailbox id) :
    SameChains s (rs.foldl (Sim.connectRelayer id mailbox) s) := by
  induction rs generalizing s with
  | nil => exact sameChains_refl sound idle
  | cons r rs ih =>
    have first := connectRelayer_same r sound idle reaches
    exact first.trans (ih first.sound first.idle (first.reaches reaches))

/-- The state between two chains: `done` are the ids of the chains so far. -/
structure Built (done : List Bytes) (s : Sim) : Prop where
  ids : (wiring s).ids = done
  sound : Sound (wiring s)
  idle : Idle s
  registered : ∀ addr, (wiring s).endpoints addr ≠ none → ∃ id ∈ done, ∃ i, addr = Sim.addressOf id i

theorem built_empty : Built [] Sim.empty where
  ids := rfl
  sound := {
    names _ hrel := absurd hrel List.not_mem_nil
    mailboxes _ hrel := absurd hrel List.not_mem_nil
    packetHandlers := rfl
    ackHandlers := rfl
    otherHandlers _ _ _ := rfl }
  idle := {
    chains _ hb := absurd hb List.not_mem_nil
    nodes _ hn := absurd hn List.not_mem_nil
    relayers _ hrel := absurd hrel List.not_mem_nil
    tasks := rfl }
  registered _ used := absurd rfl used

theorem addChain_builds (relayerCount : ℕ) {done : List Bytes} {s : Sim} {cfg : ChainConfig}
    (fresh : cfg.chainId ∉ done) (h : Built done s) :
    ∃ s', Sim.addChain opens relayerCount s cfg = .ok s' ∧ Built (done ++ [cfg.chainId]) s' := by
  let s₀ : Sim := { s with chains := s.chains ++ [.new cfg.chainId] }
  have ids : (wiring s₀).ids = (wiring s).ids ++ [cfg.chainId] := by
    change (s.chains ++ [_]).map _ = _
    rw [List.map_append]
    rfl
  have grows : Grows (wiring s) (wiring s₀) := by
    refine ⟨fun c id hid => ?_, fun _ _ h => h, fun _ _ h => h⟩
    rw [ids]
    exact getElem?_append_of_some hid _
  have start : Adding done cfg.chainId [] s₀ := by
    refine ⟨by rw [ids, h.ids], grows.sound rfl rfl h.sound, ⟨?_, h.idle.nodes, h.idle.relayers, h.idle.tasks⟩,
      fun i hi => absurd hi List.not_mem_nil, fun addr used => .inl (h.registered addr used)⟩
    intro b hb key
    rcases List.mem_append.mp hb with old | new
    · exact h.idle.chains b old key
    · rw [List.mem_singleton.mp new]
      rfl
  obtain ⟨s₁, nodes, adding⟩ := foldlM_exists (f := Sim.addNode opens cfg.chainId)
    (P := Adding done cfg.chainId) (List.range cfg.nodeCount) (fun added i rest s' hl hs => by
      have next : i ∉ added := by
        have once := List.nodup_range (n := cfg.nodeCount)
        rw [hl, List.nodup_append] at once
        exact fun again => once.2.2 i again i (by simp) rfl
      exact addNode_adds fresh next hs) start
  have registered : ∀ addr, (wiring s₁).endpoints addr ≠ none →
      ∃ id ∈ done ++ [cfg.chainId], ∃ i, addr = Sim.addressOf id i := by
    intro addr used
    rcases adding.registered addr used with ⟨id, hid, i, same⟩ | ⟨i, -, same⟩
    · exact ⟨id, by simp [hid], i, same⟩
    · exact ⟨cfg.chainId, by simp, i, same⟩
  by_cases none : cfg.nodeCount = 0
  · refine ⟨s₁, ?_, adding.ids, adding.sound, adding.idle, registered⟩
    rw [Sim.addChain, nodes]
    simp [none]
  · have reaches := adding.reaches 0 (List.mem_range.mpr (Nat.pos_of_ne_zero none))
    have same := connectRelayers_same (List.range relayerCount) adding.sound adding.idle reaches
    refine ⟨_, ?_, same.ids.trans adding.ids, same.sound, same.idle, ?_⟩
    · rw [Sim.addChain, nodes]
      simp only [if_neg none]
      rfl
    · rw [same.endpoints]
      exact registered

/-- With distinct chain ids `init` succeeds, and what it builds is wired soundly. -/
theorem init_built (opens : Bytes → Bool) (relayerCount : ℕ) (configs : List ChainConfig)
    (distinct : (configs.map (·.chainId)).Nodup) :
    ∃ s, Sim.init opens relayerCount configs = .ok s ∧ Built (configs.map (·.chainId)) s := by
  refine foldlM_exists (P := fun done s => Built (done.map (·.chainId)) s) configs ?_ built_empty
  intro done cfg rest s hl hs
  have fresh : cfg.chainId ∉ done.map (·.chainId) := by
    rw [hl, List.map_append, List.map_cons, List.nodup_append] at distinct
    exact fun again => distinct.2.2 _ again _ (by simp) rfl
  obtain ⟨s', step, built⟩ := addChain_builds relayerCount fresh hs
  exact ⟨s', step, by rw [List.map_append]; exact built⟩

theorem connectRelayer_few {relayerCount : ℕ} {id mailbox : Bytes} {s : Sim} {r : ℕ} (inside : r < relayerCount)
    (few : s.relayers.length ≤ relayerCount) :
    (Sim.connectRelayer id mailbox s r).relayers.length ≤ relayerCount := by
  unfold Sim.connectRelayer
  dsimp only
  rw [List.length_modify]
  split
  · change (s.relayers ++ [_]).length ≤ relayerCount
    rw [List.length_append, List.length_singleton]
    omega
  · exact few

theorem addChain_few {relayerCount : ℕ} {cfg : ChainConfig} {s s' : Sim}
    (run : Sim.addChain opens relayerCount s cfg = .ok s') (few : s.relayers.length ≤ relayerCount) :
    s'.relayers.length ≤ relayerCount := by
  let s₀ : Sim := { s with chains := s.chains ++ [.new cfg.chainId] }
  cases nodes : (List.range cfg.nodeCount).foldlM (Sim.addNode opens cfg.chainId) s₀ with
  | error e =>
    rw [Sim.addChain, nodes] at run
    cases run
  | ok s₁ =>
    have few₁ : s₁.relayers.length ≤ relayerCount := by
      refine foldlM_keeps (P := fun s => s.relayers.length ≤ relayerCount) ?_ nodes few
      intro s i _ s' added few
      unfold Sim.addNode at added
      dsimp only at added
      split at added
      · rw [← Except.ok.inj added]
        exact few
      · cases added
    rw [Sim.addChain, nodes] at run
    change (if cfg.nodeCount = 0 then _ else _) = Except.ok s' at run
    split at run
    · rw [← Except.ok.inj run]
      exact few₁
    · rw [← Except.ok.inj run]
      exact List.foldlRecOn (motive := fun s : Sim => s.relayers.length ≤ relayerCount) (List.range relayerCount) _
        few₁ fun s few r hr => connectRelayer_few (List.mem_range.mp hr) few

theorem init_few {relayerCount : ℕ} {configs : List ChainConfig} {s : Sim}
    (run : Sim.init opens relayerCount configs = .ok s) : s.relayers.length ≤ relayerCount :=
  foldlM_keeps (P := fun s => s.relayers.length ≤ relayerCount)
    (fun _ _ _ _ added few => addChain_few added few) run (Nat.zero_le _)

end InterchainCommunication.SimulationWiring
