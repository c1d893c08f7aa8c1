import InterchainCommunication.WiringRuns

set_option autoImplicit false

namespace InterchainCommunication.UniqueWiring
open ListUpdates StringText CoreTypes MachineRuns
open NodeModel RelayerModel SimulationModel SimulationWiring WiringRuns SimulationSteps

variable {opens : Bytes → Bool}

def populated (configs : List ChainConfig) : List Bytes :=
  (configs.filter fun cfg => 0 < cfg.nodeCount).map (·.chainId)

def laidNode (opens : Bytes → Bool) (cfg : ChainConfig) (i : ℕ) : Node :=
  .new (Sim.nodeName i) (Sim.addressOf cfg.chainId i) (opens (nodeStateFile cfg.chainId (Sim.nodeName i)))

def nodesOf (opens : Bytes → Bool) (cfg : ChainConfig) (c m : ℕ) : List SimNode :=
  (List.range m).map fun i => ⟨laidNode opens cfg i, c⟩

/-- An endpoint leads to the node that has the address. -/
def Indexed (endpoints : Bytes → Option ℕ) (nodes : List SimNode) : Prop :=
  ∀ (addr : Bytes) (n : ℕ), endpoints addr = some n ↔ ∃ node, nodes[n]? = some node ∧ node.node.address = addr

def mailbox (s : Sim) (r : ℕ) (id : Bytes) : Option Bytes := s.relayers[r]?.bind fun rel => rel.chainAddr id

/-- What `init` has built of the chains so far. -/
structure Laid (opens : Bytes → Bool) (relayerCount : ℕ) (done : List ChainConfig) (s : Sim) : Prop where
  ids : s.chains.map (·.chainId) = done.map (·.chainId)
  nodes : s.nodes = done.zipIdx.flatMap fun p => nodesOf opens p.1 p.2 p.1.nodeCount
  indexed : Indexed s.transport.endpoints s.nodes
  mailboxes : ∀ r < relayerCount, ∀ id, mailbox s r id =
    if id ∈ populated done then some (Sim.addressOf id 0) else none
  tasks : s.transport.tasks = []

theorem populated_concat (done : List ChainConfig) (cfg : ChainConfig) :
    populated (done ++ [cfg]) = populated done ++ if 0 < cfg.nodeCount then [cfg.chainId] else [] := by
  simp only [populated, List.filter_append, List.map_append]
  split
  · simp [*]
  · simp [*]

theorem mem_populated {configs : List ChainConfig} {id : Bytes} :
    id ∈ populated configs ↔
      ∃ (c : ℕ) (cfg : ChainConfig), configs[c]? = some cfg ∧ 0 < cfg.nodeCount ∧ cfg.chainId = id := by
  simp only [populated, List.mem_map, List.mem_filter, decide_eq_true_eq]
  constructor
  · rintro ⟨cfg, ⟨hcfg, some⟩, same⟩
    obtain ⟨c, hc⟩ := List.mem_iff_getElem?.mp hcfg
    exact ⟨c, cfg, hc, some, same⟩
  · rintro ⟨c, cfg, hc, some, same⟩
    exact ⟨cfg, ⟨List.mem_of_getElem? hc, some⟩, same⟩

theorem mem_nodesOf {cfg : ChainConfig} {c m : ℕ} {node : SimNode} : node ∈ nodesOf opens cfg c m ↔
    ∃ i < m, node = ⟨laidNode opens cfg i, c⟩ := by
  simp only [nodesOf, List.mem_map, List.mem_range]
  constructor
  · rintro ⟨i, hi, rfl⟩
    exact ⟨i, hi, rfl⟩
  · rintro ⟨i, hi, rfl⟩
    exact ⟨i, hi, rfl⟩

theorem Laid.mem_nodes {relayerCount : ℕ} {done : List ChainConfig} {s : Sim} (h : Laid opens relayerCount done s)
    {node : SimNode} : node ∈ s.nodes ↔ ∃ (c : ℕ) (cfg : ChainConfig) (i : ℕ), done[c]? = some cfg ∧ i < cfg.nodeCount ∧
      node = ⟨laidNode opens cfg i, c⟩ := by
  rw [h.nodes, List.mem_flatMap]
  constructor
  · rintro ⟨⟨cfg, c⟩, hp, hn⟩
    obtain ⟨i, hi, rfl⟩ := mem_nodesOf.mp hn
    exact ⟨c, cfg, i, List.mem_zipIdx_iff_getElem?.mp hp, hi, rfl⟩
  · rintro ⟨c, cfg, i, hc, hi, rfl⟩
    exact ⟨(cfg, c), List.mem_zipIdx_iff_getElem?.mpr hc, mem_nodesOf.mpr ⟨i, hi, rfl⟩⟩

theorem indexed_concat {endpoints : Bytes → Option ℕ} {nodes : List SimNode} (h : Indexed endpoints nodes)
    (node : SimNode) (free : endpoints node.node.address = none) :
    Indexed (Function.update endpoints node.node.address (some nodes.length)) (nodes ++ [node]) := by
  have last : (nodes ++ [node])[nodes.length]? = some node := List.getElem?_concat_length
  intro addr n
  by_cases here : addr = node.node.address
  · subst here
    rw [Function.update_self]
    constructor
    · rintro same
      obtain rfl := Option.some.inj same
      exact ⟨node, last, rfl⟩
    · rintro ⟨other, found, same⟩
      rcases getElem?_concat_cases found with before | ⟨rfl, -⟩
      · rw [(h _ n).mpr ⟨other, before, same⟩] at free
        cases free
      · rfl
  · rw [Function.update_of_ne here, h addr n]
    constructor
    · rintro ⟨other, found, same⟩
      exact ⟨other, getElem?_append_of_some found _, same⟩
    · rintro ⟨other, found, same⟩
      rcases getElem?_concat_cases found with before | ⟨-, rfl⟩
      · exact ⟨other, before, same⟩
      · exact absurd same.symm here

structure Filled (opens : Bytes → Bool) (s₀ : Sim) (cfg : ChainConfig) (m : ℕ) (s : Sim) : Prop where
  ids : s.chains.map (·.chainId) = s₀.chains.map (·.chainId)
  nodes : s.nodes = s₀.nodes ++ nodesOf opens cfg (s₀.chains.length - 1) m
  indexed : Indexed s.transport.endpoints s.nodes
  relayers : s.relayers = s₀.relayers
  tasks : s.transport.tasks = s₀.transport.tasks

theorem addNode_fills {s₀ s : Sim} {cfg : ChainConfig} {m : ℕ} (h : Filled opens s₀ cfg m s)
    (fresh : ∀ node ∈ s₀.nodes, node.node.address ≠ Sim.addressOf cfg.chainId m) :
    ∃ s', Sim.addNode opens cfg.chainId s m = .ok s' ∧ Filled opens s₀ cfg (m + 1) s' := by
  let node : SimNode := ⟨laidNode opens cfg m, s.chains.length - 1⟩
  have free : s.transport.endpoints node.node.address = none := by
    cases taken : s.transport.endpoints node.node.address with
    | none => rfl
    | some n =>
      obtain ⟨other, found, same⟩ := (h.indexed _ n).mp taken
      have listed := List.mem_of_getElem? found
      rw [h.nodes, List.mem_append] at listed
      rcases listed with old | new
      · exact absurd same (fresh other old)
      · obtain ⟨i, hi, rfl⟩ := mem_nodesOf.mp new
        have number : i = m := (addressOf_injective same).2
        omega
  obtain ⟨ok, endpoints, tasks⟩ := registerEndpoint_free s.nodes.length free
  have count : s.chains.length = s₀.chains.length := by
    have lengths := congrArg List.length h.ids
    rwa [List.length_map, List.length_map] at lengths
  let s' : Sim := { s with
    transport := (s.transport.registerEndpoint node.node.address s.nodes.length).1
    nodes := s.nodes ++ [node]
    chains := s.chains.modify (s.chains.length - 1) fun b => (b.registerNodeId (Sim.nodeName m)).chain }
  refine ⟨s', ?_, (modify_ids s.chains _ _).trans h.ids, ?_, ?_, h.relayers, tasks.trans h.tasks⟩
  · unfold Sim.addNode
    exact if_pos ok
  · have last : nodesOf opens cfg (s₀.chains.length - 1) (m + 1) = nodesOf opens cfg (s₀.chains.length - 1) m ++ [node] := by
      rw [nodesOf, List.range_succ, List.map_append, ← count]
      rfl
    change s.nodes ++ [node] = _
    rw [last, h.nodes, List.append_assoc]
  · change Indexed (s.transport.registerEndpoint node.node.address s.nodes.length).1.endpoints (s.nodes ++ [node])
    rw [endpoints]
    exact indexed_concat h.indexed node free

theorem addNodes_fill {s₀ : Sim} {cfg : ChainConfig} (indexed : Indexed s₀.transport.endpoints s₀.nodes) (m : ℕ)
    (fresh : ∀ node ∈ s₀.nodes, ∀ i < m, node.node.address ≠ Sim.addressOf cfg.chainId i) :
    ∃ s, (List.range m).foldlM (Sim.addNode opens cfg.chainId) s₀ = .ok s ∧ Filled opens s₀ cfg m s := by
  induction m with
  | zero => exact ⟨s₀, rfl, rfl, (List.append_nil _).symm, indexed, rfl, rfl⟩
  | succ m ih =>
    obtain ⟨s, run, filled⟩ := ih fun node hn i hi => fresh node hn i (by omega)
    obtain ⟨s', added, filled'⟩ := addNode_fills filled fun node hn => fresh node hn m (by omega)
    refine ⟨s', ?_, filled'⟩
    rw [List.range_succ, List.foldlM_append, run]
    change [m].foldlM (Sim.addNode opens cfg.chainId) s = .ok s'
    rw [List.foldlM_cons, added]
    rfl

structure Joined (s₀ : Sim) (id addr : Bytes) (m : ℕ) (s : Sim) : Prop where
  chains : s.chains = s₀.chains
  nodes : s.nodes = s₀.nodes
  transport : s.transport = s₀.transport
  many : m ≤ s.relayers.length
  mailboxes : ∀ r id', mailbox s r id' = if r < m ∧ id' = id then some addr else mailbox s₀ r id'

theorem mailbox_addRelayer (s : Sim) (r : ℕ) (id : Bytes) : mailbox s.addRelayer r id = mailbox s r id := by
  change ((s.relayers ++ [_])[r]?).bind _ = _
  rcases Nat.lt_trichotomy r s.relayers.length with inside | rfl | outside
  · rw [List.getElem?_append_left inside]
    rfl
  · rw [List.getElem?_concat_length, mailbox, List.getElem?_eq_none (Nat.le_refl _)]
    rfl
  · rw [mailbox, List.getElem?_eq_none (by simp; omega), List.getElem?_eq_none (Nat.le_of_lt outside)]

theorem mailbox_connect (s : Sim) {id addr : Bytes} {m : ℕ} (inside : m < s.relayers.length) (r : ℕ) (id' : Bytes) :
    mailbox { s with relayers := s.relayers.modify m fun rel => rel.connectChainMailbox id addr } r id' =
      if r = m ∧ id' = id then some addr else mailbox s r id' := by
  simp only [mailbox, List.getElem?_modify]
  by_cases here : m = r
  · subst here
    rw [List.getElem?_eq_getElem inside]
    by_cases same : id' = id
    · simp [same, Relayer.connectChainMailbox]
    · simp [same, Relayer.connectChainMailbox]
  · simp [here, Ne.symm here]

theorem connectRelayer_joins {s₀ s : Sim} {id addr : Bytes} {m : ℕ} (h : Joined s₀ id addr m s) :
    Joined s₀ id addr (m + 1) (Sim.connectRelayer id addr s m) := by
  let s₁ := if s.relayers.length ≤ m then s.addRelayer else s
  have grown : s₁.chains = s.chains ∧ s₁.nodes = s.nodes ∧ s₁.transport = s.transport ∧ m < s₁.relayers.length ∧
      ∀ r id', mailbox s₁ r id' = mailbox s r id' := by
    by_cases few : s.relayers.length ≤ m
    · have next : s₁ = s.addRelayer := if_pos few
      rw [next]
      refine ⟨rfl, rfl, rfl, ?_, mailbox_addRelayer s⟩
      change m < (s.relayers ++ [_]).length
      rw [List.length_append, List.length_singleton]
      have many := h.many
      omega
    · have same : s₁ = s := if_neg few
      rw [same]
      exact ⟨rfl, rfl, rfl, by omega, fun _ _ => rfl⟩
  obtain ⟨chains, nodes, transport, inside, mailboxes⟩ := grown
  refine ⟨chains.trans h.chains, nodes.trans h.nodes, transport.trans h.transport, ?_, fun r id' => ?_⟩
  · change m + 1 ≤ (s₁.relayers.modify m _).length
    rw [List.length_modify]
    omega
  · change mailbox { s₁ with relayers := s₁.relayers.modify m fun rel => rel.connectChainMailbox id addr } r id' = _
    rw [mailbox_connect s₁ inside, mailboxes, h.mailboxes]
    by_cases here : r = m
    · simp [here]
    · have before : r < m + 1 ↔ r < m := by omega
      simp only [here, before, false_and, if_false]

theorem connectRelayers_join (s₀ : Sim) (id addr : Bytes) (m : ℕ) :
    Joined s₀ id addr m ((List.range m).foldl (Sim.connectRelayer id addr) s₀) := by
  induction m with
  | zero => exact ⟨rfl, rfl, rfl, Nat.zero_le _, fun r id' => by simp⟩
  | succ m ih =>
    rw [List.range_succ, List.foldl_append]
    exact connectRelayer_joins ih

theorem addChain_lays {relayerCount : ℕ} {done : List ChainConfig} {s : Sim} {cfg : ChainConfig}
    (h : Laid opens relayerCount done s) (fresh : 0 < cfg.nodeCount → cfg.chainId ∉ populated done) :
    ∃ s', Sim.addChain opens relayerCount s cfg = .ok s' ∧ Laid opens relayerCount (done ++ [cfg]) s' := by
  let s₀ : Sim := { s with chains := s.chains ++ [.new cfg.chainId] }
  have apart : ∀ node ∈ s₀.nodes, ∀ i < cfg.nodeCount, node.node.address ≠ Sim.addressOf cfg.chainId i := by
    intro node hn i hi same
    obtain ⟨c, cfg', j, hc, hj, rfl⟩ := h.mem_nodes.mp hn
    have taken : cfg.chainId ∈ populated done :=
      mem_populated.mpr ⟨c, cfg', hc, by omega, (addressOf_injective same).1⟩
    exact fresh (by omega) taken
  obtain ⟨s₁, run, filled⟩ := @addNodes_fill opens s₀ cfg h.indexed cfg.nodeCount apart
  have ids₀ : s₀.chains.map (·.chainId) = (done ++ [cfg]).map (·.chainId) := by
    change (s.chains ++ [_]).map _ = _
    rw [List.map_append, List.map_append, h.ids]
    rfl
  have count : s.chains.length = done.length := by
    have lengths := congrArg List.length h.ids
    rwa [List.length_map, List.length_map] at lengths
  have nodes : s₁.nodes = (done ++ [cfg]).zipIdx.flatMap fun p => nodesOf opens p.1 p.2 p.1.nodeCount := by
    have last : s₀.chains.length - 1 = done.length := by
      change (s.chains ++ [_]).length - 1 = _
      rw [List.length_append, List.length_singleton, count, Nat.add_sub_cancel]
    rw [filled.nodes, last, List.zipIdx_append, List.flatMap_append]
    change s.nodes ++ _ = _
    rw [h.nodes]
    simp
  have kept (r : ℕ) (id : Bytes) : mailbox s₁ r id = mailbox s r id := by
    unfold mailbox
    rw [filled.relayers]
  unfold Sim.addChain
  rw [run]
  by_cases none : cfg.nodeCount = 0
  · refine ⟨s₁, ?_, filled.ids.trans ids₀, nodes, filled.indexed, fun r hr id => ?_, filled.tasks.trans h.tasks⟩
    · simp [none]
    · rw [kept, h.mailboxes r hr, populated_concat]
      simp [none]
  · have joined := connectRelayers_join s₁ cfg.chainId (Sim.addressOf cfg.chainId 0) relayerCount
    refine ⟨(List.range relayerCount).foldl (Sim.connectRelayer cfg.chainId (Sim.addressOf cfg.chainId 0)) s₁, ?_,
      ?_, joined.nodes.trans nodes, ?_, fun r hr id => ?_, ?_⟩
    · simp only [if_neg none]
      rfl
    · rw [joined.chains]
      exact filled.ids.trans ids₀
    · rw [joined.transport, joined.nodes]
      exact filled.indexed
    · rw [joined.mailboxes, kept, h.mailboxes r hr, populated_concat, if_pos (Nat.pos_of_ne_zero none)]
      by_cases same : id = cfg.chainId
      · simp [same, hr]
      · simp [same]
    · rw [joined.transport]
      exact filled.tasks.trans h.tasks

theorem addChain_fails {relayerCount : ℕ} {done : List ChainConfig} {s : Sim} {cfg : ChainConfig}
    (h : Laid opens relayerCount done s) (some : 0 < cfg.nodeCount) (taken : cfg.chainId ∈ populated done) :
    Sim.addChain opens relayerCount s cfg = .error (.runtimeError (lit "Transport endpoint registration failed")) := by
  obtain ⟨c, cfg', hc, some', same⟩ := mem_populated.mp taken
  have node := h.mem_nodes.mpr ⟨c, cfg', 0, hc, some', rfl⟩
  obtain ⟨n, hn⟩ := List.mem_iff_getElem?.mp node
  have registered : s.transport.endpoints (Sim.addressOf cfg.chainId 0) = .some n := by
    rw [h.indexed, ← same]
    exact ⟨_, hn, rfl⟩
  have refused : Sim.addNode opens cfg.chainId { s with chains := s.chains ++ [.new cfg.chainId] } 0 =
      .error (.runtimeError (lit "Transport endpoint registration failed")) := by
    simp [Sim.addNode, Transport.registerEndpoint, registered, Status.ok]
  obtain ⟨m, hm⟩ : ∃ m, cfg.nodeCount = m + 1 := ⟨cfg.nodeCount - 1, by omega⟩
  unfold Sim.addChain
  rw [hm, List.range_succ_eq_map, List.foldlM_cons, refused]
  rfl

theorem laid_empty (opens : Bytes → Bool) (relayerCount : ℕ) : Laid opens relayerCount [] Sim.empty :=
  ⟨rfl, rfl, fun addr n => by simp [Sim.empty, Transport.new], fun r _ id => rfl, rfl⟩

theorem populated_concat_nodup {done : List ChainConfig} {cfg : ChainConfig} :
    (populated (done ++ [cfg])).Nodup ↔
      (populated done).Nodup ∧ (0 < cfg.nodeCount → cfg.chainId ∉ populated done) := by
  rw [populated_concat]
  split
  · rename_i some
    rw [List.nodup_append]
    constructor
    · rintro ⟨once, -, apart⟩
      exact ⟨once, fun _ taken => apart _ taken _ List.mem_cons_self rfl⟩
    · rintro ⟨once, fresh⟩
      refine ⟨once, List.nodup_singleton _, fun id old id' new same => ?_⟩
      rw [List.mem_singleton] at new
      exact fresh some (new ▸ same ▸ old)
  · rename_i none
    rw [List.append_nil]
    exact ⟨fun once => ⟨once, fun some => absurd some none⟩, And.left⟩

theorem init_concat (relayerCount : ℕ) (done : List ChainConfig) (cfg : ChainConfig) :
    Sim.init opens relayerCount (done ++ [cfg]) =
      Sim.init opens relayerCount done >>= fun s => Sim.addChain opens relayerCount s cfg := by
  unfold Sim.init
  rw [List.foldlM_append]
  congr 1
  funext s
  rw [List.foldlM_cons]
  cases Sim.addChain opens relayerCount s cfg <;> rfl

theorem init_lays (opens : Bytes → Bool) (relayerCount : ℕ) {configs : List ChainConfig}
    (distinct : (populated configs).Nodup) :
    ∃ s, Sim.init opens relayerCount configs = .ok s ∧ Laid opens relayerCount configs s := by
  induction configs using List.reverseRecOn with
  | nil => exact ⟨Sim.empty, rfl, laid_empty opens relayerCount⟩
  | append_singleton done cfg ih =>
    obtain ⟨once, fresh⟩ := populated_concat_nodup.mp distinct
    obtain ⟨s, run, laid⟩ := ih once
    obtain ⟨s', step, laid'⟩ := addChain_lays laid fresh
    refine ⟨s', ?_, laid'⟩
    rw [init_concat, run]
    exact step

theorem init_distinct {relayerCount : ℕ} {configs : List ChainConfig} {s : Sim}
    (run : Sim.init opens relayerCount configs = .ok s) : (populated configs).Nodup := by
  induction configs using List.reverseRecOn generalizing s with
  | nil => exact List.nodup_nil
  | append_singleton done cfg ih =>
    rw [init_concat] at run
    cases before : Sim.init opens relayerCount done with
    | error e =>
      rw [before] at run
      cases run
    | ok s₁ =>
      have once := ih before
      refine populated_concat_nodup.mpr ⟨once, fun some taken => ?_⟩
      obtain ⟨s₂, again, laid⟩ := init_lays opens relayerCount once
      obtain rfl : s₂ = s₁ := Except.ok.inj (again.symm.trans before)
      rw [before] at run
      change Sim.addChain opens relayerCount s₂ cfg = _ at run
      rw [addChain_fails laid some taken] at run
      cases run

/-- Whatever waits for the address goes to a node of chain number `c`, which has this id. -/
def LeadsTo (s : Sim) (addr : Bytes) (c : ℕ) (id : Bytes) : Prop :=
  ∀ k bytes, s.transport.tasks[k]? = some (addr, bytes) → ∃ n node b, s.nodes[n]? = some node ∧ node.chain = c ∧
    s.chains[c]? = some b ∧ b.chainId = id ∧
      (s.deliver k).1.nodes = s.nodes.set n { node with node := (node.node.onBytes bytes).1 }

/-- The chain number `c` is the chain with this id that has a node. -/
def Bears (configs : List ChainConfig) (c : ℕ) (id : Bytes) : Prop :=
  ∃ cfg, configs[c]? = some cfg ∧ 0 < cfg.nodeCount ∧ cfg.chainId = id

structure Unambiguous (configs : List ChainConfig) (s : Sim) : Prop where
  unique : ∀ c c' id, Bears configs c id → Bears configs c' id → c = c'
  mailbox : ∀ rel ∈ s.relayers, ∀ c id, Bears configs c id → ∃ n node, s.nodes[n]? = some node ∧ node.chain = c ∧
    node.node.nodeId = Sim.nodeName 0 ∧ node.node.address = Sim.addressOf id 0 ∧
      s.transport.endpoints node.node.address = some n ∧ rel.chainAddr id = some node.node.address
  others : ∀ rel ∈ s.relayers, ∀ id, (∀ c, ¬ Bears configs c id) → rel.chainAddr id = none
  apart : ∀ rel ∈ s.relayers, ∀ rel' ∈ s.relayers, ∀ id id' addr, rel.chainAddr id = some addr →
    rel'.chainAddr id' = some addr → id = id'
  relayed : ∀ is, ∀ rel ∈ (simMachine.final s.start is).relayers, ∀ pkt drops,
    (rel.relayPacket (simMachine.final s.start is).transport pkt drops).2.ok = true → ∃ c addr bytes,
      (rel.relayPacket (simMachine.final s.start is).transport pkt drops).1.tasks =
        (simMachine.final s.start is).transport.tasks ++ [(addr, bytes)] ∧
      Bears configs c pkt.dstChain ∧ ∀ js, LeadsTo (simMachine.final s.start js) addr c pkt.dstChain

theorem mem_populated_iff_bears {configs : List ChainConfig} {id : Bytes} :
    id ∈ populated configs ↔ ∃ c, Bears configs c id := by
  rw [mem_populated]
  rfl

/-- Two positions of one id would be two entries among the populated ones. -/
theorem bears_unique {configs : List ChainConfig} (distinct : (populated configs).Nodup) {c c' : ℕ} {id : Bytes}
    (h : Bears configs c id) (h' : Bears configs c' id) : c = c' := by
  induction configs using List.reverseRecOn with
  | nil =>
    obtain ⟨cfg, hc, -⟩ := h
    simp at hc
  | append_singleton done cfg ih =>
    obtain ⟨once, fresh⟩ := populated_concat_nodup.mp distinct
    obtain ⟨x, hx, some, same⟩ := h
    obtain ⟨x', hx', some', same'⟩ := h'
    rcases getElem?_concat_cases hx with old | ⟨rfl, rfl⟩
    · rcases getElem?_concat_cases hx' with old' | ⟨rfl, rfl⟩
      · exact ih once ⟨x, old, some, same⟩ ⟨x', old', some', same'⟩
      · exact absurd (mem_populated.mpr ⟨c, x, old, some, same.trans same'.symm⟩) (fresh some')
    · rcases getElem?_concat_cases hx' with old' | ⟨rfl, rfl⟩
      · exact absurd (mem_populated.mpr ⟨c', x', old', some', same'.trans same.symm⟩) (fresh some)
      · rfl

theorem Laid.first {relayerCount : ℕ} {configs : List ChainConfig} {s : Sim} (h : Laid opens relayerCount configs s)
    {c : ℕ} {id : Bytes} (bears : Bears configs c id) : ∃ n,
      s.nodes[n]? = some ⟨.new (Sim.nodeName 0) (Sim.addressOf id 0) (opens (nodeStateFile id (Sim.nodeName 0))), c⟩ ∧
        s.transport.endpoints (Sim.addressOf id 0) = some n := by
  obtain ⟨cfg, hc, some, rfl⟩ := bears
  obtain ⟨n, hn⟩ := List.mem_iff_getElem?.mp (h.mem_nodes.mpr ⟨c, cfg, 0, hc, some, rfl⟩)
  exact ⟨n, hn, (h.indexed _ n).mpr ⟨_, hn, rfl⟩⟩

theorem leadsTo {s : Sim} {addr id : Bytes} {n c : ℕ} (endpoint : (wiring s).endpoints addr = some n)
    (home : (wiring s).homes[n]? = some c) (named : (wiring s).ids[c]? = some id) : LeadsTo s addr c id := by
  intro k bytes task
  obtain ⟨node, hn, rfl⟩ := Option.map_eq_some_iff.mp (List.getElem?_map.symm.trans home)
  obtain ⟨b, hb, rfl⟩ := Option.map_eq_some_iff.mp (List.getElem?_map.symm.trans named)
  refine ⟨n, node, b, hn, rfl, hb, rfl, ?_⟩
  have leads : s.transport.endpoints addr = some n := endpoint
  simp only [Sim.deliver, task, leads, hn]

theorem relayPacket_sends {rel : Relayer} {t : Transport} {pkt : IBCPacket} {drops : Drops}
    (sent : (rel.relayPacket t pkt drops).2.ok = true) : ∃ addr bytes, rel.chainAddr pkt.dstChain = some addr ∧
      (rel.relayPacket t pkt drops).1.tasks = t.tasks ++ [(addr, bytes)] := by
  unfold Relayer.relayPacket Relayer.relay at sent ⊢
  cases found : rel.chainAddr pkt.dstChain with
  | none =>
    rw [found] at sent
    exact absurd sent Bool.false_ne_true
  | some addr =>
    simp only [found] at sent ⊢
    split at sent
    · exact absurd sent Bool.false_ne_true
    · rename_i kept
      rw [if_neg kept]
      unfold Transport.send at sent ⊢
      split at sent
      · exact absurd sent Bool.false_ne_true
      · rename_i known
        rw [if_neg known]
        split at sent
        · exact absurd sent Bool.false_ne_true
        · rename_i through
          rw [if_neg through]
          exact ⟨addr, _, rfl, rfl⟩

theorem Laid.addresses {relayerCount : ℕ} {configs : List ChainConfig} {s : Sim} (h : Laid opens relayerCount configs s)
    (few : s.relayers.length ≤ relayerCount) {rel : Relayer} (hrel : rel ∈ s.relayers) (id : Bytes) :
    rel.chainAddr id = if id ∈ populated configs then some (Sim.addressOf id 0) else none := by
  obtain ⟨r, hr⟩ := List.mem_iff_getElem?.mp hrel
  have inside : r < relayerCount := Nat.lt_of_lt_of_le (List.getElem?_eq_some_iff.mp hr).1 few
  rw [← h.mailboxes r inside id, UniqueWiring.mailbox, hr]
  rfl

theorem Laid.known {relayerCount : ℕ} {configs : List ChainConfig} {s : Sim} (h : Laid opens relayerCount configs s)
    (few : s.relayers.length ≤ relayerCount) {rel : Relayer} (hrel : rel ∈ s.relayers) {id addr : Bytes}
    (found : rel.chainAddr id = some addr) : id ∈ populated configs ∧ addr = Sim.addressOf id 0 := by
  rw [h.addresses few hrel] at found
  split at found
  · exact ⟨by assumption, (Option.some.inj found).symm⟩
  · cases found

theorem Laid.leads {relayerCount : ℕ} {configs : List ChainConfig} {s s' : Sim} (h : Laid opens relayerCount configs s)
    (same : wiring s' = wiring s) {c : ℕ} {id : Bytes} (bears : Bears configs c id) :
    LeadsTo s' (Sim.addressOf id 0) c id := by
  obtain ⟨n, hn, endpoint⟩ := h.first bears
  obtain ⟨cfg, hc, -, named⟩ := bears
  apply leadsTo (n := n)
  · rw [same]
    exact endpoint
  · rw [same]
    simp [wiring, hn]
  · rw [same]
    change (s.chains.map _)[c]? = _
    rw [h.ids, List.getElem?_map, hc, ← named]
    rfl

theorem Laid.unambiguous {relayerCount : ℕ} {configs : List ChainConfig} {s : Sim}
    (h : Laid opens relayerCount configs s) (distinct : (populated configs).Nodup)
    (few : s.relayers.length ≤ relayerCount) : Unambiguous configs s := by
  constructor
  · exact fun c c' id => bears_unique distinct
  · intro rel hrel c id bears
    obtain ⟨n, hn, endpoint⟩ := h.first bears
    refine ⟨n, _, hn, rfl, rfl, rfl, endpoint, ?_⟩
    rw [h.addresses few hrel, if_pos (mem_populated_iff_bears.mpr ⟨c, bears⟩)]
    rfl
  · intro rel hrel id nowhere
    rw [h.addresses few hrel, if_neg]
    rw [mem_populated_iff_bears]
    rintro ⟨c, bears⟩
    exact nowhere c bears
  · intro rel hrel rel' hrel' id id' addr found found'
    have first := (h.known few hrel found).2
    have second := (h.known few hrel' found').2
    exact (addressOf_injective (first.symm.trans second)).1
  · intro is rel hrel pkt drops sent
    have kept (js : List SimInput) : wiring (simMachine.final s.start js) = wiring s :=
      (wiring_run s.start js).trans (start_wiring s)
    obtain ⟨addr, bytes, found, tasks⟩ := relayPacket_sends sent
    -- the relayer had its mailboxes when the run began
    have listed : (rel.name, rel.chainAddr) ∈ (wiring s).relayers := by
      rw [← kept is]
      exact List.mem_map.mpr ⟨rel, hrel, rfl⟩
    obtain ⟨rel₀, hrel₀, same⟩ := List.mem_map.mp listed
    rw [← (Prod.mk.inj same).2] at found
    obtain ⟨listed, rfl⟩ := h.known few hrel₀ found
    obtain ⟨c, bears⟩ := mem_populated_iff_bears.mp listed
    exact ⟨c, _, bytes, tasks, bears, fun js => h.leads (kept js) bears⟩

end InterchainCommunication.UniqueWiring
