import InterchainCommunication.RouterConsistency
import InterchainCommunication.WiringRuns

set_option autoImplicit false

namespace InterchainCommunication.ChannelOpening
open ListUpdates StringText CoreTypes MachineRuns BlockchainModel BlockchainSteps RouterConsistency NodeModel NodeSteps
open RelayerModel SimulationModel EventDelivery WiringRuns

structure Opening where
  a : Bytes
  ap : PortId
  ac : ChannelId
  b : Bytes
  bp : PortId
  bc : ChannelId
  deriving DecidableEq

/-- The number of the first chain with the id. -/
def findChain (s : Sim) (id : Bytes) : Option ℕ := s.chains.findIdx? fun b => b.chainId == id

def openIBC (s : Sim) (o : Opening) : Sim × Status × SimOutput :=
  let opening : Effect := .log .info (lit "Opening IBC channel between " ++ o.a ++ lit " and " ++ o.b)
  match findChain s o.a, findChain s o.b with
  | some chainA, some chainB =>
    let first := s.sendIBC chainA (.openChannel o.ap o.ac)
    let second := first.1.sendIBC chainB (.openChannel o.bp o.bc)
    (second.1, ⟨.ok, []⟩,
      ⟨first.2.calls ++ second.2.calls, opening :: first.2.effects ++ second.2.effects⟩)
  | _, _ => (s, ⟨.notFound, lit "One or both chains not found"⟩, ⟨[], [opening]⟩)

/-- What can happen to the simulation: the threads go on, the controller is called, or a
    public method of a chain is. -/
inductive ControllerInput
  | threads (i : SimInput)
  | start
  | openIBC (o : Opening)
  | chain (c : ℕ) (op : ChainOp)
  /-- whatever a stop or a submission makes of everything but the chains -/
  | others (nodes : List SimNode) (relayers : List Relayer) (transport : Transport)

def controller : Machine Sim ControllerInput Unit where
  step s
    | .threads i => ((simMachine.step s i).1, ())
    | .start => (s.start, ())
    | .openIBC o => ((openIBC s o).1, ())
    | .chain c op => ((s.sendIBC c op).1, ())
    | .others nodes relayers transport =>
      ({ s with nodes := nodes, relayers := relayers, transport := transport }, ())

section ChainsOpen

def ChainsOpen (s : Sim) : Prop := ∀ b ∈ s.chains, AllOpen b

theorem chains_react (e : Event) (x : Sim × List Effect) (h : Handler) :
    (Sim.react e x h).1.chains = x.1.chains := by
  cases h with
  | packetSend r => rw [react_packetSend]
  | ackSend r => rw [react_ackSend]

theorem chains_publishAll (s : Sim) (effects : List Effect) : (s.publishAll effects).1.chains = s.chains := by
  refine publishAll_invariant (I := fun x => x.1.chains = s.chains) (fun e x h same => ?_) rfl
  exact (chains_react e x h).trans same

theorem chains_absorb (s : Sim) (c : ℕ) (b : Blockchain) (calls : List (ChainOp × ChainReply)) (effects : List Effect) :
    (s.absorb c b calls effects).1.chains = s.chains.set c b := chains_publishAll _ effects

theorem chains_sendIBC {s : Sim} {c : ℕ} {b : Blockchain} (hb : s.chains[c]? = some b) (op : ChainOp) :
    (s.sendIBC c op).1.chains = s.chains.set c (b.call op).chain ∧
      (s.sendIBC c op).2.calls = [(c, op, (b.call op).ret)] := by
  unfold Sim.sendIBC
  rw [hb]
  exact ⟨chains_absorb s c _ _ _, rfl⟩

theorem chainsOpen_of_chains {s s' : Sim} (h : ChainsOpen s) (same : s'.chains = s.chains) : ChainsOpen s' := by
  rw [ChainsOpen, same]
  exact h

theorem chainsOpen_absorb {s : Sim} (h : ChainsOpen s) (c : ℕ) {b : Blockchain} (hb : AllOpen b)
    (calls : List (ChainOp × ChainReply)) (effects : List Effect) : ChainsOpen (s.absorb c b calls effects).1 := by
  rw [ChainsOpen, chains_absorb]
  intro b' member
  rcases List.mem_or_eq_of_mem_set member with old | rfl
  · exact h b' old
  · exact hb

theorem chainsOpen_sendIBC {s : Sim} (h : ChainsOpen s) (c : ℕ) (op : ChainOp) : ChainsOpen (s.sendIBC c op).1 := by
  unfold Sim.sendIBC
  cases hb : s.chains[c]? with
  | none => exact h
  | some b => exact chainsOpen_absorb h c (call_allOpen (h b (List.mem_of_getElem? hb)) op) _ _

theorem handled_allOpen {b : Blockchain} (hb : AllOpen b) (opens : Bool) (nodeId : Bytes) (msg : NodeMessage) :
    AllOpen (handleMessage opens nodeId b msg).chain := by
  rcases handleMessage_does opens nodeId b msg with idle | ⟨op, -, does⟩
  · rw [idle.chain]
    exact hb
  · rw [does.chain]
    exact call_allOpen hb op

theorem chainsOpen_nodeStep {s : Sim} (h : ChainsOpen s) (n : ℕ) : ChainsOpen (s.nodeStep n).1 := by
  unfold Sim.nodeStep
  cases s.nodes[n]? with
  | none => exact h
  | some node =>
    dsimp only
    cases hb : s.chains[node.chain]? with
    | none => exact h
    | some b =>
      have openB : AllOpen b := h b (List.mem_of_getElem? hb)
      dsimp only
      rcases loopStep_cases node.node b with ⟨msg, rest, -, -, moved⟩ | ⟨w, moved, -⟩
      · rw [moved]
        exact chainsOpen_absorb (s := { s with nodes := s.nodes.set n _ }) h node.chain
          (handled_allOpen openB _ _ msg) _ _
      · rw [moved]
        exact h

theorem chains_forward (s : Sim) (r : ℕ) (half : Relayer → Transport → Relayer × Transport × List Effect) :
    (s.forward r half).1.chains = s.chains := by
  unfold Sim.forward
  split <;> rfl

theorem chainsOpen_step {s : Sim} (h : ChainsOpen s) (i : SimInput) : ChainsOpen (simMachine.step s i).1 := by
  change ChainsOpen (if s.crashed then (s, (⟨[], []⟩ : SimOutput)) else s.act i).1
  split
  · exact h
  · cases i with
    | sendIBC c port chan dstChain dstPort dstChan payload => exact chainsOpen_sendIBC h c _
    | forwardPacket r drops | forwardAck r drops => exact chainsOpen_of_chains h (chains_forward s r _)
    | deliver k => exact chainsOpen_of_chains h (chains_deliver s k)
    | nodeStep n => exact chainsOpen_nodeStep h n
    | lose | duplicate => exact h

theorem chainsOpen_openIBC {s : Sim} (h : ChainsOpen s) (o : Opening) : ChainsOpen (openIBC s o).1 := by
  unfold openIBC
  split
  · exact chainsOpen_sendIBC (chainsOpen_sendIBC h _ _) _ _
  · exact h

theorem chainsOpen_connect {s : Sim} (h : ChainsOpen s) (id mailbox : Bytes) (rs : List ℕ) :
    ChainsOpen (rs.foldl (Sim.connectRelayer id mailbox) s) := by
  induction rs generalizing s with
  | nil => exact h
  | cons r rs ih =>
    refine ih (chainsOpen_of_chains h ?_)
    unfold Sim.connectRelayer
    dsimp only
    split <;> rfl

theorem chainsOpen_addNode {opens : Bytes → Bool} {id : Bytes} {i : ℕ} {s s' : Sim} (h : ChainsOpen s)
    (added : Sim.addNode opens id s i = .ok s') : ChainsOpen s' := by
  unfold Sim.addNode at added
  dsimp only at added
  split at added
  · obtain rfl := Except.ok.inj added
    intro b member
    rcases mem_modify member with old | ⟨b₀, old, rfl⟩
    · exact h b old
    · exact call_allOpen (h b₀ old) (.registerNodeId (Sim.nodeName i))
  · cases added

theorem chainsOpen_addChain {opens : Bytes → Bool} {relayerCount : ℕ} {cfg : ChainConfig} {s s' : Sim} (h : ChainsOpen s)
    (added : Sim.addChain opens relayerCount s cfg = .ok s') : ChainsOpen s' := by
  have start : ChainsOpen { s with chains := s.chains ++ [.new cfg.chainId] } := by
    intro b member
    rcases List.mem_append.mp member with old | new
    · exact h b old
    · rw [List.mem_singleton.mp new]
      exact allOpen_new cfg.chainId
  rw [Sim.addChain] at added
  cases nodes : (List.range cfg.nodeCount).foldlM (Sim.addNode opens cfg.chainId)
      { s with chains := s.chains ++ [.new cfg.chainId] } with
  | error e =>
    rw [nodes] at added
    cases added
  | ok s₁ =>
    have kept : ChainsOpen s₁ := foldlM_keeps (fun _ _ _ _ added => fun h => chainsOpen_addNode h added) nodes start
    rw [nodes] at added
    by_cases none : cfg.nodeCount = 0
    · simp only [none, if_true] at added
      obtain rfl := Except.ok.inj added
      exact kept
    · simp only [none, if_false] at added
      obtain rfl := Except.ok.inj added
      exact chainsOpen_connect kept _ _ _

theorem chainsOpen_init {opens : Bytes → Bool} {relayerCount : ℕ} {configs : List ChainConfig} {s : Sim}
    (built : Sim.init opens relayerCount configs = .ok s) : ChainsOpen s :=
  foldlM_keeps (P := ChainsOpen) (fun _ _ _ _ added => fun h => chainsOpen_addChain h added) built
    fun _ member => absurd member List.not_mem_nil

theorem chainsOpen_final {s : Sim} (h : ChainsOpen s) (is : List ControllerInput) :
    ChainsOpen (controller.final s is) := by
  refine controller.invariant is h fun s' i _ h => ?_
  cases i with
  | threads i => exact chainsOpen_step h i
  | start => exact h
  | openIBC o => exact chainsOpen_openIBC h o
  | chain c op => exact chainsOpen_sendIBC h c op
  | others => exact h

end ChainsOpen

def boundAt (s : Sim) (id : Bytes) (port : PortId) (chan : ChannelId) : Bool :=
  (findChain s id).any fun c => s.chains[c]?.any fun b => b.router.isBound port chan

/-- The call reports Ok exactly when both chains exist and both opens did, and otherwise no
    router and no channel table has changed. -/
def AllOrNothing (s : Sim) (o : Opening) : Prop :=
  let opened := openIBC s o
  (opened.2.1.ok = true ↔
    (findChain s o.a).isSome ∧ (findChain s o.b).isSome ∧ ∀ call ∈ opened.2.2.calls, call.2.2.ok = true) ∧
  (opened.2.1.ok = false →
    opened.1.chains.map (fun b => (b.router, b.channels)) = s.chains.map fun b => (b.router, b.channels))

/-- A chain is missing, or both ends are free. -/
def Openable (s : Sim) (o : Opening) : Prop :=
  findChain s o.a = none ∨ findChain s o.b = none ∨
    boundAt s o.a o.ap o.ac = false ∧ boundAt s o.b o.bp o.bc = false ∧
      ¬ (o.a = o.b ∧ o.ap = o.bp ∧ o.ac = o.bc)

instance (s : Sim) (o : Opening) : Decidable (Openable s o) :=
  inferInstanceAs (Decidable (_ ∨ _ ∨ _ ∧ _ ∧ ¬ _))

theorem findChain_some {s : Sim} {id : Bytes} {c : ℕ} (found : findChain s id = some c) :
    ∃ b, s.chains[c]? = some b ∧ b.chainId = id := by
  obtain ⟨inside, matched, -⟩ := List.findIdx?_eq_some_iff_getElem.mp found
  exact ⟨s.chains[c], List.getElem?_eq_getElem inside, by simpa using matched⟩

theorem boundAt_found {s : Sim} {id : Bytes} {c : ℕ} {b : Blockchain} (found : findChain s id = some c)
    (hb : s.chains[c]? = some b) (port : PortId) (chan : ChannelId) :
    boundAt s id port chan = b.router.isBound port chan := by
  rw [boundAt, found, Option.any_some, hb, Option.any_some]

theorem openIBC_missing {s : Sim} {o : Opening} (missing : findChain s o.a = none ∨ findChain s o.b = none) :
    (openIBC s o).1 = s ∧ (openIBC s o).2.1 = ⟨.notFound, lit "One or both chains not found"⟩ := by
  unfold openIBC
  split
  · rename_i foundA foundB
    rcases missing with none | none
    · rw [none] at foundA
      cases foundA
    · rw [none] at foundB
      cases foundB
  · exact ⟨rfl, rfl⟩

theorem opens_twice {b : Blockchain} (h : AllOpen b) (ap bp : PortId) (ac bc : ChannelId) :
    ((b.call (.openChannel ap ac)).ret.ok = true ∧
      ((b.call (.openChannel ap ac)).chain.call (.openChannel bp bc)).ret.ok = true) ↔
    b.router.isBound ap ac = false ∧ b.router.isBound bp bc = false ∧ ¬ (ap = bp ∧ ac = bc) := by
  have first : (b.call (.openChannel ap ac)).ret.ok = !b.router.isBound ap ac := openChannel_ok h ap ac
  have second : ((b.call (.openChannel ap ac)).chain.call (.openChannel bp bc)).ret.ok =
      !(b.call (.openChannel ap ac)).chain.router.isBound bp bc := openChannel_ok (call_allOpen h _) bp bc
  have between : (b.call (.openChannel ap ac)).chain.router.isBound bp bc = true ↔
      b.router.isBound bp bc = true ∨ (bp = ap ∧ bc = ac) := call_isBound h (.openChannel ap ac) bp bc
  have flip : (bp = ap ∧ bc = ac) ↔ (ap = bp ∧ ac = bc) := and_congr eq_comm eq_comm
  have free : (b.call (.openChannel ap ac)).chain.router.isBound bp bc = false ↔
      b.router.isBound bp bc = false ∧ ¬ (ap = bp ∧ ac = bc) := by
    rw [← Bool.not_eq_true, between, not_or, Bool.not_eq_true, flip]
  rw [first, second, Bool.not_eq_true', Bool.not_eq_true', free]

theorem openIBC_found {s : Sim} (h : ChainsOpen s) {o : Opening} {chainA chainB : ℕ}
    (foundA : findChain s o.a = some chainA) (foundB : findChain s o.b = some chainB) :
    (openIBC s o).2.1 = ⟨.ok, []⟩ ∧
      ((∀ call ∈ (openIBC s o).2.2.calls, call.2.2.ok = true) ↔
        boundAt s o.a o.ap o.ac = false ∧ boundAt s o.b o.bp o.bc = false ∧
          ¬ (o.a = o.b ∧ o.ap = o.bp ∧ o.ac = o.bc)) := by
  obtain ⟨bA, hA, idA⟩ := findChain_some foundA
  obtain ⟨bB, hB, idB⟩ := findChain_some foundB
  have openA : AllOpen bA := h bA (List.mem_of_getElem? hA)
  obtain ⟨after, firstCalls⟩ := chains_sendIBC hA (.openChannel o.ap o.ac)
  rw [boundAt_found foundA hA, boundAt_found foundB hB]
  simp only [openIBC, foundA, foundB, true_and]
  by_cases same : chainA = chainB
  · subst same
    obtain rfl : bA = bB := Option.some.inj (hA.symm.trans hB)
    have ids : o.a = o.b := idA.symm.trans idB
    have inside : chainA < s.chains.length := (List.getElem?_eq_some_iff.mp hA).1
    have between : (s.sendIBC chainA (.openChannel o.ap o.ac)).1.chains[chainA]? =
        some (bA.call (.openChannel o.ap o.ac)).chain := by
      rw [after, List.getElem?_set_self inside]
    obtain ⟨-, secondCalls⟩ := chains_sendIBC between (.openChannel o.bp o.bc)
    rw [firstCalls, secondCalls]
    have twice := opens_twice openA o.ap o.bp o.ac o.bc
    simpa [ids] using twice
  · have otherIds : o.a ≠ o.b := by
      intro ids
      rw [ids, foundB] at foundA
      exact same (Option.some.inj foundA).symm
    have between : (s.sendIBC chainA (.openChannel o.ap o.ac)).1.chains[chainB]? = some bB := by
      rw [after, List.getElem?_set_ne same, hB]
    obtain ⟨-, secondCalls⟩ := chains_sendIBC between (.openChannel o.bp o.bc)
    have answerA : (bA.call (.openChannel o.ap o.ac)).ret.ok = !bA.router.isBound o.ap o.ac :=
      openChannel_ok openA _ _
    have answerB : (bB.call (.openChannel o.bp o.bc)).ret.ok = !bB.router.isBound o.bp o.bc :=
      openChannel_ok (h bB (List.mem_of_getElem? hB)) _ _
    rw [firstCalls, secondCalls]
    simp [answerA, answerB, otherIds]

theorem allOrNothing_iff {s : Sim} (h : ChainsOpen s) (o : Opening) : AllOrNothing s o ↔ Openable s o := by
  cases foundA : findChain s o.a with
  | none =>
    obtain ⟨same, status⟩ := openIBC_missing (o := o) (.inl foundA)
    have failed : (openIBC s o).2.1.ok = false := by
      rw [status]
      rfl
    refine iff_of_true ⟨?_, fun _ => by rw [same]⟩ (.inl foundA)
    rw [failed, foundA]
    simp
  | some chainA =>
    cases foundB : findChain s o.b with
    | none =>
      obtain ⟨same, status⟩ := openIBC_missing (o := o) (.inr foundB)
      have failed : (openIBC s o).2.1.ok = false := by
        rw [status]
        rfl
      refine iff_of_true ⟨?_, fun _ => by rw [same]⟩ (.inr (.inl foundB))
      rw [failed, foundB]
      simp
    | some chainB =>
      obtain ⟨status, answers⟩ := openIBC_found h foundA foundB
      have ok : (openIBC s o).2.1.ok = true := by
        rw [status]
        rfl
      have free : Openable s o ↔ boundAt s o.a o.ap o.ac = false ∧ boundAt s o.b o.bp o.bc = false ∧
          ¬ (o.a = o.b ∧ o.ap = o.bp ∧ o.ac = o.bc) := by
        simp [Openable, foundA, foundB]
      rw [free, ← answers]
      simp [AllOrNothing, ok, foundA, foundB]

/-- In every state of a run, opening is all or nothing for the openings that find both pairs
    free or a chain missing, and for no others. -/
theorem openIBC_all_or_nothing_iff {opens : Bytes → Bool} {relayerCount : ℕ} {configs : List ChainConfig} {s : Sim}
    (built : Sim.init opens relayerCount configs = .ok s) (is : List ControllerInput) (o : Opening) :
    AllOrNothing (controller.final s is) o ↔ Openable (controller.final s is) o :=
  allOrNothing_iff (chainsOpen_final (chainsOpen_init built) is) o

def twoChains : List ChainConfig := [⟨lit "A", 1⟩, ⟨lit "B", 1⟩]

def pairedWith (bc : String) : Opening := ⟨lit "A", ⟨lit "p"⟩, ⟨lit "c"⟩, lit "B", ⟨lit "q"⟩, ⟨lit bc⟩⟩

def afterInit : Sim := (Sim.init (fun _ => true) 1 twoChains).toOption.getD .empty

theorem openIBC_fresh : AllOrNothing (controller.final afterInit [.start]) (pairedWith "d") :=
  (@openIBC_all_or_nothing_iff (fun _ => true) 1 twoChains afterInit rfl [.start] (pairedWith "d")).mpr (by decide +kernel)

theorem openIBC_half_done : ¬ ∀ (opens : Bytes → Bool) (relayerCount : ℕ) (configs : List ChainConfig) (s : Sim)
    (is : List ControllerInput) (o : Opening), Sim.init opens relayerCount configs = .ok s →
      AllOrNothing (controller.final s is) o := by
  intro h
  have half := h (fun _ => true) 1 twoChains afterInit [.openIBC (pairedWith "d")] (pairedWith "e") rfl
  have calls := (half.1.mp (by decide +kernel)).2.2
  exact absurd calls (by decide +kernel)

end InterchainCommunication.ChannelOpening
