import InterchainCommunication.TransactionMoves

set_option autoImplicit false

namespace InterchainCommunication.TransactionSteps
open ListUpdates StringText CoreTypes MachineRuns PacketCodec BlockchainModel BlockchainSteps QueueAndBus NodeModel
open NodeText RelayerModel SimulationModel SimulationWiring SimulationSteps UniqueWiring LoopBackCounting
open TransactionWire (IsInt readAs_serialize deserialize_submission)
open TokenTrails TransactionTraffic TransactionMoves DetailedLog

/-- What holds before anything runs. -/
structure Ground (s₀ : Sim) : Prop where
  sound : Sound (wiring s₀)
  indexed : Indexed s₀.transport.endpoints s₀.nodes
  plain : ∀ node ∈ s₀.nodes, pipe ∉ node.node.address

/-- What a run keeps of it. -/
structure Stays (s₀ s : Sim) : Prop where
  wired : wiring s = wiring s₀
  offices : offices s = offices s₀
  ready : Ready s
  inboxes : InboxesOpen s

/-- The node is there, and the transaction gets through the wire format. -/
def Valid (s₀ : Sim) (k : Ticket) : Prop :=
  ∃ node, s₀.nodes[k.sender]? = some node ∧ TransactionWire.Plain node.node.address k.tx ∧ k.tx.type = .regular

def HandsValid (s₀ : Sim) (gens : List Generator) : Prop :=
  ∀ gen ∈ gens, ∀ stage k, gen.hand = some (stage, k) → Valid s₀ k

/-- The input loses a message: in the transport, or by the drop of a send. -/
def Loses : TrafficInput → Prop
  | .sim (.lose _) => True
  | .generator _ _ _ drop => drop = true
  | _ => False

/-- What a step does to the transactions in custody. -/
inductive Progress (desk : ℕ → Bytes × Bytes) (i : TrafficInput) (r r' : TrafficRun) : List Logged → Option Ticket → Prop
  | still (same : ∀ e, copies e (custody r') = copies e (custody r)) (counter : r'.counter = r.counter) :
      Progress desk i r r' [] none
  | moved (st st' : Station) (k : Ticket) (holds : st.holds = true) (apart : st ≠ st')
      (loses : st' = .lost → Loses i) (counter : r'.counter = r.counter)
      (count : ∀ e, copies e (custody r') + copies e [entry st k] =
        copies e (custody r) + copies e ((course desk).kept k.tx.txId (some (st', k))))
      (logged : List Logged) (writes : (life desk k).take st'.lines = (life desk k).take st.lines ++ logged) :
      Progress desk i r r' logged none
  | made (k : Ticket) (id : ∃ now, k.tx.txId = generateTxId now r.counter) (counter : r'.counter = r.counter + 1)
      (count : ∀ e, copies e (custody r') = copies e (custody r) + copies e [entry (.inHand .made) k]) :
      Progress desk i r r' [] (some k)

section Ground
variable {s₀ s : Sim}

theorem office_at (same : offices s = offices s₀) {n : ℕ} {node : SimNode} (hn : s.nodes[n]? = some node) :
    ∃ node₀, s₀.nodes[n]? = some node₀ ∧ node₀.node.nodeId = node.node.nodeId ∧
      node₀.node.address = node.node.address ∧ node₀.chain = node.chain := by
  have both := congrArg (fun l => l[n]?) same
  simp only [offices, List.getElem?_map, hn, Option.map_some] at both
  obtain ⟨node₀, there, parts⟩ := Option.map_eq_some_iff.mp both.symm
  rw [Prod.mk.injEq, Prod.mk.injEq] at parts
  exact ⟨node₀, there, parts.1, parts.2.1, parts.2.2⟩

theorem chainName_eq (s : Sim) (c : ℕ) : Job.chainName s c = ((wiring s).ids[c]?).getD [] := by
  simp only [Job.chainName, wiring, List.getElem?_map]

theorem Stays.desk (stays : Stays s₀ s) : desk s = desk s₀ := by
  funext n
  have names (c : ℕ) : Job.chainName s c = Job.chainName s₀ c := by
    rw [chainName_eq, chainName_eq, stays.wired]
  unfold TransactionMoves.desk
  cases hn : s.nodes[n]? with
  | some node =>
    obtain ⟨node₀, there, name, -, chain⟩ := office_at stays.offices hn
    rw [there]
    dsimp only
    rw [names, name, chain]
  | none =>
    cases hn₀ : s₀.nodes[n]? with
    | none => rfl
    | some node₀ =>
      obtain ⟨node, there, -⟩ := office_at stays.offices.symm hn₀
      rw [hn] at there
      cases there

theorem Stays.indexed (stays : Stays s₀ s) (ground : Ground s₀) : Indexed s.transport.endpoints s.nodes := by
  have endpoints : s.transport.endpoints = s₀.transport.endpoints := congrArg Wiring.endpoints stays.wired
  intro addr n
  rw [endpoints, ground.indexed addr n]
  constructor
  · rintro ⟨node₀, there, rfl⟩
    obtain ⟨node, here, -, address, -⟩ := office_at stays.offices.symm there
    exact ⟨node, here, address⟩
  · rintro ⟨node, there, rfl⟩
    obtain ⟨node₀, here, -, address, -⟩ := office_at stays.offices there
    exact ⟨node₀, here, address⟩

theorem Stays.plain (stays : Stays s₀ s) (ground : Ground s₀) {n : ℕ} {node : SimNode} (hn : s.nodes[n]? = some node) :
    pipe ∉ node.node.address := by
  obtain ⟨node₀, there, -, address, -⟩ := office_at stays.offices hn
  rw [← address]
  exact ground.plain node₀ (List.mem_of_getElem? there)

theorem Stays.sound (stays : Stays s₀ s) (ground : Ground s₀) : Sound (wiring s) := by
  rw [stays.wired]
  exact ground.sound

theorem stays_step (stays : Stays s₀ s) (ground : Ground s₀) (i : SimInput) (once : ∀ k, i ≠ .duplicate k) :
    Stays s₀ (simMachine.step s i).1 ∧ Carriage (desk s₀) i s (simMachine.step s i).1
      (receivedIn s (simMachine.step s i).2.calls i) := by
  have next := step_spec (stays.sound ground) stays.ready i
  obtain ⟨stand, carriage⟩ := step_carries (stays.sound ground) (stays.indexed ground) stays.inboxes i once
  rw [stays.desk] at carriage
  exact ⟨⟨next.wiring.trans stays.wired, stand.offices.trans stays.offices, next.ready, stand.inboxes stays.inboxes⟩,
    carriage⟩

theorem plain_append {a b : Bytes} (first : pipe ∉ a) (second : pipe ∉ b) : pipe ∉ a ++ b := by
  rw [List.mem_append, not_or]
  exact ⟨first, second⟩

theorem pipe_notMem_decimal (n : ℕ) : pipe ∉ decimal n := by
  intro bar
  exact absurd (isDigit_toNat (decimal_isDigit bar)).2 (by decide)

theorem ticket_valid (stays : Stays s₀ s) (ground : Ground s₀) {clock now : ℤ} {counter : UInt64} {job : Job}
    {k : Ticket} (h : job.ticket s clock now counter = some k) :
    Valid s₀ k ∧ k.tx.txId = generateTxId now counter := by
  have good {sender receiver : ℕ} {node other : SimNode} (hn : s.nodes[sender]? = some node)
      (ho : s.nodes[receiver]? = some other) {payload : Bytes} (plain : pipe ∉ payload) :
      Valid s₀ ⟨⟨node.node.address, other.node.address, payload, .regular, generateTxId now counter⟩, sender⟩ := by
    obtain ⟨node₀, there, -, address, -⟩ := office_at stays.offices hn
    refine ⟨node₀, there, ⟨?_, stays.plain ground hn, stays.plain ground ho, plain⟩, rfl⟩
    rw [address]
    exact stays.plain ground hn
  cases job with
  | injected sender receiver i =>
    simp only [Job.ticket, Option.bind_eq_bind, Option.bind_eq_some_iff, Option.pure_def, Option.some.injEq] at h
    obtain ⟨node, hn, other, ho, rfl⟩ := h
    refine ⟨good hn ho ?_, rfl⟩
    refine plain_append (plain_append (plain_append (plain_append (plain_append ?_ (stays.plain ground hn)) ?_)
      (stays.plain ground ho)) ?_) (pipe_notMem_decimal i)
    · decide
    · decide
    · decide
  | random sender receiver =>
    simp only [Job.ticket, Option.bind_eq_bind, Option.bind_eq_some_iff, Option.pure_def, Option.some.injEq] at h
    obtain ⟨node, hn, other, ho, rfl⟩ := h
    exact ⟨good hn ho (plain_append (by decide) (pipe_notMem_intText clock)), rfl⟩
  | injectedPacket | randomPacket => cases h

theorem Stays.addTransaction (stays : Stays s₀ s) {c : ℕ} {b : Blockchain} (hb : s.chains[c]? = some b) (tx : Transaction) :
    Stays s₀ { s with chains := s.chains.set c (b.addTransaction tx) } := by
  obtain ⟨hopen, hids⟩ := stays.ready.chains b (List.mem_of_getElem? hb)
  refine ⟨?_, stays.offices, ⟨?_, stays.ready.relayers⟩, stays.inboxes⟩
  · have ids := set_chainIds hb (.addTransaction tx)
    exact (congrArg (fun ids => { wiring s with ids := ids }) ids).trans stays.wired
  · intro b' hb'
    rcases List.mem_or_eq_of_mem_set hb' with old | rfl
    · exact stays.ready.chains b' old
    · exact ⟨call_allOpen hopen (.addTransaction tx), call_ownIds hopen hids (.addTransaction tx)⟩

/-- The message of a submission carries the transaction to its node. -/
theorem submission_flight (ground : Ground s₀) (stays : Stays s₀ s) {k : Ticket} (good : Valid s₀ k) {node : SimNode}
    (hn : s.nodes[k.sender]? = some node) :
    s.transport.endpoints node.node.address = some k.sender ∧
      flightEntries s.transport.endpoints (node.node.address, node.node.submission k.tx) = [entry .inFlight k] := by
  obtain ⟨node₀, there, plain, regular⟩ := good
  obtain ⟨node₁, there', -, address, -⟩ := office_at stays.offices hn
  rw [there] at there'
  obtain rfl := Option.some.inj there'
  rw [address] at plain
  have leads : s.transport.endpoints node.node.address = some k.sender :=
    (stays.indexed ground _ _).mpr ⟨node, hn, rfl⟩
  have range : IsInt k.tx.type := by
    rw [regular]
    exact ⟨by decide, by decide⟩
  have comes_back : readBack (node.node.submission k.tx) = some k.tx := by
    unfold readBack
    rw [deserialize_submission plain.address]
    exact reads_eq_some.mpr ⟨rfl, readAs_serialize plain range⟩
  refine ⟨leads, ?_⟩
  unfold flightEntries
  dsimp only
  rw [leads, comes_back]
  rfl

end Ground

structure Stepped (s₀ : Sim) (i : TrafficInput) (r : TrafficRun) (next : TrafficRun × TrafficOutput) : Prop where
  stays : Stays s₀ next.1.sim
  valid : HandsValid s₀ next.1.generators
  progress : Progress (desk s₀) i r next.1 next.2.logged next.2.made

section Steps
variable {s₀ : Sim} {r : TrafficRun} {g : ℕ} {gen : Generator}

theorem stepped_nothing (stays : Stays s₀ r.sim) (valid : HandsValid s₀ r.generators) (i : TrafficInput) :
    Stepped s₀ i r (r, .nothing) := ⟨stays, valid, .still (fun _ => rfl) rfl⟩

theorem valid_hold (valid : HandsValid s₀ r.generators) (g : ℕ) {gen' : Generator}
    (held : ∀ stage k, gen'.hand = some (stage, k) → Valid s₀ k) : HandsValid s₀ (r.generators.set g gen') := by
  intro x hx
  rcases List.mem_or_eq_of_mem_set hx with old | rfl
  · exact valid x old
  · exact held

theorem copies_hands (hg : r.generators[g]? = some gen) (gen' : Generator) (e : Bytes × Place) :
    copies e ((r.generators.set g gen').flatMap handEntries) + copies e (handEntries gen) =
      copies e (r.generators.flatMap handEntries) + copies e (handEntries gen') :=
  copies_flatMap_set hg gen' handEntries e

theorem copies_custody (r : TrafficRun) (e : Bytes × Place) :
    copies e (custody r) = copies e (r.generators.flatMap handEntries) + copies e (carried r.sim) := copies_append e _ _

theorem progress_of_carriage {desk : ℕ → Bytes × Bytes} {i : SimInput} {j : TrafficInput} {r' : TrafficRun}
    {logged : List Logged} (carriage : Carriage desk i r.sim r'.sim logged)
    (hands : ∀ e, copies e (r'.generators.flatMap handEntries) = copies e (r.generators.flatMap handEntries))
    (counter : r'.counter = r.counter) (loses : ∀ k, i = .lose k → Loses j) : Progress desk j r r' logged none := by
  cases carriage with
  | still same =>
    refine .still (fun e => ?_) counter
    rw [copies_custody, copies_custody, hands e, same e]
  | moved st st' k way count _ writes =>
    have ends : st.holds = true ∧ st ≠ st' ∧ (st' = .lost → Loses j) := by
      cases way with
      | delivered => exact ⟨rfl, by decide, by rintro ⟨⟩⟩
      | lost k' here => exact ⟨rfl, by decide, fun _ => loses k' here⟩
      | received => exact ⟨rfl, by decide, by rintro ⟨⟩⟩
    refine .moved st st' k ends.1 ends.2.1 ends.2.2 counter (fun e => ?_) logged writes
    have change := count e
    rw [copies_custody, copies_custody, hands e]
    omega

theorem job_sends {s : Sim} {clock : ℤ} {job : Job} {i : SimInput} (send : job.send s clock = some i) :
    ∃ c port chan dstChain dstPort dstChan payload, i = .sendIBC c port chan dstChain dstPort dstChan payload := by
  cases job with
  | injectedPacket | randomPacket =>
    simp only [Job.send, Option.bind_eq_bind, Option.bind_eq_some_iff] at send
    obtain ⟨a, -, b, -, chosen⟩ := send
    split at chosen
    · cases chosen
    · exact ⟨_, _, _, _, _, _, _, (Option.some.inj chosen).symm⟩
  | injected | random => cases send

theorem nextJob_stepped (ground : Ground s₀) (stays : Stays s₀ r.sim) (valid : HandsValid s₀ r.generators)
    (hg : r.generators[g]? = some gen) (free : gen.hand = none) (clock now : ℤ) (drop : Bool) :
    Stepped s₀ (.generator g clock now drop) r (r.nextJob g gen clock now) := by
  have empty : handEntries gen = [] := by
    unfold handEntries
    rw [free]
  -- a turn without a transaction leaves the hand empty
  have hands (rest : List Job) (e : Bytes × Place) :
      copies e ((r.generators.set g { gen with jobs := rest }).flatMap handEntries) =
        copies e (r.generators.flatMap handEntries) := by
    have change := copies_hands hg { gen with jobs := rest } e
    have empty' : handEntries { gen with jobs := rest } = [] := empty
    rw [empty, empty', copies_nil] at change
    exact change
  have valid' (rest : List Job) : HandsValid s₀ (r.generators.set g { gen with jobs := rest }) := by
    refine valid_hold valid g fun stage k held => ?_
    change gen.hand = some (stage, k) at held
    rw [free] at held
    cases held
  unfold TrafficRun.nextJob
  cases gen.jobs with
  | nil => exact stepped_nothing stays valid _
  | cons job rest =>
    dsimp only
    cases made : job.ticket r.sim clock now r.counter with
    | some k =>
      obtain ⟨good, id⟩ := ticket_valid stays ground made
      refine ⟨stays, valid_hold valid g fun stage k' held => ?_, .made k ⟨now, id⟩ rfl fun e => ?_⟩
      · obtain ⟨-, rfl⟩ := Prod.mk.inj (Option.some.inj held)
        exact good
      · have change := copies_hands hg ⟨rest, some (.made, k), job.counted⟩ e
        rw [empty, copies_nil, Nat.add_zero] at change
        rw [copies_custody, copies_custody]
        change copies e ((r.generators.set g _).flatMap handEntries) + copies e (carried r.sim) = _
        rw [change]
        change _ + copies e [entry (.inHand .made) k] + _ = _
        omega
    | none =>
      dsimp only
      cases send : job.send r.sim clock with
      | none =>
        refine ⟨stays, valid' rest, .still (fun e => ?_) rfl⟩
        rw [copies_custody, copies_custody]
        exact congrArg (· + _) (hands rest e)
      | some i =>
        obtain ⟨c, port, chan, dstChain, dstPort, dstChan, payload, rfl⟩ := job_sends send
        obtain ⟨stays', carriage⟩ := stays_step stays ground
          (.sendIBC c port chan dstChain dstPort dstChan payload) fun k => by simp
        exact ⟨stays', valid' rest, progress_of_carriage carriage (hands rest) rfl fun k same => by cases same⟩

theorem progress_inHand {desk : ℕ → Bytes × Bytes} {i : TrafficInput} {r' : TrafficRun} {stage : Stage}
    (stage' : Stage) {k : Ticket} (hg : r.generators[g]? = some gen) (hand : gen.hand = some (stage, k))
    (gens : r'.generators = r.generators.set g { gen with hand := some (stage', k) })
    (same : carried r'.sim = carried r.sim) (counter : r'.counter = r.counter) (apart : stage ≠ stage')
    {logged : List Logged}
    (writes : (life desk k).take (Station.inHand stage').lines = (life desk k).take (Station.inHand stage).lines ++ logged) :
    Progress desk i r r' logged none := by
  refine .moved (.inHand stage) (.inHand stage') k rfl (by simpa using apart) (by rintro ⟨⟩) counter
    (fun e => ?_) logged writes
  have change := copies_hands hg { gen with hand := some (stage', k) } e
  have before : handEntries gen = [entry (.inHand stage) k] := by
    unfold handEntries
    rw [hand]
  have later : handEntries { gen with hand := some (stage', k) } = [entry (.inHand stage') k] := rfl
  have kept : (course desk).kept k.tx.txId (some (.inHand stage', k)) = [entry (.inHand stage') k] := rfl
  rw [before, later] at change
  rw [kept, copies_custody, copies_custody, gens, same]
  omega

theorem progress_sent {desk : ℕ → Bytes × Bytes} {i : TrafficInput} {r' : TrafficRun} (st' : Station) {k : Ticket}
    (hg : r.generators[g]? = some gen) (hand : gen.hand = some (.submitted, k))
    (gens : r'.generators = r.generators.set g { gen with hand := none }) (counter : r'.counter = r.counter)
    (apart : .inHand .submitted ≠ st') (lines : st'.lines = 2) (loses : st' = .lost → Loses i)
    (arrives : ∀ e, copies e (carried r'.sim) =
      copies e (carried r.sim) + copies e ((course desk).kept k.tx.txId (some (st', k)))) :
    Progress desk i r r' [] none := by
  refine .moved (.inHand .submitted) st' k rfl apart loses counter (fun e => ?_) [] ?_
  · have change := copies_hands hg { gen with hand := none } e
    have before : handEntries gen = [entry (.inHand .submitted) k] := by
      unfold handEntries
      rw [hand]
    have later : handEntries { gen with hand := none } = [] := rfl
    rw [before, later, copies_nil] at change
    rw [copies_custody, copies_custody, gens, arrives e]
    omega
  · rw [lines, List.append_nil]
    rfl

theorem handOver_stepped (ground : Ground s₀) (stays : Stays s₀ r.sim) (valid : HandsValid s₀ r.generators)
    (hg : r.generators[g]? = some gen) {stage : Stage} {k : Ticket} (hand : gen.hand = some (stage, k)) {node : SimNode}
    (hn : r.sim.nodes[k.sender]? = some node) {b : Blockchain} (hb : r.sim.chains[node.chain]? = some b)
    (clock now : ℤ) (drop : Bool) :
    Stepped s₀ (.generator g clock now drop) r (r.handOver g gen node b k drop stage) := by
  have good : Valid s₀ k := valid gen (List.mem_of_getElem? hg) stage k hand
  have valid' (stage' : Stage) : HandsValid s₀ (r.generators.set g { gen with hand := some (stage', k) }) := by
    refine valid_hold valid g fun stage'' k' held => ?_
    obtain ⟨-, rfl⟩ := Prod.mk.inj (Option.some.inj held)
    exact good
  have here : desk s₀ k.sender = (b.chainId, node.node.nodeId) := by
    rw [← stays.desk]
    unfold desk
    rw [hn]
    unfold Job.chainName
    dsimp only
    rw [hb]
    rfl
  cases stage with
  | made =>
    refine ⟨stays, valid' .created, ?_⟩
    refine progress_inHand .created hg hand ?_ ?_ ?_ ?_ ?_
    · rfl
    · rfl
    · rfl
    · decide
    · rfl
  | created =>
    refine ⟨stays.addTransaction hb k.tx, valid' .pooled, ?_⟩
    refine progress_inHand .pooled hg hand ?_ ?_ ?_ ?_ ?_
    · rfl
    · rfl
    · rfl
    · decide
    · exact (List.append_nil _).symm
  | pooled =>
    refine ⟨stays, valid' .submitted, ?_⟩
    refine progress_inHand .submitted hg hand ?_ ?_ ?_ ?_ ?_
    · rfl
    · rfl
    · rfl
    · decide
    · unfold life
      rw [here]
      rfl
  | submitted =>
    obtain ⟨leads, flight⟩ := submission_flight ground stays good hn
    have freed : HandsValid s₀ (r.generators.set g { gen with hand := none }) :=
      valid_hold valid g fun stage k' held => by cases held
    have some_there : (r.sim.transport.endpoints node.node.address).isNone = false := by
      rw [leads]
      rfl
    unfold TrafficRun.handOver Transport.send
    rw [some_there]
    dsimp only
    cases drop with
    | true =>
      refine ⟨⟨stays.wired, stays.offices, ⟨stays.ready.chains, stays.ready.relayers⟩, stays.inboxes⟩, freed, ?_⟩
      refine progress_sent .lost hg hand ?_ ?_ ?_ ?_ ?_ ?_
      · rfl
      · rfl
      · decide
      · rfl
      · exact fun _ => rfl
      · exact fun e => rfl
    | false =>
      refine ⟨⟨stays.wired, stays.offices, ⟨stays.ready.chains, stays.ready.relayers⟩, stays.inboxes⟩, freed, ?_⟩
      refine progress_sent .inFlight hg hand ?_ ?_ ?_ ?_ ?_ fun e => ?_
      · rfl
      · rfl
      · decide
      · rfl
      · rintro ⟨⟩
      · have kept : (course (desk s₀)).kept k.tx.txId (some (.inFlight, k)) = [entry .inFlight k] := rfl
        rw [kept]
        change copies e (carried { r.sim with transport := { r.sim.transport with
          tasks := r.sim.transport.tasks ++ [(node.node.address, node.node.submission k.tx)] } }) = _
        unfold carried
        dsimp only
        rw [List.flatMap_append, List.flatMap_singleton, flight, copies_append, copies_append, copies_append]
        omega

theorem run_stepped (ground : Ground s₀) (stays : Stays s₀ r.sim) (valid : HandsValid s₀ r.generators)
    (i : TrafficInput) (once : ∀ k, i ≠ .sim (.duplicate k)) : Stepped s₀ i r (trafficMachine.step r i) := by
  unfold trafficMachine
  dsimp only
  split
  · exact stepped_nothing stays valid i
  · cases i with
    | sim i =>
      obtain ⟨stays', carriage⟩ := stays_step stays ground i fun k same => once k (by rw [same])
      exact ⟨stays', valid, progress_of_carriage carriage (fun _ => rfl) rfl fun k same => by
        rw [same]
        trivial⟩
    | generator g clock now drop =>
      dsimp only
      unfold TrafficRun.generate
      cases hg : r.generators[g]? with
      | none => exact stepped_nothing stays valid _
      | some gen =>
        dsimp only
        cases hand : gen.hand with
        | none => exact nextJob_stepped ground stays valid hg hand clock now drop
        | some held =>
          obtain ⟨stage, k⟩ := held
          dsimp only
          cases hn : r.sim.nodes[k.sender]? with
          | none => exact stepped_nothing stays valid _
          | some node =>
            dsimp only
            cases hb : r.sim.chains[node.chain]? with
            | none => exact stepped_nothing stays valid _
            | some b => exact handOver_stepped ground stays valid hg hand hn hb clock now drop

end Steps

end InterchainCommunication.TransactionSteps
