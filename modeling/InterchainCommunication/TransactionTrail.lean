import InterchainCommunication.AuditTrail
import InterchainCommunication.SharedLog
import InterchainCommunication.TransactionSteps

set_option autoImplicit false

namespace InterchainCommunication.TransactionTrail
open StringText CoreTypes MachineRuns PacketCodec BlockchainModel NodeModel SimulationModel SimulationWiring SimulationSteps
open UniqueWiring TokenTrails TransactionTraffic TransactionMoves TransactionSteps
open JsonGrammar JsonReading DetailedLog LogFiles SharedLog
open EventLog (memberUnless member_transactionEntries transactionMembers)
open AuditTrail (field text)
open AckSoundness (twoChains)

theorem generateTxId_counter {now now' : ℤ} {c c' : UInt64} (h : generateTxId now c = generateTxId now' c') : c = c' := by
  have plain (c : UInt64) : (95 : UInt8) ∉ (decimal c.toNat).reverse := by
    rw [List.mem_reverse]
    intro bar
    exact absurd (isDigit_toNat (decimal_isDigit bar)).2 (by decide)
  have back (now : ℤ) (c : UInt64) : cut 95 (generateTxId now c).reverse =
      some ((decimal c.toNat).reverse, (lit "tx_" ++ intText now).reverse) := by
    refine cut_eq_some.mpr ⟨?_, plain c⟩
    simp only [generateTxId, List.reverse_append, List.append_assoc]
    rfl
  have parts := back now c
  rw [h, back now' c', Option.some.injEq, Prod.mk.injEq, List.reverse_inj] at parts
  exact UInt64.toNat_inj.mp (decimal_injective parts.1.symm)

theorem numbers_differ {now now' : ℤ} {i j : ℕ} (hi : i < 2 ^ 64) (hj : j < 2 ^ 64)
    (h : generateTxId now (UInt64.ofNat i) = generateTxId now' (UInt64.ofNat j)) : i = j := by
  have same := congrArg UInt64.toNat (generateTxId_counter h)
  rw [UInt64.toNat_ofNat', UInt64.toNat_ofNat', Nat.mod_eq_of_lt hi, Nat.mod_eq_of_lt hj] at same
  exact same

/-- Every transaction that was made is at a place, under an id of its own, and no other is. -/
structure Trailing (s₀ : Sim) (r : TrafficRun) (t : List (TrafficInput × TrafficOutput)) (place : Bytes → Place) :
    Prop where
  stays : Stays s₀ r.sim
  valid : HandsValid s₀ r.generators
  counter : r.counter = UInt64.ofNat (madeIn t).length
  numbered : ∀ j k, (madeIn t)[j]? = some k → ∃ now, k.tx.txId = generateTxId now (UInt64.ofNat j)
  tracked : Tracked (course (desk s₀)) place (custody r) (loggedIn t)
  placed : ∀ k ∈ madeIn t, ∃ st, place k.tx.txId = some (st, k)
  born : ∀ id st k, place id = some (st, k) → k ∈ madeIn t ∧ k.tx.txId = id
  safe : (∀ e ∈ t, ¬ Loses e.1) → ∀ id k, place id ≠ some (.lost, k)

section Steps
variable {s₀ : Sim} {r : TrafficRun} {t : List (TrafficInput × TrafficOutput)} {place : Bytes → Place}

theorem madeIn_concat (t : List (TrafficInput × TrafficOutput)) (i : TrafficInput) (out : TrafficOutput) :
    madeIn (t ++ [(i, out)]) = madeIn t ++ out.made.toList := by
  unfold madeIn
  rw [List.filterMap_append]
  cases made : out.made <;> simp [made]

theorem loggedIn_concat (t : List (TrafficInput × TrafficOutput)) (i : TrafficInput) (out : TrafficOutput) :
    loggedIn (t ++ [(i, out)]) = loggedIn t ++ out.logged := by
  simp [loggedIn]

theorem mem_life {desk : ℕ → Bytes × Bytes} {k : Ticket} {e : Logged} (h : e ∈ life desk k) : e.txId = k.tx.txId := by
  simp only [life, List.mem_cons, List.not_mem_nil, or_false] at h
  rcases h with rfl | rfl | rfl <;> rfl

theorem Trailing.fresh (h : Trailing s₀ r t place) {k : Ticket} {now : ℤ} (id : k.tx.txId = generateTxId now r.counter)
    (few : (madeIn t).length < 2 ^ 64) : place k.tx.txId = none := by
  cases there : place k.tx.txId with
  | none => rfl
  | some found =>
    obtain ⟨st, k'⟩ := found
    obtain ⟨member, same⟩ := h.born _ _ _ there
    obtain ⟨j, at_j⟩ := List.mem_iff_getElem?.mp member
    obtain ⟨now', number⟩ := h.numbered j k' at_j
    have inside : j < (madeIn t).length := (List.getElem?_eq_some_iff.mp at_j).1
    rw [same, id, h.counter] at number
    have equal := numbers_differ few (inside.trans few) number
    omega

theorem Trailing.moves (h : Trailing s₀ r t place) {r' : TrafficRun} (stays : Stays s₀ r'.sim)
    (valid : HandsValid s₀ r'.generators) (i : TrafficInput) (effects : List Effect) {st st' : Station}
    {k : Ticket} (holds : st.holds = true) (apart : st ≠ st') (loses : st' = .lost → Loses i)
    (counter : r'.counter = r.counter)
    (count : ∀ e, copies e (custody r') + copies e [entry st k] =
      copies e (custody r) + copies e ((course (desk s₀)).kept k.tx.txId (some (st', k))))
    {logged : List Logged} (writes : (life (desk s₀) k).take st'.lines = (life (desk s₀) k).take st.lines ++ logged) :
    Trailing s₀ r' (t ++ [(i, ⟨effects, logged, none⟩)]) (Function.update place k.tx.txId (some (st', k))) := by
  have made : madeIn (t ++ [(i, ⟨effects, logged, none⟩)]) = madeIn t := by
    rw [madeIn_concat]
    exact List.append_nil _
  have different : some (st, k) ≠ some (st', k) := fun same => apart (Prod.mk.inj (Option.some.inj same)).1
  have was : place k.tx.txId = some (st, k) := h.tracked.was_at holds different count
  have about : ∀ e ∈ logged, (course (desk s₀)).key e = k.tx.txId := by
    intro e member
    have later : e ∈ (life (desk s₀) k).take st'.lines := by
      rw [writes]
      exact List.mem_append_right _ member
    exact mem_life (List.mem_of_mem_take later)
  constructor
  · exact stays
  · exact valid
  · rw [made, counter, h.counter]
  · rw [made]
    exact h.numbered
  · rw [loggedIn_concat]
    refine h.tracked.moves (some (st', k)) (fun e => ?_) ?_ about
    · have kept : (course (desk s₀)).kept k.tx.txId (some (st, k)) = [entry st k] := if_pos holds
      rw [was, kept]
      exact count e
    · rw [was]
      exact writes
  · intro k' member
    rw [made] at member
    obtain ⟨old, there⟩ := h.placed k' member
    by_cases same : k'.tx.txId = k.tx.txId
    · rw [same, was, Option.some.injEq, Prod.mk.injEq] at there
      exact ⟨st', by rw [← there.2, Function.update_self]⟩
    · exact ⟨old, by rw [Function.update_of_ne same, there]⟩
  · intro id st'' k' there
    rw [made]
    by_cases same : id = k.tx.txId
    · subst same
      rw [Function.update_self, Option.some.injEq, Prod.mk.injEq] at there
      rw [← there.2]
      exact h.born _ _ _ was
    · rw [Function.update_of_ne same] at there
      exact h.born _ _ _ there
  · intro kept id k' there
    have before : ∀ e ∈ t, ¬ Loses e.1 := fun e he => kept e (List.mem_append_left _ he)
    by_cases same : id = k.tx.txId
    · subst same
      rw [Function.update_self, Option.some.injEq, Prod.mk.injEq] at there
      exact kept _ (List.mem_append_right t (List.mem_singleton_self _)) (loses there.1)
    · rw [Function.update_of_ne same] at there
      exact h.safe before id k' there

theorem Trailing.makes (h : Trailing s₀ r t place) {r' : TrafficRun} (stays : Stays s₀ r'.sim)
    (valid : HandsValid s₀ r'.generators) (i : TrafficInput) (effects : List Effect) {k : Ticket} {now : ℤ}
    (id : k.tx.txId = generateTxId now r.counter) (counter : r'.counter = r.counter + 1)
    (count : ∀ e, copies e (custody r') = copies e (custody r) + copies e [entry (.inHand .made) k])
    (few : (madeIn t).length < 2 ^ 64) :
    Trailing s₀ r' (t ++ [(i, ⟨effects, [], some k⟩)])
      (Function.update place k.tx.txId (some (.inHand .made, k))) := by
  have made : madeIn (t ++ [(i, ⟨effects, [], some k⟩)]) = madeIn t ++ [k] := madeIn_concat t i _
  have fresh := h.fresh id few
  constructor
  · exact stays
  · exact valid
  · rw [made, counter, h.counter, List.length_append, List.length_singleton, UInt64.ofNat_add]
    rfl
  · intro j k' at_j
    rw [made] at at_j
    rcases Nat.lt_or_ge j (madeIn t).length with inside | past
    · rw [List.getElem?_append_left inside] at at_j
      exact h.numbered j k' at_j
    · rw [List.getElem?_append_right past] at at_j
      obtain ⟨within, same⟩ := List.getElem?_eq_some_iff.mp at_j
      have last : j = (madeIn t).length := by
        rw [List.length_singleton] at within
        omega
      subst last
      refine ⟨now, ?_⟩
      rw [← h.counter, ← id, ← same]
      simp
  · rw [loggedIn_concat]
    refine h.tracked.moves (some (.inHand .made, k)) (fun e => ?_) ?_ (by simp)
    · have none_kept : (course (desk s₀)).kept k.tx.txId none = [] := rfl
      rw [fresh, none_kept, copies_nil]
      exact count e
    · rw [fresh]
      rfl
  · intro k' member
    rw [made, List.mem_append, List.mem_singleton] at member
    rcases member with old | rfl
    · obtain ⟨st, there⟩ := h.placed k' old
      have other : k'.tx.txId ≠ k.tx.txId := by
        intro same
        rw [same, fresh] at there
        cases there
      exact ⟨st, by rw [Function.update_of_ne other, there]⟩
    · exact ⟨_, Function.update_self ..⟩
  · intro id' st k' there
    rw [made, List.mem_append, List.mem_singleton]
    by_cases same : id' = k.tx.txId
    · subst same
      rw [Function.update_self, Option.some.injEq, Prod.mk.injEq] at there
      exact ⟨.inr there.2.symm, by rw [there.2]⟩
    · rw [Function.update_of_ne same] at there
      obtain ⟨member, key⟩ := h.born _ _ _ there
      exact ⟨.inl member, key⟩
  · intro kept id' k' there
    by_cases same : id' = k.tx.txId
    · subst same
      rw [Function.update_self] at there
      cases there
    · rw [Function.update_of_ne same] at there
      exact h.safe (fun e he => kept e (List.mem_append_left _ he)) id' k' there

theorem Trailing.still (h : Trailing s₀ r t place) {r' : TrafficRun} (stays : Stays s₀ r'.sim)
    (valid : HandsValid s₀ r'.generators) (i : TrafficInput) (effects : List Effect)
    (counter : r'.counter = r.counter) (same : ∀ e, copies e (custody r') = copies e (custody r)) :
    Trailing s₀ r' (t ++ [(i, ⟨effects, [], none⟩)]) place := by
  have made : madeIn (t ++ [(i, ⟨effects, [], none⟩)]) = madeIn t := by
    rw [madeIn_concat]
    exact List.append_nil _
  constructor
  · exact stays
  · exact valid
  · rw [made, counter, h.counter]
  · rw [made]
    exact h.numbered
  · rw [loggedIn_concat, List.append_nil]
    exact h.tracked.same same
  · rw [made]
    exact h.placed
  · rw [made]
    exact h.born
  · exact fun kept => h.safe fun e he => kept e (List.mem_append_left _ he)

theorem trailing_step (h : Trailing s₀ r t place) {i : TrafficInput} {next : TrafficRun × TrafficOutput}
    (stepped : Stepped s₀ i r next) (few : (madeIn (t ++ [(i, next.2)])).length ≤ 2 ^ 64) :
    ∃ place', Trailing s₀ next.1 (t ++ [(i, next.2)]) place' := by
  obtain ⟨r', effects, logged, made⟩ := next
  obtain ⟨stays, valid, progress⟩ := stepped
  dsimp only at stays valid progress few ⊢
  cases progress with
  | still same counter => exact ⟨place, h.still stays valid i effects counter same⟩
  | moved st st' k holds apart loses counter count _ writes =>
    exact ⟨_, h.moves stays valid i effects holds apart loses counter count writes⟩
  | made k id counter count =>
    obtain ⟨now, id⟩ := id
    have room : (madeIn t).length < 2 ^ 64 := by
      rw [madeIn_concat, List.length_append] at few
      exact few
    exact ⟨_, h.makes stays valid i effects id counter count room⟩

theorem trailing_begun (stays : Stays s₀ s₀.start) (empty : carried s₀.start = []) (plans : List (List Job)) :
    Trailing s₀ (begun s₀ plans) [] fun _ => none := by
  have hands : ∀ gen ∈ (begun s₀ plans).generators, gen.hand = none := by
    intro gen member
    obtain ⟨jobs, -, rfl⟩ := List.mem_map.mp member
    rfl
  have nothing : custody (begun s₀ plans) = [] := by
    refine List.append_eq_nil_iff.mpr ⟨List.flatMap_eq_nil_iff.mpr fun gen member => ?_, empty⟩
    unfold handEntries
    rw [hands gen member]
  constructor
  · exact stays
  · intro gen member stage k held
    rw [hands gen member] at held
    cases held
  · rfl
  · intro j k at_j
    cases at_j
  · rw [nothing]
    refine ⟨fun k p holds => ?_, fun k => rfl⟩
    rw [copies_nil, if_neg]
    rintro rfl
    cases holds
  · intro k member
    cases member
  · intro id st k there
    cases there
  · intro kept id k there
    cases there

/-- While the numbers last, every transaction is at a place. -/
theorem run_trailing (ground : Ground s₀) (stays : Stays s₀ s₀.start) (empty : carried s₀.start = [])
    (plans : List (List Job)) (is : List TrafficInput) (once : ∀ k, .sim (.duplicate k) ∉ is)
    (few : (madeIn (trafficMachine.trace (begun s₀ plans) is)).length ≤ 2 ^ 64) :
    ∃ place, Trailing s₀ (trafficMachine.final (begun s₀ plans) is) (trafficMachine.trace (begun s₀ plans) is) place := by
  refine trafficMachine.history_invariant
    (I := fun r t => (madeIn t).length ≤ 2 ^ 64 → ∃ place, Trailing s₀ r t place) is
    (fun _ => ⟨_, trailing_begun stays empty plans⟩) (fun r t i member h room => ?_) few
  have earlier : (madeIn t).length ≤ 2 ^ 64 := by
    rw [madeIn_concat, List.length_append] at room
    omega
  obtain ⟨place, trailing⟩ := h earlier
  have single : ∀ k, i ≠ .sim (.duplicate k) := by
    rintro k rfl
    exact once k member
  exact trailing_step trailing (run_stepped ground trailing.stays trailing.valid i single) room

end Steps

section Trails
variable {s₀ : Sim} {r : TrafficRun} {t : List (TrafficInput × TrafficOutput)} {place : Bytes → Place}

theorem Trailing.ids_nodup (h : Trailing s₀ r t place) (few : (madeIn t).length ≤ 2 ^ 64) :
    ((madeIn t).map fun k => k.tx.txId).Nodup := by
  rw [List.Nodup, List.pairwise_iff_getElem]
  intro i j hi hj before same
  rw [List.length_map] at hi hj
  rw [List.getElem_map, List.getElem_map] at same
  obtain ⟨now, one⟩ := h.numbered i _ (List.getElem?_eq_getElem hi)
  obtain ⟨now', other⟩ := h.numbered j _ (List.getElem?_eq_getElem hj)
  rw [one, other] at same
  have equal := numbers_differ (by omega) (by omega) same
  omega

theorem Trailing.lines (h : Trailing s₀ r t place) {k : Ticket} (made : k ∈ madeIn t) :
    ∃ st, place k.tx.txId = some (st, k) ∧
      (loggedIn t).filter (fun e => e.txId = k.tx.txId) = (life (desk s₀) k).take st.lines := by
  obtain ⟨st, there⟩ := h.placed k made
  refine ⟨st, there, ?_⟩
  have wrote := h.tracked.wrote k.tx.txId
  rw [there] at wrote
  exact wrote

theorem Trailing.about (h : Trailing s₀ r t place) {e : Logged} (logged : e ∈ loggedIn t) :
    ∃ k ∈ madeIn t, e ∈ life (desk s₀) k := by
  have wrote := h.tracked.wrote e.txId
  have member : e ∈ (course (desk s₀)).trail e.txId (place e.txId) := by
    rw [← wrote]
    exact List.mem_filter.mpr ⟨logged, decide_eq_true rfl⟩
  cases there : place e.txId with
  | none =>
    rw [there] at member
    cases member
  | some found =>
    obtain ⟨st, k⟩ := found
    rw [there] at member
    exact ⟨k, (h.born _ _ _ there).1, List.mem_of_mem_take member⟩

/-- Nothing on its way and nothing lost: what was made was received. -/
theorem Trailing.complete (h : Trailing s₀ r t place) (kept : ∀ e ∈ t, ¬ Loses e.1) (rest : custody r = [])
    {k : Ticket} (made : k ∈ madeIn t) :
    (loggedIn t).filter (fun e => e.txId = k.tx.txId) = life (desk s₀) k := by
  obtain ⟨st, there, lines⟩ := h.lines made
  have nowhere : st.holds = false := by
    cases holds : st.holds with
    | false => rfl
    | true =>
      have counted := h.tracked.once k.tx.txId (some (st, k)) holds
      rw [rest, copies_nil, if_pos there] at counted
      cases counted
  rw [lines]
  cases st with
  | received => rfl
  | lost => exact absurd there (h.safe kept _ _)
  | inHand | inFlight | inInbox => cases nowhere

end Trails

section File

def ofName (name : Bytes) : Option TxEvent :=
  [.created, .submitted, .received].find? fun event => event.type.name = name

/-- The last two members may be left out. -/
def readLogged (v : Json) : Option Logged := do
  let event ← (field (lit "event") v).bind text
  return {
    event := ← ofName event
    txId := ← (field (lit "tx_id") v).bind text
    txType := ← (field (lit "tx_type") v).bind text
    «from» := ← (field (lit "from") v).bind text
    «to» := ← (field (lit "to") v).bind text
    payload := ← (field (lit "payload") v).bind text
    chainId := ((field (lit "chain_id") v).bind text).getD []
    nodeId := ((field (lit "node_id") v).bind text).getD [] }

def callOf (now : Bytes) (e : Logged) : LoggerCall :=
  .transaction now e.event.type e.txId e.txType e.from e.to e.payload e.chainId e.nodeId 0

def loggedOf : LoggerCall → Option Logged
  | .transaction _ event txId txType «from» «to» payload chainId nodeId _ =>
    (ofName event.name).map fun e => ⟨e, txId, txType, «from», «to», payload, chainId, nodeId⟩
  | _ => none

theorem ofName_type (event : TxEvent) : ofName event.type.name = some event := by
  cases event <;> decide

variable (now : Bytes) (event : TxEventType) (txId txType «from» «to» payload chainId nodeId : Bytes)
  (blockHeight : UInt64)

theorem text_chainId : ((field (lit "chain_id")
    (.object (transactionMembers now event txId txType «from» «to» payload chainId nodeId blockHeight))).bind text).getD [] =
      chainId := by
  unfold transactionMembers memberUnless
  by_cases noChain : chainId = [] <;> by_cases noNode : nodeId = [] <;> by_cases zero : blockHeight = 0 <;>
    simp only [noChain, noNode, zero, if_true, if_false, List.nil_append, List.append_nil] <;> rfl

theorem text_nodeId : ((field (lit "node_id")
    (.object (transactionMembers now event txId txType «from» «to» payload chainId nodeId blockHeight))).bind text).getD [] =
      nodeId := by
  unfold transactionMembers memberUnless
  by_cases noChain : chainId = [] <;> by_cases noNode : nodeId = [] <;> by_cases zero : blockHeight = 0 <;>
    simp only [noChain, noNode, zero, if_true, if_false, List.nil_append, List.append_nil] <;> rfl

theorem read_transaction :
    readLogged (.object ((transactionEntries now event txId txType «from» «to» payload chainId nodeId blockHeight).map
      Entry.member)) = (ofName event.name).map fun e =>
        ⟨e, txId, txType, «from», «to», payload, chainId, nodeId⟩ := by
  have chain := text_chainId now event txId txType «from» «to» payload chainId nodeId blockHeight
  have node := text_nodeId now event txId txType «from» «to» payload chainId nodeId blockHeight
  rw [member_transactionEntries]
  have event_at : field (lit "event") (.object (transactionMembers now event txId txType «from» «to» payload chainId
      nodeId blockHeight)) = some (.string event.name) := rfl
  unfold readLogged
  rw [event_at, chain, node]
  change (ofName event.name).bind (fun e =>
    some (⟨e, txId, txType, «from», «to», payload, chainId, nodeId⟩ : Logged)) = _
  cases ofName event.name <;> rfl

def transactionLog : EventFile Logged where
  category := .transactions
  file := transactionsFile
  logged := loggedOf
  read := readLogged
  fixed := by simp
  recorded call category' file' entries record := by
    cases call with
    | transaction now event txId txType «from» «to» payload chainId nodeId blockHeight =>
      simp only [LoggerCall.record, Option.some.injEq, Prod.mk.injEq] at record
      obtain ⟨rfl, rfl, rfl⟩ := record
      exact .inl ⟨rfl, rfl, read_transaction ..⟩
    | ibc | networkDrop =>
      simp only [LoggerCall.record, Option.some.injEq, Prod.mk.injEq] at record
      obtain ⟨rfl, rfl, rfl⟩ := record
      exact .inr ⟨by decide, rfl⟩
    | nodeState now chainId nodeId =>
      simp only [LoggerCall.record, Option.some.injEq, Prod.mk.injEq] at record
      obtain ⟨rfl, rfl, rfl⟩ := record
      exact .inr ⟨(Owner.file_ne (.node chainId nodeId)).1, rfl⟩
    | relayerState now relayerId =>
      simp only [LoggerCall.record, Option.some.injEq, Prod.mk.injEq] at record
      obtain ⟨rfl, rfl, rfl⟩ := record
      exact .inr ⟨(Owner.file_ne (.relayer relayerId)).1, rfl⟩
    | enableCategory | flushAll => cases record
  unrecorded call none_recorded := by
    cases call with
    | enableCategory | flushAll => rfl
    | transaction | ibc | networkDrop | nodeState | relayerState => cases none_recorded

theorem loggedOf_callOf (now : Bytes) (e : Logged) : transactionLog.logged (callOf now e) = some e := by
  change (ofName e.event.type.name).map _ = some e
  rw [ofName_type]
  rfl

end File

section Init
variable {opens : Bytes → Bool} {relayerCount : ℕ} {configs : List ChainConfig} {s : Sim}

theorem start_office (n : SimNode) : n.node.start.1.nodeId = n.node.nodeId ∧ n.node.start.1.address = n.node.address := by
  unfold Node.start
  split <;> exact ⟨rfl, rfl⟩

theorem start_offices (s : Sim) : offices s.start = offices s := by
  unfold offices Sim.start
  rw [List.map_map]
  refine List.map_congr_left fun n _ => ?_
  obtain ⟨id, address⟩ := start_office n
  exact Prod.ext id (Prod.ext address rfl)

theorem init_ground (laid : Laid opens relayerCount configs s) (sound : Sound (wiring s))
    (plain : ∀ cfg ∈ configs, pipe ∉ cfg.chainId) : Ground s where
  sound := sound
  indexed := laid.indexed
  plain node member := by
    obtain ⟨c, cfg, i, at_c, -, rfl⟩ := laid.mem_nodes.mp member
    change pipe ∉ Sim.addressOf cfg.chainId i
    unfold Sim.addressOf Sim.nodeName
    refine plain_append (plain_append (plain cfg (List.mem_of_getElem? at_c)) (by decide)) ?_
    exact plain_append (by decide) (pipe_notMem_decimal i)

theorem init_stays (laid : Laid opens relayerCount configs s) (idle : Idle s) : Stays s s.start where
  wired := start_wiring s
  offices := start_offices s
  ready := start_ready idle
  inboxes node member := by
    obtain ⟨old, there, rfl⟩ := List.mem_map.mp member
    obtain ⟨c, cfg, i, -, -, rfl⟩ := laid.mem_nodes.mp there
    rfl

theorem init_carried (laid : Laid opens relayerCount configs s) : carried s.start = [] := by
  refine List.append_eq_nil_iff.mpr ⟨?_, List.flatMap_eq_nil_iff.mpr fun node member => ?_⟩
  · change s.transport.tasks.flatMap _ = []
    rw [laid.tasks]
    rfl
  · obtain ⟨old, there, rfl⟩ := List.mem_map.mp member
    obtain ⟨c, cfg, i, -, -, rfl⟩ := laid.mem_nodes.mp there
    unfold inboxEntries
    split <;> rfl

end Init

/-- The log beside a run holds what the run logs of the transactions, and each of them is at a place. -/
theorem logged_trailing (relayerCount : ℕ) (configs : List ChainConfig)
    (distinct : (configs.map (·.chainId)).Nodup) (plain : ∀ cfg ∈ configs, pipe ∉ cfg.chainId) (opens : Bytes → Bool)
    {l : DetailedLogger} (start : DetailedLogger.new opens (fun _ => []) = .ok l) :
    ∃ s, Sim.init opens relayerCount configs = .ok s ∧
      ∀ (plans : List (List Job)) (is : List (LogInput TrafficInput)),
        (∀ call, .other call ∈ is → transactionLog.Foreign call) →
        (∀ k clock, .own (.sim (.duplicate k)) clock ∉ is) →
        let steps := is.filterMap LogInput.own?
        let t := trafficMachine.trace (begun s plans) steps
        let last := (loggedMachine trafficMachine TrafficOutput.logged callOf opens).final (begun s plans, l) is
        (madeIn t).length ≤ 2 ^ 64 →
          last.1 = trafficMachine.final (begun s plans) steps ∧
          transactionLog.readBack (last.2.disk transactionsFile) = loggedIn t ∧
          ∃ place, Trailing s last.1 t place := by
  obtain ⟨s, run, built⟩ := init_built opens relayerCount configs distinct
  obtain ⟨s', run', laid⟩ := init_lays opens relayerCount (init_distinct run)
  obtain rfl : s = s' := Except.ok.inj (run.symm.trans run')
  refine ⟨s, run, fun plans is foreign once => ?_⟩
  intro steps t last few
  obtain ⟨sim, read⟩ := @reads_own _ _ _ _ trafficMachine TrafficOutput.logged callOf opens transactionLog
    loggedOf_callOf (fun _ _ => trivial) l start is foreign (begun s plans)
  have single : ∀ k, .sim (.duplicate k) ∉ steps := by
    intro k member
    obtain ⟨i, inside, own⟩ := List.mem_filterMap.mp member
    cases i with
    | own i clock =>
      obtain rfl := Option.some.inj own
      exact once k clock inside
    | other => cases own
  have trailing := run_trailing (init_ground laid built.sound plain) (init_stays laid built.idle) (init_carried laid)
    plans steps single few
  refine ⟨sim, read, ?_⟩
  rw [show last.1 = trafficMachine.final (begun s plans) steps from sim]
  exact trailing

/-- Whatever the other components log in between, the lines that the log holds of the transactions are
    those of the transactions that were made. Each of them has an id of its own, and its lines are the
    first of created, submitted and received, in this order. Where no message was lost they are all three,
    once nothing is in a hand, in the transport or in an inbox. -/
theorem log_is_trail (relayerCount : ℕ) (configs : List ChainConfig) (distinct : (configs.map (·.chainId)).Nodup)
    (plain : ∀ cfg ∈ configs, pipe ∉ cfg.chainId) (opens : Bytes → Bool)
    {l : DetailedLogger} (start : DetailedLogger.new opens (fun _ => []) = .ok l) :
    ∃ s, Sim.init opens relayerCount configs = .ok s ∧
      ∀ (plans : List (List Job)) (is : List (LogInput TrafficInput)),
        (∀ call, .other call ∈ is → transactionLog.Foreign call) →
        (∀ k clock, .own (.sim (.duplicate k)) clock ∉ is) →
        let M := loggedMachine trafficMachine TrafficOutput.logged callOf opens
        let steps := is.filterMap LogInput.own?
        let made := madeIn (trafficMachine.trace (begun s plans) steps)
        let events := transactionLog.readBack ((M.final (begun s plans, l) is).2.disk transactionsFile)
        let lines := fun id => events.filter fun e => e.txId = id
        made.length ≤ 2 ^ 64 →
          (made.map fun k => k.tx.txId).Nodup ∧
          (∀ e ∈ events, ∃ k ∈ made, e ∈ life (desk s) k) ∧
          (∀ k ∈ made, lines k.tx.txId <+: life (desk s) k) ∧
          ((∀ i ∈ steps, ¬ Loses i) → custody (M.final (begun s plans, l) is).1 = [] →
            ∀ k ∈ made, lines k.tx.txId = life (desk s) k) := by
  obtain ⟨s, run, trails⟩ := logged_trailing relayerCount configs distinct plain opens start
  refine ⟨s, run, fun plans is foreign once => ?_⟩
  intro M steps made events lines few
  obtain ⟨-, same, place, trailing⟩ := trails plans is foreign once few
  change events = _ at same
  refine ⟨trailing.ids_nodup few, ?_, fun k member => ?_, fun kept rest k member => ?_⟩
  · rw [same]
    exact fun e => trailing.about
  · obtain ⟨st, -, front⟩ := trailing.lines member
    change events.filter _ <+: _
    rw [same, front]
    exact ⟨_, List.take_append_drop st.lines _⟩
  · change events.filter _ = _
    rw [same]
    refine trailing.complete ?_ rest member
    intro e inside
    refine kept e.1 ?_
    rw [← trafficMachine.trace_inputs (begun s plans) steps]
    exact List.mem_map_of_mem inside

def twoTurns : List TrafficInput :=
  (List.replicate 5 [TrafficInput.generator 0 7 7 false, .generator 1 7 7 false]).flatten ++
    [.sim (.deliver 0), .sim (.nodeStep 0), .sim (.deliver 0), .sim (.nodeStep 1), .sim (.nodeStep 0),
      .sim (.nodeStep 1)]

def sharedTurns : List (LogInput TrafficInput) :=
  .other (.transaction (lit "t") .dropped (lit "tx_7_0") (lit "regular") [] [] [] [] [] 0) ::
    twoTurns.map fun i => .own i fun _ => lit "t"

theorem log_is_trail_twoTurns :
    ∃ s l, Sim.init (fun _ => true) 1 twoChains = .ok s ∧ DetailedLogger.new (fun _ => true) (fun _ => []) = .ok l ∧
      let plans := [[Job.random 0 1], [Job.injected 1 0 0]]
      let M := loggedMachine trafficMachine TrafficOutput.logged callOf fun _ => true
      let made := madeIn (trafficMachine.trace (begun s plans) twoTurns)
      let events := transactionLog.readBack ((M.final (begun s plans, l) sharedTurns).2.disk transactionsFile)
      made.map (fun k => k.sender) = [0, 1] ∧
        ∀ k ∈ made, events.filter (fun e => e.txId = k.tx.txId) = life (desk s) k := by
  obtain ⟨s, init, holds⟩ := log_is_trail 1 twoChains (by decide) (by decide) (fun _ => true)
    (l := ⟨fun _ => [], fun _ => none, fun _ => none, fun _ => true⟩) rfl
  have steps : sharedTurns.filterMap LogInput.own? = twoTurns := rfl
  have foreign : ∀ call, .other call ∈ sharedTurns → transactionLog.Foreign call := by
    intro call member
    rcases List.mem_cons.mp member with same | step
    · obtain rfl := LogInput.other.inj same
      exact ⟨rfl, trivial⟩
    · obtain ⟨i, -, other⟩ := List.mem_map.mp step
      cases other
  have once : ∀ k clock, .own (.sim (.duplicate k)) clock ∉ sharedTurns := by
    intro k clock
    simp [sharedTurns, twoTurns]
  have kept : ∀ i ∈ twoTurns, ¬ Loses i := by
    simp [twoTurns, Loses]
  have ran : (Sim.init (fun _ => true) 1 twoChains).toOption.map (fun s =>
      let plans := [[Job.random 0 1], [Job.injected 1 0 0]]
      ((madeIn (trafficMachine.trace (begun s plans) twoTurns)).map (fun k => k.sender),
        custody (trafficMachine.final (begun s plans) twoTurns))) = some ([0, 1], []) := by decide +kernel
  rw [init] at ran
  obtain ⟨senders, rest⟩ := Prod.mk.inj (Option.some.inj ran)
  obtain ⟨sim, -⟩ := @reads_own _ _ _ _ trafficMachine TrafficOutput.logged callOf (fun _ => true)
    transactionLog loggedOf_callOf (fun _ _ => trivial) ⟨fun _ => [], fun _ => none, fun _ => none, fun _ => true⟩ rfl
    sharedTurns foreign (begun s [[Job.random 0 1], [Job.injected 1 0 0]])
  have trail := holds [[Job.random 0 1], [Job.injected 1 0 0]] sharedTurns foreign once
  rw [steps] at trail sim
  have few : (madeIn (trafficMachine.trace (begun s [[Job.random 0 1], [Job.injected 1 0 0]]) twoTurns)).length ≤ 2 ^ 64 := by
    have two := congrArg List.length senders
    rw [List.length_map] at two
    rw [two]
    decide
  refine ⟨s, _, init, rfl, senders, (trail few).2.2.2 kept ?_⟩
  rw [sim]
  exact rest

end InterchainCommunication.TransactionTrail
