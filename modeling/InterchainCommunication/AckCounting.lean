import InterchainCommunication.AckSoundness
import InterchainCommunication.BagCounting

set_option autoImplicit false

namespace InterchainCommunication.AckCounting
open StringText CoreTypes MachineRuns BagCounting PacketCodec BlockchainModel ChainHistory NodeModel NodeSteps NodeText
open RelayerModel SimulationModel SimulationWiring SimulationSteps AckSoundness

def processedAcks (calls : Calls) : List IBCPacket := calls.filterMap fun e => processedAck e.2

def acceptedBy (calls : Calls) : List IBCPacket := calls.filterMap fun e => acceptedPacket e.2

variable (sel : IBCPacket → Bool)

/-- A node that handles the message processes a selected ack. -/
def bearsAck (msg : NodeMessage) : Bool :=
  msg.kind == .ibc &&
    match deserializeIBCPacket msg.bytes with
    | .ok a => a.type == .ack && sel a
    | .error _ => false

def taskBearsAck (task : Bytes × Bytes) : Bool :=
  match deserializeNodeMessage task.2 with
  | .ok msg => bearsAck sel msg
  | .error _ => false

/-- The copies of selected acks on their way. -/
def copies (t : Traffic) : ℕ :=
  weight sel t.acks + t.tasks.countP (taskBearsAck sel) + weight (bearsAck sel) t.inboxes

/-- Copies on their way and acks processed are paid for by accepted packets, at `R` each. -/
structure Paid (R : ℕ) (t : Traffic) (calls : Calls) : Prop where
  queues : t.acks.length = R
  bound : copies sel t + (processedAcks calls).countP sel ≤ R * (acceptedBy calls).countP fun p => sel (ackOf p)

variable {sel} {w : Wiring} {t : Traffic} {calls : Calls}

theorem bearsAck_carries {msg : NodeMessage} {p : IBCPacket} (h : Carries w calls msg p) :
    bearsAck sel msg = (p.type == .ack && sel p) := by
  simp [bearsAck, h.kind, h.read]

theorem taskBearsAck_posted (sound : Sound w) {r : ℕ} {p : IBCPacket} {task : Bytes × Bytes}
    (genuine : GenuinePacket w calls p ∨ GenuineAck w calls p) (posted : Posted w r p task) :
    taskBearsAck sel task = (p.type == .ack && sel p) := by
  obtain ⟨msg, read, kind, bytes, -⟩ := posted_read sound posted
  have carries : Carries w calls msg p := ⟨kind, bytes, genuine⟩
  rw [taskBearsAck, read]
  exact bearsAck_carries carries

theorem asked_pays {c : ℕ} {op : ChainOp} {reply : ChainReply} {inboxes : List (List NodeMessage)}
    (asked : Asked w t c op inboxes) :
    weight (bearsAck sel) inboxes + (processedAck (op, reply)).toList.countP sel ≤
      weight (bearsAck sel) t.inboxes := by
  cases asked with
  | sender => exact Nat.le_refl _
  | message n msg rest _ head home asks =>
    have popped := weight_pop (bearsAck sel) head
    have paid : (processedAck (op, reply)).toList.countP sel ≤ [msg].countP (bearsAck sel) := by
      cases processed : processedAck (op, reply) with
      | none => exact Nat.zero_le _
      | some a =>
        obtain rfl : op = .onIBCAck a := processedAck_op processed
        obtain ⟨kind, read, ack⟩ := asks
        have bears : bearsAck sel msg = sel a := by simp [bearsAck, kind, read, ack]
        rw [Option.toList_some, List.countP_singleton, List.countP_singleton, bears]
    omega

theorem called_paid {R c : ℕ} (paid : Paid sel R t calls) {op : ChainOp} {reply : ChainReply}
    {inboxes : List (List NodeMessage)} (asked : Asked w t c op inboxes) (packets : List (List IBCPacket)) :
    Paid sel R ⟨packets, t.acks.map (· ++ ((acceptedPacket (op, reply)).map ackOf).toList), t.tasks, inboxes⟩
      (calls ++ [(c, op, reply)]) := by
  obtain ⟨queues, bound⟩ := paid
  refine ⟨by rw [List.length_map, queues], ?_⟩
  have inbox : weight (bearsAck sel) inboxes + (processedAck (op, reply)).toList.countP sel ≤
      weight (bearsAck sel) t.inboxes := asked_pays asked
  have processed : processedAcks (calls ++ [(c, op, reply)]) =
      processedAcks calls ++ (processedAck (op, reply)).toList := filterMap_concat _ _ _
  have accepted : acceptedBy (calls ++ [(c, op, reply)]) =
      acceptedBy calls ++ (acceptedPacket (op, reply)).toList := filterMap_concat _ _ _
  have answers : ((acceptedPacket (op, reply)).map ackOf).toList.countP sel =
      (acceptedPacket (op, reply)).toList.countP fun p => sel (ackOf p) := by
    cases acceptedPacket (op, reply) <;> rfl
  unfold copies at bound ⊢
  dsimp only
  rw [weight_broadcast, queues, processed, accepted, List.countP_append, List.countP_append, Nat.mul_add, answers]
  omega

theorem Paid.of_copies {R : ℕ} {t' : Traffic} (paid : Paid sel R t calls) (queues : t'.acks.length = t.acks.length)
    (fewer : copies sel t' ≤ copies sel t) : Paid sel R t' (calls ++ []) := by
  rw [List.append_nil]
  have bound := paid.bound
  exact ⟨queues.trans paid.queues, by omega⟩

theorem forwardedPacket_copies (sound : Sound w) (authentic : Authentic w t calls) {r : ℕ} {pkt : IBCPacket}
    {rest : List IBCPacket} {task : Option (Bytes × Bytes)} (head : t.packets[r]? = some (pkt :: rest))
    (posted : ∀ x, task = some x → Posted w r pkt x) (packets : List (List IBCPacket)) :
    copies sel { t with packets := packets, tasks := t.tasks ++ task.toList } = copies sel t := by
  have genuine := authentic.packets _ (List.mem_of_getElem? head) pkt List.mem_cons_self
  have nothing : task.toList.countP (taskBearsAck sel) = 0 := by
    cases task with
    | none => rfl
    | some x =>
      rw [Option.toList_some, List.countP_singleton, taskBearsAck_posted sound (.inl genuine) (posted x rfl),
        genuine.1]
      rfl
  simp only [copies, List.countP_append, nothing, Nat.add_zero]

theorem forwardedAck_copies (sound : Sound w) (authentic : Authentic w t calls) {r : ℕ} {ack : IBCPacket}
    {rest : List IBCPacket} {task : Option (Bytes × Bytes)} (head : t.acks[r]? = some (ack :: rest))
    (posted : ∀ x, task = some x → Posted w r ack x) :
    copies sel { t with acks := t.acks.set r rest, tasks := t.tasks ++ task.toList } ≤ copies sel t := by
  have genuine := authentic.acks _ (List.mem_of_getElem? head) ack List.mem_cons_self
  have type : ack.type = .ack := by
    obtain ⟨p, rfl, -⟩ := genuine
    rfl
  have popped := weight_pop sel head
  have moved : task.toList.countP (taskBearsAck sel) ≤ [ack].countP sel := by
    cases task with
    | none => exact Nat.zero_le _
    | some x =>
      rw [Option.toList_some, List.countP_singleton, List.countP_singleton,
        taskBearsAck_posted sound (.inr genuine) (posted x rfl), type]
      exact Nat.le_refl _
  simp only [copies, List.countP_append]
  omega

theorem erased_copies (k : ℕ) : copies sel { t with tasks := t.tasks.eraseIdx k } ≤ copies sel t := by
  have fewer : (t.tasks.eraseIdx k).countP (taskBearsAck sel) ≤ t.tasks.countP (taskBearsAck sel) :=
    (List.eraseIdx_sublist t.tasks k).countP_le
  simp only [copies]
  omega

theorem delivered_copies {k n : ℕ} {task : Bytes × Bytes} {q : List NodeMessage} {msg : NodeMessage}
    (sent : t.tasks[k]? = some task) (inbox : t.inboxes[n]? = some q)
    (read : deserializeNodeMessage task.2 = .ok msg) :
    copies sel { t with tasks := t.tasks.eraseIdx k, inboxes := t.inboxes.set n (q ++ [msg]) } = copies sel t := by
  have erased := countP_eraseIdx_of_some (taskBearsAck sel) sent
  have pushed := weight_push (bearsAck sel) inbox msg
  have same : [task].countP (taskBearsAck sel) = [msg].countP (bearsAck sel) := by
    rw [List.countP_singleton, List.countP_singleton, taskBearsAck, read]
  simp only [copies]
  omega

theorem flow_paid (sound : Sound w) {R : ℕ} {i : SimInput} {t' : Traffic} {new : Calls}
    (authentic : Authentic w t calls) (once : ∀ k, i ≠ .duplicate k) (paid : Paid sel R t calls)
    (flow : Flow w t i t' new) : Paid sel R t' (calls ++ new) := by
  cases flow with
  | still => exact paid.of_copies rfl (Nat.le_refl _)
  | called _ c op reply inboxes asked own => exact called_paid paid asked _
  | skipped n msg rest head =>
    have popped := weight_pop (bearsAck sel) head
    refine paid.of_copies rfl ?_
    simp only [copies]
    omega
  | forwardedPacket r drops pkt rest task head posted =>
    exact paid.of_copies rfl (forwardedPacket_copies sound authentic head posted _).le
  | forwardedAck r drops ack rest task head posted =>
    exact paid.of_copies (List.length_set ..) (forwardedAck_copies sound authentic head posted)
  | dropped k | lost k => exact paid.of_copies rfl (erased_copies k)
  | delivered k n task q msg sent endpoint inbox read =>
    exact paid.of_copies rfl (delivered_copies sent inbox read).le
  | duplicated k => exact absurd rfl (once k)

theorem run_paid {s : Sim} (sound : Sound (wiring s)) (idle : Idle s) (sel : IBCPacket → Bool) {is : List SimInput}
    (once : ∀ k, .duplicate k ∉ is) :
    let calls := callsIn (simMachine.trace s.start is)
    (processedAcks calls).countP sel ≤ s.relayers.length * (acceptedBy calls).countP fun p => sel (ackOf p) := by
  intro calls
  have start (quiet : Quiet (traffic s.start)) : Authentic (wiring s) (traffic s.start) [] ∧
      Paid sel s.relayers.length (traffic s.start) [] := by
    refine ⟨authentic_quiet quiet, ⟨List.length_map .., ?_⟩⟩
    rw [copies, weight_empty sel quiet.acks, quiet.tasks, weight_empty _ quiet.inboxes]
    exact Nat.zero_le _
  obtain ⟨⟨-, paid⟩, -⟩ := traffic_invariant sound idle
    (I := fun t calls => Authentic (wiring s) t calls ∧ Paid sel s.relayers.length t calls) is start
    fun t calls i t' new hi h flow => ⟨flow_authentic sound h.1 flow,
      flow_paid sound h.1 (fun k same => once k (same ▸ hi)) h.2 flow⟩
  exact (Nat.le_add_left _ _).trans paid.bound

/-- How often the sink has been told to increment the counter. -/
def counterValue (name : Bytes) (t : List (SimInput × SimOutput)) : ℕ := (counted (effectsIn t)).count name

theorem processedAcks_cons (e : ℕ × ChainOp × ChainReply) (calls : Calls) :
    processedAcks (e :: calls) = (processedAck e.2).toList ++ processedAcks calls := by
  unfold processedAcks
  cases h : processedAck e.2 <;> simp [h]

theorem acceptedBy_cons (e : ℕ × ChainOp × ChainReply) (calls : Calls) :
    acceptedBy (e :: calls) = (acceptedPacket e.2).toList ++ acceptedBy calls := by
  unfold acceptedBy
  cases h : acceptedPacket e.2 <;> simp [h]

theorem callCounters_count (calls : Calls) :
    (calls.flatMap fun e => callCounters e.2).count (lit "ibc_acks_received") = (processedAcks calls).length ∧
      (calls.flatMap fun e => callCounters e.2).count (lit "ibc_packets_received") = (acceptedBy calls).length := by
  have other : lit "ibc_packets_received" ≠ lit "ibc_acks_received" := by decide
  induction calls with
  | nil => exact ⟨rfl, rfl⟩
  | cons e calls ih =>
    obtain ⟨acks, packets⟩ := ih
    rw [List.flatMap_cons, List.count_append, List.count_append, acks, packets, processedAcks_cons, acceptedBy_cons,
      List.length_append, List.length_append, callCounters, List.count_append, List.count_append]
    cases acceptedPacket e.2 <;> cases processedAck e.2 <;> simp [other, Ne.symm other]

theorem counterValue_received {s : Sim} (sound : Sound (wiring s)) (idle : Idle s) (is : List SimInput) :
    let run := simMachine.trace s.start is
    counterValue (lit "ibc_acks_received") run = (processedAcks (callsIn run)).length ∧
      counterValue (lit "ibc_packets_received") run = (acceptedBy (callsIn run)).length := by
  intro run
  have kept {name : Bytes} (received : isReceived name = true) :
      counterValue name run = (receivedCounters (effectsIn run)).count name :=
    (List.count_filter received).symm
  have counters := run_counters sound idle is
  rw [kept (by decide), kept (by decide), counters]
  exact callCounters_count _

/-- However relayers and nodes are scheduled, an accepted packet is acknowledged at most once
    for each relayer. -/
theorem acks_at_most_relayers (opens : Bytes → Bool) (relayerCount : ℕ) (configs : List ChainConfig)
    (distinct : (configs.map (·.chainId)).Nodup) :
    ∃ s, Sim.init opens relayerCount configs = .ok s ∧
      ∀ is : List SimInput, (∀ k, .duplicate k ∉ is) →
        let run := simMachine.trace s.start is
        (∀ a, (processedAcks (callsIn run)).count a ≤
          relayerCount * ((acceptedBy (callsIn run)).map ackOf).count a) ∧
        counterValue (lit "ibc_acks_received") run ≤
          relayerCount * counterValue (lit "ibc_packets_received") run := by
  obtain ⟨s, init, built⟩ := init_built opens relayerCount configs distinct
  refine ⟨s, init, ?_⟩
  intro is once run
  have few := init_few init
  constructor
  · intro a
    have paid := run_paid built.sound built.idle (· == a) once
    have answers : ((acceptedBy (callsIn run)).map ackOf).count a =
        (acceptedBy (callsIn run)).countP fun p => ackOf p == a := by
      rw [List.count, List.countP_map]
      rfl
    rw [answers]
    exact paid.trans (Nat.mul_le_mul_right _ few)
  · have paid := run_paid built.sound built.idle (fun _ => true) once
    simp only [List.countP_true] at paid
    obtain ⟨acks, packets⟩ := counterValue_received built.sound built.idle is
    rw [acks, packets]
    exact paid.trans (Nat.mul_le_mul_right _ few)

def bothForward : List SimInput :=
  [.sendIBC 0 ⟨lit "p"⟩ ⟨lit "c"⟩ (lit "B") ⟨lit "q"⟩ ⟨lit "d"⟩ (lit "x"), .forwardPacket 0 ⟨false, false⟩,
    .deliver 0, .nodeStep 1, .nodeStep 1, .forwardAck 0 ⟨false, false⟩, .forwardAck 1 ⟨false, false⟩,
    .deliver 0, .deliver 0, .nodeStep 0, .nodeStep 0, .nodeStep 0, .nodeStep 0]

theorem acks_at_most_relayers_single :
    ∃ s, Sim.init (fun _ => true) 1 twoChains = .ok s ∧
      let run := simMachine.trace s.start bothForward
      counterValue (lit "ibc_acks_received") run ≤ counterValue (lit "ibc_packets_received") run := by
  obtain ⟨s, init, bound⟩ := acks_at_most_relayers (fun _ => true) 1 twoChains (by decide)
  obtain ⟨-, counters⟩ := bound bothForward (by simp [bothForward])
  rw [Nat.one_mul] at counters
  exact ⟨s, init, counters⟩

theorem two_relayers_acknowledge_twice :
    ∃ s, Sim.init (fun _ => true) 2 twoChains = .ok s ∧ (∀ k, .duplicate k ∉ bothForward) ∧
      let run := simMachine.trace s.start bothForward
      ∃ p, acceptedBy (callsIn run) = [p] ∧ processedAcks (callsIn run) = [ackOf p, ackOf p] ∧
        counterValue (lit "ibc_acks_received") run = 2 ∧ counterValue (lit "ibc_packets_received") run = 1 := by
  have ran : (Sim.init (fun _ => true) 2 twoChains).toOption.map (fun s =>
      let run := simMachine.trace s.start bothForward
      (acceptedBy (callsIn run), processedAcks (callsIn run), counterValue (lit "ibc_acks_received") run,
        counterValue (lit "ibc_packets_received") run)) =
      let p : IBCPacket := ⟨.data, lit "A", lit "B", ⟨lit "p"⟩, ⟨lit "c"⟩, ⟨lit "q"⟩, ⟨lit "d"⟩, 1, lit "x"⟩
      some ([p], [ackOf p, ackOf p], 2, 1) := by decide +kernel
  cases init : Sim.init (fun _ => true) 2 twoChains with
  | error e =>
    rw [init] at ran
    cases ran
  | ok s =>
    rw [init] at ran
    obtain ⟨accepted, processed, acks, packets⟩ := by
      simpa only [Prod.mk.injEq] using Option.some.inj ran
    exact ⟨s, rfl, by simp [bothForward], _, accepted, processed, acks, packets⟩

end InterchainCommunication.AckCounting
