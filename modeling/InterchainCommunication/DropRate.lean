import InterchainCommunication.ThreadSteps

set_option autoImplicit false

namespace InterchainCommunication.DropRate
open StringText CoreTypes MachineRuns TransportModel ThreadSteps

/-- The helper of the relayer, for `routeDrop_`. -/
def relayerShouldDrop (draw dropRate : ℚ) : Bool := uniformReal 0 1 draw < dropRate

theorem relayerShouldDrop_iff (draw dropRate : ℚ) : relayerShouldDrop draw dropRate = true ↔ draw < dropRate := by
  rw [relayerShouldDrop, decide_eq_true_iff, uniformReal, sub_zero, mul_one, zero_add]

theorem shouldDrop_iff (draw dropRate : ℚ) : shouldDrop draw dropRate = true ↔ 1 < dropRate := by
  rw [shouldDrop, decide_eq_true_iff, uniformReal, sub_self, mul_zero, add_zero]

def send (s : TransportImpl) (dest data : Bytes) (draw : ℚ) : TransportImpl × Status :=
  match s.endpoints dest with
  | none => (s, ⟨.notFound, lit "Destination endpoint not found"⟩)
  | some _ =>
    if shouldDrop draw s.params.dropRate then (s, ⟨.networkDrop, lit "Packet dropped by network"⟩)
    else
      let task : DeliveryTask := ⟨s.pushes, s.clock + s.params.latency, dest, data⟩
      ({ s with tasks := s.tasks ++ [task], pushes := s.pushes + 1, pendingCount := s.pendingCount + 1 }, ⟨.ok, []⟩)

def returned (c : ℕ) (es : List TransportEvent) : List Status :=
  es.filterMap fun
    | .sendReturned c' status _ => if c' = c then some status else none
    | _ => none

/-- A client that is not interrupted does in its steps what the whole call does. -/
theorem send_run (s : TransportImpl) {c choice : ℕ} (idle : s.clients c = .idle) (unlocked : s.tasksMtx = false)
    (notifies : (s.notifyOne choice).isSome = true) (dest data : Bytes) (draw : ℚ) :
    ∃ n, let ops := .send c dest data draw :: List.replicate n (.client c choice)
      let s' := transportMachine.final s ops
      s'.tasks = (send s dest data draw).1.tasks ∧ s'.pendingCount = (send s dest data draw).1.pendingCount ∧
        s'.clients c = .idle ∧ returned c (eventsOf (transportMachine.trace s ops)) = [(send s dest data draw).2] := by
  unfold send
  cases registered : s.endpoints dest with
  | none =>
    refine ⟨0, ?_⟩
    simp [transportMachine, TransportImpl.step, TransportImpl.send, idle, registered, eventsOf, returned]
  | some f =>
    cases drops : shouldDrop draw s.params.dropRate with
    | true =>
      refine ⟨1, ?_⟩
      simp [transportMachine, TransportImpl.step, TransportImpl.send, TransportImpl.client, TransportImpl.move, idle,
        registered, eventsOf, returned, drops]
    | false =>
      refine ⟨4, ?_⟩
      obtain ⟨workers, woken⟩ := Option.isSome_iff_exists.mp notifies
      have still (s' : TransportImpl) (same : s'.workers = s.workers) : s'.notifyOne choice = some workers := by
        rw [← woken, TransportImpl.notifyOne, TransportImpl.notifyOne, same]
      simp [transportMachine, TransportImpl.step, TransportImpl.send, TransportImpl.client, TransportImpl.move, idle,
        registered, eventsOf, returned, drops, unlocked, List.replicate, still]

/-- The call drops exactly the draws below the rate, queues one task for every other, and
    decides as the relayer does. -/
structure HonoursRate (s : TransportImpl) (dest data : Bytes) (draw : ℚ) : Prop where
  dropped : ((send s dest data draw).2.code = .networkDrop ∧ (send s dest data draw).1.tasks = s.tasks ∧
    (send s dest data draw).1.pendingCount = s.pendingCount) ↔ draw < s.params.dropRate
  kept : ¬ draw < s.params.dropRate → (send s dest data draw).2.ok = true ∧
    (∃ task, (send s dest data draw).1.tasks = s.tasks ++ [task] ∧ task.to = dest ∧ task.data = data) ∧
      (send s dest data draw).1.pendingCount = s.pendingCount + 1
  agrees : shouldDrop draw s.params.dropRate = relayerShouldDrop draw s.params.dropRate

theorem send_kept {s : TransportImpl} {dest : Bytes} {f : ℕ} (registered : s.endpoints dest = some f)
    (within : s.params.dropRate ≤ 1) (data : Bytes) (draw : ℚ) :
    send s dest data draw = ({ s with
      tasks := s.tasks ++ [⟨s.pushes, s.clock + s.params.latency, dest, data⟩]
      pushes := s.pushes + 1
      pendingCount := s.pendingCount + 1 }, ⟨.ok, []⟩) := by
  have never : ¬ shouldDrop draw s.params.dropRate = true := by
    rw [shouldDrop_iff]
    exact not_lt.mpr within
  unfold send
  rw [registered]
  exact if_neg never

/-- No message is ever dropped, so the rate is honoured by the draws that are not below it. -/
theorem send_honours_iff (s : TransportImpl) (dest data : Bytes) (draw : ℚ)
    (registered : (s.endpoints dest).isSome = true) (within : s.params.dropRate ≤ 1) :
    HonoursRate s dest data draw ↔ s.params.dropRate ≤ draw := by
  obtain ⟨f, registered⟩ := Option.isSome_iff_exists.mp registered
  have sent := send_kept registered within data draw
  constructor
  · intro honours
    by_contra below
    have drops := (honours.dropped.mpr (not_le.mp below)).1
    rw [sent] at drops
    cases drops
  · intro above
    constructor
    · rw [sent]
      refine iff_of_false ?_ (not_lt.mpr above)
      rintro ⟨drops, -⟩
      cases drops
    · intro _
      rw [sent]
      exact ⟨rfl, ⟨_, rfl, rfl, rfl⟩, rfl⟩
    · rw [Bool.eq_iff_iff, shouldDrop_iff, relayerShouldDrop_iff]
      exact iff_of_false (not_lt.mpr within) (not_lt.mpr above)

def oneMailbox (dropRate : ℚ) : TransportImpl :=
  ((TransportImpl.new ⟨50, dropRate⟩).registerEndpoint (lit "A:node-0")).1

theorem send_honours_zero : HonoursRate (oneMailbox 0) (lit "A:node-0") (lit "x") (1 / 2) :=
  (send_honours_iff (oneMailbox 0) (lit "A:node-0") (lit "x") (1 / 2) rfl zero_le_one).mpr
    (by norm_num [oneMailbox, TransportImpl.registerEndpoint, TransportImpl.new])

theorem send_ignores_rate : ¬ ∀ (s : TransportImpl) (dest data : Bytes) (draw : ℚ), (s.endpoints dest).isSome = true →
    0 ≤ s.params.dropRate ∧ s.params.dropRate ≤ 1 → 0 ≤ draw ∧ draw < 1 → HonoursRate s dest data draw := by
  intro h
  have honours := h (oneMailbox 1) (lit "A:node-0") (lit "x") (1 / 2) rfl ⟨zero_le_one, le_refl 1⟩ (by norm_num)
  have drops := (honours.dropped.mpr (by norm_num [oneMailbox, TransportImpl.registerEndpoint, TransportImpl.new])).1
  rw [send_kept (s := oneMailbox 1) rfl (le_refl 1)] at drops
  cases drops

end InterchainCommunication.DropRate
