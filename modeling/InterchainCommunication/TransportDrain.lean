import InterchainCommunication.ThreadSteps
import InterchainCommunication.TransportSteps

set_option autoImplicit false

namespace InterchainCommunication.TransportDrain
open CoreTypes MachineRuns TransportModel TaskCustody TransportSteps ThreadSteps

/-- A worker that popped a task and has not updated the counters. -/
def inGapPoint : WorkerPoint → Bool
  | .popped _ => true
  | _ => false

def betweenUpdates : WorkerPoint → Bool
  | .counted _ | .looked _ _ | .calling _ _ | .delivered _ _ => true
  | _ => false

/-- The task was popped once, by one worker and when it was due, and that worker looked its
    endpoint up and, if there was one, called its deliver function and came back. -/
def Delivered (es : List TransportEvent) (t : DeliveryTask) : Prop :=
  ∃ k f, Handled (story es t.id) t k (report k t f)

theorem countP_inGap (ws : List WorkerPoint) : (ws.map stageOf).countP inGap = ws.countP inGapPoint :=
  countP_stageOf (fun p => by cases p <;> rfl) ws

theorem countP_inFlight (ws : List WorkerPoint) : (ws.map stageOf).countP inFlight = ws.countP betweenUpdates :=
  countP_stageOf (fun p => by cases p <;> rfl) ws

theorem delivered_of_zero {c : Custody} {es : List TransportEvent} (balanced : Balanced c) (tracked : Tracked c es)
    (pending : c.pending = 0) (inflight : c.inflight = 0) {client : ℕ} {t : DeliveryTask}
    (pushed : .pushed client t ∈ es) : Delivered es t := by
  obtain ⟨empty, free⟩ := balanced.zero_iff.mp ⟨pending, inflight⟩
  rcases tracked.placed_of_pushed pushed with queued | ⟨k, st, held, -⟩ | finished
  · rw [empty] at queued
    cases queued
  · cases free _ (List.mem_of_getElem? held)
  · exact finished

/-- What clients know of their sends: each Ok return is of a task that was pushed. -/
structure SendsKnown (s : TransportImpl) (es : List TransportEvent) : Prop where
  standing : ∀ c id, s.clients c = .pushed id → ∃ t, t.id = id ∧ .pushed c t ∈ es
  returned : ∀ c status id, .sendReturned c status id ∈ es → status.ok = true →
    ∃ t, id = some t.id ∧ .pushed c t ∈ es

theorem sendsKnown_step {s : TransportImpl} {es : List TransportEvent} (h : SendsKnown s es) (op : TransportOp) :
    SendsKnown (s.step op).1 (es ++ (s.step op).2.toList) := by
  constructor
  · intro c id stands
    have moves := step_client s op c
    rw [stands] at moves
    generalize before : s.clients c = p at moves
    generalize (s.step op).2 = e at moves ⊢
    cases moves with
    | stay quiet =>
      obtain ⟨t, number, pushed⟩ := h.standing c id before
      exact ⟨t, number, List.mem_append_left _ pushed⟩
    | push deliverAt dest data =>
      exact ⟨⟨s.pushes, deliverAt, dest, data⟩, rfl, List.mem_append_right _ (List.mem_singleton_self _)⟩
  · intro c status id member ok
    rcases List.mem_append.mp member with old | new
    · obtain ⟨t, number, pushed⟩ := h.returned c status id old ok
      exact ⟨t, number, List.mem_append_left _ pushed⟩
    · obtain ⟨p, p', before, -, moves⟩ := client_of_event (Option.mem_toList.mp new) c
      cases moves with
      | stay _ _ quiet => exact absurd rfl quiet
      | refuse _ _ bad => exact absurd (ok.symm.trans bad) (by decide)
      | notify id =>
        obtain ⟨t, number, pushed⟩ := h.standing c id before
        exact ⟨t, congrArg some number.symm, List.mem_append_left _ pushed⟩

theorem sends_known (params : NetworkParams) (ops : List TransportOp) :
    SendsKnown (transportMachine.final (.new params) ops) (eventsOf (transportMachine.trace (.new params) ops)) := by
  refine transportMachine.history_invariant (I := fun s t => SendsKnown s (eventsOf t)) ops ⟨?_, ?_⟩ ?_
  · exact fun c id stands => nomatch stands
  · exact fun c status id member => absurd member List.not_mem_nil
  · intro s t op _ h
    rw [eventsOf_concat]
    exact sendsKnown_step h op

theorem waitReturned_counters {s : TransportImpl} {op : TransportOp} {c : ℕ}
    (returned : (s.step op).2 = some (.waitReturned c)) : s.pendingCount = 0 ∧ s.inflightCount = 0 := by
  obtain ⟨p, p', -, -, moves⟩ := client_of_event returned c
  cases moves with
  | stay _ _ quiet => exact absurd rfl quiet
  | drained empty still => exact ⟨empty, still⟩

/-- In every run: what the counters count, that none goes below zero, and what a drain means. -/
theorem drain_correct (params : NetworkParams) (ops : List TransportOp) :
    let s := transportMachine.final (.new params) ops
    let es := eventsOf (transportMachine.trace (.new params) ops)
    (s.pendingCount = s.tasks.length + s.workers.countP inGapPoint ∧
      s.inflightCount = s.workers.countP betweenUpdates) ∧
    (∀ (k : ℕ) (t : DeliveryTask), s.workers[k]? = some (.popped t) → 0 < s.pendingCount) ∧
    (∀ (k : ℕ) (t : DeliveryTask) (f : Option ℕ), s.workers[k]? = some (.delivered t f) → 0 < s.inflightCount) ∧
    (∀ c status id, .sendReturned c status id ∈ es → status.ok = true →
      ∃ t, id = some t.id ∧ .pushed c t ∈ es) ∧
    (∀ op k t f, (s.step op).2 = some (.lookedUp k t f) → f = s.endpoints t.to) ∧
    ∀ op c, (s.step op).2 = some (.waitReturned c) → ∀ client t, .pushed client t ∈ es → Delivered es t := by
  intro s es
  obtain ⟨balanced, tracked⟩ := custody_run params ops
  have pending : s.pendingCount = s.tasks.length + s.workers.countP inGapPoint := by
    rw [← countP_inGap]
    exact balanced.pending
  have inflight : s.inflightCount = s.workers.countP betweenUpdates := by
    rw [← countP_inFlight]
    exact balanced.inflight
  refine ⟨⟨pending, inflight⟩, ?_, ?_, (sends_known params ops).returned, fun op k t f => lookedUp_endpoint, ?_⟩
  · intro k t at_k
    have gap : 0 < s.workers.countP inGapPoint := List.countP_pos_iff.mpr ⟨_, List.mem_of_getElem? at_k, rfl⟩
    omega
  · intro k t f at_k
    have flight : 0 < s.workers.countP betweenUpdates :=
      List.countP_pos_iff.mpr ⟨_, List.mem_of_getElem? at_k, rfl⟩
    omega
  · intro op c returned client t pushed
    obtain ⟨none, still⟩ := waitReturned_counters returned
    exact delivered_of_zero balanced tracked none still pushed

def oneDelivery : List TransportOp :=
  [.registerEndpoint [1], .send 0 [1] [7] 0, .client 0 0, .client 0 0, .client 0 0, .client 0 0,
    .worker 0 0, .worker 0 0, .worker 0 0, .worker 0 0, .worker 0 0, .worker 0 0, .worker 0 0,
    .waitForPendingDeliveries 0]

theorem drain_correct_one_delivery :
    Delivered (eventsOf (transportMachine.trace (.new ⟨0, 0⟩) oneDelivery)) ⟨0, 0, [1], [7]⟩ := by
  have law := (drain_correct ⟨0, 0⟩ oneDelivery).2.2.2.2.2
  exact law (.client 0 0) 0 (by decide +kernel) 0 ⟨0, 0, [1], [7]⟩ (by decide +kernel)

end InterchainCommunication.TransportDrain
