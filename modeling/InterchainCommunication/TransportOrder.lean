import InterchainCommunication.ThreadSteps
import InterchainCommunication.TransportSteps

set_option autoImplicit false

namespace InterchainCommunication.TransportOrder
open CoreTypes MachineRuns TransportModel TaskCustody TransportSteps ThreadSteps

/-- Of two messages that one thread sent to one address, the first is called for first. -/
def CallsInOrder (es : List TransportEvent) : Prop :=
  ∀ c t₁ t₂ k f, Before es (.pushed c t₁) (.pushed c t₂) → t₁.to = t₂.to → .called k t₂ f ∈ es →
    ∃ k' f', Before es (.called k' t₁ f') (.called k t₂ f)

/-- No call of `setParams` in the run changes the latency. -/
def ConstantLatency (latency : ℤ) (ops : List TransportOp) : Prop :=
  ∀ p, .setParams p ∈ ops → p.latency = latency

section Stamps

/-- Under a constant latency the times of one client's tasks follow the clock. -/
structure Stamped (latency : ℤ) (s : TransportImpl) (es : List TransportEvent) : Prop where
  latency_eq : s.params.latency = latency
  due : ∀ c t, .pushed c t ∈ es → t.deliverAt ≤ s.clock + latency
  standing : ∀ c deliverAt dest data, s.clients c = .stamped deliverAt dest data →
    deliverAt ≤ s.clock + latency ∧ ∀ t, .pushed c t ∈ es → t.deliverAt ≤ deliverAt
  ordered : ∀ c t₁ t₂, Before es (.pushed c t₁) (.pushed c t₂) → t₁.deliverAt ≤ t₂.deliverAt

variable {latency : ℤ} {s : TransportImpl} {es : List TransportEvent}

theorem Stamped.step (h : Stamped latency s es) (op : TransportOp)
    (constant : ∀ p, op = .setParams p → p.latency = latency) :
    Stamped latency (s.step op).1 (es ++ (s.step op).2.toList) := by
  have later := clock_grows s op
  constructor
  · exact latency_stays h.latency_eq constant
  · intro c t member
    rcases List.mem_append.mp member with old | new
    · have due := h.due c t old
      omega
    · obtain ⟨stamped, -⟩ := pushed_cases (Option.mem_toList.mp new)
      have due := (h.standing c _ _ _ stamped).1
      omega
  · intro c deliverAt dest data stands
    have moves := step_client s op c
    rw [stands] at moves
    generalize before : s.clients c = p at moves
    generalize (s.step op).2 = e at moves ⊢
    cases moves with
    | stay _ _ quiet =>
      obtain ⟨due, latest⟩ := h.standing c deliverAt dest data before
      refine ⟨by omega, fun t member => ?_⟩
      rcases List.mem_append.mp member with old | new
      · exact latest t old
      · exact absurd (congrArg (·.bind clientOf) (Option.mem_toList.mp new)) quiet
    | stamp dest data =>
      rw [h.latency_eq]
      refine ⟨by omega, fun t member => ?_⟩
      rw [Option.toList_none, List.append_nil] at member
      exact h.due c t member
  · intro c t₁ t₂ pushes
    rcases before_concat pushes with old | ⟨first, new⟩
    · exact h.ordered c t₁ t₂ old
    · obtain ⟨stamped, -⟩ := pushed_cases new
      exact (h.standing c _ _ _ stamped).2 t₁ first

theorem stamped_run (params : NetworkParams) (ops : List TransportOp) (constant : ConstantLatency params.latency ops) :
    Stamped params.latency (transportMachine.final (.new params) ops)
      (eventsOf (transportMachine.trace (.new params) ops)) := by
  refine transportMachine.history_invariant (I := fun s t => Stamped params.latency s (eventsOf t)) ops ?_ ?_
  · refine ⟨rfl, ?_, ?_, ?_⟩
    · exact fun c t member => absurd member List.not_mem_nil
    · exact fun c deliverAt dest data stands => nomatch stands
    · exact fun c t₁ t₂ pushes => absurd pushes.left_mem List.not_mem_nil
  · intro s t op member h
    rw [eventsOf_concat]
    refine h.step op fun p same => constant p ?_
    rwa [← same]

end Stamps
section Pops
variable {c c' : Custody} {es : List TransportEvent} {e : Option TransportEvent}

/-- A task that is due earlier and was pushed earlier is popped earlier. -/
def PopsInOrder (es : List TransportEvent) : Prop :=
  ∀ c t₁ t₂ k now, Before es (.pushed c t₁) (.pushed c t₂) → t₁.deliverAt < t₂.deliverAt →
    .popped k t₂ now ∈ es → ∃ k' now', Before es (.popped k' t₁ now') (.popped k t₂ now)

theorem handled_popped {t : DeliveryTask} {k : ℕ} {rest : List TransportEvent}
    (h : Handled (story es t.id) t k rest) : ∃ now, .popped k t now ∈ es := by
  obtain ⟨client, now, -, history⟩ := h
  refine ⟨now, mem_of_story (i := t.id) ?_⟩
  rw [history]
  exact List.mem_cons_of_mem _ List.mem_cons_self

theorem popped_of_earlier (tracked : Tracked c es) {client : ℕ} {t₁ t₂ : DeliveryTask}
    (pushed : .pushed client t₁ ∈ es) (earlier : t₁.deliverAt < t₂.deliverAt)
    (earliest : ∀ u ∈ c.queue, t₂.deliverAt ≤ u.deliverAt) : ∃ k now, .popped k t₁ now ∈ es := by
  rcases tracked.placed_of_pushed pushed with queued | ⟨k, st, held, rfl⟩ | ⟨k, f, history⟩
  · exact absurd (earliest t₁ queued) (by omega)
  · exact ⟨k, handled_popped (tracked.held k st held)⟩
  · exact ⟨k, handled_popped history⟩

theorem PopsInOrder.moves (h : PopsInOrder es) (tracked : Tracked c es) (moves : Moves c e c') :
    PopsInOrder (es ++ e.toList) := by
  intro client t₁ t₂ k now pushes earlier popped
  rcases List.mem_append.mp popped with old | new
  · rcases before_concat pushes with before | ⟨-, late⟩
    · obtain ⟨k', now', order⟩ := h client t₁ t₂ k now before earlier old
      exact ⟨k', now', order.append _⟩
    · -- a task is not popped before it is pushed
      subst late
      cases moves with
      | keep _ quiet => cases quiet
      | push _ _ number =>
        have mine := mem_story old rfl
        rw [tracked.fresh t₂.id number.ge] at mine
        exact absurd mine List.not_mem_nil
  · have pop := Option.mem_toList.mp new
    subst pop
    have first : .pushed client t₁ ∈ es := by
      rcases before_concat pushes with before | ⟨first, -⟩
      · exact before.left_mem
      · exact first
    cases moves with
    | keep _ quiet => cases quiet
    | pop _ _ _ _ _ _ earliest =>
      obtain ⟨k', now', taken⟩ := popped_of_earlier tracked first earlier earliest
      exact ⟨k', now', before_append taken (List.mem_singleton_self _)⟩

theorem popsInOrder_run (params : NetworkParams) (ops : List TransportOp) :
    PopsInOrder (eventsOf (transportMachine.trace (.new params) ops)) := by
  have both := transportMachine.history_invariant (s := .new params)
    (I := fun s t => Tracked (custody s) (eventsOf t) ∧ PopsInOrder (eventsOf t)) ops ⟨tracked_new params, ?_⟩ ?_
  · exact both.2
  · exact fun c t₁ t₂ k now pushes => absurd pushes.left_mem List.not_mem_nil
  · rintro s t op - ⟨tracked, order⟩
    rw [eventsOf_concat]
    have moves := step_moves s op
    exact ⟨tracked_moves tracked moves, order.moves tracked moves⟩

end Pops
section Calls
variable {s : TransportImpl} {es : List TransportEvent}

def BeforeCall (t : DeliveryTask) (p : WorkerPoint) : Prop :=
  p = .popped t ∨ p = .counted t ∨ ∃ f, p = .looked t (some f)

/-- The deliver function was called with the task, or there was none when the worker looked. -/
def Called (es : List TransportEvent) (t : DeliveryTask) : Prop :=
  ∃ k, (∃ f, .called k t f ∈ es) ∨ .lookedUp k t none ∈ es

theorem handled_rest {t : DeliveryTask} {k : ℕ} {rest : List TransportEvent} {ev : TransportEvent}
    (h : Handled (story es t.id) t k rest) (member : ev ∈ rest) : ev ∈ es := by
  obtain ⟨client, now, -, history⟩ := h
  refine mem_of_story (i := t.id) ?_
  rw [history]
  exact List.mem_cons_of_mem _ (List.mem_cons_of_mem _ member)

theorem called_of_report {t : DeliveryTask} {k : ℕ} {f : Option ℕ}
    (h : Handled (story es t.id) t k (report k t f)) : Called es t := by
  cases f with
  | none => exact ⟨k, .inr (handled_rest h (by simp [report]))⟩
  | some f => exact ⟨k, .inl ⟨f, handled_rest h (by simp [report])⟩⟩

theorem called_or_held (tracked : Tracked (custody s) es) {client k : ℕ} {t : DeliveryTask} {now : ℤ}
    (pushed : .pushed client t ∈ es) (popped : .popped k t now ∈ es) :
    Called es t ∨ ∃ (k' : ℕ) (p : WorkerPoint), s.workers[k']? = some p ∧ BeforeCall t p := by
  rcases tracked.placed_of_pushed pushed with queued | ⟨k', st, held, rfl⟩ | ⟨k', f, history⟩
  · obtain ⟨client', waiting⟩ := tracked.queued t queued
    have mine := mem_story popped rfl
    rw [waiting, List.mem_singleton] at mine
    cases mine
  · obtain ⟨p, at_k, stage⟩ := worker_of_held held
    have history := tracked.held k' st held
    cases p with
    | loopHead | atLock | aboutToWait | waiting | aboutToWaitFor | waitingFor | woken | exited => cases stage
    | popped t =>
      obtain rfl := Option.some.inj stage
      exact .inr ⟨k', _, at_k, .inl rfl⟩
    | counted t =>
      obtain rfl := Option.some.inj stage
      exact .inr ⟨k', _, at_k, .inr (.inl rfl)⟩
    | looked t f =>
      obtain rfl := Option.some.inj stage
      cases f with
      | none => exact .inl ⟨k', .inr (handled_rest history (by simp [past, Stage.task]))⟩
      | some f => exact .inr ⟨k', _, at_k, .inr (.inr ⟨f, rfl⟩)⟩
    | calling t f =>
      obtain rfl := Option.some.inj stage
      exact .inl ⟨k', .inl ⟨f, handled_rest history (by simp [past, Stage.task])⟩⟩
    | delivered t f =>
      obtain rfl := Option.some.inj stage
      exact .inl (called_of_report history)
  · exact .inl (called_of_report history)

end Calls

/-- In every run of constant latency: a later message of a client is never due earlier. When it
    is due later, it is popped later, and when it is called for, the earlier one has been called
    for or another worker has it in its hand. -/
theorem order_until_popped (params : NetworkParams) (ops : List TransportOp)
    (constant : ConstantLatency params.latency ops) :
    let s := transportMachine.final (.new params) ops
    let es := eventsOf (transportMachine.trace (.new params) ops)
    (∀ c t₁ t₂, Before es (.pushed c t₁) (.pushed c t₂) → t₁.deliverAt ≤ t₂.deliverAt) ∧
    (∀ c t₁ t₂ k now, Before es (.pushed c t₁) (.pushed c t₂) → t₁.deliverAt < t₂.deliverAt →
      .popped k t₂ now ∈ es → ∃ k' now', Before es (.popped k' t₁ now') (.popped k t₂ now)) ∧
    ∀ op c t₁ t₂ k f, Before es (.pushed c t₁) (.pushed c t₂) → t₁.deliverAt < t₂.deliverAt →
      (s.step op).2 = some (.called k t₂ f) →
      Called es t₁ ∨ ∃ (k' : ℕ) (p : WorkerPoint), k' ≠ k ∧ s.workers[k']? = some p ∧ BeforeCall t₁ p := by
  intro s es
  have order : PopsInOrder es := popsInOrder_run params ops
  refine ⟨(stamped_run params ops constant).ordered, order, ?_⟩
  intro op c t₁ t₂ k f pushes earlier called
  obtain ⟨-, tracked⟩ := custody_run params ops
  have at_k : s.workers[k]? = some (.looked t₂ (some f)) := called_looked called
  obtain ⟨now, popped⟩ := handled_popped (tracked.held k _ (custody_hand at_k))
  obtain ⟨k₁, now₁, first⟩ := order c t₁ t₂ k now pushes earlier popped
  rcases called_or_held tracked pushes.left_mem first.left_mem with done | ⟨k', p, at_k', holds⟩
  · exact .inl done
  · refine .inr ⟨k', p, ?_, at_k', holds⟩
    rintro rfl
    obtain rfl := Option.some.inj (at_k'.symm.trans at_k)
    rcases holds with held | held | ⟨f', held⟩
    · cases held
    · cases held
    · obtain ⟨rfl, -⟩ := WorkerPoint.looked.inj held
      exact absurd earlier (lt_irrefl _)

/-- One client sends two messages, the clock going on in between. Worker 0 pops the first,
    worker 1 the second, and worker 1 calls first. -/
def overtaking : List TransportOp :=
  [.registerEndpoint [1],
    .send 0 [1] [7] 0, .client 0 0, .client 0 0, .client 0 0, .client 0 0, .tick 1,
    .send 0 [1] [8] 0, .client 0 0, .client 0 0, .client 0 0, .client 0 0,
    .worker 0 0, .worker 0 0, .worker 1 0, .worker 1 0,
    .worker 1 0, .worker 1 0, .worker 1 0]

theorem order_until_popped_overtaking :
    ∃ k now, Before (eventsOf (transportMachine.trace (.new ⟨0, 0⟩) overtaking))
      (.popped k ⟨0, 0, [1], [7]⟩ now) (.popped 1 ⟨1, 1, [1], [8]⟩ 1) := by
  have constant : ConstantLatency 0 overtaking := fun p member => by simp [overtaking] at member
  have law := (order_until_popped ⟨0, 0⟩ overtaking constant).2.1
  exact law 0 ⟨0, 0, [1], [7]⟩ ⟨1, 1, [1], [8]⟩ 1 1 (by decide +kernel) (by decide) (by decide +kernel)

/-- A constant latency, a transport that drops nothing and an endpoint that stays are not enough:
    the second message of the run is called for, and the first is not. -/
theorem calls_overtake : ¬ ∀ (params : NetworkParams) (ops : List TransportOp), params.dropRate = 0 →
    (∀ p, .setParams p ∉ ops) → (∀ address, .unregisterEndpoint address ∉ ops) →
      CallsInOrder (eventsOf (transportMachine.trace (.new params) ops)) := by
  intro ordered
  have order := ordered ⟨0, 0⟩ overtaking rfl (fun p => by simp [overtaking]) (fun address => by simp [overtaking])
  obtain ⟨k, f, first⟩ := order 0 ⟨0, 0, [1], [7]⟩ ⟨1, 1, [1], [8]⟩ 1 0 (by decide +kernel) rfl (by decide +kernel)
  have history : story (eventsOf (transportMachine.trace (.new ⟨0, 0⟩) overtaking)) 0 =
      [.pushed 0 ⟨0, 0, [1], [7]⟩, .popped 0 ⟨0, 0, [1], [7]⟩ 1] := by decide +kernel
  have called := mem_story first.left_mem rfl
  rw [history] at called
  simp at called

end InterchainCommunication.TransportOrder
