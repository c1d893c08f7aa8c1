import InterchainCommunication.TransportDrain
import InterchainCommunication.TransportProgress

set_option autoImplicit false

namespace InterchainCommunication.TransportLiveness
open MachineRuns TransportModel TransportSteps TransportDrain TransportClosing TransportShutdown ThreadSteps
  TransportTurns TransportAlert TransportProgress

theorem exists_bound (l : List ℕ) : ∃ n, ∀ c ∈ l, c < n :=
  ⟨l.sum + 1, fun _ member => Nat.lt_succ_of_le (List.le_sum_of_mem member)⟩

/-- Threads left to themselves take a bounded number of steps, in whatever order. -/
theorem winds_down {s : TransportImpl} {n : ℕ} (few : Few n s) (due : Due s) {own : List TransportOp}
    {h : List (TransportOp × Option TransportEvent)}
    (guarded : transportMachine.Guarded (fun s _ op => Effective s op) s h own) :
    Due (transportMachine.final s own) ∧ own.length ≤ rank n s.workers.length s := by
  obtain ⟨winding, bound⟩ := transportMachine.guarded_length_le
    (I := Winding n s.workers.length) (fun t op h moves => h.step moves) guarded ⟨rfl, few, due⟩
  exact ⟨winding.due, by omega⟩

theorem running_step {s : TransportImpl} (running : s.running = true) {op : TransportOp}
    (up : ∀ c, op ≠ .shutdown c) : (s.step op).1.running = true := by
  have moves := step_env s op
  generalize s.step op = r at moves ⊢
  cases moves with
  | same _ _ env => exact env.running.trans running
  | stop c => exact absurd rfl (up c)
  | tick | register | unregister | setParams => exact running

theorem running_run (params : NetworkParams) {ops : List TransportOp} (up : ∀ c, .shutdown c ∉ ops) :
    (transportMachine.final (.new params) ops).running = true :=
  transportMachine.invariant (I := fun s => s.running = true) ops rfl fun _ _ member running =>
    running_step running fun c same => up c (same ▸ member)

def Passing (s : TransportImpl) (op : TransportOp) : Prop := Effective s op ∨ ∃ d, op = .tick d

theorem running_passing {s : TransportImpl} {is : List TransportOp} {h : List (TransportOp × Option TransportEvent)}
    (guarded : transportMachine.Guarded (fun s _ op => Passing s op) s h is) (running : s.running = true) :
    (transportMachine.final s is).running = true := by
  refine transportMachine.guarded_invariant_from (I := fun s _ => s.running = true) guarded running ?_
  intro t _ op passing running
  refine running_step running fun c same => ?_
  subst same
  rcases passing with effective | ⟨d, tick⟩
  · exact effective.1
  · cases tick

/-- A running transport that no thread can move has nothing left to do. -/
theorem rests_drained {s : TransportImpl} (h : Alert s) (due : Due s) (running : s.running = true)
    (balanced : TaskCustody.Balanced (custody s)) (stuck : Stuck s) :
    s.pendingCount = 0 ∧ s.inflightCount = 0 ∧ ∀ c, s.clients c = .idle := by
  have waiting : ∀ p ∈ s.workers, p = .waiting := fun p member =>
    (stuck_rests h due stuck p member).resolve_right (h.working running p member)
  have empty : s.tasks = [] := by
    by_contra queued
    rcases h.noticed queued with ⟨p, member, sees⟩ | ⟨c, id, notifies⟩
    · rw [waiting p member] at sees
      cases sees
    · rcases stuck_calls h due stuck c with at_c | at_c | ⟨at_c, -⟩ <;> cases notifies.symm.trans at_c
  obtain ⟨pending, inflight⟩ := (counters_zero_iff balanced).mpr
    ⟨empty, fun p member => by rw [waiting p member]; rfl⟩
  refine ⟨pending, inflight, fun c => ?_⟩
  rcases stuck_calls h due stuck c with idle | blocked | ⟨joining, -⟩
  · exact idle
  · exact absurd ⟨pending, inflight⟩ (h.drains c (by rw [blocked]; rfl))
  · exact absurd (h.serving running c) (by simp [joining, ending])

/-- In every run without a shutdown, from a time on when nothing has to be waited for, every
    schedule of the threads is bounded; and where it cannot go on, every task ever pushed is
    delivered and every call has ended. -/
theorem every_schedule_drains (params : NetworkParams) (ops : List TransportOp) (up : ∀ c, .shutdown c ∉ ops)
    (due : Due (transportMachine.final (.new params) ops)) :
    ∃ bound, ∀ own,
      transportMachine.Guarded (fun s _ op => Effective s op) (transportMachine.final (.new params) ops) [] own →
      own.length ≤ bound ∧
        let s := transportMachine.final (.new params) (ops ++ own)
        let es := eventsOf (transportMachine.trace (.new params) (ops ++ own))
        Stuck s → s.pendingCount = 0 ∧ s.inflightCount = 0 ∧ (∀ c, s.clients c = .idle) ∧
          ∀ c t, .pushed c t ∈ es → Delivered es t := by
  obtain ⟨n, named⟩ := exists_bound (ops.filterMap callerOf)
  have few := few_run params named
  let before := transportMachine.final (.new params) ops
  refine ⟨rank n before.workers.length before, fun own guarded => ?_⟩
  obtain ⟨later, bound⟩ := winds_down few due guarded
  refine ⟨bound, fun stuck => ?_⟩
  obtain ⟨balanced, tracked⟩ := custody_run params (ops ++ own)
  have alert := alert_run params (ops ++ own)
  have running := running_passing (transportMachine.guarded_mono (fun _ _ _ goes => .inl goes) guarded)
    (running_run params up)
  rw [← transportMachine.final_append] at later running
  obtain ⟨pending, inflight, idle⟩ := rests_drained alert later running balanced stuck
  exact ⟨pending, inflight, idle, fun c t pushed => delivered_of_zero balanced tracked pending inflight pushed⟩

def unstamped : ClientPoint → Bool
  | .checked _ _ _ | .kept _ _ => true
  | _ => false

theorem stamping_falls {s : TransportImpl} {n : ℕ} (few : Few n s) (m choice : ℕ) {c : ℕ}
    (unread : unstamped (s.clients c) = true) :
    Few n (s.step (.client c choice)).1 ∧ rank n m (s.step (.client c choice)).1 < rank n m s := by
  have turn := step_turn s (.client c choice)
  refine ⟨few_turn few turn trivial, ?_⟩
  simp only [TransportImpl.step, TransportImpl.client]
  cases at_c : s.clients c with
  | checked dest data draw =>
    simp only
    split
    · exact rank_move_lt (v := .idle) few at_c (by simp [clientRank]) rfl rfl rfl
    · exact rank_move_lt (v := .kept dest data) few at_c (by simp [clientRank]) rfl rfl rfl
  | kept dest data =>
    exact rank_move_lt (v := .stamped (s.clock + s.params.latency) dest data) few at_c (by simp [clientRank]) rfl rfl rfl
  | _ => simp [at_c, unstamped] at unread

theorem exists_due {s : TransportImpl} {n : ℕ} (few : Few n s) (stamped : ∀ c, unstamped (s.clients c) = false) :
    ∃ d, Due (s.step (.tick d)).1 := by
  have stamps (n : ℕ) : ∃ d : ℕ, ∀ c, c < n → early (s.clock + d) (s.clients c) = false := by
    induction n with
    | zero => exact ⟨0, fun c inside => absurd inside (Nat.not_lt_zero c)⟩
    | succ n ih =>
      obtain ⟨d, late⟩ := ih
      have later : ∀ e : ℕ, d ≤ e → ∀ c, c < n → early (s.clock + e) (s.clients c) = false := by
        intro e longer c inside
        have now := late c inside
        cases at_c : s.clients c <;> simp only [at_c, early, decide_eq_false_iff_not] at now ⊢ <;> omega
      cases at_n : s.clients n with
      | stamped deliverAt dest data =>
        refine ⟨d + (deliverAt - s.clock).toNat, fun c inside => ?_⟩
        rcases Nat.lt_succ_iff_lt_or_eq.mp inside with below | rfl
        · exact later _ (Nat.le_add_right _ _) c below
        · simp only [at_n, early, decide_eq_false_iff_not]
          omega
      | checked | kept => exact absurd (stamped n) (by simp [at_n, unstamped])
      | idle | pushed | draining | aboutToDrainWait | drainWaiting | stopping | joining =>
        refine ⟨d, fun c inside => ?_⟩
        rcases Nat.lt_succ_iff_lt_or_eq.mp inside with below | rfl
        · exact late c below
        · rw [at_n]
          rfl
  have tasks (l : List DeliveryTask) : ∃ d : ℕ, ∀ t ∈ l, t.deliverAt ≤ s.clock + d := by
    induction l with
    | nil => exact ⟨0, fun t member => absurd member List.not_mem_nil⟩
    | cons t l ih =>
      obtain ⟨d, late⟩ := ih
      refine ⟨d + (t.deliverAt - s.clock).toNat, fun u member => ?_⟩
      rcases List.mem_cons.mp member with rfl | there
      · omega
      · have now := late u there
        omega
  obtain ⟨d, late⟩ := stamps n
  obtain ⟨e, past⟩ := tasks s.tasks
  refine ⟨d + e, fun t member => ?_, fun c => ?_⟩
  · have now := past t member
    change t.deliverAt ≤ s.clock + (d + e : ℕ)
    omega
  · change early (s.clock + (d + e : ℕ)) (s.clients c) = false
    rcases Nat.lt_or_ge c n with inside | beyond
    · have now := late c inside
      cases at_c : s.clients c <;> simp only [at_c, early, decide_eq_false_iff_not] at now ⊢ <;> omega
    · rw [few c beyond]
      rfl

theorem comes_to_due {s : TransportImpl} {n : ℕ} (few : Few n s) (h : List (TransportOp × Option TransportEvent)) :
    ∃ is, transportMachine.Guarded (fun s _ op => Passing s op) s h is ∧ Few n (transportMachine.final s is) ∧
      Due (transportMachine.final s is) := by
  have stamping : ∀ s op, Few n s →
      (Effective s op ∧ ∃ c choice, op = .client c choice ∧ unstamped (s.clients c) = true) →
      Few n (s.step op).1 ∧ rank n 0 (s.step op).1 < rank n 0 s := by
    rintro s _ few ⟨-, c, choice, rfl, unread⟩
    exact stamping_falls few 0 choice unread
  -- every open call of `send` reads the clock, and then time passes
  obtain ⟨is, stamps, last⟩ := transportMachine.exists_maximal (I := Few n) stamping h few
  have few' := (transportMachine.guarded_length_le (I := Few n) stamping stamps few).1
  have stamped (c : ℕ) : unstamped ((transportMachine.final s is).clients c) = false := by
    refine Bool.eq_false_of_not_eq_true fun unread =>
      last (.client c 0) ⟨⟨trivial, fun same => ?_⟩, c, 0, rfl, unread⟩
    have lower := (stamping_falls few' 0 0 unread).2
    rw [same] at lower
    exact Nat.lt_irrefl _ lower
  obtain ⟨d, due⟩ := exists_due few' stamped
  refine ⟨is ++ [.tick d], (transportMachine.guarded_append ..).mpr ⟨?_, .inr ⟨d, rfl⟩, trivial⟩, ?_⟩
  · exact transportMachine.guarded_mono (fun _ _ _ stamps => .inl stamps.1) stamps
  · rw [transportMachine.final_concat]
    exact ⟨few_step few' (fun c named => nomatch named), due⟩

theorem comes_to_rest {s : TransportImpl} {n : ℕ} (few : Few n s) (due : Due s)
    (h : List (TransportOp × Option TransportEvent)) :
    ∃ is, transportMachine.Guarded (fun s _ op => Effective s op) s h is ∧ Due (transportMachine.final s is) ∧
      Stuck (transportMachine.final s is) := by
  obtain ⟨is, guarded, stuck⟩ := transportMachine.exists_maximal (I := Winding n s.workers.length)
    (fun t op h moves => h.step moves) h ⟨rfl, few, due⟩
  exact ⟨is, guarded, (winds_down few due guarded).1, stuck⟩

/-- From every state of a run without a shutdown the threads and time alone can bring the
    transport to where every task ever pushed is delivered and every call has ended. -/
theorem drains_from_anywhere (params : NetworkParams) (ops : List TransportOp) (up : ∀ c, .shutdown c ∉ ops) :
    ∃ rest,
      transportMachine.Guarded (fun s _ op => Passing s op) (transportMachine.final (.new params) ops) [] rest ∧
        let s := transportMachine.final (.new params) (ops ++ rest)
        let es := eventsOf (transportMachine.trace (.new params) (ops ++ rest))
        s.pendingCount = 0 ∧ s.inflightCount = 0 ∧ (∀ c, s.clients c = .idle) ∧
          ∀ c t, .pushed c t ∈ es → Delivered es t := by
  obtain ⟨n, named⟩ := exists_bound (ops.filterMap callerOf)
  obtain ⟨first, passes, few, due⟩ := comes_to_due (few_run params named) []
  obtain ⟨own, goes, later, stuck⟩ := comes_to_rest few due
    ([] ++ transportMachine.trace (transportMachine.final (.new params) ops) first)
  have guarded := (transportMachine.guarded_append _ [] first own).mpr
    ⟨passes, transportMachine.guarded_mono (fun _ _ _ goes => .inl goes) goes⟩
  refine ⟨first ++ own, guarded, ?_⟩
  have running := running_passing guarded (running_run params up)
  rw [← transportMachine.final_append] at later stuck
  rw [← transportMachine.final_append] at running later stuck
  obtain ⟨balanced, tracked⟩ := custody_run params (ops ++ (first ++ own))
  obtain ⟨pending, inflight, idle⟩ :=
    rests_drained (alert_run params (ops ++ (first ++ own))) later running balanced stuck
  exact ⟨pending, inflight, idle, fun c t pushed => delivered_of_zero balanced tracked pending inflight pushed⟩

/-- The first worker is in its timed wait, a message is queued and a client waits for it. -/
def oneWaitedFor : List TransportOp :=
  [.registerEndpoint [1], .send 0 [1] [7] 0, .client 0 0, .client 0 0, .client 0 0, .worker 0 0, .worker 0 0,
    .worker 0 0, .client 0 0, .waitForPendingDeliveries 0, .client 0 0, .client 0 0]

theorem drains_from_one_waited_for :
    ∃ rest,
      transportMachine.Guarded (fun s _ op => Passing s op) (transportMachine.final (.new ⟨3, 0⟩) oneWaitedFor) []
          rest ∧
        let s := transportMachine.final (.new ⟨3, 0⟩) (oneWaitedFor ++ rest)
        let es := eventsOf (transportMachine.trace (.new ⟨3, 0⟩) (oneWaitedFor ++ rest))
        s.pendingCount = 0 ∧ s.inflightCount = 0 ∧ (∀ c, s.clients c = .idle) ∧
          ∀ c t, .pushed c t ∈ es → Delivered es t :=
  drains_from_anywhere ⟨3, 0⟩ oneWaitedFor fun c => by simp [oneWaitedFor]

def twoUnderway : List TransportOp :=
  [.registerEndpoint [1], .send 0 [1] [7] 0, .client 0 0, .client 0 0, .client 0 0, .send 1 [1] [8] 0,
    .client 1 0, .client 1 0, .worker 0 0, .worker 0 0, .worker 0 0, .tick 3]

theorem every_schedule_drains_two :
    ∃ bound, ∀ own,
      transportMachine.Guarded (fun s _ op => Effective s op) (transportMachine.final (.new ⟨3, 0⟩) twoUnderway) []
        own →
      own.length ≤ bound ∧
        let s := transportMachine.final (.new ⟨3, 0⟩) (twoUnderway ++ own)
        let es := eventsOf (transportMachine.trace (.new ⟨3, 0⟩) (twoUnderway ++ own))
        Stuck s → s.pendingCount = 0 ∧ s.inflightCount = 0 ∧ (∀ c, s.clients c = .idle) ∧
          ∀ c t, .pushed c t ∈ es → Delivered es t := by
  have few : Few 2 (transportMachine.final (.new ⟨3, 0⟩) twoUnderway) := few_run _ (by decide)
  refine every_schedule_drains ⟨3, 0⟩ twoUnderway (fun c => by simp [twoUnderway]) ⟨by decide +kernel, fun c => ?_⟩
  match c with
  | 0 => decide +kernel
  | 1 => decide +kernel
  | c + 2 => rw [few (c + 2) (Nat.le_add_left 2 c)]; rfl

/-- In every run whose notifications of all workers are made while none of them is about to
    block, from such a time on, every schedule that goes on so is bounded; and where it cannot go
    on after a shutdown, every worker has left and no call of `shutdown` or `send` is open. -/
theorem every_shutdown_returns (params : NetworkParams) (ops : List TransportOp)
    (safe : transportMachine.Guarded (fun s _ op => NotifiesAwake s op) (.new params) [] ops)
    (due : Due (transportMachine.final (.new params) ops)) :
    ∃ bound, ∀ own,
      transportMachine.Guarded (fun s _ op => Effective s op ∧ NotifiesAwake s op)
        (transportMachine.final (.new params) ops) [] own →
      own.length ≤ bound ∧
        let s := transportMachine.final (.new params) (ops ++ own)
        Stuck s → s.running = false →
          (∀ p ∈ s.workers, p = .exited) ∧ ∀ c, s.clients c = .idle ∨ s.clients c = .drainWaiting := by
  obtain ⟨n, named⟩ := exists_bound (ops.filterMap callerOf)
  have few := few_run params named
  have stopping := transportMachine.guarded_invariant (I := fun s _ => Stopping s) safe (stopping_new params)
    fun s _ op safe h => h.step op safe
  let before := transportMachine.final (.new params) ops
  refine ⟨rank n before.workers.length before, fun own guarded => ?_⟩
  obtain ⟨⟨winding, awake⟩, bound⟩ := transportMachine.guarded_length_le
    (I := fun s => Winding n before.workers.length s ∧ Stopping s)
    (fun s op h moves => ⟨⟨(h.1.step moves.1).1, h.2.step op moves.2⟩, (h.1.step moves.1).2⟩) guarded
    ⟨⟨rfl, few, due⟩, stopping⟩
  refine ⟨(Nat.le_add_right _ _).trans bound, fun stuck stopped => ?_⟩
  have alert := alert_run params (ops ++ own)
  rw [← transportMachine.final_append] at winding awake
  have rests := stuck_rests alert winding.due stuck
  have calls := stuck_calls alert winding.due stuck
  -- a client that still joins finds no worker in the untimed wait, so all have left
  have left : ∀ p ∈ (transportMachine.final (.new params) (ops ++ own)).workers, p = .exited := by
    rcases alert.stopped stopped with ⟨c, ends⟩ | left
    · rcases calls c with idle | blocked | ⟨joining, -⟩
      · rw [idle] at ends
        cases ends
      · rw [blocked] at ends
        cases ends
      · intro p member
        refine (rests p member).resolve_left ?_
        rintro rfl
        exact absurd (awake.awake c joining _ member) (by decide)
    · exact left
  refine ⟨left, fun c => ?_⟩
  rcases calls c with idle | blocked | ⟨-, p, member, stays⟩
  · exact .inl idle
  · exact .inr blocked
  · exact absurd (left p member) stays

theorem every_shutdown_returns_orderly :
    ∃ bound, ∀ own,
      transportMachine.Guarded (fun s _ op => Effective s op ∧ NotifiesAwake s op)
        (transportMachine.final (.new ⟨0, 0⟩) orderlyStop) [] own →
      own.length ≤ bound ∧
        let s := transportMachine.final (.new ⟨0, 0⟩) (orderlyStop ++ own)
        Stuck s → s.running = false →
          (∀ p ∈ s.workers, p = .exited) ∧ ∀ c, s.clients c = .idle ∨ s.clients c = .drainWaiting := by
  refine every_shutdown_returns ⟨0, 0⟩ orderlyStop (by decide +kernel) ⟨by decide +kernel, fun c => ?_⟩
  match c with
  | 0 => rfl
  | c + 1 => rfl

end InterchainCommunication.TransportLiveness
