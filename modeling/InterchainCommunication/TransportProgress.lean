import InterchainCommunication.ListSums
import InterchainCommunication.TransportAlert
import InterchainCommunication.TransportClosing

set_option autoImplicit false

namespace InterchainCommunication.TransportProgress
open ListSums MachineRuns TransportModel TransportSteps TransportClosing TransportShutdown ThreadSteps TransportTurns
  TransportAlert

/-- A thread can go on by itself. -/
def Effective (s : TransportImpl) (op : TransportOp) : Prop := Own s op ∧ (s.step op).1 ≠ s

/-- A call of `send` whose task is not due, or not stamped at all. -/
def early (clock : ℤ) : ClientPoint → Bool
  | .checked _ _ _ | .kept _ _ => true
  | .stamped deliverAt _ _ => clock < deliverAt
  | _ => false

/-- Nothing is queued, or will be pushed, that has to be waited for. -/
structure Due (s : TransportImpl) : Prop where
  queued : ∀ t ∈ s.tasks, t.deliverAt ≤ s.clock
  stamped : ∀ c, early s.clock (s.clients c) = false

def Few (n : ℕ) (s : TransportImpl) : Prop := ∀ c, n ≤ c → s.clients c = .idle

section Rank

/-- How far a worker is from its rest. The end of a delivery may wake `n` drain waiters. -/
def workerRank (n : ℕ) : WorkerPoint → ℕ
  | .exited | .waiting => 0
  | .aboutToWait => 1
  | .atLock => 2
  | .loopHead => 3
  | .woken => 4
  | .waitingFor => 5
  | .aboutToWaitFor => 6
  | .delivered _ _ => 2 * n + 4
  | .calling _ _ => 2 * n + 5
  | .looked _ _ => 2 * n + 6
  | .counted _ => 2 * n + 7
  | .popped _ => 2 * n + 8

/-- The same of a client. A push leaves a task and a notification, and the end of `shutdown`
    notifies `m` workers. -/
def clientRank (n m : ℕ) : ClientPoint → ℕ
  | .idle | .drainWaiting => 0
  | .aboutToDrainWait | .joining => 1
  | .draining => 2
  | .pushed _ => 3
  | .stopping => 2 * m + 2
  | .stamped _ _ _ => 2 * n + 11
  | .kept _ _ => 2 * n + 12
  | .checked _ _ _ => 2 * n + 13

/-- What the threads still have to do. -/
def rank (n m : ℕ) (s : TransportImpl) : ℕ :=
  s.tasks.length * (2 * n + 7) + (s.workers.map (workerRank n)).sum +
    ∑ c ∈ Finset.range n, clientRank n m (s.clients c)

theorem sum_move {f : ClientPoint → ℕ} {n c : ℕ} (inside : c < n) (g : ℕ → ClientPoint) (q : ClientPoint) :
    ∑ i ∈ Finset.range n, f (Function.update g c q i) + f (g c) = ∑ i ∈ Finset.range n, f (g i) + f q := by
  have member : c ∈ Finset.range n := Finset.mem_range.mpr inside
  rw [← Finset.add_sum_erase _ _ member, ← Finset.add_sum_erase _ (fun i => f (g i)) member, Function.update_self]
  have rest : ∑ i ∈ (Finset.range n).erase c, f (Function.update g c q i) =
      ∑ i ∈ (Finset.range n).erase c, f (g i) := by
    refine Finset.sum_congr rfl fun i hi => ?_
    rw [Function.update_of_ne (Finset.ne_of_mem_erase hi)]
  omega

theorem workerRank_wake (n : ℕ) (p : WorkerPoint) : workerRank n p.wake ≤ workerRank n p + 2 := by
  cases p <;> simp [WorkerPoint.wake, workerRank]

theorem sum_wake (n : ℕ) (ws : List WorkerPoint) :
    ((ws.map WorkerPoint.wake).map (workerRank n)).sum ≤ (ws.map (workerRank n)).sum + 2 * ws.length :=
  sum_map_le (workerRank_wake n) ws

theorem clientRank_wakeDrain (n m : ℕ) (q : ClientPoint) : clientRank n m q.wakeDrain ≤ clientRank n m q + 2 := by
  cases q <;> simp [ClientPoint.wakeDrain, clientRank]

theorem sum_wakeDrain (n m : ℕ) (woken : Prop) [Decidable woken] (g : ℕ → ClientPoint) :
    ∑ c ∈ Finset.range n, clientRank n m (if woken then (g c).wakeDrain else g c) ≤
      ∑ c ∈ Finset.range n, clientRank n m (g c) + 2 * n := by
  have each : ∀ c ∈ Finset.range n,
      clientRank n m (if woken then (g c).wakeDrain else g c) ≤ clientRank n m (g c) + 2 := by
    intro c _
    split
    · exact clientRank_wakeDrain n m (g c)
    · exact Nat.le_add_right _ 2
  have total := Finset.sum_le_sum each
  rw [Finset.sum_add_distrib, Finset.sum_const, Finset.card_range, smul_eq_mul] at total
  omega

end Rank

section Fall
variable {n m : ℕ} {s r : TransportImpl} {op : TransportOp}

theorem rank_put {k : ℕ} {p w : WorkerPoint} (at_k : s.workers[k]? = some p)
    (workers : r.workers = s.workers.set k w) (tasks : r.tasks = s.tasks) (clients : r.clients = s.clients) :
    rank n m r + workerRank n p = rank n m s + workerRank n w := by
  have moved := sum_set (f := workerRank n) at_k w
  simp only [rank, workers, tasks, clients]
  omega

theorem rank_put_lt {k : ℕ} {p w : WorkerPoint} (at_k : s.workers[k]? = some p)
    (lower : workerRank n w < workerRank n p) (workers : r.workers = s.workers.set k w) (tasks : r.tasks = s.tasks)
    (clients : r.clients = s.clients) : rank n m r < rank n m s := by
  have fall := rank_put (n := n) (m := m) at_k workers tasks clients
  omega

theorem rank_move {c : ℕ} {q v : ClientPoint} (few : Few n s) (at_c : s.clients c = q) (busy : q ≠ .idle)
    (clients : r.clients = Function.update s.clients c v) (tasks : r.tasks = s.tasks)
    (workers : r.workers = s.workers) : rank n m r + clientRank n m q = rank n m s + clientRank n m v := by
  have inside : c < n := by
    by_contra beyond
    exact busy (at_c.symm.trans (few c (not_lt.mp beyond)))
  have moved := sum_move (f := clientRank n m) inside s.clients v
  rw [at_c] at moved
  simp only [rank, workers, tasks, clients]
  omega

theorem rank_move_lt {c : ℕ} {q v : ClientPoint} (few : Few n s) (at_c : s.clients c = q)
    (lower : clientRank n m v < clientRank n m q) (clients : r.clients = Function.update s.clients c v)
    (tasks : r.tasks = s.tasks) (workers : r.workers = s.workers) : rank n m r < rank n m s := by
  have busy : q ≠ .idle := by
    rintro rfl
    exact absurd lower (Nat.not_lt_zero _)
  have fall := rank_move (n := n) (m := m) few at_c busy clients tasks workers
  omega

/-- Every step that a thread takes by itself brings the whole nearer to its rest. -/
theorem rank_falls (size : s.workers.length = m) (few : Few n s) (due : Due s) (turn : Turn s op r) (own : Own s op)
    (moves : r ≠ s) : rank n m r < rank n m s := by
  cases turn with
  | stay => exact absurd rfl moves
  | around _ _ foreign => exact absurd own foreign
  | begin _ _ _ _ begins => cases begins <;> cases own
  | stop | wakeClient => cases own
  | wakeWorker k p at_k =>
    obtain rfl := Option.some.inj (at_k.symm.trans own)
    exact rank_put_lt (w := .woken) at_k (by simp [workerRank]) rfl rfl rfl
  | stride k _ p p' at_k strides =>
    refine rank_put_lt at_k ?_ rfl rfl rfl
    cases strides <;> simp only [workerRank] <;> omega
  | block k _ at_k => exact rank_put_lt (w := .aboutToWait) at_k (by simp [workerRank]) rfl rfl rfl
  | release k _ p p' at_k releases =>
    refine rank_put_lt (w := p') at_k ?_ rfl rfl rfl
    cases releases <;> simp [workerRank]
  | count k _ t at_k => exact rank_put_lt (w := .counted t) at_k (by simp [workerRank]) rfl rfl rfl
  | notDue k choice t at_k _ found early =>
    have now := due.queued t (List.mem_of_getElem? (top_some found).1)
    omega
  | pop k choice t at_k _ found =>
    have put := sum_set (f := workerRank n) at_k (.popped t)
    have inside := (List.getElem?_eq_some_iff.mp (top_some found).1).1
    have fewer : (s.tasks.eraseIdx choice).length + 1 = s.tasks.length := by
      rw [List.length_eraseIdx_of_lt inside]
      omega
    simp only [rank, TransportImpl.put, workerRank] at put ⊢
    rw [← fewer, Nat.add_mul]
    omega
  | finish k _ t f at_k =>
    have put := sum_set (f := workerRank n) at_k .loopHead
    have woken := sum_wakeDrain n m (s.pendingCount = 0 ∧ dec s.inflightCount = 0) s.clients
    simp only [rank, TransportImpl.finishTask, TransportImpl.put, workerRank] at put ⊢
    omega
  | go c _ q q' at_c strides =>
    refine rank_move_lt few at_c ?_ rfl rfl rfl
    cases strides <;> simp only [clientRank] <;> omega
  | push c _ deliverAt dest data at_c =>
    -- the queue grows by the task the call stood for
    have moved := rank_move (m := m) (r := s.move c (.pushed s.pushes)) few at_c (by simp) rfl rfl rfl
    simp only [rank, TransportImpl.move, clientRank, List.length_append, List.length_singleton, Nat.add_mul,
      Nat.one_mul] at moved ⊢
    omega
  | notify c choice id ws at_c woke =>
    have fall := rank_move (m := m) (r := s.move c .idle) few at_c (by simp) rfl rfl rfl
    simp only [clientRank] at fall
    rcases notifyOne_cases woke with ⟨rfl, -⟩ | ⟨p, at_k, -, rfl⟩
    · change rank n m (s.move c .idle) < _
      omega
    · have put := rank_put (n := n) (m := m) (s := s.move c .idle)
        (r := { s.move c .idle with workers := s.workers.set choice p.wake }) at_k rfl rfl rfl
      have woken := workerRank_wake n p
      omega
  | drainBlock c _ at_c => exact rank_move_lt (v := .aboutToDrainWait) few at_c (by simp [clientRank]) rfl rfl rfl
  | drainRelease c _ at_c => exact rank_move_lt (v := .drainWaiting) few at_c (by simp [clientRank]) rfl rfl rfl
  | notifyAll c _ at_c =>
    have fall := rank_move (m := m) (r := s.move c .joining) few at_c (by simp) rfl rfl rfl
    have woken := sum_wake n s.workers
    simp only [rank, TransportImpl.move, clientRank] at fall ⊢
    omega

theorem few_turn (few : Few n s) (turn : Turn s op r) (own : Own s op) : Few n r := by
  intro c beyond
  have idle := few c beyond
  have move {c' : ℕ} {q v : ClientPoint} (at_c : s.clients c' = q) (busy : q ≠ .idle) :
      (s.move c' v).clients c = .idle := by
    rw [clients_move_other ?_, idle]
    rintro rfl
    exact busy (at_c.symm.trans idle)
  cases turn with
  | stay | wakeWorker | stride | block | pop | notDue | release | count => exact idle
  | around _ _ foreign => exact absurd own foreign
  | begin _ _ _ _ begins => cases begins <;> cases own
  | stop | wakeClient => cases own
  | go _ _ _ _ at_c strides => exact move at_c (by cases strides <;> simp)
  | push _ _ _ _ _ at_c | notify _ _ _ _ at_c | drainBlock _ _ at_c | drainRelease _ _ at_c | notifyAll _ _ at_c =>
    exact move at_c (by simp)
  | finish =>
    simp only [TransportImpl.finishTask, idle, ClientPoint.wakeDrain, ite_self]

theorem due_turn (due : Due s) (turn : Turn s op r) (own : Own s op) : Due r := by
  have move {c' : ℕ} {v : ClientPoint} (late : early s.clock v = false) (c : ℕ) :
      early s.clock ((s.move c' v).clients c) = false := by
    by_cases mine : c = c'
    · rw [mine, clients_move_self, late]
    · rw [clients_move_other mine]
      exact due.stamped c
  cases turn with
  | stay | wakeWorker | stride | block | notDue | release | count => exact ⟨due.queued, due.stamped⟩
  | around _ _ foreign => exact absurd own foreign
  | begin _ _ _ _ begins => cases begins <;> cases own
  | stop | wakeClient => cases own
  | pop => exact ⟨fun t member => due.queued t (List.mem_of_mem_eraseIdx member), due.stamped⟩
  | go c _ q v at_c strides =>
    refine ⟨due.queued, move ?_⟩
    cases strides with
    | stamp => exact absurd (due.stamped c) (by simp [at_c, early])
    | pass => exact absurd (due.stamped c) (by simp [at_c, early])
    | drop | drained | joined => rfl
  | push c _ deliverAt dest data at_c =>
    refine ⟨fun t member => ?_, move rfl⟩
    rcases List.mem_append.mp member with there | new
    · exact due.queued t there
    · obtain rfl := List.mem_singleton.mp new
      have late := due.stamped c
      rw [at_c] at late
      have past : deliverAt ≤ s.clock := by simpa [early] using late
      exact past
  | notify | drainBlock | drainRelease | notifyAll => exact ⟨due.queued, move rfl⟩
  | finish =>
    refine ⟨due.queued, fun c => ?_⟩
    have late := due.stamped c
    simp only [TransportImpl.finishTask]
    split
    · cases at_c : s.clients c <;> simp only [at_c, ClientPoint.wakeDrain, early] at late ⊢ <;> exact late
    · exact late

theorem workers_length (s : TransportImpl) (op : TransportOp) :
    (s.step op).1.workers.length = s.workers.length := by
  have lengths := hands_length (step_moves s op)
  simpa only [custody, List.length_map] using lengths

structure Winding (n m : ℕ) (s : TransportImpl) : Prop where
  size : s.workers.length = m
  few : Few n s
  due : Due s

theorem Winding.step (h : Winding n m s) {op : TransportOp} (moves : Effective s op) :
    Winding n m (s.step op).1 ∧ rank n m (s.step op).1 < rank n m s := by
  have turn := step_turn s op
  exact ⟨⟨(workers_length s op).trans h.size, few_turn h.few turn moves.1, due_turn h.due turn moves.1⟩,
    rank_falls h.size h.few h.due turn moves.1 moves.2⟩

def callerOf : TransportOp → Option ℕ
  | .client c _ | .wakeClient c | .send c _ _ _ | .waitForPendingDeliveries c | .shutdown c => some c
  | _ => none

theorem few_step (few : Few n s) {op : TransportOp} (named : ∀ c, callerOf op = some c → c < n) :
    Few n (s.step op).1 := by
  have turn := step_turn s op
  by_cases own : Own s op
  · exact few_turn few turn own
  · have move {c : ℕ} (inside : c < n) (q : ClientPoint) : Few n (s.move c q) := by
      intro c' beyond
      rw [clients_move_other (by omega)]
      exact few c' beyond
    generalize (s.step op).1 = r at turn ⊢
    cases turn with
    | stay | wakeWorker => exact few
    | around _ _ _ same => exact fun c beyond => same.clients ▸ few c beyond
    | begin _ c q _ begins => exact move (named c (by cases begins <;> rfl)) q
    | stop c | wakeClient c => exact move (named c rfl) _
    | stride | block | pop | notDue | release | count | finish => exact absurd trivial own
    | go | push | notify | drainBlock | drainRelease | notifyAll => exact absurd trivial own

theorem few_run (params : NetworkParams) {ops : List TransportOp} (named : ∀ c ∈ ops.filterMap callerOf, c < n) :
    Few n (transportMachine.final (.new params) ops) :=
  transportMachine.invariant (I := Few n) ops (fun _ _ => rfl) fun _ _ member few =>
    few_step few fun c caller => named c (List.mem_filterMap.mpr ⟨_, member, caller⟩)

end Fall

section Stuck
variable {s : TransportImpl}

/-- No thread can go on by itself. -/
def Stuck (s : TransportImpl) : Prop := ∀ op, ¬Effective s op

theorem stuck_worker (stuck : Stuck s) {k : ℕ} {p w : WorkerPoint} (at_k : s.workers[k]? = some p) (choice : ℕ)
    (now : (s.worker k choice).1.workers = s.workers.set k w) (other : w ≠ p) : False := by
  refine stuck (.worker k choice) ⟨trivial, fun same => other ?_⟩
  have workers : s.workers.set k w = s.workers := now.symm.trans (congrArg TransportImpl.workers same)
  have there := put_at at_k w
  rw [workers, at_k] at there
  exact (Option.some.inj there).symm

theorem stuck_client (stuck : Stuck s) {c : ℕ} {q v : ClientPoint} (at_c : s.clients c = q) (choice : ℕ)
    (now : (s.client c choice).1.clients = Function.update s.clients c v) (other : v ≠ q) : False := by
  refine stuck (.client c choice) ⟨trivial, fun same => other ?_⟩
  have clients : s.clients = Function.update s.clients c v :=
    (congrArg TransportImpl.clients same).symm.trans now
  rw [← at_c, clients, Function.update_self]

theorem exists_top (queued : s.tasks ≠ []) : ∃ choice t, s.top choice = some t := by
  obtain ⟨t, least⟩ : ∃ t, t ∈ s.tasks.argmin DeliveryTask.deliverAt :=
    Option.ne_none_iff_exists'.mp fun none => queued (List.argmin_eq_none.mp none)
  obtain ⟨choice, found⟩ := List.getElem?_of_mem (List.argmin_mem least)
  refine ⟨choice, t, ?_⟩
  rw [TransportImpl.top, found, Option.filter_some, if_pos]
  simpa using fun u member => List.le_of_mem_argmin member least

theorem stuck_unlocked (h : Alert s) (stuck : Stuck s) : s.tasksMtx = false := by
  refine Bool.eq_false_of_not_eq_true fun locked => ?_
  obtain ⟨u, held⟩ := h.mutex.held locked
  cases u with
  | worker k =>
    obtain ⟨p, at_k, locks⟩ := (Option.any_eq_true _ _).mp held
    cases p with
    | aboutToWait =>
      exact stuck_worker (w := .waiting) stuck at_k 0 (by rw [TransportImpl.worker, at_k]; rfl) (by simp)
    | aboutToWaitFor =>
      exact stuck_worker (w := .waitingFor) stuck at_k 0 (by rw [TransportImpl.worker, at_k]; rfl) (by simp)
    | _ => cases locks
  | client c =>
    refine stuck_client (v := .drainWaiting) stuck held 0 ?_ (by simp)
    rw [TransportImpl.client, show s.clients c = _ from held]
    rfl

theorem stuck_rests (h : Alert s) (due : Due s) (stuck : Stuck s) : ∀ p ∈ s.workers, p = .waiting ∨ p = .exited := by
  intro p member
  obtain ⟨k, at_k⟩ := List.getElem?_of_mem member
  have unlocked := stuck_unlocked h stuck
  have goes {w : WorkerPoint} (choice : ℕ) (now : (s.worker k choice).1.workers = s.workers.set k w) (other : w ≠ p) :
      p = .waiting ∨ p = .exited := (stuck_worker stuck at_k choice now other).elim
  cases p with
  | waiting => exact .inl rfl
  | exited => exact .inr rfl
  | waitingFor =>
    refine absurd ⟨at_k, fun same => ?_⟩ (stuck (.wakeWorker k))
    have there := put_at at_k (WorkerPoint.wake .waitingFor)
    rw [ListUpdates.set_eq_modify at_k, show s.workers.modify k WorkerPoint.wake = s.workers from
      congrArg TransportImpl.workers same, at_k] at there
    cases there
  | loopHead =>
    cases running : s.running with
    | true => exact goes (w := .atLock) 0 (by simp [TransportImpl.worker, at_k, running, TransportImpl.put]) (by simp)
    | false => exact goes (w := .exited) 0 (by simp [TransportImpl.worker, at_k, running, TransportImpl.put]) (by simp)
  | atLock =>
    by_cases empty : s.tasks = []
    · cases running : s.running with
      | true =>
        exact goes (w := .aboutToWait) 0 (by
          simp [TransportImpl.worker, at_k, unlocked, TransportImpl.takeTask, empty, running, TransportImpl.put]) (by simp)
      | false =>
        exact goes (w := .exited) 0 (by
          simp [TransportImpl.worker, at_k, unlocked, TransportImpl.takeTask, empty, running, TransportImpl.put]) (by simp)
    · obtain ⟨choice, t, found⟩ := exists_top empty
      have now := due.queued t (List.mem_of_getElem? (top_some found).1)
      exact goes (w := .popped t) choice (by
        simp [TransportImpl.worker, at_k, unlocked, TransportImpl.takeTask, empty, found, now, TransportImpl.put]) (by simp)
  | aboutToWait => exact goes (w := .waiting) 0 (by simp [TransportImpl.worker, at_k, TransportImpl.put]) (by simp)
  | aboutToWaitFor => exact goes (w := .waitingFor) 0 (by simp [TransportImpl.worker, at_k, TransportImpl.put]) (by simp)
  | woken => exact goes (w := .loopHead) 0 (by simp [TransportImpl.worker, at_k, unlocked, TransportImpl.put]) (by simp)
  | popped t => exact goes (w := .counted t) 0 (by simp [TransportImpl.worker, at_k, unlocked, TransportImpl.put]) (by simp)
  | counted t =>
    exact goes (w := .looked t (s.endpoints t.to)) 0 (by simp [TransportImpl.worker, at_k, TransportImpl.put]) (by simp)
  | looked t f =>
    cases f with
    | none => exact goes (w := .delivered t none) 0 (by simp [TransportImpl.worker, at_k, TransportImpl.put]) (by simp)
    | some f => exact goes (w := .calling t f) 0 (by simp [TransportImpl.worker, at_k, TransportImpl.put]) (by simp)
  | calling t f => exact goes (w := .delivered t (some f)) 0 (by simp [TransportImpl.worker, at_k, TransportImpl.put]) (by simp)
  | delivered t f =>
    exact goes (w := .loopHead) 0 (by
      simp [TransportImpl.worker, at_k, unlocked, TransportImpl.finishTask, TransportImpl.put]) (by simp)

theorem exists_notify (s : TransportImpl) : ∃ choice ws, s.notifyOne choice = some ws := by
  by_cases blocked : s.workers.any WorkerPoint.blocked = true
  · obtain ⟨p, member, blocks⟩ := List.any_eq_true.mp blocked
    obtain ⟨k, at_k⟩ := List.getElem?_of_mem member
    exact ⟨k, s.workers.set k p.wake, by simp only [TransportImpl.notifyOne, at_k, blocks, if_true]⟩
  · refine ⟨s.workers.length, s.workers, ?_⟩
    rw [TransportImpl.notifyOne, List.getElem?_eq_none (Nat.le_refl _)]
    exact if_neg blocked

theorem stuck_calls (h : Alert s) (due : Due s) (stuck : Stuck s) (c : ℕ) :
    s.clients c = .idle ∨ s.clients c = .drainWaiting ∨
      s.clients c = .joining ∧ ∃ p ∈ s.workers, p ≠ .exited := by
  have unlocked := stuck_unlocked h stuck
  have late := due.stamped c
  have goes {q v : ClientPoint} {P : Prop} (at_c : s.clients c = q) (choice : ℕ)
      (now : (s.client c choice).1.clients = Function.update s.clients c v) (other : v ≠ q) : P :=
    (stuck_client stuck at_c choice now other).elim
  cases at_c : s.clients c with
  | idle => exact .inl rfl
  | drainWaiting => exact .inr (.inl rfl)
  | checked => exact absurd late (by simp [at_c, early])
  | kept => exact absurd late (by simp [at_c, early])
  | stamped deliverAt dest data =>
    exact goes (v := .pushed s.pushes) at_c 0 (by
      simp [TransportImpl.client, at_c, unlocked, TransportImpl.move]) (by simp)
  | pushed id =>
    obtain ⟨choice, ws, woke⟩ := exists_notify s
    exact goes (v := .idle) at_c choice (by simp [TransportImpl.client, at_c, woke, TransportImpl.move]) (by simp)
  | draining =>
    by_cases zero : s.pendingCount = 0 ∧ s.inflightCount = 0
    · exact goes (v := .idle) at_c 0 (by
        simp only [TransportImpl.client, at_c, unlocked, if_pos zero]
        rfl) (by simp)
    · exact goes (v := .aboutToDrainWait) at_c 0 (by
        simp only [TransportImpl.client, at_c, unlocked, if_neg zero]
        rfl) (by simp)
  | aboutToDrainWait => exact absurd at_c (h.unlocked_clients unlocked c)
  | stopping => exact goes (v := .joining) at_c 0 (by simp [TransportImpl.client, at_c, TransportImpl.move]) (by simp)
  | joining =>
    by_cases left : ∀ p ∈ s.workers, p = .exited
    · have all : s.workers.all (· == .exited) = true := by simpa using left
      exact goes (v := .idle) at_c 0 (by simp only [TransportImpl.client, at_c, if_pos all]; rfl) (by simp)
    · refine .inr (.inr ⟨rfl, ?_⟩)
      simpa using left

end Stuck

end InterchainCommunication.TransportProgress
