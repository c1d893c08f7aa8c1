import InterchainCommunication.MutualExclusion
import InterchainCommunication.TransportShutdown
import InterchainCommunication.TransportTurns

set_option autoImplicit false

namespace InterchainCommunication.TransportAlert
open MachineRuns TransportModel TransportShutdown ThreadSteps TransportTurns MutualExclusion

inductive Thread
  | worker (k : ℕ)
  | client (c : ℕ)
  deriving DecidableEq

/-- Between the failed test of a wait and the block. -/
def locking : WorkerPoint → Bool
  | .aboutToWait | .aboutToWaitFor => true
  | _ => false

/-- The thread stays in a section under the task mutex. -/
def Holds (s : TransportImpl) : Thread → Prop
  | .worker k => (s.workers[k]?).any locking = true
  | .client c => s.clients c = .aboutToDrainWait

/-- In `shutdown`, after the flag went down. -/
def ending : ClientPoint → Bool
  | .stopping | .joining => true
  | _ => false

def drainBlocked : ClientPoint → Bool
  | .aboutToDrainWait | .drainWaiting => true
  | _ => false

/-- What the blocked threads of a state can rely on. -/
structure Alert (s : TransportImpl) : Prop where
  mutex : Exclusive s.tasksMtx (Holds s)
  staffed : s.workers ≠ []
  /-- a worker about to block in the untimed wait has just found the queue empty -/
  empty : .aboutToWait ∈ s.workers → s.tasks = []
  /-- a queued task has a worker that will see it, or a client about to wake one -/
  noticed : s.tasks ≠ [] → (∃ p ∈ s.workers, untimed p = false) ∨ ∃ c id, s.clients c = .pushed id
  drains : ∀ c, drainBlocked (s.clients c) = true → ¬(s.pendingCount = 0 ∧ s.inflightCount = 0)
  working : s.running = true → ∀ p ∈ s.workers, p ≠ .exited
  serving : s.running = true → ∀ c, ending (s.clients c) = false
  stopped : s.running = false → (∃ c, ending (s.clients c) = true) ∨ ∀ p ∈ s.workers, p = .exited

section Wake

theorem locking_wake (p : WorkerPoint) : locking p.wake = locking p := by
  cases p <;> rfl

theorem wake_exited {p : WorkerPoint} : p.wake = .exited ↔ p = .exited := by
  cases p <;> simp [WorkerPoint.wake]

theorem wake_aboutToWait {p : WorkerPoint} : p.wake = .aboutToWait ↔ p = .aboutToWait := by
  cases p <;> simp [WorkerPoint.wake]

theorem notifyOne_cases {s : TransportImpl} {choice : ℕ} {ws : List WorkerPoint}
    (woke : s.notifyOne choice = some ws) :
    (ws = s.workers ∧ ∀ p ∈ s.workers, p.blocked = false) ∨
      ∃ p, s.workers[choice]? = some p ∧ p.blocked = true ∧ ws = s.workers.set choice p.wake := by
  have unblocked (none : ¬s.workers.any WorkerPoint.blocked = true) : ∀ p ∈ s.workers, p.blocked = false := by
    simpa using none
  rw [TransportImpl.notifyOne] at woke
  cases chosen : s.workers[choice]? with
  | none =>
    rw [chosen] at woke
    simp only at woke
    split at woke
    · cases woke
    · rename_i none
      exact .inl ⟨(Option.some.inj woke).symm, unblocked none⟩
  | some p =>
    rw [chosen] at woke
    simp only at woke
    split at woke
    · rename_i blocked
      exact .inr ⟨p, rfl, blocked, (Option.some.inj woke).symm⟩
    · split at woke
      · cases woke
      · rename_i none
        exact .inl ⟨(Option.some.inj woke).symm, unblocked none⟩

end Wake

section Mutex
variable {s r : TransportImpl} {k c : ℕ} {p w : WorkerPoint} {q v : ClientPoint}

theorem holds_worker (at_k : s.workers[k]? = some p) : Holds s (.worker k) ↔ locking p = true := by
  rw [Holds, at_k, Option.any_some]

theorem put_at (at_k : s.workers[k]? = some p) (w : WorkerPoint) : (s.workers.set k w)[k]? = some w :=
  List.getElem?_set_self (List.getElem?_eq_some_iff.mp at_k).1

theorem put_others (workers : r.workers = s.workers.set k w) (clients : r.clients = s.clients) (u : Thread)
    (other : u ≠ .worker k) : Holds r u ↔ Holds s u := by
  cases u with
  | worker j =>
    have apart : k ≠ j := by
      rintro rfl
      exact other rfl
    rw [Holds, Holds, workers, List.getElem?_set_ne apart]
  | client c => rw [Holds, Holds, clients]

theorem move_others (workers : r.workers = s.workers) (clients : r.clients = Function.update s.clients c v)
    (u : Thread) (other : u ≠ .client c) : Holds r u ↔ Holds s u := by
  cases u with
  | worker j => rw [Holds, Holds, workers]
  | client c' =>
    have apart : c' ≠ c := by
      rintro rfl
      exact other rfl
    rw [Holds, Holds, clients, Function.update_of_ne apart]

theorem pass_worker (h : Exclusive s.tasksMtx (Holds s)) (at_k : s.workers[k]? = some p)
    (same : locking w = locking p) (workers : r.workers = s.workers.set k w) (clients : r.clients = s.clients)
    (mutex : r.tasksMtx = s.tasksMtx) : Exclusive r.tasksMtx (Holds r) := by
  rw [mutex]
  refine h.pass (t := .worker k) ?_ (put_others workers clients)
  have now : r.workers[k]? = some w := workers ▸ put_at at_k w
  rw [holds_worker now, holds_worker at_k, same]

theorem pass_client (h : Exclusive s.tasksMtx (Holds s)) (at_c : s.clients c ≠ .aboutToDrainWait)
    (apart : v ≠ .aboutToDrainWait) (workers : r.workers = s.workers)
    (clients : r.clients = Function.update s.clients c v) (mutex : r.tasksMtx = s.tasksMtx) :
    Exclusive r.tasksMtx (Holds r) := by
  rw [mutex]
  refine h.pass (t := .client c) ?_ (move_others workers clients)
  have now : r.clients c = v := by rw [clients, Function.update_self]
  rw [Holds, Holds, now]
  exact iff_of_false apart at_c

end Mutex

section Step
variable {s s' : TransportImpl} {op : TransportOp}

theorem strides_locking {p p' : WorkerPoint} (strides : WorkerStrides s p p') : locking p' = locking p := by
  cases strides <;> rfl

theorem strides_drains {q q' : ClientPoint} (strides : ClientStrides s q q') :
    q ≠ .aboutToDrainWait ∧ drainBlocked q' = false := by
  cases strides <;> exact ⟨by simp, rfl⟩

theorem wakeDrain_holder {q : ClientPoint} : q.wakeDrain = .aboutToDrainWait ↔ q = .aboutToDrainWait := by
  cases q <;> simp [ClientPoint.wakeDrain]

theorem Alert.unlocked_workers (h : Alert s) (unlocked : s.tasksMtx = false) : .aboutToWait ∉ s.workers := by
  intro member
  obtain ⟨k, at_k⟩ := List.getElem?_of_mem member
  exact h.mutex.none_holds unlocked (.worker k) ((holds_worker at_k).mpr rfl)

theorem Alert.unlocked_clients (h : Alert s) (unlocked : s.tasksMtx = false) (c : ℕ) :
    s.clients c ≠ .aboutToDrainWait :=
  h.mutex.none_holds unlocked (.client c)

theorem Alert.mutex_step (h : Alert s) (turn : Turn s op s') : Exclusive s'.tasksMtx (Holds s') := by
  have mutex := h.mutex
  cases turn with
  | stay => exact mutex
  | around _ _ _ same =>
    rw [same.tasksMtx]
    refine mutex.keep fun u => ?_
    cases u with
    | worker k => rw [Holds, Holds, same.workers]
    | client c => rw [Holds, Holds, same.clients]
  | begin _ c p at_c begins =>
    exact pass_client mutex (by simp [at_c]) (by cases begins <;> simp) rfl rfl rfl
  | stop c at_c => exact pass_client mutex (by simp [at_c]) (by simp) rfl rfl rfl
  | wakeWorker k p at_k => exact pass_worker mutex at_k (locking_wake p) rfl rfl rfl
  | wakeClient c at_c => exact pass_client mutex (by simp [at_c]) (by simp) rfl rfl rfl
  | stride k _ p p' at_k strides => exact pass_worker mutex at_k (strides_locking strides) rfl rfl rfl
  | pop k _ t at_k => exact pass_worker (w := .popped t) mutex at_k rfl rfl rfl rfl
  | count k _ t at_k => exact pass_worker (w := .counted t) mutex at_k rfl rfl rfl rfl
  | block k _ at_k unlocked | notDue k _ _ at_k unlocked =>
    exact mutex.acquire unlocked ((holds_worker (put_at at_k _)).mpr rfl) (put_others rfl rfl)
  | release k _ p p' at_k releases =>
    cases releases <;>
      exact mutex.release ((holds_worker at_k).mpr rfl)
        (fun held => nomatch (holds_worker (put_at at_k _)).mp held) (put_others rfl rfl)
  | finish k _ t f at_k unlocked =>
    have put : Exclusive s.tasksMtx (Holds (s.put k .loopHead)) :=
      pass_worker (r := s.put k .loopHead) (w := .loopHead) mutex at_k rfl rfl rfl rfl
    refine put.keep fun u => ?_
    cases u with
    | worker j => rfl
    | client c =>
      simp only [Holds, TransportImpl.finishTask]
      split
      · exact wakeDrain_holder
      · rfl
  | go c _ q q' at_c strides =>
    obtain ⟨apart, next⟩ := strides_drains strides
    refine pass_client mutex (at_c ▸ apart) ?_ rfl rfl rfl
    rintro rfl
    cases next
  | push c _ _ _ _ at_c => exact pass_client mutex (by simp [at_c]) (by simp) rfl rfl rfl
  | notify c _ id ws at_c woke =>
    have moved := pass_client (r := s.move c .idle) mutex (by simp [at_c]) (by simp) rfl rfl rfl
    rcases notifyOne_cases woke with ⟨rfl, -⟩ | ⟨p, at_k, -, rfl⟩
    · exact moved
    · exact pass_worker (s := s.move c .idle) moved at_k (locking_wake p) rfl rfl rfl
  | drainBlock c _ at_c unlocked =>
    exact mutex.acquire (t := .client c) unlocked (clients_move_self s c _) (move_others rfl rfl)
  | drainRelease c _ at_c =>
    refine mutex.release (t := .client c) at_c ?_ (move_others rfl rfl)
    intro held
    cases held.symm.trans (clients_move_self s c .drainWaiting)
  | notifyAll c _ at_c =>
    have moved := pass_client (r := s.move c .joining) mutex (by simp [at_c]) (by simp) rfl rfl rfl
    refine moved.keep fun u => ?_
    cases u with
    | worker k =>
      simp only [Holds, List.getElem?_map, Option.any_map, locking_wake]
      rfl
    | client c' => rfl

theorem Alert.empty_step (h : Alert s) (turn : Turn s op s') (about : .aboutToWait ∈ s'.workers) :
    s'.tasks = [] := by
  have old {k : ℕ} {p' : WorkerPoint} (put : .aboutToWait ∈ s.workers.set k p') (other : p' ≠ .aboutToWait) :
      .aboutToWait ∈ s.workers := by
    rcases List.mem_or_eq_of_mem_set put with there | rfl
    · exact there
    · exact absurd rfl other
  have woken {k : ℕ} {p : WorkerPoint} (at_k : s.workers[k]? = some p) (put : .aboutToWait ∈ s.workers.set k p.wake) :
      .aboutToWait ∈ s.workers := by
    rcases List.mem_or_eq_of_mem_set put with there | same
    · exact there
    · obtain rfl := wake_aboutToWait.mp same.symm
      exact List.mem_of_getElem? at_k
  cases turn with
  | stay | begin | stop | wakeClient | go | drainBlock | drainRelease => exact h.empty about
  | around _ _ _ same =>
    rw [same.workers] at about
    exact same.tasks.trans (h.empty about)
  | wakeWorker k p at_k => exact h.empty (woken at_k about)
  | stride k _ p p' at_k strides =>
    refine h.empty (old about ?_)
    cases strides <;> simp
  | block _ _ _ _ _ empty => exact empty
  | pop k _ t at_k unlocked => exact absurd (old about (by simp)) (h.unlocked_workers unlocked)
  | notDue | count | finish => exact h.empty (old about (by simp))
  | release k _ p p' at_k releases =>
    refine h.empty (old about ?_)
    cases releases <;> simp
  | push _ _ _ _ _ _ unlocked => exact absurd about (h.unlocked_workers unlocked)
  | notify c _ id ws at_c woke =>
    rcases notifyOne_cases woke with ⟨rfl, -⟩ | ⟨p, at_k, -, rfl⟩
    · exact h.empty about
    · exact h.empty (woken at_k about)
  | notifyAll =>
    obtain ⟨p, there, same⟩ := List.mem_map.mp about
    obtain rfl := wake_aboutToWait.mp same
    exact h.empty there

/-- With a task queued, a worker that is not blocked without a timeout will see it. -/
theorem Alert.noticed_step (h : Alert s) (turn : Turn s op s') (queued : s'.tasks ≠ []) :
    (∃ p ∈ s'.workers, untimed p = false) ∨ ∃ c id, s'.clients c = .pushed id := by
  have put {k : ℕ} {p : WorkerPoint} (at_k : s.workers[k]? = some p) {p' : WorkerPoint} (sees : untimed p' = false) :
      ∃ p ∈ s.workers.set k p', untimed p = false := ⟨p', List.mem_of_getElem? (put_at at_k p'), sees⟩
  have wakes {p : WorkerPoint} (there : p ∈ s.workers) (waits : s.tasks ≠ []) : untimed p.wake = false := by
    refine untimed_wake ?_
    rintro rfl
    exact waits (h.empty there)
  have moved {c : ℕ} {q q' : ClientPoint} (at_c : s.clients c = q) (other : ∀ id, q ≠ .pushed id)
      (waits : s.tasks ≠ []) : (∃ p ∈ s.workers, untimed p = false) ∨ ∃ c' id, (s.move c q').clients c' = .pushed id := by
    refine (h.noticed waits).imp_right fun ⟨c', id, notifies⟩ => ⟨c', id, ?_⟩
    rw [clients_move_other ?_, notifies]
    rintro rfl
    exact other id (at_c.symm.trans notifies)
  cases turn with
  | stay => exact h.noticed queued
  | around _ _ _ same =>
    rw [same.workers, same.clients]
    exact h.noticed (same.tasks ▸ queued)
  | begin _ _ _ at_c => exact moved at_c (by simp) queued
  | stop _ at_c | wakeClient _ at_c | drainBlock _ _ at_c | drainRelease _ _ at_c =>
    exact moved at_c (by simp) queued
  | wakeWorker k p at_k => exact .inl (put at_k (wakes (List.mem_of_getElem? at_k) queued))
  | stride k _ p p' at_k strides => exact .inl (put at_k (by cases strides <;> rfl))
  | block _ _ _ _ _ empty => exact absurd empty queued
  | pop k _ t at_k | notDue k _ t at_k | count k _ t at_k => exact .inl (put at_k rfl)
  | finish k _ t f at_k => exact .inl (put at_k rfl)
  | release k _ p p' at_k releases =>
    cases releases with
    | wait => exact absurd (h.empty (List.mem_of_getElem? at_k)) queued
    | waitFor => exact .inl (put at_k rfl)
  | go c _ q q' at_c strides => exact moved at_c (by cases strides <;> simp) queued
  | push c => exact .inr ⟨c, s.pushes, clients_move_self s c _⟩
  | notify c _ id ws at_c woke =>
    rcases notifyOne_cases woke with ⟨rfl, none⟩ | ⟨p, at_k, -, rfl⟩
    · obtain ⟨p, there⟩ := List.exists_mem_of_ne_nil _ h.staffed
      have awake := wakes there queued
      cases p with
      | waiting | waitingFor => exact absurd (none _ there) (by simp [WorkerPoint.blocked])
      | _ => exact .inl ⟨_, there, awake⟩
    · exact .inl (put at_k (wakes (List.mem_of_getElem? at_k) queued))
  | notifyAll c =>
    obtain ⟨p, there⟩ := List.exists_mem_of_ne_nil _ h.staffed
    exact .inl ⟨p.wake, List.mem_map_of_mem there, wakes there queued⟩

theorem Alert.drains_step (h : Alert s) (turn : Turn s op s') (c : ℕ) (waits : drainBlocked (s'.clients c) = true) :
    ¬(s'.pendingCount = 0 ∧ s'.inflightCount = 0) := by
  have old {c' : ℕ} {q : ClientPoint} (stands : drainBlocked ((s.move c' q).clients c) = true)
      (free : drainBlocked q = false) : drainBlocked (s.clients c) = true := by
    by_cases mine : c = c'
    · subst mine
      rw [clients_move_self, free] at stands
      cases stands
    · rwa [clients_move_other mine] at stands
  cases turn with
  | stay | wakeWorker | stride | block | pop | notDue | release => exact h.drains c waits
  | around _ _ _ same =>
    rw [same.pendingCount, same.inflightCount]
    exact h.drains c (same.clients ▸ waits)
  | begin _ _ _ _ begins => exact h.drains c (old waits (by cases begins <;> rfl))
  | stop | wakeClient | notify | notifyAll => exact h.drains c (old waits rfl)
  | go _ _ _ _ _ strides => exact h.drains c (old waits (strides_drains strides).2)
  | count => exact fun zero => nomatch zero.2
  | push => exact fun zero => nomatch zero.1
  | finish k _ t f at_k unlocked =>
    intro zero
    have held := h.unlocked_clients unlocked c
    have drained : s.pendingCount = 0 ∧ dec s.inflightCount = 0 := zero
    simp only [TransportImpl.finishTask, if_pos drained] at waits
    cases at_c : s.clients c <;> simp [at_c, ClientPoint.wakeDrain, drainBlocked] at waits held
  | drainBlock _ _ _ _ busy => exact busy
  | drainRelease c' _ at_c => exact h.drains c' (at_c ▸ rfl)

theorem Alert.working_step (h : Alert s) (turn : Turn s op s') (running : s'.running = true) :
    ∀ p ∈ s'.workers, p ≠ .exited := by
  have put {k : ℕ} {p' : WorkerPoint} (runs : s.running = true) (stays : p' ≠ .exited) :
      ∀ p ∈ s.workers.set k p', p ≠ .exited := by
    intro p member
    rcases List.mem_or_eq_of_mem_set member with there | rfl
    · exact h.working runs p there
    · exact stays
  have wakes {p : WorkerPoint} (there : p ∈ s.workers) (runs : s.running = true) : p.wake ≠ .exited :=
    fun gone => h.working runs p there (wake_exited.mp gone)
  cases turn with
  | stay | begin | wakeClient | go | push | drainBlock | drainRelease => exact h.working running
  | stop => cases running
  | around _ _ _ same =>
    rw [same.workers]
    exact h.working (same.running ▸ running)
  | wakeWorker k p at_k => exact put running (wakes (List.mem_of_getElem? at_k) running)
  | stride k _ p p' at_k strides =>
    refine put running ?_
    have up : s.running = true := running
    cases strides with
    | leave stopped | quit stopped => exact absurd (up.symm.trans stopped) (by decide)
    | enter | again | look | skip | call | callReturn => simp
  | block | pop | notDue | count | finish => exact put running (by simp)
  | release _ _ _ _ _ releases => exact put running (by cases releases <;> simp)
  | notify c _ id ws at_c woke =>
    rcases notifyOne_cases woke with ⟨rfl, -⟩ | ⟨p, at_k, -, rfl⟩
    · exact h.working running
    · exact put running (wakes (List.mem_of_getElem? at_k) running)
  | notifyAll =>
    intro p member
    obtain ⟨p₀, there, rfl⟩ := List.mem_map.mp member
    exact wakes there running

theorem Alert.serving_step (h : Alert s) (turn : Turn s op s') (running : s'.running = true) (c : ℕ) :
    ending (s'.clients c) = false := by
  have move {c' : ℕ} {q : ClientPoint} (runs : s.running = true) (free : ending q = false) :
      ending ((s.move c' q).clients c) = false := by
    by_cases mine : c = c'
    · subst mine
      rw [clients_move_self, free]
    · rw [clients_move_other mine]
      exact h.serving runs c
  cases turn with
  | stay | wakeWorker | stride | block | pop | notDue | release | count => exact h.serving running c
  | stop => cases running
  | around _ _ _ same =>
    rw [same.clients]
    exact h.serving (same.running ▸ running) c
  | begin _ _ _ _ begins => exact move running (by cases begins <;> rfl)
  | wakeClient | push | notify | drainBlock | drainRelease => exact move running rfl
  | go _ _ _ _ _ strides => exact move running (by cases strides <;> rfl)
  | notifyAll c' _ at_c => exact absurd (h.serving running c') (by simp [at_c, ending])
  | finish k _ t f =>
    have calm := h.serving running c
    simp only [TransportImpl.finishTask]
    split
    · cases at_c : s.clients c <;> simp [at_c, ClientPoint.wakeDrain, ending] at calm ⊢
    · exact calm

/-- Once the flag is down, the thread that took it down is still in `shutdown`, or has joined
    every worker. -/
theorem Alert.stopped_step (h : Alert s) (turn : Turn s op s') (stopped : s'.running = false) :
    (∃ c, ending (s'.clients c) = true) ∨ ∀ p ∈ s'.workers, p = .exited := by
  have put {k : ℕ} {p p' : WorkerPoint} (at_k : s.workers[k]? = some p) (inside : p ≠ .exited)
      (down : s.running = false) : (∃ c, ending (s.clients c) = true) ∨ ∀ q ∈ s.workers.set k p', q = .exited :=
    .inl ((h.stopped down).resolve_right fun left => inside (left p (List.mem_of_getElem? at_k)))
  have move {c : ℕ} {q q' : ClientPoint} (at_c : s.clients c = q) (free : ending q = false)
      (down : s.running = false) :
      (∃ c', ending ((s.move c q').clients c') = true) ∨ ∀ p ∈ s.workers, p = .exited := by
    refine (h.stopped down).imp_left fun ⟨c', stops⟩ => ⟨c', ?_⟩
    rw [clients_move_other ?_, stops]
    rintro rfl
    rw [at_c, free] at stops
    cases stops
  have wakes (ws : List WorkerPoint) (woken : ∀ p ∈ ws, ∃ p₀ ∈ s.workers, p = p₀ ∨ p = p₀.wake)
      (left : ∀ p ∈ s.workers, p = .exited) : ∀ p ∈ ws, p = .exited := by
    intro p member
    obtain ⟨p₀, there, rfl | rfl⟩ := woken p member
    · exact left p there
    · exact wake_exited.mpr (left p₀ there)
  have woken {k : ℕ} {p₀ : WorkerPoint} (at_k : s.workers[k]? = some p₀) :
      ∀ p ∈ s.workers.set k p₀.wake, ∃ p₀ ∈ s.workers, p = p₀ ∨ p = p₀.wake := by
    intro p member
    rcases List.mem_or_eq_of_mem_set member with there | rfl
    · exact ⟨p, there, .inl rfl⟩
    · exact ⟨p₀, List.mem_of_getElem? at_k, .inr rfl⟩
  cases turn with
  | stay => exact h.stopped stopped
  | around _ _ _ same =>
    rw [same.workers, same.clients]
    exact h.stopped (same.running ▸ stopped)
  | begin _ _ _ at_c | wakeClient _ at_c | push _ _ _ _ _ at_c | drainBlock _ _ at_c | drainRelease _ _ at_c =>
    exact move at_c rfl stopped
  | stop c => exact .inl ⟨c, congrArg ending (clients_move_self s c _)⟩
  | wakeWorker k p at_k => exact (h.stopped stopped).imp_right (wakes _ (woken at_k))
  | stride k _ p p' at_k strides => exact put at_k (by cases strides <;> simp) stopped
  | block _ _ at_k | notDue _ _ _ at_k | pop _ _ _ at_k | count _ _ _ at_k => exact put at_k (by simp) stopped
  | release _ _ _ _ at_k releases => exact put at_k (by cases releases <;> simp) stopped
  | finish k _ t f at_k =>
    have down : s.running = false := stopped
    obtain ⟨c, stops⟩ := (h.stopped down).resolve_right fun left => nomatch left _ (List.mem_of_getElem? at_k)
    refine .inl ⟨c, ?_⟩
    simp only [TransportImpl.finishTask]
    split
    · cases at_c : s.clients c <;> simp [at_c, ClientPoint.wakeDrain, ending] at stops ⊢
    · exact stops
  | go c _ q q' at_c strides =>
    cases strides with
    | joined exited => exact .inr exited
    | drop | pass | stamp | drained => exact move at_c rfl stopped
  | notify c _ id ws at_c woke =>
    refine (move at_c rfl stopped).imp_right fun left => ?_
    rcases notifyOne_cases woke with ⟨rfl, -⟩ | ⟨p, at_k, -, rfl⟩
    · exact left
    · exact wakes _ (woken at_k) left
  | notifyAll c => exact .inl ⟨c, congrArg ending (clients_move_self s c _)⟩

theorem Alert.staffed_step (h : Alert s) (turn : Turn s op s') : s'.workers ≠ [] := by
  have put (k : ℕ) (p : WorkerPoint) : s.workers.set k p ≠ [] := by simpa using h.staffed
  cases turn with
  | stay | begin | stop | wakeClient | go | push | drainBlock | drainRelease => exact h.staffed
  | around _ _ _ same => exact same.workers ▸ h.staffed
  | wakeWorker | stride | block | pop | notDue | release | count | finish => exact put _ _
  | notify c _ id ws at_c woke =>
    rcases notifyOne_cases woke with ⟨rfl, -⟩ | ⟨p, -, -, rfl⟩
    · exact h.staffed
    · exact put _ _
  | notifyAll => simpa using h.staffed

theorem Alert.step (h : Alert s) (op : TransportOp) : Alert (s.step op).1 := by
  have turn := step_turn s op
  exact ⟨h.mutex_step turn, h.staffed_step turn, h.empty_step turn, h.noticed_step turn, h.drains_step turn,
    h.working_step turn, h.serving_step turn, h.stopped_step turn⟩

end Step

theorem alert_new (params : NetworkParams) : Alert (.new params) where
  mutex := .initial fun u => by
    cases u with
    | worker k =>
      simp only [Holds, TransportImpl.new, List.getElem?_replicate]
      split <;> simp [locking]
    | client c => exact fun held => nomatch held
  staffed := by simp [TransportImpl.new]
  empty := fun _ => rfl
  noticed := fun queued => absurd rfl queued
  drains := fun _ waits => nomatch waits
  working := fun _ p there => by
    rw [List.eq_of_mem_replicate there]
    simp
  serving := fun _ _ => rfl
  stopped := fun down => nomatch down

theorem alert_run (params : NetworkParams) (ops : List TransportOp) :
    Alert (transportMachine.final (.new params) ops) :=
  transportMachine.invariant (I := Alert) ops (alert_new params) fun _ op _ h => h.step op

end InterchainCommunication.TransportAlert
