import InterchainCommunication.ListUpdates
import InterchainCommunication.TransportModel
import Mathlib.Tactic

set_option autoImplicit false

namespace InterchainCommunication.ThreadSteps
open StringText CoreTypes MachineRuns ListUpdates TransportModel

def clientOf : TransportEvent → Option ℕ
  | .pushed c _ | .sendReturned c _ _ | .waitReturned c | .shutdownReturned c => some c
  | _ => none

def workerOf : TransportEvent → Option ℕ
  | .popped k _ _ | .lookedUp k _ _ | .called k _ _ | .callReturned k _ _ => some k
  | _ => none

inductive ClientMoves (s : TransportImpl) (op : TransportOp) (c : ℕ) :
    ClientPoint → Option TransportEvent → ClientPoint → Prop
  | stay (p : ClientPoint) (e : Option TransportEvent) (quiet : e.bind clientOf ≠ some c) :
      ClientMoves s op c p e p
  | wake : ClientMoves s op c .drainWaiting none .draining
  | refuse (p : ClientPoint) (status : Status) (bad : status.ok = false) :
      ClientMoves s op c p (some (.sendReturned c status none)) .idle
  | check (dest data : Bytes) (draw : ℚ) (bound : (s.endpoints dest).isSome = true) :
      ClientMoves s op c .idle none (.checked dest data draw)
  | pass (dest data : Bytes) (draw : ℚ) : ClientMoves s op c (.checked dest data draw) none (.kept dest data)
  | stamp (dest data : Bytes) :
      ClientMoves s op c (.kept dest data) none (.stamped (s.clock + s.params.latency) dest data)
  | push (deliverAt : ℤ) (dest data : Bytes) (unlocked : s.tasksMtx = false) (choice : ℕ)
      (turn : op = .client c choice) :
      ClientMoves s op c (.stamped deliverAt dest data) (some (.pushed c ⟨s.pushes, deliverAt, dest, data⟩))
        (.pushed s.pushes)
  | notify (id : ℕ) : ClientMoves s op c (.pushed id) (some (.sendReturned c ⟨.ok, []⟩ (some id))) .idle
  | wait : ClientMoves s op c .idle none .draining
  | drained (empty : s.pendingCount = 0) (still : s.inflightCount = 0) :
      ClientMoves s op c .draining (some (.waitReturned c)) .idle
  | drainBlock : ClientMoves s op c .draining none .aboutToDrainWait
  | drainRelease : ClientMoves s op c .aboutToDrainWait none .drainWaiting
  | stop (running : s.running = true) (turn : op = .shutdown c) : ClientMoves s op c .idle none .stopping
  | stopped (stopped : s.running = false) (turn : op = .shutdown c) :
      ClientMoves s op c .idle (some (.shutdownReturned c)) .idle
  | notifyAll (choice : ℕ) (turn : op = .client c choice) : ClientMoves s op c .stopping none .joining
  | joined (exited : ∀ p ∈ s.workers, p = .exited) :
      ClientMoves s op c .joining (some (.shutdownReturned c)) .idle

inductive WorkerMoves (s : TransportImpl) (op : TransportOp) (k : ℕ) :
    WorkerPoint → Option TransportEvent → WorkerPoint → Prop
  | stay (p : WorkerPoint) (e : Option TransportEvent) (quiet : e.bind workerOf ≠ some k) :
      WorkerMoves s op k p e p
  | wake (p : WorkerPoint) (e : Option TransportEvent) (quiet : e.bind workerOf ≠ some k) :
      WorkerMoves s op k p e p.wake
  | enter (running : s.running = true) : WorkerMoves s op k .loopHead none .atLock
  | leave (stopped : s.running = false) (choice : ℕ) (turn : op = .worker k choice) :
      WorkerMoves s op k .loopHead none .exited
  | block (running : s.running = true) (empty : s.tasks = []) : WorkerMoves s op k .atLock none .aboutToWait
  | quit (stopped : s.running = false) (empty : s.tasks = []) : WorkerMoves s op k .atLock none .exited
  | pop (t : DeliveryTask) : WorkerMoves s op k .atLock (some (.popped k t s.clock)) (.popped t)
  | notDue : WorkerMoves s op k .atLock none .aboutToWaitFor
  | release : WorkerMoves s op k .aboutToWait none .waiting
  | releaseFor : WorkerMoves s op k .aboutToWaitFor none .waitingFor
  | again : WorkerMoves s op k .woken none .loopHead
  | count (t : DeliveryTask) : WorkerMoves s op k (.popped t) none (.counted t)
  | look (t : DeliveryTask) :
      WorkerMoves s op k (.counted t) (some (.lookedUp k t (s.endpoints t.to))) (.looked t (s.endpoints t.to))
  | call (t : DeliveryTask) (f : ℕ) :
      WorkerMoves s op k (.looked t (some f)) (some (.called k t f)) (.calling t f)
  | skip (t : DeliveryTask) : WorkerMoves s op k (.looked t none) none (.delivered t none)
  | callReturn (t : DeliveryTask) (f : ℕ) :
      WorkerMoves s op k (.calling t f) (some (.callReturned k t f)) (.delivered t (some f))
  | finish (t : DeliveryTask) (f : Option ℕ) : WorkerMoves s op k (.delivered t f) none .loopHead

section Client
variable {s : TransportImpl} {op : TransportOp} {c : ℕ}

theorem clients_move_self (s : TransportImpl) (c : ℕ) (p : ClientPoint) : (s.move c p).clients c = p :=
  Function.update_self ..

theorem clients_move_other {c' : ℕ} (other : c' ≠ c) (p : ClientPoint) :
    (s.move c p).clients c' = s.clients c' := Function.update_of_ne other ..

theorem client_still {p : ClientPoint} (at_c : s.clients c = p) : ClientMoves s op c p none (s.clients c) := by
  rw [at_c]
  exact .stay p none (by simp)

theorem client_self (s : TransportImpl) (c choice : ℕ) :
    ClientMoves s (.client c choice) c (s.clients c) (s.client c choice).2 ((s.client c choice).1.clients c) := by
  rw [TransportImpl.client]
  cases at_c : s.clients c with
  | idle => exact client_still at_c
  | drainWaiting => exact client_still at_c
  | checked dest data draw =>
    simp only
    split
    · rw [clients_move_self]
      exact .refuse _ _ rfl
    · rw [clients_move_self]
      exact .pass dest data draw
  | kept dest data =>
    rw [clients_move_self]
    exact .stamp dest data
  | stamped deliverAt dest data =>
    simp only
    split
    · exact client_still at_c
    · rename_i unlocked
      have next := clients_move_self s c (.pushed s.pushes)
      simp only [next]
      exact .push deliverAt dest data (by simpa using unlocked) choice rfl
  | pushed id =>
    simp only
    cases s.notifyOne choice with
    | none => exact client_still at_c
    | some ws =>
      have next := clients_move_self s c .idle
      simp only [next]
      exact .notify id
  | draining =>
    simp only
    split
    · exact client_still at_c
    · split
      · rename_i zero
        rw [clients_move_self]
        exact .drained zero.1 zero.2
      · have next := clients_move_self s c .aboutToDrainWait
        simp only [next]
        exact .drainBlock
  | aboutToDrainWait =>
    have next := clients_move_self s c .drainWaiting
    simp only [next]
    exact .drainRelease
  | stopping =>
    have next := clients_move_self s c .joining
    simp only [next]
    exact .notifyAll choice rfl
  | joining =>
    simp only
    split
    · rename_i all
      rw [clients_move_self]
      exact .joined (by simpa using all)
    · exact client_still at_c

theorem client_other {c' : ℕ} (other : c' ≠ c) (choice : ℕ) :
    ClientMoves s (.client c choice) c' (s.clients c') (s.client c choice).2 ((s.client c choice).1.clients c') := by
  have apart : c ≠ c' := other.symm
  have frame : (s.client c choice).1.clients c' = s.clients c' ∧
      (s.client c choice).2.bind clientOf ≠ some c' := by
    have moved (p : ClientPoint) : (s.move c p).clients c' = s.clients c' := clients_move_other other p
    rw [TransportImpl.client]
    cases s.clients c with
    | idle | drainWaiting => exact ⟨rfl, by simp⟩
    | kept | aboutToDrainWait | stopping => exact ⟨moved _, by simp⟩
    | checked | joining =>
      simp only
      split
      · exact ⟨moved _, by simpa [clientOf] using apart⟩
      · exact ⟨by first | exact moved _ | rfl, by simp⟩
    | stamped =>
      simp only
      split
      · exact ⟨rfl, by simp⟩
      · exact ⟨moved _, by simpa [clientOf] using apart⟩
    | pushed id =>
      simp only
      cases s.notifyOne choice with
      | none => exact ⟨rfl, by simp⟩
      | some ws => exact ⟨moved _, by simpa [clientOf] using apart⟩
    | draining =>
      simp only
      split
      · exact ⟨rfl, by simp⟩
      · split
        · exact ⟨moved _, by simpa [clientOf] using apart⟩
        · exact ⟨moved _, by simp⟩
  rw [frame.1]
  exact .stay _ _ frame.2

theorem client_wake (p : ClientPoint) : ClientMoves s op c p none p.wakeDrain := by
  cases p with
  | drainWaiting => exact .wake
  | idle | checked | kept | stamped | pushed | draining | aboutToDrainWait | stopping | joining =>
    exact .stay _ none (by simp)

theorem client_worker (s : TransportImpl) (k choice c : ℕ) :
    ClientMoves s (.worker k choice) c (s.clients c) (s.worker k choice).2 ((s.worker k choice).1.clients c) := by
  have still {e : Option TransportEvent} (quiet : e.bind clientOf = none) :
      ClientMoves s (.worker k choice) c (s.clients c) e (s.clients c) := .stay _ e (by rw [quiet]; simp)
  rw [TransportImpl.worker]
  cases s.workers[k]? with
  | none => exact still rfl
  | some p =>
    cases p with
    | loopHead | aboutToWait | aboutToWaitFor | waiting | waitingFor | exited => exact still rfl
    | counted | calling => exact still rfl
    | atLock =>
      simp only [TransportImpl.takeTask]
      split
      · exact still rfl
      · split
        · split <;> exact still rfl
        · cases s.top choice with
          | none => exact still rfl
          | some t =>
            simp only
            split <;> exact still rfl
    | woken | popped =>
      simp only
      split <;> exact still rfl
    | looked t f => cases f <;> exact still rfl
    | delivered t f =>
      simp only
      split
      · exact still rfl
      · simp only [TransportImpl.finishTask]
        split
        · exact client_wake _
        · exact still rfl

theorem client_send {c' : ℕ} (idle : s.clients c' = .idle) (dest data : Bytes) (draw : ℚ) (c : ℕ) :
    ClientMoves s (.send c' dest data draw) c (s.clients c) (s.send c' dest data draw).2
      ((s.send c' dest data draw).1.clients c) := by
  rw [TransportImpl.send]
  by_cases same : c = c'
  · subst same
    split
    · simp only [idle]
      exact .refuse _ _ rfl
    · rename_i bound
      rw [clients_move_self, idle]
      exact .check dest data draw (by rw [bound]; rfl)
  · have apart : ¬ c' = c := fun h => same h.symm
    split
    · exact .stay _ _ (by simpa [clientOf] using apart)
    · rw [clients_move_other same]
      exact .stay _ none (by simp)

theorem client_wait {c' : ℕ} (idle : s.clients c' = .idle) (c : ℕ) :
    ClientMoves s op c (s.clients c) none ((s.move c' .draining).clients c) := by
  by_cases same : c = c'
  · subst same
    rw [clients_move_self, idle]
    exact .wait
  · rw [clients_move_other same]
    exact .stay _ none (by simp)

theorem client_shutdown {c' : ℕ} (idle : s.clients c' = .idle) (c : ℕ) :
    ClientMoves s (.shutdown c') c (s.clients c) (s.shutdown c').2 ((s.shutdown c').1.clients c) := by
  rw [TransportImpl.shutdown]
  by_cases same : c = c'
  · subst same
    split
    · rename_i running
      have next := clients_move_self s c .stopping
      simp only [next, idle]
      exact .stop running rfl
    · rename_i stopped
      simp only [idle]
      exact .stopped (by simpa using stopped) rfl
  · have apart : ¬ c' = c := fun h => same h.symm
    split
    · have next := clients_move_other (s := s) same .stopping
      simp only [next]
      exact .stay _ none (by simp)
    · exact .stay _ _ (by simpa [clientOf] using apart)

/-- Every client makes one of its moves in every step. -/
theorem step_client (s : TransportImpl) (op : TransportOp) (c : ℕ) :
    ClientMoves s op c (s.clients c) (s.step op).2 ((s.step op).1.clients c) := by
  have still {e : Option TransportEvent} (quiet : e.bind clientOf ≠ some c) :
      ClientMoves s op c (s.clients c) e (s.clients c) := .stay _ e quiet
  cases op with
  | tick d => exact still (by simp [TransportImpl.step])
  | worker k choice => exact client_worker s k choice c
  | wakeWorker k => exact still (by simp [TransportImpl.step])
  | client c' choice =>
    by_cases same : c = c'
    · subst same
      exact client_self s c choice
    · exact client_other same choice
  | wakeClient c' =>
    by_cases same : c = c'
    · subst same
      simp only [TransportImpl.step, clients_move_self]
      exact client_wake _
    · simp only [TransportImpl.step, clients_move_other same]
      exact still (by simp)
  | send c' dest data draw =>
    simp only [TransportImpl.step]
    split
    · rename_i idle
      exact client_send idle dest data draw c
    · exact still (by simp)
  | waitForPendingDeliveries c' =>
    simp only [TransportImpl.step]
    split
    · rename_i idle
      exact client_wait idle c
    · exact still (by simp)
  | shutdown c' =>
    simp only [TransportImpl.step]
    split
    · rename_i idle
      exact client_shutdown idle c
    · exact still (by simp)
  | registerEndpoint address =>
    simp only [TransportImpl.step, TransportImpl.registerEndpoint]
    split <;> exact still (by simp [clientOf])
  | unregisterEndpoint address =>
    simp only [TransportImpl.step, TransportImpl.unregisterEndpoint]
    split <;> exact still (by simp [clientOf])
  | setParams params => exact still (by simp [TransportImpl.step])

theorem client_of_event {ev : TransportEvent} (shown : (s.step op).2 = some ev) (c : ℕ) :
    ∃ p p', s.clients c = p ∧ (s.step op).1.clients c = p' ∧ ClientMoves s op c p (some ev) p' :=
  ⟨_, _, rfl, rfl, shown ▸ step_client s op c⟩

theorem pushed_cases {t : DeliveryTask} (pushed : (s.step op).2 = some (.pushed c t)) :
    s.clients c = .stamped t.deliverAt t.to t.data ∧ s.tasksMtx = false ∧ ∃ choice, op = .client c choice := by
  obtain ⟨p, p', at_c, -, moves⟩ := client_of_event pushed c
  cases moves with
  | stay _ _ quiet => exact absurd rfl quiet
  | push deliverAt dest data unlocked choice turn => exact ⟨at_c, unlocked, choice, turn⟩

end Client

section Worker
variable {s : TransportImpl} {op : TransportOp} {k : ℕ} {p : WorkerPoint}

def WorkerGoes (s : TransportImpl) (op : TransportOp) (k : ℕ) (p : WorkerPoint) (e : Option TransportEvent)
    (ws : List WorkerPoint) : Prop :=
  ∃ p', ws[k]? = some p' ∧ WorkerMoves s op k p e p'

theorem goes_still (at_k : s.workers[k]? = some p) {e : Option TransportEvent}
    (quiet : e.bind workerOf ≠ some k) : WorkerGoes s op k p e s.workers := ⟨p, at_k, .stay p e quiet⟩

theorem goes_put (at_k : s.workers[k]? = some p) {e : Option TransportEvent} {p' : WorkerPoint}
    (moves : WorkerMoves s op k p e p') : WorkerGoes s op k p e (s.workers.set k p') :=
  ⟨p', List.getElem?_set_self (List.getElem?_eq_some_iff.mp at_k).1, moves⟩

theorem goes_takeTask (at_k : s.workers[k]? = some .atLock) (choice : ℕ) :
    WorkerGoes s op k .atLock (s.takeTask k choice).2 (s.takeTask k choice).1.workers := by
  rw [TransportImpl.takeTask]
  split
  · rename_i empty
    have none : s.tasks = [] := by simpa using empty
    split
    · rename_i running
      exact goes_put at_k (.block running none)
    · rename_i stopped
      exact goes_put at_k (.quit (by simpa using stopped) none)
  · cases s.top choice with
    | none => exact goes_still at_k (by simp)
    | some t =>
      simp only
      split
      · exact goes_put at_k (.pop t)
      · exact goes_put at_k .notDue

theorem worker_self (at_k : s.workers[k]? = some p) (choice : ℕ) :
    WorkerGoes s (.worker k choice) k p (s.worker k choice).2 (s.worker k choice).1.workers := by
  rw [TransportImpl.worker, at_k]
  cases p with
  | waiting | waitingFor | exited => exact goes_still at_k (by simp)
  | loopHead =>
    cases running : s.running with
    | true => exact goes_put at_k (.enter running)
    | false => exact goes_put at_k (.leave running choice rfl)
  | atLock =>
    simp only
    split
    · exact goes_still at_k (by simp)
    · exact goes_takeTask at_k choice
  | aboutToWait => exact goes_put at_k .release
  | aboutToWaitFor => exact goes_put at_k .releaseFor
  | woken =>
    simp only
    split
    · exact goes_still at_k (by simp)
    · exact goes_put at_k .again
  | popped t =>
    simp only
    split
    · exact goes_still at_k (by simp)
    · exact goes_put at_k (.count t)
  | counted t => exact goes_put at_k (.look t)
  | looked t f =>
    cases f with
    | none => exact goes_put at_k (.skip t)
    | some f => exact goes_put at_k (.call t f)
  | calling t f => exact goes_put at_k (.callReturn t f)
  | delivered t f =>
    simp only
    split
    · exact goes_still at_k (by simp)
    · exact goes_put at_k (.finish t f)

theorem worker_frame (s : TransportImpl) {k k' : ℕ} (other : k' ≠ k) (choice : ℕ) :
    (s.worker k choice).1.workers[k']? = s.workers[k']? ∧ (s.worker k choice).2.bind workerOf ≠ some k' := by
  have put (p : WorkerPoint) : (s.workers.set k p)[k']? = s.workers[k']? := List.getElem?_set_ne other.symm
  have apart : k ≠ k' := other.symm
  rw [TransportImpl.worker]
  cases s.workers[k]? with
  | none => exact ⟨rfl, by simp⟩
  | some p =>
    cases p with
    | waiting | waitingFor | exited => exact ⟨rfl, by simp⟩
    | loopHead | aboutToWait | aboutToWaitFor => exact ⟨put _, by simp⟩
    | counted | calling => exact ⟨put _, by simpa [workerOf] using apart⟩
    | atLock =>
      simp only [TransportImpl.takeTask]
      split
      · exact ⟨rfl, by simp⟩
      · split
        · split <;> exact ⟨put _, by simp⟩
        · cases s.top choice with
          | none => exact ⟨rfl, by simp⟩
          | some t =>
            simp only
            split
            · exact ⟨put _, by simpa [workerOf] using apart⟩
            · exact ⟨put _, by simp⟩
    | woken | popped | delivered =>
      simp only
      split
      · exact ⟨rfl, by simp⟩
      · exact ⟨put _, by simp⟩
    | looked t f =>
      cases f with
      | none => exact ⟨put _, by simp⟩
      | some f => exact ⟨put _, by simpa [workerOf] using apart⟩

theorem goes_wake (ws : List WorkerPoint) (woke : ws[k]? = some p ∨ ws[k]? = some p.wake)
    {e : Option TransportEvent} (quiet : e.bind workerOf ≠ some k) : WorkerGoes s op k p e ws := by
  rcases woke with same | awake
  · exact ⟨p, same, .stay p e quiet⟩
  · exact ⟨p.wake, awake, .wake p e quiet⟩

theorem notifyOne_wakes {choice : ℕ} {ws : List WorkerPoint} (woke : s.notifyOne choice = some ws)
    (at_k : s.workers[k]? = some p) : ws[k]? = some p ∨ ws[k]? = some p.wake := by
  rw [TransportImpl.notifyOne] at woke
  cases chosen : s.workers[choice]? with
  | none =>
    rw [chosen] at woke
    simp only at woke
    split at woke
    · cases woke
    · obtain rfl := Option.some.inj woke
      exact .inl at_k
  | some q =>
    rw [chosen] at woke
    simp only at woke
    split at woke
    · obtain rfl := Option.some.inj woke
      by_cases same : choice = k
      · subst same
        obtain rfl := Option.some.inj (at_k.symm.trans chosen)
        exact .inr (List.getElem?_set_self (List.getElem?_eq_some_iff.mp at_k).1)
      · exact .inl ((List.getElem?_set_ne same).trans at_k)
    · split at woke
      · cases woke
      · obtain rfl := Option.some.inj woke
        exact .inl at_k

theorem worker_client (at_k : s.workers[k]? = some p) (c choice : ℕ) :
    WorkerGoes s (.client c choice) k p (s.client c choice).2 (s.client c choice).1.workers := by
  have still {e : Option TransportEvent} (quiet : e.bind workerOf = none) :
      WorkerGoes s (.client c choice) k p e s.workers :=
    goes_still at_k (by rw [quiet]; simp)
  rw [TransportImpl.client]
  cases s.clients c with
  | idle | drainWaiting | kept | aboutToDrainWait => exact still rfl
  | checked | stamped | joining =>
    simp only
    split <;> exact still rfl
  | pushed id =>
    simp only
    cases woke : s.notifyOne choice with
    | none => exact still rfl
    | some ws => exact goes_wake ws (notifyOne_wakes woke at_k) (by simp [workerOf])
  | draining =>
    simp only
    split
    · exact still rfl
    · split <;> exact still rfl
  | stopping =>
    refine goes_wake _ (.inr ?_) (by simp)
    rw [List.getElem?_map, at_k]
    rfl

/-- Every worker makes one of its moves in every step. -/
theorem step_worker {k : ℕ} {p : WorkerPoint} (at_k : s.workers[k]? = some p) (op : TransportOp) :
    WorkerGoes s op k p (s.step op).2 (s.step op).1.workers := by
  have still {e : Option TransportEvent} (quiet : e.bind workerOf = none) : WorkerGoes s op k p e s.workers :=
    goes_still at_k (by rw [quiet]; simp)
  cases op with
  | tick d => exact still rfl
  | worker k' choice =>
    by_cases same : k = k'
    · subst same
      exact worker_self at_k choice
    · obtain ⟨frame, quiet⟩ := worker_frame s same choice
      exact ⟨p, frame.trans at_k, .stay p _ quiet⟩
  | wakeWorker k' =>
    refine goes_wake _ ?_ (by simp [TransportImpl.step])
    simp only [TransportImpl.step, List.getElem?_modify, at_k]
    split
    · exact .inr rfl
    · exact .inl rfl
  | client c choice => exact worker_client at_k c choice
  | wakeClient c => exact still rfl
  | send c dest data draw =>
    simp only [TransportImpl.step]
    split
    · rw [TransportImpl.send]
      split <;> exact still rfl
    · exact still rfl
  | waitForPendingDeliveries c =>
    simp only [TransportImpl.step]
    split <;> exact still rfl
  | shutdown c =>
    simp only [TransportImpl.step]
    split
    · rw [TransportImpl.shutdown]
      split <;> exact still rfl
    · exact still rfl
  | registerEndpoint address =>
    simp only [TransportImpl.step, TransportImpl.registerEndpoint]
    split <;> exact still rfl
  | unregisterEndpoint address =>
    simp only [TransportImpl.step, TransportImpl.unregisterEndpoint]
    split <;> exact still rfl
  | setParams params => exact still rfl

end Worker

section Environment

/-- The deliver function that an event takes out of the endpoint table. -/
def unboundOf : TransportEvent → Option ℕ
  | .unregistered _ _ f => f
  | _ => none

/-- The step leaves alone what no worker and no running client changes. -/
structure SameEnv (s : TransportImpl) (r : TransportImpl × Option TransportEvent) : Prop where
  running : r.1.running = s.running
  clock : r.1.clock = s.clock
  params : r.1.params = s.params
  endpoints : r.1.endpoints = s.endpoints
  registrations : r.1.registrations = s.registrations
  unbound : r.2.bind unboundOf = none

/-- What a step does to the environment of the threads. -/
inductive EnvMoves (s : TransportImpl) : TransportOp → TransportImpl × Option TransportEvent → Prop
  | same (op : TransportOp) (r : TransportImpl × Option TransportEvent) (env : SameEnv s r) : EnvMoves s op r
  | tick (d : ℕ) : EnvMoves s (.tick d) ({ s with clock := s.clock + d }, none)
  | stop (c : ℕ) (running : s.running = true) :
      EnvMoves s (.shutdown c) ({ s.move c .stopping with running := false }, none)
  | register (address : Bytes) (free : s.endpoints address = none) :
      EnvMoves s (.registerEndpoint address)
        ({ s with endpoints := Function.update s.endpoints address (some s.registrations),
                  registrations := s.registrations + 1 },
          some (.registered address ⟨.ok, []⟩ (some s.registrations)))
  | unregister (address : Bytes) (f : ℕ) (bound : s.endpoints address = some f) :
      EnvMoves s (.unregisterEndpoint address)
        ({ s with endpoints := Function.update s.endpoints address none },
          some (.unregistered address ⟨.ok, []⟩ (some f)))
  | setParams (params : NetworkParams) : EnvMoves s (.setParams params) ({ s with params := params }, none)

theorem worker_env (s : TransportImpl) (k choice : ℕ) : SameEnv s (s.worker k choice) := by
  rw [TransportImpl.worker]
  cases s.workers[k]? with
  | none => exact ⟨rfl, rfl, rfl, rfl, rfl, rfl⟩
  | some p =>
    cases p with
    | waiting | waitingFor | exited | loopHead | aboutToWait | aboutToWaitFor | counted | calling =>
      exact ⟨rfl, rfl, rfl, rfl, rfl, rfl⟩
    | atLock =>
      simp only [TransportImpl.takeTask]
      split
      · exact ⟨rfl, rfl, rfl, rfl, rfl, rfl⟩
      · split
        · split <;> exact ⟨rfl, rfl, rfl, rfl, rfl, rfl⟩
        · cases s.top choice with
          | none => exact ⟨rfl, rfl, rfl, rfl, rfl, rfl⟩
          | some t =>
            simp only
            split <;> exact ⟨rfl, rfl, rfl, rfl, rfl, rfl⟩
    | woken | popped | delivered =>
      simp only
      split <;> exact ⟨rfl, rfl, rfl, rfl, rfl, rfl⟩
    | looked t f => cases f <;> exact ⟨rfl, rfl, rfl, rfl, rfl, rfl⟩

theorem client_env (s : TransportImpl) (c choice : ℕ) : SameEnv s (s.client c choice) := by
  rw [TransportImpl.client]
  cases s.clients c with
  | idle | drainWaiting | kept | aboutToDrainWait | stopping => exact ⟨rfl, rfl, rfl, rfl, rfl, rfl⟩
  | checked | stamped | joining =>
    simp only
    split <;> exact ⟨rfl, rfl, rfl, rfl, rfl, rfl⟩
  | pushed id =>
    simp only
    cases s.notifyOne choice <;> exact ⟨rfl, rfl, rfl, rfl, rfl, rfl⟩
  | draining =>
    simp only
    split
    · exact ⟨rfl, rfl, rfl, rfl, rfl, rfl⟩
    · split <;> exact ⟨rfl, rfl, rfl, rfl, rfl, rfl⟩

theorem send_env (s : TransportImpl) (c : ℕ) (dest data : Bytes) (draw : ℚ) :
    SameEnv s (s.send c dest data draw) := by
  rw [TransportImpl.send]
  split <;> exact ⟨rfl, rfl, rfl, rfl, rfl, rfl⟩

theorem step_env (s : TransportImpl) (op : TransportOp) : EnvMoves s op (s.step op) := by
  cases op with
  | tick d => exact .tick d
  | worker k choice => exact .same _ _ (worker_env s k choice)
  | wakeWorker k => exact .same _ _ ⟨rfl, rfl, rfl, rfl, rfl, rfl⟩
  | client c choice => exact .same _ _ (client_env s c choice)
  | wakeClient c => exact .same _ _ ⟨rfl, rfl, rfl, rfl, rfl, rfl⟩
  | send c dest data draw =>
    rw [TransportImpl.step]
    split
    · exact .same _ _ (send_env s c dest data draw)
    · exact .same _ _ ⟨rfl, rfl, rfl, rfl, rfl, rfl⟩
  | waitForPendingDeliveries c =>
    rw [TransportImpl.step]
    split <;> exact .same _ _ ⟨rfl, rfl, rfl, rfl, rfl, rfl⟩
  | shutdown c =>
    rw [TransportImpl.step]
    split
    · rw [TransportImpl.shutdown]
      split
      · rename_i running
        exact .stop c running
      · exact .same _ _ ⟨rfl, rfl, rfl, rfl, rfl, rfl⟩
    · exact .same _ _ ⟨rfl, rfl, rfl, rfl, rfl, rfl⟩
  | registerEndpoint address =>
    rw [TransportImpl.step, TransportImpl.registerEndpoint]
    split
    · exact .same _ _ ⟨rfl, rfl, rfl, rfl, rfl, rfl⟩
    · rename_i free
      exact .register address free
  | unregisterEndpoint address =>
    rw [TransportImpl.step, TransportImpl.unregisterEndpoint]
    split
    · exact .same _ _ ⟨rfl, rfl, rfl, rfl, rfl, rfl⟩
    · rename_i f bound
      exact .unregister address f bound
  | setParams params => exact .setParams params

theorem clock_grows (s : TransportImpl) (op : TransportOp) : s.clock ≤ (s.step op).1.clock := by
  have moves := step_env s op
  generalize s.step op = r at moves ⊢
  cases moves with
  | same _ _ env => exact env.clock.ge
  | tick d =>
    have grown : s.clock ≤ s.clock + (d : ℤ) := by omega
    exact grown
  | stop | register | unregister | setParams => exact le_rfl

theorem stays_stopped {s : TransportImpl} (stopped : s.running = false) (op : TransportOp) :
    (s.step op).1.running = false := by
  have moves := step_env s op
  generalize s.step op = r at moves ⊢
  cases moves with
  | same _ _ env => exact env.running.trans stopped
  | stop => rfl
  | tick | register | unregister | setParams => exact stopped

theorem endpoints_stay {s : TransportImpl} {op : TransportOp} (stays : ∀ address, op ≠ .unregisterEndpoint address)
    {address : Bytes} {f : ℕ} (bound : s.endpoints address = some f) :
    (s.step op).1.endpoints address = some f := by
  have moves := step_env s op
  generalize s.step op = r at moves ⊢
  cases moves with
  | same _ _ env => rw [env.endpoints, bound]
  | register other free =>
    have apart : address ≠ other := by
      rintro rfl
      exact absurd (bound.symm.trans free) (by simp)
    exact (Function.update_of_ne apart ..).trans bound
  | unregister other => exact absurd rfl (stays other)
  | tick | stop | setParams => exact bound

theorem latency_stays {s : TransportImpl} {op : TransportOp} {latency : ℤ} (now : s.params.latency = latency)
    (constant : ∀ p, op = .setParams p → p.latency = latency) : (s.step op).1.params.latency = latency := by
  have moves := step_env s op
  generalize s.step op = r at moves ⊢
  cases moves with
  | same _ _ env => rw [env.params, now]
  | setParams params => exact constant params rfl
  | tick | stop | register | unregister => exact now

end Environment
end InterchainCommunication.ThreadSteps
