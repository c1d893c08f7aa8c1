import InterchainCommunication.ThreadSteps
import InterchainCommunication.TransportSteps

set_option autoImplicit false

namespace InterchainCommunication.TransportShutdown
open CoreTypes MachineRuns TransportModel TransportSteps ThreadSteps

def untimed : WorkerPoint → Bool
  | .aboutToWait | .waiting => true
  | _ => false

/-- Inside `send`, or in `shutdown` before its notification. -/
def mayNotify : ClientPoint → Bool
  | .checked _ _ _ | .kept _ _ | .stamped _ _ _ | .pushed _ | .stopping => true
  | _ => false

/-- A client waits to join a worker that no thread is going to wake. -/
def Stranded (s : TransportImpl) : Prop :=
  (∃ c, s.clients c = .joining) ∧ (∃ p ∈ s.workers, untimed p = true) ∧ ∀ c, mayNotify (s.clients c) = false

/-- If the step is the `notify_all` of `shutdown`, no worker stands between the test of the
    predicate and the block. -/
def NotifiesAwake (s : TransportImpl) : TransportOp → Prop
  | .client c _ => s.clients c = .stopping → .aboutToWait ∉ s.workers
  | _ => True

instance (s : TransportImpl) : ∀ op, Decidable (NotifiesAwake s op)
  | .client c _ => inferInstanceAs (Decidable (s.clients c = .stopping → .aboutToWait ∉ s.workers))
  | .tick _ | .worker _ _ | .wakeWorker _ | .wakeClient _ => inferInstanceAs (Decidable True)
  | .send _ _ _ _ | .waitForPendingDeliveries _ | .shutdown _ => inferInstanceAs (Decidable True)
  | .registerEndpoint _ | .unregisterEndpoint _ | .setParams _ => inferInstanceAs (Decidable True)

section Invariant
variable {s : TransportImpl}

/-- Once a client has set about stopping, the flag is down, and from its notification on no
    worker is in the untimed wait. -/
structure Stopping (s : TransportImpl) : Prop where
  flag : ∀ c, s.clients c = .stopping ∨ s.clients c = .joining → s.running = false
  awake : ∀ c, s.clients c = .joining → ∀ p ∈ s.workers, untimed p = false

theorem shutdown_lowers {c : ℕ} (idle : s.clients c = .idle) (running : s.running = true) :
    (s.step (.shutdown c)).1.running = false := by
  simp only [TransportImpl.step, TransportImpl.shutdown, idle, running, if_true]

theorem notifyAll_step {c : ℕ} (stopping : s.clients c = .stopping) (choice : ℕ) :
    (s.step (.client c choice)).1 = { s.move c .joining with workers := s.workers.map WorkerPoint.wake } := by
  simp only [TransportImpl.step, TransportImpl.client, stopping]

theorem untimed_wake {p : WorkerPoint} (apart : p ≠ .aboutToWait) : untimed p.wake = false := by
  cases p with
  | aboutToWait => exact absurd rfl apart
  | loopHead | atLock | waiting | aboutToWaitFor | waitingFor | woken | exited => rfl
  | popped | counted | looked | calling | delivered => rfl

theorem untimed_moves {op : TransportOp} {k : ℕ} {p p' : WorkerPoint} {e : Option TransportEvent}
    (moves : WorkerMoves s op k p e p') (stopped : s.running = false) (out : untimed p = false) :
    untimed p' = false := by
  cases moves with
  | stay => exact out
  | wake =>
    refine untimed_wake ?_
    rintro rfl
    cases out
  | block running => exact absurd (stopped.symm.trans running) (by decide)
  | release => cases out
  | enter | leave | quit | pop | notDue | releaseFor | again => rfl
  | count | look | call | skip | callReturn | finish => rfl

theorem Stopping.step (h : Stopping s) (op : TransportOp) (safe : NotifiesAwake s op) : Stopping (s.step op).1 := by
  constructor
  · intro c stands
    have moves := step_client s op c
    generalize before : s.clients c = p at moves
    rcases stands with stopping | joining
    · rw [stopping] at moves
      generalize (s.step op).2 = e at moves
      cases moves with
      | stay => exact stays_stopped (h.flag c (.inl before)) op
      | stop running turn =>
        subst turn
        exact shutdown_lowers before running
    · rw [joining] at moves
      generalize (s.step op).2 = e at moves
      cases moves with
      | stay => exact stays_stopped (h.flag c (.inr before)) op
      | notifyAll => exact stays_stopped (h.flag c (.inl before)) op
  · intro c joining p member
    have moves := step_client s op c
    rw [joining] at moves
    generalize before : s.clients c = q at moves
    generalize (s.step op).2 = e at moves
    cases moves with
    | stay =>
      obtain ⟨k, now⟩ := List.getElem?_of_mem member
      obtain ⟨p₀, at_k, step⟩ := step_worker_back now
      exact untimed_moves step (h.flag c (.inr before)) (h.awake c before p₀ (List.mem_of_getElem? at_k))
    | notifyAll choice turn =>
      subst turn
      rw [notifyAll_step before] at member
      obtain ⟨p₀, there, rfl⟩ := List.mem_map.mp member
      refine untimed_wake ?_
      rintro rfl
      exact safe before there

theorem stopping_new (params : NetworkParams) : Stopping (.new params) where
  flag := fun c stands => by rcases stands with stopping | joining <;> cases ‹_›
  awake := fun c joining => nomatch joining

end Invariant

/-- In every run whose notifications of all workers are made while none of them is about to
    block, no state reached has a stranded worker. -/
theorem no_worker_stranded (params : NetworkParams) (ops : List TransportOp)
    (safe : transportMachine.Guarded (fun s _ op => NotifiesAwake s op) (.new params) [] ops) :
    ∀ before after, ops = before ++ after → ¬ Stranded (transportMachine.final (.new params) before) := by
  rintro before after rfl ⟨⟨c, joining⟩, ⟨p, member, blocked⟩, -⟩
  have guarded := ((transportMachine.guarded_append _ _ before after).mp safe).1
  have h := transportMachine.guarded_invariant (I := fun s _ => Stopping s) guarded (stopping_new params)
    fun s _ op safe h => h.step op safe
  exact absurd (blocked.symm.trans (h.awake c joining p member)) (by decide)

/-- A notification made at the wrong time strands the worker, unless a thread is inside `send`. -/
theorem stranded_of_lost_notification {s : TransportImpl} {c : ℕ} (stopping : s.clients c = .stopping)
    (about : .aboutToWait ∈ s.workers) (quiet : ∀ c', c' ≠ c → mayNotify (s.clients c') = false) (choice : ℕ) :
    Stranded (s.step (.client c choice)).1 := by
  rw [notifyAll_step stopping]
  refine ⟨⟨c, clients_move_self s c .joining⟩, ⟨.aboutToWait, ?_, rfl⟩, fun c' => ?_⟩
  · exact List.mem_map.mpr ⟨.aboutToWait, about, rfl⟩
  · by_cases same : c' = c
    · subst same
      exact congrArg mayNotify (clients_move_self s c' .joining)
    · exact (congrArg mayNotify (clients_move_other same .joining)).trans (quiet c' same)

def orderlyStop : List TransportOp :=
  [.worker 0 0, .worker 0 0, .worker 0 0, .shutdown 0, .client 0 0, .worker 0 0, .worker 1 0,
    .worker 2 0, .worker 3 0, .client 0 0]

theorem no_worker_stranded_orderly : ¬ Stranded (transportMachine.final (.new ⟨0, 0⟩) orderlyStop) :=
  no_worker_stranded ⟨0, 0⟩ orderlyStop (by decide +kernel) orderlyStop [] (by decide)

/-- The first worker has found the flag up and the queue empty, the flag goes down and all are
    notified, and then the worker blocks. -/
def lostNotification : List TransportOp :=
  [.worker 0 0, .worker 0 0, .shutdown 0, .client 0 0, .worker 0 0]

theorem worker_stranded : Stranded (transportMachine.final (.new ⟨0, 0⟩) lostNotification) := by
  refine ⟨⟨0, rfl⟩, ⟨.waiting, List.mem_cons_self, rfl⟩, fun c => ?_⟩
  cases c with
  | zero => rfl
  | succ c => rfl

end InterchainCommunication.TransportShutdown
