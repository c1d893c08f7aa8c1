import InterchainCommunication.TaskCustody
import InterchainCommunication.ThreadSteps

set_option autoImplicit false

namespace InterchainCommunication.TransportSteps
open CoreTypes MachineRuns ListUpdates TransportModel TaskCustody ThreadSteps

/-- The task a worker has in its hand, with how far it got. -/
def stageOf : WorkerPoint → Option Stage
  | .popped t => some (.popped t)
  | .counted t => some (.counted t)
  | .looked t f => some (.looked t f)
  | .calling t f => some (.calling t f)
  | .delivered t f => some (.delivered t f)
  | _ => none

def custody (s : TransportImpl) : Custody :=
  ⟨s.tasks, s.pushes, s.workers.map stageOf, s.pendingCount, s.inflightCount⟩

theorem stageOf_wake (p : WorkerPoint) : stageOf p.wake = stageOf p := by
  cases p <;> rfl

theorem map_stageOf_wake (ws : List WorkerPoint) : (ws.map WorkerPoint.wake).map stageOf = ws.map stageOf := by
  rw [List.map_map]
  exact List.map_congr_left fun p _ => stageOf_wake p

theorem map_stageOf_set_free {ws : List WorkerPoint} {k : ℕ} {p p' : WorkerPoint} (at_k : ws[k]? = some p)
    (same : stageOf p' = stageOf p) : (ws.set k p').map stageOf = ws.map stageOf := by
  rw [List.map_set, same]
  exact set_same (by rw [List.getElem?_map, at_k]; rfl)

theorem moves_to {c c' c'' : Custody} {e : Option TransportEvent} (moves : Moves c e c') (same : c'' = c') :
    Moves c e c'' := same ▸ moves

theorem custody_hand {s : TransportImpl} {k : ℕ} {p : WorkerPoint} (at_k : s.workers[k]? = some p) :
    (custody s).hands[k]? = some (stageOf p) := by
  change (s.workers.map stageOf)[k]? = _
  rw [List.getElem?_map, at_k]
  rfl

theorem custody_put_free {s : TransportImpl} {k : ℕ} {p p' : WorkerPoint} (at_k : s.workers[k]? = some p)
    (same : stageOf p' = stageOf p) : custody (s.put k p') = custody s := by
  simp only [custody, TransportImpl.put, map_stageOf_set_free at_k same]

theorem top_some {s : TransportImpl} {choice : ℕ} {t : DeliveryTask} (h : s.top choice = some t) :
    s.tasks[choice]? = some t ∧ ∀ u ∈ s.tasks, t.deliverAt ≤ u.deliverAt := by
  obtain ⟨found, earliest⟩ := Option.filter_eq_some_iff.mp h
  exact ⟨found, by simpa using earliest⟩

section Worker
variable {s : TransportImpl} {k : ℕ} {p : WorkerPoint}

theorem countP_stageOf {f : Option Stage → Bool} {g : WorkerPoint → Bool} (same : ∀ p, f (stageOf p) = g p)
    (ws : List WorkerPoint) : (ws.map stageOf).countP f = ws.countP g := by
  rw [List.countP_map]
  exact congrArg (ws.countP ·) (funext same)

theorem moves_free (at_k : s.workers[k]? = some p) (from_free : stageOf p = none) {p' : WorkerPoint}
    (to_free : stageOf p' = none) (locked : Bool) :
    Moves (custody s) none (custody { s.put k p' with tasksMtx := locked }) := by
  have same : custody { s.put k p' with tasksMtx := locked } = custody s :=
    custody_put_free at_k (to_free.trans from_free.symm)
  rw [same]
  exact .keep _ none rfl

theorem moves_takeTask (at_k : s.workers[k]? = some .atLock) (choice : ℕ) :
    Moves (custody s) (s.takeTask k choice).2 (custody (s.takeTask k choice).1) := by
  rw [TransportImpl.takeTask]
  split
  · split
    · exact moves_free at_k rfl rfl true
    · exact moves_free at_k rfl rfl s.tasksMtx
  · cases found : s.top choice with
    | none => exact .keep _ none rfl
    | some t =>
      obtain ⟨listed, earliest⟩ := top_some found
      simp only
      split
      · rename_i due
        refine moves_to (.pop (custody s) k choice t s.clock (custody_hand at_k) listed earliest due) ?_
        simp only [custody, TransportImpl.put, Custody.hold, List.map_set, stageOf]
      · exact moves_free at_k rfl rfl true

theorem moves_worker (s : TransportImpl) (k choice : ℕ) :
    Moves (custody s) (s.worker k choice).2 (custody (s.worker k choice).1) := by
  rw [TransportImpl.worker]
  cases at_k : s.workers[k]? with
  | none => exact .keep _ none rfl
  | some p =>
    cases p with
    | loopHead => exact moves_free at_k rfl (by split <;> rfl) s.tasksMtx
    | atLock =>
      simp only
      split
      · exact .keep _ none rfl
      · exact moves_takeTask at_k choice
    | aboutToWait => exact moves_free at_k rfl rfl false
    | aboutToWaitFor => exact moves_free at_k rfl rfl false
    | woken =>
      simp only
      split
      · exact .keep _ none rfl
      · exact moves_free at_k rfl rfl s.tasksMtx
    | waiting => exact .keep _ none rfl
    | waitingFor => exact .keep _ none rfl
    | exited => exact .keep _ none rfl
    | popped t =>
      simp only
      split
      · exact .keep _ none rfl
      · refine moves_to (.count (custody s) k t (custody_hand at_k)) ?_
        simp only [custody, TransportImpl.put, Custody.hold, List.map_set, stageOf]
    | counted t =>
      refine moves_to (.look (custody s) k t (s.endpoints t.to) (custody_hand at_k)) ?_
      simp only [custody, TransportImpl.put, Custody.hold, List.map_set, stageOf]
    | looked t f =>
      cases f with
      | none =>
        refine moves_to (.skip (custody s) k t (custody_hand at_k)) ?_
        simp only [custody, TransportImpl.put, Custody.hold, List.map_set, stageOf]
      | some f =>
        refine moves_to (.call (custody s) k t f (custody_hand at_k)) ?_
        simp only [custody, TransportImpl.put, Custody.hold, List.map_set, stageOf]
    | calling t f =>
      refine moves_to (.callReturn (custody s) k t f (custody_hand at_k)) ?_
      simp only [custody, TransportImpl.put, Custody.hold, List.map_set, stageOf]
    | delivered t f =>
      simp only
      split
      · exact .keep _ none rfl
      · refine moves_to (.finish (custody s) k t f (custody_hand at_k)) ?_
        simp only [custody, TransportImpl.finishTask, TransportImpl.put, Custody.hold, List.map_set, stageOf]

end Worker

section Client

theorem map_stageOf_notifyOne {s : TransportImpl} {choice : ℕ} {ws : List WorkerPoint}
    (woke : s.notifyOne choice = some ws) : ws.map stageOf = s.workers.map stageOf := by
  rw [TransportImpl.notifyOne] at woke
  cases at_k : s.workers[choice]? with
  | none =>
    rw [at_k] at woke
    simp only at woke
    split at woke
    · cases woke
    · obtain rfl := Option.some.inj woke
      rfl
  | some p =>
    rw [at_k] at woke
    simp only at woke
    split at woke
    · obtain rfl := Option.some.inj woke
      exact map_stageOf_set_free at_k (stageOf_wake p)
    · split at woke
      · cases woke
      · obtain rfl := Option.some.inj woke
        rfl

theorem moves_client (s : TransportImpl) (c choice : ℕ) :
    Moves (custody s) (s.client c choice).2 (custody (s.client c choice).1) := by
  rw [TransportImpl.client]
  cases s.clients c with
  | idle => exact .keep _ none rfl
  | drainWaiting => exact .keep _ none rfl
  | checked dest data draw =>
    simp only
    split
    · exact .keep _ _ rfl
    · exact .keep _ none rfl
  | kept dest data => exact .keep _ none rfl
  | stamped deliverAt dest data =>
    simp only
    split
    · exact .keep _ none rfl
    · exact .push (custody s) c ⟨s.pushes, deliverAt, dest, data⟩ rfl
  | pushed id =>
    simp only
    cases woke : s.notifyOne choice with
    | none => exact .keep _ none rfl
    | some ws =>
      refine moves_to (.keep (custody s) (some _) rfl) ?_
      simp only [custody, TransportImpl.move, map_stageOf_notifyOne woke]
  | draining =>
    simp only
    split
    · exact .keep _ none rfl
    · split
      · exact .keep _ _ rfl
      · exact .keep _ none rfl
  | aboutToDrainWait => exact .keep _ none rfl
  | stopping =>
    refine moves_to (.keep (custody s) none rfl) ?_
    simp only [custody, TransportImpl.move, map_stageOf_wake]
  | joining =>
    simp only
    split
    · exact .keep _ _ rfl
    · exact .keep _ none rfl

end Client

theorem step_moves (s : TransportImpl) (op : TransportOp) :
    Moves (custody s) (s.step op).2 (custody (s.step op).1) := by
  cases op with
  | tick d => exact .keep _ none rfl
  | worker k choice => exact moves_worker s k choice
  | wakeWorker k =>
    cases at_k : s.workers[k]? with
    | none =>
      refine moves_to (.keep (custody s) none rfl) ?_
      simp only [TransportImpl.step, custody, modify_of_none at_k]
    | some p =>
      refine moves_to (.keep (custody s) none rfl) ?_
      simp only [TransportImpl.step, custody, ← set_eq_modify at_k, map_stageOf_set_free at_k (stageOf_wake p)]
  | client c choice => exact moves_client s c choice
  | wakeClient c => exact .keep _ none rfl
  | send c dest data draw =>
    rw [TransportImpl.step]
    split
    · rw [TransportImpl.send]
      split
      · exact .keep _ _ rfl
      · exact .keep _ none rfl
    · exact .keep _ none rfl
  | waitForPendingDeliveries c =>
    rw [TransportImpl.step]
    split <;> exact .keep _ none rfl
  | shutdown c =>
    rw [TransportImpl.step]
    split
    · rw [TransportImpl.shutdown]
      split
      · exact .keep _ none rfl
      · exact .keep _ _ rfl
    · exact .keep _ none rfl
  | registerEndpoint address =>
    rw [TransportImpl.step, TransportImpl.registerEndpoint]
    split <;> exact .keep _ _ rfl
  | unregisterEndpoint address =>
    rw [TransportImpl.step, TransportImpl.unregisterEndpoint]
    split <;> exact .keep _ _ rfl
  | setParams params => exact .keep _ none rfl

theorem worker_of_event {s : TransportImpl} {op : TransportOp} {k : ℕ}
    (shown : (s.step op).2.bind workerOf = some k) : ∃ p, s.workers[k]? = some p := by
  have hand {h : Option Stage} (held : (custody s).hands[k]? = some h) : ∃ p, s.workers[k]? = some p := by
    change (s.workers.map stageOf)[k]? = some h at held
    rw [List.getElem?_map] at held
    obtain ⟨p, at_k, -⟩ := Option.map_eq_some_iff.mp held
    exact ⟨p, at_k⟩
  have moves := step_moves s op
  generalize (s.step op).2 = e at shown moves
  generalize custody (s.step op).1 = c' at moves
  cases moves with
  | keep _ quiet =>
    cases e with
    | none => cases shown
    | some ev =>
      cases ev with
      | popped | lookedUp | called | callReturned => cases quiet
      | pushed | sendReturned | waitReturned | shutdownReturned | registered | unregistered => cases shown
  | push | count | skip | finish => cases shown
  | pop k' i t now free =>
    obtain rfl : k' = k := Option.some.inj shown
    exact hand free
  | look k' t f held | call k' t f held | callReturn k' t f held =>
    obtain rfl : k' = k := Option.some.inj shown
    exact hand held

theorem hands_length {c c' : Custody} {e : Option TransportEvent} (moves : Moves c e c') :
    c'.hands.length = c.hands.length := by
  cases moves <;> simp [Custody.hold]

/-- The move that took a worker where it is. -/
theorem step_worker_back {s : TransportImpl} {op : TransportOp} {k : ℕ} {p' : WorkerPoint}
    (now : (s.step op).1.workers[k]? = some p') :
    ∃ p, s.workers[k]? = some p ∧ WorkerMoves s op k p (s.step op).2 p' := by
  have lengths := hands_length (step_moves s op)
  simp only [custody, List.length_map] at lengths
  have inside : k < s.workers.length := lengths ▸ (List.getElem?_eq_some_iff.mp now).1
  have at_k : s.workers[k]? = some s.workers[k] := List.getElem?_eq_getElem inside
  obtain ⟨p, there, moves⟩ := step_worker at_k op
  obtain rfl := Option.some.inj (now.symm.trans there)
  exact ⟨_, at_k, moves⟩

theorem worker_moves_of_event {s : TransportImpl} {op : TransportOp} {ev : TransportEvent} {k : ℕ}
    (shown : (s.step op).2 = some ev) (mine : workerOf ev = some k) :
    ∃ p p', s.workers[k]? = some p ∧ WorkerMoves s op k p (some ev) p' := by
  obtain ⟨p, at_k⟩ := worker_of_event (k := k) ((congrArg (·.bind workerOf) shown).trans mine)
  obtain ⟨p', -, moves⟩ := step_worker at_k op
  exact ⟨p, p', at_k, shown ▸ moves⟩

theorem called_looked {s : TransportImpl} {op : TransportOp} {k : ℕ} {t : DeliveryTask} {f : ℕ}
    (called : (s.step op).2 = some (.called k t f)) : s.workers[k]? = some (.looked t (some f)) := by
  obtain ⟨p, p', at_k, moves⟩ := worker_moves_of_event called rfl
  cases moves with
  | stay _ _ quiet | wake _ _ quiet => exact absurd rfl quiet
  | call t f => exact at_k

theorem lookedUp_endpoint {s : TransportImpl} {op : TransportOp} {k : ℕ} {t : DeliveryTask} {f : Option ℕ}
    (looked : (s.step op).2 = some (.lookedUp k t f)) : f = s.endpoints t.to := by
  obtain ⟨p, p', -, moves⟩ := worker_moves_of_event looked rfl
  cases moves with
  | stay _ _ quiet | wake _ _ quiet => exact absurd rfl quiet
  | look t => rfl

theorem worker_of_held {s : TransportImpl} {k : ℕ} {st : Stage} (held : (custody s).hands[k]? = some (some st)) :
    ∃ p, s.workers[k]? = some p ∧ stageOf p = some st := by
  change (s.workers.map stageOf)[k]? = some (some st) at held
  rw [List.getElem?_map] at held
  exact Option.map_eq_some_iff.mp held

theorem eventsOf_concat (t : List (TransportOp × Option TransportEvent)) (op : TransportOp)
    (e : Option TransportEvent) : eventsOf (t ++ [(op, e)]) = eventsOf t ++ e.toList :=
  filterMap_concat _ _ _

theorem balanced_new (params : NetworkParams) : Balanced (custody (.new params)) := ⟨rfl, rfl⟩

theorem tracked_new (params : NetworkParams) : Tracked (custody (.new params)) [] where
  fresh := fun i _ => rfl
  queued := fun t member => absurd member List.not_mem_nil
  once := List.nodup_nil
  held := fun k st held => by
    have free : (List.replicate 4 (none : Option Stage))[k]? = some (some st) := held
    rw [List.getElem?_replicate] at free
    split at free <;> simp at free
  placed := fun i early => absurd early (Nat.not_lt_zero i)

/-- In every run the counters count, and every task has the history of its place. -/
theorem custody_run (params : NetworkParams) (ops : List TransportOp) :
    Balanced (custody (transportMachine.final (.new params) ops)) ∧
      Tracked (custody (transportMachine.final (.new params) ops))
        (eventsOf (transportMachine.trace (.new params) ops)) := by
  refine transportMachine.history_invariant (I := fun s t => Balanced (custody s) ∧ Tracked (custody s) (eventsOf t))
    ops ⟨balanced_new params, tracked_new params⟩ ?_
  rintro s t op - ⟨balanced, tracked⟩
  rw [eventsOf_concat]
  have moves := step_moves s op
  exact ⟨balanced_moves balanced moves, tracked_moves tracked moves⟩

end InterchainCommunication.TransportSteps
