import InterchainCommunication.ThreadSteps

set_option autoImplicit false

namespace InterchainCommunication.TransportTurns
open StringText CoreTypes MachineRuns ListUpdates TransportModel ThreadSteps

/-- A worker's way between two sections under the task mutex. -/
inductive WorkerStrides (s : TransportImpl) : WorkerPoint → WorkerPoint → Prop
  | enter (running : s.running = true) : WorkerStrides s .loopHead .atLock
  | leave (stopped : s.running = false) : WorkerStrides s .loopHead .exited
  | quit (stopped : s.running = false) (unlocked : s.tasksMtx = false) (empty : s.tasks = []) :
      WorkerStrides s .atLock .exited
  | again (unlocked : s.tasksMtx = false) : WorkerStrides s .woken .loopHead
  | look (t : DeliveryTask) : WorkerStrides s (.counted t) (.looked t (s.endpoints t.to))
  | skip (t : DeliveryTask) : WorkerStrides s (.looked t none) (.delivered t none)
  | call (t : DeliveryTask) (f : ℕ) : WorkerStrides s (.looked t (some f)) (.calling t f)
  | callReturn (t : DeliveryTask) (f : ℕ) : WorkerStrides s (.calling t f) (.delivered t (some f))

inductive ClientStrides (s : TransportImpl) : ClientPoint → ClientPoint → Prop
  | drop (dest data : Bytes) (draw : ℚ) (lost : shouldDrop draw s.params.dropRate = true) :
      ClientStrides s (.checked dest data draw) .idle
  | pass (dest data : Bytes) (draw : ℚ) (kept : shouldDrop draw s.params.dropRate = false) :
      ClientStrides s (.checked dest data draw) (.kept dest data)
  | stamp (dest data : Bytes) :
      ClientStrides s (.kept dest data) (.stamped (s.clock + s.params.latency) dest data)
  | drained (unlocked : s.tasksMtx = false) (zero : s.pendingCount = 0 ∧ s.inflightCount = 0) :
      ClientStrides s .draining .idle
  | joined (exited : ∀ p ∈ s.workers, p = .exited) : ClientStrides s .joining .idle

inductive Begins : TransportOp → ℕ → ClientPoint → Prop
  | send (c : ℕ) (dest data : Bytes) (draw : ℚ) : Begins (.send c dest data draw) c (.checked dest data draw)
  | waitForPendingDeliveries (c : ℕ) : Begins (.waitForPendingDeliveries c) c .draining

inductive Releases : WorkerPoint → WorkerPoint → Prop
  | wait : Releases .aboutToWait .waiting
  | waitFor : Releases .aboutToWaitFor .waitingFor

/-- The step of a thread of its own, or the end of its timed wait. -/
def Own (s : TransportImpl) : TransportOp → Prop
  | .worker _ _ | .client _ _ => True
  | .wakeWorker k => s.workers[k]? = some .waitingFor
  | _ => False

structure SameThreads (s s' : TransportImpl) : Prop where
  running : s'.running = s.running
  tasks : s'.tasks = s.tasks
  tasksMtx : s'.tasksMtx = s.tasksMtx
  pendingCount : s'.pendingCount = s.pendingCount
  inflightCount : s'.inflightCount = s.inflightCount
  workers : s'.workers = s.workers
  clients : s'.clients = s.clients

inductive Turn (s : TransportImpl) : TransportOp → TransportImpl → Prop
  | stay (op : TransportOp) : Turn s op s
  | around (op : TransportOp) (s' : TransportImpl) (foreign : ¬Own s op) (same : SameThreads s s') : Turn s op s'
  | begin (op : TransportOp) (c : ℕ) (p : ClientPoint) (at_c : s.clients c = .idle) (begins : Begins op c p) :
      Turn s op (s.move c p)
  | stop (c : ℕ) (at_c : s.clients c = .idle) (running : s.running = true) :
      Turn s (.shutdown c) { s.move c .stopping with running := false }
  | wakeWorker (k : ℕ) (p : WorkerPoint) (at_k : s.workers[k]? = some p) : Turn s (.wakeWorker k) (s.put k p.wake)
  | wakeClient (c : ℕ) (at_c : s.clients c = .drainWaiting) : Turn s (.wakeClient c) (s.move c .draining)
  | stride (k choice : ℕ) (p p' : WorkerPoint) (at_k : s.workers[k]? = some p) (strides : WorkerStrides s p p') :
      Turn s (.worker k choice) (s.put k p')
  | block (k choice : ℕ) (at_k : s.workers[k]? = some .atLock) (unlocked : s.tasksMtx = false)
      (running : s.running = true) (empty : s.tasks = []) :
      Turn s (.worker k choice) { s.put k .aboutToWait with tasksMtx := true }
  | pop (k choice : ℕ) (t : DeliveryTask) (at_k : s.workers[k]? = some .atLock) (unlocked : s.tasksMtx = false)
      (found : s.top choice = some t) (due : t.deliverAt ≤ s.clock) :
      Turn s (.worker k choice) { s.put k (.popped t) with tasks := s.tasks.eraseIdx choice }
  | notDue (k choice : ℕ) (t : DeliveryTask) (at_k : s.workers[k]? = some .atLock) (unlocked : s.tasksMtx = false)
      (found : s.top choice = some t) (early : s.clock < t.deliverAt) :
      Turn s (.worker k choice) { s.put k .aboutToWaitFor with tasksMtx := true }
  | release (k choice : ℕ) (p p' : WorkerPoint) (at_k : s.workers[k]? = some p) (releases : Releases p p') :
      Turn s (.worker k choice) { s.put k p' with tasksMtx := false }
  | count (k choice : ℕ) (t : DeliveryTask) (at_k : s.workers[k]? = some (.popped t))
      (unlocked : s.tasksMtx = false) :
      Turn s (.worker k choice)
        { s.put k (.counted t) with pendingCount := dec s.pendingCount, inflightCount := s.inflightCount + 1 }
  | finish (k choice : ℕ) (t : DeliveryTask) (f : Option ℕ) (at_k : s.workers[k]? = some (.delivered t f))
      (unlocked : s.tasksMtx = false) : Turn s (.worker k choice) (s.finishTask k)
  | go (c choice : ℕ) (p p' : ClientPoint) (at_c : s.clients c = p) (strides : ClientStrides s p p') :
      Turn s (.client c choice) (s.move c p')
  | push (c choice : ℕ) (deliverAt : ℤ) (dest data : Bytes) (at_c : s.clients c = .stamped deliverAt dest data)
      (unlocked : s.tasksMtx = false) :
      Turn s (.client c choice)
        { s.move c (.pushed s.pushes) with
          tasks := s.tasks ++ [⟨s.pushes, deliverAt, dest, data⟩]
          pushes := s.pushes + 1
          pendingCount := s.pendingCount + 1 }
  | notify (c choice id : ℕ) (ws : List WorkerPoint) (at_c : s.clients c = .pushed id)
      (woke : s.notifyOne choice = some ws) : Turn s (.client c choice) { s.move c .idle with workers := ws }
  | drainBlock (c choice : ℕ) (at_c : s.clients c = .draining) (unlocked : s.tasksMtx = false)
      (busy : ¬(s.pendingCount = 0 ∧ s.inflightCount = 0)) :
      Turn s (.client c choice) { s.move c .aboutToDrainWait with tasksMtx := true }
  | drainRelease (c choice : ℕ) (at_c : s.clients c = .aboutToDrainWait) :
      Turn s (.client c choice) { s.move c .drainWaiting with tasksMtx := false }
  | notifyAll (c choice : ℕ) (at_c : s.clients c = .stopping) :
      Turn s (.client c choice) { s.move c .joining with workers := s.workers.map WorkerPoint.wake }

variable {s : TransportImpl}

theorem takeTask_turn {k : ℕ} (at_k : s.workers[k]? = some .atLock) (unlocked : s.tasksMtx = false) (choice : ℕ) :
    Turn s (.worker k choice) (s.takeTask k choice).1 := by
  rw [TransportImpl.takeTask]
  split
  · rename_i empty
    have none : s.tasks = [] := List.isEmpty_iff.mp empty
    split
    · rename_i running
      exact .block k choice at_k unlocked running none
    · rename_i stopped
      exact .stride k choice _ _ at_k (.quit (Bool.eq_false_of_not_eq_true stopped) unlocked none)
  · cases found : s.top choice with
    | none => exact .stay _
    | some t =>
      simp only
      split
      · rename_i due
        exact .pop k choice t at_k unlocked found due
      · rename_i early
        exact .notDue k choice t at_k unlocked found (not_le.mp early)

theorem worker_turn (s : TransportImpl) (k choice : ℕ) : Turn s (.worker k choice) (s.worker k choice).1 := by
  rw [TransportImpl.worker]
  cases at_k : s.workers[k]? with
  | none => exact .stay _
  | some p =>
    cases p with
    | waiting | waitingFor | exited => exact .stay _
    | loopHead =>
      cases running : s.running with
      | true => exact .stride k choice _ _ at_k (.enter running)
      | false => exact .stride k choice _ _ at_k (.leave running)
    | aboutToWait => exact .release k choice _ _ at_k .wait
    | aboutToWaitFor => exact .release k choice _ _ at_k .waitFor
    | counted t => exact .stride k choice _ _ at_k (.look t)
    | looked t f =>
      cases f with
      | none => exact .stride k choice _ _ at_k (.skip t)
      | some f => exact .stride k choice _ _ at_k (.call t f)
    | calling t f => exact .stride k choice _ _ at_k (.callReturn t f)
    | atLock | woken | popped | delivered =>
      cases unlocked : s.tasksMtx with
      | true => exact .stay _
      | false =>
        first
        | exact takeTask_turn at_k unlocked choice
        | exact .stride k choice _ _ at_k (.again unlocked)
        | exact .count k choice _ at_k unlocked
        | exact .finish k choice _ _ at_k unlocked

theorem client_turn (s : TransportImpl) (c choice : ℕ) : Turn s (.client c choice) (s.client c choice).1 := by
  rw [TransportImpl.client]
  cases at_c : s.clients c with
  | idle | drainWaiting => exact .stay _
  | checked dest data draw =>
    simp only
    split
    · rename_i lost
      exact .go c choice _ _ at_c (.drop dest data draw lost)
    · rename_i kept
      exact .go c choice _ _ at_c (.pass dest data draw (Bool.eq_false_of_not_eq_true kept))
  | kept dest data => exact .go c choice _ _ at_c (.stamp dest data)
  | stamped deliverAt dest data =>
    cases unlocked : s.tasksMtx with
    | true => exact .stay _
    | false => exact .push c choice deliverAt dest data at_c unlocked
  | pushed id =>
    simp only
    cases woke : s.notifyOne choice with
    | none => exact .stay _
    | some ws => exact .notify c choice id ws at_c woke
  | draining =>
    cases unlocked : s.tasksMtx with
    | true => exact .stay _
    | false =>
      simp only [Bool.false_eq_true, if_false]
      split
      · rename_i zero
        exact .go c choice _ _ at_c (.drained unlocked zero)
      · rename_i busy
        exact .drainBlock c choice at_c unlocked busy
  | aboutToDrainWait => exact .drainRelease c choice at_c
  | stopping => exact .notifyAll c choice at_c
  | joining =>
    simp only
    split
    · rename_i all
      exact .go c choice _ _ at_c (.joined (by simpa using all))
    · exact .stay _

theorem step_turn (s : TransportImpl) (op : TransportOp) : Turn s op (s.step op).1 := by
  cases op with
  | worker k choice => exact worker_turn s k choice
  | client c choice => exact client_turn s c choice
  | tick d => exact .around _ _ id ⟨rfl, rfl, rfl, rfl, rfl, rfl, rfl⟩
  | setParams params => exact .around _ _ id ⟨rfl, rfl, rfl, rfl, rfl, rfl, rfl⟩
  | wakeWorker k =>
    cases at_k : s.workers[k]? with
    | none =>
      simp only [TransportImpl.step, modify_of_none at_k]
      exact .stay _
    | some p =>
      simp only [TransportImpl.step, ← set_eq_modify at_k]
      exact .wakeWorker k p at_k
  | wakeClient c =>
    have same (p : ClientPoint) (at_c : s.clients c = p) : s.move c p = s := by
      rw [TransportImpl.move, ← at_c, Function.update_eq_self]
    simp only [TransportImpl.step]
    cases at_c : s.clients c with
    | drainWaiting => exact .wakeClient c at_c
    | idle | checked | kept | stamped | pushed | draining | aboutToDrainWait | stopping | joining =>
      simp only [ClientPoint.wakeDrain, same _ at_c]
      exact .stay _
  | send c dest data draw =>
    simp only [TransportImpl.step, TransportImpl.send]
    split
    · rename_i idle
      split
      · exact .stay _
      · exact .begin _ c _ idle (.send c dest data draw)
    · exact .stay _
  | waitForPendingDeliveries c =>
    simp only [TransportImpl.step]
    split
    · rename_i idle
      exact .begin _ c _ idle (.waitForPendingDeliveries c)
    · exact .stay _
  | shutdown c =>
    simp only [TransportImpl.step, TransportImpl.shutdown]
    split
    · rename_i idle
      split
      · rename_i running
        exact .stop c idle running
      · exact .stay _
    · exact .stay _
  | registerEndpoint address =>
    simp only [TransportImpl.step, TransportImpl.registerEndpoint]
    split
    · exact .stay _
    · exact .around _ _ id ⟨rfl, rfl, rfl, rfl, rfl, rfl, rfl⟩
  | unregisterEndpoint address =>
    simp only [TransportImpl.step, TransportImpl.unregisterEndpoint]
    split
    · exact .stay _
    · exact .around _ _ id ⟨rfl, rfl, rfl, rfl, rfl, rfl, rfl⟩

end InterchainCommunication.TransportTurns
