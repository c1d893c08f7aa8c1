import InterchainCommunication.CoreTypes
import InterchainCommunication.MachineRuns
import Mathlib.Data.Rat.Defs
import Mathlib.Logic.Function.Basic

set_option autoImplicit false

/-!
# The transport and its threads

Each thread stands at a point of its code, and a step takes one thread to its
next point. What the code does under a mutex without waiting is one step. The
release of the task mutex by a condition wait is a step of its own, so the mutex
stays locked from the failed test until then. Any client thread may call any
method at any time; the choices of the scheduler, of the heap among equal times
and of `notify_one` are part of the input.
-/
namespace InterchainCommunication.TransportModel
open StringText CoreTypes MachineRuns

structure NetworkParams where
  latency : ℤ
  dropRate : ℚ
  deriving DecidableEq

/-- `id` counts the pushes. It stands for the task object, and no code reads it. -/
structure DeliveryTask where
  id : ℕ
  deliverAt : ℤ
  «to» : Bytes
  data : Bytes
  deriving DecidableEq, Repr

/-- A worker in `workerLoop`. A deliver function is the number of its registration. -/
inductive WorkerPoint
  /-- at the test of `while (running_)` -/
  | loopHead
  /-- about to take the task mutex and test the predicate of the wait -/
  | atLock
  | aboutToWait
  | waiting
  | aboutToWaitFor
  | waitingFor
  /-- out of `wait_for`, about to take the mutex again and go on -/
  | woken
  | popped (task : DeliveryTask)
  /-- past the first update of the counters -/
  | counted (task : DeliveryTask)
  /-- the deliver function is copied, if there was one -/
  | looked (task : DeliveryTask) (deliver : Option ℕ)
  | calling (task : DeliveryTask) (deliver : ℕ)
  | delivered (task : DeliveryTask) (deliver : Option ℕ)
  | exited
  deriving DecidableEq, Repr

inductive ClientPoint
  | idle
  /-- in `send`, with the endpoint found; `draw` is what the generator will give -/
  | checked (dest data : Bytes) (draw : ℚ)
  | kept (dest data : Bytes)
  | stamped (deliverAt : ℤ) (dest data : Bytes)
  /-- about to call `notify_one` -/
  | pushed (id : ℕ)
  /-- in `waitForPendingDeliveries`, about to take the mutex and test the predicate -/
  | draining
  | aboutToDrainWait
  | drainWaiting
  /-- in `shutdown`, about to call `notify_all` -/
  | stopping
  | joining
  deriving DecidableEq

structure TransportImpl where
  params : NetworkParams
  clock : ℤ
  running : Bool
  endpoints : Bytes → Option ℕ
  registrations : ℕ
  tasks : List DeliveryTask
  pushes : ℕ
  tasksMtx : Bool
  pendingCount : ℕ
  inflightCount : ℕ
  workers : List WorkerPoint
  clients : ℕ → ClientPoint

inductive TransportEvent
  | pushed (c : ℕ) (task : DeliveryTask)
  | sendReturned (c : ℕ) (status : Status) (id : Option ℕ)
  | popped (k : ℕ) (task : DeliveryTask) (now : ℤ)
  | lookedUp (k : ℕ) (task : DeliveryTask) (deliver : Option ℕ)
  | called (k : ℕ) (task : DeliveryTask) (deliver : ℕ)
  | callReturned (k : ℕ) (task : DeliveryTask) (deliver : ℕ)
  | waitReturned (c : ℕ)
  | shutdownReturned (c : ℕ)
  | registered (address : Bytes) (status : Status) (deliver : Option ℕ)
  | unregistered (address : Bytes) (status : Status) (deliver : Option ℕ)
  deriving DecidableEq

/-- `uniform_real_distribution(a, b)` over a draw from `[0, 1)`. -/
def uniformReal (a b draw : ℚ) : ℚ := a + draw * (b - a)

def shouldDrop (draw dropRate : ℚ) : Bool := uniformReal 1 1 draw < dropRate

/-- A counter of type `size_t` going down. -/
def dec : ℕ → ℕ
  | 0 => 2 ^ 64 - 1
  | n + 1 => n

def WorkerPoint.wake : WorkerPoint → WorkerPoint
  | waiting => atLock
  | waitingFor => woken
  | p => p

def WorkerPoint.blocked : WorkerPoint → Bool
  | waiting | waitingFor => true
  | _ => false

def ClientPoint.wakeDrain : ClientPoint → ClientPoint
  | drainWaiting => draining
  | p => p

namespace TransportImpl

def new (params : NetworkParams) : TransportImpl where
  params := params
  clock := 0
  running := true
  endpoints := fun _ => none
  registrations := 0
  tasks := []
  pushes := 0
  tasksMtx := false
  pendingCount := 0
  inflightCount := 0
  workers := List.replicate 4 .loopHead
  clients := fun _ => .idle

def put (s : TransportImpl) (k : ℕ) (p : WorkerPoint) : TransportImpl :=
  { s with workers := s.workers.set k p }

def move (s : TransportImpl) (c : ℕ) (p : ClientPoint) : TransportImpl :=
  { s with clients := Function.update s.clients c p }

/-- `tasks_.top()`: any task that no other is earlier than. -/
def top (s : TransportImpl) (choice : ℕ) : Option DeliveryTask :=
  s.tasks[choice]?.filter fun t => s.tasks.all fun u => t.deliverAt ≤ u.deliverAt

def takeTask (s : TransportImpl) (k choice : ℕ) : TransportImpl × Option TransportEvent :=
  if s.tasks.isEmpty then
    if s.running then ({ s.put k .aboutToWait with tasksMtx := true }, none)
    else (s.put k .exited, none)
  else
    match s.top choice with
    | none => (s, none)
    | some t =>
      if t.deliverAt ≤ s.clock then
        ({ s.put k (.popped t) with tasks := s.tasks.eraseIdx choice }, some (.popped k t s.clock))
      else ({ s.put k .aboutToWaitFor with tasksMtx := true }, none)

/-- The last section of an iteration, with the notification of drain waiters. -/
def finishTask (s : TransportImpl) (k : ℕ) : TransportImpl :=
  let inflightCount := dec s.inflightCount
  { s.put k .loopHead with
    inflightCount := inflightCount
    clients := fun c =>
      if s.pendingCount = 0 ∧ inflightCount = 0 then (s.clients c).wakeDrain else s.clients c }

def worker (s : TransportImpl) (k choice : ℕ) : TransportImpl × Option TransportEvent :=
  match s.workers[k]? with
  | some .loopHead => (s.put k (if s.running then .atLock else .exited), none)
  | some .atLock => if s.tasksMtx then (s, none) else s.takeTask k choice
  | some .aboutToWait => ({ s.put k .waiting with tasksMtx := false }, none)
  | some .aboutToWaitFor => ({ s.put k .waitingFor with tasksMtx := false }, none)
  | some .woken => if s.tasksMtx then (s, none) else (s.put k .loopHead, none)
  | some (.popped t) =>
    if s.tasksMtx then (s, none)
    else
      ({ s.put k (.counted t) with
          pendingCount := dec s.pendingCount, inflightCount := s.inflightCount + 1 }, none)
  | some (.counted t) =>
    (s.put k (.looked t (s.endpoints t.to)), some (.lookedUp k t (s.endpoints t.to)))
  | some (.looked t (some f)) => (s.put k (.calling t f), some (.called k t f))
  | some (.looked t none) => (s.put k (.delivered t none), none)
  | some (.calling t f) => (s.put k (.delivered t (some f)), some (.callReturned k t f))
  | some (.delivered _ _) => if s.tasksMtx then (s, none) else (s.finishTask k, none)
  | some .waiting | some .waitingFor | some .exited | none => (s, none)

/-- `tasksCV_.notify_one()`: one blocked worker, if there is any. -/
def notifyOne (s : TransportImpl) (choice : ℕ) : Option (List WorkerPoint) :=
  match s.workers[choice]? with
  | some p =>
    if WorkerPoint.blocked p then some (s.workers.set choice p.wake)
    else if s.workers.any WorkerPoint.blocked then none
    else some s.workers
  | none => if s.workers.any WorkerPoint.blocked then none else some s.workers

def client (s : TransportImpl) (c choice : ℕ) : TransportImpl × Option TransportEvent :=
  match s.clients c with
  | .checked dest data draw =>
    if shouldDrop draw s.params.dropRate then
      (s.move c .idle, some (.sendReturned c ⟨.networkDrop, lit "Packet dropped by network"⟩ none))
    else (s.move c (.kept dest data), none)
  | .kept dest data => (s.move c (.stamped (s.clock + s.params.latency) dest data), none)
  | .stamped deliverAt dest data =>
    if s.tasksMtx then (s, none)
    else
      let task : DeliveryTask := ⟨s.pushes, deliverAt, dest, data⟩
      ({ s.move c (.pushed s.pushes) with
          tasks := s.tasks ++ [task], pushes := s.pushes + 1, pendingCount := s.pendingCount + 1 },
        some (.pushed c task))
  | .pushed id =>
    match s.notifyOne choice with
    | none => (s, none)
    | some workers =>
      ({ s.move c .idle with workers := workers }, some (.sendReturned c ⟨.ok, []⟩ (some id)))
  | .draining =>
    if s.tasksMtx then (s, none)
    else if s.pendingCount = 0 ∧ s.inflightCount = 0 then (s.move c .idle, some (.waitReturned c))
    else ({ s.move c .aboutToDrainWait with tasksMtx := true }, none)
  | .aboutToDrainWait => ({ s.move c .drainWaiting with tasksMtx := false }, none)
  | .stopping => ({ s.move c .joining with workers := s.workers.map WorkerPoint.wake }, none)
  | .joining =>
    if s.workers.all (· == .exited) then (s.move c .idle, some (.shutdownReturned c)) else (s, none)
  | .idle | .drainWaiting => (s, none)

def send (s : TransportImpl) (c : ℕ) (dest data : Bytes) (draw : ℚ) :
    TransportImpl × Option TransportEvent :=
  match s.endpoints dest with
  | none => (s, some (.sendReturned c ⟨.notFound, lit "Destination endpoint not found"⟩ none))
  | some _ => (s.move c (.checked dest data draw), none)

/-- `running_.exchange(false)` and the test of what it returned. -/
def shutdown (s : TransportImpl) (c : ℕ) : TransportImpl × Option TransportEvent :=
  if s.running then ({ s.move c .stopping with running := false }, none)
  else (s, some (.shutdownReturned c))

def registerEndpoint (s : TransportImpl) (address : Bytes) : TransportImpl × Option TransportEvent :=
  match s.endpoints address with
  | some _ => (s, some (.registered address ⟨.invalidState, lit "Endpoint already registered"⟩ none))
  | none =>
    ({ s with endpoints := Function.update s.endpoints address (some s.registrations),
              registrations := s.registrations + 1 },
      some (.registered address ⟨.ok, []⟩ (some s.registrations)))

def unregisterEndpoint (s : TransportImpl) (address : Bytes) : TransportImpl × Option TransportEvent :=
  match s.endpoints address with
  | none => (s, some (.unregistered address ⟨.notFound, lit "Endpoint not registered"⟩ none))
  | some f =>
    ({ s with endpoints := Function.update s.endpoints address none },
      some (.unregistered address ⟨.ok, []⟩ (some f)))

end TransportImpl

inductive TransportOp
  /-- time passes -/
  | tick (d : ℕ)
  | worker (k choice : ℕ)
  /-- a spurious wakeup, or the end of a timed wait -/
  | wakeWorker (k : ℕ)
  | client (c choice : ℕ)
  | wakeClient (c : ℕ)
  | send (c : ℕ) (dest data : Bytes) (draw : ℚ)
  | waitForPendingDeliveries (c : ℕ)
  | shutdown (c : ℕ)
  | registerEndpoint (address : Bytes)
  | unregisterEndpoint (address : Bytes)
  | setParams (params : NetworkParams)
  deriving DecidableEq

/-- A thread that is inside a method starts no other one. -/
def TransportImpl.step (s : TransportImpl) : TransportOp → TransportImpl × Option TransportEvent
  | .tick d => ({ s with clock := s.clock + d }, none)
  | .worker k choice => s.worker k choice
  | .wakeWorker k => ({ s with workers := s.workers.modify k WorkerPoint.wake }, none)
  | .client c choice => s.client c choice
  | .wakeClient c => (s.move c (s.clients c).wakeDrain, none)
  | .send c dest data draw => if s.clients c = .idle then s.send c dest data draw else (s, none)
  | .waitForPendingDeliveries c => if s.clients c = .idle then (s.move c .draining, none) else (s, none)
  | .shutdown c => if s.clients c = .idle then s.shutdown c else (s, none)
  | .registerEndpoint address => s.registerEndpoint address
  | .unregisterEndpoint address => s.unregisterEndpoint address
  | .setParams params => ({ s with params := params }, none)

def transportMachine : Machine TransportImpl TransportOp (Option TransportEvent) where
  step := TransportImpl.step

def eventsOf (t : List (TransportOp × Option TransportEvent)) : List TransportEvent :=
  t.filterMap Prod.snd

end InterchainCommunication.TransportModel
