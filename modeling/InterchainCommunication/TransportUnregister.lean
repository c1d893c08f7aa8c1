import InterchainCommunication.ThreadSteps
import InterchainCommunication.TransportDrain
import InterchainCommunication.TransportSteps

set_option autoImplicit false

namespace InterchainCommunication.TransportUnregister
open StringText CoreTypes MachineRuns ListUpdates TransportModel TaskCustody TransportSteps ThreadSteps TransportDrain

/-- No deliver function is called once its endpoint is unregistered. -/
def SilentOnceUnregistered (es : List TransportEvent) : Prop :=
  ∀ address f k t, ¬ Before es (.unregistered address ⟨.ok, []⟩ (some f)) (.called k t f)

section Endpoints
variable {s : TransportImpl}

/-- The numbers in the endpoint table are of past registrations, each at one address. -/
structure Numbered (s : TransportImpl) : Prop where
  past : ∀ address f, s.endpoints address = some f → f < s.registrations
  once : ∀ a b f, s.endpoints a = some f → s.endpoints b = some f → a = b

theorem found_registered {address a : Bytes} {n f : ℕ}
    (found : Function.update s.endpoints address (some n) a = some f) :
    (a = address ∧ n = f) ∨ s.endpoints a = some f := by
  rw [Function.update_apply] at found
  split at found
  · rename_i same
    exact .inl ⟨same, Option.some.inj found⟩
  · exact .inr found

theorem found_unregistered {address a : Bytes} {f : ℕ}
    (found : Function.update s.endpoints address none a = some f) : a ≠ address ∧ s.endpoints a = some f := by
  rw [Function.update_apply] at found
  split at found
  · cases found
  · rename_i other
    exact ⟨other, found⟩

theorem Numbered.step (h : Numbered s) (op : TransportOp) : Numbered (s.step op).1 := by
  have moves := step_env s op
  generalize s.step op = r at moves ⊢
  cases moves with
  | same _ _ env =>
    constructor
    · rw [env.endpoints, env.registrations]
      exact h.past
    · rw [env.endpoints]
      exact h.once
  | tick | stop | setParams => exact ⟨h.past, h.once⟩
  | register address free =>
    constructor
    · intro a f bound
      change f < s.registrations + 1
      rcases found_registered bound with ⟨-, new⟩ | old
      · omega
      · have past := h.past a f old
        omega
    · intro a b f bound bound'
      rcases found_registered bound with ⟨first, new⟩ | old
      · rcases found_registered bound' with ⟨second, -⟩ | old'
        · exact first.trans second.symm
        · have past := h.past b f old'
          omega
      · rcases found_registered bound' with ⟨-, new'⟩ | old'
        · have past := h.past a f old
          omega
        · exact h.once a b f old old'
  | unregister address g bound =>
    constructor
    · exact fun a f found => h.past a f (found_unregistered found).2
    · exact fun a b f found found' => h.once a b f (found_unregistered found).2 (found_unregistered found').2

theorem numbered_run (params : NetworkParams) (ops : List TransportOp) :
    Numbered (transportMachine.final (.new params) ops) := by
  refine transportMachine.invariant ops ⟨?_, ?_⟩ fun s op _ h => h.step op
  · exact fun address f found => nomatch found
  · exact fun a b f found => nomatch found

/-- The function was registered once, and no address has it any more. -/
def Gone (f : ℕ) (s : TransportImpl) : Prop := f < s.registrations ∧ ∀ address, s.endpoints address ≠ some f

theorem Gone.step {f : ℕ} (h : Gone f s) (op : TransportOp) : Gone f (s.step op).1 := by
  have moves := step_env s op
  generalize s.step op = r at moves ⊢
  cases moves with
  | same _ _ env =>
    rw [Gone, env.endpoints, env.registrations]
    exact h
  | tick | stop | setParams => exact h
  | register address free =>
    refine ⟨Nat.lt_succ_of_lt h.1, fun a found => ?_⟩
    rcases found_registered found with ⟨-, new⟩ | old
    · exact absurd new h.1.ne'
    · exact h.2 a old
  | unregister address g bound => exact ⟨h.1, fun a found => h.2 a (found_unregistered found).2⟩

theorem gone_of_unregister (numbered : Numbered s) {address : Bytes} {f : ℕ} (bound : s.endpoints address = some f) :
    Gone f (s.step (.unregisterEndpoint address)).1 := by
  simp only [TransportImpl.step, TransportImpl.unregisterEndpoint, bound]
  refine ⟨numbered.past address f bound, fun a found => ?_⟩
  obtain ⟨other, still⟩ := found_unregistered found
  exact other (numbered.once a address f still bound)

end Endpoints
section Calls

def readyFor (f : ℕ) : WorkerPoint → Bool
  | .looked _ (some g) => g == f
  | _ => false

def readyStage (f : ℕ) : Option Stage → Bool
  | some (.looked _ (some g)) => g == f
  | _ => false

def callsOf (f : ℕ) : TransportEvent → Bool
  | .called _ _ g => g == f
  | _ => false

theorem countP_readyStage (f : ℕ) (ws : List WorkerPoint) :
    (ws.map stageOf).countP (readyStage f) = ws.countP (readyFor f) := by
  refine countP_stageOf (fun p => ?_) ws
  cases p with
  | looked t g => cases g <;> rfl
  | loopHead | atLock | aboutToWait | waiting | aboutToWaitFor | waitingFor | woken | exited => rfl
  | popped | counted | calling | delivered => rfl

theorem callsOf_quiet (f : ℕ) {e : Option TransportEvent} (quiet : e.bind taskOf = none) :
    e.toList.countP (callsOf f) = 0 := by
  cases e with
  | none => rfl
  | some ev =>
    cases ev with
    | called => cases quiet
    | pushed | sendReturned | popped | lookedUp | callReturned => rfl
    | waitReturned | shutdownReturned | registered | unregistered => rfl

/-- Without a new look-up, each call of `f` uses up one look-up made before. -/
theorem ready_moves {f : ℕ} {c c' : Custody} {e : Option TransportEvent} (moves : Moves c e c')
    (unseen : ∀ k t, e ≠ some (.lookedUp k t (some f))) :
    e.toList.countP (callsOf f) + c'.hands.countP (readyStage f) = c.hands.countP (readyStage f) := by
  have free {k : ℕ} {old new : Option Stage} (held : c.hands[k]? = some old) (was : readyStage f old = false)
      (is : readyStage f new = false) : (c.hands.set k new).countP (readyStage f) = c.hands.countP (readyStage f) := by
    have counts := countP_hold (p := readyStage f) held new
    simpa [was, is] using counts
  cases moves with
  | keep e quiet => rw [callsOf_quiet f quiet, Nat.zero_add]
  | push => exact Nat.zero_add _
  | pop k i t now held => exact (Nat.zero_add _).trans (free held rfl rfl)
  | count k t held => exact (Nat.zero_add _).trans (free held rfl rfl)
  | look k t g held =>
    have other : readyStage f (some (.looked t g)) = false := by
      cases g with
      | none => rfl
      | some g =>
        have apart : g ≠ f := fun same => unseen k t (by rw [same])
        simpa [readyStage] using apart
    exact (Nat.zero_add _).trans (free held rfl other)
  | call k t g held =>
    have counts := countP_hold (p := readyStage f) held (some (.calling t g))
    change [TransportEvent.called k t g].countP (callsOf f) + (c.hands.set k _).countP (readyStage f) = _
    rw [List.countP_singleton]
    have called : callsOf f (.called k t g) = (g == f) := rfl
    have ready : readyStage f (some (.looked t (some g))) = (g == f) := rfl
    have done : readyStage f (some (.calling t g)) = false := rfl
    rw [ready, done] at counts
    rw [called]
    simp only [Bool.false_eq_true, if_false] at counts
    omega
  | skip k t held => exact (Nat.zero_add _).trans (free held rfl rfl)
  | callReturn k t g held => exact (Nat.zero_add _).trans (free held rfl rfl)
  | finish k t g held => exact (Nat.zero_add _).trans (free held rfl rfl)

end Calls
section Runs
variable {f : ℕ} {s₀ s : TransportImpl} {es : List TransportEvent}

/-- What has happened since `s₀`, where `f` was gone: nobody found `f`, and the calls of it
    are of the workers that had found it before. -/
structure WindingDown (f : ℕ) (s₀ s : TransportImpl) (es : List TransportEvent) : Prop where
  gone : Gone f s
  unseen : ∀ k t, .lookedUp k t (some f) ∉ es
  count : es.countP (callsOf f) + s.workers.countP (readyFor f) = s₀.workers.countP (readyFor f)
  ready : ∀ (k : ℕ) (t : DeliveryTask), s.workers[k]? = some (.looked t (some f)) →
    s₀.workers[k]? = some (.looked t (some f))
  called : ∀ (k : ℕ) (t : DeliveryTask), .called k t f ∈ es → s₀.workers[k]? = some (.looked t (some f))

theorem Gone.not_lookedUp (h : Gone f s) (op : TransportOp) (k : ℕ) (t : DeliveryTask) :
    (s.step op).2 ≠ some (.lookedUp k t (some f)) :=
  fun looked => h.2 t.to (lookedUp_endpoint looked).symm

theorem WindingDown.step (h : WindingDown f s₀ s es) (op : TransportOp) :
    WindingDown f s₀ (s.step op).1 (es ++ (s.step op).2.toList) := by
  have unseen := h.gone.not_lookedUp op
  constructor
  · exact h.gone.step op
  · intro k t member
    rcases List.mem_append.mp member with old | new
    · exact h.unseen k t old
    · exact unseen k t (Option.mem_toList.mp new)
  · have used := ready_moves (step_moves s op) unseen
    simp only [custody, countP_readyStage] at used
    have before := h.count
    rw [List.countP_append]
    omega
  · intro k t now
    obtain ⟨p, at_k, moves⟩ := step_worker_back now
    refine h.ready k t ?_
    generalize shown : (s.step op).2 = e at moves
    generalize next : WorkerPoint.looked t (some f) = p' at moves
    cases moves with
    | stay => exact at_k
    | wake =>
      cases p with
      | looked => exact at_k
      | waiting | waitingFor => cases next
      | loopHead | atLock | aboutToWait | aboutToWaitFor | woken | exited => cases next
      | popped | counted | calling | delivered => cases next
    | look t' =>
      obtain ⟨rfl, found⟩ := WorkerPoint.looked.inj next
      exact absurd found.symm (h.gone.2 t.to)
    | enter | leave | block | quit | pop | notDue | release | releaseFor | again => cases next
    | count | call | skip | callReturn | finish => cases next
  · intro k t member
    rcases List.mem_append.mp member with old | new
    · exact h.called k t old
    · exact h.ready k t (called_looked (Option.mem_toList.mp new))

theorem windingDown_run (gone : Gone f s) (ops : List TransportOp) :
    WindingDown f s (transportMachine.final s ops) (eventsOf (transportMachine.trace s ops)) := by
  refine transportMachine.history_invariant (I := fun s' t => WindingDown f s s' (eventsOf t)) ops ?_ ?_
  · refine ⟨gone, ?_, ?_, fun k t now => now, ?_⟩
    · exact fun k t member => absurd member List.not_mem_nil
    · exact Nat.zero_add _
    · exact fun k t member => absurd member List.not_mem_nil
  · intro s' t op _ h
    rw [eventsOf_concat]
    exact h.step op

/-- A drained transport has no worker between look-up and call. -/
theorem readyFor_le_betweenUpdates (f : ℕ) (ws : List WorkerPoint) :
    ws.countP (readyFor f) ≤ ws.countP betweenUpdates := by
  refine List.countP_mono_left fun p _ ready => ?_
  cases p with
  | looked => rfl
  | counted | calling | delivered => rfl
  | loopHead | atLock | aboutToWait | waiting | aboutToWaitFor | waitingFor | woken | exited => cases ready
  | popped => cases ready

end Runs

/-- In every run: an unregistration that finds `f` returns Ok, and from then on no worker finds
    `f` again. Each later call of it is of a worker that stood between its look-up and its call
    at the unregistration, and there are no more calls than such workers: none when nothing was
    in flight or the workers had left. -/
theorem calls_after_unregister (params : NetworkParams) (ops ops' : List TransportOp) (address : Bytes) (f : ℕ)
    (bound : (transportMachine.final (.new params) ops).endpoints address = some f) :
    let s := transportMachine.final (.new params) ops
    let r := s.step (.unregisterEndpoint address)
    let after := eventsOf (transportMachine.trace r.1 ops')
    r.2 = some (.unregistered address ⟨.ok, []⟩ (some f)) ∧
    (∀ k t, .lookedUp k t (some f) ∉ after) ∧
    (∀ (k : ℕ) (t : DeliveryTask), .called k t f ∈ after → s.workers[k]? = some (.looked t (some f))) ∧
    after.countP (callsOf f) + (transportMachine.final r.1 ops').workers.countP (readyFor f) =
      s.workers.countP (readyFor f) ∧
    (s.inflightCount = 0 ∨ (∀ p ∈ s.workers, p = .exited) → after.countP (callsOf f) = 0) := by
  intro s r after
  have returned : r = ({ s with endpoints := Function.update s.endpoints address none },
      some (.unregistered address ⟨.ok, []⟩ (some f))) := by
    simp only [r, s, TransportImpl.step, TransportImpl.unregisterEndpoint, bound]
  have run := windingDown_run (gone_of_unregister (numbered_run params ops) bound) ops'
  have workers : r.1.workers = s.workers := by rw [returned]
  have called := run.called
  have count := run.count
  change ∀ (k : ℕ) (t : DeliveryTask), _ → r.1.workers[k]? = _ at called
  change _ = r.1.workers.countP (readyFor f) at count
  rw [workers] at called count
  refine ⟨by rw [returned], run.unseen, called, count, ?_⟩
  intro still
  have nobody : s.workers.countP (readyFor f) = 0 := by
    rcases still with drained | left
    · have balanced := (custody_run params ops).1.inflight
      have flying : s.inflightCount = s.workers.countP betweenUpdates := by
        rw [← countP_inFlight]
        exact balanced
      have fewer := readyFor_le_betweenUpdates f s.workers
      omega
    · rw [List.countP_eq_zero]
      intro p member
      rw [left p member]
      exact Bool.false_ne_true
  change after.countP (callsOf f) + _ = _ at count
  omega

def settled : List TransportOp :=
  [.registerEndpoint [1], .send 0 [1] [7] 0, .client 0 0, .client 0 0, .client 0 0, .client 0 0,
    .worker 0 0, .worker 0 0, .worker 0 0, .worker 0 0, .worker 0 0, .worker 0 0, .worker 0 0]

theorem calls_after_unregister_settled :
    (eventsOf (transportMachine.trace
      ((transportMachine.final (.new ⟨0, 0⟩) settled).step (.unregisterEndpoint [1])).1 settled)).countP
        (callsOf 0) = 0 := by
  have law := calls_after_unregister ⟨0, 0⟩ settled settled [1] 0 (by decide +kernel)
  exact law.2.2.2.2 (.inl (by decide +kernel))

/-- The first worker finds the endpoint, the endpoint is unregistered, and the worker calls it. -/
def lateCall : List TransportOp :=
  [.registerEndpoint [1], .send 0 [1] [7] 0, .client 0 0, .client 0 0, .client 0 0, .client 0 0,
    .worker 0 0, .worker 0 0, .worker 0 0, .worker 0 0, .unregisterEndpoint [1], .worker 0 0]

theorem called_once_unregistered :
    ¬ SilentOnceUnregistered (eventsOf (transportMachine.trace (.new ⟨0, 0⟩) lateCall)) :=
  fun silent => silent [1] 0 0 ⟨0, 0, [1], [7]⟩ (by decide +kernel)

end InterchainCommunication.TransportUnregister
