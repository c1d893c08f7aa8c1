import InterchainCommunication.ThreadSteps
import InterchainCommunication.TransportSteps

set_option autoImplicit false

namespace InterchainCommunication.TransportClosing
open CoreTypes MachineRuns TransportModel TaskCustody TransportSteps ThreadSteps

def isReturn : TransportEvent → Bool
  | .shutdownReturned _ => true
  | _ => false

def shutdownDone (es : List TransportEvent) : Bool := es.any isReturn

/-- The counters let `waitForPendingDeliveries` return, once `shutdown` has. -/
def Drained (s : TransportImpl) (es : List TransportEvent) : Prop :=
  shutdownDone es = true → s.pendingCount = 0 ∧ s.inflightCount = 0

def AllLeft (s : TransportImpl) : Prop := ∀ p ∈ s.workers, p = .exited

def AtRest (s : TransportImpl) : Prop := s.tasks = [] ∧ ∀ p ∈ s.workers, stageOf p = none

def pushing (s : TransportImpl) (c : ℕ) : Bool :=
  match s.clients c with
  | .stamped _ _ _ => !s.tasksMtx
  | _ => false

/-- The last worker leaves its loop with nothing queued, nothing is pushed once the workers have
    left or a call of `shutdown` has returned, and a call that finds the flag down finds the
    transport at rest. -/
def LeavesNothing (s : TransportImpl) (es : List TransportEvent) : TransportOp → Prop
  | .worker k _ => s.workers[k]? = some .loopHead → s.running = false →
      (∀ p ∈ s.workers.set k .exited, p = .exited) → s.tasks = []
  | .client c _ => pushing s c = true → ¬ AllLeft s ∧ shutdownDone es = false
  | .shutdown c => s.clients c = .idle → s.running = false → AtRest s
  | _ => True

instance (s : TransportImpl) : Decidable (AllLeft s) := inferInstanceAs (Decidable (∀ p ∈ s.workers, p = .exited))

instance (s : TransportImpl) : Decidable (AtRest s) :=
  inferInstanceAs (Decidable (s.tasks = [] ∧ ∀ p ∈ s.workers, stageOf p = none))

instance (s : TransportImpl) (es : List TransportEvent) : ∀ op, Decidable (LeavesNothing s es op)
  | .worker k _ => inferInstanceAs (Decidable (s.workers[k]? = some .loopHead → s.running = false →
      (∀ p ∈ s.workers.set k .exited, p = .exited) → s.tasks = []))
  | .client c _ => inferInstanceAs (Decidable (pushing s c = true → ¬ AllLeft s ∧ shutdownDone es = false))
  | .shutdown c => inferInstanceAs (Decidable (s.clients c = .idle → s.running = false → AtRest s))
  | .tick _ | .wakeWorker _ | .wakeClient _ | .send _ _ _ _ => inferInstanceAs (Decidable True)
  | .waitForPendingDeliveries _ => inferInstanceAs (Decidable True)
  | .registerEndpoint _ | .unregisterEndpoint _ | .setParams _ => inferInstanceAs (Decidable True)

section Counters
variable {s : TransportImpl}

theorem counters_zero_iff (balanced : Balanced (custody s)) :
    s.pendingCount = 0 ∧ s.inflightCount = 0 ↔ AtRest s := by
  refine balanced.zero_iff.trans (and_congr_right fun _ => ?_)
  exact List.forall_mem_map

theorem atRest_of_left (left : AllLeft s) (empty : s.tasks = []) : AtRest s :=
  ⟨empty, fun p member => by rw [left p member]; rfl⟩

end Counters
section Steps
variable {s : TransportImpl} {op : TransportOp}

theorem shutdownDone_append (es : List TransportEvent) (e : Option TransportEvent) :
    shutdownDone (es ++ e.toList) = (shutdownDone es || e.any isReturn) := by
  rw [shutdownDone, List.any_append, ← shutdownDone]
  cases e with
  | none => rfl
  | some ev => simp

theorem pushed_turn {c : ℕ} {t : DeliveryTask} (pushed : (s.step op).2 = some (.pushed c t)) :
    pushing s c = true ∧ ∃ choice, op = .client c choice := by
  obtain ⟨stamped, unlocked, turn⟩ := pushed_cases pushed
  refine ⟨?_, turn⟩
  simp only [pushing, stamped, unlocked]
  rfl

theorem tasks_kept (unpushed : ∀ c t, (s.step op).2 ≠ some (.pushed c t))
    (unpopped : ∀ k t now, (s.step op).2 ≠ some (.popped k t now)) : (s.step op).1.tasks = s.tasks := by
  have moves := step_moves s op
  change (custody (s.step op).1).queue = (custody s).queue
  generalize (s.step op).2 = e at moves unpushed unpopped
  generalize custody (s.step op).1 = c' at moves
  cases moves with
  | push c t number => exact absurd rfl (unpushed c t)
  | pop k i t now => exact absurd rfl (unpopped k t now)
  | keep | count | look | call | skip | callReturn | finish => rfl

theorem popped_at_lock {k : ℕ} {t : DeliveryTask} {now : ℤ} (popped : (s.step op).2 = some (.popped k t now)) :
    s.workers[k]? = some .atLock := by
  obtain ⟨p, p', at_k, moves⟩ := worker_moves_of_event popped rfl
  cases moves with
  | stay _ _ quiet | wake _ _ quiet => exact absurd rfl quiet
  | pop t => exact at_k

theorem allLeft_step (left : AllLeft s) (op : TransportOp) : AllLeft (s.step op).1 := by
  intro p member
  obtain ⟨k, now⟩ := List.getElem?_of_mem member
  obtain ⟨p₀, at_k, moves⟩ := step_worker_back now
  obtain rfl := left p₀ (List.mem_of_getElem? at_k)
  generalize (s.step op).2 = e at moves
  cases moves with
  | stay => rfl
  | wake => rfl

theorem not_popped_of_left (left : AllLeft s) (op : TransportOp) (k : ℕ) (t : DeliveryTask) (now : ℤ) :
    (s.step op).2 ≠ some (.popped k t now) :=
  fun popped => nomatch left _ (List.mem_of_getElem? (popped_at_lock popped))

theorem leftBehind_step (left : AllLeft s) (queued : s.tasks ≠ []) (op : TransportOp) :
    (s.step op).1.tasks ≠ [] := by
  have moves := step_moves s op
  change (custody (s.step op).1).queue ≠ []
  have unpopped := not_popped_of_left left op
  generalize (s.step op).2 = e at moves unpopped
  generalize custody (s.step op).1 = c' at moves
  cases moves with
  | push => exact List.append_ne_nil_of_right_ne_nil _ (List.cons_ne_nil _ _)
  | pop k i t now => exact absurd rfl (unpopped k t now)
  | keep | count | look | call | skip | callReturn | finish => exact queued

theorem leftBehind_run (left : AllLeft s) (queued : s.tasks ≠ []) (ops : List TransportOp) :
    AllLeft (transportMachine.final s ops) ∧ (transportMachine.final s ops).tasks ≠ [] :=
  transportMachine.invariant (I := fun s => AllLeft s ∧ s.tasks ≠ []) ops ⟨left, queued⟩
    fun _ op _ h => ⟨allLeft_step h.1 op, leftBehind_step h.1 h.2 op⟩

theorem atRest_step (rest : AtRest s) (unpushed : ∀ c t, (s.step op).2 ≠ some (.pushed c t)) :
    AtRest (s.step op).1 := by
  have moves := step_moves s op
  have free {k : ℕ} {st : Stage} (held : (custody s).hands[k]? = some (some st)) : False := by
    obtain ⟨p, at_k, stage⟩ := worker_of_held held
    rw [rest.2 p (List.mem_of_getElem? at_k)] at stage
    cases stage
  have kept : custody (s.step op).1 = custody s := by
    generalize (s.step op).2 = e at moves unpushed
    generalize custody (s.step op).1 = c' at moves ⊢
    cases moves with
    | keep => rfl
    | push c t number => exact absurd rfl (unpushed c t)
    | pop k i t now _ found =>
      change s.tasks[i]? = some t at found
      rw [rest.1] at found
      cases found
    | count k t held | skip k t held => exact (free held).elim
    | look k t f held | call k t f held | callReturn k t f held | finish k t f held => exact (free held).elim
  refine ⟨(congrArg Custody.queue kept).trans rest.1, fun p member => ?_⟩
  have hands : (s.step op).1.workers.map stageOf = s.workers.map stageOf := congrArg Custody.hands kept
  have there : stageOf p ∈ s.workers.map stageOf := hands ▸ List.mem_map_of_mem member
  obtain ⟨p₀, before, same⟩ := List.mem_map.mp there
  exact same ▸ rest.2 p₀ before

/-- How the last worker leaves: at the head of its loop, or with nothing queued. -/
theorem last_leaves (before : ¬ AllLeft s) (after : AllLeft (s.step op).1) :
    (s.step op).2 = none ∧ (s.tasks = [] ∨ s.running = false ∧ ∃ k choice, op = .worker k choice ∧
      s.workers[k]? = some .loopHead ∧ ∀ p ∈ s.workers.set k .exited, p = .exited) := by
  obtain ⟨p, there, stays⟩ : ∃ p ∈ s.workers, p ≠ .exited := by
    simpa [AllLeft] using before
  obtain ⟨k, at_k⟩ := List.getElem?_of_mem there
  obtain ⟨p', next, moves⟩ := step_worker at_k op
  obtain rfl := after p' (List.mem_of_getElem? next)
  generalize shown : (s.step op).2 = e at moves
  generalize gone : WorkerPoint.exited = p' at moves
  cases moves with
  | stay => exact absurd gone.symm stays
  | wake =>
    cases p with
    | exited => exact absurd rfl stays
    | waiting | waitingFor | loopHead | atLock | aboutToWait | aboutToWaitFor | woken => cases gone
    | popped | counted | looked | calling | delivered => cases gone
  | quit stopped empty => exact ⟨rfl, .inl empty⟩
  | leave stopped choice turn =>
    subst turn
    refine ⟨rfl, .inr ⟨stopped, k, choice, rfl, at_k, ?_⟩⟩
    have left : (s.step (.worker k choice)).1.workers = s.workers.set k .exited := by
      simp only [TransportImpl.step, TransportImpl.worker, at_k, stopped, TransportImpl.put, Bool.false_eq_true,
        if_false]
    rw [← left]
    exact after
  | enter | block | pop | notDue | release | releaseFor | again => cases gone
  | count | look | call | skip | callReturn | finish => cases gone

theorem returned_cases {e : Option TransportEvent} (shown : (s.step op).2 = e) (returns : e.any isReturn = true) :
    AllLeft s ∨ s.running = false ∧ ∃ c, op = .shutdown c ∧ s.clients c = .idle := by
  cases e with
  | none => cases returns
  | some ev =>
    cases ev with
    | shutdownReturned c =>
      obtain ⟨p, p', at_c, -, moves⟩ := client_of_event shown c
      cases moves with
      | stay _ _ quiet => exact absurd rfl quiet
      | stopped stopped turn => exact .inr ⟨stopped, c, turn, at_c⟩
      | joined exited => exact .inl exited
    | pushed | sendReturned | popped | lookedUp | called | callReturned => cases returns
    | waitReturned | registered | unregistered => cases returns

end Steps
section Guarded
variable {s : TransportImpl} {es : List TransportEvent} {op : TransportOp}

/-- What the guard keeps up: nothing is left behind, and after a return the transport rests. -/
structure Closing (s : TransportImpl) (es : List TransportEvent) : Prop where
  empty : AllLeft s → s.tasks = []
  rest : shutdownDone es = true → AtRest s

theorem Closing.step (h : Closing s es) (op : TransportOp) (guard : LeavesNothing s es op) :
    Closing (s.step op).1 (es ++ (s.step op).2.toList) := by
  have unpushed (closed : AllLeft s ∨ shutdownDone es = true) (c : ℕ) (t : DeliveryTask) :
      (s.step op).2 ≠ some (.pushed c t) := by
    intro pushed
    obtain ⟨about, choice, turn⟩ := pushed_turn pushed
    subst turn
    obtain ⟨open_, running⟩ := guard about
    rcases closed with left | done
    · exact open_ left
    · exact absurd (done.symm.trans running) (by decide)
  constructor
  · intro after
    by_cases left : AllLeft s
    · rw [tasks_kept (unpushed (.inl left)) (not_popped_of_left left op)]
      exact h.empty left
    · obtain ⟨silent, last⟩ := last_leaves left after
      rw [tasks_kept (by simp [silent]) (by simp [silent])]
      rcases last with empty | ⟨stopped, k, choice, turn, at_k, others⟩
      · exact empty
      · subst turn
        exact guard at_k stopped others
  · intro done
    rw [shutdownDone_append, Bool.or_eq_true] at done
    rcases done with before | now
    · exact atRest_step (h.rest before) (unpushed (.inr before))
    · have returns (c : ℕ) (t : DeliveryTask) : (s.step op).2 ≠ some (.pushed c t) := by
        intro pushed
        rw [pushed] at now
        cases now
      rcases returned_cases rfl now with left | ⟨stopped, c, turn, idle⟩
      · exact atRest_step (atRest_of_left left (h.empty left)) returns
      · subst turn
        exact atRest_step (guard idle stopped) returns

theorem closing_new (params : NetworkParams) : Closing (.new params) [] where
  empty := fun _ => rfl
  rest := fun done => nomatch done

end Guarded

def Guard (s : TransportImpl) (h : List (TransportOp × Option TransportEvent)) (op : TransportOp) : Prop :=
  LeavesNothing s (eventsOf h) op

instance (s : TransportImpl) (h : List (TransportOp × Option TransportEvent)) (op : TransportOp) :
    Decidable (Guard s h op) := inferInstanceAs (Decidable (LeavesNothing s (eventsOf h) op))

section Runs
variable {params : NetworkParams} {before after : List TransportOp} {op : TransportOp}

theorem drained_of_guarded (guarded : transportMachine.Guarded Guard (.new params) [] before) :
    Drained (transportMachine.final (.new params) before)
      (eventsOf (transportMachine.trace (.new params) before)) := by
  have h := transportMachine.guarded_invariant (I := fun s t => Closing s (eventsOf t)) guarded (closing_new params)
    fun s t op guard h => by
      rw [eventsOf_concat]
      exact h.step op guard
  exact fun done => (counters_zero_iff (custody_run params before).1).mpr (h.rest done)

/-- A run that ends after a return, drained, has left no task behind on the way. -/
theorem nothing_left_behind
    (drained : Drained (transportMachine.final (.new params) (before ++ after))
      (eventsOf (transportMachine.trace (.new params) (before ++ after))))
    (returned : shutdownDone (eventsOf (transportMachine.trace (.new params) (before ++ after))) = true)
    (left : AllLeft (transportMachine.final (.new params) before)) :
    (transportMachine.final (.new params) before).tasks = [] := by
  by_contra queued
  have behind := (leftBehind_run left queued after).2
  rw [← transportMachine.final_append] at behind
  have balanced := (custody_run params (before ++ after)).1
  exact behind ((counters_zero_iff balanced).mp (drained returned)).1

theorem push_step {s : TransportImpl} {c : ℕ} (about : pushing s c = true) (choice : ℕ) :
    (s.step (.client c choice)).1.tasks ≠ [] ∧
      (s.step (.client c choice)).1.pendingCount = s.pendingCount + 1 := by
  rw [pushing] at about
  split at about
  · rename_i at_c
    have unlocked : s.tasksMtx = false := by simpa using about
    simp only [TransportImpl.step, TransportImpl.client, at_c, unlocked, Bool.false_eq_true, if_false]
    exact ⟨List.append_ne_nil_of_right_ne_nil _ (List.cons_ne_nil _ _), trivial⟩
  · cases about

/-- A step against the guard shows in the counters, at once or when `shutdown` has returned. -/
theorem guard_of_drained
    (next : Drained (transportMachine.final (.new params) (before ++ [op]))
      (eventsOf (transportMachine.trace (.new params) (before ++ [op]))))
    (returned : shutdownDone (eventsOf (transportMachine.trace (.new params) (before ++ [op] ++ after))) = true)
    (drained : Drained (transportMachine.final (.new params) (before ++ [op] ++ after))
      (eventsOf (transportMachine.trace (.new params) (before ++ [op] ++ after)))) :
    Guard (transportMachine.final (.new params) before) (transportMachine.trace (.new params) before) op := by
  have behind := nothing_left_behind drained returned
  have balanced := (custody_run params before).1
  rw [transportMachine.final_concat] at next behind
  rw [transportMachine.trace_concat, eventsOf_concat, Drained, shutdownDone_append] at next
  generalize transportMachine.final (.new params) before = s at next behind balanced
  change AllLeft (s.step op).1 → (s.step op).1.tasks = [] at behind
  change (_ || (s.step op).2.any isReturn) = true →
    (s.step op).1.pendingCount = 0 ∧ (s.step op).1.inflightCount = 0 at next
  change LeavesNothing s _ op
  cases op with
  | worker k choice =>
    intro at_k stopped others
    simp only [TransportImpl.step, TransportImpl.worker, at_k, stopped, TransportImpl.put, Bool.false_eq_true,
      if_false] at behind
    exact behind others
  | client c choice =>
    intro about
    obtain ⟨queued, counted⟩ := push_step about choice
    constructor
    · exact fun left => queued (behind (allLeft_step left _))
    · by_contra done
      have zero := (next (by simp [done])).1
      omega
  | shutdown c =>
    intro idle stopped
    have early : s.step (.shutdown c) = (s, some (.shutdownReturned c)) := by
      simp only [TransportImpl.step, TransportImpl.shutdown, idle, stopped, if_true, Bool.false_eq_true, if_false]
    rw [early] at next
    exact (counters_zero_iff balanced).mp (next (Bool.or_true _))
  | tick | wakeWorker | wakeClient | send | waitForPendingDeliveries => trivial
  | registerEndpoint | unregisterEndpoint | setParams => trivial

end Runs

/-- In every state the run reaches after a return of `shutdown`, the counters are zero. -/
def DrainedThroughout (params : NetworkParams) (ops : List TransportOp) : Prop :=
  ∀ before after, ops = before ++ after → Drained (transportMachine.final (.new params) before)
    (eventsOf (transportMachine.trace (.new params) before))

/-- Every run whose steps keep to the guard is drained throughout, and among the runs that end
    after a return no other run is. -/
theorem drained_throughout_iff (params : NetworkParams) (ops : List TransportOp) :
    (transportMachine.Guarded Guard (.new params) [] ops → DrainedThroughout params ops) ∧
    (shutdownDone (eventsOf (transportMachine.trace (.new params) ops)) = true → DrainedThroughout params ops →
      transportMachine.Guarded Guard (.new params) [] ops) := by
  constructor
  · rintro guarded before after rfl
    exact drained_of_guarded ((transportMachine.guarded_append _ _ before after).mp guarded).1
  · intro returned drained
    have prefixes (before after : List TransportOp) (whole : ops = before ++ after) :
        transportMachine.Guarded Guard (.new params) [] before := by
      induction before using List.reverseRecOn generalizing after with
      | nil => trivial
      | append_singleton before op ih =>
        subst whole
        refine (transportMachine.guarded_concat _ before op).mpr ⟨ih (op :: after) (by simp), ?_⟩
        exact guard_of_drained (drained _ after rfl) returned (drained _ [] (List.append_nil _).symm)
    exact prefixes ops [] (List.append_nil ops).symm

def drainedStop : List TransportOp :=
  [.registerEndpoint [1], .send 0 [1] [7] 0, .client 0 0, .client 0 0, .client 0 0, .client 0 0,
    .worker 0 0, .worker 0 0, .worker 0 0, .worker 0 0, .worker 0 0, .worker 0 0, .worker 0 0,
    .shutdown 0, .client 0 0, .worker 0 0, .worker 1 0, .worker 2 0, .worker 3 0, .client 0 0]

theorem drained_throughout_stop :
    shutdownDone (eventsOf (transportMachine.trace (.new ⟨0, 0⟩) drainedStop)) = true ∧
      DrainedThroughout ⟨0, 0⟩ drainedStop :=
  ⟨by decide +kernel, (drained_throughout_iff ⟨0, 0⟩ drainedStop).1 (by decide +kernel)⟩

/-- One message is sent, and the transport is shut down before a worker takes it. -/
def abandoned : List TransportOp :=
  [.registerEndpoint [1], .send 0 [1] [7] 0, .client 0 0, .client 0 0, .client 0 0, .client 0 0,
    .shutdown 0, .client 0 0, .worker 0 0, .worker 1 0, .worker 2 0, .worker 3 0, .client 0 0]

theorem message_abandoned : ¬ DrainedThroughout ⟨0, 0⟩ abandoned := by
  intro drained
  have counters := drained abandoned [] (List.append_nil abandoned).symm (by decide +kernel)
  have pending : (transportMachine.final (.new ⟨0, 0⟩) abandoned).pendingCount = 1 := by decide +kernel
  exact absurd (pending.symm.trans counters.1) (by decide)

end InterchainCommunication.TransportClosing
