import InterchainCommunication.MachineRuns
import InterchainCommunication.QueueAndBus
import Mathlib.Data.Finset.Card

set_option autoImplicit false

namespace InterchainCommunication.SharedQueue
open StringText CoreTypes MachineRuns QueueAndBus
variable {α : Type}

/-- The threads in `cv_.wait`, and those out of it that have not taken the mutex yet. -/
structure Shared (α : Type) where
  queue : ConcurrentQueue α
  blocked : Finset ℕ
  woken : Finset ℕ

inductive QueueInput (α : Type)
  /-- `waiter` is the thread that `notify_one` picks, if one is blocked -/
  | push (thread : ℕ) (item : α) (waiter : ℕ)
  | tryPop (thread : ℕ)
  | waitPop (thread : ℕ)
  | close (thread : ℕ)
  | closed (thread : ℕ)
  /-- a wakeup without a notification -/
  | spurious (thread : ℕ)
  | retest (thread : ℕ)
  deriving DecidableEq

inductive QueueReply (α : Type)
  | pushed
  | popped (item : α)
  | nothing
  | threw (e : StdException)
  | closing
  | isClosed (b : Bool)
  deriving DecidableEq

namespace Shared

def new : Shared α := ⟨.new, ∅, ∅⟩

def Free (s : Shared α) (thread : ℕ) : Prop := thread ∉ s.blocked ∧ thread ∉ s.woken

instance (s : Shared α) (thread : ℕ) : Decidable (s.Free thread) := inferInstanceAs (Decidable (_ ∧ _))

def wake (s : Shared α) (thread : ℕ) : Shared α :=
  { s with blocked := s.blocked.erase thread, woken := insert thread s.woken }

/-- `none` where `waiter` is not one that `notify_one` can pick. -/
def notifyOne (s : Shared α) (waiter : ℕ) : Option (Shared α) :=
  if waiter ∈ s.blocked then some (s.wake waiter)
  else if s.blocked = ∅ then some s
  else none

def notifyAll (s : Shared α) : Shared α := { s with blocked := ∅, woken := s.woken ∪ s.blocked }

def push (s : Shared α) (item : α) (waiter : ℕ) : Shared α × Option (QueueReply α) :=
  match s.queue.push item with
  | .error e => (s, some (.threw e))
  | .ok queue =>
    match notifyOne { s with queue := queue } waiter with
    | some s' => (s', some .pushed)
    | none => (s, none)

def tryPop (s : Shared α) : Shared α × Option (QueueReply α) :=
  match s.queue.tryPop with
  | (_, none) => (s, some .nothing)
  | (queue, some item) => ({ s with queue := queue }, some (.popped item))

/-- The test of the predicate and what comes after it. -/
def waitPop (s : Shared α) (thread : ℕ) : Shared α × Option (QueueReply α) :=
  match s.queue.waitPop with
  | none => ({ s with blocked := insert thread s.blocked }, none)
  | some (.error e) => (s, some (.threw e))
  | some (.ok (item, queue)) => ({ s with queue := queue }, some (.popped item))

def close (s : Shared α) : Shared α × Option (QueueReply α) :=
  (notifyAll { s with queue := s.queue.close }, some .closing)

end Shared

def sharedQueue (α : Type) : Machine (Shared α) (QueueInput α) (Option (QueueReply α)) where
  step s
    | .push thread item waiter => if s.Free thread then s.push item waiter else (s, none)
    | .tryPop thread => if s.Free thread then s.tryPop else (s, none)
    | .waitPop thread => if s.Free thread then s.waitPop thread else (s, none)
    | .close thread => if s.Free thread then s.close else (s, none)
    | .closed thread => if s.Free thread then (s, some (.isClosed s.queue.closed)) else (s, none)
    | .spurious thread => if thread ∈ s.blocked then (s.wake thread, none) else (s, none)
    | .retest thread =>
      if thread ∈ s.woken then Shared.waitPop { s with woken := s.woken.erase thread } thread else (s, none)

def pushedItem : QueueInput α × Option (QueueReply α) → Option α
  | (.push _ item _, some .pushed) => some item
  | _ => none

def poppedItem : QueueInput α × Option (QueueReply α) → Option α
  | (_, some (.popped item)) => some item
  | _ => none

def closes : QueueInput α × Option (QueueReply α) → Bool
  | (_, some .closing) => true
  | _ => false

inductive QueueMove (q : ConcurrentQueue α) : QueueInput α → ConcurrentQueue α → Option (QueueReply α) → Prop
  | pushed {thread waiter : ℕ} {item : α} (isOpen : q.closed = false) :
      QueueMove q (.push thread item waiter) { q with q := q.q ++ [item] } (some .pushed)
  | popped {i : QueueInput α} {item : α} {rest : List α} (waits : q.q = item :: rest) :
      QueueMove q i { q with q := rest } (some (.popped item))
  | closed {i : QueueInput α} : QueueMove q i q.close (some .closing)
  | refused {thread waiter : ℕ} {item : α} (shut : q.closed = true) :
      QueueMove q (.push thread item waiter) q (some (.threw (.runtimeError (lit "Queue is closed"))))
  | ended {i : QueueInput α} (waiting : (∃ thread, i = .waitPop thread) ∨ ∃ thread, i = .retest thread)
      (shut : q.closed = true) (empty : q.q = []) :
      QueueMove q i q (some (.threw (.runtimeError (lit "Queue is closed and empty"))))
  | nothing {i : QueueInput α} (empty : q.q = []) : QueueMove q i q (some .nothing)
  | told {i : QueueInput α} : QueueMove q i q (some (.isClosed q.closed))
  | still {i : QueueInput α} : QueueMove q i q none

theorem notifyOne_queue {s s' : Shared α} {waiter : ℕ} (h : s.notifyOne waiter = some s') : s'.queue = s.queue := by
  unfold Shared.notifyOne at h
  split at h
  · rw [← Option.some.inj h]
    rfl
  · split at h
    · rw [← Option.some.inj h]
    · cases h

theorem push_move (s : Shared α) (thread : ℕ) (item : α) (waiter : ℕ) :
    QueueMove s.queue (.push thread item waiter) (s.push item waiter).1.queue (s.push item waiter).2 := by
  unfold Shared.push
  cases shut : s.queue.closed with
  | true =>
    have throws : s.queue.push item = .error (.runtimeError (lit "Queue is closed")) := if_pos shut
    rw [throws]
    exact .refused shut
  | false =>
    rw [ConcurrentQueue.push_open shut]
    dsimp only
    split
    · rename_i s' notified
      rw [notifyOne_queue notified]
      exact .pushed shut
    · exact .still

theorem tryPop_move (s : Shared α) (i : QueueInput α) : QueueMove s.queue i s.tryPop.1.queue s.tryPop.2 := by
  unfold Shared.tryPop ConcurrentQueue.tryPop
  cases waits : s.queue.q with
  | nil => exact .nothing waits
  | cons item rest => exact .popped waits

theorem waitPop_move (s : Shared α) (thread : ℕ) {i : QueueInput α}
    (waiting : (∃ thread, i = .waitPop thread) ∨ ∃ thread, i = .retest thread) :
    QueueMove s.queue i (s.waitPop thread).1.queue (s.waitPop thread).2 := by
  unfold Shared.waitPop ConcurrentQueue.waitPop
  cases waits : s.queue.q with
  | nil =>
    cases shut : s.queue.closed with
    | true => exact .ended waiting shut waits
    | false => exact .still
  | cons item rest => exact .popped waits

theorem guarded_move (s : Shared α) {i : QueueInput α} (c : Prop) [Decidable c]
    {next : Shared α × Option (QueueReply α)} (move : QueueMove s.queue i next.1.queue next.2) :
    QueueMove s.queue i (if c then next else (s, none)).1.queue (if c then next else (s, none)).2 := by
  split
  · exact move
  · exact .still

theorem step_move (s : Shared α) (i : QueueInput α) :
    QueueMove s.queue i ((sharedQueue α).step s i).1.queue ((sharedQueue α).step s i).2 := by
  cases i with
  | push thread item waiter => exact guarded_move s _ (push_move s thread item waiter)
  | tryPop thread => exact guarded_move s _ (tryPop_move s _)
  | waitPop thread => exact guarded_move s _ (waitPop_move s thread (.inl ⟨thread, rfl⟩))
  | close thread => exact guarded_move s _ .closed
  | closed thread => exact guarded_move s _ .told
  | spurious thread => exact guarded_move s _ .still
  | retest thread =>
    exact guarded_move s _ (waitPop_move { s with woken := s.woken.erase thread } thread (.inr ⟨thread, rfl⟩))

/-- What is in the queue is what was pushed and not popped, and the flag tells whether
    `close` was called. -/
structure Fifo (q : ConcurrentQueue α) (t : List (QueueInput α × Option (QueueReply α))) : Prop where
  items : t.filterMap poppedItem ++ q.q = t.filterMap pushedItem
  flag : q.closed = t.any closes

theorem fifo_move {q q' : ConcurrentQueue α} {t : List (QueueInput α × Option (QueueReply α))} (h : Fifo q t)
    {i : QueueInput α} {reply : Option (QueueReply α)} (move : QueueMove q i q' reply) :
    Fifo q' (t ++ [(i, reply)]) := by
  constructor
  · rw [filterMap_concat, filterMap_concat, ← h.items]
    cases move with
    | pushed => simp [poppedItem, pushedItem]
    | popped waits => cases i <;> simp [poppedItem, pushedItem, waits]
    | closed => cases i <;> simp [poppedItem, pushedItem, ConcurrentQueue.close]
    | refused => simp [poppedItem, pushedItem]
    | ended | nothing | told | still => cases i <;> simp [poppedItem, pushedItem]
  · rw [List.any_append, ← h.flag]
    cases move with
    | closed => simp [closes, ConcurrentQueue.close]
    | pushed | popped | refused | ended | nothing | told | still => simp [closes]

theorem fifo_final (is : List (QueueInput α)) :
    Fifo ((sharedQueue α).final .new is).queue ((sharedQueue α).trace .new is) := by
  refine (sharedQueue α).history_invariant (I := fun s t => Fifo s.queue t) is ⟨rfl, rfl⟩ fun s t i _ h => ?_
  exact fifo_move h (step_move s i)

theorem closed_run {s : Shared α} (shut : s.queue.closed = true) (is : List (QueueInput α)) :
    ((sharedQueue α).trace s is).filterMap poppedItem ++ ((sharedQueue α).final s is).queue.q = s.queue.q := by
  induction is generalizing s with
  | nil => rfl
  | cons i is ih =>
    have move := step_move s i
    rw [Machine.trace_cons, Machine.final_cons, List.filterMap_cons]
    generalize (sharedQueue α).step s i = next at move
    obtain ⟨s', reply⟩ := next
    dsimp only at move ⊢
    generalize queue : s'.queue = q' at move
    cases move with
    | pushed isOpen =>
      rw [shut] at isOpen
      cases isOpen
    | popped waits =>
      have rest := ih (s := s') (by rw [queue]; exact shut)
      rw [queue] at rest
      simp [poppedItem, waits, rest]
    | closed =>
      have rest := ih (s := s') (by rw [queue]; rfl)
      rw [queue] at rest
      simpa [poppedItem, ConcurrentQueue.close] using rest
    | refused | ended | nothing | told | still =>
      have rest := ih (s := s') (by rw [queue]; exact shut)
      rw [queue] at rest
      simpa [poppedItem] using rest

/-- What the queue promises in a state, after a history. -/
structure QueueLaw (s : Shared α) (t : List (QueueInput α × Option (QueueReply α))) : Prop where
  items : t.filterMap poppedItem ++ s.queue.q = t.filterMap pushedItem
  refused : t.any closes = true → ∀ thread item waiter, s.Free thread →
    (sharedQueue α).step s (.push thread item waiter) = (s, some (.threw (.runtimeError (lit "Queue is closed"))))
  drained : t.any closes = true → ∀ later,
    ((sharedQueue α).trace s later).filterMap poppedItem ++ ((sharedQueue α).final s later).queue.q = s.queue.q
  given : ∀ item rest, s.queue.q = item :: rest → ∀ thread,
    (s.Free thread → ((sharedQueue α).step s (.tryPop thread)).2 = some (.popped item) ∧
      ((sharedQueue α).step s (.waitPop thread)).2 = some (.popped item)) ∧
    (thread ∈ s.woken → ((sharedQueue α).step s (.retest thread)).2 = some (.popped item))
  thrown : ∀ thread e, (((sharedQueue α).step s (.waitPop thread)).2 = some (.threw e) ∨
      ((sharedQueue α).step s (.retest thread)).2 = some (.threw e)) → t.any closes = true ∧ s.queue.q = []

theorem Fifo.law {s : Shared α} {t : List (QueueInput α × Option (QueueReply α))} (h : Fifo s.queue t) :
    QueueLaw s t := by
  refine ⟨h.items, fun shut thread item waiter free => ?_, fun shut => ?_, fun item rest waits thread => ?_,
    fun thread e threw => ?_⟩
  · rw [← h.flag] at shut
    have throws : s.queue.push item = .error (.runtimeError (lit "Queue is closed")) := if_pos shut
    change (if s.Free thread then s.push item waiter else (s, none)) = _
    rw [if_pos free, Shared.push, throws]
  · rw [← h.flag] at shut
    exact closed_run shut
  · constructor
    · intro free
      change (if s.Free thread then s.tryPop else (s, none)).2 = _ ∧
        (if s.Free thread then s.waitPop thread else (s, none)).2 = _
      rw [if_pos free, if_pos free]
      simp [Shared.tryPop, ConcurrentQueue.tryPop, Shared.waitPop, ConcurrentQueue.waitPop, waits]
    · intro member
      change (if thread ∈ s.woken then Shared.waitPop { s with woken := s.woken.erase thread } thread else
        (s, none)).2 = _
      rw [if_pos member]
      simp [Shared.waitPop, ConcurrentQueue.waitPop, waits]
  · rw [← h.flag]
    have ended {i : QueueInput α} (notPush : ∀ thread item waiter, i ≠ .push thread item waiter)
        (threw : ((sharedQueue α).step s i).2 = some (.threw e)) : s.queue.closed = true ∧ s.queue.q = [] := by
      have move := step_move s i
      rw [threw] at move
      generalize ((sharedQueue α).step s i).1.queue = q' at move
      cases move with
      | refused => exact absurd rfl (notPush _ _ _)
      | ended _ shut empty => exact ⟨shut, empty⟩
    rcases threw with called | tested
    · exact ended (fun _ _ _ => by simp) called
    · exact ended (fun _ _ _ => by simp) tested

/-- Whatever the threads do, and however they are scheduled, the queue is a list. -/
theorem concurrent_queue (is : List (QueueInput α)) :
    QueueLaw ((sharedQueue α).final .new is) ((sharedQueue α).trace .new is) := (fifo_final is).law

end InterchainCommunication.SharedQueue
