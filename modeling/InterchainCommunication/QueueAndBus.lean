import InterchainCommunication.CoreTypes

set_option autoImplicit false

namespace InterchainCommunication.QueueAndBus
open StringText CoreTypes

structure ConcurrentQueue (α : Type) where
  q : List α
  closed : Bool
  deriving DecidableEq

namespace ConcurrentQueue
variable {α : Type}

def new : ConcurrentQueue α := ⟨[], false⟩

def push (c : ConcurrentQueue α) (item : α) : Except StdException (ConcurrentQueue α) :=
  if c.closed then .error (.runtimeError (lit "Queue is closed"))
  else .ok { c with q := c.q ++ [item] }

def tryPop (c : ConcurrentQueue α) : ConcurrentQueue α × Option α :=
  match c.q with
  | [] => (c, none)
  | item :: rest => ({ c with q := rest }, some item)

/-- `none` while the wait goes on. -/
def waitPop (c : ConcurrentQueue α) : Option (Except StdException (α × ConcurrentQueue α)) :=
  match c.q with
  | item :: rest => some (.ok (item, { c with q := rest }))
  | [] => if c.closed then some (.error (.runtimeError (lit "Queue is closed and empty"))) else none

def close (c : ConcurrentQueue α) : ConcurrentQueue α := { c with closed := true }

theorem push_open {c : ConcurrentQueue α} (h : c.closed = false) (item : α) :
    c.push item = .ok { c with q := c.q ++ [item] } := by
  simp [push, h]

theorem push_adds {c c' : ConcurrentQueue α} {item : α} (h : c.push item = .ok c') :
    c' = { c with q := c.q ++ [item] } := by
  unfold push at h
  split at h
  · cases h
  · exact (Except.ok.inj h).symm

end ConcurrentQueue

/-- The handlers of a kind stand in the order of their subscriptions. -/
structure EventBus (η : Type) where
  nextToken : ℕ
  subs : EventKind → List (ℕ × η)

namespace EventBus
variable {η : Type}

def new : EventBus η := ⟨1, fun _ => []⟩

def subscribe (bus : EventBus η) (kind : EventKind) (h : η) : EventBus η × ℕ :=
  (⟨bus.nextToken + 1,
    fun k => if k = kind then bus.subs k ++ [(bus.nextToken, h)] else bus.subs k⟩, bus.nextToken)

/-- The loop of `unsubscribe` over the kinds. It stops at the first vector that gets shorter. -/
def removeToken (token : ℤ) : List EventKind → (EventKind → List (ℕ × η)) → EventKind → List (ℕ × η)
  | [], subs => subs
  | kind :: rest, subs =>
    let kept := (subs kind).filter fun p => (p.1 : ℤ) ≠ token
    if kept.length ≠ (subs kind).length then fun k => if k = kind then kept else subs k
    else removeToken token rest subs

/-- `order` is the order in which the map happens to enumerate its kinds. -/
def unsubscribe (bus : EventBus η) (order : List EventKind) (token : ℤ) : EventBus η :=
  { bus with subs := removeToken token order bus.subs }

def handlers (bus : EventBus η) (kind : EventKind) : List η := (bus.subs kind).map Prod.snd

@[simp] theorem handlers_new (kind : EventKind) : (new : EventBus η).handlers kind = [] := rfl

@[simp] theorem handlers_subscribe (bus : EventBus η) (kind k : EventKind) (h : η) :
    (bus.subscribe kind h).1.handlers k = bus.handlers k ++ if k = kind then [h] else [] := by
  unfold handlers subscribe
  split <;> simp_all

end EventBus
end InterchainCommunication.QueueAndBus
