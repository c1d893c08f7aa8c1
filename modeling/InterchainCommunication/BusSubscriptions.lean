import InterchainCommunication.MachineRuns
import InterchainCommunication.QueueAndBus
import Mathlib.Data.List.Nodup

set_option autoImplicit false

namespace InterchainCommunication.BusSubscriptions
open CoreTypes MachineRuns QueueAndBus

/-- An enumeration of the keys of the map. A kind without a key counts as one with an empty vector. -/
structure ScanOrder where
  kinds : List EventKind
  once : kinds.Nodup
  complete : ∀ kind, kind ∈ kinds

inductive BusOp (η : Type)
  | subscribe (kind : EventKind) (h : η)
  | unsubscribe (order : ScanOrder) (token : ℤ)
  | publish (e : Event)

inductive BusReply (η : Type)
  | token (n : ℕ)
  | done
  | called (handlers : List η)

variable {η : Type}

/-- The handlers neither throw nor call the bus, so a call of `publish` is the list of the
    handlers it calls. -/
def busMachine (η : Type) : Machine (EventBus η) (BusOp η) (BusReply η) where
  step bus
    | .subscribe kind h => ((bus.subscribe kind h).1, .token (bus.subscribe kind h).2)
    | .unsubscribe order token => (bus.unsubscribe order.kinds token, .done)
    | .publish e => (bus, .called (bus.handlers e.kind))

structure Subscription (η : Type) where
  token : ℕ
  kind : EventKind
  handler : η

def subscription : BusOp η × BusReply η → Option (Subscription η)
  | (.subscribe kind h, .token n) => some ⟨n, kind, h⟩
  | _ => none

def removes (token : ℕ) : BusOp η × BusReply η → Bool
  | (.unsubscribe _ token', _) => token' = token
  | _ => false

def tokens (t : List (BusOp η × BusReply η)) : List ℕ := t.filterMap fun e => (subscription e).map (·.token)

/-- The subscriptions that no later call has unsubscribed, in the order they were made. -/
def live : List (BusOp η × BusReply η) → List (Subscription η)
  | [] => []
  | e :: later => ((subscription e).filter fun s => !later.any (removes s.token)).toList ++ live later

theorem live_concat (t : List (BusOp η × BusReply η)) (e : BusOp η × BusReply η) :
    live (t ++ [e]) = (live t).filter (fun s => !removes s.token e) ++ (subscription e).toList := by
  induction t with
  | nil =>
    cases made : subscription e with
    | none => simp [live, made]
    | some s => simp [live, made]
  | cons first t ih =>
    rw [List.cons_append, live, ih, live, List.filter_append, ← List.append_assoc]
    congr 2
    cases subscription first with
    | none => rfl
    | some s =>
      cases before : t.any (removes s.token) <;> cases last : removes s.token e <;>
        simp [before, last, Option.filter]

theorem tokens_concat (t : List (BusOp η × BusReply η)) (e : BusOp η × BusReply η) :
    tokens (t ++ [e]) = tokens t ++ ((subscription e).map (·.token)).toList := filterMap_concat _ t e

section Removal
variable {token : ℤ}

theorem filter_absent {l : List (ℕ × η)} (absent : ∀ p ∈ l, (p.1 : ℤ) ≠ token) :
    (l.filter fun p => (p.1 : ℤ) ≠ token) = l :=
  List.filter_eq_self.mpr fun p hp => decide_eq_true (absent p hp)

theorem mem_of_filter_shorter {l : List (ℕ × η)}
    (shorter : (l.filter fun p => (p.1 : ℤ) ≠ token).length ≠ l.length) : ∃ p ∈ l, (p.1 : ℤ) = token := by
  by_contra none
  refine shorter (congrArg List.length (filter_absent fun p hp same => ?_))
  exact none ⟨p, hp, same⟩

theorem not_mem_of_filter_whole {l : List (ℕ × η)}
    (whole : (l.filter fun p => (p.1 : ℤ) ≠ token).length = l.length) : ∀ p ∈ l, (p.1 : ℤ) ≠ token :=
  fun p hp => of_decide_eq_true (List.length_filter_eq_length_iff.mp whole p hp)

variable {subs : EventKind → List (ℕ × η)}

/-- Stopping early is right when no token is held under two kinds. -/
theorem removeToken_eq {order : List EventKind}
    (single : ∀ k k', ∀ p ∈ subs k, ∀ p' ∈ subs k', (p.1 : ℤ) = token → (p'.1 : ℤ) = token → k = k')
    (reached : ∀ k, ∀ p ∈ subs k, (p.1 : ℤ) = token → k ∈ order) (kind : EventKind) :
    EventBus.removeToken token order subs kind = (subs kind).filter fun p => (p.1 : ℤ) ≠ token := by
  induction order with
  | nil =>
    have absent : ∀ p ∈ subs kind, (p.1 : ℤ) ≠ token := fun p hp same =>
      absurd (reached kind p hp same) List.not_mem_nil
    exact (filter_absent absent).symm
  | cons first order ih =>
    rw [EventBus.removeToken]
    by_cases shorter : ((subs first).filter fun p => (p.1 : ℤ) ≠ token).length ≠ (subs first).length
    · rw [if_pos shorter]
      obtain ⟨p, hp, same⟩ := mem_of_filter_shorter shorter
      by_cases here : kind = first
      · rw [if_pos here, here]
      · rw [if_neg here]
        have absent : ∀ p' ∈ subs kind, (p'.1 : ℤ) ≠ token := fun p' hp' same' =>
          here (single kind first p' hp' p hp same' same)
        exact (filter_absent absent).symm
    · rw [if_neg shorter]
      refine ih fun k p hp same => ?_
      rcases List.mem_cons.mp (reached k p hp same) with rfl | later
      · exact absurd same (not_mem_of_filter_whole (not_not.mp shorter) p hp)
      · exact later

end Removal

/-- The bus holds the live subscriptions, and its counter stands behind the tokens it handed out. -/
structure Listed (bus : EventBus η) (t : List (BusOp η × BusReply η)) : Prop where
  held : ∀ kind, bus.subs kind = ((live t).filter (·.kind = kind)).map fun s => (s.token, s.handler)
  next : bus.nextToken = (tokens t).length + 1
  issued : tokens t = List.range' 1 (tokens t).length
  older : ((live t).map (·.token)).Sublist (tokens t)

namespace Listed
variable {bus : EventBus η} {t : List (BusOp η × BusReply η)} (L : Listed bus t)
include L

theorem tokens_nodup : (tokens t).Nodup := by
  rw [L.issued]
  exact List.nodup_range'

theorem live_nodup : ((live t).map (·.token)).Nodup := L.older.nodup L.tokens_nodup

theorem mem_held {kind : EventKind} {p : ℕ × η} (hp : p ∈ bus.subs kind) :
    ∃ s ∈ live t, s.kind = kind ∧ s.token = p.1 := by
  rw [L.held, List.mem_map] at hp
  obtain ⟨s, hs, rfl⟩ := hp
  obtain ⟨alive, of⟩ := List.mem_filter.mp hs
  exact ⟨s, alive, of_decide_eq_true of, rfl⟩

theorem single {token : ℤ} (k k' : EventKind) (p : ℕ × η) (hp : p ∈ bus.subs k) (p' : ℕ × η)
    (hp' : p' ∈ bus.subs k') (same : (p.1 : ℤ) = token) (same' : (p'.1 : ℤ) = token) : k = k' := by
  obtain ⟨s, hs, rfl, token_s⟩ := L.mem_held hp
  obtain ⟨s', hs', rfl, token_s'⟩ := L.mem_held hp'
  have agree : s.token = s'.token := by omega
  rw [List.inj_on_of_nodup_map L.live_nodup hs hs' agree]

theorem unsubscribe_subs (order : ScanOrder) (token : ℤ) (kind : EventKind) :
    (bus.unsubscribe order.kinds token).subs kind = (bus.subs kind).filter fun p => (p.1 : ℤ) ≠ token :=
  removeToken_eq L.single (fun k _ _ _ => order.complete k) kind

theorem handlers_eq (kind : EventKind) : bus.handlers kind = ((live t).filter (·.kind = kind)).map (·.handler) := by
  rw [EventBus.handlers, L.held, List.map_map]
  rfl

theorem after_subscribe (kind : EventKind) (h : η) :
    Listed (bus.subscribe kind h).1 (t ++ [(.subscribe kind h, .token bus.nextToken)]) := by
  have alive : live (t ++ [(.subscribe kind h, .token bus.nextToken)]) = live t ++ [⟨bus.nextToken, kind, h⟩] := by
    rw [live_concat]
    simp [removes, subscription]
  have handed : tokens (t ++ [(.subscribe kind h, .token bus.nextToken)]) = tokens t ++ [bus.nextToken] :=
    tokens_concat t _
  refine ⟨fun k => ?_, ?_, ?_, ?_⟩
  · rw [alive, List.filter_append, List.map_append, ← L.held]
    by_cases here : k = kind
    · subst here
      simp [EventBus.subscribe]
    · simp [EventBus.subscribe, here, Ne.symm here]
  · rw [handed, List.length_append]
    exact congrArg (· + 1) L.next
  · rw [handed, List.length_append, List.length_singleton, List.range'_concat, ← L.issued, L.next, Nat.one_mul,
      Nat.add_comm]
  · rw [handed, alive, List.map_append]
    exact L.older.append (List.Sublist.refl _)

theorem after_unsubscribe (order : ScanOrder) (token : ℤ) :
    Listed (bus.unsubscribe order.kinds token) (t ++ [(.unsubscribe order token, .done)]) := by
  have alive : live (t ++ [(.unsubscribe order token, .done)]) = (live t).filter fun s => (s.token : ℤ) ≠ token := by
    have nothing : subscription ((.unsubscribe order token, .done) : BusOp η × BusReply η) = none := rfl
    rw [live_concat, nothing, Option.toList_none, List.append_nil]
    refine List.filter_congr fun s _ => ?_
    simp [removes, eq_comm]
  have handed : tokens (t ++ [(.unsubscribe order token, .done)]) = tokens t :=
    (tokens_concat t _).trans (List.append_nil _)
  refine ⟨fun kind => ?_, ?_, ?_, ?_⟩
  · rw [L.unsubscribe_subs, L.held, alive, List.filter_map, List.filter_comm]
    rfl
  · rw [handed]
    exact L.next
  · rw [handed]
    exact L.issued
  · rw [handed, alive]
    exact (List.filter_sublist.map _).trans L.older

theorem after_publish (e : Event) (handlers : List η) : Listed bus (t ++ [(.publish e, .called handlers)]) := by
  have alive : live (t ++ [(.publish e, .called handlers)]) = live t := by
    rw [live_concat]
    simp [removes, subscription]
  have handed : tokens (t ++ [(.publish e, .called handlers)]) = tokens t :=
    (tokens_concat t _).trans (List.append_nil _)
  refine ⟨fun kind => ?_, ?_, ?_, ?_⟩
  · rw [alive]
    exact L.held kind
  · rw [handed]
    exact L.next
  · rw [handed]
    exact L.issued
  · rw [handed, alive]
    exact L.older

end Listed

theorem listed (ops : List (BusOp η)) :
    Listed ((busMachine η).final EventBus.new ops) ((busMachine η).trace EventBus.new ops) := by
  refine (busMachine η).history_invariant ops ⟨fun _ => rfl, rfl, rfl, List.Sublist.refl _⟩ fun bus t op _ L => ?_
  cases op with
  | subscribe kind h => exact L.after_subscribe kind h
  | unsubscribe order token => exact L.after_unsubscribe order token
  | publish e => exact L.after_publish e _

def subscribes : BusOp η → Bool
  | .subscribe _ _ => true
  | _ => false

theorem length_tokens (bus : EventBus η) (ops : List (BusOp η)) :
    (tokens ((busMachine η).trace bus ops)).length = ops.countP subscribes := by
  induction ops generalizing bus with
  | nil => rfl
  | cons op ops ih =>
    rw [Machine.trace_cons, List.countP_cons, ← ih ((busMachine η).step bus op).1]
    cases op with
    | subscribe kind h => rfl
    | unsubscribe order token => rfl
    | publish e => rfl

/-- What the bus answers after a history. `counter` says that `nextToken_` is still an `int`. -/
structure Delivers (bus : EventBus η) (t : List (BusOp η × BusReply η)) : Prop where
  distinct : (tokens t).Nodup
  counter : bus.nextToken < 2 ^ 31
  removed : ∀ (order : ScanOrder) (token : ℤ) (kind : EventKind),
    (bus.unsubscribe order.kinds token).subs kind =
      ((live t).filter fun s => s.kind = kind ∧ (s.token : ℤ) ≠ token).map fun s => (s.token, s.handler)
  unknown : ∀ (order : ScanOrder) (token : ℤ), (∀ s ∈ live t, (s.token : ℤ) ≠ token) →
    bus.unsubscribe order.kinds token = bus
  called : ∀ e : Event, ((busMachine η).step bus (.publish e)).2 =
    .called (((live t).filter (·.kind = e.kind)).map (·.handler))

theorem Listed.delivers {bus : EventBus η} {t : List (BusOp η × BusReply η)} (L : Listed bus t)
    (few : (tokens t).length < 2 ^ 31 - 1) : Delivers bus t := by
  refine ⟨L.tokens_nodup, ?_, fun order token kind => ?_, fun order token absent => ?_, fun e => ?_⟩
  · rw [L.next]
    omega
  · rw [L.unsubscribe_subs, L.held, List.filter_map, List.filter_filter]
    refine congrArg _ (List.filter_congr fun s _ => ?_)
    simp [Bool.and_comm]
  · have same : (bus.unsubscribe order.kinds token).subs = bus.subs := by
      funext kind
      rw [L.unsubscribe_subs]
      refine filter_absent fun p hp => ?_
      obtain ⟨s, alive, -, token_s⟩ := L.mem_held hp
      exact token_s ▸ absent s alive
    exact congrArg (fun subs => { bus with subs := subs }) same
  · exact congrArg BusReply.called (L.handlers_eq e.kind)

theorem event_bus_delivery (ops : List (BusOp η)) (few : ops.countP subscribes < 2 ^ 31 - 1) :
    Delivers ((busMachine η).final EventBus.new ops) ((busMachine η).trace EventBus.new ops) := by
  refine (listed ops).delivers ?_
  rw [length_tokens]
  exact few

def declared : ScanOrder where
  kinds := [.blockProposed, .blockFinalized, .ibcPacketSend, .ibcPacketRecv, .ibcAckSend, .ibcAckRecv,
    .consensusRound, .networkDrop, .error]
  once := by decide
  complete kind := by cases kind <;> decide

def oneLeaves : List (BusOp ℕ) :=
  [.subscribe .error 10, .subscribe .networkDrop 20, .subscribe .error 30, .unsubscribe declared 1]

theorem event_bus_delivery_oneLeaves :
    Delivers ((busMachine ℕ).final EventBus.new oneLeaves) ((busMachine ℕ).trace EventBus.new oneLeaves) ∧
    ((live ((busMachine ℕ).trace EventBus.new oneLeaves)).filter (·.kind = .error)).map (·.handler) = [30] :=
  ⟨event_bus_delivery oneLeaves (by decide), by decide⟩

end InterchainCommunication.BusSubscriptions
