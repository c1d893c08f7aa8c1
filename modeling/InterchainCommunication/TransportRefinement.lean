import InterchainCommunication.SimulationModel
import InterchainCommunication.ThreadSteps
import InterchainCommunication.TransportSteps
import Mathlib.Data.List.Perm.Basic

set_option autoImplicit false

/-!
# The threaded transport behind the simulation

The simulation knows the transport as its endpoints and a list of messages, of
which a worker may deliver any. The transport with its threads refines that: a
message leaves the list when its deliver function is called, or when a worker
finds no endpoint for it.
-/
namespace InterchainCommunication.TransportRefinement
open ListUpdates StringText CoreTypes MachineRuns NodeModel RelayerModel SimulationModel TransportModel TaskCustody TransportSteps
open ThreadSteps

section Mail

inductive MailOp
  | registerEndpoint (address : Bytes) (node : ℕ)
  | send (dest data : Bytes)
  | deliver (k : ℕ)

inductive Mail
  | accepted (dest data : Bytes)
  | delivered (node : ℕ) (data : Bytes)

/-- The transport of the simulation on its own, without drops. -/
def mailStep (t : Transport) : MailOp → Transport × Option Mail
  | .registerEndpoint address node => ((t.registerEndpoint address node).1, none)
  | .send dest data =>
    let out := t.send dest data false
    (out.1, if out.2.ok then some (.accepted dest data) else none)
  | .deliver k =>
    match t.tasks[k]? with
    | none => (t, none)
    | some task => ({ t with tasks := t.tasks.eraseIdx k }, (t.endpoints task.1).map fun n => .delivered n task.2)

def mailMachine : Machine Transport MailOp (Option Mail) := ⟨mailStep⟩

/-- The nodes when the transport has done what it shows. -/
def arrived (nodes : List SimNode) : Option Mail → List SimNode
  | some (.delivered n data) => nodes.modify n fun node => { node with node := (node.node.onBytes data).1 }
  | some (.accepted _ _) | none => nodes

/-- The simulation delivers what the transport on its own delivers, to the node it names. -/
theorem deliver_mail (s : Sim) (k : ℕ) :
    (s.deliver k).1.transport = (mailStep s.transport (.deliver k)).1 ∧
      (s.deliver k).1.nodes = arrived s.nodes (mailStep s.transport (.deliver k)).2 := by
  cases found : s.transport.tasks[k]? with
  | none => simp [Sim.deliver, mailStep, arrived, found]
  | some task =>
    cases bound : s.transport.endpoints task.1 with
    | none => simp [Sim.deliver, mailStep, arrived, found, bound]
    | some m =>
      cases at_m : s.nodes[m]? with
      | none => simp [Sim.deliver, mailStep, arrived, found, bound, at_m, modify_of_none]
      | some node => simp [Sim.deliver, mailStep, arrived, found, bound, at_m, ← set_eq_modify at_m]

end Mail
section Letters

def letter (t : DeliveryTask) : Bytes × Bytes := (t.to, t.data)

/-- The message in a hand, until its deliver function is called or found missing. -/
def unread : Option Stage → Option (Bytes × Bytes)
  | some (.popped t) | some (.counted t) | some (.looked t (some _)) => some (letter t)
  | _ => none

def undelivered (c : Custody) : List (Bytes × Bytes) := c.queue.map letter ++ c.hands.filterMap unread

theorem filterMap_cons_toList {α β : Type} (g : α → Option β) (x : α) (l : List α) :
    (x :: l).filterMap g = (g x).toList ++ l.filterMap g := by
  rw [List.filterMap_cons]
  cases g x <;> rfl

theorem filterMap_set_perm {α β : Type} (g : α → Option β) {l : List α} {k : ℕ} {old : α}
    (found : l[k]? = some old) (new : α) :
    ((g old).toList ++ (l.set k new).filterMap g).Perm ((g new).toList ++ l.filterMap g) := by
  obtain ⟨inside, rfl⟩ := List.getElem?_eq_some_iff.mp found
  have after := (List.set_perm_cons_eraseIdx inside new).filterMap g
  have before := (List.getElem_cons_eraseIdx_perm inside).symm.filterMap g
  rw [filterMap_cons_toList] at after before
  have exchange := List.perm_append_comm_assoc (g l[k]).toList (g new).toList ((l.eraseIdx k).filterMap g)
  exact (after.append_left _).trans (exchange.trans (before.symm.append_left _))

variable {c : Custody} {k : ℕ}

theorem undelivered_hold {old : Option Stage} (held : c.hands[k]? = some old) (new : Option Stage) :
    ((unread old).toList ++ undelivered (c.hold k new)).Perm ((unread new).toList ++ undelivered c) := by
  have exchange := (filterMap_set_perm unread held new).append_left (c.queue.map letter)
  have front (o : Option (Bytes × Bytes)) := List.perm_append_comm_assoc o.toList (c.queue.map letter)
  exact (front _ _).trans (exchange.trans (front _ _).symm)

theorem undelivered_pop {i : ℕ} {t : DeliveryTask} (free : c.hands[k]? = some none) (found : c.queue[i]? = some t) :
    (undelivered { c.hold k (some (.popped t)) with queue := c.queue.eraseIdx i }).Perm (undelivered c) := by
  obtain ⟨inside, rfl⟩ := List.getElem?_eq_some_iff.mp found
  have hands := filterMap_set_perm unread free (some (.popped c.queue[i]))
  have queue := (List.getElem_cons_eraseIdx_perm inside).map letter
  have taken := hands.append_left ((c.queue.eraseIdx i).map letter)
  change ((c.queue.eraseIdx i).map letter ++ (c.hands.set k _).filterMap unread).Perm _
  refine taken.trans ?_
  change ((c.queue.eraseIdx i).map letter ++ ([letter c.queue[i]] ++ c.hands.filterMap unread)).Perm _
  rw [← List.append_assoc]
  refine List.Perm.append_right _ (List.perm_append_comm.trans ?_)
  exact queue

theorem undelivered_held {st : Stage} {m : Bytes × Bytes} (held : c.hands[k]? = some (some st))
    (message : unread (some st) = some m) : m ∈ undelivered c :=
  List.mem_append_right _ (List.mem_filterMap.mpr ⟨some st, List.mem_of_getElem? held, message⟩)

end Letters
section Simulation

/-- The mail that an event is about. -/
def seen : TransportEvent → Option Mail
  | .pushed _ t => some (.accepted t.to t.data)
  | .called _ t f => some (.delivered f t.data)
  | _ => none

def destOf : ClientPoint → Option Bytes
  | .checked dest _ _ | .kept dest _ | .stamped _ dest _ => some dest
  | _ => none

/-- What threads found in the endpoint table is still there. -/
structure Known (s : TransportImpl) : Prop where
  addressed : ∀ c dest, destOf (s.clients c) = some dest → (s.endpoints dest).isSome = true
  found : ∀ (k : ℕ) (t : DeliveryTask) (f : ℕ), s.workers[k]? = some (.looked t (some f)) →
    s.endpoints t.to = some f

/-- The endpoints are the same, and the messages in the list are those not delivered yet. -/
structure Related (s : TransportImpl) (t : Transport) : Prop where
  known : Known s
  endpoints : t.endpoints = s.endpoints
  mail : t.tasks.Perm (undelivered (custody s))

variable {s : TransportImpl} {t : Transport} {op : TransportOp}

theorem Known.step (h : Known s) (stays : ∀ address, op ≠ .unregisterEndpoint address) : Known (s.step op).1 := by
  have keeps {address : Bytes} (bound : (s.endpoints address).isSome = true) :
      ((s.step op).1.endpoints address).isSome = true := by
    obtain ⟨f, there⟩ := Option.isSome_iff_exists.mp bound
    rw [endpoints_stay stays there]
    rfl
  constructor
  · intro c dest standing
    have moves := step_client s op c
    generalize before : s.clients c = p at moves
    generalize (s.step op).1.clients c = p' at moves standing
    generalize (s.step op).2 = e at moves
    cases moves with
    | stay => exact keeps (h.addressed c dest (before ▸ standing))
    | check dest' data draw bound =>
      obtain rfl := Option.some.inj standing
      exact keeps bound
    | pass | stamp => exact keeps (h.addressed c dest (before ▸ standing))
    | wake | refuse | push | notify | wait | drained | drainBlock | drainRelease => cases standing
    | stop | stopped | notifyAll | joined => cases standing
  · intro k t f now
    obtain ⟨p, at_k, moves⟩ := step_worker_back now
    generalize (s.step op).2 = e at moves
    generalize next : WorkerPoint.looked t (some f) = p' at moves
    cases moves with
    | stay => exact endpoints_stay stays (h.found k t f (next ▸ at_k))
    | wake =>
      cases p with
      | looked => exact endpoints_stay stays (h.found k t f (next ▸ at_k))
      | waiting | waitingFor => cases next
      | loopHead | atLock | aboutToWait | aboutToWaitFor | woken | exited => cases next
      | popped | counted | calling | delivered => cases next
    | look t' =>
      obtain ⟨rfl, found⟩ := WorkerPoint.looked.inj next
      exact endpoints_stay stays found.symm
    | enter | leave | block | quit | pop | notDue | release | releaseFor | again => cases next
    | count | call | skip | callReturn | finish => cases next

theorem endpoints_cases (s : TransportImpl) (op : TransportOp) :
    (s.step op).1.endpoints = s.endpoints ∨
      (∃ address, op = .registerEndpoint address ∧ s.endpoints address = none) ∨
        ∃ address, op = .unregisterEndpoint address := by
  have moves := step_env s op
  generalize s.step op = r at moves ⊢
  cases moves with
  | same _ _ env => exact .inl env.endpoints
  | register address free => exact .inr (.inl ⟨address, rfl, free⟩)
  | unregister address => exact .inr (.inr ⟨address, rfl⟩)
  | tick | stop | setParams => exact .inl rfl

theorem register_mail (h : Related s t) {address : Bytes} (free : s.endpoints address = none) :
    ∃ js, Related (s.step (.registerEndpoint address)).1 (mailMachine.final t js) ∧
      ((s.step (.registerEndpoint address)).2.bind seen).toList = (mailMachine.trace t js).filterMap Prod.snd := by
  have known : Known (s.step (.registerEndpoint address)).1 := h.known.step (by simp)
  refine ⟨[.registerEndpoint address s.registrations], ⟨known, ?_, ?_⟩, ?_⟩
  · have unused : ¬ (t.endpoints address).isSome = true := by simp [h.endpoints, free]
    change (t.registerEndpoint address s.registrations).1.endpoints = _
    rw [Transport.registerEndpoint, if_neg unused]
    simp only [TransportImpl.step, TransportImpl.registerEndpoint, free, h.endpoints]
  · have unused : ¬ (t.endpoints address).isSome = true := by simp [h.endpoints, free]
    change (t.registerEndpoint address s.registrations).1.tasks.Perm _
    rw [Transport.registerEndpoint, if_neg unused]
    simp only [TransportImpl.step, TransportImpl.registerEndpoint, free]
    exact h.mail
  · simp only [TransportImpl.step, TransportImpl.registerEndpoint, free]
    rfl

theorem deliver_one {m : Bytes × Bytes} (member : m ∈ t.tasks) :
    ∃ k, mailStep t (.deliver k) =
        ({ t with tasks := t.tasks.eraseIdx k }, (t.endpoints m.1).map fun n => .delivered n m.2) ∧
      (m :: t.tasks.eraseIdx k).Perm t.tasks := by
  obtain ⟨k, at_k⟩ := List.getElem?_of_mem member
  obtain ⟨inside, rfl⟩ := List.getElem?_eq_some_iff.mp at_k
  exact ⟨k, by rw [mailStep, at_k], List.getElem_cons_eraseIdx_perm inside⟩

theorem deliver_held (h : Related s t) {k : ℕ} {st : Stage} {m : Bytes × Bytes}
    (held : (custody s).hands[k]? = some (some st)) (message : unread (some st) = some m) (new : Option Stage)
    (done : unread new = none) : ∃ j, (mailStep t (.deliver j)).1.endpoints = s.endpoints ∧
      (mailStep t (.deliver j)).1.tasks.Perm (undelivered ((custody s).hold k new)) ∧
      (mailStep t (.deliver j)).2 = (s.endpoints m.1).map fun n => .delivered n m.2 := by
  obtain ⟨j, step, left⟩ := deliver_one (h.mail.mem_iff.mpr (undelivered_held held message))
  have exchange := undelivered_hold held new
  rw [message, done] at exchange
  refine ⟨j, ?_, ?_, ?_⟩
  · rw [step]
    exact h.endpoints
  · rw [step]
    exact ((left.trans h.mail).trans exchange.symm).cons_inv
  · rw [step, h.endpoints]

theorem send_mail (dest data : Bytes) (bound : (t.endpoints dest).isSome = true) :
    mailStep t (.send dest data) = ({ t with tasks := t.tasks ++ [(dest, data)] }, some (.accepted dest data)) := by
  have known : ¬ (t.endpoints dest).isNone = true := by
    rw [Option.isNone_iff_eq_none]
    intro none
    rw [none] at bound
    cases bound
  simp only [mailStep, Transport.send, if_neg known, Bool.false_eq_true, if_false]
  rfl

theorem seen_quiet {e : Option TransportEvent} (quiet : e.bind taskOf = none) : e.bind seen = none := by
  cases e with
  | none => rfl
  | some ev =>
    cases ev with
    | pushed | called => cases quiet
    | sendReturned | popped | lookedUp | callReturned => rfl
    | waitReturned | shutdownReturned | registered | unregistered => rfl

theorem undelivered_keep {c : Custody} {k : ℕ} {old : Option Stage} (held : c.hands[k]? = some old)
    (new : Option Stage) (same : unread old = unread new) : (undelivered (c.hold k new)).Perm (undelivered c) := by
  have exchange := undelivered_hold held new
  rw [same] at exchange
  exact (List.perm_append_left_iff _).mp exchange

theorem task_mail (h : Related s t) (op : TransportOp) :
    ∃ js, (mailMachine.final t js).endpoints = s.endpoints ∧
      (mailMachine.final t js).tasks.Perm (undelivered (custody (s.step op).1)) ∧
      ((s.step op).2.bind seen).toList = (mailMachine.trace t js).filterMap Prod.snd := by
  have moves := step_moves s op
  generalize shown : (s.step op).2 = e at moves ⊢
  generalize custody (s.step op).1 = c' at moves ⊢
  cases moves with
  | keep _ quiet => exact ⟨[], h.endpoints, h.mail, by rw [seen_quiet quiet]; rfl⟩
  | push c t' number =>
    have bound := h.known.addressed c t'.to (by rw [(pushed_cases shown).1]; rfl)
    have step := send_mail (t := t) t'.to t'.data (by rw [h.endpoints]; exact bound)
    refine ⟨[.send t'.to t'.data], ?_, ?_, ?_⟩
    · change (mailStep t _).1.endpoints = _
      rw [step]
      exact h.endpoints
    · change (mailStep t _).1.tasks.Perm (((custody s).queue ++ [t']).map letter ++ _)
      rw [step, List.map_append, List.append_assoc]
      refine (h.mail.append_right _).trans ?_
      rw [undelivered, List.append_assoc]
      exact List.perm_append_comm.append_left _
    · change [Mail.accepted t'.to t'.data] = [(_, (mailStep t _).2)].filterMap Prod.snd
      rw [step]
      rfl
  | pop k i t' now free found => exact ⟨[], h.endpoints, h.mail.trans (undelivered_pop free found).symm, rfl⟩
  | count k t' held =>
    exact ⟨[], h.endpoints, h.mail.trans (undelivered_keep held (some (.counted t')) rfl).symm, rfl⟩
  | look k t' f held =>
    have bound : f = s.endpoints t'.to := lookedUp_endpoint shown
    cases f with
    | none =>
      obtain ⟨j, endpoints, mail, output⟩ := deliver_held h held rfl (some (.looked t' none)) rfl
      refine ⟨[.deliver j], endpoints, mail, ?_⟩
      change [] = [(_, (mailStep t _).2)].filterMap Prod.snd
      rw [output, letter, ← bound]
      rfl
    | some f =>
      exact ⟨[], h.endpoints, h.mail.trans (undelivered_keep held (some (.looked t' (some f))) rfl).symm, rfl⟩
  | call k t' f held =>
    have bound := h.known.found k t' f (called_looked shown)
    obtain ⟨j, endpoints, mail, output⟩ := deliver_held h held rfl (some (.calling t' f)) rfl
    refine ⟨[.deliver j], endpoints, mail, ?_⟩
    change [Mail.delivered f t'.data] = [(_, (mailStep t _).2)].filterMap Prod.snd
    rw [output, letter, bound]
    rfl
  | skip k t' held =>
    exact ⟨[], h.endpoints, h.mail.trans (undelivered_keep held (some (.delivered t' none)) rfl).symm, rfl⟩
  | callReturn k t' f held =>
    exact ⟨[], h.endpoints, h.mail.trans (undelivered_keep held (some (.delivered t' (some f))) rfl).symm, rfl⟩
  | finish k t' f held =>
    exact ⟨[], h.endpoints, h.mail.trans (undelivered_keep held none rfl).symm, rfl⟩

theorem related_step (h : Related s t) (stays : ∀ address, op ≠ .unregisterEndpoint address) :
    ∃ js, Related (s.step op).1 (mailMachine.final t js) ∧
      ((s.step op).2.bind seen).toList = (mailMachine.trace t js).filterMap Prod.snd := by
  rcases endpoints_cases s op with same | ⟨address, rfl, free⟩ | ⟨address, rfl⟩
  · obtain ⟨js, endpoints, mail, output⟩ := task_mail h op
    exact ⟨js, ⟨h.known.step stays, endpoints.trans same.symm, mail⟩, output⟩
  · exact register_mail h free
  · exact absurd rfl (stays address)

theorem known_new (params : NetworkParams) : Known (.new params) := by
  constructor
  · exact fun c dest standing => nomatch standing
  · intro k t f at_k
    have free : (List.replicate 4 WorkerPoint.loopHead)[k]? = some (.looked t (some f)) := at_k
    rw [List.getElem?_replicate] at free
    split at free <;> simp at free

theorem related_new (params : NetworkParams) : Related (.new params) Transport.new :=
  ⟨known_new params, rfl, List.Perm.refl []⟩

end Simulation

/-- In every run that unregisters nothing, the threads accept and deliver what the transport of
    the simulation accepts and delivers in some run of its own, in the same order. Its deliveries
    are those of the simulation. -/
theorem threads_refine_mail (params : NetworkParams) (ops : List TransportOp)
    (stays : ∀ op ∈ ops, ∀ address, op ≠ .unregisterEndpoint address) :
    (∃ js, Related (transportMachine.final (.new params) ops) (mailMachine.final .new js) ∧
      (eventsOf (transportMachine.trace (.new params) ops)).filterMap seen =
        (mailMachine.trace .new js).filterMap Prod.snd) ∧
    ∀ (s : Sim) (k : ℕ), (s.deliver k).1.transport = (mailStep s.transport (.deliver k)).1 ∧
      (s.deliver k).1.nodes = arrived s.nodes (mailStep s.transport (.deliver k)).2 := by
  refine ⟨?_, deliver_mail⟩
  obtain ⟨js, related, shown⟩ := transportMachine.simulates mailMachine Related
    (fun op => ∀ address, op ≠ .unregisterEndpoint address) (fun e => e.2.bind seen) Prod.snd
    (fun s t op h stays => related_step h stays) ops stays (related_new params)
  refine ⟨js, related, ?_⟩
  rw [eventsOf, List.filterMap_filterMap]
  exact shown

def oneMessage : List TransportOp :=
  [.registerEndpoint [1], .send 0 [1] [7] 0, .client 0 0, .client 0 0, .client 0 0, .client 0 0,
    .worker 0 0, .worker 0 0, .worker 0 0, .worker 0 0, .worker 0 0]

theorem threads_refine_mail_one :
    ∃ js, (mailMachine.trace .new js).filterMap Prod.snd = [.accepted [1] [7], .delivered 0 [7]] := by
  obtain ⟨⟨js, -, shown⟩, -⟩ := threads_refine_mail ⟨0, 0⟩ oneMessage (by simp [oneMessage])
  have events : eventsOf (transportMachine.trace (.new ⟨0, 0⟩) oneMessage) =
      [.registered [1] ⟨.ok, []⟩ (some 0), .pushed 0 ⟨0, 0, [1], [7]⟩, .sendReturned 0 ⟨.ok, []⟩ (some 0),
        .popped 0 ⟨0, 0, [1], [7]⟩ 0, .lookedUp 0 ⟨0, 0, [1], [7]⟩ (some 0), .called 0 ⟨0, 0, [1], [7]⟩ 0] := by
    decide +kernel
  rw [events] at shown
  exact ⟨js, shown.symm⟩

end InterchainCommunication.TransportRefinement
