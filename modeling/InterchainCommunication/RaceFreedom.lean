import InterchainCommunication.LockOrder

set_option autoImplicit false

namespace InterchainCommunication.RaceFreedom
open StringText ScopedLocks LockUse LockOrder SimulationModel

inductive Role
  | caller (k : ℕ)
  | node (n : ℕ)
  | relayer (r : ℕ)
  | worker (k : ℕ)
  deriving DecidableEq

def Job.By : Job → Role → Prop
  | .call _, .caller _ => True
  | .node n _ _ _ _ _ _, .node n' => n = n'
  | .relayer r _, .relayer r' => r = r'
  | .worker _ _, .worker _ => True
  | _, _ => False

/-- A thread with what it is to do in its role. -/
structure Worker where
  role : Role
  jobs : List Job
  inRole : ∀ job ∈ jobs, Job.By job role

/-- Threads of different roles, whose calls are allowed, can race for the datum. -/
def RacedBy (allowed : Call → Prop) (d : Datum) : Prop :=
  ∃ ws : List Worker, (ws.map Worker.role).Nodup ∧ (∀ w ∈ ws, ∀ call, .call call ∈ w.jobs → allowed call) ∧
    ∃ schedule, Raced d (lockMachine.final (threads (ws.map Worker.jobs)) schedule)

def Datum.Bare : Datum → Prop
  | .mempool _ | .transportRng => True
  | _ => False

def Datum.IsSetting : Datum → Prop
  | .ledger _ | .routeDrop _ | .params | .level | .enabledFlag _ => True
  | _ => False

def Datum.IsRelayerRng : Datum → Prop
  | .relayerRng _ => True
  | _ => False

/-- The loop of a relayer belongs to the thread in its role, unless others draw its numbers too. -/
def settingOf (fixed owned : Bool) (ws : List Worker) : Setting :=
  ⟨fixed, fun r => if owned then some ((ws.map Worker.role).idxOf (.relayer r)) else none⟩

theorem keeps_workers {fixed owned : Bool} {ws : List Worker} (distinct : (ws.map Worker.role).Nodup)
    (sets : ∀ w ∈ ws, ∀ call, .call call ∈ w.jobs → Call.Sets call → fixed = false)
    (draws : ∀ w ∈ ws, ∀ call, .call call ∈ w.jobs → Call.Draws call → owned = false) :
    KeepAll (rules (settingOf fixed owned ws)) (threads (ws.map Worker.jobs)) := by
  rw [threads_eq]
  refine keeps_start fun k c at_k => ?_
  rw [List.getElem?_map, List.getElem?_map] at at_k
  obtain ⟨js, at_js, rfl⟩ := Option.map_eq_some_iff.mp at_k
  obtain ⟨w, at_w, rfl⟩ := Option.map_eq_some_iff.mp at_js
  have member := List.mem_of_getElem? at_w
  refine keeps_jobs (sets w member) (fun call inside drawn r => ?_) fun r key inside j owns => ?_
  · rw [settingOf, draws w member call inside drawn]
    rfl
  have role : w.role = .relayer r := by
    have by_role := w.inRole _ inside
    cases kind : w.role with
    | relayer r' =>
      rw [kind] at by_role
      rw [show r = r' from by_role]
    | caller | node | worker =>
      rw [kind] at by_role
      exact by_role.elim
  have at_role : (ws.map Worker.role)[k]? = some (.relayer r) := by rw [List.getElem?_map, at_w, Option.map_some, role]
  obtain ⟨within, here⟩ := List.getElem?_eq_some_iff.mp at_role
  cases owned with
  | true => rw [← Option.some.inj owns, ← here, distinct.idxOf_getElem]
  | false => cases owns

theorem unprotected_of_racedBy (fixed owned : Bool) {allowed : Call → Prop} {d : Datum}
    (sets : ∀ call, allowed call → Call.Sets call → fixed = false)
    (draws : ∀ call, allowed call → Call.Draws call → owned = false) (raced : RacedBy allowed d) :
    ∃ ws, protect (settingOf fixed owned ws) d = .unprotected := by
  obtain ⟨ws, distinct, allows, schedule, raced⟩ := raced
  have keeps := keeps_workers distinct (fun w member call inside => sets call (allows w member call inside))
    fun w member call inside => draws call (allows w member call inside)
  exact ⟨ws, unprotected_of_raced (fun _ _ _ _ h => h) (exclusive_run (threads_exclusive _) schedule)
    (keeps_run keeps schedule) raced⟩

def caller (k : ℕ) (call : Call) : Worker :=
  ⟨.caller k, [.call call], fun job member => by
    rw [List.mem_singleton.mp member]
    trivial⟩

def nodeOf (c : ℕ) : Worker :=
  ⟨.node 0, [.node 0 c [] [] 0 [] []], fun job member => by
    rw [List.mem_singleton.mp member]
    rfl⟩

def relayerAt (r : ℕ) : Worker :=
  ⟨.relayer r, [.relayer r []], fun job member => by
    rw [List.mem_singleton.mp member]
    rfl⟩

def toDraw : List Bool := [true, false, true, true, true, true, true]

/-- Up to the height in `snapshotState`, for a transaction that is well formed. -/
def toHeight : List Bool :=
  [true, true, false, true, true, true, false, true, true, true, true, true, true, false, false, true, true, true, true,
    true]

def toRate : List Bool := [true, true, false, true, true, true, false, true, true, true, true]

theorem allowed_callers {allowed : Call → Prop} {call call' : Call} (first : allowed call) (second : allowed call') :
    ∀ w ∈ [caller 0 call, caller 1 call'], ∀ c, .call c ∈ w.jobs → allowed c := by
  intro w member c inside
  simp only [List.mem_cons, List.not_mem_nil, or_false] at member
  rcases member with rfl | rfl
  · obtain rfl : c = call := by simpa [caller] using inside
    exact first
  · obtain rfl : c = call' := by simpa [caller] using inside
    exact second

/-- Two workers, each of which comes to the datum alone. -/
theorem racedBy_of_alone {allowed : Call → Prop} {d : Datum} (v w : Worker) (apart : v.role ≠ w.role)
    (allows : ∀ u ∈ [v, w], ∀ call, .call call ∈ u.jobs → allowed call) (first second : List Bool)
    {writes writes' : Bool} {next next' : Use} {sections : List (Lock × Use)}
    (run : (Thread.start (Code.all (v.jobs.map Job.code))).alone first = some ⟨.touch d writes next, []⟩)
    (run' : (Thread.start (Code.all (w.jobs.map Job.code))).alone second = some ⟨.touch d writes' next', sections⟩)
    (write : (writes || writes') = true) : RacedBy allowed d :=
  ⟨[v, w], by simpa using apart, allows, raced_of_alone run run' write⟩

theorem raced_bare {allowed : Call → Prop} {d : Datum} (submits : ∀ c, allowed (.submitTransaction c))
    (bare : Datum.Bare d) : RacedBy allowed d := by
  have apart (call call' : Call) : (caller 0 call).role ≠ (caller 1 call').role := by
    intro same
    cases same
  cases d with
  | mempool c =>
    exact racedBy_of_alone _ _ (apart _ _) (allowed_callers (submits c) (submits c)) [] [] rfl rfl rfl
  | transportRng =>
    exact racedBy_of_alone _ _ (apart _ _) (allowed_callers (submits 0) (submits 0)) toDraw toDraw
      rfl rfl rfl
  | _ => exact bare.elim

theorem raced_setting {d : Datum} (setting : Datum.IsSetting d) : RacedBy (fun _ => True) d := by
  cases d with
  | ledger c =>
    exact racedBy_of_alone (nodeOf c) (caller 1 (.appendBlock c [])) (by simp [nodeOf, caller])
      (fun _ _ _ _ => trivial) toHeight [true, true, false] rfl rfl rfl
  | routeDrop r =>
    exact racedBy_of_alone (relayerAt r) (caller 1 (.setDropOnRoute r)) (by simp [relayerAt, caller])
      (fun _ _ _ _ => trivial) toRate [true] rfl rfl rfl
  | params =>
    exact racedBy_of_alone (caller 0 .setParams) (caller 1 .setParams) (by simp [caller])
      (fun _ _ _ _ => trivial) [] [] rfl rfl rfl
  | level =>
    exact racedBy_of_alone (caller 0 .log) (caller 1 .setLevel) (by simp [caller])
      (fun _ _ _ _ => trivial) [] [true] rfl rfl rfl
  | enabledFlag category =>
    exact racedBy_of_alone (caller 0 (.enableCategory category)) (caller 1 (.enableCategory category))
      (by simp [caller]) (fun _ _ _ _ => trivial) [] [] rfl rfl rfl
  | _ => exact setting.elim

theorem raced_drawn {allowed : Call → Prop} {d : Datum} (relays : ∀ r, allowed (.relayPacket r))
    (rng : Datum.IsRelayerRng d) : RacedBy allowed d := by
  cases d with
  | relayerRng r =>
    refine racedBy_of_alone (relayerAt r) (caller 1 (.relayPacket r)) (by simp [relayerAt, caller]) ?_
      (toRate ++ [true]) [true, true, true, true, true] rfl rfl rfl
    intro w member call inside
    simp only [List.mem_cons, List.not_mem_nil, or_false] at member
    rcases member with rfl | rfl
    · simp [relayerAt] at inside
    · obtain rfl : call = .relayPacket r := by simpa [caller] using inside
      exact relays r
  | _ => exact rng.elim

theorem unprotected_iff (fixed owned : Bool) (ws : List Worker) (d : Datum) :
    protect (settingOf fixed owned ws) d = .unprotected ↔
      Datum.Bare d ∨ (owned = false ∧ Datum.IsRelayerRng d) ∨ (fixed = false ∧ Datum.IsSetting d) := by
  cases d <;> cases fixed <;> cases owned <;>
    simp [protect, settingOf, Setting.settings, Datum.Bare, Datum.IsRelayerRng, Datum.IsSetting]

/-- While nothing is set, no block is appended and only the relayers' loops relay, two threads can be at the
    same datum at once, one of them to write it, exactly for the mempools and the random numbers of the
    transport. If others relay too, the random numbers of the relayers come in, and with all calls allowed
    the data that the setters and `appendBlock` change, and nothing else. -/
theorem raced_iff (d : Datum) :
    (RacedBy (fun call => ¬Call.Sets call ∧ ¬Call.Draws call) d ↔ Datum.Bare d) ∧
      (RacedBy (fun call => ¬Call.Sets call) d ↔ Datum.Bare d ∨ Datum.IsRelayerRng d) ∧
      (RacedBy (fun _ => True) d ↔ Datum.Bare d ∨ Datum.IsRelayerRng d ∨ Datum.IsSetting d) := by
  refine ⟨⟨fun raced => ?_, raced_bare fun _ => ⟨id, id⟩⟩, ⟨fun raced => ?_, ?_⟩, fun raced => ?_, ?_⟩
  · obtain ⟨ws, open'⟩ := unprotected_of_racedBy true true (fun call keeps sets => absurd sets keeps.1)
      (fun call keeps draws => absurd draws keeps.2) raced
    simpa using (unprotected_iff true true ws d).mp open'
  · obtain ⟨ws, open'⟩ := unprotected_of_racedBy true false (fun call keeps sets => absurd sets keeps)
      (fun _ _ _ => rfl) raced
    simpa using (unprotected_iff true false ws d).mp open'
  · rintro (bare | rng)
    · exact raced_bare (fun _ => id) bare
    · exact raced_drawn (fun _ => id) rng
  · obtain ⟨ws, open'⟩ := unprotected_of_racedBy false false (fun _ _ _ => rfl) (fun _ _ _ => rfl) raced
    simpa using (unprotected_iff false false ws d).mp open'
  · rintro (bare | rng | setting)
    · exact raced_bare (fun _ => trivial) bare
    · exact raced_drawn (fun _ => trivial) rng
    · exact raced_setting setting

end InterchainCommunication.RaceFreedom
