import InterchainCommunication.MachineRuns
import InterchainCommunication.NodeSteps

set_option autoImplicit false

namespace InterchainCommunication.ComponentLife
open StringText CoreTypes MachineRuns BlockchainModel QueueAndBus NodeModel NodeSteps

inductive LifeCall
  | start (s : Status)
  | stop (found : Bool)
  deriving DecidableEq

/-- The last `start` that returned Ok has not been followed by a `stop`. -/
def live (calls : List LifeCall) : Bool :=
  calls.foldl (fun l c =>
    match c with
    | .start s => l || s.ok
    | .stop _ => false) false

/-- Some `stop` found the component running. -/
def stoppedBefore (calls : List LifeCall) : Bool := calls.contains (.stop true)

theorem live_concat (calls : List LifeCall) (c : LifeCall) : live (calls ++ [c]) =
    match c with
    | .start s => live calls || s.ok
    | .stop _ => false := by
  simp [live, List.foldl_append]

theorem stoppedBefore_concat (calls : List LifeCall) (c : LifeCall) :
    stoppedBefore (calls ++ [c]) = (stoppedBefore calls || c == .stop true) := by
  simp only [stoppedBefore, List.contains_append, List.contains_cons, List.contains_nil, Bool.or_false]
  rw [Bool.beq_comm]

/-- Where the owner stands: between two calls, or inside `stop`. -/
inductive Caller
  | free
  | closing
  | closingAcks
  | joining
  deriving DecidableEq

inductive OwnerStep
  | start
  | stop
  | close
  | join
  deriving DecidableEq

/-- What ties the flag and a queue to the calls made so far. -/
structure Steady (running : Bool) (caller : Caller) (closed : Bool) (calls : List LifeCall) : Prop where
  flag : running = live calls
  outside : live calls = true → caller = .free
  shut : caller = .free → closed = stoppedBefore calls
  inside : caller ≠ .free → stoppedBefore calls = true
  last : caller = .joining → closed = true

namespace Steady
variable {running closed : Bool} {caller : Caller} {calls : List LifeCall}

theorem new : Steady false .free false [] :=
  ⟨rfl, fun _ => rfl, fun _ => rfl, fun f => absurd rfl f, fun j => nomatch j⟩

theorem refused (h : Steady true .free closed calls) (text : Bytes) :
    Steady true .free closed (calls ++ [.start ⟨.invalidState, text⟩]) := by
  have lives : live (calls ++ [.start ⟨.invalidState, text⟩]) = true := by
    rw [live_concat, ← h.flag]
    rfl
  have stopped : stoppedBefore (calls ++ [.start ⟨.invalidState, text⟩]) = stoppedBefore calls := by
    rw [stoppedBefore_concat]
    simp
  exact ⟨lives.symm, fun _ => rfl, fun f => (h.shut f).trans stopped.symm, fun f => absurd rfl f,
    fun j => nomatch j⟩

theorem started (h : Steady false .free closed calls) : Steady true .free closed (calls ++ [.start ⟨.ok, []⟩]) := by
  have lives : live (calls ++ [.start ⟨.ok, []⟩]) = true := by
    rw [live_concat]
    exact Bool.or_true _
  have stopped : stoppedBefore (calls ++ [.start ⟨.ok, []⟩]) = stoppedBefore calls := by
    rw [stoppedBefore_concat]
    simp
  exact ⟨lives.symm, fun _ => rfl, fun f => (h.shut f).trans stopped.symm, fun f => absurd rfl f,
    fun j => nomatch j⟩

theorem stopped (closed : Bool) (calls : List LifeCall) : Steady false .closing closed (calls ++ [.stop true]) := by
  have dead : live (calls ++ [.stop true]) = false := live_concat calls _
  have found : stoppedBefore (calls ++ [.stop true]) = true := by
    rw [stoppedBefore_concat]
    exact Bool.or_true _
  exact ⟨dead.symm, fun l => absurd (dead.symm.trans l) Bool.false_ne_true, (fun f => nomatch f), fun _ => found,
    fun j => nomatch j⟩

theorem stillIdle (h : Steady false .free closed calls) : Steady false .free closed (calls ++ [.stop false]) := by
  have dead : live (calls ++ [.stop false]) = false := live_concat calls _
  have found : stoppedBefore (calls ++ [.stop false]) = stoppedBefore calls := by
    rw [stoppedBefore_concat]
    simp
  exact ⟨dead.symm, fun _ => rfl, fun f => (h.shut f).trans found.symm, fun f => absurd rfl f, fun j => nomatch j⟩

theorem notLive (h : Steady running caller closed calls) (inside : caller ≠ .free) : live calls ≠ true :=
  fun l => inside (h.outside l)

theorem within (h : Steady running caller closed calls) (inside : caller ≠ .free) {caller' : Caller} {closed' : Bool}
    (still : caller' ≠ .free) (last : caller' = .joining → closed' = true) :
    Steady running caller' closed' calls :=
  ⟨h.flag, fun l => absurd l (h.notLive inside), fun f => absurd f still, fun _ => h.inside inside, last⟩

theorem joined (h : Steady running .joining closed calls) : Steady running .free closed calls :=
  have inside : Caller.joining ≠ .free := by decide
  ⟨h.flag, fun _ => rfl, fun _ => (h.last rfl).trans (h.inside inside).symm, fun f => absurd rfl f,
    fun j => nomatch j⟩

theorem closed_of_live (h : Steady running caller closed calls) (l : live calls = true) :
    closed = stoppedBefore calls := h.shut (h.outside l)

end Steady

structure NodeLife where
  node : Node
  chain : Blockchain
  caller : Caller

inductive NodeInput
  | owner (o : OwnerStep)
  | bytes (bs : Bytes)
  | loop
  | other (op : ChainOp)
  deriving DecidableEq

structure NodeOutput where
  call : Option LifeCall
  taken : Option NodeMessage

def NodeLife.owner (r : NodeLife) (o : OwnerStep) : NodeLife × Option LifeCall :=
  match r.caller, o with
  | .free, .start =>
    let s := r.node.start
    ({ r with node := s.1 }, some (.start s.2))
  | .free, .stop =>
    if r.node.running then ({ r with node := r.node.clearRunning, caller := .closing }, some (.stop true))
    else (r, some (.stop false))
  | .closing, .close => ({ r with node := r.node.closeInbox, caller := .joining }, none)
  -- `join` returns when the worker has
  | .joining, .join =>
    if r.node.worker = .returned ∨ r.node.worker = .idle then
      ({ r with node := { r.node with worker := .idle }, caller := .free }, none)
    else (r, none)
  | _, _ => (r, none)

def NodeLife.act (r : NodeLife) : NodeInput → NodeLife × NodeOutput
  | .owner o => ((r.owner o).1, ⟨(r.owner o).2, none⟩)
  | .bytes bs => ({ r with node := (r.node.onBytes bs).1 }, ⟨none, none⟩)
  | .loop =>
    let s := r.node.loopStep r.chain
    ({ r with node := s.1, chain := s.2.1 },
      ⟨none, if r.node.worker = .atPop then r.node.inbox.q.head? else none⟩)
  | .other op => ({ r with chain := (r.chain.call op).chain }, ⟨none, none⟩)

/-- An exception that leaves the worker ends the process. -/
def nodeLife : Machine NodeLife NodeInput NodeOutput where
  step r i :=
    match r.node.worker with
    | .terminated _ => (r, ⟨none, none⟩)
    | _ => r.act i

def nodeCalls (t : List (NodeInput × NodeOutput)) : List LifeCall := t.filterMap fun e => e.2.call

def taken (t : List (NodeInput × NodeOutput)) : List NodeMessage := t.filterMap fun e => e.2.taken

def newNode (opens : Bytes → Bool) (nodeId address : Bytes) (b : Blockchain) : NodeLife :=
  ⟨.new nodeId address (opens (nodeStateFile b.chainId nodeId)), b, .free⟩

/-- The message is put into the inbox, and until the next `stop` the worker takes what is
    there in order: it has reached the message once it has made two steps for each. -/
def NodeServes (r : NodeLife) (bs : Bytes) (msg : NodeMessage) : Prop :=
  (nodeLife.step r (.bytes bs)).1.node.inbox.q = r.node.inbox.q ++ [msg] ∧
    ∀ later, NodeInput.owner .stop ∉ later → 2 * (r.node.inbox.q.length + 1) ≤ later.count .loop →
      (∀ e, (nodeLife.final r (.bytes bs :: later)).node.worker ≠ .terminated e) →
      r.node.inbox.q ++ [msg] <+: taken (nodeLife.trace r (.bytes bs :: later))

theorem act_of_alive {r : NodeLife} (alive : ∀ e, r.node.worker ≠ .terminated e) (i : NodeInput) :
    nodeLife.step r i = r.act i := by
  unfold nodeLife
  dsimp only
  split
  · rename_i e he
    exact absurd he (alive e)
  · rfl

theorem dead_stays {r : NodeLife} {e : StdException} (dead : r.node.worker = .terminated e) (is : List NodeInput) :
    nodeLife.final r is = r := by
  induction is with
  | nil => rfl
  | cons i is ih =>
    have still : (nodeLife.step r i).1 = r := by simp [nodeLife, dead]
    rw [Machine.final_cons, still, ih]

/-- A live worker whose node was never stopped goes round, unless an exception has ended it. -/
structure Lives (r : NodeLife) (calls : List LifeCall) : Prop where
  steady : Steady r.node.running r.caller r.node.inbox.closed calls
  working : live calls = true → stoppedBefore calls = false →
    r.node.worker = .atTest ∨ r.node.worker = .atPop ∨ ∃ e, r.node.worker = .terminated e

theorem onBytes_static (n : Node) (bs : Bytes) : (n.onBytes bs).1.running = n.running ∧
    (n.onBytes bs).1.inbox.closed = n.inbox.closed ∧ (n.onBytes bs).1.worker = n.worker := by
  rcases onBytes_cases n bs with ⟨msg, -, -, got⟩ | ⟨text, got⟩
  · rw [got]
    exact ⟨rfl, rfl, rfl⟩
  · rw [got]
    exact ⟨rfl, rfl, rfl⟩

theorem loopStep_static (n : Node) (b : Blockchain) : (n.loopStep b).1.running = n.running ∧
    (n.loopStep b).1.inbox.closed = n.inbox.closed := by
  rcases loopStep_cases n b with ⟨msg, rest, -, -, moved⟩ | ⟨w, moved, -⟩
  · rw [moved]
    exact ⟨rfl, rfl⟩
  · rw [moved]
    exact ⟨rfl, rfl⟩

theorem loopStep_working {n : Node} {b : Blockchain} (running : n.running = true) (open_ : n.inbox.closed = false)
    (working : n.worker = .atTest ∨ n.worker = .atPop) : (n.loopStep b).1.worker = .atTest ∨
      (n.loopStep b).1.worker = .atPop ∨ ∃ e, (n.loopStep b).1.worker = .terminated e := by
  rcases loopStep_cases n b with ⟨msg, rest, -, -, moved⟩ | ⟨w, moved, why⟩
  · rw [moved]
    rcases after_cases (handleMessage n.stateFileOpens n.nodeId b msg).thrown with ⟨-, on⟩ | ⟨e, -, ended⟩
    · exact .inl on
    · exact .inr (.inr ⟨e, ended⟩)
  · rw [moved]
    rcases why with same | ⟨-, next⟩ | ⟨closed, -⟩
    · rcases working with test | pop
      · exact .inl (same.trans test)
      · exact .inr (.inl (same.trans pop))
    · exact .inr (.inl (next.trans (if_pos running)))
    · rw [open_] at closed
      cases closed

theorem owner_lives {r : NodeLife} {calls : List LifeCall} (h : Lives r calls) (o : OwnerStep) :
    Lives (r.owner o).1 (calls ++ (r.owner o).2.toList) := by
  obtain ⟨⟨nodeId, address, opens, running, inbox, worker⟩, chain, caller⟩ := r
  obtain ⟨steady, working⟩ := h
  dsimp only at steady working
  unfold NodeLife.owner
  split
  · rename_i free
    obtain rfl : caller = .free := free
    cases running with
    | true => exact ⟨steady.refused _, fun l s => working steady.flag.symm ((steady.shut rfl).symm.trans
        (((steady.refused _).shut rfl).trans s))⟩
    | false => exact ⟨steady.started, fun _ _ => .inl rfl⟩
  · rename_i free
    obtain rfl : caller = .free := free
    cases running with
    | true => exact ⟨.stopped _ _, fun l => absurd l ((Steady.stopped inbox.closed calls).notLive (by decide))⟩
    | false => exact ⟨steady.stillIdle, fun l => absurd (steady.stillIdle.flag.trans l) Bool.false_ne_true⟩
  · rename_i closing
    obtain rfl : caller = .closing := closing
    rw [Option.toList_none, List.append_nil]
    have still : Caller.joining ≠ .free := by decide
    exact ⟨steady.within (by decide) still fun _ => rfl, fun l => absurd l (steady.notLive (by decide))⟩
  · rename_i joining
    obtain rfl : caller = .joining := joining
    split
    · rw [Option.toList_none, List.append_nil]
      exact ⟨steady.joined, fun l => absurd l (steady.notLive (by decide))⟩
    · rw [Option.toList_none, List.append_nil]
      exact ⟨steady, working⟩
  · rw [Option.toList_none, List.append_nil]
    exact ⟨steady, working⟩

theorem lives_act {r : NodeLife} {calls : List LifeCall} (h : Lives r calls)
    (alive : ∀ e, r.node.worker ≠ .terminated e) (i : NodeInput) :
    Lives (r.act i).1 (calls ++ (r.act i).2.call.toList) := by
  cases i with
  | owner o => exact owner_lives h o
  | bytes bs =>
    obtain ⟨running, closed, worker⟩ := onBytes_static r.node bs
    have steady : Steady (r.node.onBytes bs).1.running r.caller (r.node.onBytes bs).1.inbox.closed calls := by
      rw [running, closed]
      exact h.steady
    rw [show calls ++ (r.act (.bytes bs)).2.call.toList = calls from List.append_nil calls]
    refine ⟨steady, fun l s => ?_⟩
    rw [show (r.act (.bytes bs)).1.node.worker = r.node.worker from worker]
    exact h.working l s
  | loop =>
    obtain ⟨running, closed⟩ := loopStep_static r.node r.chain
    have steady : Steady (r.node.loopStep r.chain).1.running r.caller (r.node.loopStep r.chain).1.inbox.closed
        calls := by
      rw [running, closed]
      exact h.steady
    rw [show calls ++ (r.act .loop).2.call.toList = calls from List.append_nil calls]
    refine ⟨steady, fun l s => ?_⟩
    have working : r.node.worker = .atTest ∨ r.node.worker = .atPop := by
      rcases h.working l s with test | pop | ⟨e, dead⟩
      · exact .inl test
      · exact .inr pop
      · exact absurd dead (alive e)
    exact loopStep_working (h.steady.flag.trans l) ((h.steady.closed_of_live l).trans s) working
  | other op =>
    rw [show calls ++ (r.act (.other op)).2.call.toList = calls from List.append_nil calls]
    exact ⟨h.steady, h.working⟩

theorem lives_final (opens : Bytes → Bool) (nodeId address : Bytes) (b : Blockchain) (is : List NodeInput) :
    Lives (nodeLife.final (newNode opens nodeId address b) is)
      (nodeCalls (nodeLife.trace (newNode opens nodeId address b) is)) := by
  refine nodeLife.history_invariant (I := fun r t => Lives r (nodeCalls t)) is ?_ fun r t i _ h => ?_
  · exact ⟨.new, fun l => nomatch l⟩
  · rw [nodeCalls, filterMap_concat]
    by_cases alive : ∀ e, r.node.worker ≠ .terminated e
    · rw [act_of_alive alive]
      exact lives_act h alive i
    · simp only [ne_eq, not_forall, not_not] at alive
      obtain ⟨e, dead⟩ := alive
      have still : nodeLife.step r i = (r, ⟨none, none⟩) := by simp [nodeLife, dead]
      rw [still]
      exact (List.append_nil (nodeCalls t)).symm ▸ h

/-- A node between a first `start` and the first `stop`, with its worker going round. -/
structure InService (r : NodeLife) : Prop where
  running : r.node.running = true
  opened : r.node.inbox.closed = false
  caller : r.caller = .free
  working : r.node.worker = .atTest ∨ r.node.worker = .atPop

theorem InService.alive {r : NodeLife} (h : InService r) (e : StdException) : r.node.worker ≠ .terminated e := by
  rcases h.working with test | pop
  · rw [test]
    exact fun f => nomatch f
  · rw [pop]
    exact fun f => nomatch f

theorem step_bytes {r : NodeLife} (h : InService r) (bs : Bytes) : InService (nodeLife.step r (.bytes bs)).1 ∧
    ∃ new, (nodeLife.step r (.bytes bs)).1.node.inbox.q = r.node.inbox.q ++ new ∧
      (nodeLife.step r (.bytes bs)).1.node.worker = r.node.worker ∧
        ∀ msg, deserializeNodeMessage bs = .ok msg → new = [msg] := by
  obtain ⟨running, closed, worker⟩ := onBytes_static r.node bs
  rw [act_of_alive h.alive]
  refine ⟨⟨running.trans h.running, closed.trans h.opened, h.caller, ?_⟩, ?_⟩
  · rw [show (r.act (.bytes bs)).1.node.worker = r.node.worker from worker]
    exact h.working
  · rcases onBytes_cases r.node bs with ⟨msg, read, -, got⟩ | ⟨text, got⟩
    · refine ⟨[msg], ?_, worker, fun msg' read' => ?_⟩
      · simp [NodeLife.act, got]
      · rw [read] at read'
        rw [Except.ok.inj read']
    · refine ⟨[], ?_, worker, fun msg read => ?_⟩
      · simp [NodeLife.act, got]
      · have pushed : r.node.onBytes bs =
            ({ r.node with inbox := { r.node.inbox with q := r.node.inbox.q ++ [msg] } }, []) := by
          have push : (deserializeNodeMessage bs >>= r.node.inbox.push) = r.node.inbox.push msg := by
            rw [read]
            rfl
          unfold Node.onBytes
          rw [push, ConcurrentQueue.push_open h.opened]
        rw [pushed] at got
        exact absurd (congrArg Prod.snd got) (by simp)

theorem step_loop {r : NodeLife} (h : InService r) :
    (∃ e, (nodeLife.step r .loop).1.node.worker = .terminated e) ∨
    InService (nodeLife.step r .loop).1 ∧
      ((r.node.worker = .atTest ∧ (nodeLife.step r .loop).1.node.worker = .atPop ∧
          (nodeLife.step r .loop).1.node.inbox.q = r.node.inbox.q ∧ (nodeLife.step r .loop).2.taken = none) ∨
        (r.node.worker = .atPop ∧ ∀ msg rest, r.node.inbox.q = msg :: rest →
          (nodeLife.step r .loop).1.node.inbox.q = rest ∧ (nodeLife.step r .loop).1.node.worker = .atTest ∧
            (nodeLife.step r .loop).2.taken = some msg)) := by
  rw [act_of_alive h.alive]
  obtain ⟨⟨nodeId, address, opens, running, ⟨q, closed⟩, worker⟩, chain, caller⟩ := r
  obtain ⟨rfl, rfl, rfl, working⟩ := h
  rcases working with rfl | rfl
  · exact .inr ⟨⟨rfl, rfl, rfl, .inr rfl⟩, .inl ⟨rfl, rfl, rfl, rfl⟩⟩
  · cases q with
    | nil => exact .inr ⟨⟨rfl, rfl, rfl, .inr rfl⟩, .inr ⟨rfl, fun msg rest same => nomatch same⟩⟩
    | cons msg rest =>
      rcases after_cases (handleMessage opens nodeId chain msg).thrown with ⟨-, on⟩ | ⟨e, -, ended⟩
      · refine .inr ⟨⟨rfl, rfl, rfl, .inl on⟩, .inr ⟨rfl, fun msg' rest' same => ?_⟩⟩
        obtain ⟨rfl, rfl⟩ := List.cons.inj same
        exact ⟨rfl, on, rfl⟩
      · exact .inl ⟨e, ended⟩

theorem step_owner {r : NodeLife} (h : InService r) {o : OwnerStep} (notStop : o ≠ .stop) :
    (nodeLife.step r (.owner o)).1 = r := by
  rw [act_of_alive h.alive]
  obtain ⟨⟨nodeId, address, opens, running, inbox, worker⟩, chain, caller⟩ := r
  obtain ⟨rfl, -, rfl, -⟩ := h
  cases o with
  | stop => exact absurd rfl notStop
  | start | close | join => rfl

theorem step_other {r : NodeLife} (h : InService r) {i : NodeInput} (notLoop : i ≠ .loop) (notStop : i ≠ .owner .stop) :
    InService (nodeLife.step r i).1 ∧ r.node.inbox.q <+: (nodeLife.step r i).1.node.inbox.q ∧
      (nodeLife.step r i).1.node.worker = r.node.worker ∧ (nodeLife.step r i).2.taken = none := by
  have nothing : (nodeLife.step r i).2.taken = none := by
    rw [act_of_alive h.alive]
    cases i with
    | owner | bytes | other => rfl
    | loop => exact absurd rfl notLoop
  cases i with
  | owner o =>
    have still := step_owner h fun stop : o = .stop => notStop (congrArg NodeInput.owner stop)
    rw [still]
    exact ⟨h, List.prefix_rfl, rfl, nothing⟩
  | bytes bs =>
    obtain ⟨service, new, grown, worker, -⟩ := step_bytes h bs
    refine ⟨service, ?_, worker, nothing⟩
    rw [grown]
    exact List.prefix_append _ _
  | other op =>
    have same : (nodeLife.step r (.other op)).1.node = r.node := by
      rw [act_of_alive h.alive]
      rfl
    have service : InService (nodeLife.step r (.other op)).1 := by
      rw [act_of_alive h.alive]
      exact ⟨h.running, h.opened, h.caller, h.working⟩
    rw [same]
    exact ⟨service, List.prefix_rfl, rfl, nothing⟩
  | loop => exact absurd rfl notLoop

/-- Messages are taken in the order of the inbox, one for every two steps of the worker. -/
theorem takes_in_order {r : NodeLife} (h : InService r) (later : List NodeInput)
    (noStop : NodeInput.owner .stop ∉ later)
    (alive : ∀ e, (nodeLife.final r later).node.worker ≠ .terminated e) {waiting : List NodeMessage}
    (first : waiting <+: r.node.inbox.q)
    (enough : 2 * waiting.length ≤ later.count .loop + if r.node.worker = .atPop then 1 else 0) :
    waiting <+: taken (nodeLife.trace r later) := by
  induction later generalizing r waiting with
  | nil =>
    cases waiting with
    | nil => exact List.nil_prefix
    | cons msg waiting =>
      rw [List.length_cons, List.count_nil] at enough
      split at enough <;> omega
  | cons i later ih =>
    have noStop' : NodeInput.owner .stop ∉ later := fun again => noStop (List.mem_cons_of_mem i again)
    rw [Machine.trace_cons, taken, List.filterMap_cons]
    rw [Machine.final_cons] at alive
    by_cases turn : i = .loop
    · subst turn
      rw [List.count_cons_self] at enough
      rcases step_loop h with ⟨e, dead⟩ | ⟨service, ⟨test, next, kept, nothing⟩ | ⟨pop, takes⟩⟩
      · have ended := dead_stays dead later
        rw [ended] at alive
        exact absurd dead (alive e)
      · rw [nothing]
        refine ih service noStop' alive ?_ ?_
        · rw [kept]
          exact first
        · rw [test] at enough
          rw [next, if_pos rfl]
          exact enough
      · cases waiting with
        | nil => exact List.nil_prefix
        | cons msg waiting =>
          obtain ⟨rest, whole⟩ := first
          obtain ⟨shorter, test, got⟩ := takes msg (waiting ++ rest) whole.symm
          rw [got]
          refine List.cons_prefix_cons.mpr ⟨rfl, ih service noStop' alive ?_ ?_⟩
          · rw [shorter]
            exact List.prefix_append _ _
          · rw [pop, if_pos rfl, List.length_cons] at enough
            omega
    · have notStop : i ≠ .owner .stop := fun stop => noStop (stop ▸ List.mem_cons_self)
      obtain ⟨service, grown, worker, nothing⟩ := step_other h turn notStop
      rw [nothing]
      rw [List.count_cons_of_ne turn] at enough
      refine ih service noStop' alive (first.trans grown) ?_
      rw [worker]
      exact enough

theorem nodeServes_iff {opens : Bytes → Bool} {nodeId address : Bytes} {b : Blockchain} {before : List NodeInput}
    {bs : Bytes} {msg : NodeMessage} (read : deserializeNodeMessage bs = .ok msg)
    (up : live (nodeCalls (nodeLife.trace (newNode opens nodeId address b) before)) = true)
    (alive : ∀ e, (nodeLife.final (newNode opens nodeId address b) before).node.worker ≠ .terminated e) :
    NodeServes (nodeLife.final (newNode opens nodeId address b) before) bs msg ↔
      stoppedBefore (nodeCalls (nodeLife.trace (newNode opens nodeId address b) before)) = false := by
  have lives := lives_final opens nodeId address b before
  generalize nodeLife.final (newNode opens nodeId address b) before = r at *
  generalize nodeCalls (nodeLife.trace (newNode opens nodeId address b) before) = calls at *
  constructor
  · rintro ⟨queued, -⟩
    rw [← lives.steady.closed_of_live up]
    cases closed : r.node.inbox.closed with
    | false => rfl
    | true =>
      rw [act_of_alive alive] at queued
      rcases onBytes_cases r.node bs with ⟨-, -, open_, -⟩ | ⟨text, got⟩
      · rw [open_] at closed
        cases closed
      · simp [NodeLife.act, got] at queued
  · intro fresh
    have service : InService r := by
      refine ⟨lives.steady.flag.trans up, (lives.steady.closed_of_live up).trans fresh, lives.steady.outside up, ?_⟩
      rcases lives.working up fresh with test | pop | ⟨e, dead⟩
      · exact .inl test
      · exact .inr pop
      · exact absurd dead (alive e)
    obtain ⟨next, new, grown, -, only⟩ := step_bytes service bs
    have queued : (nodeLife.step r (.bytes bs)).1.node.inbox.q = r.node.inbox.q ++ [msg] := by
      rw [grown, only msg read]
    refine ⟨queued, fun later noStop enough through => ?_⟩
    have nothing : (nodeLife.step r (.bytes bs)).2.taken = none := by
      rw [act_of_alive alive]
      rfl
    rw [Machine.trace_cons, taken, List.filterMap_cons, nothing]
    refine takes_in_order next later noStop through ?_ ?_
    · rw [queued]
    · rw [List.length_append, List.length_singleton]
      omega

end InterchainCommunication.ComponentLife
