import InterchainCommunication.StopLedger

set_option autoImplicit false

namespace InterchainCommunication.StopPhases
open ListUpdates NodeModel SimulationModel ComponentLife StopModel StopLedger

/-- How a move treats a node: its flag can only be cleared, by `stop`, and a worker that
    has returned stays where it is. -/
theorem move_node {r : Stopping} {i : StopInput} {l : Ledger} (move : Move r i l) {m : ℕ} {node' : SimNode}
    (at_m : l.nodes[m]? = some node') : ∃ node, r.sim.nodes[m]? = some node ∧
      (i ≠ .stop → node'.node.running = node.node.running) ∧
      (node.node.worker = .returned → node'.node.worker = .returned) := by
  have unchanged (at_m : r.sim.nodes[m]? = some node') : ∃ node, r.sim.nodes[m]? = some node ∧
      (i ≠ .stop → node'.node.running = node.node.running) ∧
      (node.node.worker = .returned → node'.node.worker = .returned) := ⟨node', at_m, fun _ => rfl, id⟩
  cases move with
  | quiet | sent | refused => exact unchanged at_m
  | delivered k n id task node msg at_k number yes at_n =>
    rcases getElem?_set_cases at_m with ⟨rfl, rfl⟩ | old
    · exact ⟨node, at_n, fun _ => rfl, fun gone => gone⟩
    · exact unchanged old
  | walked n node w at_n why =>
    rcases getElem?_set_cases at_m with ⟨rfl, rfl⟩ | old
    · refine ⟨node, at_n, fun _ => rfl, fun gone => ?_⟩
      rcases why with rfl | ⟨test, -⟩ | ⟨-, rfl⟩
      · exact gone
      · rw [gone] at test
        cases test
      · rfl
    · exact unchanged old
  | took n id node msg rest ids at_n pop =>
    rcases getElem?_set_cases at_m with ⟨rfl, rfl⟩ | old
    · refine ⟨node, at_n, fun _ => rfl, fun gone => ?_⟩
      rw [gone] at pop
      cases pop
    · exact unchanged old
  | broke n id node msg rest ids e at_n pop =>
    rcases getElem?_set_cases at_m with ⟨rfl, rfl⟩ | old
    · refine ⟨node, at_n, fun _ => rfl, fun gone => ?_⟩
      rw [gone] at pop
      cases pop
    · exact unchanged old
  | flagged n node m' at_n queue worker =>
    rcases getElem?_set_cases at_m with ⟨rfl, rfl⟩ | old
    · exact ⟨node, at_n, fun other => absurd rfl other, fun gone => worker.trans gone⟩
    · exact unchanged old

/-- The nodes whose flag `stop` has cleared, and those it has joined. -/
def cleared (count : ℕ) : StopPoint → ℕ
  | .notCalled | .traffic | .relayer _ _ => 0
  | .node n .free => n
  | .node n _ => n + 1
  | .draining | .shuttingDown | .notifying | .worker _ | .returned => count

def joined (count : ℕ) : StopPoint → ℕ
  | .notCalled | .traffic | .relayer _ _ => 0
  | .node n _ => n
  | .draining | .shuttingDown | .notifying | .worker _ | .returned => count

def Drained : StopPoint → Prop
  | .shuttingDown | .notifying | .worker _ | .returned => True
  | _ => False

/-- How far `stop` has come shows in the nodes, in the transport and in the mark it set. -/
structure Phased (r : Stopping) : Prop where
  up : ∀ m node, r.sim.nodes[m]? = some node → cleared r.sim.nodes.length r.point ≤ m → node.node.running = true
  gone : ∀ m node, r.sim.nodes[m]? = some node → m < joined r.sim.nodes.length r.point → node.node.worker = .returned
  drained : Drained r.point → ∀ id ∈ r.taskNumbers, ¬ Early r id
  mark : ∀ c, r.sentBefore = some c → c ≤ r.sent
  called : r.point = .notCalled ↔ r.sentBefore = none

theorem act_point {r : Stopping} {i : StopInput} (other : i ≠ .stop) :
    (r.act i).point = r.point ∧ (r.act i).sentBefore = r.sentBefore := by
  cases i with
  | sendIBC =>
    simp only [Stopping.act]
    split <;> exact ⟨rfl, rfl⟩
  | submit n tx drop =>
    simp only [Stopping.act]
    split
    · exact ⟨sends_point r _, sends_sentBefore r _⟩
    · exact ⟨rfl, rfl⟩
  | relayerStep k drops =>
    simp only [Stopping.act, Stopping.relayerStep]
    split
    · exact ⟨rfl, rfl⟩
    · split
      · exact ⟨rfl, rfl⟩
      · exact ⟨sends_point r _, sends_sentBefore r _⟩
      · exact ⟨sends_point r _, sends_sentBefore r _⟩
      · exact ⟨rfl, rfl⟩
      · exact ⟨rfl, rfl⟩
  | deliver k =>
    simp only [Stopping.act, Stopping.deliver]
    split
    · split <;> exact ⟨rfl, rfl⟩
    · exact ⟨rfl, rfl⟩
  | nodeStep n =>
    simp only [Stopping.act, Stopping.nodeStep]
    split
    · exact ⟨rfl, rfl⟩
    · split
      · exact ⟨rfl, rfl⟩
      · split
        · split <;> exact ⟨rfl, rfl⟩
        · exact ⟨rfl, rfl⟩
  | workerStep w =>
    obtain ⟨workers, moved⟩ := workerStep_frame r w
    simp only [Stopping.act, moved]
    exact ⟨trivial, trivial⟩
  | wake w =>
    obtain ⟨workers, moved⟩ := wake_frame r w
    simp only [Stopping.act, moved]
    exact ⟨trivial, trivial⟩
  | stop => exact absurd rfl other

theorem move_counts {r : Stopping} {i : StopInput} {l : Ledger} (move : Move r i l) :
    l.nodes.length = r.sim.nodes.length ∧ r.sent ≤ l.sent ∧ ∀ id ∈ l.taskNumbers, id ∈ r.taskNumbers ∨ id = r.sent := by
  cases move with
  | quiet => exact ⟨rfl, Nat.le_refl _, fun id h => .inl h⟩
  | sent i task =>
    refine ⟨rfl, Nat.le_succ _, fun id h => ?_⟩
    rcases List.mem_append.mp h with old | new
    · exact .inl old
    · exact .inr (List.mem_singleton.mp new)
  | refused => exact ⟨rfl, Nat.le_refl _, fun id h => .inl (List.mem_of_mem_eraseIdx h)⟩
  | delivered => exact ⟨List.length_set, Nat.le_refl _, fun id h => .inl (List.mem_of_mem_eraseIdx h)⟩
  | walked | took | broke | flagged => exact ⟨List.length_set, Nat.le_refl _, fun id h => .inl h⟩

theorem phased_other {r : Stopping} (h : Phased r) (sized : Sized (ledger r)) {i : StopInput} (other : i ≠ .stop) :
    Phased (r.act i) := by
  have move := act_moves sized i
  obtain ⟨point, mark⟩ := act_point (r := r) other
  obtain ⟨count, more, numbers⟩ := move_counts move
  have length : (r.act i).sim.nodes.length = r.sim.nodes.length := count
  have early (id : ℕ) : Early (r.act i) id ↔ Early r id := by
    unfold Early
    rw [mark]
  constructor
  · intro m node' at_m later
    obtain ⟨node, at_r, running, -⟩ := move_node move at_m
    rw [length, point] at later
    exact (running other).trans (h.up m node at_r later)
  · intro m node' at_m before
    obtain ⟨node, at_r, -, gone⟩ := move_node move at_m
    rw [length, point] at before
    exact gone (h.gone m node at_r before)
  · intro finished id hid
    rw [point] at finished
    rw [early]
    rcases numbers id hid with old | rfl
    · exact h.drained finished id old
    · intro before
      cases called : r.sentBefore with
      | none =>
        have notCalled := h.called.mpr called
        rw [notCalled] at finished
        exact finished.elim
      | some c =>
        have low := h.mark c called
        have high := before c called
        omega
  · intro c hc
    rw [mark] at hc
    exact Nat.le_trans (h.mark c hc) more
  · rw [point, mark]
    exact h.called

theorem Phased.onto {r r' : Stopping} (h : Phased r) (numbers : r'.taskNumbers = r.taskNumbers)
    (sent : r'.sent = r.sent) (mark : r'.sentBefore = r.sentBefore) (begun : r.point ≠ .notCalled)
    (begun' : r'.point ≠ .notCalled)
    (up : ∀ m node, r'.sim.nodes[m]? = some node → cleared r'.sim.nodes.length r'.point ≤ m → node.node.running = true)
    (gone : ∀ m node, r'.sim.nodes[m]? = some node → m < joined r'.sim.nodes.length r'.point →
      node.node.worker = .returned)
    (drained : Drained r'.point → ∀ id ∈ r.taskNumbers, ¬ Early r id) : Phased r' := by
  refine ⟨up, gone, fun finished id hid => ?_, ?_, ?_⟩
  · unfold Early
    rw [mark]
    rw [numbers] at hid
    exact drained finished id hid
  · rw [mark, sent]
    exact h.mark
  · rw [mark, ← h.called]
    exact ⟨fun f => absurd f begun', fun f => absurd f begun⟩

theorem Phased.onward {r : Stopping} (h : Phased r) {point : StopPoint} (begun : r.point ≠ .notCalled)
    (begun' : point ≠ .notCalled) (further : cleared r.sim.nodes.length r.point ≤ cleared r.sim.nodes.length point)
    (gone : ∀ m node, r.sim.nodes[m]? = some node → m < joined r.sim.nodes.length point →
      joined r.sim.nodes.length r.point ≤ m → node.node.worker = .returned)
    (drained : Drained point → ∀ id ∈ r.taskNumbers, ¬ Early r id) :
    Phased { r with point := point } := by
  refine h.onto rfl rfl rfl begun begun' ?_ ?_ drained
  · exact fun m node at_m later => h.up m node at_m (Nat.le_trans further later)
  · intro m node at_m before
    rcases Nat.lt_or_ge m (joined r.sim.nodes.length r.point) with earlier | later
    · exact h.gone m node at_m earlier
    · exact gone m node at_m before later

theorem Phased.relayers {r r' : Stopping} (h : Phased r) (before : r.point = .traffic ∨ ∃ k c, r.point = .relayer k c)
    (after : (∃ k c, r'.point = .relayer k c) ∨ r'.point = .node 0 .free) (nodes : r'.sim.nodes = r.sim.nodes)
    (numbers : r'.taskNumbers = r.taskNumbers) (sent : r'.sent = r.sent) (mark : r'.sentBefore = r.sentBefore) :
    Phased r' := by
  have begun : r.point ≠ .notCalled := by
    rcases before with here | ⟨k, c, here⟩ <;> rw [here] <;> exact fun f => nomatch f
  have begun' : r'.point ≠ .notCalled := by
    rcases after with ⟨k, c, there⟩ | there <;> rw [there] <;> exact fun f => nomatch f
  have untouched : cleared r.sim.nodes.length r.point = 0 := by
    rcases before with here | ⟨k, c, here⟩ <;> rw [here] <;> rfl
  have none_joined : joined r'.sim.nodes.length r'.point = 0 := by
    rcases after with ⟨k, c, there⟩ | there <;> rw [there] <;> rfl
  refine h.onto numbers sent mark begun begun' ?_ ?_ ?_
  · rw [nodes]
    intro m node at_m _
    exact h.up m node at_m (by omega)
  · intro m node at_m before
    omega
  · intro finished
    rcases after with ⟨k, c, there⟩ | there <;> rw [there] at finished <;> exact finished.elim

theorem node_modify {l : List SimNode} {n m : ℕ} {f : Node → Node} {node' : SimNode}
    (at_m : (l.modify n fun node => { node with node := f node.node })[m]? = some node') :
    ∃ node, l[m]? = some node ∧ ((m = n ∧ node'.node = f node.node) ∨ (m ≠ n ∧ node' = node)) := by
  rw [List.getElem?_modify] at at_m
  obtain ⟨node, found, same⟩ := Option.map_eq_some_iff.mp at_m
  refine ⟨node, found, ?_⟩
  by_cases here : n = m
  · rw [if_pos here] at same
    exact .inl ⟨here.symm, congrArg SimNode.node same.symm⟩
  · rw [if_neg here] at same
    exact .inr ⟨fun f => here f.symm, same.symm⟩

theorem Phased.inNode {r : Stopping} (h : Phased r) {n : ℕ} {c c' : Caller} {f : Node → Node}
    (here : r.point = .node n c)
    (inside : c' ≠ .free) : Phased { r.moveNode n f with point := .node n c' } := by
  have length : (r.moveNode n f).sim.nodes.length = r.sim.nodes.length := List.length_modify ..
  have clears : cleared r.sim.nodes.length (.node n c') = n + 1 := by
    cases c' with
    | free => exact absurd rfl inside
    | closing | closingAcks | joining => rfl
  have cleared_le : cleared r.sim.nodes.length r.point ≤ n + 1 := by
    rw [here]
    cases c <;> simp [cleared]
  refine h.onto rfl rfl rfl (by rw [here]; exact fun f => nomatch f) (fun f => nomatch f) ?_ ?_ ?_
  · intro m node' at_m later
    change cleared (r.moveNode n f).sim.nodes.length (.node n c') ≤ m at later
    rw [length, clears] at later
    obtain ⟨node, found, ⟨rfl, -⟩ | ⟨-, rfl⟩⟩ := node_modify at_m
    · omega
    · exact h.up m node' found (by omega)
  · intro m node' at_m before
    have inside : m < n := before
    obtain ⟨node, found, ⟨rfl, -⟩ | ⟨-, rfl⟩⟩ := node_modify at_m
    · omega
    · refine h.gone m node' found ?_
      rw [here]
      exact inside
  · exact fun f => f.elim

theorem Phased.stop_relayer {r : Stopping} (h : Phased r) {k : ℕ} {c : Caller} (here : r.point = .relayer k c) :
    Phased r.stop := by
  cases c with
  | free =>
    simp only [Stopping.stop, here]
    split
    · exact h.relayers (.inr ⟨k, .free, here⟩) (.inr rfl) rfl rfl rfl rfl
    · split
      · exact h.relayers (.inr ⟨k, .free, here⟩) (.inl ⟨k, .closing, rfl⟩) rfl rfl rfl rfl
      · exact h.relayers (.inr ⟨k, .free, here⟩) (.inl ⟨k + 1, .free, rfl⟩) rfl rfl rfl rfl
  | closing =>
    simp only [Stopping.stop, here]
    exact h.relayers (.inr ⟨k, .closing, here⟩) (.inl ⟨k, .closingAcks, rfl⟩) rfl rfl rfl rfl
  | closingAcks =>
    simp only [Stopping.stop, here]
    exact h.relayers (.inr ⟨k, .closingAcks, here⟩) (.inl ⟨k, .joining, rfl⟩) rfl rfl rfl rfl
  | joining =>
    simp only [Stopping.stop, here]
    split
    · exact h
    · split
      · exact h.relayers (.inr ⟨k, .joining, here⟩) (.inl ⟨k + 1, .free, rfl⟩) rfl rfl rfl rfl
      · exact h

theorem Phased.stop_node {r : Stopping} (h : Phased r) {n : ℕ} {c : Caller} (here : r.point = .node n c) :
    Phased r.stop := by
  have begun : r.point ≠ .notCalled := by
    rw [here]
    exact fun f => nomatch f
  cases c with
  | free =>
    simp only [Stopping.stop, here]
    split
    · rename_i outside
      -- the last node has been joined
      refine h.onto rfl rfl rfl begun (fun f => nomatch f) ?_ ?_ ?_
      · intro m node at_m later
        have inside := (List.getElem?_eq_some_iff.mp at_m).1
        exact absurd inside (Nat.not_lt.mpr later)
      · intro m node at_m inside
        refine h.gone m node at_m ?_
        rw [here]
        exact Nat.lt_of_lt_of_le inside (List.getElem?_eq_none_iff.mp outside)
      · exact fun f => f.elim
    · rename_i node at_n
      split
      · exact h.inNode here (by decide)
      · rename_i idle
        refine absurd (h.up n node at_n ?_) idle
        rw [here]
        exact Nat.le_refl n
  | closing =>
    simp only [Stopping.stop, here]
    exact h.inNode here (by decide)
  | closingAcks =>
    simp only [Stopping.stop, here]
    exact h
  | joining =>
    simp only [Stopping.stop, here]
    split
    · exact h
    · rename_i node at_n
      split
      · rename_i returned
        refine h.onward begun (fun f => nomatch f) ?_ ?_ ?_
        · rw [here]
          exact Nat.le_refl (n + 1)
        · rw [here]
          intro m node' at_m before later
          obtain rfl : m = n := Nat.le_antisymm (Nat.le_of_lt_succ before) later
          obtain rfl : node = node' := Option.some.inj (at_n.symm.trans at_m)
          exact returned
        · exact fun f => f.elim
      · exact h

theorem Phased.atEnd {r r' : Stopping} (h : Phased r) (before : r.point = .draining ∨ Drained r.point)
    (after : Drained r'.point) (nodes : r'.sim.nodes = r.sim.nodes) (numbers : r'.taskNumbers = r.taskNumbers)
    (sent : r'.sent = r.sent) (mark : r'.sentBefore = r.sentBefore) (drained : ∀ id ∈ r.taskNumbers, ¬ Early r id) :
    Phased r' := by
  have all {point : StopPoint} (late : point = .draining ∨ Drained point) (count : ℕ) :
      point ≠ .notCalled ∧ cleared count point = count ∧ joined count point = count := by
    cases point with
    | draining | shuttingDown | notifying | worker | returned => exact ⟨by rintro ⟨⟩, rfl, rfl⟩
    | notCalled | traffic | relayer | node => rcases late with f | f <;> cases f
  obtain ⟨begun, clears, joins⟩ := all before r.sim.nodes.length
  obtain ⟨begun', clears', joins'⟩ := all (.inr after) r.sim.nodes.length
  refine h.onto numbers sent mark begun begun' ?_ ?_ fun _ => drained
  · rw [nodes]
    exact fun m node at_m later => h.up m node at_m (by omega)
  · rw [nodes]
    exact fun m node at_m inside => h.gone m node at_m (by omega)

theorem phased_stop {r : Stopping} (h : Phased r) (sized : Sized (ledger r)) : Phased r.stop := by
  cases here : r.point with
  | notCalled =>
    simp only [Stopping.stop, here]
    refine ⟨fun m node at_m _ => ?_, fun m node at_m none => ?_, fun f => ?_, fun c hc => ?_, ?_⟩
    · refine h.up m node at_m ?_
      rw [here]
      exact Nat.zero_le m
    · exact absurd none (Nat.not_lt_zero m)
    · exact f.elim
    · exact Nat.le_of_eq (Option.some.inj hc).symm
    · exact ⟨(fun f => nomatch f), (fun f => nomatch f)⟩
  | traffic =>
    simp only [Stopping.stop, here]
    exact h.relayers (.inl here) (.inl ⟨0, .free, rfl⟩) rfl rfl rfl rfl
  | relayer k c => exact h.stop_relayer here
  | node n c => exact h.stop_node here
  | draining =>
    simp only [Stopping.stop, here]
    split
    · rename_i empty
      have none : r.taskNumbers = [] := by
        have tasks : r.taskNumbers.length = r.sim.transport.tasks.length := sized.tasks
        rw [empty] at tasks
        exact List.length_eq_zero_iff.mp tasks
      refine h.atEnd (.inl here) trivial rfl rfl rfl rfl ?_
      rw [none]
      exact fun id hid => nomatch hid
    · exact h
  | shuttingDown | notifying =>
    have late : Drained r.point := by rw [here]; trivial
    simp only [Stopping.stop, here]
    exact h.atEnd (.inr late) trivial rfl rfl rfl rfl (h.drained late)
  | worker w =>
    have late : Drained r.point := by rw [here]; trivial
    simp only [Stopping.stop, here]
    split
    · exact h.atEnd (.inr late) trivial rfl rfl rfl rfl (h.drained late)
    · split
      · exact h.atEnd (.inr late) trivial rfl rfl rfl rfl (h.drained late)
      · exact h
  | returned =>
    simp only [Stopping.stop, here]
    exact h

theorem phased_act {r : Stopping} (h : Phased r) (sized : Sized (ledger r)) (i : StopInput) : Phased (r.act i) := by
  by_cases other : i = .stop
  · subst other
    exact phased_stop h sized
  · exact phased_other h sized other

end InterchainCommunication.StopPhases
