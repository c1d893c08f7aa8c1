import InterchainCommunication.SimulationSteps
import InterchainCommunication.TokenTrails
import InterchainCommunication.TransactionTraffic
import InterchainCommunication.UniqueWiring

set_option autoImplicit false

namespace InterchainCommunication.TransactionMoves
open ListUpdates StringText CoreTypes MachineRuns PacketCodec BlockchainModel QueueAndBus NodeModel NodeSteps NodeText
open RelayerModel SimulationModel SimulationWiring SimulationSteps UniqueWiring LoopBackCounting TransactionWire
open TokenTrails TransactionTraffic

inductive Station
  | inHand (stage : Stage)
  | inFlight
  | inInbox
  | received
  | lost
  deriving DecidableEq

/-- None before the transaction is made. -/
abbrev Place := Option (Station × Ticket)

def Station.holds : Station → Bool
  | received | lost => false
  | _ => true

def Station.lines : Station → ℕ
  | inHand .made => 0
  | inHand .created | inHand .pooled => 1
  | inHand .submitted | inFlight | inInbox | lost => 2
  | received => 3

/-- The names of the chain and of the node with a number. -/
def desk (s : Sim) (n : ℕ) : Bytes × Bytes :=
  match s.nodes[n]? with
  | none => ([], [])
  | some node => (Job.chainName s node.chain, node.node.nodeId)

/-- All lines that are ever written of a transaction. -/
def life (desk : ℕ → Bytes × Bytes) (k : Ticket) : List Logged :=
  [.of .created k.tx [] [], .of .submitted k.tx (desk k.sender).1 (desk k.sender).2,
    .of .received k.tx (desk k.sender).1 (desk k.sender).2]

def course (desk : ℕ → Bytes × Bytes) : Course Bytes Place Logged where
  holds
    | none => false
    | some (st, _) => st.holds
  trail _
    | none => []
    | some (st, k) => (life desk k).take st.lines
  key e := e.txId

def entry (st : Station) (k : Ticket) : Bytes × Place := (k.tx.txId, some (st, k))

def handEntries (gen : Generator) : List (Bytes × Place) :=
  match gen.hand with
  | none => []
  | some (stage, k) => [entry (.inHand stage) k]

def flightEntries (endpoints : Bytes → Option ℕ) (task : Bytes × Bytes) : List (Bytes × Place) :=
  match endpoints task.1 with
  | none => []
  | some n => (readBack task.2).toList.map fun tx => entry .inFlight ⟨tx, n⟩

def messageEntries (n : ℕ) (msg : NodeMessage) : List (Bytes × Place) :=
  (reads msg).toList.map fun tx => entry .inInbox ⟨tx, n⟩

def inboxEntries (endpoints : Bytes → Option ℕ) (node : SimNode) : List (Bytes × Place) :=
  match endpoints node.node.address with
  | none => []
  | some n => node.node.inbox.q.flatMap (messageEntries n)

def carried (s : Sim) : List (Bytes × Place) :=
  s.transport.tasks.flatMap (flightEntries s.transport.endpoints) ++
    s.nodes.flatMap (inboxEntries s.transport.endpoints)

def custody (r : TrafficRun) : List (Bytes × Place) := r.generators.flatMap handEntries ++ carried r.sim

def offices (s : Sim) : List (Bytes × Bytes × ℕ) := s.nodes.map fun n => (n.node.nodeId, n.node.address, n.chain)

def InboxesOpen (s : Sim) : Prop := ∀ node ∈ s.nodes, node.node.inbox.closed = false

/-- Nodes and endpoints stay, and no inbox is closed. -/
structure Stands (s s' : Sim) : Prop where
  offices : offices s' = offices s
  endpoints : s'.transport.endpoints = s.transport.endpoints
  inboxes : InboxesOpen s → InboxesOpen s'

inductive Way (i : SimInput) : Station → Station → Prop
  | delivered : Way i .inFlight .inInbox
  | lost (k : ℕ) (loses : i = .lose k) : Way i .inFlight .lost
  | received : Way i .inInbox .received

/-- What one step does to the transactions that are carried, and what it logs of them. -/
inductive Carriage (desk : ℕ → Bytes × Bytes) (i : SimInput) (s s' : Sim) : List Logged → Prop
  | still (same : ∀ e, copies e (carried s') = copies e (carried s)) : Carriage desk i s s' []
  | moved (st st' : Station) (k : Ticket) (way : Way i st st')
      (count : ∀ e, copies e (carried s') + copies e [entry st k] =
        copies e (carried s) + copies e ((course desk).kept k.tx.txId (some (st', k))))
      (logged : List Logged) (writes : (life desk k).take st'.lines = (life desk k).take st.lines ++ logged) :
      Carriage desk i s s' logged

theorem stands_refl (s : Sim) : Stands s s := ⟨rfl, rfl, id⟩

theorem carriage_refl (desk : ℕ → Bytes × Bytes) (i : SimInput) (s : Sim) : Carriage desk i s s [] := .still fun _ => rfl

section Frame

theorem react_frame (e : Event) (x : Sim × List Effect) (h : Handler) :
    (Sim.react e x h).1.nodes = x.1.nodes ∧ (Sim.react e x h).1.transport = x.1.transport := by
  cases h <;> (unfold Sim.react; dsimp only; split <;> exact ⟨rfl, rfl⟩)

theorem foldl_react_frame (e : Event) (hs : List Handler) (x : Sim × List Effect) :
    (hs.foldl (Sim.react e) x).1.nodes = x.1.nodes ∧ (hs.foldl (Sim.react e) x).1.transport = x.1.transport := by
  induction hs generalizing x with
  | nil => exact ⟨rfl, rfl⟩
  | cons h hs ih =>
    obtain ⟨nodes, transport⟩ := react_frame e x h
    exact ⟨(ih _).1.trans nodes, (ih _).2.trans transport⟩

theorem foldl_publish_frame (es : List Event) (x : Sim × List Effect) :
    (es.foldl Sim.publish x).1.nodes = x.1.nodes ∧ (es.foldl Sim.publish x).1.transport = x.1.transport := by
  induction es generalizing x with
  | nil => exact ⟨rfl, rfl⟩
  | cons e es ih =>
    obtain ⟨nodes, transport⟩ := foldl_react_frame e (x.1.bus.handlers e.kind) x
    exact ⟨(ih _).1.trans nodes, (ih _).2.trans transport⟩

theorem absorb_frame (s : Sim) (c : ℕ) (b : Blockchain) (calls : List (ChainOp × ChainReply)) (effects : List Effect) :
    (s.absorb c b calls effects).1.nodes = s.nodes ∧ (s.absorb c b calls effects).1.transport = s.transport :=
  foldl_publish_frame (published effects) _

theorem stands_of_frame {s s' : Sim} (nodes : s'.nodes = s.nodes)
    (endpoints : s'.transport.endpoints = s.transport.endpoints) : Stands s s' := by
  refine ⟨?_, endpoints, fun all node hnode => all node (nodes ▸ hnode)⟩
  unfold offices
  rw [nodes]

theorem carried_of_frame {s s' : Sim} (nodes : s'.nodes = s.nodes) (transport : s'.transport = s.transport) :
    carried s' = carried s := by
  unfold carried
  rw [nodes, transport]

theorem stands_set {s s' : Sim} {n : ℕ} {node : SimNode} (hn : s.nodes[n]? = some node) {moved : Node}
    (nodes : s'.nodes = s.nodes.set n { node with node := moved })
    (endpoints : s'.transport.endpoints = s.transport.endpoints) (name : moved.nodeId = node.node.nodeId)
    (address : moved.address = node.node.address) (closed : moved.inbox.closed = node.node.inbox.closed) :
    Stands s s' := by
  refine ⟨?_, endpoints, fun all x hx => ?_⟩
  · unfold offices
    rw [nodes, List.map_set, name, address]
    exact set_same (by rw [List.getElem?_map, hn]; rfl)
  · rw [nodes] at hx
    rcases List.mem_or_eq_of_mem_set hx with old | rfl
    · exact all x old
    · exact closed.trans (all node (List.mem_of_getElem? hn))

theorem copies_carried_set {s s' : Sim} {n : ℕ} {node : SimNode} (indexed : Indexed s.transport.endpoints s.nodes)
    (hn : s.nodes[n]? = some node) {moved : Node} (nodes : s'.nodes = s.nodes.set n { node with node := moved })
    (endpoints : s'.transport.endpoints = s.transport.endpoints) (address : moved.address = node.node.address)
    (e : Bytes × Place) :
    copies e (carried s') + copies e (s.transport.tasks.flatMap (flightEntries s.transport.endpoints)) +
        copies e (node.node.inbox.q.flatMap (messageEntries n)) =
      copies e (carried s) + copies e (s'.transport.tasks.flatMap (flightEntries s.transport.endpoints)) +
        copies e (moved.inbox.q.flatMap (messageEntries n)) := by
  have leads : s.transport.endpoints node.node.address = some n := (indexed _ n).mpr ⟨node, hn, rfl⟩
  have before : inboxEntries s.transport.endpoints node = node.node.inbox.q.flatMap (messageEntries n) := by
    unfold inboxEntries
    rw [leads]
  have later : inboxEntries s.transport.endpoints { node with node := moved } =
      moved.inbox.q.flatMap (messageEntries n) := by
    unfold inboxEntries
    dsimp only
    rw [address, leads]
  have changed := copies_flatMap_set hn { node with node := moved } (inboxEntries s.transport.endpoints) e
  rw [before, later] at changed
  unfold carried
  rw [nodes, endpoints, copies_append, copies_append]
  omega

end Frame

section Steps
variable {s : Sim}

theorem readBack_relayed {name : Bytes} (plain : pipe ∉ name) (text : Bytes) :
    readBack (serializeNodeMessage ⟨name, .ibc, text⟩) = none := by
  have kind : stoi (intText NodeMessageKind.ibc.toInt) = .ok NodeMessageKind.ibc.toInt := by decide
  have read := @deserialize_serialize_message ⟨name, .ibc, text⟩ plain kind
  unfold readBack
  rw [read]
  rfl

theorem flightEntries_relayed {name : Bytes} (plain : pipe ∉ name) (endpoints : Bytes → Option ℕ) {task : Bytes × Bytes}
    {text : Bytes} (posted : task.2 = serializeNodeMessage ⟨name, .ibc, text⟩) : flightEntries endpoints task = [] := by
  unfold flightEntries
  rw [posted, readBack_relayed plain]
  cases endpoints task.1 <;> rfl

theorem sendIBC_carries (s : Sim) (c : ℕ) (op : ChainOp) :
    Stands s (s.sendIBC c op).1 ∧ carried (s.sendIBC c op).1 = carried s := by
  unfold Sim.sendIBC
  cases s.chains[c]? with
  | none => exact ⟨stands_refl s, rfl⟩
  | some b =>
    obtain ⟨nodes, transport⟩ := absorb_frame s c (b.call op).chain [(op, (b.call op).ret)] (b.call op).effects
    exact ⟨stands_of_frame nodes (by rw [transport]), carried_of_frame nodes transport⟩

theorem forward_carries {half : Relayer → Transport → Relayer × Transport × List Effect} {r : ℕ}
    (posts : ∀ rel, s.relayers[r]? = some rel → ∃ task : Option (Bytes × Bytes),
      (half rel s.transport).2.1 = { s.transport with tasks := s.transport.tasks ++ task.toList } ∧
        ∀ x, task = some x → flightEntries s.transport.endpoints x = []) :
    Stands s (s.forward r half).1 ∧ ∀ e, copies e (carried (s.forward r half).1) = copies e (carried s) := by
  unfold Sim.forward
  cases hr : s.relayers[r]? with
  | none => exact ⟨stands_refl s, fun _ => rfl⟩
  | some rel =>
    obtain ⟨task, sent, foreign⟩ := posts rel hr
    dsimp only
    rw [sent]
    refine ⟨stands_of_frame rfl rfl, fun e => ?_⟩
    have nothing : task.toList.flatMap (flightEntries s.transport.endpoints) = [] := by
      cases task with
      | none => rfl
      | some x =>
        rw [Option.toList_some, List.flatMap_singleton]
        exact foreign x rfl
    unfold carried
    dsimp only
    rw [List.flatMap_append, nothing, List.append_nil]

theorem forwardPacket_carries (sound : Sound (wiring s)) (r : ℕ) (drops : Drops) :
    let next := s.forward r fun rel t => rel.forwardPacket t drops
    Stands s next.1 ∧ ∀ e, copies e (carried next.1) = copies e (carried s) := by
  refine forward_carries fun rel hr => ?_
  have plain := sound.names _ (List.mem_map_of_mem (List.mem_of_getElem? hr))
  rcases rel.forwardPacket_cases s.transport drops with ⟨-, still⟩ | ⟨pkt, rest, task, relayed, failures, st, -, posted, moved⟩
  · rw [still]
    exact ⟨none, by simp, by rintro x ⟨⟩⟩
  · rw [moved]
    exact ⟨task, rfl, fun x there => flightEntries_relayed plain _ (posted x there).2⟩

theorem forwardAck_carries (sound : Sound (wiring s)) (r : ℕ) (drops : Drops) :
    let next := s.forward r fun rel t => rel.forwardAck t drops
    Stands s next.1 ∧ ∀ e, copies e (carried next.1) = copies e (carried s) := by
  refine forward_carries fun rel hr => ?_
  have plain := sound.names _ (List.mem_map_of_mem (List.mem_of_getElem? hr))
  rcases rel.forwardAck_cases s.transport drops with ⟨-, still⟩ | ⟨ack, rest, task, relayed, failures, st, -, posted, moved⟩
  · rw [still]
    exact ⟨none, by simp, by rintro x ⟨⟩⟩
  · rw [moved]
    exact ⟨task, rfl, fun x there => flightEntries_relayed plain _ (posted x there).2⟩

theorem copies_carried_eraseIdx {k : ℕ} {task : Bytes × Bytes} (hk : s.transport.tasks[k]? = some task)
    (e : Bytes × Place) :
    copies e (carried { s with transport := { s.transport with tasks := s.transport.tasks.eraseIdx k } }) +
        copies e (flightEntries s.transport.endpoints task) = copies e (carried s) := by
  have taken := copies_flatMap_eraseIdx hk (flightEntries s.transport.endpoints) e
  unfold carried
  dsimp only
  rw [copies_append, copies_append]
  omega

theorem lose_carries (desk : ℕ → Bytes × Bytes) (k : ℕ) :
    Stands s (s.lose k) ∧ Carriage desk (.lose k) s (s.lose k) [] := by
  refine ⟨stands_of_frame rfl rfl, ?_⟩
  unfold Sim.lose
  cases hk : s.transport.tasks[k]? with
  | none =>
    have outside := List.getElem?_eq_none_iff.mp hk
    refine .still fun e => ?_
    rw [List.eraseIdx_of_length_le outside]
  | some task =>
    have count := copies_carried_eraseIdx hk
    have empty (none_there : flightEntries s.transport.endpoints task = []) :
        Carriage desk (.lose k) s { s with transport := { s.transport with tasks := s.transport.tasks.eraseIdx k } } [] := by
      refine .still fun e => ?_
      have here := count e
      rw [none_there, copies_nil] at here
      exact here
    cases leads : s.transport.endpoints task.1 with
    | none => exact empty (by unfold flightEntries; rw [leads])
    | some n =>
      cases read : readBack task.2 with
      | none => exact empty (by unfold flightEntries; rw [leads, read]; rfl)
      | some tx =>
        have flight : flightEntries s.transport.endpoints task = [entry .inFlight ⟨tx, n⟩] := by
          unfold flightEntries
          rw [leads, read]
          rfl
        refine .moved .inFlight .lost ⟨tx, n⟩ (.lost k rfl) (fun e => ?_) [] (List.append_nil _).symm
        have here := count e
        rw [flight] at here
        simpa [Course.kept, course, Station.holds] using here

theorem deliver_carries (indexed : Indexed s.transport.endpoints s.nodes) (inboxes : InboxesOpen s)
    (desk : ℕ → Bytes × Bytes) (k : ℕ) :
    Stands s (s.deliver k).1 ∧ Carriage desk (.deliver k) s (s.deliver k).1 [] := by
  unfold Sim.deliver
  cases hk : s.transport.tasks[k]? with
  | none => exact ⟨stands_refl s, carriage_refl desk _ s⟩
  | some task =>
    dsimp only
    have count := copies_carried_eraseIdx hk
    cases leads : s.transport.endpoints task.1 with
    | none =>
      refine ⟨stands_of_frame rfl rfl, .still fun e => ?_⟩
      have flight : flightEntries s.transport.endpoints task = [] := by
        unfold flightEntries
        rw [leads]
      have here := count e
      rw [flight, copies_nil] at here
      exact here
    | some n =>
      obtain ⟨node, hn, -⟩ := (indexed _ n).mp leads
      have flight : flightEntries s.transport.endpoints task =
          (readBack task.2).toList.map fun tx => entry .inFlight ⟨tx, n⟩ := by
        unfold flightEntries
        rw [leads]
      dsimp only
      rw [hn]
      have taken (e : Bytes × Place) := copies_flatMap_eraseIdx hk (flightEntries s.transport.endpoints) e
      cases read : deserializeNodeMessage task.2 with
      | error err =>
        have nothing : readBack task.2 = none := by
          unfold readBack
          rw [read]
          rfl
        have refused : node.node.onBytes task.2 = (node.node, (node.node.onBytes task.2).2) := by
          rcases onBytes_cases node.node task.2 with ⟨msg, read', -⟩ | ⟨text, got⟩
          · rw [read] at read'
            cases read'
          · rw [got]
        dsimp only
        rw [refused]
        refine ⟨stands_set hn rfl rfl rfl rfl rfl, .still fun e => ?_⟩
        have here := count e
        rw [flight, nothing, Option.toList_none, List.map_nil, copies_nil] at here
        rw [← here]
        dsimp only
        rw [show s.nodes.set n { node with node := node.node } = s.nodes from set_same hn]
        rfl
      | ok msg =>
        have back : readBack task.2 = reads msg := by
          unfold readBack
          rw [read]
          rfl
        have got : node.node.onBytes task.2 =
            ({ node.node with inbox := { node.node.inbox with q := node.node.inbox.q ++ [msg] } }, []) := by
          rcases onBytes_cases node.node task.2 with ⟨msg', read', -, got⟩ | ⟨text, got⟩
          · rw [read] at read'
            obtain rfl := Except.ok.inj read'
            exact got
          · have pushed : (deserializeNodeMessage task.2 >>= node.node.inbox.push) = node.node.inbox.push msg := by
              rw [read]
              rfl
            unfold Node.onBytes
            rw [pushed, ConcurrentQueue.push_open (inboxes node (List.mem_of_getElem? hn))]
        dsimp only
        rw [got]
        refine ⟨stands_set hn rfl rfl rfl rfl rfl, ?_⟩
        have put (e : Bytes × Place) := @copies_carried_set s { s with
          transport := { s.transport with tasks := s.transport.tasks.eraseIdx k }
          nodes := s.nodes.set n { node with
            node := { node.node with inbox := { node.node.inbox with q := node.node.inbox.q ++ [msg] } } } }
          n node indexed hn _ rfl rfl rfl e
        cases which : reads msg with
        | none =>
          refine .still fun e => ?_
          have here := put e
          have gone := taken e
          rw [flight, back, which, Option.toList_none, List.map_nil, copies_nil] at gone
          rw [List.flatMap_append, List.flatMap_singleton, messageEntries, which, Option.toList_none, List.map_nil,
            List.append_nil] at here
          dsimp only at here ⊢
          omega
        | some tx =>
          refine .moved .inFlight .inInbox ⟨tx, n⟩ .delivered (fun e => ?_) [] (List.append_nil _).symm
          have here := put e
          have gone := taken e
          rw [flight, back, which, Option.toList_some, List.map_singleton] at gone
          rw [List.flatMap_append, List.flatMap_singleton, messageEntries, which, Option.toList_some,
            List.map_singleton, copies_append] at here
          have kept : (course desk).kept tx.txId (some (.inInbox, ⟨tx, n⟩)) = [entry .inInbox ⟨tx, n⟩] := rfl
          rw [kept]
          dsimp only at here ⊢
          omega

def addedBy (call : ChainOp × ChainReply) : List Transaction :=
  match call.1 with
  | .addTransaction tx => [tx]
  | _ => []

theorem handled_adds (opens : Bool) (nodeId : Bytes) (b : Blockchain) (msg : NodeMessage) :
    (handleMessage opens nodeId b msg).calls.flatMap addedBy = (reads msg).toList := by
  by_cases kind : msg.kind = .transaction
  · have branch : handleMessage opens nodeId b msg = handleTransaction opens nodeId b msg.bytes := by
      simp only [handleMessage, kind]
    rw [branch, handleTransaction_eq]
    unfold reads
    rw [if_pos kind]
    cases fields : cutTransaction msg.bytes with
    | none => rfl
    | some fields' =>
      obtain ⟨sender, recipient, payload, type, txId⟩ := fields'
      dsimp only
      cases number : stoi type with
      | error e => rfl
      | ok v =>
        dsimp only
        rw [(snapshot_frame _ opens nodeId).2.1]
        rfl
  · have nothing : reads msg = none := by
      unfold reads
      rw [if_neg kind]
    rw [nothing]
    rcases handleMessage_does opens nodeId b msg with idle | ⟨op, requests, does⟩
    · rw [idle.calls]
      rfl
    · rw [does.calls]
      cases op with
      | addTransaction tx => exact absurd requests kind
      | openChannel | closeChannel | sendIBC | onIBCPacket | onIBCAck | appendBlock | registerNodeId | drain => rfl

theorem receivedIn_nodeStep {n : ℕ} {node : SimNode} (hn : s.nodes[n]? = some node)
    (calls : List (ChainOp × ChainReply)) :
    receivedIn s (calls.map fun call => (node.chain, call)) (.nodeStep n) =
      (calls.flatMap addedBy).map fun tx => .of .received tx (desk s n).1 (desk s n).2 := by
  have here : desk s n = (Job.chainName s node.chain, node.node.nodeId) := by
    unfold desk
    rw [hn]
  rw [here]
  unfold receivedIn
  induction calls with
  | nil => rfl
  | cons call calls ih =>
    dsimp only at ih ⊢
    rw [List.map_cons, List.flatMap_cons, ih, List.flatMap_cons, List.map_append, hn]
    obtain ⟨op, reply⟩ := call
    cases op <;> rfl

theorem nodeStep_carries (indexed : Indexed s.transport.endpoints s.nodes) (n : ℕ) :
    Stands s (s.nodeStep n).1 ∧ Carriage (desk s) (.nodeStep n) s (s.nodeStep n).1
      (receivedIn s (s.nodeStep n).2.calls (.nodeStep n)) := by
  unfold Sim.nodeStep
  cases hn : s.nodes[n]? with
  | none => exact ⟨stands_refl s, carriage_refl _ _ s⟩
  | some node =>
    dsimp only
    cases hb : s.chains[node.chain]? with
    | none => exact ⟨stands_refl s, carriage_refl _ _ s⟩
    | some b =>
      dsimp only
      -- another inbox, and calls on the chain that reach no node and no task
      have stands (s' : Sim) (moved : Node) (name : moved.nodeId = node.node.nodeId)
          (address : moved.address = node.node.address) (closed : moved.inbox.closed = node.node.inbox.closed)
          (nodes : s'.nodes = s.nodes.set n { node with node := moved }) (transport : s'.transport = s.transport) :
          Stands s s' ∧ ∀ e, copies e (carried s') + copies e (node.node.inbox.q.flatMap (messageEntries n)) =
            copies e (carried s) + copies e (moved.inbox.q.flatMap (messageEntries n)) := by
        refine ⟨stands_set hn nodes (by rw [transport]) name address closed, fun e => ?_⟩
        have changed := copies_carried_set indexed hn nodes (by rw [transport]) address e
        rw [transport] at changed
        omega
      rcases loopStep_cases node.node b with ⟨msg, rest, -, hq, moved⟩ | ⟨w, moved, -⟩
      · rw [moved]
        dsimp only
        let done := handleMessage node.node.stateFileOpens node.node.nodeId b msg
        let moved₁ : Node := { node.node with
          inbox := { node.node.inbox with q := rest }
          worker := .after done.thrown }
        let s₁ : Sim := { s with nodes := s.nodes.set n { node with node := moved₁ } }
        obtain ⟨nodes, transport⟩ := absorb_frame s₁ node.chain done.chain done.calls done.effects
        obtain ⟨stand, change⟩ := stands _ moved₁ rfl rfl rfl nodes transport
        refine ⟨stand, ?_⟩
        have lines := receivedIn_nodeStep hn done.calls
        rw [handled_adds] at lines
        change Carriage (desk s) (.nodeStep n) s _
          (receivedIn s (done.calls.map fun call => (node.chain, call)) (.nodeStep n))
        rw [lines]
        rw [hq, List.flatMap_cons, messageEntries] at change
        cases which : reads msg with
        | none =>
          refine .still fun e => ?_
          have here := change e
          rw [which, Option.toList_none, List.map_nil, List.nil_append] at here
          exact Nat.add_right_cancel here
        | some tx =>
          refine .moved .inInbox .received ⟨tx, n⟩ .received (fun e => ?_) _ rfl
          have here := change e
          rw [which, Option.toList_some, List.map_singleton, copies_append] at here
          have gone : (course (desk s)).kept tx.txId (some (.received, ⟨tx, n⟩)) = [] := rfl
          rw [gone, copies_nil]
          change _ = _ + copies e (rest.flatMap (messageEntries n)) at here
          change copies e (carried (s₁.absorb node.chain done.chain done.calls done.effects).1) + _ = _
          omega
      · rw [moved]
        dsimp only
        let moved₁ : Node := { node.node with worker := w }
        obtain ⟨stand, change⟩ := stands { s with nodes := s.nodes.set n { node with node := moved₁ } } moved₁
          rfl rfl rfl rfl rfl
        exact ⟨stand, .still fun e => Nat.add_right_cancel (change e)⟩

/-- The step lemma. Unless a message is repeated, a step of the simulation keeps the offices, and moves
    at most one transaction. -/
theorem step_carries (sound : Sound (wiring s)) (indexed : Indexed s.transport.endpoints s.nodes)
    (inboxes : InboxesOpen s) (i : SimInput) (once : ∀ k, i ≠ .duplicate k) :
    Stands s (simMachine.step s i).1 ∧ Carriage (desk s) i s (simMachine.step s i).1
      (receivedIn s (simMachine.step s i).2.calls i) := by
  have silent : receivedIn s [] i = [] := by cases i <;> rfl
  change Stands s (if s.crashed then (s, ⟨[], []⟩) else s.act i).1 ∧ Carriage (desk s) i s
    (if s.crashed then (s, ⟨[], []⟩) else s.act i).1 (receivedIn s (if s.crashed then (s, ⟨[], []⟩) else s.act i).2.calls i)
  split
  · rw [silent]
    exact ⟨stands_refl s, carriage_refl _ _ s⟩
  · cases i with
    | sendIBC c port chan dstChain dstPort dstChan payload =>
      obtain ⟨stand, same⟩ := sendIBC_carries s c (.sendIBC port chan dstChain dstPort dstChan payload)
      exact ⟨stand, .still fun e => congrArg (copies e) same⟩
    | forwardPacket r drops =>
      obtain ⟨stand, same⟩ := forwardPacket_carries sound r drops
      exact ⟨stand, .still same⟩
    | forwardAck r drops =>
      obtain ⟨stand, same⟩ := forwardAck_carries sound r drops
      exact ⟨stand, .still same⟩
    | deliver k => exact deliver_carries indexed inboxes (desk s) k
    | lose k => exact lose_carries (desk s) k
    | duplicate k => exact absurd rfl (once k)
    | nodeStep n => exact nodeStep_carries indexed n

end Steps

end InterchainCommunication.TransactionMoves
