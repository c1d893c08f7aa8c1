import InterchainCommunication.Restarting

set_option autoImplicit false

/-!
# What a relayer does with the items it queued

The loop takes an item from its queue, hands it to the transport, and then
counts the answer. Anything else may happen between these, so each is a step.
-/
namespace InterchainCommunication.RelayerAccounting
open StringText CoreTypes MachineRuns PacketCodec QueueAndBus RelayerModel ComponentLife Restarting

/-- The two halves of the loop body. -/
inductive Half
  | packets
  | acks
  deriving DecidableEq

namespace Half

def queue : Half → Relayer → ConcurrentQueue IBCPacket
  | packets, r => r.pendingPackets
  | acks, r => r.pendingAcks

def setQueue : Half → Relayer → ConcurrentQueue IBCPacket → Relayer
  | packets, r, queue => { r with pendingPackets := queue }
  | acks, r, queue => { r with pendingAcks := queue }

def relay : Half → Relayer → Transport → IBCPacket → Drops → Transport × Status
  | packets => Relayer.relayPacket
  | acks => Relayer.relayAck

def relayed : Half → Relayer → UInt64
  | packets, r => r.packetsRelayed
  | acks, r => r.acksRelayed

/-- The counter that goes up. Both halves count their failures in `failures_`. -/
def count : Half → Bool → Relayer → Relayer
  | packets, true, r => { r with packetsRelayed := r.packetsRelayed + 1 }
  | acks, true, r => { r with acksRelayed := r.acksRelayed + 1 }
  | _, false, r => { r with failures := r.failures + 1 }

def onEvent : Half → Relayer → Event → Relayer × List Effect
  | packets => Relayer.onIBCPacketSendEvent
  | acks => Relayer.onIBCAckSendEvent

def next : Half → RelayerPoint
  | packets => .atAcks
  | acks => .atTest

end Half

/-- The half whose queue the loop looks at. -/
def halfAt : RelayerPoint → Option Half
  | .atPackets => some .packets
  | .atAcks => some .acks
  | .idle | .atTest | .returned => none

/-- What the loop holds: an item it took, or the answer for it. -/
inductive Hand
  | empty
  | holds (k : Half) (pkt : IBCPacket)
  | sent (k : Half) (s : Status)
  deriving DecidableEq

structure RelayerWork where
  life : RelayerLife
  hand : Hand

inductive WorkInput
  | owner (o : OwnerStep)
  | event (k : Half) (e : Event)
  | connectChainMailbox (chainId address : Bytes)
  /-- what the other users of the transport make of it -/
  | network (t : Transport)
  | loop (drops : Drops)

inductive WorkEvent
  /-- what a handler put into its queue -/
  | queued (k : Half) (items : List IBCPacket)
  | sent (k : Half) (pkt : IBCPacket) (s : Status)
  | counted (k : Half) (ok : Bool)

namespace RelayerWork

def heard (r : RelayerWork) (k : Half) (e : Event) : RelayerWork × Option WorkEvent :=
  let relayer := (k.onEvent r.life.relayer e).1
  ({ r with life := { r.life with relayer := relayer } },
    some (.queued k ((k.queue relayer).q.drop (k.queue r.life.relayer).q.length)))

def take (r : RelayerWork) (k : Half) : RelayerWork :=
  match (k.queue r.life.relayer).tryPop with
  | (_, none) => { r with life := { r.life with worker := k.next } }
  | (queue, some pkt) =>
    ⟨{ r.life with relayer := k.setQueue r.life.relayer queue }, .holds k pkt⟩

def loop (r : RelayerWork) (drops : Drops) : RelayerWork × Option WorkEvent :=
  match r.hand with
  | .holds k pkt =>
    let sent := k.relay r.life.relayer r.life.transport pkt drops
    (⟨{ r.life with transport := sent.1 }, .sent k sent.2⟩, some (.sent k pkt sent.2))
  | .sent k s =>
    (⟨{ r.life with relayer := k.count s.ok r.life.relayer, worker := k.next }, .empty⟩, some (.counted k s.ok))
  | .empty =>
    match halfAt r.life.worker with
    | some k => (r.take k, none)
    | none => ({ r with life := r.life.loop drops }, none)

end RelayerWork

def relayerWork : Machine RelayerWork WorkInput (Option WorkEvent) where
  step r
    | .owner o => ({ r with life := (r.life.owner o).1 }, none)
    | .event k e => r.heard k e
    | .connectChainMailbox chainId address =>
      ({ r with life := { r.life with relayer := r.life.relayer.connectChainMailbox chainId address } }, none)
    | .network t => ({ r with life := { r.life with transport := t } }, none)
    | .loop drops => r.loop drops

def newWork (name : Bytes) (t : Transport) : RelayerWork := ⟨newRelayer name t, .empty⟩

section Tally

def queuedItems (k : Half) (t : List (WorkInput × Option WorkEvent)) : List IBCPacket :=
  t.flatMap fun
    | (_, some (.queued k' items)) => if k' = k then items else []
    | _ => []

/-- The items handed to `relayPacket` or `relayAck`, each with the answer. -/
def sentItems (k : Half) (t : List (WorkInput × Option WorkEvent)) : List (IBCPacket × Status) :=
  t.flatMap fun
    | (_, some (.sent k' pkt s)) => if k' = k then [(pkt, s)] else []
    | _ => []

def countedAnswers (k : Half) (t : List (WorkInput × Option WorkEvent)) : List Bool :=
  t.flatMap fun
    | (_, some (.counted k' ok)) => if k' = k then [ok] else []
    | _ => []

def Hand.holding (k : Half) : Hand → List IBCPacket
  | .holds k' pkt => if k' = k then [pkt] else []
  | _ => []

def Hand.uncounted (k : Half) : Hand → List Bool
  | .sent k' s => if k' = k then [s.ok] else []
  | _ => []

/-- What the two counters of a half owe to the run so far. -/
structure Tallied (k : Half) (r : RelayerWork) (t : List (WorkInput × Option WorkEvent)) : Prop where
  order : queuedItems k t = (sentItems k t).map Prod.fst ++ r.hand.holding k ++ (k.queue r.life.relayer).q
  answers : (sentItems k t).map (fun x => x.2.ok) = countedAnswers k t ++ r.hand.uncounted k
  relayed : k.relayed r.life.relayer = UInt64.ofNat ((countedAnswers k t).count true)

def failed (k : Half) (t : List (WorkInput × Option WorkEvent)) : ℕ := (countedAnswers k t).count false

/-- Both halves, and the counter they share. -/
structure Balanced (r : RelayerWork) (t : List (WorkInput × Option WorkEvent)) : Prop where
  halves : ∀ k, Tallied k r t
  failures : r.life.relayer.failures = UInt64.ofNat (failed .packets t + failed .acks t)

variable {r : RelayerWork} {t : List (WorkInput × Option WorkEvent)}

theorem queuedItems_concat (k : Half) (t : List (WorkInput × Option WorkEvent)) (i : WorkInput) (e : Option WorkEvent) :
    queuedItems k (t ++ [(i, e)]) = queuedItems k t ++ queuedItems k [(i, e)] := List.flatMap_append

theorem sentItems_concat (k : Half) (t : List (WorkInput × Option WorkEvent)) (i : WorkInput) (e : Option WorkEvent) :
    sentItems k (t ++ [(i, e)]) = sentItems k t ++ sentItems k [(i, e)] := List.flatMap_append

theorem countedAnswers_concat (k : Half) (t : List (WorkInput × Option WorkEvent)) (i : WorkInput)
    (e : Option WorkEvent) : countedAnswers k (t ++ [(i, e)]) = countedAnswers k t ++ countedAnswers k [(i, e)] :=
  List.flatMap_append

theorem nothing_concat (k : Half) (t : List (WorkInput × Option WorkEvent)) (i : WorkInput) :
    queuedItems k (t ++ [(i, none)]) = queuedItems k t ∧ sentItems k (t ++ [(i, none)]) = sentItems k t ∧
      countedAnswers k (t ++ [(i, none)]) = countedAnswers k t := by
  rw [queuedItems_concat, sentItems_concat, countedAnswers_concat]
  exact ⟨List.append_nil _, List.append_nil _, List.append_nil _⟩

theorem balanced_quiet (h : Balanced r t) {r' : RelayerWork} (i : WorkInput) (hand : r'.hand = r.hand)
    (queues : ∀ k : Half, (k.queue r'.life.relayer).q = (k.queue r.life.relayer).q)
    (counters : (∀ k : Half, k.relayed r'.life.relayer = k.relayed r.life.relayer) ∧
      r'.life.relayer.failures = r.life.relayer.failures) : Balanced r' (t ++ [(i, none)]) := by
  constructor
  · intro k
    obtain ⟨queued, sent, counted⟩ := nothing_concat k t i
    constructor
    · rw [queued, sent, hand, queues]
      exact (h.halves k).order
    · rw [sent, counted, hand]
      exact (h.halves k).answers
    · rw [counted, counters.1]
      exact (h.halves k).relayed
  · rw [counters.2, failed, failed, (nothing_concat .packets t i).2.2, (nothing_concat .acks t i).2.2]
    exact h.failures

@[simp] theorem queue_setQueue (k : Half) (r : Relayer) (q : ConcurrentQueue IBCPacket) :
    k.queue (k.setQueue r q) = q := by
  cases k <;> rfl

theorem queue_setQueue_other {k k' : Half} (other : k' ≠ k) (r : Relayer) (q : ConcurrentQueue IBCPacket) :
    k'.queue (k.setQueue r q) = k'.queue r := by
  cases k with
  | packets =>
    cases k' with
    | packets => exact absurd rfl other
    | acks => rfl
  | acks =>
    cases k' with
    | packets => rfl
    | acks => exact absurd rfl other

@[simp] theorem relayed_setQueue (k k' : Half) (r : Relayer) (q : ConcurrentQueue IBCPacket) :
    k'.relayed (k.setQueue r q) = k'.relayed r := by
  cases k <;> cases k' <;> rfl

@[simp] theorem failures_setQueue (k : Half) (r : Relayer) (q : ConcurrentQueue IBCPacket) :
    (k.setQueue r q).failures = r.failures := by
  cases k <;> rfl

@[simp] theorem queue_count (k k' : Half) (ok : Bool) (r : Relayer) : k'.queue (k.count ok r) = k'.queue r := by
  cases k <;> cases k' <;> cases ok <;> rfl

theorem relayed_count (k k' : Half) (ok : Bool) (r : Relayer) : k'.relayed (k.count ok r) =
    k'.relayed r + UInt64.ofNat ((if k = k' then [ok] else []).count true) := by
  cases k <;> cases k' <;> cases ok <;> simp [Half.relayed, Half.count]

theorem failures_count (k : Half) (ok : Bool) (r : Relayer) :
    (k.count ok r).failures = r.failures + UInt64.ofNat ([ok].count false) := by
  cases k <;> cases ok <;> simp [Half.count]

theorem onEvent_adds (k : Half) (r : Relayer) (e : Event) :
    ∃ items, (k.onEvent r e).1 = k.setQueue r { k.queue r with q := (k.queue r).q ++ items } := by
  cases k with
  | packets => exact r.onIBCPacketSendEvent_adds e
  | acks => exact r.onIBCAckSendEvent_adds e

theorem owner_relayer (life : RelayerLife) (o : OwnerStep) :
    (life.owner o).1.relayer = life.relayer ∨ (life.owner o).1.relayer = life.relayer.closePackets ∨
      (life.owner o).1.relayer = life.relayer.closeAcks := by
  unfold RelayerLife.owner
  split
  · split <;> exact .inl rfl
  · split <;> exact .inl rfl
  · exact .inr (.inl rfl)
  · exact .inr (.inr rfl)
  · split <;> exact .inl rfl
  · exact .inl rfl

theorem balanced_owner (h : Balanced r t) (o : OwnerStep) :
    Balanced { r with life := (r.life.owner o).1 } (t ++ [(.owner o, none)]) := by
  refine balanced_quiet h (.owner o) ?_ ?_ ?_
  · rfl
  · intro k
    rcases owner_relayer r.life o with same | closed | closed
    · exact congrArg (fun relayer => (k.queue relayer).q) same
    · rw [closed]
      cases k <;> rfl
    · rw [closed]
      cases k <;> rfl
  · rcases owner_relayer r.life o with same | closed | closed
    · rw [same]
      exact ⟨fun _ => rfl, rfl⟩
    · rw [closed]
      exact ⟨fun k => by cases k <;> rfl, rfl⟩
    · rw [closed]
      exact ⟨fun k => by cases k <;> rfl, rfl⟩

theorem balanced_heard (h : Balanced r t) (k : Half) (e : Event) :
    Balanced (r.heard k e).1 (t ++ [(.event k e, (r.heard k e).2)]) := by
  obtain ⟨items, added⟩ := onEvent_adds k r.life.relayer e
  have shown : (r.heard k e).2 = some (.queued k items) := by
    rw [RelayerWork.heard, added, queue_setQueue, List.drop_left]
  have relayer : (r.heard k e).1.life.relayer =
      k.setQueue r.life.relayer { k.queue r.life.relayer with q := (k.queue r.life.relayer).q ++ items } := added
  have uncounted (k' : Half) : countedAnswers k' (t ++ [(.event k e, some (.queued k items))]) = countedAnswers k' t :=
    (countedAnswers_concat k' t _ _).trans (List.append_nil _)
  rw [shown]
  constructor
  · intro k'
    constructor
    · rw [queuedItems_concat, sentItems_concat, (h.halves k').order, relayer]
      by_cases same : k' = k
      · subst same
        simp [queuedItems, sentItems, RelayerWork.heard]
      · rw [queue_setQueue_other same]
        have other : ¬ k = k' := fun e => same e.symm
        simp [queuedItems, sentItems, RelayerWork.heard, other]
    · rw [sentItems_concat, uncounted]
      simpa [sentItems, RelayerWork.heard] using (h.halves k').answers
    · rw [uncounted, relayer, relayed_setQueue]
      exact (h.halves k').relayed
  · rw [failed, failed, uncounted, uncounted, relayer, failures_setQueue]
    exact h.failures

theorem balanced_take (h : Balanced r t) (empty : r.hand = .empty) (k : Half) (i : WorkInput) :
    Balanced (r.take k) (t ++ [(i, none)]) := by
  cases waiting : (k.queue r.life.relayer).q with
  | nil =>
    have moved : r.take k = { r with life := { r.life with worker := k.next } } := by
      simp [RelayerWork.take, ConcurrentQueue.tryPop, waiting]
    rw [moved]
    exact balanced_quiet h i rfl (fun _ => rfl) ⟨fun _ => rfl, rfl⟩
  | cons pkt rest =>
    let shorter : ConcurrentQueue IBCPacket := { k.queue r.life.relayer with q := rest }
    have moved : r.take k = ⟨{ r.life with relayer := k.setQueue r.life.relayer shorter }, .holds k pkt⟩ := by
      simp [RelayerWork.take, ConcurrentQueue.tryPop, waiting, shorter]
    rw [moved]
    constructor
    · intro k'
      obtain ⟨queued, sent, counted⟩ := nothing_concat k' t i
      have order := (h.halves k').order
      have answers := (h.halves k').answers
      rw [empty] at order answers
      constructor
      · rw [queued, sent, order]
        by_cases same : k' = k
        · subst same
          simp [Hand.holding, waiting, shorter]
        · have other : ¬ k = k' := fun e => same e.symm
          simp [Hand.holding, queue_setQueue_other same, other]
      · rw [sent, counted, answers]
        rfl
      · rw [counted]
        exact (relayed_setQueue k k' _ _).trans (h.halves k').relayed
    · rw [failed, failed, (nothing_concat .packets t i).2.2, (nothing_concat .acks t i).2.2]
      exact (failures_setQueue k _ _).trans h.failures

theorem balanced_sent (h : Balanced r t) {k : Half} {pkt : IBCPacket} (holds : r.hand = .holds k pkt) (i : WorkInput)
    (transport : Transport) (s : Status) :
    Balanced ⟨{ r.life with transport := transport }, .sent k s⟩ (t ++ [(i, some (.sent k pkt s))]) := by
  have uncounted (k' : Half) : countedAnswers k' (t ++ [(i, some (.sent k pkt s))]) = countedAnswers k' t :=
    (countedAnswers_concat k' t _ _).trans (List.append_nil _)
  constructor
  · intro k'
    have order := (h.halves k').order
    have answers := (h.halves k').answers
    rw [holds] at order answers
    constructor
    · rw [queuedItems_concat, sentItems_concat, order]
      by_cases same : k = k'
      · simp [queuedItems, sentItems, Hand.holding, same]
      · simp [queuedItems, sentItems, Hand.holding, same]
    · rw [sentItems_concat, uncounted, List.map_append, answers]
      by_cases same : k = k'
      · simp [sentItems, Hand.uncounted, same]
      · simp [sentItems, Hand.uncounted, same]
    · rw [uncounted]
      exact (h.halves k').relayed
  · rw [failed, failed, uncounted, uncounted]
    exact h.failures

theorem balanced_counted (h : Balanced r t) {k : Half} {s : Status} (sent : r.hand = .sent k s) (i : WorkInput) :
    Balanced ⟨{ r.life with relayer := k.count s.ok r.life.relayer, worker := k.next }, .empty⟩
      (t ++ [(i, some (.counted k s.ok))]) := by
  have halves (k' : Half) : countedAnswers k' (t ++ [(i, some (.counted k s.ok))]) =
      countedAnswers k' t ++ if k = k' then [s.ok] else [] :=
    (countedAnswers_concat k' t _ _).trans (congrArg _ (List.append_nil _))
  constructor
  · intro k'
    have order := (h.halves k').order
    have answers := (h.halves k').answers
    rw [sent] at order answers
    constructor
    · rw [queuedItems_concat, sentItems_concat, order]
      simp [queuedItems, sentItems, Hand.holding]
    · rw [sentItems_concat, halves]
      simpa [sentItems, Hand.uncounted] using answers
    · rw [halves, relayed_count, (h.halves k').relayed, List.count_append, UInt64.ofNat_add]
  · have both : failed .packets (t ++ [(i, some (.counted k s.ok))]) +
        failed .acks (t ++ [(i, some (.counted k s.ok))]) =
        failed .packets t + failed .acks t + [s.ok].count false := by
      rw [failed, failed, halves, halves, List.count_append, List.count_append, failed, failed]
      cases k with
      | packets => simp only [if_true, reduceCtorEq, if_false, List.count_nil]; omega
      | acks => simp only [if_true, reduceCtorEq, if_false, List.count_nil]; omega
    rw [both, failures_count, h.failures, UInt64.ofNat_add (failed .packets t + failed .acks t)]

theorem balanced_step (h : Balanced r t) (i : WorkInput) :
    Balanced (relayerWork.step r i).1 (t ++ [(i, (relayerWork.step r i).2)]) := by
  cases i with
  | owner o => exact balanced_owner h o
  | event k e => exact balanced_heard h k e
  | connectChainMailbox chainId address =>
    exact balanced_quiet h _ rfl (fun k => by cases k <;> rfl) ⟨fun k => by cases k <;> rfl, rfl⟩
  | network transport => exact balanced_quiet h _ rfl (fun _ => rfl) ⟨fun _ => rfl, rfl⟩
  | loop drops =>
    change Balanced (r.loop drops).1 (t ++ [(.loop drops, (r.loop drops).2)])
    unfold RelayerWork.loop
    split
    · rename_i k pkt holds
      exact balanced_sent h holds (.loop drops) _ _
    · rename_i k s sent
      exact balanced_counted h sent (.loop drops)
    · rename_i empty
      cases half : halfAt r.life.worker with
      | some k => exact balanced_take h empty k (.loop drops)
      | none =>
        have still : (r.life.loop drops).relayer = r.life.relayer := by
          unfold RelayerLife.loop
          cases at_ : r.life.worker with
          | atPackets | atAcks =>
            rw [at_] at half
            cases half
          | idle | atTest | returned => rfl
        refine balanced_quiet h (.loop drops) ?_ ?_ ?_
        · rfl
        · exact fun k => congrArg (fun relayer => (k.queue relayer).q) still
        · exact ⟨fun k => congrArg k.relayed still, congrArg Relayer.failures still⟩

theorem balanced_final (name : Bytes) (transport : Transport) (is : List WorkInput) :
    Balanced (relayerWork.final (newWork name transport) is) (relayerWork.trace (newWork name transport) is) := by
  refine relayerWork.history_invariant is ?_ fun _ _ i _ h => balanced_step h i
  constructor
  · intro k
    cases k <;> exact ⟨rfl, rfl, rfl⟩
  · rfl

end Tally

def okSends (k : Half) (t : List (WorkInput × Option WorkEvent)) : ℕ := (sentItems k t).countP fun x => x.2.ok

def failedSends (k : Half) (t : List (WorkInput × Option WorkEvent)) : ℕ := (sentItems k t).countP fun x => !x.2.ok

def relayedCount (k : Half) (t : List (WorkInput × Option WorkEvent)) : ℕ := (countedAnswers k t).count true

def Hand.inLoop (k : Half) (hand : Hand) : ℕ := (hand.holding k).length + (hand.uncounted k).length

/-- The books of a relayer, as numbers of items. An answer from the transport is booked in
    the next step of the loop. -/
structure Booked (r : RelayerWork) (t : List (WorkInput × Option WorkEvent)) : Prop where
  sends : ∀ k, (queuedItems k t).length =
    okSends k t + failedSends k t + (k.queue r.life.relayer).q.length + (r.hand.holding k).length
  counts : ∀ k, (queuedItems k t).length =
    relayedCount k t + failed k t + (k.queue r.life.relayer).q.length + r.hand.inLoop k
  booked : ∀ k, okSends k t = relayedCount k t + (r.hand.uncounted k).count true
  single : r.hand.inLoop .packets + r.hand.inLoop .acks ≤ 1
  order : ∀ k, (sentItems k t).map Prod.fst <+: queuedItems k t

def CountersExact (r : RelayerWork) (t : List (WorkInput × Option WorkEvent)) : Prop :=
  (∀ k : Half, (k.relayed r.life.relayer).toNat = relayedCount k t) ∧
    r.life.relayer.failures.toNat = failed .packets t + failed .acks t

theorem count_true_add_false (l : List Bool) : l.count true + l.count false = l.length := by
  induction l with
  | nil => rfl
  | cons b l ih => cases b <;> simp <;> omega

theorem countP_map_ok (l : List (IBCPacket × Status)) :
    (l.map fun x => x.2.ok).count true = l.countP (fun x => x.2.ok) ∧
      (l.map fun x => x.2.ok).count false = l.countP fun x => !x.2.ok := by
  constructor
  · rw [List.count, List.countP_map]
    exact List.countP_congr fun x _ => by simp
  · rw [List.count, List.countP_map]
    exact List.countP_congr fun x _ => by simp

theorem booked_of_balanced {r : RelayerWork} {t : List (WorkInput × Option WorkEvent)} (h : Balanced r t) :
    Booked r t := by
  have answers (k : Half) : okSends k t = relayedCount k t + (r.hand.uncounted k).count true ∧
      failedSends k t = failed k t + (r.hand.uncounted k).count false := by
    obtain ⟨oks, fails⟩ := countP_map_ok (sentItems k t)
    rw [(h.halves k).answers, List.count_append] at oks fails
    exact ⟨oks.symm, fails.symm⟩
  have lengths (k : Half) : (queuedItems k t).length =
      okSends k t + failedSends k t + (k.queue r.life.relayer).q.length + (r.hand.holding k).length := by
    have order := congrArg List.length (h.halves k).order
    have split := List.length_eq_countP_add_countP (fun x : IBCPacket × Status => x.2.ok) (l := sentItems k t)
    simp only [List.length_append, List.length_map] at order
    rw [okSends, failedSends]
    simp only [Bool.not_eq_true, Bool.decide_eq_false] at split
    omega
  refine ⟨lengths, fun k => ?_, fun k => (answers k).1, ?_, fun k => ?_⟩
  · have total := lengths k
    have uncounted := count_true_add_false (r.hand.uncounted k)
    rw [(answers k).1, (answers k).2] at total
    rw [Hand.inLoop]
    omega
  · cases r.hand with
    | empty => decide
    | holds k pkt => cases k <;> simp [Hand.inLoop, Hand.holding, Hand.uncounted]
    | sent k s => cases k <;> simp [Hand.inLoop, Hand.holding, Hand.uncounted]
  · rw [(h.halves k).order, List.append_assoc]
    exact List.prefix_append _ _

/-- Nothing a handler queued is lost or relayed out of order, and the counters hold the
    numbers as far as 64 bits go. -/
theorem relayer_accounting (name : Bytes) (transport : Transport) (is : List WorkInput) :
    let r := relayerWork.final (newWork name transport) is
    let t := relayerWork.trace (newWork name transport) is
    Booked r t ∧ (∀ k : Half, k.relayed r.life.relayer = UInt64.ofNat (relayedCount k t)) ∧
      r.life.relayer.failures = UInt64.ofNat (failed .packets t + failed .acks t) := by
  intro r t
  have balanced := balanced_final name transport is
  exact ⟨booked_of_balanced balanced, fun k => (balanced.halves k).relayed, balanced.failures⟩

section Wrap

def lostPacket : IBCPacket := ⟨.data, [], [], ⟨[]⟩, ⟨[]⟩, ⟨[]⟩, ⟨[]⟩, 1, []⟩

def failingRound : List WorkInput :=
  .event .packets ⟨.ibcPacketSend, [], [], serializeIBCPacket lostPacket⟩ :: List.replicate 5 (.loop ⟨false, false⟩)

def failing (failures : UInt64) : RelayerWork :=
  ⟨⟨{ Relayer.new [] with failures := failures }, .new, true, .atTest, .free⟩, .empty⟩

theorem failing_round (failures : UInt64) :
    relayerWork.final (failing failures) failingRound = failing (failures + 1) ∧
      countedAnswers .packets (relayerWork.trace (failing failures) failingRound) = [false] := by
  let relayer : Relayer := { Relayer.new [] with failures := failures, pendingPackets := ⟨[lostPacket], false⟩ }
  let e : Event := ⟨.ibcPacketSend, [], [], serializeIBCPacket lostPacket⟩
  have read : deserializeIBCPacket e.detail = .ok lostPacket :=
    deserialize_serialize lostPacket (stoi_type (.inl rfl))
  have data : lostPacket.type = .data := rfl
  have pushed : ((failing failures).life.relayer.onIBCPacketSendEvent e).1 = relayer := by
    simp only [Relayer.onIBCPacketSendEvent, read, data, if_true]
    rfl
  have heard : relayerWork.step (failing failures) (.event .packets e) =
      (⟨{ (failing failures).life with relayer := relayer }, .empty⟩, some (.queued .packets [lostPacket])) := by
    simp only [relayerWork, RelayerWork.heard, Half.onEvent, pushed]
    rfl
  rw [failingRound, Machine.final_cons, Machine.trace_cons, heard]
  exact ⟨rfl, rfl⟩

theorem failing_rounds (n : ℕ) (failures : UInt64) :
    (countedAnswers .packets (relayerWork.trace (failing failures)
      (List.replicate n failingRound).flatten)).count false = n := by
  induction n generalizing failures with
  | zero => rfl
  | succ n ih =>
    obtain ⟨after, shown⟩ := failing_round failures
    rw [List.replicate_succ, List.flatten_cons, Machine.trace_append, after]
    change (List.flatMap _ (_ ++ _)).count false = n + 1
    rw [List.flatMap_append, List.count_append]
    change (countedAnswers .packets _).count false + (countedAnswers .packets _).count false = n + 1
    rw [shown, ih, List.count_cons_self, List.count_nil, Nat.add_comm]

theorem failing_run (n : ℕ) : failed .packets (relayerWork.trace (newWork [] .new)
    (.owner .start :: (List.replicate n failingRound).flatten)) = n := by
  have started : relayerWork.step (newWork [] .new) (.owner .start) = (failing 0, none) := rfl
  rw [Machine.trace_cons, started]
  exact failing_rounds n 0

theorem failures_wrap : ¬ ∀ (name : Bytes) (transport : Transport) (is : List WorkInput),
    let r := relayerWork.final (newWork name transport) is
    let t := relayerWork.trace (newWork name transport) is
    Booked r t ∧ CountersExact r t := by
  intro h
  have lost := failing_run (2 ^ 64)
  generalize .owner .start :: (List.replicate (2 ^ 64) failingRound).flatten = is at lost
  have counted := (h [] .new is).2.2
  have small := (relayerWork.final (newWork [] .new) is).life.relayer.failures.toNat_lt
  omega

end Wrap

end InterchainCommunication.RelayerAccounting
