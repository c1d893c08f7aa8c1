import InterchainCommunication.LinkDelivery

set_option autoImplicit false

namespace InterchainCommunication.InOrderAcceptance
open StringText CoreTypes MachineRuns PacketCodec ChannelSequencing BlockchainModel BlockchainSteps
open ChainHistory OrderedDelivery LinkDelivery

def sentOn (key : Bytes) (e : ChainOp × ChainReply) : Option IBCPacket :=
  match e.1 with
  | .sendIBC port chan _ _ _ _ => if makeChannelKey port chan = key then sentPacket e else none
  | _ => none

def handedOn (key : Bytes) (e : ChainOp × ChainReply) : Option IBCPacket :=
  match e.1 with
  | .onIBCPacket pkt => if makeChannelKey pkt.dstPort pkt.dstChannel = key then some pkt else none
  | _ => none

def acceptedOn (key : Bytes) (e : ChainOp × ChainReply) : Option IBCPacket :=
  if (handedOn key e).isSome then acceptedPacket e else none

def numberAt (b : Blockchain) (key : Bytes) : UInt64 := ((b.channels key).map (·.nextSeq)).getD 1

theorem resolve_number (b : Blockchain) (port : PortId) (chan : ChannelId) :
    (resolve b port chan).nextSeq = numberAt b (makeChannelKey port chan) := by
  unfold numberAt resolve
  cases b.channels (makeChannelKey port chan) <;> rfl

/-- What a call can do to the number of a channel, beside what it sends, is handed and accepts there. -/
inductive Use (before : UInt64) : UInt64 → Option IBCPacket → Option IBCPacket → Option IBCPacket → Prop
  | idle : Use before before none none none
  | sends (pkt : IBCPacket) (next : pkt.sequence = before) : Use before (before + 1) (some pkt) none none
  | accepts (pkt : IBCPacket) (next : pkt.sequence = before) :
      Use before (before + 1) none (some pkt) (some pkt)
  | refuses (pkt : IBCPacket) (other : pkt.sequence ≠ before) : Use before before none (some pkt) none

theorem call_use {b : Blockchain} (h : AllOpen b) (op : ChainOp) (key : Bytes) :
    let e := (op, (b.call op).ret)
    Use (numberAt b key) (numberAt (b.call op).chain key) (sentOn key e) (handedOn key e) (acceptedOn key e) := by
  intro e
  rcases touches_or_off op key with ⟨⟨port, chan⟩, names, rfl⟩ | off
  · have after := channels_call h names
    have number : numberAt (b.call op).chain (makeChannelKey port chan) =
        ((written b op).map (·.nextSeq)).getD (numberAt b (makeChannelKey port chan)) := by
      rw [numberAt, after, numberAt]
      cases written b op <;> rfl
    rw [number]
    cases op with
    | openChannel port' chan' =>
      obtain ⟨rfl, rfl⟩ := Prod.mk.inj (Option.some.inj names)
      cases bound : b.router.isBound port' chan' with
      | true =>
        simp only [written, bound]
        exact .idle
      | false =>
        simp only [written, bound]
        have same : (opened (resolve b port' chan')).nextSeq = numberAt b (makeChannelKey port' chan') :=
          resolve_number b port' chan'
        change Use _ (opened (resolve b port' chan')).nextSeq none none none
        rw [same]
        exact .idle
    | closeChannel port' chan' => exact .idle
    | sendIBC port' chan' dstChain dstPort dstChan payload =>
      obtain ⟨rfl, rfl⟩ := Prod.mk.inj (Option.some.inj names)
      have sent : sentOn (makeChannelKey port' chan') e =
          some ((resolve b port' chan').packet dstChain dstPort dstChan payload) := by
        change (if _ then sentPacket e else none) = _
        rw [if_pos rfl]
        exact sentPacket_sendIBC h ..
      have spent : (advanced (resolve b port' chan')).nextSeq = numberAt b (makeChannelKey port' chan') + 1 :=
        congrArg (· + 1) (resolve_number b port' chan')
      rw [sent]
      change Use _ (advanced (resolve b port' chan')).nextSeq _ none none
      rw [spent]
      exact .sends _ (resolve_number b port' chan')
    | onIBCPacket pkt =>
      obtain ⟨rfl, rfl⟩ := Prod.mk.inj (Option.some.inj names)
      have same := resolve_number b pkt.dstPort pkt.dstChannel
      have handed : handedOn (makeChannelKey pkt.dstPort pkt.dstChannel) e = some pkt := if_pos rfl
      have accepted : acceptedOn (makeChannelKey pkt.dstPort pkt.dstChannel) e =
          if pkt.sequence = (resolve b pkt.dstPort pkt.dstChannel).nextSeq then some pkt else none := by
        rw [acceptedOn, handed]
        exact acceptedPacket_onIBCPacket h pkt
      rw [handed, accepted]
      by_cases next : pkt.sequence = (resolve b pkt.dstPort pkt.dstChannel).nextSeq
      · have spent : (advanced (resolve b pkt.dstPort pkt.dstChannel)).nextSeq =
            numberAt b (makeChannelKey pkt.dstPort pkt.dstChannel) + 1 := congrArg (· + 1) same
        simp only [written, if_pos next]
        change Use _ (advanced (resolve b pkt.dstPort pkt.dstChannel)).nextSeq none _ _
        rw [spent]
        exact .accepts pkt (next.trans same)
      · have kept : (opened (resolve b pkt.dstPort pkt.dstChannel)).nextSeq =
            numberAt b (makeChannelKey pkt.dstPort pkt.dstChannel) := same
        simp only [written, if_neg next]
        change Use _ (opened (resolve b pkt.dstPort pkt.dstChannel)).nextSeq none _ _
        rw [kept]
        exact .refuses pkt fun other => next (other.trans same.symm)
    | onIBCAck | appendBlock | registerNodeId | addTransaction | drain => cases names
  · have same : numberAt (b.call op).chain key = numberAt b key := by
      rw [numberAt, call_channels_other h off, numberAt]
    have none_sent : sentOn key e = none := by
      cases op with
      | sendIBC port chan => exact if_neg (off port chan rfl)
      | openChannel | closeChannel | onIBCPacket | onIBCAck | appendBlock | registerNodeId | addTransaction
      | drain => rfl
    have none_handed : handedOn key e = none := by
      cases op with
      | onIBCPacket pkt => exact if_neg (off pkt.dstPort pkt.dstChannel rfl)
      | openChannel | closeChannel | sendIBC | onIBCAck | appendBlock | registerNodeId | addTransaction
      | drain => rfl
    have none_accepted : acceptedOn key e = none := by
      rw [acceptedOn, none_handed]
      rfl
    rw [same, none_sent, none_handed, none_accepted]
    exact .idle

theorem range_succ_sequences (n : ℕ) :
    (List.range (n + 1)).map sequenceAt = (List.range n).map sequenceAt ++ [sequenceAt n] := by
  rw [List.range_succ, List.map_append, List.map_singleton]

/-- A channel that only receives, with its number and what it was handed and accepted so far. -/
structure Receiving (number : UInt64) (handed accepted : List IBCPacket) : Prop where
  expected : number = sequenceAt accepted.length
  taken : accepted.length = advance sequenceAt 0 (handed.map (·.sequence))
  numbers : accepted.map (·.sequence) = (List.range accepted.length).map sequenceAt

theorem Receiving.use {number after : UInt64} {handed accepted : List IBCPacket} {x y : Option IBCPacket}
    (h : Receiving number handed accepted) (use : Use number after none x y) :
    Receiving after (handed ++ x.toList) (accepted ++ y.toList) := by
  obtain ⟨expected, taken, numbers⟩ := h
  cases use with
  | idle =>
    rw [Option.toList_none, List.append_nil, List.append_nil]
    exact ⟨expected, taken, numbers⟩
  | accepts pkt next =>
    have grown : (accepted ++ [pkt]).length = accepted.length + 1 := List.length_append
    constructor
    · rw [Option.toList_some, grown, sequenceAt_succ, ← expected]
    · rw [Option.toList_some, grown, List.map_append, List.map_singleton, advance_concat, ← taken, next, expected,
        if_pos rfl]
    · rw [Option.toList_some, grown, range_succ_sequences, List.map_append, numbers, List.map_singleton, next,
        expected]
  | refuses pkt other =>
    rw [Option.toList_none, List.append_nil]
    refine ⟨expected, ?_, numbers⟩
    rw [Option.toList_some, List.map_append, List.map_singleton, advance_concat, ← taken,
      if_neg (expected ▸ other)]

/-- A channel that only sends, with its number and what it sent so far. -/
structure Sending (number : UInt64) (sent : List IBCPacket) : Prop where
  next : number = sequenceAt sent.length
  numbers : sent.map (·.sequence) = (List.range sent.length).map sequenceAt

theorem Sending.use {number after : UInt64} {sent : List IBCPacket} {x y : Option IBCPacket}
    (h : Sending number sent) (use : Use number after x none y) : Sending after (sent ++ x.toList) := by
  obtain ⟨next, numbers⟩ := h
  cases use with
  | idle =>
    rw [Option.toList_none, List.append_nil]
    exact ⟨next, numbers⟩
  | sends pkt same =>
    have grown : (sent ++ [pkt]).length = sent.length + 1 := List.length_append
    constructor
    · rw [Option.toList_some, grown, sequenceAt_succ, ← next]
    · rw [Option.toList_some, grown, range_succ_sequences, List.map_append, numbers, List.map_singleton, same, next]

/-- Of the numbers from one on, those accepted are the ones that were handed in, each after
    the ones before it. -/
theorem Receiving.accepted_iff {number : UInt64} {handed accepted : List IBCPacket}
    (h : Receiving number handed accepted) (n : ℕ) :
    ((List.range n).map sequenceAt).Sublist (handed.map (·.sequence)) ↔ n ≤ accepted.length := by
  rw [List.range_eq_range', labels_sublist_iff, Nat.zero_add, h.taken]

section Chains
variable {key : Bytes}

def OnlyReceives (key : Bytes) (ops : List ChainOp) : Prop :=
  ∀ port chan dstChain dstPort dstChan payload,
    .sendIBC port chan dstChain dstPort dstChan payload ∈ ops → makeChannelKey port chan ≠ key

theorem sentOn_none {op : ChainOp} {reply : ChainReply}
    (quiet : ∀ port chan dstChain dstPort dstChan payload,
      op = .sendIBC port chan dstChain dstPort dstChan payload → makeChannelKey port chan ≠ key) :
    sentOn key (op, reply) = none := by
  cases op with
  | sendIBC port chan dstChain dstPort dstChan payload => exact if_neg (quiet _ _ _ _ _ _ rfl)
  | openChannel | closeChannel | onIBCPacket | onIBCAck | appendBlock | registerNodeId | addTransaction
  | drain => rfl

theorem receives_run (chainId : Bytes) (ops : List ChainOp) (receiving : OnlyReceives key ops) :
    let run := callsOf (chainMachine.trace (.new chainId) ops)
    Receiving (numberAt (chainMachine.final (.new chainId) ops) key) (run.filterMap (handedOn key))
      (run.filterMap (acceptedOn key)) := by
  intro run
  have start : Receiving (numberAt (.new chainId) key) [] [] := ⟨rfl, rfl, rfl⟩
  refine (chainMachine.history_invariant (I := fun b t => AllOpen b ∧ Receiving (numberAt b key)
    ((callsOf t).filterMap (handedOn key)) ((callsOf t).filterMap (acceptedOn key))) ops
    ⟨allOpen_new chainId, start⟩ ?_).2
  rintro b t op hop ⟨allOpen, before⟩
  have use := call_use allOpen op key
  have none_sent : sentOn key (op, (b.call op).ret) = none :=
    sentOn_none fun port chan dstChain dstPort dstChan payload same =>
      receiving port chan dstChain dstPort dstChan payload (same ▸ hop)
  dsimp only at use
  rw [none_sent] at use
  refine ⟨call_allOpen allOpen op, ?_⟩
  rw [callsOf, List.map_append, List.filterMap_append, List.filterMap_append]
  have step (f : ChainOp × ChainReply → Option IBCPacket) :
      ([(op, (chainMachine.step b op).2)].map fun e => (e.1, e.2.1)).filterMap f =
        (f (op, (b.call op).ret)).toList := filterMap_concat f [] (op, (b.call op).ret)
  rw [step, step]
  exact before.use use

/-- A channel that only receives accepts exactly the numbers handed in with none missing
    before them, in order. -/
theorem accepts_longest_front (chainId : Bytes) (ops : List ChainOp) (port : PortId) (chan : ChannelId)
    (receiving : OnlyReceives (makeChannelKey port chan) ops) :
    let run := callsOf (chainMachine.trace (.new chainId) ops)
    let handed := run.filterMap (handedOn (makeChannelKey port chan))
    let accepted := run.filterMap (acceptedOn (makeChannelKey port chan))
    accepted.map (·.sequence) = (List.range accepted.length).map sequenceAt ∧
      ∀ n, ((List.range n).map sequenceAt).Sublist (handed.map (·.sequence)) ↔ n ≤ accepted.length := by
  intro run handed accepted
  have all := receives_run chainId ops receiving
  exact ⟨all.numbers, all.accepted_iff⟩

def earlySecond : List ChainOp :=
  [2, 1, 3].map fun n => .onIBCPacket ⟨.data, lit "S", lit "D", ⟨lit "p"⟩, ⟨lit "c"⟩, ⟨lit "q"⟩, ⟨lit "d"⟩, n, []⟩

theorem accepts_longest_front_early :
    let run := callsOf (chainMachine.trace (.new (lit "D")) earlySecond)
    let accepted := run.filterMap (acceptedOn (makeChannelKey ⟨lit "q"⟩ ⟨lit "d"⟩))
    1 ≤ accepted.length ∧ ¬ 2 ≤ accepted.length := by
  have front := (accepts_longest_front (lit "D") earlySecond ⟨lit "q"⟩ ⟨lit "d"⟩ (by simp [OnlyReceives, earlySecond])).2
  exact ⟨(front 1).mp (by decide), fun both => absurd ((front 2).mpr both) (by decide)⟩

end Chains

end InterchainCommunication.InOrderAcceptance
