import InterchainCommunication.BlockchainSteps

set_option autoImplicit false

namespace InterchainCommunication.ChannelIndependence
open StringText CoreTypes MachineRuns ChannelSequencing BlockchainModel BlockchainSteps

abbrev ChannelPair := PortId × ChannelId

/-- What the calls on a pair returned, in order, each beside the call. -/
def answersOn (p : ChannelPair) (t : List (ChainOp × ChainReply × List Effect)) :
    List (ChainOp × ChainReply) :=
  (t.filter fun e => pair e.1 == some p).map fun e => (e.1, e.2.1)

/-- Operations on `q` change no answer on `p`, whatever else the run does. -/
def Independent (p q : ChannelPair) : Prop :=
  ∀ (chainId : Bytes) (ops : List ChainOp),
    answersOn p (chainMachine.trace (.new chainId) ops) =
      answersOn p (chainMachine.trace (.new chainId) (ops.filter fun op => pair op != some q))

/-- In a run that names no pair besides `p` and `q`, what is sent on `p` carries `p`. -/
def KeepsSource (p q : ChannelPair) : Prop :=
  ∀ (chainId : Bytes) (ops : List ChainOp),
    (∀ op ∈ ops, pair op = none ∨ pair op = some p ∨ pair op = some q) →
    ∀ dstChain dstPort dstChan payload,
      ∃ pkt, ((chainMachine.final (.new chainId) ops).sendIBC p.1 p.2 dstChain dstPort dstChan payload).ret
          = ⟨⟨.ok, []⟩, some pkt⟩ ∧ pkt.srcPort = p.1 ∧ pkt.srcChannel = p.2

/-- The states agree on everything but the pair `q` and the table entry under its key. -/
structure AgreeOff (q : ChannelPair) (b b' : Blockchain) : Prop where
  openLeft : AllOpen b
  openRight : AllOpen b'
  chainId : b.chainId = b'.chainId
  channels : ∀ key, key ≠ makeChannelKey q.1 q.2 → b.channels key = b'.channels key
  router : ∀ port chan, (port, chan) ≠ q → b.router.isBound port chan = b'.router.isBound port chan

namespace AgreeOff
variable {q : ChannelPair} {b b' : Blockchain}

theorem resolve (h : AgreeOff q b b') {p : ChannelPair}
    (hk : makeChannelKey p.1 p.2 ≠ makeChannelKey q.1 q.2) :
    BlockchainSteps.resolve b p.1 p.2 = BlockchainSteps.resolve b' p.1 p.2 := by
  unfold BlockchainSteps.resolve
  rw [h.channels _ hk, h.chainId]

theorem written (h : AgreeOff q b b') {op : ChainOp} {p : ChannelPair} (hop : pair op = some p)
    (hk : makeChannelKey p.1 p.2 ≠ makeChannelKey q.1 q.2) :
    BlockchainSteps.written b op = BlockchainSteps.written b' op := by
  have hp : p ≠ q := fun e => hk (by rw [e])
  have hr := h.resolve hk
  obtain ⟨port, chan⟩ := p
  cases op with
  | openChannel port' chan' =>
    obtain ⟨rfl, rfl⟩ : port' = port ∧ chan' = chan := by simpa [pair] using hop
    simp only [BlockchainSteps.written, h.router _ _ hp, hr]
  | sendIBC port' chan' dstChain dstPort dstChan payload =>
    obtain ⟨rfl, rfl⟩ : port' = port ∧ chan' = chan := by simpa [pair] using hop
    simp only [BlockchainSteps.written, hr]
  | onIBCPacket pkt =>
    obtain ⟨rfl, rfl⟩ : pkt.dstPort = port ∧ pkt.dstChannel = chan := by simpa [pair] using hop
    simp only [BlockchainSteps.written, hr]
  | closeChannel | onIBCAck | appendBlock | registerNodeId | addTransaction | drain => rfl

theorem drop (h : AgreeOff q b b') {op : ChainOp} (hop : pair op = some q) :
    AgreeOff q (b.call op).chain b' where
  openLeft := call_allOpen h.openLeft op
  openRight := h.openRight
  chainId := (call_chainId _ op).trans h.chainId
  channels key hk := by
    rw [call_channels_other h.openLeft fun port chan hpc => ?_]
    · exact h.channels key hk
    · obtain rfl : q = (port, chan) := by rw [hop] at hpc; exact Option.some.inj hpc
      exact hk.symm
  router port chan hpc := by
    rw [← h.router port chan hpc, Bool.eq_iff_iff, call_isBound h.openLeft]
    cases op with
    | openChannel port' chan' | closeChannel port' chan' =>
      have other : ¬(port = port' ∧ chan = chan') := by
        rintro ⟨rfl, rfl⟩
        exact hpc (Option.some.inj hop)
      simp [other]
    | sendIBC | onIBCPacket | onIBCAck | appendBlock | registerNodeId | addTransaction | drain => rfl

theorem both (h : AgreeOff q b b') (op : ChainOp) : AgreeOff q (b.call op).chain (b'.call op).chain where
  openLeft := call_allOpen h.openLeft op
  openRight := call_allOpen h.openRight op
  chainId := by rw [call_chainId, call_chainId, h.chainId]
  channels key hk := by
    cases hp : pair op with
    | none => rw [(call_channels_none hp).1, (call_channels_none hp).1, h.channels key hk]
    | some p =>
      by_cases same : makeChannelKey p.1 p.2 = key
      · have hkp : makeChannelKey p.1 p.2 ≠ makeChannelKey q.1 q.2 := by rw [same]; exact hk
        rw [call_channels h.openLeft hp, call_channels h.openRight hp, h.written hp hkp]
        cases BlockchainSteps.written b' op with
        | none => exact h.channels key hk
        | some ch => rw [same]; simp
      · have frame : ∀ port chan, pair op = some (port, chan) → makeChannelKey port chan ≠ key := by
          intro port chan hpc
          obtain rfl : p = (port, chan) := by rw [hp] at hpc; exact Option.some.inj hpc
          exact same
        rw [call_channels_other h.openLeft frame, call_channels_other h.openRight frame, h.channels key hk]
  router port chan hpc := by
    have now : b.router.isBound port chan = true ↔ b'.router.isBound port chan = true := by
      rw [h.router port chan hpc]
    rw [Bool.eq_iff_iff, call_isBound h.openLeft, call_isBound h.openRight]
    cases op with
    | openChannel | closeChannel => simp only [now]
    | sendIBC | onIBCPacket | onIBCAck | appendBlock | registerNodeId | addTransaction | drain => exact now

theorem answer (h : AgreeOff q b b') {op : ChainOp} {p : ChannelPair} (hop : pair op = some p)
    (hk : makeChannelKey p.1 p.2 ≠ makeChannelKey q.1 q.2) : (b.call op).ret = (b'.call op).ret := by
  have hp : p ≠ q := fun e => hk (by rw [e])
  have hr := h.resolve hk
  obtain ⟨port, chan⟩ := p
  have hb := h.router port chan hp
  cases op with
  | openChannel port' chan' =>
    obtain ⟨rfl, rfl⟩ : port' = port ∧ chan' = chan := by simpa [pair] using hop
    change ChainReply.status (b.openChannel port' chan').ret = .status (b'.openChannel port' chan').ret
    cases bound : b.router.isBound port' chan' with
    | true =>
      have bound' : b'.router.isBound port' chan' = true := hb ▸ bound
      simp [Blockchain.openChannel, IBCRouter.bind, bound, bound', Status.ok]
    | false =>
      rw [openChannel_unbound h.openLeft bound, openChannel_unbound h.openRight (hb ▸ bound)]
  | closeChannel port' chan' =>
    obtain ⟨rfl, rfl⟩ : port' = port ∧ chan' = chan := by simpa [pair] using hop
    change ChainReply.status (b.router.unbind port' chan').2 = .status (b'.router.unbind port' chan').2
    unfold IBCRouter.unbind
    rw [hb]
    split <;> rfl
  | sendIBC port' chan' dstChain dstPort dstChan payload =>
    obtain ⟨rfl, rfl⟩ : port' = port ∧ chan' = chan := by simpa [pair] using hop
    change ChainReply.packet (b.sendIBC port' chan' dstChain dstPort dstChan payload).ret =
      .packet (b'.sendIBC port' chan' dstChain dstPort dstChan payload).ret
    rw [sendIBC_eq h.openLeft, sendIBC_eq h.openRight, hr]
  | onIBCPacket pkt =>
    obtain ⟨rfl, rfl⟩ : pkt.dstPort = port ∧ pkt.dstChannel = chan := by simpa [pair] using hop
    change ChainReply.status (b.onIBCPacket pkt).ret = .status (b'.onIBCPacket pkt).ret
    by_cases hs : pkt.sequence = (BlockchainSteps.resolve b pkt.dstPort pkt.dstChannel).nextSeq
    · rw [onIBCPacket_accept h.openLeft hs, onIBCPacket_accept h.openRight (hr ▸ hs)]
    · rw [onIBCPacket_reject h.openLeft hs, onIBCPacket_reject h.openRight (hr ▸ hs)]
  | onIBCAck | appendBlock | registerNodeId | addTransaction | drain => simp [pair] at hop

end AgreeOff

theorem agreeOff_refl (q : ChannelPair) {b : Blockchain} (h : AllOpen b) : AgreeOff q b b :=
  ⟨h, h, rfl, fun _ _ => rfl, fun _ _ _ => rfl⟩

theorem independent_of_keys {p q : ChannelPair}
    (hk : makeChannelKey p.1 p.2 ≠ makeChannelKey q.1 q.2) : Independent p q := by
  intro chainId ops
  have hpq : p ≠ q := fun e => hk (by rw [e])
  apply chainMachine.erase_unobserved (AgreeOff q) (fun op => pair op != some q)
    (fun op => pair op == some p) Prod.fst
  · intro op hop
    have hop' : pair op = some p := by simpa using hop
    simpa [hop'] using hpq
  · intro b b' op h hop
    exact h.drop (by simpa using hop)
  · intro b b' op h _
    exact h.both op
  · intro b b' op h hop
    exact h.answer (by simpa using hop) hk
  · exact agreeOff_refl q (allOpen_new chainId)

/-- What is stored under the key of `p` was created for `p`. -/
def Owned (p : ChannelPair) (b : Blockchain) : Prop :=
  ∀ ch, b.channels (makeChannelKey p.1 p.2) = some ch → ch.port = p.1 ∧ ch.chan = p.2

theorem Owned.resolve {p : ChannelPair} {b : Blockchain} (h : Owned p b) :
    (resolve b p.1 p.2).port = p.1 ∧ (resolve b p.1 p.2).chan = p.2 := by
  unfold BlockchainSteps.resolve
  cases hc : b.channels (makeChannelKey p.1 p.2) with
  | none => exact ⟨rfl, rfl⟩
  | some ch => exact h ch hc

theorem written_ids {b : Blockchain} {op : ChainOp} {port : PortId} {chan : ChannelId} {ch : IBCChannel}
    (hop : pair op = some (port, chan)) (hw : written b op = some ch) :
    ch.port = (resolve b port chan).port ∧ ch.chan = (resolve b port chan).chan := by
  cases op with
  | openChannel port' chan' =>
    obtain ⟨rfl, rfl⟩ : port' = port ∧ chan' = chan := by simpa [pair] using hop
    simp only [written] at hw
    split at hw
    · exact absurd hw (by simp)
    · obtain rfl := Option.some.inj hw
      exact ⟨rfl, rfl⟩
  | sendIBC port' chan' dstChain dstPort dstChan payload =>
    obtain ⟨rfl, rfl⟩ : port' = port ∧ chan' = chan := by simpa [pair] using hop
    obtain rfl := Option.some.inj hw
    exact ⟨rfl, rfl⟩
  | onIBCPacket pkt =>
    obtain ⟨rfl, rfl⟩ : pkt.dstPort = port ∧ pkt.dstChannel = chan := by simpa [pair] using hop
    obtain rfl := Option.some.inj hw
    split <;> exact ⟨rfl, rfl⟩
  | closeChannel | onIBCAck | appendBlock | registerNodeId | addTransaction | drain =>
    simp [written] at hw

theorem owned_call {p : ChannelPair} {b : Blockchain} (hb : AllOpen b) (h : Owned p b) {op : ChainOp}
    (hop : ∀ r, pair op = some r → r = p ∨ makeChannelKey r.1 r.2 ≠ makeChannelKey p.1 p.2) :
    Owned p (b.call op).chain := by
  intro ch hch
  by_cases mine : pair op = some p
  · rw [call_channels hb mine] at hch
    cases hw : written b op with
    | none =>
      rw [hw] at hch
      exact h ch hch
    | some ch' =>
      rw [hw] at hch
      obtain rfl : ch' = ch := by simpa using hch
      obtain ⟨hport, hchan⟩ := written_ids mine hw
      exact ⟨hport.trans h.resolve.1, hchan.trans h.resolve.2⟩
  · rw [call_channels_other hb fun port chan hpc => ?_] at hch
    · exact h ch hch
    · rcases hop _ hpc with rfl | other
      · exact absurd hpc mine
      · exact other

theorem keepsSource_of_keys {p q : ChannelPair}
    (hk : makeChannelKey p.1 p.2 ≠ makeChannelKey q.1 q.2) : KeepsSource p q := by
  intro chainId ops named dstChain dstPort dstChan payload
  have start : AllOpen (.new chainId) ∧ Owned p (.new chainId) :=
    ⟨allOpen_new chainId, fun ch hch => by simp [Blockchain.new] at hch⟩
  have step : ∀ b op, op ∈ ops → AllOpen b ∧ Owned p b →
      AllOpen (b.call op).chain ∧ Owned p (b.call op).chain := by
    intro b op hop hb
    refine ⟨call_allOpen hb.1 op, owned_call hb.1 hb.2 fun r hr => ?_⟩
    rcases named op hop with none | mine | other
    · simp [none] at hr
    · exact .inl (Option.some.inj (hr.symm.trans mine))
    · obtain rfl : r = q := Option.some.inj (hr.symm.trans other)
      exact .inr hk.symm
  obtain ⟨hopen, howned⟩ := chainMachine.invariant (I := fun b => AllOpen b ∧ Owned p b) ops start step
  rw [sendIBC_eq hopen]
  exact ⟨_, rfl, howned.resolve⟩

theorem collision_breaks {p q : ChannelPair} (hpq : p ≠ q)
    (hk : makeChannelKey p.1 p.2 = makeChannelKey q.1 q.2) : ¬ Independent p q := by
  intro h
  let send (r : ChannelPair) : ChainOp := .sendIBC r.1 r.2 [] ⟨[]⟩ ⟨[]⟩ []
  let b := Blockchain.new []
  let b₁ := (b.call (send q)).chain
  have hb : AllOpen b := allOpen_new []
  have hb₁ : AllOpen b₁ := call_allOpen hb (send q)
  have first : (resolve b p.1 p.2).nextSeq = 1 := rfl
  have second : (resolve b₁ p.1 p.2).nextSeq = 2 := by
    have stored : b₁.channels (makeChannelKey p.1 p.2) = some (advanced (resolve b q.1 q.2)) := by
      have names : pair (send q) = some (q.1, q.2) := rfl
      rw [call_channels hb names, hk]
      exact Function.update_self _ _ _
    unfold resolve
    rw [stored]
    rfl
  have answered {c : Blockchain} (hc : AllOpen c) : (chainMachine.step c (send p)).2.1 =
      .packet ⟨⟨.ok, []⟩, some ((resolve c p.1 p.2).packet [] ⟨[]⟩ ⟨[]⟩ [])⟩ := by
    change ChainReply.packet (c.sendIBC p.1 p.2 [] ⟨[]⟩ ⟨[]⟩ []).ret = _
    rw [sendIBC_eq hc]
  have other : (pair (send q) == some p) = false := by simpa [send, pair] using hpq.symm
  have mine : (pair (send p) == some p) = true := by simp [send, pair]
  have run := h [] [send q, send p]
  have kept : [send q, send p].filter (fun op => pair op != some q) = [send p] := by
    simp [send, pair, hpq]
  rw [kept] at run
  change answersOn p [(send q, _), (send p, (chainMachine.step b₁ (send p)).2)] =
    answersOn p [(send p, (chainMachine.step b (send p)).2)] at run
  have same : (chainMachine.step b₁ (send p)).2.1 = (chainMachine.step b (send p)).2.1 := by
    simpa [answersOn, List.filter_cons, other, mine] using run
  rw [answered hb₁, answered hb] at same
  simp only [ChainReply.packet.injEq, Result.mk.injEq, Option.some.injEq, true_and] at same
  have numbers : (resolve b₁ p.1 p.2).nextSeq = (resolve b p.1 p.2).nextSeq :=
    congrArg IBCPacket.sequence same
  rw [first, second] at numbers
  exact absurd numbers (by decide)

/-- Two pairs behave as separate channels exactly when their table keys differ. -/
theorem independent_iff_keys_differ (p q : ChannelPair) (hpq : p ≠ q) :
    Independent p q ∧ KeepsSource p q ↔ makeChannelKey p.1 p.2 ≠ makeChannelKey q.1 q.2 :=
  ⟨fun h hk => collision_breaks hpq hk h.1, fun hk => ⟨independent_of_keys hk, keepsSource_of_keys hk⟩⟩

theorem independent_iff_keys_differ_plain :
    Independent (⟨lit "port-A"⟩, ⟨lit "channel-A"⟩) (⟨lit "port-B"⟩, ⟨lit "channel-B"⟩) ∧
      KeepsSource (⟨lit "port-A"⟩, ⟨lit "channel-A"⟩) (⟨lit "port-B"⟩, ⟨lit "channel-B"⟩) :=
  (independent_iff_keys_differ _ _ (by decide)).mpr (by decide)

theorem colon_pairs_interfere :
    ¬ ∀ p q : ChannelPair, p ≠ q → Independent p q ∧ KeepsSource p q := by
  intro h
  have both := h (⟨lit "a:b"⟩, ⟨lit "c"⟩) (⟨lit "a"⟩, ⟨lit "b:c"⟩) (by decide)
  exact collision_breaks (by decide) (by decide) both.1

end InterchainCommunication.ChannelIndependence
