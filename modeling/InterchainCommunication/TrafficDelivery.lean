import InterchainCommunication.BlockchainSteps

set_option autoImplicit false

namespace InterchainCommunication.TrafficDelivery
open StringText CoreTypes MachineRuns ChannelSequencing BlockchainModel BlockchainSteps

def srcPort : PortId := ⟨lit "port-A"⟩
def srcChan : ChannelId := ⟨lit "channel-A"⟩
def dstPort : PortId := ⟨lit "port-B"⟩
def dstChan : ChannelId := ⟨lit "channel-B"⟩

/-- Chains by their ids, and every packet `sendIBC` returned so far. -/
structure Net where
  chains : Bytes → Blockchain
  sent : List IBCPacket

inductive NetInput
  | send (src dst payload : Bytes)
  | deliver (k : ℕ)
  deriving DecidableEq

inductive NetOutput
  | sent (r : Result IBCPacket)
  | delivered (s : Status)
  | idle

def netMachine : Machine Net NetInput NetOutput where
  step n
    | .send src dst payload =>
      let o := (n.chains src).sendIBC srcPort srcChan dst dstPort dstChan payload
      (⟨Function.update n.chains src o.chain, n.sent ++ o.ret.value.toList⟩, .sent o.ret)
    | .deliver k =>
      match n.sent[k]? with
      | none => (n, .idle)
      | some pkt =>
        let o := (n.chains pkt.dstChain).onIBCPacket pkt
        (⟨Function.update n.chains pkt.dstChain o.chain, n.sent⟩, .delivered o.ret)

def Net.start : Net := ⟨Blockchain.new, []⟩

def NetOutput.ok : NetOutput → Bool
  | delivered s => s.ok
  | sent _ | idle => true

def AllAccepted (is : List NetInput) : Prop := (netMachine.trace .start is).all (·.2.ok) = true

/-- At each delivery the packet's place among all sends of its source is, as a 64-bit
    number, one more than the deliveries its destination has had. -/
def InStep : List (Bytes × Bytes) → List Bytes → List NetInput → Prop
  | _, _, [] => True
  | sent, delivered, .send src dst _ :: is => InStep (sent ++ [(src, dst)]) delivered is
  | sent, delivered, .deliver k :: is =>
    match sent[k]? with
    | none => InStep sent delivered is
    | some (src, dst) =>
      UInt64.ofNat (((sent.take (k + 1)).map Prod.fst).count src) = UInt64.ofNat (delivered.count dst + 1) ∧
        InStep sent (delivered ++ [dst]) is

/-- The counters of the chains are the counts of the schedule. -/
structure Counts (n : Net) (sent : List (Bytes × Bytes)) (delivered : List Bytes) : Prop where
  allOpen : ∀ c, AllOpen (n.chains c)
  next : ∀ c, (resolve (n.chains c) srcPort srcChan).nextSeq = UInt64.ofNat ((sent.map Prod.fst).count c + 1)
  expected : ∀ c, (resolve (n.chains c) dstPort dstChan).nextSeq = UInt64.ofNat (delivered.count c + 1)
  length : n.sent.length = sent.length
  packets : ∀ k src dst, sent[k]? = some (src, dst) → ∃ pkt, n.sent[k]? = some pkt ∧ pkt.dstChain = dst ∧
    pkt.dstPort = dstPort ∧ pkt.dstChannel = dstChan ∧
    pkt.sequence = UInt64.ofNat (((sent.take (k + 1)).map Prod.fst).count src)

theorem counts_start : Counts .start [] [] where
  allOpen := allOpen_new
  next c := rfl
  expected c := rfl
  length := rfl
  packets k src dst h := by simp at h

theorem keys_differ : makeChannelKey srcPort srcChan ≠ makeChannelKey dstPort dstChan := by decide

theorem ofNat_succ (k : ℕ) : UInt64.ofNat (k + 1) = UInt64.ofNat k + 1 := by
  simp [UInt64.ofNat_add]

theorem counts_send {n : Net} {sent : List (Bytes × Bytes)} {delivered : List Bytes}
    (h : Counts n sent delivered) (src dst payload : Bytes) :
    Counts (netMachine.step n (.send src dst payload)).1 (sent ++ [(src, dst)]) delivered := by
  let ch := resolve (n.chains src) srcPort srcChan
  have step : (netMachine.step n (.send src dst payload)).1 =
      ⟨Function.update n.chains src ((n.chains src).store srcPort srcChan (advanced ch)),
        n.sent ++ [ch.packet dst dstPort dstChan payload]⟩ := by
    simp only [netMachine, sendIBC_eq (h.allOpen src)]
    rfl
  have count (c : Bytes) : ((sent ++ [(src, dst)]).map Prod.fst).count c =
      (sent.map Prod.fst).count c + if src = c then 1 else 0 := by
    rw [List.map_append, List.count_append, List.map_singleton, List.count_singleton]
    simp
  rw [step]
  constructor
  · refine (Function.forall_update_iff n.chains (p := fun _ b => AllOpen b)).mpr ⟨?_, fun c _ => h.allOpen c⟩
    exact allOpen_store (h.allOpen src) _ _ rfl
  · refine (Function.forall_update_iff n.chains (p := fun c b => (resolve b srcPort srcChan).nextSeq =
      UInt64.ofNat (((sent ++ [(src, dst)]).map Prod.fst).count c + 1))).mpr ⟨?_, fun c other => ?_⟩
    · rw [resolve_store_same, count, if_pos rfl, ofNat_succ (_ + 1), ← h.next src]
      rfl
    · rw [count, if_neg other.symm]
      exact h.next c
  · refine (Function.forall_update_iff n.chains (p := fun c b => (resolve b dstPort dstChan).nextSeq =
      UInt64.ofNat (delivered.count c + 1))).mpr ⟨?_, fun c _ => h.expected c⟩
    rw [resolve_store_other _ _ keys_differ.symm]
    exact h.expected src
  · simp [h.length]
  · intro k src' dst' hk
    rcases getElem?_concat_cases hk with old | ⟨rfl, new⟩
    · have inside : k < sent.length := (List.getElem?_eq_some_iff.mp old).1
      obtain ⟨pkt, hpkt, rest⟩ := h.packets k src' dst' old
      refine ⟨pkt, ?_, ?_⟩
      · rw [List.getElem?_append_left (by rw [h.length]; exact inside)]
        exact hpkt
      · rw [List.take_append_of_le_length inside]
        exact rest
    · cases new
      refine ⟨ch.packet dst dstPort dstChan payload, ?_, rfl, rfl, rfl, ?_⟩
      · rw [← h.length, List.getElem?_concat_length]
      · rw [List.take_of_length_le (by simp), count, if_pos rfl]
        exact h.next src

theorem counts_deliver {n : Net} {sent : List (Bytes × Bytes)} {delivered : List Bytes}
    (h : Counts n sent delivered) {k : ℕ} {src dst : Bytes} (hk : sent[k]? = some (src, dst)) :
    let agree := UInt64.ofNat (((sent.take (k + 1)).map Prod.fst).count src) = UInt64.ofNat (delivered.count dst + 1)
    let e := netMachine.step n (.deliver k)
    (e.2.ok = true ↔ agree) ∧ (agree → Counts e.1 sent (delivered ++ [dst])) := by
  intro agree e
  obtain ⟨pkt, hpkt, hdst, hport, hchan, hseq⟩ := h.packets k src dst hk
  have step : e = (⟨Function.update n.chains dst ((n.chains dst).onIBCPacket pkt).chain, n.sent⟩,
      .delivered ((n.chains dst).onIBCPacket pkt).ret) := by
    change netMachine.step n (.deliver k) = _
    simp only [netMachine, hpkt, hdst]
  have expected : (resolve (n.chains dst) pkt.dstPort pkt.dstChannel).nextSeq =
      UInt64.ofNat (delivered.count dst + 1) := by
    rw [hport, hchan]
    exact h.expected dst
  rw [step]
  refine ⟨?_, fun same => ?_⟩
  · change ((n.chains dst).onIBCPacket pkt).ret.ok = true ↔ agree
    rw [onIBCPacket_ok (h.allOpen dst), expected, hseq]
  · have accept := onIBCPacket_accept (h.allOpen dst) (hseq.trans (same.trans expected.symm))
    rw [accept]
    have count (c : Bytes) : (delivered ++ [dst]).count c = delivered.count c + if dst = c then 1 else 0 := by
      rw [List.count_append, List.count_singleton]
      simp
    constructor
    · refine (Function.forall_update_iff n.chains (p := fun _ b => AllOpen b)).mpr ⟨?_, fun c _ => h.allOpen c⟩
      exact allOpen_store (h.allOpen dst) _ _ rfl
    · refine (Function.forall_update_iff n.chains (p := fun c b => (resolve b srcPort srcChan).nextSeq =
        UInt64.ofNat ((sent.map Prod.fst).count c + 1))).mpr ⟨?_, fun c _ => h.next c⟩
      rw [hport, hchan, resolve_store_other _ _ keys_differ]
      exact h.next dst
    · refine (Function.forall_update_iff n.chains (p := fun c b => (resolve b dstPort dstChan).nextSeq =
        UInt64.ofNat ((delivered ++ [dst]).count c + 1))).mpr ⟨?_, fun c other => ?_⟩
      · rw [hport, hchan, resolve_store_same, count, if_pos rfl, ofNat_succ (_ + 1), ← h.expected dst]
        rfl
      · rw [count, if_neg other.symm]
        exact h.expected c
    · exact h.length
    · exact h.packets

theorem accepted_iff {n : Net} {sent : List (Bytes × Bytes)} {delivered : List Bytes}
    (h : Counts n sent delivered) (is : List NetInput) :
    (netMachine.trace n is).all (·.2.ok) = true ↔ InStep sent delivered is := by
  induction is generalizing n sent delivered with
  | nil => exact ⟨fun _ => trivial, fun _ => rfl⟩
  | cons i is ih =>
    rw [Machine.trace_cons, List.all_cons, Bool.and_eq_true]
    cases i with
    | send src dst payload =>
      rw [ih (counts_send h src dst payload)]
      exact ⟨And.right, fun rest => ⟨rfl, rest⟩⟩
    | deliver k =>
      cases hk : sent[k]? with
      | none =>
        have unsent : n.sent[k]? = none := by
          rw [List.getElem?_eq_none_iff, h.length]
          exact List.getElem?_eq_none_iff.mp hk
        have step : netMachine.step n (.deliver k) = (n, .idle) := by
          simp only [netMachine, unsent]
        rw [step, ih h, InStep, hk]
        exact ⟨And.right, fun rest => ⟨rfl, rest⟩⟩
      | some e =>
        obtain ⟨src, dst⟩ := e
        obtain ⟨ok, next⟩ := counts_deliver h hk
        rw [InStep, hk]
        dsimp only
        rw [ok]
        exact and_congr_right fun agree => ih (next agree)

def sendsOf (is : List NetInput) : List (Bytes × Bytes) :=
  is.filterMap fun
    | .send src dst _ => some (src, dst)
    | .deliver _ => none

def deliveriesOf (is : List NetInput) : List ℕ :=
  is.filterMap fun
    | .send _ _ _ => none
    | .deliver k => some k

def deliversSent : ℕ → List NetInput → Bool
  | _, [] => true
  | n, .send _ _ _ :: is => deliversSent (n + 1) is
  | n, .deliver k :: is => k < n && deliversSent n is

/-- Chains send to other chains, and the transport passes each packet on exactly once
    and keeps the order between two chains. -/
structure Proper (is : List NetInput) : Prop where
  otherChains : ∀ e ∈ sendsOf is, e.1 ≠ e.2
  afterSend : deliversSent 0 is = true
  once : (deliveriesOf is).Perm (List.range (sendsOf is).length)
  inOrder : (deliveriesOf is).Pairwise fun i j => (sendsOf is)[i]? = (sendsOf is)[j]? → i < j

theorem fan_out_is_rejected : ¬ ∀ is, Proper is → AllAccepted is := by
  intro h
  have refused := h [.send (lit "chain-A") (lit "chain-B") [], .send (lit "chain-A") (lit "chain-C") [],
    .deliver 0, .deliver 1] ⟨by decide, by decide, by decide, by decide⟩
  rw [AllAccepted] at refused
  exact absurd refused (by decide)

/-- Each chain sends to one other and hears from one other. -/
def OnePartner (sent : List (Bytes × Bytes)) : Prop :=
  ∀ e ∈ sent, ∀ e' ∈ sent, e.1 = e'.1 ↔ e.2 = e'.2

theorem delivered_before {sent : List (Bytes × Bytes)} {done rest : List ℕ} {k : ℕ}
    (once : (done ++ k :: rest).Perm (List.range sent.length))
    (inOrder : (done ++ k :: rest).Pairwise fun i j => sent[i]? = sent[j]? → i < j) :
    (done.filter fun j => sent[j]? = sent[k]?).Perm ((List.range k).filter fun j => sent[j]? = sent[k]?) := by
  have distinct : (done ++ k :: rest).Nodup := once.nodup_iff.mpr List.nodup_range
  have inside : k < sent.length := List.mem_range.mp (once.mem_iff.mp (by simp))
  rw [List.pairwise_append, List.pairwise_cons] at inOrder
  obtain ⟨-, ⟨later, -⟩, earlier⟩ := inOrder
  refine (List.perm_ext_iff_of_nodup ((List.nodup_append.mp distinct).1.filter _)
    (List.nodup_range.filter _)).mpr fun j => ?_
  simp only [List.mem_filter, List.mem_range, decide_eq_true_eq]
  constructor
  · rintro ⟨hj, same⟩
    exact ⟨earlier j hj k (by simp) same, same⟩
  · rintro ⟨hj, same⟩
    have sentAlready : j ∈ done ++ k :: rest := once.mem_iff.mpr (List.mem_range.mpr (hj.trans inside))
    rcases List.mem_append.mp sentAlready with before | after
    · exact ⟨before, same⟩
    · rcases List.mem_cons.mp after with rfl | after
      · exact absurd hj (Nat.lt_irrefl j)
      · exact absurd (later j after same.symm) (Nat.lt_asymm hj)

theorem countP_take (q : Bytes × Bytes → Bool) {sent : List (Bytes × Bytes)} {k : ℕ} (inside : k ≤ sent.length) :
    (sent.take k).countP q = (List.range k).countP fun j => (sent[j]?).any q := by
  induction k with
  | zero => rfl
  | succ k ih =>
    have hk : k < sent.length := inside
    rw [List.take_add_one, List.countP_append, ih (Nat.le_of_lt hk), List.range_succ, List.countP_append,
      List.getElem?_eq_getElem hk]
    simp [List.countP_singleton, List.getElem?_eq_getElem hk]

theorem same_pair {all : List (Bytes × Bytes)} (partner : OnePartner all) {k : ℕ} {src dst : Bytes}
    (hk : all[k]? = some (src, dst)) (j : ℕ) :
    (all[j]?).any (fun e => e.1 == src) = decide (all[j]? = all[k]?) ∧
      (((all[j]?).map Prod.snd).map (· == dst)).getD false = decide (all[j]? = all[k]?) := by
  cases hj : all[j]? with
  | none => simp [hk]
  | some e =>
    have both : e.1 = src ↔ e.2 = dst :=
      partner e (List.mem_of_getElem? hj) (src, dst) (List.mem_of_getElem? hk)
    have first : e.1 = src ↔ some e = some (src, dst) :=
      ⟨fun h => congrArg some (Prod.ext h (both.mp h)), fun h => congrArg Prod.fst (Option.some.inj h)⟩
    rw [hk]
    constructor
    · rw [Option.any_some, beq_eq_decide]
      exact decide_eq_decide.mpr first
    · rw [Option.map_some, Option.map_some, Option.getD_some, beq_eq_decide]
      exact decide_eq_decide.mpr (both.symm.trans first)

theorem inStep_of_onePartner {all : List (Bytes × Bytes)} (partner : OnePartner all) (is : List NetInput)
    {sent : List (Bytes × Bytes)} {done : List ℕ} (sends : sent ++ sendsOf is = all)
    (afterSend : deliversSent sent.length is = true)
    (once : (done ++ deliveriesOf is).Perm (List.range all.length))
    (inOrder : (done ++ deliveriesOf is).Pairwise fun i j => all[i]? = all[j]? → i < j) :
    InStep sent (done.filterMap fun j => (all[j]?).map Prod.snd) is := by
  induction is generalizing sent done with
  | nil => trivial
  | cons i is ih =>
    cases i with
    | send src dst payload =>
      refine ih ?_ ?_ once inOrder
      · rw [← sends]
        simp [sendsOf]
      · simpa [deliversSent] using afterSend
    | deliver k =>
      rw [deliversSent, Bool.and_eq_true, decide_eq_true_eq] at afterSend
      obtain ⟨inside, afterSend⟩ := afterSend
      obtain ⟨⟨src, dst⟩, hk⟩ : ∃ e, sent[k]? = some e := ⟨_, List.getElem?_eq_getElem inside⟩
      have hall : all[k]? = some (src, dst) := by
        rw [← sends, List.getElem?_append_left inside, hk]
      have total : k + 1 ≤ all.length := (List.getElem?_eq_some_iff.mp hall).1
      have pair := same_pair partner hall
      have taken : sent.take (k + 1) = all.take (k + 1) := by
        rw [← sends, List.take_append_of_le_length inside]
      have position : ((sent.take (k + 1)).map Prod.fst).count src =
          (List.range k).countP (fun j => decide (all[j]? = all[k]?)) + 1 := by
        rw [taken, List.count, List.countP_map, countP_take _ total, List.range_succ, List.countP_append]
        have first (j : ℕ) : (all[j]?).any ((· == src) ∘ Prod.fst) = decide (all[j]? = all[k]?) := (pair j).1
        simp only [first, List.countP_singleton, decide_true, if_true]
      have received : (done.filterMap fun j => (all[j]?).map Prod.snd).count dst =
          done.countP fun j => decide (all[j]? = all[k]?) := by
        rw [List.count, List.countP_filterMap]
        simp only [(pair _).2]
      have sofar := (delivered_before once inOrder).length_eq
      rw [← List.countP_eq_length_filter, ← List.countP_eq_length_filter] at sofar
      rw [InStep, hk]
      dsimp only
      refine ⟨by rw [position, received, sofar], ?_⟩
      have next := @ih sent (done ++ [k]) sends afterSend (by simpa [deliveriesOf] using once)
        (by simpa [deliveriesOf] using inOrder)
      rw [List.filterMap_append] at next
      simpa [hall] using next

/-- The simulator's traffic loses no packet exactly while the counts stay in step, and with one partner each
    way they do. -/
theorem all_accepted_iff_inStep (is : List NetInput) :
    (AllAccepted is ↔ InStep [] [] is) ∧ (Proper is → OnePartner (sendsOf is) → AllAccepted is) := by
  have counted : AllAccepted is ↔ InStep [] [] is := accepted_iff counts_start is
  refine ⟨counted, fun proper partner => counted.mpr ?_⟩
  exact @inStep_of_onePartner _ partner is [] [] rfl proper.afterSend proper.once proper.inOrder

theorem all_accepted_iff_inStep_two_chains : AllAccepted [.send (lit "chain-A") (lit "chain-B") [],
    .send (lit "chain-B") (lit "chain-A") [], .deliver 1, .deliver 0] := by
  refine (all_accepted_iff_inStep _).2 ⟨by decide, by decide, by decide, by decide⟩ ?_
  unfold OnePartner
  decide

end InterchainCommunication.TrafficDelivery
