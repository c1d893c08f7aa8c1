import Mathlib.Data.Rat.Floor
import Mathlib.Tactic

set_option autoImplicit false

namespace InterchainCommunication.TrafficRate

/-- The interval is a count of milliseconds. -/
structure SimulationConfig where
  trafficGenInterval : ℤ
  ibcTrafficRatio : ℚ

/-- The flag at the head of a turn, the unit-rate variate behind its interval, the flag behind its
    sleep and the draw for the type. -/
structure Reading where
  running : Bool
  variate : ℚ
  nonneg : 0 ≤ variate
  stillRunning : Bool
  typeRand : ℚ

inductive Act
  | sleep (ms : ℤ)
  | generateRandomIBCPacket
  | generateRandomTransaction

def exponentialDistribution (lambda variate : ℚ) : ℚ := variate / lambda

def toLong (x : ℚ) : ℤ := if 0 ≤ x then ⌊x⌋ else ⌈x⌉

def waitMs (simCfg : SimulationConfig) (variate : ℚ) : ℤ :=
  toLong (exponentialDistribution (1000 / simCfg.trafficGenInterval) variate)

def trafficGeneratorLoop (simCfg : SimulationConfig) (chains nodes : ℕ) : List Reading → List Act
  | [] => []
  | r :: rs =>
    if r.running then
      .sleep (waitMs simCfg r.variate) ::
        if r.stillRunning then
          (if r.typeRand < simCfg.ibcTrafficRatio ∧ 2 ≤ chains then [.generateRandomIBCPacket]
            else if nodes ≠ 0 then [.generateRandomTransaction]
            else []) ++ trafficGeneratorLoop simCfg chains nodes rs
        else []
    else []

def drawn : List Reading → List ℚ
  | [] => []
  | r :: rs => if r.running then r.variate :: if r.stillRunning then drawn rs else [] else []

def Act.asked : Act → ℤ
  | sleep ms => ms
  | _ => 0

def asked (acts : List Act) : ℤ := (acts.map Act.asked).sum

theorem asked_cons (a : Act) (acts : List Act) : asked (a :: acts) = a.asked + asked acts := List.sum_cons

theorem asked_append (acts acts' : List Act) : asked (acts ++ acts') = asked acts + asked acts' := by
  rw [asked, List.map_append, List.sum_append]
  rfl

theorem asked_loop (simCfg : SimulationConfig) (chains nodes : ℕ) (rs : List Reading) :
    asked (trafficGeneratorLoop simCfg chains nodes rs) = ((drawn rs).map (waitMs simCfg)).sum := by
  have none_asked : asked [] = 0 := rfl
  induction rs with
  | nil => rfl
  | cons r rs ih =>
    have choice : asked (if r.typeRand < simCfg.ibcTrafficRatio ∧ 2 ≤ chains then [.generateRandomIBCPacket]
        else if nodes ≠ 0 then [.generateRandomTransaction] else []) = 0 := by
      split_ifs <;> rfl
    rw [trafficGeneratorLoop, drawn]
    by_cases running : r.running = true
    · rw [if_pos running, if_pos running, asked_cons, List.map_cons, List.sum_cons]
      by_cases still : r.stillRunning = true
      · rw [if_pos still, if_pos still, asked_append, choice, zero_add, ih]
        rfl
      · rw [if_neg still, if_neg still, none_asked]
        rfl
    · rw [if_neg running, if_neg running, none_asked]
      rfl

theorem drawn_nonneg (rs : List Reading) : ∀ e ∈ drawn rs, 0 ≤ e := by
  induction rs with
  | nil => simp [drawn]
  | cons r rs ih =>
    rw [drawn]
    split_ifs
    · rw [List.forall_mem_cons]
      exact ⟨r.nonneg, ih⟩
    · simpa using r.nonneg
    · simp

theorem waitMs_eq (simCfg : SimulationConfig) (positive : 0 < simCfg.trafficGenInterval) {e : ℚ} (nonneg : 0 ≤ e) :
    waitMs simCfg e = ⌊simCfg.trafficGenInterval * e / 1000⌋ := by
  have interval : (0 : ℚ) < simCfg.trafficGenInterval := by exact_mod_cast positive
  have value : exponentialDistribution (1000 / simCfg.trafficGenInterval) e = simCfg.trafficGenInterval * e / 1000 := by
    unfold exponentialDistribution
    field_simp
  rw [waitMs, value, toLong, if_pos (by positivity)]

/-- The time wanted for the turns with these variates, in milliseconds. -/
def wanted (simCfg : SimulationConfig) (es : List ℚ) : ℚ := simCfg.trafficGenInterval * es.sum

/-- The mean distance of the generated transactions is the configured one, but for the truncation. -/
def OnRate (simCfg : SimulationConfig) (chains nodes : ℕ) (rs : List Reading) : Prop :=
  wanted simCfg (drawn rs) - (drawn rs).length < asked (trafficGeneratorLoop simCfg chains nodes rs) ∧
    asked (trafficGeneratorLoop simCfg chains nodes rs) ≤ wanted simCfg (drawn rs)

/-- What the loop asks for is between nothing and a thousandth of the wanted time. -/
theorem asked_bounds (simCfg : SimulationConfig) (positive : 0 < simCfg.trafficGenInterval) {es : List ℚ}
    (nonneg : ∀ e ∈ es, 0 ≤ e) :
    0 ≤ (es.map (waitMs simCfg)).sum ∧ (es.map (waitMs simCfg)).sum ≤ wanted simCfg es / 1000 := by
  have interval : (0 : ℚ) < simCfg.trafficGenInterval := by exact_mod_cast positive
  induction es with
  | nil => simp [wanted]
  | cons e es ih =>
    obtain ⟨some, few⟩ := ih fun x hx => nonneg x (by simp [hx])
    have here : 0 ≤ e := nonneg e (by simp)
    have wait := waitMs_eq simCfg positive here
    have low : 0 ≤ waitMs simCfg e := by
      rw [wait]
      exact Int.floor_nonneg.mpr (by positivity)
    have high : (waitMs simCfg e : ℚ) ≤ simCfg.trafficGenInterval * e / 1000 := by
      rw [wait]
      exact Int.floor_le _
    simp only [wanted, List.map_cons, List.sum_cons, Int.cast_add, mul_add] at few ⊢
    constructor
    · linarith
    · linarith

theorem wanted_nonneg (simCfg : SimulationConfig) (positive : 0 < simCfg.trafficGenInterval) (rs : List Reading) :
    0 ≤ wanted simCfg (drawn rs) :=
  mul_nonneg (by exact_mod_cast positive.le) (List.sum_nonneg (drawn_nonneg rs))

theorem asked_short (simCfg : SimulationConfig) (positive : 0 < simCfg.trafficGenInterval) {es : List ℚ}
    (nonneg : ∀ e ∈ es, 0 ≤ e) (short : ∀ e ∈ es, simCfg.trafficGenInterval * e < 1000) :
    (es.map (waitMs simCfg)).sum = 0 := by
  have interval : (0 : ℚ) < simCfg.trafficGenInterval := by exact_mod_cast positive
  refine List.sum_eq_zero fun ms member => ?_
  obtain ⟨e, inside, rfl⟩ := List.mem_map.mp member
  have here := nonneg e inside
  have below := short e inside
  rw [waitMs_eq simCfg positive here, Int.floor_eq_zero_iff, Set.mem_Ico]
  constructor
  · positivity
  · linarith

theorem off_rate : ¬ ∀ (simCfg : SimulationConfig) (chains nodes : ℕ) (rs : List Reading),
    0 < simCfg.trafficGenInterval → drawn rs ≠ [] → OnRate simCfg chains nodes rs := by
  intro claimed
  let turn : Reading := ⟨true, 1, by decide, true, 1 / 2⟩
  have rate := claimed ⟨100, 3 / 10⟩ 2 2 [turn] (by decide) (by simp [drawn, turn])
  have wait : waitMs ⟨100, 3 / 10⟩ 1 = 0 := by decide +kernel
  have lower := rate.1
  rw [asked_loop] at lower
  simp [wanted, drawn, turn, wait] at lower

/-- The rate is met where the wanted times are below a millisecond on average. It is met nowhere else as
    long as none of them reaches a second, and never from a thousandth more than a millisecond on. -/
theorem on_rate_of_short (simCfg : SimulationConfig) (positive : 0 < simCfg.trafficGenInterval) (chains nodes : ℕ)
    (rs : List Reading) :
    (wanted simCfg (drawn rs) < (drawn rs).length → OnRate simCfg chains nodes rs) ∧
      ((∀ e ∈ drawn rs, simCfg.trafficGenInterval * e < 1000) →
        (OnRate simCfg chains nodes rs ↔ wanted simCfg (drawn rs) < (drawn rs).length)) ∧
      (1000 * (drawn rs).length ≤ 999 * wanted simCfg (drawn rs) → ¬ OnRate simCfg chains nodes rs) := by
  obtain ⟨some, few⟩ := asked_bounds simCfg positive (drawn_nonneg rs)
  have some' : (0 : ℚ) ≤ ((drawn rs).map (waitMs simCfg)).sum := by exact_mod_cast some
  have time := wanted_nonneg simCfg positive rs
  have enough : wanted simCfg (drawn rs) < (drawn rs).length → OnRate simCfg chains nodes rs := by
    intro short
    rw [OnRate, asked_loop]
    constructor
    · linarith
    · linarith
  refine ⟨enough, fun short => ⟨?_, enough⟩, ?_⟩
  · rintro ⟨lower, -⟩
    rw [asked_loop, asked_short simCfg positive (drawn_nonneg rs) short] at lower
    push_cast at lower
    linarith
  · rintro long ⟨lower, -⟩
    rw [asked_loop] at lower
    linarith

def halfTurn : Reading := ⟨true, 1 / 2, by norm_num, true, 1 / 2⟩

def wholeTurn : Reading := ⟨true, 1, by norm_num, true, 1 / 2⟩

theorem on_rate_of_short_turns :
    OnRate ⟨1, 3 / 10⟩ 2 2 [halfTurn] ∧
      ¬ OnRate ⟨100, 3 / 10⟩ 2 2 [wholeTurn] ∧
      ¬ OnRate ⟨2000, 3 / 10⟩ 2 2 [wholeTurn] := by
  refine ⟨(on_rate_of_short _ (by decide) 2 2 _).1 ?_, ?_, (on_rate_of_short _ (by decide) 2 2 _).2.2 ?_⟩
  · norm_num [wanted, drawn, halfTurn]
  · rw [(on_rate_of_short ⟨100, 3 / 10⟩ (by decide) 2 2 _).2.1 (by norm_num [drawn, wholeTurn])]
    norm_num [wanted, drawn, wholeTurn]
  · norm_num [wanted, drawn, wholeTurn]

end InterchainCommunication.TrafficRate
