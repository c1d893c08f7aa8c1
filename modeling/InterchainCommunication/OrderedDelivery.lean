import InterchainCommunication.MachineRuns
import Mathlib.Tactic

set_option autoImplicit false

/-!
# In-order delivery over a network that replays

A sender appends items to a list. The network hands any item sent so far to the
receiver, at any time and any number of times. Items carry labels by position,
and the receiver takes the item whose label is that of its own count.
-/
namespace InterchainCommunication.OrderedDelivery
open MachineRuns

structure Replay (α : Type) where
  sent : List α
  taken : ℕ

inductive ReplayInput (α : Type)
  | send (xs : List α)
  | deliver (k : ℕ)

section
variable {α κ : Type} [DecidableEq κ] (label : ℕ → κ)

/-- The output is the item the receiver took. -/
def replayMachine : Machine (Replay α) (ReplayInput α) (Option α) where
  step s
    | .send xs => (⟨s.sent ++ xs, s.taken⟩, none)
    | .deliver k =>
      match s.sent[k]? with
      | none => (s, none)
      | some x => if label k = label s.taken then (⟨s.sent, s.taken + 1⟩, some x) else (s, none)

def Distinct (bound : ℕ) : Prop := ∀ m n, m ≤ bound → n ≤ bound → label m = label n → m = n

/-- What the receiver took is the front of what was sent. -/
def Front (s : Replay α) (took : List α) : Prop := took = s.sent.take s.taken ∧ s.taken ≤ s.sent.length

theorem front_step {s : Replay α} {took : List α} (i : ReplayInput α)
    (distinct : Distinct label s.sent.length) (h : Front s took) :
    Front ((replayMachine label).step s i).1 (took ++ ((replayMachine label).step s i).2.toList) := by
  obtain ⟨front, bound⟩ := h
  cases i with
  | send xs =>
    constructor
    · change took ++ [] = (s.sent ++ xs).take s.taken
      rw [List.append_nil, List.take_append_of_le_length bound, front]
    · change s.taken ≤ (s.sent ++ xs).length
      rw [List.length_append]
      omega
  | deliver k =>
    simp only [replayMachine]
    cases hk : s.sent[k]? with
    | none => exact ⟨by simpa using front, bound⟩
    | some x =>
      have within : k < s.sent.length := (List.getElem?_eq_some_iff.mp hk).1
      dsimp only
      split
      · rename_i same
        have next : k = s.taken := distinct k s.taken within.le bound same
        subst next
        constructor
        · change took ++ [x] = s.sent.take (s.taken + 1)
          rw [List.take_add_one, hk, front]
          rfl
        · exact within
      · exact ⟨by simpa using front, bound⟩

theorem sent_mono (s : Replay α) (i : ReplayInput α) :
    s.sent.length ≤ ((replayMachine label).step s i).1.sent.length := by
  cases i with
  | send xs => simp [replayMachine]
  | deliver k =>
    simp only [replayMachine]
    split
    · exact le_rfl
    · split <;> exact le_rfl

/-- As long as the labels of the positions differ, nothing is taken out of order, twice
    or with a gap before it. -/
theorem taken_front (is : List (ReplayInput α))
    (distinct : Distinct label ((replayMachine label).final ⟨[], 0⟩ is).sent.length) :
    Front ((replayMachine label).final ⟨[], 0⟩ is)
      (((replayMachine label).trace ⟨[], 0⟩ is).filterMap Prod.snd) := by
  have step : ∀ s t i, i ∈ is →
      (Distinct label s.sent.length → Front s (t.filterMap Prod.snd)) →
      Distinct label ((replayMachine label).step s i).1.sent.length →
      Front ((replayMachine label).step s i).1
        ((t ++ [(i, ((replayMachine label).step s i).2)]).filterMap Prod.snd) := by
    intro s t i _ ih distinct'
    have earlier : Distinct label s.sent.length := fun m n hm hn =>
      distinct' m n (hm.trans (sent_mono label s i)) (hn.trans (sent_mono label s i))
    rw [filterMap_concat]
    exact front_step label i earlier (ih earlier)
  exact (replayMachine label).history_invariant
    (I := fun s t => Distinct label s.sent.length → Front s (t.filterMap Prod.snd)) is
    (fun _ => ⟨rfl, Nat.le_refl 0⟩) step distinct

theorem taken_prefix (is : List (ReplayInput α))
    (distinct : Distinct label ((replayMachine label).final ⟨[], 0⟩ is).sent.length) :
    ((replayMachine label).trace ⟨[], 0⟩ is).filterMap Prod.snd <+:
      ((replayMachine label).final ⟨[], 0⟩ is).sent := by
  rw [(taken_front label is distinct).1]
  exact List.take_prefix _ _

/-- How far a receiver gets that waits for one label after the other, whatever passes by. -/
def advance (k : ℕ) (xs : List κ) : ℕ := xs.foldl (fun k x => if x = label k then k + 1 else k) k

@[simp] theorem advance_nil (k : ℕ) : advance label k [] = k := rfl

@[simp] theorem advance_cons (k : ℕ) (x : κ) (xs : List κ) :
    advance label k (x :: xs) = advance label (if x = label k then k + 1 else k) xs := rfl

theorem advance_concat (k : ℕ) (xs : List κ) (x : κ) : advance label k (xs ++ [x]) =
    if x = label (advance label k xs) then advance label k xs + 1 else advance label k xs := by
  rw [advance, List.foldl_append]
  rfl

theorem le_advance (k : ℕ) (xs : List κ) : k ≤ advance label k xs := by
  induction xs generalizing k with
  | nil => exact Nat.le_refl k
  | cons x xs ih =>
    rw [advance_cons]
    split
    · exact (Nat.le_succ k).trans (ih (k + 1))
    · exact ih k

/-- Taking the next label whenever it passes by misses nothing. The receiver gets as far as
    the labels stand in what passed, in their order. -/
theorem labels_sublist_iff (k n : ℕ) (xs : List κ) :
    ((List.range' k n).map label).Sublist xs ↔ k + n ≤ advance label k xs := by
  induction xs generalizing k n with
  | nil =>
    cases n with
    | zero => simp
    | succ n => simp [List.range'_succ]
  | cons x xs ih =>
    cases n with
    | zero => simpa using le_advance label k (x :: xs)
    | succ n =>
      rw [advance_cons, List.range'_succ, List.map_cons]
      by_cases next : x = label k
      · rw [next, List.cons_sublist_cons, ih, if_pos rfl]
        omega
      · have skip : (label k :: (List.range' (k + 1) n).map label).Sublist (x :: xs) ↔
            (label k :: (List.range' (k + 1) n).map label).Sublist xs := by
          rw [List.sublist_cons_iff]
          constructor
          · rintro (later | ⟨r, same, -⟩)
            · exact later
            · exact absurd (List.cons.inj same).1.symm next
          · exact .inl
        rw [skip, if_neg next, ← ih k (n + 1), List.range'_succ, List.map_cons]

omit [DecidableEq κ] in
/-- Items numbered by their places, all of them among others numbered the same way, are the
    front of those. -/
theorem numbered_prefix {number : α → κ} {front whole : List α} (distinct : Distinct label whole.length)
    (hfront : front.map number = (List.range front.length).map label)
    (hwhole : whole.map number = (List.range whole.length).map label) (inside : ∀ x ∈ front, x ∈ whole) :
    front <+: whole := by
  have place (l : List α) (hl : l.map number = (List.range l.length).map label) {k : ℕ} {x : α}
      (hk : l[k]? = some x) : number x = label k := by
    have there := congrArg (fun names => names[k]?) hl
    have bound := (List.getElem?_eq_some_iff.mp hk).1
    simp only [List.getElem?_map, hk, Option.map_some, List.getElem?_range bound] at there
    exact Option.some.inj there
  have within : ∀ k x, front[k]? = some x → k ≤ whole.length → whole[k]? = some x := by
    intro k x hk few
    obtain ⟨j, hj⟩ := List.mem_iff_getElem?.mp (inside x (List.mem_of_getElem? hk))
    have bound := (List.getElem?_eq_some_iff.mp hj).1
    have same : j = k := distinct j k bound.le few ((place whole hwhole hj).symm.trans (place front hfront hk))
    exact same ▸ hj
  have short : front.length ≤ whole.length := by
    by_contra long
    have bound : whole.length < front.length := by omega
    have past := within whole.length _ (List.getElem?_eq_getElem bound) (Nat.le_refl _)
    rw [List.getElem?_eq_none (Nat.le_refl _)] at past
    cases past
  rw [List.prefix_iff_getElem?]
  intro k bound
  exact within k _ (List.getElem?_eq_getElem bound) (bound.le.trans short)

end
end InterchainCommunication.OrderedDelivery
