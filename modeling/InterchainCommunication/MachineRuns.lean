import Mathlib.Data.List.Induction

set_option autoImplicit false

/-!
# Runs of deterministic machines

A machine answers every input with an output and a next state. Nondeterminism
of a scheduler is modelled by making its choices inputs, so a property of every
run is a property of every list of inputs.
-/
namespace InterchainCommunication.MachineRuns

theorem filterMap_concat {α β : Type} (f : α → Option β) (l : List α) (a : α) :
    (l ++ [a]).filterMap f = l.filterMap f ++ (f a).toList := by
  rw [List.filterMap_append]
  cases h : f a <;> simp [h]

theorem getElem?_concat_cases {α : Type} {l : List α} {a x : α} {k : ℕ} (h : (l ++ [a])[k]? = some x) :
    l[k]? = some x ∨ (k = l.length ∧ x = a) := by
  rcases Nat.lt_or_ge k l.length with inside | outside
  · rw [List.getElem?_append_left inside] at h
    exact .inl h
  · rw [List.getElem?_append_right outside, List.getElem?_singleton] at h
    split at h
    · rename_i zero
      exact .inr ⟨Nat.le_antisymm (Nat.sub_eq_zero_iff_le.mp zero) outside, (Option.some.inj h).symm⟩
    · cases h

/-- In the history `l`, an `a` stands before a `b`. -/
def Before {α : Type} (l : List α) (a b : α) : Prop := [a, b].Sublist l

instance {α : Type} [DecidableEq α] (l : List α) (a b : α) : Decidable (Before l a b) :=
  inferInstanceAs (Decidable ([a, b].Sublist l))

section Before
variable {α : Type} {l : List α} {a b : α}

theorem Before.left_mem (h : Before l a b) : a ∈ l := h.subset List.mem_cons_self

theorem Before.append (h : Before l a b) (l' : List α) : Before (l ++ l') a b :=
  h.trans (List.sublist_append_left l l')

theorem before_append (first : a ∈ l) {l' : List α} (second : b ∈ l') : Before (l ++ l') a b :=
  (List.singleton_sublist.mpr first).append (List.singleton_sublist.mpr second)

theorem before_concat {e : Option α} (h : Before (l ++ e.toList) a b) : Before l a b ∨ (a ∈ l ∧ e = some b) := by
  obtain ⟨l₁, l₂, whole, left, right⟩ := List.sublist_append_iff.mp h
  cases e with
  | none =>
    obtain rfl := List.sublist_nil.mp right
    rw [List.append_nil] at whole
    subst whole
    exact .inl left
  | some x =>
    rcases List.sublist_cons_iff.mp right with nothing | ⟨rest, rfl, nothing⟩
    · obtain rfl := List.sublist_nil.mp nothing
      rw [List.append_nil] at whole
      subst whole
      exact .inl left
    · obtain rfl := List.sublist_nil.mp nothing
      have ends : [a] ++ [b] = l₁ ++ [x] := whole
      obtain ⟨rfl, same⟩ := List.append_inj' ends rfl
      obtain rfl := List.singleton_inj.mp same
      exact .inr ⟨left.subset List.mem_cons_self, rfl⟩

end Before

structure Machine (σ ι ο : Type) where
  step : σ → ι → σ × ο

namespace Machine
variable {σ ι ο : Type} (M : Machine σ ι ο)

def final : σ → List ι → σ
  | s, [] => s
  | s, i :: is => final (M.step s i).1 is

/-- Each input of a run beside the output it was answered with. -/
def trace : σ → List ι → List (ι × ο)
  | _, [] => []
  | s, i :: is => (i, (M.step s i).2) :: trace (M.step s i).1 is

@[simp] theorem final_nil (s : σ) : M.final s [] = s := rfl

@[simp] theorem final_cons (s : σ) (i : ι) (is : List ι) :
    M.final s (i :: is) = M.final (M.step s i).1 is := rfl

@[simp] theorem trace_nil (s : σ) : M.trace s [] = [] := rfl

@[simp] theorem trace_cons (s : σ) (i : ι) (is : List ι) :
    M.trace s (i :: is) = (i, (M.step s i).2) :: M.trace (M.step s i).1 is := rfl

theorem final_append (s : σ) (is js : List ι) :
    M.final s (is ++ js) = M.final (M.final s is) js := by
  induction is generalizing s with
  | nil => rfl
  | cons i is ih => exact ih _

theorem trace_append (s : σ) (is js : List ι) :
    M.trace s (is ++ js) = M.trace s is ++ M.trace (M.final s is) js := by
  induction is generalizing s with
  | nil => rfl
  | cons i is ih => simp [ih]

theorem final_concat (s : σ) (is : List ι) (i : ι) :
    M.final s (is ++ [i]) = (M.step (M.final s is) i).1 := M.final_append s is [i]

theorem trace_concat (s : σ) (is : List ι) (i : ι) :
    M.trace s (is ++ [i]) = M.trace s is ++ [(i, (M.step (M.final s is) i).2)] :=
  M.trace_append s is [i]

theorem trace_inputs (s : σ) (is : List ι) : (M.trace s is).map Prod.fst = is := by
  induction is generalizing s with
  | nil => rfl
  | cons i is ih => simp [ih]

/-- The invariant rule. What holds of a state and the history that led to it is
    asked to survive every step whose input the run really contains. -/
theorem history_invariant {I : σ → List (ι × ο) → Prop} {s : σ} (is : List ι) (start : I s [])
    (step : ∀ t h i, i ∈ is → I t h → I (M.step t i).1 (h ++ [(i, (M.step t i).2)])) :
    I (M.final s is) (M.trace s is) := by
  induction is using List.reverseRecOn with
  | nil => exact start
  | append_singleton is i ih =>
    rw [final_concat, trace_concat]
    exact step _ _ i (by simp) (ih fun t h j hj => step t h j (by simp [hj]))

theorem invariant {I : σ → Prop} {s : σ} (is : List ι) (start : I s)
    (step : ∀ t i, i ∈ is → I t → I (M.step t i).1) : I (M.final s is) :=
  M.history_invariant (I := fun t _ => I t) is start fun t _ i hi ht => step t i hi ht

/-- Every input of the run is given under `P`, which sees the state and the history so far. -/
def Guarded (P : σ → List (ι × ο) → ι → Prop) : σ → List (ι × ο) → List ι → Prop
  | _, _, [] => True
  | s, h, i :: is => P s h i ∧ Guarded P (M.step s i).1 (h ++ [(i, (M.step s i).2)]) is

instance decidableGuarded (P : σ → List (ι × ο) → ι → Prop) [∀ s h i, Decidable (P s h i)] :
    ∀ s h is, Decidable (M.Guarded P s h is)
  | _, _, [] => inferInstanceAs (Decidable True)
  | s, h, i :: is =>
    have := decidableGuarded P (M.step s i).1 (h ++ [(i, (M.step s i).2)]) is
    inferInstanceAs (Decidable (P s h i ∧ M.Guarded P (M.step s i).1 (h ++ [(i, (M.step s i).2)]) is))

theorem guarded_append {P : σ → List (ι × ο) → ι → Prop} (s : σ) (h : List (ι × ο)) (is js : List ι) :
    M.Guarded P s h (is ++ js) ↔ M.Guarded P s h is ∧ M.Guarded P (M.final s is) (h ++ M.trace s is) js := by
  induction is generalizing s h with
  | nil => simp [Guarded]
  | cons i is ih => simp [Guarded, ih, and_assoc]

theorem guarded_concat {P : σ → List (ι × ο) → ι → Prop} (s : σ) (is : List ι) (i : ι) :
    M.Guarded P s [] (is ++ [i]) ↔ M.Guarded P s [] is ∧ P (M.final s is) (M.trace s is) i := by
  rw [guarded_append, List.nil_append]
  simp [Guarded]

/-- The invariant rule for guarded runs: a step has to preserve it only under the guard. -/
theorem guarded_invariant {P : σ → List (ι × ο) → ι → Prop} {I : σ → List (ι × ο) → Prop} {s : σ}
    {is : List ι} (guarded : M.Guarded P s [] is) (start : I s [])
    (step : ∀ t h i, P t h i → I t h → I (M.step t i).1 (h ++ [(i, (M.step t i).2)])) :
    I (M.final s is) (M.trace s is) := by
  induction is using List.reverseRecOn with
  | nil => exact start
  | append_singleton is i ih =>
    obtain ⟨earlier, now⟩ := (M.guarded_concat s is i).mp guarded
    rw [final_concat, trace_concat]
    exact step _ _ i now (ih earlier)

theorem guarded_invariant_from {P : σ → List (ι × ο) → ι → Prop} {I : σ → List (ι × ο) → Prop} {s : σ}
    {h : List (ι × ο)} {is : List ι} (guarded : M.Guarded P s h is) (start : I s h)
    (step : ∀ t h i, P t h i → I t h → I (M.step t i).1 (h ++ [(i, (M.step t i).2)])) :
    I (M.final s is) (h ++ M.trace s is) := by
  induction is generalizing s h with
  | nil =>
    rw [trace_nil, List.append_nil]
    exact start
  | cons i is ih =>
    have rest := ih guarded.2 (step s h i guarded.1 start)
    rw [List.append_assoc] at rest
    exact rest

theorem guarded_mono {P Q : σ → List (ι × ο) → ι → Prop} (weaker : ∀ t h i, P t h i → Q t h i) {s : σ}
    {h : List (ι × ο)} {is : List ι} (guarded : M.Guarded P s h is) : M.Guarded Q s h is := by
  induction is generalizing s h with
  | nil => trivial
  | cons i is ih => exact ⟨weaker s h i guarded.1, ih guarded.2⟩

theorem guarded_history {P : σ → ι → Prop} (s : σ) (h h' : List (ι × ο)) {is : List ι}
    (guarded : M.Guarded (fun t _ i => P t i) s h is) : M.Guarded (fun t _ i => P t i) s h' is := by
  induction is generalizing s h h' with
  | nil => trivial
  | cons i is ih => exact ⟨guarded.1, ih _ _ _ guarded.2⟩

/-- The termination rule. Where every guarded step lowers a rank, the rank of a state bounds the
    guarded runs from it. -/
theorem guarded_length_le {P : σ → ι → Prop} {I : σ → Prop} {rank : σ → ℕ}
    (falls : ∀ t i, I t → P t i → I (M.step t i).1 ∧ rank (M.step t i).1 < rank t) {s : σ}
    {h : List (ι × ο)} {is : List ι} (guarded : M.Guarded (fun t _ i => P t i) s h is) (start : I s) :
    I (M.final s is) ∧ is.length + rank (M.final s is) ≤ rank s := by
  induction is generalizing s h with
  | nil => exact ⟨start, Nat.le_of_eq (Nat.zero_add _)⟩
  | cons i is ih =>
    obtain ⟨next, lower⟩ := falls s i start guarded.1
    obtain ⟨finish, bound⟩ := ih guarded.2 next
    refine ⟨finish, ?_⟩
    rw [List.length_cons, final_cons]
    omega

theorem exists_maximal {P : σ → ι → Prop} {I : σ → Prop} {rank : σ → ℕ}
    (falls : ∀ t i, I t → P t i → I (M.step t i).1 ∧ rank (M.step t i).1 < rank t) {s : σ}
    (h : List (ι × ο)) (start : I s) :
    ∃ is, M.Guarded (fun t _ i => P t i) s h is ∧ ∀ i, ¬P (M.final s is) i := by
  induction bound : rank s using Nat.strongRecOn generalizing s h with
  | _ n ih =>
    by_cases stuck : ∀ i, ¬P s i
    · exact ⟨[], trivial, stuck⟩
    · obtain ⟨i, can⟩ := not_forall_not.mp stuck
      obtain ⟨next, lower⟩ := falls s i start can
      obtain ⟨is, guarded, last⟩ := ih _ (bound ▸ lower) (h ++ [(i, (M.step s i).2)]) next rfl
      exact ⟨i :: is, ⟨can, guarded⟩, last⟩

/-- Erasing inputs that only disturb what `R` ignores changes no observed answer.
    The left run takes every input, the right run only the kept ones. -/
theorem erase_unobserved {π : Type} (R : σ → σ → Prop) (keep observed : ι → Bool) (view : ο → π)
    (watch : ∀ i, observed i = true → keep i = true)
    (drop : ∀ s t i, R s t → keep i = false → R (M.step s i).1 t)
    (both : ∀ s t i, R s t → keep i = true → R (M.step s i).1 (M.step t i).1)
    (same : ∀ s t i, R s t → observed i = true → view (M.step s i).2 = view (M.step t i).2)
    {s t : σ} (is : List ι) (start : R s t) :
    ((M.trace s is).filter (fun e => observed e.1)).map (fun e => (e.1, view e.2)) =
      ((M.trace t (is.filter keep)).filter (fun e => observed e.1)).map (fun e => (e.1, view e.2)) := by
  induction is generalizing s t with
  | nil => rfl
  | cons i is ih =>
    cases hk : keep i with
    | false =>
      have ho : observed i = false := by
        by_contra h
        simp [watch i (by simpa using h)] at hk
      simp only [trace_cons, List.filter_cons, hk, ho, Bool.false_eq_true, if_false]
      exact ih (drop s t i start hk)
    | true =>
      have tail := ih (both s t i start hk)
      cases ho : observed i with
      | false => simpa [List.filter_cons, hk, ho] using tail
      | true => simpa [List.filter_cons, hk, ho] using ⟨same s t i start ho, tail⟩

/-- The refinement rule. `N` is fed the input that `abs` reads off each step of `M`,
    and both runs show the same. -/
theorem refines {σ' ι' ο' π : Type} (N : Machine σ' ι' ο') (R : σ → σ' → Prop) (abs : ι × ο → ι')
    (seen : ι × ο → Option π) (seen' : ι' × ο' → Option π)
    (step : ∀ s t i, R s t →
      R (M.step s i).1 (N.step t (abs (i, (M.step s i).2))).1 ∧
        seen (i, (M.step s i).2) =
          seen' (abs (i, (M.step s i).2), (N.step t (abs (i, (M.step s i).2))).2))
    {s : σ} {t : σ'} (is : List ι) (start : R s t) :
    R (M.final s is) (N.final t ((M.trace s is).map abs)) ∧
      (M.trace s is).filterMap seen = (N.trace t ((M.trace s is).map abs)).filterMap seen' := by
  induction is generalizing s t with
  | nil => exact ⟨start, rfl⟩
  | cons i is ih =>
    obtain ⟨next, shown⟩ := step s t i start
    obtain ⟨finish, rest⟩ := ih next
    refine ⟨finish, ?_⟩
    rw [trace_cons, List.map_cons, trace_cons, List.filterMap_cons, List.filterMap_cons, shown, rest]

/-- The simulation rule. Some run of `N` answers each allowed step of `M` and shows the same,
    so some run of `N` answers every run of allowed steps. -/
theorem simulates {σ' ι' ο' π : Type} (N : Machine σ' ι' ο') (R : σ → σ' → Prop) (allowed : ι → Prop)
    (seen : ι × ο → Option π) (seen' : ι' × ο' → Option π)
    (step : ∀ s t i, R s t → allowed i → ∃ js, R (M.step s i).1 (N.final t js) ∧
      (seen (i, (M.step s i).2)).toList = (N.trace t js).filterMap seen')
    {s : σ} {t : σ'} (is : List ι) (all : ∀ i ∈ is, allowed i) (start : R s t) :
    ∃ js, R (M.final s is) (N.final t js) ∧ (M.trace s is).filterMap seen = (N.trace t js).filterMap seen' := by
  induction is generalizing s t with
  | nil => exact ⟨[], start, rfl⟩
  | cons i is ih =>
    obtain ⟨js, next, shown⟩ := step s t i start (all i List.mem_cons_self)
    obtain ⟨ks, finish, rest⟩ := ih (fun j hj => all j (List.mem_cons_of_mem i hj)) next
    refine ⟨js ++ ks, ?_, ?_⟩
    · rw [final_append]
      exact finish
    · rw [trace_append, List.filterMap_append, ← shown, ← rest, trace_cons, List.filterMap_cons]
      cases seen (i, (M.step s i).2) <;> rfl

end Machine
end InterchainCommunication.MachineRuns
