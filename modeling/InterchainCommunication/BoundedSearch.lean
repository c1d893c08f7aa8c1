import Mathlib.Data.Nat.Find
import Mathlib.Tactic

set_option autoImplicit false

namespace InterchainCommunication.BoundedSearch

variable (good : ℕ → Bool) (bound : ℕ)

/-- The loop body run so many times, from `n` on. `none` is a loop that still runs. -/
def loop : ℕ → ℕ → Option (Option ℕ)
  | 0, _ => none
  | fuel + 1, n =>
    if good n then some (some n)
    else if bound < n + 1 then some none
    else loop fuel (n + 1)

/-- The least number up to the bound that passes, counted from `start`. -/
structure LeastFrom (start n : ℕ) : Prop where
  above : start ≤ n
  inside : n ≤ bound
  passes : good n = true
  least : ∀ m, start ≤ m → m < n → good m = false

variable {good bound}

theorem LeastFrom.later {start n : ℕ} (h : LeastFrom good bound start n) (fails : good start = false) :
    LeastFrom good bound (start + 1) n := by
  have passes := h.passes
  have other : n ≠ start := by
    rintro rfl
    exact Bool.false_ne_true (fails.symm.trans passes)
  have above := h.above
  exact ⟨by omega, h.inside, passes, fun m from_ => h.least m (by omega)⟩

theorem exists_least {start : ℕ} (some_ : ∃ n, start ≤ n ∧ n ≤ bound ∧ good n = true) :
    ∃ n, LeastFrom good bound start n := by
  classical
  obtain ⟨above, inside, passes⟩ := Nat.find_spec some_
  refine ⟨Nat.find some_, above, inside, passes, fun m from_ below => ?_⟩
  have not_ := Nat.find_min some_ below
  by_contra good_
  exact not_ ⟨from_, by omega, by simpa using good_⟩

theorem loop_found {start n fuel : ℕ} (h : LeastFrom good bound start n) (enough : n < start + fuel) :
    loop good bound fuel start = some (some n) := by
  induction fuel generalizing start with
  | zero =>
    have above := h.above
    omega
  | succ fuel ih =>
    rw [loop]
    by_cases here : good start = true
    · have first : n = start := by
        by_contra other
        have above := h.above
        have fails := h.least start (Nat.le_refl start) (by omega)
        exact Bool.false_ne_true (fails.symm.trans here)
      rw [if_pos here, first]
    · have fails : good start = false := by simpa using here
      have later := h.later fails
      have above := later.above
      have inside := h.inside
      rw [if_neg here, if_neg (by omega)]
      exact ih later (by omega)

theorem loop_exhausted {start fuel : ℕ} (none_ : ∀ n, start ≤ n → n ≤ bound → good n = false)
    (within : start ≤ bound) (enough : bound < start + fuel) : loop good bound fuel start = some none := by
  induction fuel generalizing start with
  | zero => omega
  | succ fuel ih =>
    have fails : ¬ good start = true := by
      rw [none_ start (Nat.le_refl start) within]
      exact Bool.false_ne_true
    rw [loop, if_neg fails]
    by_cases last : bound < start + 1
    · rw [if_pos last]
    · rw [if_neg last]
      exact ih (fun n from_ => none_ n (by omega)) (by omega) (by omega)

end InterchainCommunication.BoundedSearch
