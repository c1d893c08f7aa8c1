import Mathlib.Data.List.Count

set_option autoImplicit false

namespace InterchainCommunication.BagCounting

variable {α : Type} (p : α → Bool)

/-- The number of marked items in all queues. -/
def weight : List (List α) → ℕ
  | [] => 0
  | bag :: bags => bag.countP p + weight bags

theorem weight_set {bags : List (List α)} {k : ℕ} {old : List α} (h : bags[k]? = some old) (bag : List α) :
    weight p (bags.set k bag) + old.countP p = weight p bags + bag.countP p := by
  induction bags generalizing k with
  | nil => simp at h
  | cons b bags ih =>
    cases k with
    | zero =>
      obtain rfl : b = old := by simpa using h
      rw [List.set_cons_zero, weight, weight]
      omega
    | succ k =>
      have tail := ih (k := k) (by simpa using h)
      rw [List.set_cons_succ, weight, weight]
      omega

theorem weight_pop {bags : List (List α)} {k : ℕ} {x : α} {rest : List α} (h : bags[k]? = some (x :: rest)) :
    weight p (bags.set k rest) + [x].countP p = weight p bags := by
  have moved := weight_set p h rest
  rw [← List.singleton_append, List.countP_append] at moved
  omega

theorem weight_push {bags : List (List α)} {k : ℕ} {bag : List α} (h : bags[k]? = some bag) (x : α) :
    weight p (bags.set k (bag ++ [x])) = weight p bags + [x].countP p := by
  have moved := weight_set p h (bag ++ [x])
  rw [List.countP_append] at moved
  omega

theorem weight_broadcast (bags : List (List α)) (xs : List α) :
    weight p (bags.map (· ++ xs)) = weight p bags + bags.length * xs.countP p := by
  induction bags with
  | nil => simp [weight]
  | cons b bags ih =>
    rw [List.map_cons, weight, weight, ih, List.countP_append, List.length_cons, Nat.succ_mul]
    omega

theorem weight_eq_zero {bags : List (List α)} (h : ∀ bag ∈ bags, ∀ x ∈ bag, p x = false) : weight p bags = 0 := by
  induction bags with
  | nil => rfl
  | cons b bags ih =>
    have first : b.countP p = 0 := by
      rw [List.countP_eq_zero]
      intro x hx
      rw [h b List.mem_cons_self x hx]
      exact Bool.false_ne_true
    rw [weight, first, ih fun bag hbag => h bag (List.mem_cons_of_mem b hbag)]

theorem weight_empty {bags : List (List α)} (h : ∀ bag ∈ bags, bag = []) : weight p bags = 0 :=
  weight_eq_zero p fun bag hbag _ hx => absurd hx (h bag hbag ▸ List.not_mem_nil)

theorem weight_pos {bags : List (List α)} {k : ℕ} {bag : List α} (h : bags[k]? = some bag) {x : α} (hx : x ∈ bag)
    (marked : p x = true) : 0 < weight p bags := by
  have emptied := weight_set p h []
  have counted : 0 < bag.countP p := List.countP_pos_iff.mpr ⟨x, hx, marked⟩
  rw [List.countP_nil] at emptied
  omega

theorem countP_eraseIdx_of_some {l : List α} {k : ℕ} {x : α} (h : l[k]? = some x) :
    (l.eraseIdx k).countP p + [x].countP p = l.countP p := by
  induction l generalizing k with
  | nil => simp at h
  | cons y l ih =>
    rw [← List.singleton_append, List.countP_append]
    cases k with
    | zero =>
      obtain rfl : y = x := by simpa using h
      rw [List.singleton_append, List.eraseIdx_cons_zero, Nat.add_comm]
    | succ k =>
      have tail := ih (k := k) (by simpa using h)
      rw [List.singleton_append, List.eraseIdx_cons_succ, ← List.singleton_append, List.countP_append]
      omega

end InterchainCommunication.BagCounting
