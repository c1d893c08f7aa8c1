import Mathlib.Algebra.BigOperators.Group.List.Basic
import Mathlib.Algebra.Order.Ring.Nat
import Mathlib.Tactic.Common

set_option autoImplicit false

namespace InterchainCommunication.ListSums
variable {α β : Type} {f : α → ℕ}

theorem sum_set {l : List α} {k : ℕ} {x : α} (at_k : l[k]? = some x) (y : α) :
    ((l.set k y).map f).sum + f x = (l.map f).sum + f y := by
  induction l generalizing k with
  | nil => cases at_k
  | cons z l ih =>
    cases k with
    | zero =>
      obtain rfl := Option.some.inj at_k
      simp only [List.set_cons_zero, List.map_cons, List.sum_cons]
      omega
    | succ k =>
      have rest := ih (k := k) at_k
      simp only [List.set_cons_succ, List.map_cons, List.sum_cons]
      omega

theorem sum_eraseIdx {l : List α} {k : ℕ} {x : α} (at_k : l[k]? = some x) :
    ((l.eraseIdx k).map f).sum + f x = (l.map f).sum := by
  induction l generalizing k with
  | nil => cases at_k
  | cons z l ih =>
    cases k with
    | zero =>
      obtain rfl := Option.some.inj at_k
      simp only [List.eraseIdx_cons_zero, List.map_cons, List.sum_cons]
      omega
    | succ k =>
      have rest := ih (k := k) at_k
      simp only [List.eraseIdx_cons_succ, List.map_cons, List.sum_cons]
      omega

theorem sum_map_le {g : α → α} {c : ℕ} (each : ∀ x, f (g x) ≤ f x + c) (l : List α) :
    ((l.map g).map f).sum ≤ (l.map f).sum + c * l.length := by
  induction l with
  | nil => exact Nat.zero_le _
  | cons x l ih =>
    have first := each x
    simp only [List.map_cons, List.sum_cons, List.length_cons, Nat.mul_succ]
    omega

theorem sum_modify {g : α → α} (same : ∀ x, f (g x) = f x) (l : List α) (k : ℕ) :
    ((l.modify k g).map f).sum = (l.map f).sum := by
  induction l generalizing k with
  | nil => simp
  | cons x l ih =>
    cases k with
    | zero => simp only [List.modify_zero_cons, List.map_cons, List.sum_cons, same]
    | succ k => simp only [List.modify_succ_cons, List.map_cons, List.sum_cons, ih]

theorem zip_set (l : List α) (l' : List β) (k : ℕ) (x : α) (y : β) :
    (l.set k x).zip (l'.set k y) = (l.zip l').set k (x, y) := by
  induction l generalizing l' k with
  | nil => rfl
  | cons z l ih =>
    cases l' with
    | nil => simp
    | cons z' l' =>
      cases k with
      | zero => rfl
      | succ k =>
        simp only [List.set_cons_succ, List.zip_cons_cons, ih]

theorem zip_modify (l : List α) (l' : List β) (k : ℕ) (g : β → β) :
    l.zip (l'.modify k g) = (l.zip l').modify k (Prod.map id g) := by
  induction l generalizing l' k with
  | nil => simp
  | cons z l ih =>
    cases l' with
    | nil => simp
    | cons z' l' =>
      cases k with
      | zero => rfl
      | succ k => simp only [List.modify_succ_cons, List.zip_cons_cons, ih]

end InterchainCommunication.ListSums
