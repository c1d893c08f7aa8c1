import Mathlib.Algebra.Ring.Parity
import Mathlib.Data.List.Perm.Basic
import Mathlib.Tactic

set_option autoImplicit false

namespace InterchainCommunication.XorFolds

variable {α : Type}

def xorFold (h : α → UInt64) (l : List α) : UInt64 := l.foldl (fun acc x => acc ^^^ h x) 0

theorem foldl_xor_start (h : α → UInt64) (l : List α) (start : UInt64) :
    l.foldl (fun acc x => acc ^^^ h x) start = start ^^^ xorFold h l := by
  induction l generalizing start with
  | nil => exact UInt64.xor_zero.symm
  | cons x l ih => rw [xorFold, List.foldl_cons, List.foldl_cons, ih, ih, UInt64.zero_xor, UInt64.xor_assoc]

@[simp] theorem xorFold_nil (h : α → UInt64) : xorFold h [] = 0 := rfl

@[simp] theorem xorFold_cons (h : α → UInt64) (x : α) (l : List α) : xorFold h (x :: l) = h x ^^^ xorFold h l := by
  rw [xorFold, List.foldl_cons, foldl_xor_start, UInt64.zero_xor]

theorem xorFold_append (h : α → UInt64) (l l' : List α) : xorFold h (l ++ l') = xorFold h l ^^^ xorFold h l' := by
  induction l with
  | nil => exact UInt64.zero_xor.symm
  | cons x l ih => rw [List.cons_append, xorFold_cons, xorFold_cons, ih, UInt64.xor_assoc]

theorem xorFold_perm (h : α → UInt64) {l l' : List α} (same : l.Perm l') : xorFold h l = xorFold h l' := by
  induction same with
  | nil => rfl
  | cons x _ ih => rw [xorFold_cons, xorFold_cons, ih]
  | swap x y l =>
    rw [xorFold_cons, xorFold_cons, xorFold_cons, xorFold_cons, ← UInt64.xor_assoc, ← UInt64.xor_assoc,
      UInt64.xor_comm (h y)]
  | trans _ _ ih ih' => exact ih.trans ih'

section Counts
variable [BEq α] [LawfulBEq α]

/-- Pairs cancel, whatever the hash is. -/
theorem xorFold_of_even (h : α → UInt64) (l : List α) (even : ∀ x, Even (l.count x)) : xorFold h l = 0 := by
  induction hn : l.length using Nat.strongRecOn generalizing l with
  | _ n ih =>
    cases l with
    | nil => rfl
    | cons x l =>
      have again : x ∈ l := by
        have twice := even x
        rw [List.count_cons_self] at twice
        apply List.count_pos_iff.mp
        rcases Nat.eq_zero_or_pos (l.count x) with zero | pos
        · rw [zero] at twice
          exact absurd twice (by decide)
        · exact pos
      have pair : l.Perm (x :: l.erase x) := List.perm_cons_erase again
      have rest : ∀ y, Even ((l.erase x).count y) := by
        intro y
        have whole := even y
        rw [List.count_cons, pair.count_eq, List.count_cons, add_assoc] at whole
        have evens : Even ((if (x == y) = true then 1 else 0) + if (x == y) = true then 1 else 0) := Even.add_self _
        exact (Nat.even_add.mp whole).mpr evens
      have shorter : (l.erase x).length < n := by
        rw [← hn, List.length_cons, List.length_erase_of_mem again]
        omega
      rw [xorFold_cons, xorFold_perm h pair, xorFold_cons, ← UInt64.xor_assoc, UInt64.xor_self, UInt64.zero_xor]
      exact ih _ shorter _ rest rfl

/-- A hash that tells one item from all others. -/
def markOnly (x y : α) : UInt64 := if x == y then 1 else 0

theorem xorFold_markOnly (x : α) (l : List α) : xorFold (markOnly x) l = if Even (l.count x) then 0 else 1 := by
  induction l with
  | nil => rfl
  | cons y l ih =>
    rw [xorFold_cons, ih]
    by_cases same : x = y
    · subst same
      have flips : Even ((x :: l).count x) ↔ ¬ Even (l.count x) := by rw [List.count_cons_self, Nat.even_add_one]
      by_cases even : Even (l.count x)
      · rw [if_pos even, if_neg (fun odd => flips.mp odd even)]
        simp [markOnly]
      · rw [if_neg even, if_pos (flips.mpr even)]
        simp [markOnly]
    · have other : ¬ (x == y) = true := fun e => same (eq_of_beq e)
      rw [List.count_cons_of_ne (fun e => same e.symm), markOnly, if_neg other, UInt64.zero_xor]

theorem xorFold_eq_iff (l l' : List α) :
    (∀ h : α → UInt64, xorFold h l = xorFold h l') ↔ ∀ x, Even (l.count x) ↔ Even (l'.count x) := by
  constructor
  · intro same x
    have marked := same (markOnly x)
    rw [xorFold_markOnly, xorFold_markOnly] at marked
    by_cases left : Even (l.count x)
    · by_cases right : Even (l'.count x)
      · exact iff_of_true left right
      · rw [if_pos left, if_neg right] at marked
        exact absurd marked (by decide)
    · by_cases right : Even (l'.count x)
      · rw [if_neg left, if_pos right] at marked
        exact absurd marked (by decide)
      · exact iff_of_false left right
  · intro parity h
    have none : xorFold h (l ++ l') = 0 := by
      apply xorFold_of_even
      intro x
      rw [List.count_append, Nat.even_add]
      exact parity x
    rw [xorFold_append] at none
    exact UInt64.xor_eq_zero_iff.mp none

end Counts
end InterchainCommunication.XorFolds
