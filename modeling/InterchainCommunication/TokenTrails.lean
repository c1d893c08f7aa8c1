import InterchainCommunication.ListSums
import Mathlib.Logic.Function.Basic

set_option autoImplicit false

/-!
# Tokens and the trails they leave

A token is at one place at a time, and some places keep their tokens in lists.
Moves may write entries about their token. Whatever the order in which any number
of tokens move, what was written of one of them is a function of its place.
-/
namespace InterchainCommunication.TokenTrails
open ListSums

section Copies
variable {α β : Type} [DecidableEq β]

/-- How often an item is in a list. -/
def copies (e : β) (l : List β) : ℕ := l.countP fun x => x = e

@[simp] theorem copies_nil (e : β) : copies e [] = 0 := rfl

@[simp] theorem copies_append (e : β) (l l' : List β) : copies e (l ++ l') = copies e l + copies e l' :=
  List.countP_append

theorem copies_singleton (e x : β) : copies e [x] = if x = e then 1 else 0 := by
  unfold copies
  rw [List.countP_cons, List.countP_nil, Nat.zero_add]
  simp

theorem copies_pos_iff {e : β} {l : List β} : 0 < copies e l ↔ e ∈ l := by
  unfold copies
  rw [List.countP_pos_iff]
  simp

theorem copies_flatMap_set {l : List α} {k : ℕ} {x : α} (at_k : l[k]? = some x) (y : α) (f : α → List β) (e : β) :
    copies e ((l.set k y).flatMap f) + copies e (f x) = copies e (l.flatMap f) + copies e (f y) := by
  unfold copies
  rw [List.countP_flatMap, List.countP_flatMap]
  exact sum_set (f := fun z => (f z).countP fun x => x = e) at_k y

theorem copies_flatMap_eraseIdx {l : List α} {k : ℕ} {x : α} (at_k : l[k]? = some x) (f : α → List β) (e : β) :
    copies e ((l.eraseIdx k).flatMap f) + copies e (f x) = copies e (l.flatMap f) := by
  unfold copies
  rw [List.countP_flatMap, List.countP_flatMap]
  exact sum_eraseIdx (f := fun z => (f z).countP fun x => x = e) at_k

end Copies

variable {κ σ ε : Type} [DecidableEq κ] [DecidableEq σ]

/-- Which places keep their tokens, what has been written of a token at a place, and whose token an
    entry is about. -/
structure Course (κ σ ε : Type) where
  holds : σ → Bool
  trail : κ → σ → List ε
  key : ε → κ

/-- What a token adds to the lists at its place. -/
def Course.kept (C : Course κ σ ε) (k : κ) (p : σ) : List (κ × σ) := if C.holds p then [(k, p)] else []

/-- The lists hold each token once, at its place, and the log is the tokens' trails in some order. -/
structure Tracked (C : Course κ σ ε) (place : κ → σ) (held : List (κ × σ)) (log : List ε) : Prop where
  once : ∀ k p, C.holds p = true → copies (k, p) held = if place k = p then 1 else 0
  wrote : ∀ k, log.filter (fun e => C.key e = k) = C.trail k (place k)

variable {C : Course κ σ ε} {place : κ → σ} {held held' : List (κ × σ)} {log : List ε}

theorem copies_kept (k k' : κ) (p : σ) {p' : σ} (holds : C.holds p' = true) :
    copies (k', p') (C.kept k p) = if k = k' ∧ p = p' then 1 else 0 := by
  unfold Course.kept
  by_cases same : p = p'
  · subst same
    rw [if_pos holds, copies_singleton]
    simp
  · split <;> simp [copies_singleton, same]

theorem Tracked.at_place (h : Tracked C place held log) {k : κ} {p : σ} (holds : C.holds p = true)
    (member : (k, p) ∈ held) : place k = p := by
  have counted := h.once k p holds
  have some_there := copies_pos_iff.mpr member
  by_contra other
  rw [if_neg other] at counted
  omega

theorem Tracked.same (h : Tracked C place held log) (same : ∀ e, copies e held' = copies e held) :
    Tracked C place held' log := ⟨fun k p holds => (same _).trans (h.once k p holds), h.wrote⟩

theorem Tracked.was_at (h : Tracked C place held log) {k : κ} {p p' : σ} (holds : C.holds p = true) (apart : p ≠ p')
    (moved : ∀ e, copies e held' + copies e [(k, p)] = copies e held + copies e (C.kept k p')) : place k = p := by
  have count := moved (k, p)
  have arrives : copies (k, p) (C.kept k p') = 0 := by
    rw [copies_kept k k p' holds, if_neg]
    exact fun same => apart same.2.symm
  rw [arrives, copies_singleton, if_pos rfl] at count
  exact h.at_place holds (copies_pos_iff.mp (by omega))

/-- The move rule. A token goes to another place and writes what its trail gains. -/
theorem Tracked.moves (h : Tracked C place held log) {k : κ} (p' : σ) {new : List ε}
    (moved : ∀ e, copies e held' + copies e (C.kept k (place k)) = copies e held + copies e (C.kept k p'))
    (gains : C.trail k p' = C.trail k (place k) ++ new) (about : ∀ e ∈ new, C.key e = k) :
    Tracked C (Function.update place k p') held' (log ++ new) := by
  constructor
  · intro k' p holds
    have count := moved (k', p)
    rw [copies_kept k k' _ holds, copies_kept k k' _ holds, h.once k' p holds] at count
    by_cases same : k = k'
    · subst same
      rw [Function.update_self]
      simp only [true_and] at count
      split_ifs at count ⊢ <;> omega
    · rw [Function.update_of_ne (Ne.symm same)]
      simp only [same, false_and, if_false] at count
      omega
  · intro k'
    rw [List.filter_append, h.wrote]
    by_cases same : k = k'
    · subst same
      rw [Function.update_self, gains, List.filter_eq_self.mpr fun e he => decide_eq_true (about e he)]
    · rw [Function.update_of_ne (Ne.symm same), List.filter_eq_nil_iff.mpr, List.append_nil]
      intro e he
      rw [about e he]
      simpa using same

end InterchainCommunication.TokenTrails
