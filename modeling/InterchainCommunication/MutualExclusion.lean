import Mathlib.Logic.Basic

set_option autoImplicit false

namespace InterchainCommunication.MutualExclusion

/-- The mutex is locked exactly when a thread holds it, and no two threads do. -/
structure Exclusive {τ : Type} (locked : Bool) (holds : τ → Prop) : Prop where
  held : locked = true → ∃ t, holds t
  locks : ∀ t, holds t → locked = true
  one : ∀ t t', holds t → holds t' → t = t'

namespace Exclusive
variable {τ : Type} {locked : Bool} {holds holds' : τ → Prop}

theorem none_holds (h : Exclusive locked holds) (free : locked = false) (t : τ) : ¬holds t := by
  intro held
  exact absurd (free.symm.trans (h.locks t held)) (by decide)

theorem initial (none : ∀ t, ¬holds t) : Exclusive false holds where
  held := fun locked => nomatch locked
  locks := fun t held => absurd held (none t)
  one := fun t _ held => absurd held (none t)

theorem keep (h : Exclusive locked holds) (same : ∀ u, holds' u ↔ holds u) : Exclusive locked holds' where
  held := fun l => (h.held l).imp fun u held => (same u).mpr held
  locks := fun u held => h.locks u ((same u).mp held)
  one := fun u u' held held' => h.one u u' ((same u).mp held) ((same u').mp held')

variable {t : τ}

theorem pass (h : Exclusive locked holds) (same : holds' t ↔ holds t)
    (others : ∀ u, u ≠ t → (holds' u ↔ holds u)) : Exclusive locked holds' := by
  refine h.keep fun u => ?_
  by_cases mine : u = t
  · rw [mine]
    exact same
  · exact others u mine

theorem acquire (h : Exclusive locked holds) (free : locked = false) (now : holds' t)
    (others : ∀ u, u ≠ t → (holds' u ↔ holds u)) : Exclusive true holds' := by
  have only (u : τ) (held : holds' u) : u = t := by
    by_cases mine : u = t
    · exact mine
    · exact absurd ((others u mine).mp held) (h.none_holds free u)
  exact
    { held := fun _ => ⟨t, now⟩
      locks := fun _ _ => rfl
      one := fun u u' held held' => (only u held).trans (only u' held').symm }

theorem release (h : Exclusive locked holds) (holder : holds t) (gone : ¬holds' t)
    (others : ∀ u, u ≠ t → (holds' u ↔ holds u)) : Exclusive false holds' := by
  refine initial fun u held => ?_
  by_cases mine : u = t
  · exact gone (mine ▸ held)
  · exact mine (h.one u t ((others u mine).mp held) holder)

end Exclusive
end InterchainCommunication.MutualExclusion
