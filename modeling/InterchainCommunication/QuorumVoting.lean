import Mathlib.Data.Finset.Card
import Mathlib.Logic.Function.Basic
import Mathlib.Tactic.Lemma

set_option autoImplicit false

/-!
# Votes counted against a quorum

Voters cast votes for items, and an item is final once as many voters as the
quorum asks for have voted for it. Votes are never taken back. Two final items
share the voters that their quorums have in excess of the electorate.
-/
namespace InterchainCommunication.QuorumVoting

structure Ballots (ι ν : Type) where
  votes : ι → Finset ν
  final : Finset ι

namespace Ballots
variable {ι ν : Type}

def empty : Ballots ι ν := ⟨fun _ => ∅, ∅⟩

/-- Exactly the items with a quorum are final. -/
def Counted (quorum : ℕ) (b : Ballots ι ν) : Prop :=
  ∀ i, i ∈ b.final ↔ quorum ≤ (b.votes i).card

theorem counted_empty {quorum : ℕ} (asks : 0 < quorum) : (empty : Ballots ι ν).Counted quorum := by
  intro i
  have none : ¬ quorum ≤ (∅ : Finset ν).card := by
    rw [Finset.card_empty]
    omega
  exact iff_of_false (Finset.notMem_empty i) none

variable [DecidableEq ι] [DecidableEq ν]

def cast (quorum : ℕ) (b : Ballots ι ν) (p : ι × ν) : Ballots ι ν :=
  let votes := Function.update b.votes p.1 (insert p.2 (b.votes p.1))
  ⟨votes, if quorum ≤ (votes p.1).card then insert p.1 b.final else b.final⟩

def castAll (quorum : ℕ) (b : Ballots ι ν) (ps : List (ι × ν)) : Ballots ι ν :=
  ps.foldl (cast quorum) b

theorem mem_votes_cast (quorum : ℕ) (b : Ballots ι ν) (p : ι × ν) (i : ι) (v : ν) :
    v ∈ (b.cast quorum p).votes i ↔ (i, v) = p ∨ v ∈ b.votes i := by
  obtain ⟨j, w⟩ := p
  change v ∈ Function.update b.votes j (insert w (b.votes j)) i ↔ _
  rw [Function.update_apply]
  by_cases same : i = j
  · subst same
    rw [if_pos rfl, Finset.mem_insert, Prod.mk.injEq]
    simp
  · rw [if_neg same, Prod.mk.injEq]
    simp [same]

theorem mem_final_cast (quorum : ℕ) (b : Ballots ι ν) (p : ι × ν) (i : ι) :
    i ∈ (b.cast quorum p).final ↔
      i ∈ b.final ∨ i = p.1 ∧ quorum ≤ ((b.cast quorum p).votes p.1).card := by
  change i ∈ (if quorum ≤ ((b.cast quorum p).votes p.1).card then insert p.1 b.final else b.final) ↔ _
  split
  · rename_i reached
    rw [Finset.mem_insert]
    tauto
  · rename_i short
    tauto

theorem votes_cast_mono (quorum : ℕ) (b : Ballots ι ν) (p : ι × ν) (i : ι) :
    b.votes i ⊆ (b.cast quorum p).votes i := by
  intro v hv
  exact (mem_votes_cast quorum b p i v).mpr (.inr hv)

theorem counted_cast {quorum : ℕ} {b : Ballots ι ν} (h : b.Counted quorum) (p : ι × ν) :
    (b.cast quorum p).Counted quorum := by
  intro i
  rw [mem_final_cast, h i]
  by_cases same : i = p.1
  · subst same
    have grown := Finset.card_le_card (votes_cast_mono quorum b p p.1)
    constructor
    · rintro (old | ⟨-, reached⟩)
      · exact old.trans grown
      · exact reached
    · intro reached
      exact .inr ⟨rfl, reached⟩
  · have votes : (b.cast quorum p).votes i = b.votes i := Function.update_of_ne same _ _
    rw [votes]
    exact or_iff_left fun moved => same moved.1

def Backed (quorum : ℕ) (b : Ballots ι ν) : Prop := ∀ i ∈ b.final, quorum ≤ (b.votes i).card

theorem backed_cast {quorum : ℕ} {b : Ballots ι ν} (h : b.Backed quorum) (p : ι × ν) :
    (b.cast quorum p).Backed quorum := by
  intro i member
  rcases (mem_final_cast quorum b p i).mp member with old | ⟨rfl, reached⟩
  · exact (h i old).trans (Finset.card_le_card (votes_cast_mono quorum b p i))
  · exact reached

/-- The votes that find a quorum, against the items that become final by them. The two differ
    by the votes for final items. -/
theorem card_final_cast {quorum : ℕ} {b : Ballots ι ν} (h : b.Backed quorum) (p : ι × ν) :
    (if quorum ≤ ((b.cast quorum p).votes p.1).card then 1 else 0) + b.final.card =
      (b.cast quorum p).final.card + if p.1 ∈ b.final then 1 else 0 := by
  have moved : (b.cast quorum p).final =
      if quorum ≤ ((b.cast quorum p).votes p.1).card then insert p.1 b.final else b.final := rfl
  rw [moved]
  by_cases reached : quorum ≤ ((b.cast quorum p).votes p.1).card
  · rw [if_pos reached, if_pos reached]
    by_cases old : p.1 ∈ b.final
    · rw [if_pos old, Finset.insert_eq_of_mem old, Nat.add_comm]
    · rw [if_neg old, Finset.card_insert_of_notMem old, Nat.add_comm]
  · have fresh : p.1 ∉ b.final := fun old =>
      reached ((h p.1 old).trans (Finset.card_le_card (votes_cast_mono quorum b p p.1)))
    rw [if_neg reached, if_neg reached, if_neg fresh, Nat.add_comm]

theorem counted_castAll {quorum : ℕ} {b : Ballots ι ν} (h : b.Counted quorum) (ps : List (ι × ν)) :
    (b.castAll quorum ps).Counted quorum := by
  induction ps generalizing b with
  | nil => exact h
  | cons p ps ih => exact ih (counted_cast h p)

theorem final_castAll_mono (quorum : ℕ) (b : Ballots ι ν) (ps : List (ι × ν)) :
    b.final ⊆ (b.castAll quorum ps).final := by
  induction ps generalizing b with
  | nil => exact Finset.Subset.refl _
  | cons p ps ih =>
    have first : b.final ⊆ (b.cast quorum p).final := fun i hi =>
      (mem_final_cast quorum b p i).mpr (.inl hi)
    exact first.trans (ih (b.cast quorum p))

theorem mem_votes_castAll (quorum : ℕ) (b : Ballots ι ν) (ps : List (ι × ν)) (i : ι) (v : ν) :
    v ∈ (b.castAll quorum ps).votes i ↔ (i, v) ∈ ps ∨ v ∈ b.votes i := by
  induction ps generalizing b with
  | nil => simp [castAll]
  | cons p ps ih =>
    change v ∈ ((b.cast quorum p).castAll quorum ps).votes i ↔ _
    rw [ih, mem_votes_cast, List.mem_cons]
    tauto

end Ballots

variable {ι ν : Type} [DecidableEq ι] [DecidableEq ν]

theorem card_add_card_le {s t electorate : Finset ν} (hs : s ⊆ electorate) (ht : t ⊆ electorate) :
    s.card + t.card ≤ electorate.card + (s ∩ t).card := by
  rw [← Finset.card_union_add_card_inter]
  have union := Finset.card_le_card (Finset.union_subset hs ht)
  omega

/-- Quorum intersection over a whole run. -/
theorem shared_voters {quorum : ℕ} {ps : List (ι × ν)} {electorate : Finset ν} (asks : 0 < quorum)
    (known : ∀ p ∈ ps, p.2 ∈ electorate) {i j : ι} (hi : i ∈ (Ballots.empty.castAll quorum ps).final)
    (hj : j ∈ (Ballots.empty.castAll quorum ps).final) :
    2 * quorum ≤ electorate.card +
      ((Ballots.empty.castAll quorum ps).votes i ∩ (Ballots.empty.castAll quorum ps).votes j).card := by
  have counted := Ballots.counted_castAll (Ballots.counted_empty asks) ps
  have inside (k : ι) : (Ballots.empty.castAll quorum ps).votes k ⊆ electorate := by
    intro v hv
    rcases (Ballots.mem_votes_castAll quorum Ballots.empty ps k v).mp hv with voted | none
    · exact known (k, v) voted
    · exact absurd none (Finset.notMem_empty v)
  have overlap := card_add_card_le (inside i) (inside j)
  have hi' := (counted i).mp hi
  have hj' := (counted j).mp hj
  omega

/-- With quorums above half of the electorate, some voter voted for both. -/
theorem common_voter {quorum : ℕ} {ps : List (ι × ν)} {electorate : Finset ν} (asks : 0 < quorum)
    (majority : electorate.card < 2 * quorum) (known : ∀ p ∈ ps, p.2 ∈ electorate) {i j : ι}
    (hi : i ∈ (Ballots.empty.castAll quorum ps).final) (hj : j ∈ (Ballots.empty.castAll quorum ps).final) :
    ∃ v, (i, v) ∈ ps ∧ (j, v) ∈ ps := by
  have overlap := shared_voters asks known hi hj
  obtain ⟨v, hv⟩ : ((Ballots.empty.castAll quorum ps).votes i ∩
      (Ballots.empty.castAll quorum ps).votes j).Nonempty := by
    rw [← Finset.card_pos]
    omega
  rw [Finset.mem_inter, Ballots.mem_votes_castAll, Ballots.mem_votes_castAll] at hv
  refine ⟨v, hv.1.resolve_right (Finset.notMem_empty v), hv.2.resolve_right (Finset.notMem_empty v)⟩

end InterchainCommunication.QuorumVoting
