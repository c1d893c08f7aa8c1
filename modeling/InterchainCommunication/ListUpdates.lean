import Mathlib.Data.List.Induction
import Mathlib.Data.List.Nodup

set_option autoImplicit false

namespace InterchainCommunication.ListUpdates

theorem foldlM_exists {α σ ε : Type} {f : σ → α → Except ε σ} {P : List α → σ → Prop} (l : List α)
    (step : ∀ done x rest s, l = done ++ x :: rest → P done s → ∃ s', f s x = .ok s' ∧ P (done ++ [x]) s')
    {s : σ} (start : P [] s) : ∃ s', l.foldlM f s = .ok s' ∧ P l s' := by
  induction l using List.reverseRecOn with
  | nil => exact ⟨s, rfl, start⟩
  | append_singleton l x ih =>
    obtain ⟨s₁, run, h₁⟩ := ih fun done y rest s hl => step done y (rest ++ [x]) s (by simp [hl])
    obtain ⟨s₂, last, h₂⟩ := step l x [] s₁ rfl h₁
    refine ⟨s₂, ?_, h₂⟩
    rw [List.foldlM_append, run]
    change [x].foldlM f s₁ = .ok s₂
    rw [List.foldlM_cons, last]
    rfl

theorem foldlM_keeps {α σ ε : Type} {f : σ → α → Except ε σ} {P : σ → Prop} {l : List α}
    (step : ∀ s, ∀ x ∈ l, ∀ s', f s x = .ok s' → P s → P s') {s s' : σ} (run : l.foldlM f s = .ok s')
    (start : P s) : P s' := by
  induction l generalizing s with
  | nil =>
    obtain rfl : s = s' := Except.ok.inj run
    exact start
  | cons x l ih =>
    rw [List.foldlM_cons] at run
    cases first : f s x with
    | error e =>
      rw [first] at run
      cases run
    | ok s₁ =>
      rw [first] at run
      exact ih (fun s y hy => step s y (List.mem_cons_of_mem x hy)) run
        (step s x List.mem_cons_self s₁ first start)

theorem getElem?_append_of_some {α : Type} {l : List α} {k : ℕ} {x : α} (h : l[k]? = some x) (l' : List α) :
    (l ++ l')[k]? = some x := by
  rw [List.getElem?_append_left (List.getElem?_eq_some_iff.mp h).1, h]

theorem set_eq_modify {α : Type} {l : List α} {r : ℕ} {x : α} (h : l[r]? = some x) (f : α → α) :
    l.set r (f x) = l.modify r f := by
  rw [List.modify_eq_set_getElem?, h]
  rfl

theorem set_same {α : Type} {l : List α} {r : ℕ} {x : α} (h : l[r]? = some x) : l.set r x = l := by
  obtain ⟨inside, rfl⟩ := List.getElem?_eq_some_iff.mp h
  exact List.set_getElem_self inside

theorem modify_of_none {α : Type} {l : List α} {r : ℕ} (h : l[r]? = none) (f : α → α) : l.modify r f = l :=
  List.modify_eq_self (List.getElem?_eq_none_iff.mp h)

theorem mem_modify {α : Type} {l : List α} {i : ℕ} {f : α → α} {x : α} (h : x ∈ l.modify i f) :
    x ∈ l ∨ ∃ y ∈ l, x = f y := by
  cases hy : l[i]? with
  | none =>
    rw [modify_of_none hy] at h
    exact .inl h
  | some y =>
    rw [← set_eq_modify hy] at h
    rcases List.mem_or_eq_of_mem_set h with old | rfl
    · exact .inl old
    · exact .inr ⟨y, List.mem_of_getElem? hy, rfl⟩

theorem getElem?_foldl_modify {α : Type} (f : α → α) {ks : List ℕ} (once : ks.Nodup) (l : List α) (k : ℕ) :
    (ks.foldl (fun l r => l.modify r f) l)[k]? = if k ∈ ks then l[k]?.map f else l[k]? := by
  induction ks generalizing l with
  | nil => simp
  | cons r ks ih =>
    rw [List.nodup_cons] at once
    rw [List.foldl_cons, ih once.2, List.getElem?_modify]
    by_cases same : r = k
    · subst same
      simp [once.1]
    · have other : ¬ k = r := fun e => same e.symm
      simp [same, other]

theorem foldl_modify_range {α : Type} (f : α → α) (l : List α) :
    (List.range l.length).foldl (fun l r => l.modify r f) l = l.map f := by
  apply List.ext_getElem?
  intro k
  rw [getElem?_foldl_modify f List.nodup_range, List.getElem?_map]
  rcases Nat.lt_or_ge k l.length with inside | outside
  · rw [if_pos (List.mem_range.mpr inside)]
  · rw [List.getElem?_eq_none_iff.mpr outside, Option.map_none, ite_self]

theorem getElem?_set_cases {α : Type} {l : List α} {k m : ℕ} {x y : α} (h : (l.set k x)[m]? = some y) :
    (m = k ∧ y = x) ∨ l[m]? = some y := by
  rw [List.getElem?_set] at h
  by_cases same : k = m
  · rw [if_pos same] at h
    split at h
    · exact .inl ⟨same.symm, (Option.some.inj h).symm⟩
    · cases h
  · rw [if_neg same] at h
    exact .inr h

theorem getElem?_set_split {α : Type} {l : List α} {k m : ℕ} {x y : α} (h : (l.set k x)[m]? = some y) :
    (m = k ∧ y = x) ∨ (k ≠ m ∧ l[m]? = some y) := by
  by_cases same : k = m
  · subst same
    rw [List.getElem?_set] at h
    simp only [if_true] at h
    split at h
    · exact .inl ⟨rfl, (Option.some.inj h).symm⟩
    · cases h
  · exact .inr ⟨same, (List.getElem?_set_ne same).symm.trans h⟩

theorem mem_eraseIdx_key {α β : Type} {f : α → β} {l : List α} (once : (l.map f).Nodup) {k : ℕ} {x : α}
    (found : l[k]? = some x) {y : α} : y ∈ l.eraseIdx k ↔ y ∈ l ∧ f y ≠ f x := by
  rw [List.mem_eraseIdx_iff_getElem?]
  have inside : k < (l.map f).length := by
    rw [List.length_map]
    exact (List.getElem?_eq_some_iff.mp found).1
  constructor
  · rintro ⟨m, other, at_m⟩
    refine ⟨List.mem_of_getElem? at_m, fun same => other ?_⟩
    have keys : (l.map f)[k]? = (l.map f)[m]? := by
      rw [List.getElem?_map, List.getElem?_map, found, at_m, Option.map_some, Option.map_some, same]
    exact ((List.getElem?_inj inside once).mp keys).symm
  · rintro ⟨member, other⟩
    obtain ⟨m, at_m⟩ := List.getElem?_of_mem member
    refine ⟨m, ?_, at_m⟩
    rintro rfl
    exact other (congrArg f (Option.some.inj (at_m.symm.trans found)))

theorem eraseIdx_lengths {α β : Type} {l : List α} {l' : List β} (same : l'.length = l.length) {k : ℕ} {x : α}
    (found : l[k]? = some x) : (l'.eraseIdx k).length = (l.eraseIdx k).length := by
  have inside : k < l.length := (List.getElem?_eq_some_iff.mp found).1
  rw [List.length_eraseIdx_of_lt (same ▸ inside), List.length_eraseIdx_of_lt inside, same]

end InterchainCommunication.ListUpdates
