import InterchainCommunication.ListSums
import InterchainCommunication.MachineRuns

set_option autoImplicit false

/-!
# Threads that lock by scopes

A lock guard holds its mutex to the end of its block, so the locks of a thread
are nested like its blocks. Threads that take locks only upwards in an order do
not block each other for good, and data used only under its lock is used by one
thread at a time.
-/
namespace InterchainCommunication.ScopedLocks
open MachineRuns ListSums

/-- Code as far as its locks and its shared data go. A locked section has the code inside it and the
    code after it. Which way an `either` goes depends on what is left out. -/
inductive Code (L D : Type)
  | done
  | touch (datum : D) (writes : Bool) (next : Code L D)
  | locked (lock : L) (inside next : Code L D)
  | either (one other : Code L D)

variable {L D : Type}

namespace Code

def seq : Code L D → Code L D → Code L D
  | done, c => c
  | touch datum writes next, c => touch datum writes (next.seq c)
  | locked lock inside next, c => locked lock inside (next.seq c)
  | either one other, c => either (one.seq c) (other.seq c)

def all (cs : List (Code L D)) : Code L D := cs.foldr seq done

def length : Code L D → ℕ
  | done => 0
  | touch _ _ next => next.length + 1
  | locked _ inside next => inside.length + next.length + 2
  | either one other => max one.length other.length + 1

end Code

/-- What code may do with the locks it has around it: take a lock, use a datum. -/
structure Rules (L D : Type) where
  take : List L → L → Prop
  use : List L → D → Bool → Prop

def Code.Keeps (R : Rules L D) : List L → Code L D → Prop
  | _, .done => True
  | held, .touch datum writes next => R.use held datum writes ∧ next.Keeps R held
  | held, .locked lock inside next => R.take held lock ∧ inside.Keeps R (lock :: held) ∧ next.Keeps R held
  | held, .either one other => one.Keeps R held ∧ other.Keeps R held

section Keeps
variable {R : Rules L D} {held : List L}

theorem keeps_seq {a b : Code L D} (first : a.Keeps R held) (second : b.Keeps R held) : (a.seq b).Keeps R held := by
  induction a with
  | done => exact second
  | touch datum writes next ih => exact ⟨first.1, ih first.2⟩
  | locked lock inside next _ ih => exact ⟨first.1, first.2.1, ih first.2.2⟩
  | either one other ih₁ ih₂ => exact ⟨ih₁ first.1, ih₂ first.2⟩

theorem keeps_all {cs : List (Code L D)} (each : ∀ c ∈ cs, c.Keeps R held) : (Code.all cs).Keeps R held := by
  induction cs with
  | nil => trivial
  | cons c cs ih =>
    exact keeps_seq (each c List.mem_cons_self) (ih fun d hd => each d (List.mem_cons_of_mem c hd))

theorem keeps_list {cs : List (Code L D)} (each : cs.Forall (Code.Keeps R held)) : (Code.all cs).Keeps R held :=
  keeps_all (List.forall_iff_forall_mem.mp each)

end Keeps

/-- A thread inside its sections, the innermost first, each with what comes after it. -/
structure Thread (L D : Type) where
  now : Code L D
  sections : List (L × Code L D)

namespace Thread

def held (t : Thread L D) : List L := t.sections.map Prod.fst

def Finished (t : Thread L D) : Prop := t.now = .done ∧ t.sections = []

def start (c : Code L D) : Thread L D := ⟨c, []⟩

/-- The next step, unless the lock it needs is not free. -/
def advance (free : L → Bool) (choice : Bool) : Thread L D → Option (Thread L D)
  | ⟨.touch _ _ next, sections⟩ => some ⟨next, sections⟩
  | ⟨.locked lock inside next, sections⟩ => if free lock then some ⟨inside, (lock, next) :: sections⟩ else none
  | ⟨.either one other, sections⟩ => some ⟨if choice then one else other, sections⟩
  | ⟨.done, (_, next) :: sections⟩ => some ⟨next, sections⟩
  | ⟨.done, []⟩ => none

def length (t : Thread L D) : ℕ := t.now.length + (t.sections.map fun s => s.2.length + 1).sum

def KeepsSections (R : Rules L D) : List (L × Code L D) → Prop
  | [] => True
  | (lock, next) :: sections =>
    R.take (sections.map Prod.fst) lock ∧ next.Keeps R (sections.map Prod.fst) ∧ KeepsSections R sections

structure Keeps (R : Rules L D) (t : Thread L D) : Prop where
  now : t.now.Keeps R t.held
  sections : KeepsSections R t.sections

section Advance
variable {R : Rules L D} {free : L → Bool} {choice : Bool} {t t' : Thread L D}

theorem Keeps.advance (h : t.Keeps R) (step : t.advance free choice = some t') : t'.Keeps R := by
  obtain ⟨now, sections⟩ := t
  cases now with
  | touch datum writes next =>
    obtain rfl := Option.some.inj step
    exact ⟨h.now.2, h.sections⟩
  | locked lock inside next =>
    simp only [Thread.advance] at step
    split at step
    · obtain rfl := Option.some.inj step
      exact ⟨h.now.2.1, h.now.1, h.now.2.2, h.sections⟩
    · cases step
  | either one other =>
    obtain rfl := Option.some.inj step
    cases choice with
    | true => exact ⟨h.now.1, h.sections⟩
    | false => exact ⟨h.now.2, h.sections⟩
  | done =>
    cases sections with
    | nil => cases step
    | cons outer sections =>
      obtain rfl := Option.some.inj step
      exact ⟨h.sections.2.1, h.sections.2.2⟩

theorem held_advance (step : t.advance free choice = some t') {lock : L} (now : lock ∈ t'.held) :
    lock ∈ t.held ∨ free lock = true := by
  obtain ⟨code, sections⟩ := t
  cases code with
  | touch datum writes next =>
    obtain rfl := Option.some.inj step
    exact .inl now
  | locked lock' inside next =>
    simp only [Thread.advance] at step
    split at step
    · rename_i open'
      obtain rfl := Option.some.inj step
      rcases List.mem_cons.mp now with rfl | before
      · exact .inr open'
      · exact .inl before
    · cases step
  | either one other =>
    obtain rfl := Option.some.inj step
    exact .inl now
  | done =>
    cases sections with
    | nil => cases step
    | cons outer sections =>
      obtain rfl := Option.some.inj step
      exact .inl (List.mem_cons_of_mem _ now)

theorem length_advance (step : t.advance free choice = some t') : t'.length < t.length := by
  obtain ⟨code, sections⟩ := t
  cases code with
  | touch datum writes next =>
    obtain rfl := Option.some.inj step
    simp only [Thread.length, Code.length]
    omega
  | locked lock inside next =>
    simp only [Thread.advance] at step
    split at step
    · obtain rfl := Option.some.inj step
      simp only [Thread.length, Code.length, List.map_cons, List.sum_cons]
      omega
    · cases step
  | either one other =>
    obtain rfl := Option.some.inj step
    have one_le := Nat.le_max_left one.length other.length
    have other_le := Nat.le_max_right one.length other.length
    cases choice <;> simp only [Thread.length, Code.length, if_true, Bool.false_eq_true, if_false] <;> omega
  | done =>
    cases sections with
    | nil => cases step
    | cons outer sections =>
      obtain rfl := Option.some.inj step
      simp only [Thread.length, Code.length, List.map_cons, List.sum_cons]
      omega

theorem waits_of_stuck (stuck : t.advance free choice = none) (left : ¬t.Finished) :
    ∃ lock inside next, t.now = .locked lock inside next ∧ free lock = false := by
  obtain ⟨code, sections⟩ := t
  cases code with
  | touch => cases stuck
  | either => cases stuck
  | done =>
    cases sections with
    | nil => exact absurd ⟨rfl, rfl⟩ left
    | cons => cases stuck
  | locked lock inside next =>
    refine ⟨lock, inside, next, rfl, ?_⟩
    simp only [Thread.advance] at stuck
    split at stuck
    · cases stuck
    · rename_i shut
      exact eq_false_of_ne_true shut

end Advance
end Thread

/-- Two threads never hold the same lock. -/
def Exclusive (s : List (Thread L D)) : Prop :=
  ∀ (i j : ℕ) (t u : Thread L D) (lock : L), s[i]? = some t → s[j]? = some u →
    lock ∈ t.held → lock ∈ u.held → i = j

theorem exclusive_start (codes : List (Code L D)) : Exclusive (codes.map Thread.start) := by
  intro i j t u lock at_i at_j mine
  obtain ⟨c, -, rfl⟩ := List.mem_map.mp (List.mem_of_getElem? at_i)
  cases mine

/-- Each thread has rules of its own. -/
def KeepAll (rules : ℕ → Rules L D) (s : List (Thread L D)) : Prop :=
  ∀ (k : ℕ) (t : Thread L D), s[k]? = some t → t.Keeps (rules k)

theorem keeps_start {rules : ℕ → Rules L D} {codes : List (Code L D)}
    (each : ∀ (k : ℕ) (c : Code L D), codes[k]? = some c → c.Keeps (rules k) []) :
    KeepAll rules (codes.map Thread.start) := by
  intro k t at_k
  rw [List.getElem?_map] at at_k
  obtain ⟨c, at_c, rfl⟩ := Option.map_eq_some_iff.mp at_k
  exact ⟨each k c at_c, trivial⟩

section Machine
variable [DecidableEq L]

def free (s : List (Thread L D)) (lock : L) : Bool := s.all fun t => decide (lock ∉ t.held)

/-- A schedule says who goes next and which way. The answer is whether that was a step. -/
def lockMachine : Machine (List (Thread L D)) (ℕ × Bool) Bool where
  step s i :=
    match s[i.1]?.bind (·.advance (free s) i.2) with
    | some t' => (s.set i.1 t', true)
    | none => (s, false)

variable {R : Rules L D} {s : List (Thread L D)} {i : ℕ × Bool}

theorem step_cases (s : List (Thread L D)) (i : ℕ × Bool) :
    (∃ t t', s[i.1]? = some t ∧ t.advance (free s) i.2 = some t' ∧
      lockMachine.step s i = (s.set i.1 t', true)) ∨ lockMachine.step s i = (s, false) := by
  simp only [lockMachine]
  cases moved : s[i.1]?.bind (·.advance (free s) i.2) with
  | none => exact .inr rfl
  | some t' =>
    obtain ⟨t, at_i, advanced⟩ := Option.bind_eq_some_iff.mp moved
    exact .inl ⟨t, t', at_i, advanced, rfl⟩

theorem not_free {s : List (Thread L D)} {lock : L} (taken : free s lock = false) : ∃ t ∈ s, lock ∈ t.held := by
  simpa [free] using taken

theorem free_held {s : List (Thread L D)} {lock : L} (open' : free s lock = true) {t : Thread L D} (here : t ∈ s) :
    lock ∉ t.held := by
  have each := List.all_eq_true.mp open' t here
  simpa using each

theorem exclusive_step (h : Exclusive s) (i : ℕ × Bool) : Exclusive (lockMachine.step s i).1 := by
  rcases step_cases s i with ⟨t, t', at_i, advanced, stepped⟩ | same
  · have only (j : ℕ) (u : Thread L D) (lock : L) (at_j : s[j]? = some u) (mine : lock ∈ t'.held)
        (yours : lock ∈ u.held) : i.1 = j := by
      rcases Thread.held_advance advanced mine with before | open'
      · exact h i.1 j t u lock at_i at_j before yours
      · exact absurd yours (free_held open' (List.mem_of_getElem? at_j))
    rw [stepped]
    intro j k u v lock at_j at_k mine yours
    rw [List.getElem?_set] at at_j at_k
    have within : i.1 < s.length := (List.getElem?_eq_some_iff.mp at_i).1
    by_cases ij : i.1 = j
    · by_cases ik : i.1 = k
      · exact ij.symm.trans ik
      · rw [if_pos ij, if_pos within] at at_j
        rw [if_neg ik] at at_k
        obtain rfl := Option.some.inj at_j
        exact ij.symm.trans (only k v lock at_k mine yours)
    · rw [if_neg ij] at at_j
      by_cases ik : i.1 = k
      · rw [if_pos ik, if_pos within] at at_k
        obtain rfl := Option.some.inj at_k
        exact (only j u lock at_j yours mine).symm.trans ik
      · rw [if_neg ik] at at_k
        exact h j k u v lock at_j at_k mine yours
  · rw [same]
    exact h

theorem exclusive_run (h : Exclusive s) (schedule : List (ℕ × Bool)) : Exclusive (lockMachine.final s schedule) :=
  lockMachine.invariant schedule h fun _ i _ now => exclusive_step now i

theorem keeps_run {rules : ℕ → Rules L D} (h : KeepAll rules s) (schedule : List (ℕ × Bool)) :
    KeepAll rules (lockMachine.final s schedule) := by
  refine lockMachine.invariant schedule h ?_
  intro s i _ now k u at_k
  rcases step_cases s i with ⟨t, t', at_i, advanced, stepped⟩ | same
  · rw [stepped, List.getElem?_set] at at_k
    by_cases here : i.1 = k
    · subst here
      rw [if_pos rfl, if_pos (List.getElem?_eq_some_iff.mp at_i).1] at at_k
      obtain rfl := Option.some.inj at_k
      exact (now i.1 t at_i).advance advanced
    · rw [if_neg here] at at_k
      exact now k u at_k
  · rw [same] at at_k
    exact now k u at_k

/-- Every step uses up some code. -/
theorem steps_bounded (s : List (Thread L D)) (schedule : List (ℕ × Bool)) :
    ((lockMachine.trace s schedule).filter fun e => e.2).length +
      ((lockMachine.final s schedule).map Thread.length).sum ≤ (s.map Thread.length).sum := by
  induction schedule generalizing s with
  | nil => simp
  | cons i schedule ih =>
    have rest := ih (lockMachine.step s i).1
    rw [Machine.trace_cons, Machine.final_cons]
    rcases step_cases s i with ⟨t, t', at_i, advanced, stepped⟩ | same
    · have lower := Thread.length_advance advanced
      have total := sum_set (f := Thread.length) at_i t'
      rw [stepped] at rest ⊢
      simp only [List.filter_cons, if_true, List.length_cons] at rest ⊢
      omega
    · rw [same] at rest ⊢
      simpa [List.filter_cons] using rest

end Machine

section Order
variable [DecidableEq L] {rank : L → ℕ} {s : List (Thread L D)}

/-- Under a lock only locks above it are taken. -/
def upwards (rank : L → ℕ) (held : List L) (lock : L) : Prop := ∀ l ∈ held, rank l < rank lock

/-- The deadlock rule. If every thread takes locks only upwards, some thread can go on unless all are
    through: the holder of a lock that is waited for waits, if at all, for a higher one. -/
theorem some_advances {rules : ℕ → Rules L D}
    (up : ∀ k held lock, (rules k).take held lock → upwards rank held lock) (keeps : KeepAll rules s)
    (left : ∃ t ∈ s, ¬t.Finished) :
    ∃ k, (lockMachine.step s (k, true)).2 = true := by
  by_contra halted
  have stuck (k : ℕ) (t : Thread L D) (at_k : s[k]? = some t) : t.advance (free s) true = none := by
    cases moved : t.advance (free s) true with
    | none => rfl
    | some t' =>
      refine absurd ⟨k, ?_⟩ halted
      simp only [lockMachine, at_k, Option.bind_some, moved]
  have climb (n : ℕ) : ∃ (k : ℕ) (t : Thread L D) (lock : L) (inside next : Code L D), s[k]? = some t ∧
      t.now = .locked lock inside next ∧ free s lock = false ∧ n ≤ rank lock := by
    induction n with
    | zero =>
      obtain ⟨t, here, unfinished⟩ := left
      obtain ⟨k, at_k⟩ := List.mem_iff_getElem?.mp here
      obtain ⟨lock, inside, next, wants, taken⟩ := Thread.waits_of_stuck (stuck k t at_k) unfinished
      exact ⟨k, t, lock, inside, next, at_k, wants, taken, Nat.zero_le _⟩
    | succ n ih =>
      obtain ⟨-, -, lock, -, -, -, -, taken, high⟩ := ih
      obtain ⟨u, there, holds⟩ := not_free taken
      obtain ⟨j, at_j⟩ := List.mem_iff_getElem?.mp there
      have unfinished : ¬u.Finished := by
        intro finished
        simp [Thread.held, finished.2] at holds
      obtain ⟨lock', inside, next, wants, taken'⟩ := Thread.waits_of_stuck (stuck j u at_j) unfinished
      have kept := (keeps j u at_j).now
      rw [wants] at kept
      have above := up j _ _ kept.1 lock holds
      exact ⟨j, u, lock', inside, next, at_j, wants, taken', by omega⟩
  -- but the locks that threads wait for are finitely many
  have bounded : ∃ b, ∀ t ∈ s, ∀ lock inside next, t.now = .locked lock inside next → rank lock < b := by
    clear halted stuck climb keeps left
    induction s with
    | nil => exact ⟨0, fun t here => nomatch here⟩
    | cons t s ih =>
      obtain ⟨b, below⟩ := ih
      cases now : t.now with
      | locked lock inside next =>
        refine ⟨max b (rank lock + 1), fun u here lock' inside' next' wants => ?_⟩
        rcases List.mem_cons.mp here with rfl | there
        · rw [now] at wants
          injection wants with same
          subst same
          omega
        · have low := below u there lock' inside' next' wants
          omega
      | done | touch | either =>
        refine ⟨b, fun u here lock' inside' next' wants => ?_⟩
        rcases List.mem_cons.mp here with rfl | there
        · rw [now] at wants
          cases wants
        · exact below u there lock' inside' next' wants
  obtain ⟨b, below⟩ := bounded
  obtain ⟨k, t, lock, inside, next, at_k, wants, -, high⟩ := climb b
  have low := below t (List.mem_of_getElem? at_k) lock inside next wants
  omega

end Order

/-- How the accesses to a datum are kept apart: by a lock, by leaving it to one thread, or by nobody
    writing it. -/
inductive Protection (L : Type)
  | mutex (lock : L)
  | thread (index : ℕ)
  | readOnly
  | unprotected

def Protection.Allows (index : ℕ) (held : List L) (writes : Bool) : Protection L → Prop
  | .mutex lock => lock ∈ held
  | .thread owner => index = owner
  | .readOnly => writes = false
  | .unprotected => True

section Races
variable {s : List (Thread L D)}

/-- Two threads are about to use the datum, and one of them is to write it. -/
def Raced (datum : D) (s : List (Thread L D)) : Prop :=
  ∃ (i j : ℕ) (t u : Thread L D) (w w' : Bool) (next next' : Code L D), i ≠ j ∧
    s[i]? = some t ∧ s[j]? = some u ∧ t.now = .touch datum w next ∧ u.now = .touch datum w' next' ∧ (w || w') = true

/-- The race rule. Threads that keep to the protection of a datum do not race for it. -/
theorem unprotected_of_raced {rules : ℕ → Rules L D} {protect : D → Protection L}
    (allowed : ∀ k held datum writes, (rules k).use held datum writes → (protect datum).Allows k held writes)
    (exclusive : Exclusive s) (keeps : KeepAll rules s) {datum : D}
    (raced : Raced datum s) : protect datum = .unprotected := by
  obtain ⟨i, j, t, u, w, w', next, next', apart, at_i, at_j, now, now', writes⟩ := raced
  have first := (keeps i t at_i).now
  rw [now] at first
  have second := (keeps j u at_j).now
  rw [now'] at second
  have mine := allowed i _ _ _ first.1
  have yours := allowed j _ _ _ second.1
  cases kind : protect datum with
  | mutex lock =>
    rw [kind] at mine yours
    exact absurd (exclusive i j t u lock at_i at_j mine yours) apart
  | thread owner =>
    rw [kind] at mine yours
    exact absurd (Eq.trans mine (Eq.symm yours)) apart
  | readOnly =>
    rw [kind] at mine yours
    obtain rfl : w = false := mine
    obtain rfl : w' = false := yours
    cases writes
  | unprotected => rfl

section Alone
variable [DecidableEq L] {k : ℕ} {t t' : Thread L D}

/-- The thread goes on alone with these choices, in the way of nobody but itself. -/
def Thread.alone : List Bool → Thread L D → Option (Thread L D)
  | [], t => some t
  | choice :: choices, t => (t.advance (fun lock => decide (lock ∉ t.held)) choice).bind (Thread.alone choices)

theorem free_alone (at_k : s[k]? = some t) (others : ∀ (j : ℕ) (u : Thread L D), j ≠ k → s[j]? = some u → u.held = []) :
    free s = fun lock => decide (lock ∉ t.held) := by
  funext lock
  rw [Bool.eq_iff_iff, decide_eq_true_iff]
  constructor
  · intro open'
    exact free_held open' (List.mem_of_getElem? at_k)
  · intro mine
    refine List.all_eq_true.mpr fun u there => ?_
    obtain ⟨j, at_j⟩ := List.mem_iff_getElem?.mp there
    rw [decide_eq_true_iff]
    by_cases here : j = k
    · subst here
      obtain rfl := Option.some.inj (at_k.symm.trans at_j)
      exact mine
    · rw [others j u here at_j]
      exact List.not_mem_nil

/-- Where the others hold nothing, a schedule may let one thread run alone. -/
theorem final_alone (at_k : s[k]? = some t) (others : ∀ (j : ℕ) (u : Thread L D), j ≠ k → s[j]? = some u → u.held = [])
    {choices : List Bool} (run : t.alone choices = some t') :
    lockMachine.final s (choices.map fun choice => (k, choice)) = s.set k t' := by
  induction choices generalizing s t with
  | nil =>
    obtain rfl := Option.some.inj run
    obtain ⟨within, rfl⟩ := List.getElem?_eq_some_iff.mp at_k
    exact (List.set_getElem_self within).symm
  | cons choice choices ih =>
    obtain ⟨next, advanced, rest⟩ := Option.bind_eq_some_iff.mp run
    have within := (List.getElem?_eq_some_iff.mp at_k).1
    have stepped : (lockMachine.step s (k, choice)).1 = s.set k next := by
      rw [← free_alone at_k others] at advanced
      simp only [lockMachine, at_k, Option.bind_some, advanced]
    have now : (s.set k next)[k]? = some next := by rw [List.getElem?_set_self within]
    rw [List.map_cons, Machine.final_cons, stepped, ih now ?_ rest, List.set_set]
    intro j u apart at_j
    rw [List.getElem?_set_ne (fun same => apart same.symm)] at at_j
    exact others j u apart at_j

/-- Two threads race for a datum if each can come to it, and the first can wait there with no lock. -/
theorem raced_of_alone {a b : Code L D} {datum : D} {first second : List Bool} {w w' : Bool} {next next' : Code L D}
    {sections : List (L × Code L D)} (run : (Thread.start a).alone first = some ⟨.touch datum w next, []⟩)
    (run' : (Thread.start b).alone second = some ⟨.touch datum w' next', sections⟩) (writes : (w || w') = true) :
    ∃ schedule, Raced datum (lockMachine.final [Thread.start a, Thread.start b] schedule) := by
  refine ⟨(first.map fun choice => (0, choice)) ++ second.map fun choice => (1, choice), ?_⟩
  have one : lockMachine.final [Thread.start a, Thread.start b] (first.map fun choice => (0, choice)) =
      [⟨.touch datum w next, []⟩, Thread.start b] := by
    refine final_alone rfl (fun j u apart at_j => ?_) run
    obtain ⟨c, -, rfl⟩ : ∃ c, c ∈ [a, b] ∧ Thread.start c = u := by
      simpa [eq_comm] using List.mem_of_getElem? at_j
    rfl
  have two : lockMachine.final [⟨.touch datum w next, []⟩, Thread.start b] (second.map fun choice => (1, choice)) =
      [⟨.touch datum w next, []⟩, ⟨.touch datum w' next', sections⟩] := by
    refine final_alone rfl (fun j u apart at_j => ?_) run'
    cases j with
    | zero =>
      obtain rfl := Option.some.inj at_j
      rfl
    | succ j =>
      cases j with
      | zero => exact absurd rfl apart
      | succ j => cases at_j
  rw [Machine.final_append, one, two]
  exact ⟨0, 1, _, _, w, w', next, next', by decide, rfl, rfl, rfl, rfl, writes⟩

end Alone
end Races
end InterchainCommunication.ScopedLocks
