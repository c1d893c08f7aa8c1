import InterchainCommunication.ListUpdates
import InterchainCommunication.TransportModel
import Mathlib.Tactic

set_option autoImplicit false

/-!
# What becomes of a task

The transport seen as its tasks alone: a task is pushed into the queue, taken
out by one hand, counted, looked up, delivered and let go. The two counters and
the complete history of every task follow from where the task is.
-/
namespace InterchainCommunication.TaskCustody
open CoreTypes MachineRuns ListUpdates TransportModel

inductive Stage
  | popped (task : DeliveryTask)
  | counted (task : DeliveryTask)
  | looked (task : DeliveryTask) (deliver : Option ℕ)
  | calling (task : DeliveryTask) (deliver : ℕ)
  | delivered (task : DeliveryTask) (deliver : Option ℕ)
  deriving DecidableEq

def Stage.task : Stage → DeliveryTask
  | popped t | counted t | looked t _ | calling t _ | delivered t _ => t

/-- Taken out of the queue and not yet counted as in flight. -/
def inGap : Option Stage → Bool
  | some (.popped _) => true
  | _ => false

/-- Between the two updates of the counters. -/
def inFlight : Option Stage → Bool
  | none | some (.popped _) => false
  | _ => true

structure Custody where
  queue : List DeliveryTask
  pushes : ℕ
  hands : List (Option Stage)
  pending : ℕ
  inflight : ℕ

def Custody.hold (c : Custody) (k : ℕ) (h : Option Stage) : Custody := { c with hands := c.hands.set k h }

def taskOf : TransportEvent → Option DeliveryTask
  | .pushed _ t | .popped _ t _ | .lookedUp _ t _ | .called _ t _ | .callReturned _ t _ => some t
  | _ => none

/-- Every way a step can move a task. -/
inductive Moves : Custody → Option TransportEvent → Custody → Prop
  | keep (c : Custody) (e : Option TransportEvent) (quiet : e.bind taskOf = none) : Moves c e c
  | push (c : Custody) (client : ℕ) (t : DeliveryTask) (number : t.id = c.pushes) :
      Moves c (some (.pushed client t))
        { c with queue := c.queue ++ [t], pushes := c.pushes + 1, pending := c.pending + 1 }
  | pop (c : Custody) (k i : ℕ) (t : DeliveryTask) (now : ℤ) (free : c.hands[k]? = some none)
      (found : c.queue[i]? = some t) (earliest : ∀ u ∈ c.queue, t.deliverAt ≤ u.deliverAt)
      (due : t.deliverAt ≤ now) :
      Moves c (some (.popped k t now)) { c.hold k (some (.popped t)) with queue := c.queue.eraseIdx i }
  | count (c : Custody) (k : ℕ) (t : DeliveryTask) (held : c.hands[k]? = some (some (.popped t))) :
      Moves c none
        { c.hold k (some (.counted t)) with pending := dec c.pending, inflight := c.inflight + 1 }
  | look (c : Custody) (k : ℕ) (t : DeliveryTask) (f : Option ℕ)
      (held : c.hands[k]? = some (some (.counted t))) :
      Moves c (some (.lookedUp k t f)) (c.hold k (some (.looked t f)))
  | call (c : Custody) (k : ℕ) (t : DeliveryTask) (f : ℕ)
      (held : c.hands[k]? = some (some (.looked t (some f)))) :
      Moves c (some (.called k t f)) (c.hold k (some (.calling t f)))
  | skip (c : Custody) (k : ℕ) (t : DeliveryTask) (held : c.hands[k]? = some (some (.looked t none))) :
      Moves c none (c.hold k (some (.delivered t none)))
  | callReturn (c : Custody) (k : ℕ) (t : DeliveryTask) (f : ℕ)
      (held : c.hands[k]? = some (some (.calling t f))) :
      Moves c (some (.callReturned k t f)) (c.hold k (some (.delivered t (some f))))
  | finish (c : Custody) (k : ℕ) (t : DeliveryTask) (f : Option ℕ)
      (held : c.hands[k]? = some (some (.delivered t f))) :
      Moves c none { c.hold k none with inflight := dec c.inflight }

section Counters

/-- What the two counters count. -/
structure Balanced (c : Custody) : Prop where
  pending : c.pending = c.queue.length + c.hands.countP inGap
  inflight : c.inflight = c.hands.countP inFlight

theorem countP_hold {p : Option Stage → Bool} {hands : List (Option Stage)} {k : ℕ} {old : Option Stage}
    (held : hands[k]? = some old) (new : Option Stage) :
    (hands.set k new).countP p + (if p old then 1 else 0) = hands.countP p + (if p new then 1 else 0) := by
  obtain ⟨inside, rfl⟩ := List.getElem?_eq_some_iff.mp held
  rw [List.countP_set inside]
  have counted : (if p hands[k] then 1 else 0) ≤ hands.countP p := by
    split
    · rename_i marked
      exact List.countP_pos_iff.mpr ⟨_, List.getElem_mem inside, marked⟩
    · exact Nat.zero_le _
  omega

theorem countP_pos_of_held {p : Option Stage → Bool} {hands : List (Option Stage)} {k : ℕ} {h : Option Stage}
    (held : hands[k]? = some h) (marked : p h = true) : 0 < hands.countP p :=
  List.countP_pos_iff.mpr ⟨h, List.mem_of_getElem? held, marked⟩

theorem dec_of_pos {n : ℕ} (positive : 0 < n) : dec n = n - 1 := by
  cases n with
  | zero => exact absurd positive (Nat.lt_irrefl 0)
  | succ n => rfl

theorem Balanced.hold {c : Custody} (h : Balanced c) {k : ℕ} {old : Option Stage} (held : c.hands[k]? = some old)
    {new : Option Stage} (gap : inGap old = inGap new) (flight : inFlight old = inFlight new) :
    Balanced (c.hold k new) := by
  have gaps := countP_hold (p := inGap) held new
  have flights := countP_hold (p := inFlight) held new
  rw [gap] at gaps
  rw [flight] at flights
  constructor
  · change c.pending = c.queue.length + (c.hands.set k new).countP inGap
    rw [Nat.add_right_cancel gaps, h.pending]
  · exact h.inflight.trans (Nat.add_right_cancel flights).symm

theorem balanced_moves {c c' : Custody} {e : Option TransportEvent} (h : Balanced c) (moves : Moves c e c') :
    Balanced c' := by
  have pending := h.pending
  have inflight := h.inflight
  cases moves with
  | keep => exact h
  | push client t number =>
    refine ⟨?_, inflight⟩
    change c.pending + 1 = (c.queue ++ [t]).length + c.hands.countP inGap
    rw [List.length_append, List.length_singleton]
    omega
  | pop k i t now free found =>
    have gap := countP_hold (p := inGap) free (some (.popped t))
    have flight := countP_hold (p := inFlight) free (some (.popped t))
    have inside := (List.getElem?_eq_some_iff.mp found).1
    simp only [inGap, inFlight, Bool.false_eq_true, if_false, if_true] at gap flight
    constructor
    · change c.pending = (c.queue.eraseIdx i).length + (c.hands.set k _).countP inGap
      rw [List.length_eraseIdx_of_lt inside]
      omega
    · change c.inflight = (c.hands.set k _).countP inFlight
      omega
  | count k t held =>
    have gap := countP_hold (p := inGap) held (some (.counted t))
    have flight := countP_hold (p := inFlight) held (some (.counted t))
    have positive := countP_pos_of_held (p := inGap) held rfl
    simp only [inGap, inFlight, Bool.false_eq_true, if_false, if_true] at gap flight
    constructor
    · change dec c.pending = c.queue.length + (c.hands.set k _).countP inGap
      rw [dec_of_pos (by omega)]
      omega
    · change c.inflight + 1 = (c.hands.set k _).countP inFlight
      omega
  | look k t f held => exact h.hold held rfl rfl
  | call k t f held => exact h.hold held rfl rfl
  | skip k t held => exact h.hold held rfl rfl
  | callReturn k t f held => exact h.hold held rfl rfl
  | finish k t f held =>
    have gap := countP_hold (p := inGap) held none
    have flight := countP_hold (p := inFlight) held none
    have positive := countP_pos_of_held (p := inFlight) held rfl
    simp only [inGap, inFlight, Bool.false_eq_true, if_false, if_true] at gap flight
    constructor
    · change c.pending = c.queue.length + (c.hands.set k none).countP inGap
      omega
    · change dec c.inflight = (c.hands.set k none).countP inFlight
      rw [dec_of_pos (by omega)]
      omega

theorem Balanced.zero_iff {c : Custody} (h : Balanced c) :
    c.pending = 0 ∧ c.inflight = 0 ↔ c.queue = [] ∧ ∀ hand ∈ c.hands, hand = none := by
  have pending := h.pending
  have inflight := h.inflight
  constructor
  · rintro ⟨none, still⟩
    refine ⟨List.eq_nil_of_length_eq_zero (by omega), fun hand member => ?_⟩
    have gaps : c.hands.countP inGap = 0 := by omega
    have flights : c.hands.countP inFlight = 0 := by omega
    have gap := List.countP_eq_zero.mp gaps hand member
    have flight := List.countP_eq_zero.mp flights hand member
    cases hand with
    | none => rfl
    | some st =>
      cases st with
      | popped => exact absurd rfl gap
      | counted | looked | calling | delivered => exact absurd rfl flight
  · rintro ⟨empty, free⟩
    have nobody (f : Option Stage → Bool) (skips : f none = false) : c.hands.countP f = 0 := by
      rw [List.countP_eq_zero]
      intro hand member
      rw [free hand member, skips]
      exact Bool.false_ne_true
    rw [pending, inflight, nobody inGap rfl, nobody inFlight rfl, empty]
    exact ⟨rfl, rfl⟩

end Counters
section Histories

/-- The events of a run that are about task number `i`. -/
def story (es : List TransportEvent) (i : ℕ) : List TransportEvent :=
  es.filter fun e => (taskOf e).map DeliveryTask.id == some i

/-- What a worker shows of a delivery from the look-up on. -/
def report (k : ℕ) (t : DeliveryTask) : Option ℕ → List TransportEvent
  | none => [.lookedUp k t none]
  | some f => [.lookedUp k t (some f), .called k t f, .callReturned k t f]

def past (k : ℕ) : Stage → List TransportEvent
  | .popped _ | .counted _ => []
  | .looked t f => [.lookedUp k t f]
  | .calling t f => [.lookedUp k t (some f), .called k t f]
  | .delivered t f => report k t f

/-- The task was pushed once and popped once, by worker `k` and not too early, and then
    went through `rest`. -/
def Handled (es : List TransportEvent) (t : DeliveryTask) (k : ℕ) (rest : List TransportEvent) : Prop :=
  ∃ client now, t.deliverAt ≤ now ∧ es = .pushed client t :: .popped k t now :: rest

/-- The complete history of a task that was delivered. -/
def Finished (es : List TransportEvent) (i : ℕ) : Prop :=
  ∃ t k f, t.id = i ∧ Handled es t k (report k t f)

/-- Every task pushed is in one place, and its history is the one of that place. -/
structure Tracked (c : Custody) (es : List TransportEvent) : Prop where
  fresh : ∀ i, c.pushes ≤ i → story es i = []
  queued : ∀ t ∈ c.queue, ∃ client, story es t.id = [.pushed client t]
  once : (c.queue.map DeliveryTask.id).Nodup
  held : ∀ (k : ℕ) (st : Stage), c.hands[k]? = some (some st) → Handled (story es st.task.id) st.task k (past k st)
  placed : ∀ i, i < c.pushes → (∃ t ∈ c.queue, t.id = i) ∨
    (∃ (k : ℕ) (st : Stage), c.hands[k]? = some (some st) ∧ st.task.id = i) ∨ Finished (story es i) i

theorem story_append (es es' : List TransportEvent) (i : ℕ) : story (es ++ es') i = story es i ++ story es' i :=
  List.filter_append ..

theorem story_quiet {e : Option TransportEvent} (quiet : e.bind taskOf = none) (i : ℕ) :
    story e.toList i = [] := by
  cases e with
  | none => rfl
  | some ev =>
    have none : taskOf ev = none := quiet
    simp [story, none]

def About (t : DeliveryTask) (e : Option TransportEvent) : Prop := e = none ∨ e.bind taskOf = some t

theorem story_own {e : Option TransportEvent} {t : DeliveryTask} (about : About t e) :
    story e.toList t.id = e.toList := by
  cases e with
  | none => rfl
  | some ev =>
    have own : taskOf ev = some t := about.resolve_left (by simp)
    simp [story, own]

theorem story_other {e : Option TransportEvent} {t : DeliveryTask} (about : About t e) {i : ℕ}
    (other : t.id ≠ i) : story e.toList i = [] := by
  cases e with
  | none => rfl
  | some ev =>
    have own : taskOf ev = some t := about.resolve_left (by simp)
    simp [story, own, other]

variable {c c' : Custody} {es : List TransportEvent} {e : Option TransportEvent}

theorem Tracked.queued_ne_held (h : Tracked c es) {t : DeliveryTask} (queued : t ∈ c.queue) {k : ℕ} {st : Stage}
    (held : c.hands[k]? = some (some st)) : t.id ≠ st.task.id := by
  intro same
  obtain ⟨client, waiting⟩ := h.queued t queued
  obtain ⟨client', now, -, taken⟩ := h.held k st held
  rw [← same, waiting] at taken
  simp at taken

theorem Tracked.held_apart (h : Tracked c es) {k k' : ℕ} {st st' : Stage}
    (held : c.hands[k]? = some (some st)) (held' : c.hands[k']? = some (some st'))
    (same : st.task.id = st'.task.id) : k = k' := by
  obtain ⟨client, now, -, taken⟩ := h.held k st held
  obtain ⟨client', now', -, taken'⟩ := h.held k' st' held'
  rw [same, taken'] at taken
  injection taken with _ rest
  injection rest with first _
  injection first with hands _ _
  exact hands.symm

theorem Tracked.queued_lt (h : Tracked c es) {t : DeliveryTask} (queued : t ∈ c.queue) : t.id < c.pushes := by
  by_contra late
  obtain ⟨client, waiting⟩ := h.queued t queued
  rw [h.fresh t.id (by omega)] at waiting
  cases waiting

theorem Tracked.held_lt (h : Tracked c es) {k : ℕ} {st : Stage} (held : c.hands[k]? = some (some st)) :
    st.task.id < c.pushes := by
  by_contra late
  obtain ⟨client, now, -, taken⟩ := h.held k st held
  rw [h.fresh st.task.id (by omega)] at taken
  cases taken

theorem Tracked.keep (h : Tracked c es) (quiet : e.bind taskOf = none) : Tracked c (es ++ e.toList) := by
  have same (i : ℕ) : story (es ++ e.toList) i = story es i := by
    rw [story_append, story_quiet quiet, List.append_nil]
  constructor
  · exact fun i hi => (same i).trans (h.fresh i hi)
  · exact fun t ht => by rw [same]; exact h.queued t ht
  · exact h.once
  · exact fun k st held => by rw [same]; exact h.held k st held
  · exact fun i hi => by rw [same]; exact h.placed i hi

theorem Tracked.advance (h : Tracked c es) {k : ℕ} {old new : Stage} (held : c.hands[k]? = some (some old))
    (same : new.task = old.task) (about : About old.task e)
    (shown : past k new = past k old ++ e.toList) : Tracked (c.hold k (some new)) (es ++ e.toList) := by
  have others (i : ℕ) (other : old.task.id ≠ i) : story (es ++ e.toList) i = story es i := by
    rw [story_append, story_other about other, List.append_nil]
  have own : story (es ++ e.toList) old.task.id = story es old.task.id ++ e.toList := by
    rw [story_append, story_own about]
  have inside := (List.getElem?_eq_some_iff.mp held).1
  constructor
  · intro i late
    have early := h.held_lt held
    rw [others i (by change c.pushes ≤ i at late; omega)]
    exact h.fresh i late
  · intro t queued
    rw [others t.id (h.queued_ne_held queued held).symm]
    exact h.queued t queued
  · exact h.once
  · intro k' st held'
    rcases getElem?_set_split held' with ⟨rfl, now⟩ | ⟨apart, old'⟩
    · obtain rfl := Option.some.inj now
      obtain ⟨client, now, due, taken⟩ := h.held k' old held
      rw [same, own, taken, shown]
      exact ⟨client, now, due, rfl⟩
    · rw [others _ fun mine => apart (h.held_apart held old' mine)]
      exact h.held k' st old'
  · intro i early
    by_cases mine : old.task.id = i
    · exact .inr (.inl ⟨k, new, List.getElem?_set_self inside, by rw [same, mine]⟩)
    · rw [others i mine]
      rcases h.placed i early with queued | ⟨k', st, held', place⟩ | finished
      · exact .inl queued
      · refine .inr (.inl ⟨k', st, (List.getElem?_set_ne ?_).trans held', place⟩)
        rintro rfl
        obtain rfl := Option.some.inj (Option.some.inj (held.symm.trans held'))
        exact mine place
      · exact .inr (.inr finished)

theorem Tracked.push (h : Tracked c es) {client : ℕ} {t : DeliveryTask} (number : t.id = c.pushes) :
    Tracked { c with queue := c.queue ++ [t], pushes := c.pushes + 1, pending := c.pending + 1 }
      (es ++ [.pushed client t]) := by
  have about : About t (some (.pushed client t)) := .inr rfl
  have others (i : ℕ) (other : t.id ≠ i) : story (es ++ [.pushed client t]) i = story es i := by
    rw [story_append]
    exact (congrArg (_ ++ ·) (story_other about other)).trans (List.append_nil _)
  have own : story (es ++ [.pushed client t]) t.id = [.pushed client t] := by
    rw [story_append, h.fresh t.id (by omega)]
    exact story_own about
  constructor
  · intro i late
    change c.pushes + 1 ≤ i at late
    rw [others i (by omega)]
    exact h.fresh i (by omega)
  · intro u queued
    rcases List.mem_append.mp queued with old | new
    · have early := h.queued_lt old
      rw [others u.id (by omega)]
      exact h.queued u old
    · obtain rfl := List.mem_singleton.mp new
      exact ⟨client, own⟩
  · change ((c.queue ++ [t]).map DeliveryTask.id).Nodup
    rw [List.map_append, List.map_singleton, ← List.concat_eq_append]
    refine h.once.concat fun taken => ?_
    obtain ⟨u, queued, same⟩ := List.mem_map.mp taken
    have early := h.queued_lt queued
    omega
  · intro k st held
    have early := h.held_lt held
    rw [others st.task.id (by omega)]
    exact h.held k st held
  · intro i early
    change i < c.pushes + 1 at early
    by_cases mine : t.id = i
    · exact .inl ⟨t, List.mem_append_right _ (List.mem_singleton_self t), mine⟩
    · rw [others i mine]
      rcases h.placed i (by omega) with ⟨u, queued, place⟩ | held | finished
      · exact .inl ⟨u, List.mem_append_left _ queued, place⟩
      · exact .inr (.inl held)
      · exact .inr (.inr finished)

theorem Tracked.pop (h : Tracked c es) {k i : ℕ} {t : DeliveryTask} {now : ℤ} (free : c.hands[k]? = some none)
    (found : c.queue[i]? = some t) (due : t.deliverAt ≤ now) :
    Tracked { c.hold k (some (.popped t)) with queue := c.queue.eraseIdx i } (es ++ [.popped k t now]) := by
  have about : About t (some (.popped k t now)) := .inr rfl
  have others (i : ℕ) (other : t.id ≠ i) : story (es ++ [.popped k t now]) i = story es i := by
    rw [story_append]
    exact (congrArg (_ ++ ·) (story_other about other)).trans (List.append_nil _)
  have queued : t ∈ c.queue := List.mem_of_getElem? found
  have inside := (List.getElem?_eq_some_iff.mp free).1
  have left (u : DeliveryTask) : u ∈ c.queue.eraseIdx i ↔ u ∈ c.queue ∧ u.id ≠ t.id :=
    mem_eraseIdx_key h.once found
  constructor
  · intro m late
    have early := h.queued_lt queued
    rw [others m (by change c.pushes ≤ m at late; omega)]
    exact h.fresh m late
  · intro u stays
    obtain ⟨old, other⟩ := (left u).mp stays
    rw [others u.id other.symm]
    exact h.queued u old
  · exact h.once.sublist ((List.eraseIdx_sublist c.queue i).map DeliveryTask.id)
  · intro k' st held
    rcases getElem?_set_split held with ⟨rfl, now'⟩ | ⟨-, old⟩
    · obtain rfl := Option.some.inj now'
      obtain ⟨client, waiting⟩ := h.queued t queued
      refine ⟨client, now, due, ?_⟩
      change story (es ++ [.popped k' t now]) t.id = _
      rw [story_append, waiting]
      exact congrArg _ (story_own about)
    · rw [others _ (h.queued_ne_held queued old)]
      exact h.held k' st old
  · intro m early
    by_cases mine : t.id = m
    · exact .inr (.inl ⟨k, .popped t, List.getElem?_set_self inside, mine⟩)
    · rw [others m mine]
      rcases h.placed m early with ⟨u, old, place⟩ | ⟨k', st, held, place⟩ | finished
      · exact .inl ⟨u, (left u).mpr ⟨old, fun same => mine (same.symm.trans place)⟩, place⟩
      · refine .inr (.inl ⟨k', st, (List.getElem?_set_ne ?_).trans held, place⟩)
        rintro rfl
        exact absurd (free.symm.trans held) (by simp)
      · exact .inr (.inr finished)

theorem Tracked.finish (h : Tracked c es) {k : ℕ} {t : DeliveryTask} {f : Option ℕ} {inflight : ℕ}
    (held : c.hands[k]? = some (some (.delivered t f))) :
    Tracked { c.hold k none with inflight := inflight } es := by
  refine ⟨h.fresh, h.queued, h.once, ?_, ?_⟩
  · intro k' st held'
    rcases getElem?_set_split held' with ⟨rfl, now⟩ | ⟨-, old⟩
    · cases now
    · exact h.held k' st old
  · intro i early
    rcases h.placed i early with queued | ⟨k', st, held', place⟩ | finished
    · exact .inl queued
    · by_cases mine : k = k'
      · subst mine
        obtain rfl := Option.some.inj (Option.some.inj (held.symm.trans held'))
        have history := h.held k _ held
        exact .inr (.inr ⟨t, k, f, place, place ▸ history⟩)
      · exact .inr (.inl ⟨k', st, (List.getElem?_set_ne mine).trans held', place⟩)
    · exact .inr (.inr finished)

theorem tracked_moves (h : Tracked c es) (moves : Moves c e c') : Tracked c' (es ++ e.toList) := by
  cases moves with
  | keep e quiet => exact h.keep quiet
  | push client t number => exact h.push number
  | pop k i t now free found earliest due => exact h.pop free found due
  | count k t held =>
    have silent : past k (.counted t) = past k (.popped t) ++ (none : Option TransportEvent).toList := rfl
    have next : Tracked (c.hold k (some (.counted t))) (es ++ (none : Option TransportEvent).toList) :=
      h.advance held rfl (.inl rfl) silent
    exact ⟨next.fresh, next.queued, next.once, next.held, next.placed⟩
  | look k t f held => exact h.advance held rfl (.inr rfl) rfl
  | call k t f held => exact h.advance held rfl (.inr rfl) rfl
  | skip k t held => exact h.advance held rfl (.inl rfl) rfl
  | callReturn k t f held => exact h.advance held rfl (.inr rfl) rfl
  | finish k t f held =>
    rw [Option.toList_none, List.append_nil]
    exact h.finish held

theorem mem_story {ev : TransportEvent} {t : DeliveryTask} (member : ev ∈ es) (about : taskOf ev = some t) :
    ev ∈ story es t.id := List.mem_filter.mpr ⟨member, by simp [about]⟩

theorem mem_of_story {ev : TransportEvent} {i : ℕ} (member : ev ∈ story es i) : ev ∈ es :=
  List.mem_of_mem_filter member

theorem pushed_not_past (client k : ℕ) (t : DeliveryTask) (st : Stage) : .pushed client t ∉ past k st := by
  cases st with
  | popped | counted | looked | calling => simp [past]
  | delivered t f => cases f <;> simp [past, report]

theorem Handled.pushed_self {t t' : DeliveryTask} {k client : ℕ} {st : Stage} (h : Handled es t k (past k st))
    (pushed : .pushed client t' ∈ es) : t' = t := by
  obtain ⟨client', now, -, rfl⟩ := h
  rcases List.mem_cons.mp pushed with first | later
  · injection first
  · rcases List.mem_cons.mp later with second | rest
    · cases second
    · exact absurd rest (pushed_not_past client k t' st)

theorem Tracked.placed_of_pushed (h : Tracked c es) {client : ℕ} {t : DeliveryTask}
    (pushed : .pushed client t ∈ es) : t ∈ c.queue ∨
      (∃ (k : ℕ) (st : Stage), c.hands[k]? = some (some st) ∧ st.task = t) ∨
      ∃ k f, Handled (story es t.id) t k (report k t f) := by
  have mine := mem_story pushed rfl
  have early : t.id < c.pushes := by
    by_contra late
    rw [h.fresh t.id (by omega)] at mine
    exact absurd mine List.not_mem_nil
  rcases h.placed t.id early with ⟨u, queued, same⟩ | ⟨k, st, held, same⟩ | ⟨t', k, f, -, history⟩
  · obtain ⟨client', waiting⟩ := h.queued u queued
    rw [same] at waiting
    rw [waiting, List.mem_singleton] at mine
    obtain ⟨-, rfl⟩ := TransportEvent.pushed.inj mine
    exact .inl queued
  · have history := h.held k st held
    rw [same] at history
    exact .inr (.inl ⟨k, st, held, (history.pushed_self mine).symm⟩)
  · have complete : Handled (story es t.id) t' k (past k (.delivered t' f)) := history
    obtain rfl := complete.pushed_self mine
    exact .inr (.inr ⟨k, f, history⟩)

end Histories
end InterchainCommunication.TaskCustody
