import Mathlib.Data.List.Basic

set_option autoImplicit false

/-!
# Delimited fields with an escape symbol

Fields are written one after the other with a delimiter `d` between them. A
symbol `e` in front of another takes its special meaning away. The library is
about any alphabet and any two different symbols.
-/
namespace InterchainCommunication.DelimitedText
variable {α : Type} [DecidableEq α] (d e : α)

def escape (s : List α) : List α := s.flatMap fun c => if c = d ∨ c = e then [e, c] else [c]

def unescapeFrom : Bool → List α → List α
  | _, [] => []
  | true, c :: s => c :: unescapeFrom false s
  | false, c :: s => if c = e then unescapeFrom true s else c :: unescapeFrom false s

def unescape (s : List α) : List α := unescapeFrom e false s

/-- Cut at each delimiter no escape symbol stands in front of. Both symbols of an
    escaped pair stay in the field. -/
def splitFrom : List α → Bool → List α → List (List α)
  | current, _, [] => [current]
  | current, true, c :: s => splitFrom (current ++ [c]) false s
  | current, false, c :: s =>
    if c = e then splitFrom (current ++ [c]) true s
    else if c = d then current :: splitFrom [] false s
    else splitFrom (current ++ [c]) false s

def split (s : List α) : List (List α) := splitFrom d e [] false s

/-- The splitter reads all of `s` into its current field and is not left escaped. -/
def Whole (s : List α) : Prop :=
  ∀ current rest, splitFrom d e current false (s ++ rest) = splitFrom d e (current ++ s) false rest

theorem escape_cons (c : α) (s : List α) :
    escape d e (c :: s) = (if c = d ∨ c = e then [e, c] else [c]) ++ escape d e s :=
  List.flatMap_cons

theorem unescape_escape (s : List α) : unescape e (escape d e s) = s := by
  induction s with
  | nil => rfl
  | cons c s ih =>
    rw [escape_cons]
    by_cases special : c = d ∨ c = e
    · rw [if_pos special]
      simpa [unescape, unescapeFrom] using ih
    · have plain : c ≠ e := fun h => special (.inr h)
      rw [if_neg special]
      simpa [unescape, unescapeFrom, plain] using ih

theorem whole_nil : Whole d e ([] : List α) := by
  intro current rest
  simp

theorem whole_append {s t : List α} (hs : Whole d e s) (ht : Whole d e t) :
    Whole d e (s ++ t) := by
  intro current rest
  rw [List.append_assoc, hs, ht, List.append_assoc]

theorem whole_singleton {c : α} (hd : c ≠ d) (he : c ≠ e) : Whole d e [c] := by
  intro current rest
  simp [splitFrom, hd, he]

theorem whole_pair (c : α) : Whole d e [e, c] := by
  intro current rest
  simp [splitFrom]

theorem whole_of_plain {s : List α} (hs : ∀ c ∈ s, c ≠ d ∧ c ≠ e) : Whole d e s := by
  induction s with
  | nil => exact whole_nil d e
  | cons c s ih =>
    have head := whole_singleton d e (hs c (by simp)).1 (hs c (by simp)).2
    exact whole_append d e head (ih fun b hb => hs b (by simp [hb]))

theorem whole_escape (s : List α) : Whole d e (escape d e s) := by
  induction s with
  | nil => exact whole_nil d e
  | cons c s ih =>
    rw [escape_cons]
    apply whole_append d e ?_ ih
    split
    · exact whole_pair d e c
    · rename_i special
      exact whole_singleton d e (fun h => special (.inl h)) (fun h => special (.inr h))

theorem splitFrom_whole {s : List α} (hs : Whole d e s) (current : List α) :
    splitFrom d e current false s = [current ++ s] := by
  simpa [splitFrom] using hs current []

theorem splitFrom_delimiter (hne : d ≠ e) {s : List α} (hs : Whole d e s) (rest : List α) :
    splitFrom d e [] false (s ++ d :: rest) = s :: splitFrom d e [] false rest := by
  simp [hs [] (d :: rest), splitFrom, hne]

theorem split_intercalate (hne : d ≠ e) (fields : List (List α)) (hf : fields ≠ [])
    (whole : ∀ f ∈ fields, Whole d e f) : split d e ([d].intercalate fields) = fields := by
  induction fields with
  | nil => exact absurd rfl hf
  | cons f fields ih =>
    have head := whole f (by simp)
    cases fields with
    | nil => simpa [split] using splitFrom_whole d e head []
    | cons g gs =>
      have tail := ih (by simp) fun t ht => whole t (by simp [ht])
      rw [List.intercalate_cons_cons, List.append_assoc, List.singleton_append]
      exact (splitFrom_delimiter d e hne head _).trans (congrArg (f :: ·) tail)

theorem intercalate_splitFrom (s current : List α) (escaped : Bool) :
    [d].intercalate (splitFrom d e current escaped s) = current ++ s := by
  induction s generalizing current escaped with
  | nil => cases escaped <;> simp [splitFrom]
  | cons c s ih =>
    cases escaped with
    | true => simp [splitFrom, ih]
    | false =>
      by_cases he : c = e
      · simp [splitFrom, he, ih]
      · by_cases hd : c = d
        · have tail := ih [] false
          have some_field : splitFrom d e [] false s ≠ [] := by
            intro none
            rw [none] at tail
            cases s with
            | nil => simp [splitFrom] at none
            | cons b s => cases tail
          obtain ⟨f, fields, fields_eq⟩ := List.exists_cons_of_ne_nil some_field
          rw [splitFrom, if_neg he, if_pos hd, fields_eq, List.intercalate_cons_cons, ← fields_eq, tail, hd]
          simp
        · simp [splitFrom, he, hd, ih]

theorem intercalate_split (s : List α) : [d].intercalate (split d e s) = s := intercalate_splitFrom d e s [] false

/-- The escape symbol stands only in front of one of the two symbols, and no delimiter stands alone. -/
def sparingFrom : Bool → List α → Bool
  | true, [] => false
  | false, [] => true
  | true, c :: s => (c = d || c = e) && sparingFrom false s
  | false, c :: s => if c = e then sparingFrom true s else c ≠ d && sparingFrom false s

def sparing (s : List α) : Bool := sparingFrom d e false s

theorem sparing_escape (s : List α) : sparing d e (escape d e s) = true := by
  induction s with
  | nil => rfl
  | cons c s ih =>
    rw [escape_cons]
    by_cases special : c = d ∨ c = e
    · rw [if_pos special]
      simpa [sparing, sparingFrom, special] using ih
    · have plain := not_or.mp special
      rw [if_neg special]
      simpa [sparing, sparingFrom, plain.1, plain.2] using ih

/-- The texts that escaping writes are those that use the escape symbol sparingly. -/
theorem escape_unescape_iff (s : List α) : escape d e (unescape e s) = s ↔ sparing d e s = true := by
  constructor
  · intro same
    rw [← same]
    exact sparing_escape d e _
  · have both : (sparingFrom d e false s = true → escape d e (unescapeFrom e false s) = s) ∧
        (sparingFrom d e true s = true → escape d e (unescapeFrom e true s) = e :: s) := by
      induction s with
      | nil => exact ⟨fun _ => rfl, fun h => by simp [sparingFrom] at h⟩
      | cons c s ih =>
        obtain ⟨plain, escaped⟩ := ih
        constructor
        · intro h
          by_cases he : c = e
          · rw [sparingFrom, if_pos he] at h
            rw [unescapeFrom, if_pos he, escaped h, he]
          · rw [sparingFrom, if_neg he, Bool.and_eq_true] at h
            have hd : c ≠ d := of_decide_eq_true h.1
            rw [unescapeFrom, if_neg he, escape_cons, if_neg (not_or.mpr ⟨hd, he⟩), plain h.2]
            rfl
        · intro h
          rw [sparingFrom, Bool.and_eq_true] at h
          have special : c = d ∨ c = e := by simpa using h.1
          rw [unescapeFrom, escape_cons, if_pos special, plain h.2]
          rfl
    exact both.1

end InterchainCommunication.DelimitedText
