import InterchainCommunication.StringText

set_option autoImplicit false

/-!
# The grammar of JSON texts

The productions of the JSON grammar over bytes, each with what it denotes. Bytes
from 0x80 on stand for themselves, so that a text in UTF-8 denotes texts in
UTF-8. A surrogate escaped without its partner denotes nothing.
-/
namespace InterchainCommunication.JsonGrammar
open StringText

inductive Json
  | null
  | bool (b : Bool)
  | number (q : ℚ)
  | string (s : Bytes)
  | array (elements : List Json)
  | object (members : List (Bytes × Json))

def isBlank (b : UInt8) : Bool := b == 32 || b == 9 || b == 10 || b == 13

def Blanks (w : Bytes) : Prop := ∀ b ∈ w, isBlank b = true

/-- The character a backslash and one letter stand for. -/
def shortEscape (c : UInt8) : Option UInt8 :=
  if c = 34 then some 34
  else if c = 92 then some 92
  else if c = 47 then some 47
  else if c = 98 then some 8
  else if c = 102 then some 12
  else if c = 110 then some 10
  else if c = 114 then some 13
  else if c = 116 then some 9
  else none

def hexDigit (b : UInt8) : Option ℕ :=
  if 48 ≤ b ∧ b ≤ 57 then some (b.toNat - 48)
  else if 97 ≤ b ∧ b ≤ 102 then some (b.toNat - 87)
  else if 65 ≤ b ∧ b ≤ 70 then some (b.toNat - 55)
  else none

def hexQuad (a b c d : UInt8) : Option ℕ := do
  let x ← hexDigit a
  let y ← hexDigit b
  let z ← hexDigit c
  let w ← hexDigit d
  return 4096 * x + 256 * y + 16 * z + w

def utf8 (n : ℕ) : Bytes := String.utf8EncodeChar (Char.ofNat n)

/-- One character inside a string, with its bytes. -/
inductive Character : Bytes → Bytes → Prop
  | plain {b : UInt8} : 32 ≤ b → b ≠ 34 → b ≠ 92 → Character [b] [b]
  | short {c d : UInt8} : shortEscape c = some d → Character [92, c] [d]
  | unicode {a b c d : UInt8} {n : ℕ} : hexQuad a b c d = some n → n.isValidChar →
      Character [92, 117, a, b, c, d] (utf8 n)
  | surrogates {a b c d e f g h : UInt8} {n m : ℕ} :
      hexQuad a b c d = some n → 0xD800 ≤ n → n < 0xDC00 →
      hexQuad e f g h = some m → 0xDC00 ≤ m → m < 0xE000 →
      Character [92, 117, a, b, c, d, 92, 117, e, f, g, h] (utf8 (0x10000 + 0x400 * (n - 0xD800) + (m - 0xDC00)))

inductive Characters : Bytes → Bytes → Prop
  | nil : Characters [] []
  | cons {t s ts ss : Bytes} : Character t s → Characters ts ss → Characters (t ++ ts) (s ++ ss)

/-- The parts of a number: the digits in front of the point, those behind it, and the letter, the
    sign and the digits of an exponent. -/
structure NumberText where
  minus : Bool
  whole : Bytes
  fraction : Option Bytes
  exponent : Option (UInt8 × Option UInt8 × Bytes)

namespace NumberText

def isDigits (ds : Bytes) : Bool := ds ≠ [] && ds.all isDigit

structure Valid (p : NumberText) : Prop where
  whole : plainDecimal p.whole = true
  fraction : ∀ ds ∈ p.fraction, isDigits ds = true
  letter : ∀ x ∈ p.exponent, x.1 = 101 ∨ x.1 = 69
  sign : ∀ x ∈ p.exponent, ∀ b ∈ x.2.1, b = 43 ∨ b = 45
  exponent : ∀ x ∈ p.exponent, isDigits x.2.2 = true

def fractionText (p : NumberText) : Bytes :=
  match p.fraction with
  | none => []
  | some ds => 46 :: ds

def exponentText (p : NumberText) : Bytes :=
  match p.exponent with
  | none => []
  | some (letter, sign, ds) => letter :: (sign.toList ++ ds)

def text (p : NumberText) : Bytes :=
  (if p.minus then [45] else []) ++ p.whole ++ p.fractionText ++ p.exponentText

def scale (p : NumberText) : ℤ :=
  match p.exponent with
  | none => 0
  | some (_, sign, ds) => if sign = some 45 then -(digitsValue ds : ℤ) else digitsValue ds

def value (p : NumberText) : ℚ :=
  let ds := p.fraction.getD []
  let magnitude : ℚ := digitsValue p.whole + digitsValue ds / 10 ^ ds.length
  (if p.minus then -magnitude else magnitude) * 10 ^ p.scale

end NumberText

/-- What a part of a text derives: a value, one between blanks, a list of these with commas, a name
    with its value, or a list of these. -/
inductive Phrase
  | value (v : Json)
  | element (v : Json)
  | elements (vs : List Json)
  | member (m : Bytes × Json)
  | members (ms : List (Bytes × Json))

inductive Derives : Phrase → Bytes → Prop
  | null : Derives (.value .null) (lit "null")
  | true : Derives (.value (.bool Bool.true)) (lit "true")
  | false : Derives (.value (.bool Bool.false)) (lit "false")
  | number {p : NumberText} : p.Valid → Derives (.value (.number p.value)) p.text
  | string {t s : Bytes} : Characters t s → Derives (.value (.string s)) (34 :: (t ++ [34]))
  | noElements {w : Bytes} : Blanks w → Derives (.value (.array [])) (91 :: (w ++ [93]))
  | array {vs : List Json} {t : Bytes} : Derives (.elements vs) t → Derives (.value (.array vs)) (91 :: (t ++ [93]))
  | noMembers {w : Bytes} : Blanks w → Derives (.value (.object [])) (123 :: (w ++ [125]))
  | object {ms : List (Bytes × Json)} {t : Bytes} : Derives (.members ms) t →
      Derives (.value (.object ms)) (123 :: (t ++ [125]))
  | element {v : Json} {w t w' : Bytes} : Blanks w → Derives (.value v) t → Blanks w' →
      Derives (.element v) (w ++ (t ++ w'))
  | lastElement {v : Json} {t : Bytes} : Derives (.element v) t → Derives (.elements [v]) t
  | moreElements {v : Json} {vs : List Json} {t ts : Bytes} : Derives (.element v) t →
      Derives (.elements vs) ts → Derives (.elements (v :: vs)) (t ++ 44 :: ts)
  | member {s t w w' u : Bytes} {v : Json} : Blanks w → Characters t s → Blanks w' → Derives (.element v) u →
      Derives (.member (s, v)) (w ++ 34 :: (t ++ 34 :: (w' ++ 58 :: u)))
  | lastMember {m : Bytes × Json} {t : Bytes} : Derives (.member m) t → Derives (.members [m]) t
  | moreMembers {m : Bytes × Json} {ms : List (Bytes × Json)} {t ts : Bytes} : Derives (.member m) t →
      Derives (.members ms) ts → Derives (.members (m :: ms)) (t ++ 44 :: ts)

/-- A JSON text is a value between blanks. -/
def Text (v : Json) (s : Bytes) : Prop := Derives (.element v) s

def isPlain (b : UInt8) : Bool := 32 ≤ b && b ≠ 34 && b ≠ 92

theorem plain_of_all {s : Bytes} (h : s.all isPlain = true) : ∀ b ∈ s, isPlain b = true := List.all_eq_true.mp h

theorem characters_plain {s : Bytes} (plain : ∀ b ∈ s, isPlain b = true) : Characters s s := by
  induction s with
  | nil => exact .nil
  | cons b s ih =>
    have first : (32 ≤ b ∧ b ≠ 34) ∧ b ≠ 92 := by simpa [isPlain] using plain b (by simp)
    exact .cons (.plain first.1.1 first.1.2 first.2) (ih fun c hc => plain c (by simp [hc]))

theorem blanks_nil : Blanks [] := by simp [Blanks]

theorem derives_decimal (n : ℕ) : Derives (.value (.number n)) (decimal n) := by
  let p : NumberText := ⟨false, decimal n, none, none⟩
  have valid : p.Valid :=
    ⟨plainDecimal_decimal n, by simp [p], by simp [p], by simp [p], by simp [p]⟩
  have text : p.text = decimal n := by simp [p, NumberText.text, NumberText.fractionText, NumberText.exponentText]
  have none_behind : digitsValue [] = 0 := rfl
  have value : p.value = n := by
    simp [p, NumberText.value, NumberText.scale, digitsValue_decimal, none_behind]
  have derived := Derives.number valid
  rwa [text, value] at derived

theorem printable_digits {ds : Bytes} (digits : ∀ b ∈ ds, isDigit b = true) : ∀ b ∈ ds, 32 ≤ b := by
  intro b hb
  rw [UInt8.le_iff_toNat_le]
  exact le_trans (by decide) (isDigit_toNat (digits b hb)).1

theorem printable_number {p : NumberText} (valid : p.Valid) : ∀ b ∈ p.text, 32 ≤ b := by
  have digits {ds : Bytes} (h : NumberText.isDigits ds = true) : ∀ b ∈ ds, 32 ≤ b := by
    simp only [NumberText.isDigits, Bool.and_eq_true, List.all_eq_true] at h
    exact printable_digits h.2
  have whole := printable_digits (plainDecimal_iff.mp valid.whole).2.1
  have fraction : ∀ b ∈ p.fractionText, 32 ≤ b := by
    unfold NumberText.fractionText
    cases there : p.fraction with
    | none => simp
    | some ds => exact List.forall_mem_cons.mpr ⟨by decide, digits (valid.fraction ds there)⟩
  have exponent : ∀ b ∈ p.exponentText, 32 ≤ b := by
    unfold NumberText.exponentText
    cases there : p.exponent with
    | none => simp
    | some x =>
      obtain ⟨letter, sign, ds⟩ := x
      have letter_there : letter = 101 ∨ letter = 69 := valid.letter _ there
      have sign_there : ∀ b ∈ sign, b = 43 ∨ b = 45 := valid.sign _ there
      simp only [List.forall_mem_cons, List.forall_mem_append]
      refine ⟨?_, fun b hb => ?_, digits (valid.exponent _ there)⟩
      · rcases letter_there with rfl | rfl <;> decide
      · rcases sign_there b (Option.mem_toList.mp hb) with rfl | rfl <;> decide
  unfold NumberText.text
  simp only [List.forall_mem_append]
  refine ⟨⟨⟨?_, whole⟩, fraction⟩, exponent⟩
  split <;> simp

/-- No control character stands inside a string: a text has none but among its blanks. -/
theorem printable_character {t s : Bytes} (h : Character t s) : ∀ b ∈ t, 32 ≤ b := by
  have hex {b : UInt8} {n : ℕ} (digit : hexDigit b = some n) : 32 ≤ b := by
    unfold hexDigit at digit
    simp only [UInt8.le_iff_toNat_le] at digit ⊢
    change 32 ≤ b.toNat
    split_ifs at digit with first second third
    · exact le_trans (by decide) first.1
    · exact le_trans (by decide) second.1
    · exact le_trans (by decide) third.1
  have quad {a b c d : UInt8} {n : ℕ} (h : hexQuad a b c d = some n) : 32 ≤ a ∧ 32 ≤ b ∧ 32 ≤ c ∧ 32 ≤ d := by
    simp only [hexQuad, Option.bind_eq_bind, Option.bind_eq_some_iff] at h
    obtain ⟨x, ha, y, hb, z, hc, w, hd, -⟩ := h
    exact ⟨hex ha, hex hb, hex hc, hex hd⟩
  cases h with
  | plain printable => simpa using printable
  | @short c d escape =>
    unfold shortEscape at escape
    split_ifs at escape with h h h h h h h h
    all_goals simp [h]
  | unicode h =>
    obtain ⟨ha, hb, hc, hd⟩ := quad h
    simp [ha, hb, hc, hd]
  | surrogates h _ _ h' =>
    obtain ⟨ha, hb, hc, hd⟩ := quad h
    obtain ⟨he, hf, hg, hh⟩ := quad h'
    simp [ha, hb, hc, hd, he, hf, hg, hh]

theorem printable_characters {t s : Bytes} (h : Characters t s) : ∀ b ∈ t, 32 ≤ b := by
  induction h with
  | nil => simp
  | cons first _ ih =>
    intro b hb
    rcases List.mem_append.mp hb with hb | hb
    · exact printable_character first b hb
    · exact ih b hb

theorem intercalate_append (sep : Bytes) {xs : List Bytes} (h : xs ≠ []) (ys : List Bytes) :
    sep.intercalate (xs ++ ys) = sep.intercalate xs ++ ys.flatMap (sep ++ ·) := by
  induction xs with
  | nil => exact absurd rfl h
  | cons x xs ih =>
    cases xs with
    | cons x' xs =>
      rw [List.cons_append, List.cons_append, List.intercalate_cons_cons, ← List.cons_append, ih (by simp),
        List.intercalate_cons_cons]
      simp
    | nil =>
      clear ih h
      induction ys generalizing x with
      | nil => simp
      | cons y ys ih =>
        have tail := ih y
        simp only [List.singleton_append, List.intercalate_singleton] at tail
        simp only [List.singleton_append, List.intercalate_cons_cons, List.intercalate_singleton, tail,
          List.flatMap_cons, List.append_assoc]

theorem derives_member {name t u : Bytes} {v : Json} (chars : Characters t name) (value : Derives (.value v) u) :
    Derives (.member (name, v)) (34 :: (t ++ 34 :: 58 :: u)) := by
  have element : Derives (.element v) u := by
    simpa using Derives.element blanks_nil value blanks_nil
  simpa using Derives.member blanks_nil chars blanks_nil element

theorem derives_members {ms : List (Bytes × Json)} {texts : List Bytes} (some_member : ms ≠ [])
    (h : List.Forall₂ (fun m t => Derives (.member m) t) ms texts) :
    Derives (.members ms) ([44].intercalate texts) := by
  induction h with
  | nil => exact absurd rfl some_member
  | @cons m t ms texts first rest ih =>
    cases rest with
    | nil => simpa using Derives.lastMember first
    | cons second others =>
      rw [List.intercalate_cons_cons, List.append_assoc, List.singleton_append]
      exact .moreMembers first (ih (by simp))

theorem text_object {ms : List (Bytes × Json)} {texts : List Bytes} (some_member : ms ≠ [])
    (h : List.Forall₂ (fun m t => Derives (.member m) t) ms texts) :
    Text (.object ms) (123 :: ([44].intercalate texts ++ [125])) := by
  have element := Derives.element blanks_nil (.object (derives_members some_member h)) blanks_nil
  simpa only [Text, List.nil_append, List.append_nil] using element

end InterchainCommunication.JsonGrammar
