import Mathlib.Data.List.TakeWhile
import Mathlib.Data.Nat.Digits.Defs
import Mathlib.Tactic

set_option autoImplicit false

/-!
# Byte strings and their number conversions

A `std::string` is its list of bytes. The conversions follow the standard
library in the "C" locale: `to_string` prints canonical decimals, while `stoi`
and `stoull` skip blanks, take an optional sign and ignore what follows the
digits.
-/
namespace InterchainCommunication.StringText

abbrev Bytes := List UInt8

/-- A string literal of ASCII characters. -/
def lit (s : String) : Bytes := s.toList.map Char.toUInt8

/-- The standard exceptions a conversion or a caller throws, with their `what()`. -/
inductive StdException
  | invalidArgument (what : Bytes)
  | outOfRange (what : Bytes)
  | runtimeError (what : Bytes)
  deriving DecidableEq, Repr

def StdException.what : StdException → Bytes
  | invalidArgument w | outOfRange w | runtimeError w => w

/-- `s.find(c, pos)`, where `none` is `npos`. -/
def find (s : Bytes) (c : UInt8) (pos : ℕ) : Option ℕ :=
  ((s.drop pos).findIdx? (· == c)).map (pos + ·)

/-- `p + 1` for an offset `find` returned: `npos + 1` wraps to zero. -/
def after : Option ℕ → ℕ
  | some p => p + 1
  | none => 0

/-- `s.substr(pos, n)` for `pos` within the string. -/
def substr (s : Bytes) (pos n : ℕ) : Bytes := (s.drop pos).take n

def decimal (n : ℕ) : Bytes := (Nat.toDigits 10 n).map Char.toUInt8

def intText (z : ℤ) : Bytes :=
  if z < 0 then 45 :: decimal z.natAbs else decimal z.natAbs

def isSpace (b : UInt8) : Bool := b == 32 || (9 ≤ b && b ≤ 13)
def isDigit (b : UInt8) : Bool := 48 ≤ b && b ≤ 57

def digitsValue (ds : Bytes) : ℕ := ds.foldl (fun v d => 10 * v + (d.toNat - 48)) 0

/-- Whether a minus sign stands in front, and what follows the sign. -/
def splitSign : Bytes → Bool × Bytes
  | [] => (false, [])
  | b :: rest => if b = 45 then (true, rest) else if b = 43 then (false, rest) else (false, b :: rest)

/-- The sign and magnitude `strtol` and `strtoull` read in base ten. -/
def scanNumber (s : Bytes) : Option (Bool × ℕ) :=
  let signed := splitSign (s.dropWhile isSpace)
  let digits := signed.2.takeWhile isDigit
  if digits = [] then none else some (signed.1, digitsValue digits)

def stoi (s : Bytes) : Except StdException ℤ :=
  match scanNumber s with
  | none => .error (.invalidArgument (lit "stoi"))
  | some (negative, v) =>
    let z : ℤ := if negative then -v else v
    if -2 ^ 31 ≤ z ∧ z < 2 ^ 31 then .ok z else .error (.outOfRange (lit "stoi"))

/-- A minus sign is accepted and negates modulo `2 ^ 64`. -/
def stoull (s : Bytes) : Except StdException UInt64 :=
  match scanNumber s with
  | none => .error (.invalidArgument (lit "stoull"))
  | some (negative, v) =>
    if v < 2 ^ 64 then .ok (if negative then -UInt64.ofNat v else UInt64.ofNat v)
    else .error (.outOfRange (lit "stoull"))

theorem isDigit_toNat {b : UInt8} (h : isDigit b = true) : 48 ≤ b.toNat ∧ b.toNat ≤ 57 := by
  simpa [isDigit, UInt8.le_iff_toNat_le] using h

theorem digit_toUInt8 {c : Char} (h : c.isDigit = true) :
    isDigit c.toUInt8 = true ∧ c.toUInt8.toNat = c.toNat := by
  have bounds : 48 ≤ c.toNat ∧ c.toNat ≤ 57 := by
    simpa [Char.isDigit, UInt32.le_iff_toNat_le] using h
  have value : c.toUInt8.toNat = c.toNat := by
    change c.val.toUInt8.toNat = c.val.toNat
    rw [UInt32.toNat_toUInt8]
    exact Nat.mod_eq_of_lt (by change c.toNat < _; omega)
  refine ⟨?_, value⟩
  simp only [isDigit, Bool.and_eq_true, decide_eq_true_eq, UInt8.le_iff_toNat_le, value]
  exact bounds

theorem decimal_isDigit {n : ℕ} {b : UInt8} (h : b ∈ decimal n) : isDigit b = true := by
  obtain ⟨c, hc, rfl⟩ := List.mem_map.mp h
  exact (digit_toUInt8 (Nat.isDigit_of_mem_toDigits (by decide) (by decide) hc)).1

theorem decimal_ne_nil (n : ℕ) : decimal n ≠ [] := by
  simp [decimal, Nat.toDigits_ne_nil]

theorem digitsValue_map (cs : List Char) (h : ∀ c ∈ cs, c.isDigit = true) (v : ℕ) :
    (cs.map Char.toUInt8).foldl (fun v d => 10 * v + (d.toNat - 48)) v =
      Nat.ofDigitChars 10 cs v := by
  induction cs generalizing v with
  | nil => rfl
  | cons c cs ih =>
    rw [List.map_cons, List.foldl_cons, (digit_toUInt8 (h c (by simp))).2,
      ih (fun d hd => h d (by simp [hd])), Nat.ofDigitChars_cons]
    rfl

theorem digitsValue_decimal (n : ℕ) : digitsValue (decimal n) = n := by
  have digits : ∀ c ∈ Nat.toDigits 10 n, c.isDigit = true := fun c hc =>
    Nat.isDigit_of_mem_toDigits (by decide) (by decide) hc
  exact (digitsValue_map _ digits 0).trans Nat.ofDigitChars_ten_toDigits

theorem decimal_injective : Function.Injective decimal := fun m n h => by
  rw [← digitsValue_decimal m, h, digitsValue_decimal]

theorem not_isSpace_of_isDigit {b : UInt8} (h : isDigit b = true) : isSpace b = false := by
  have hb := isDigit_toNat h
  simp only [isSpace, Bool.or_eq_false_iff, beq_eq_false_iff_ne, ne_eq, Bool.and_eq_false_iff,
    decide_eq_false_iff_not, UInt8.le_iff_toNat_le, ← UInt8.toNat_inj]
  change ¬ b.toNat = 32 ∧ (¬ 9 ≤ b.toNat ∨ ¬ b.toNat ≤ 13)
  omega

theorem takeWhile_decimal (n : ℕ) : (decimal n).takeWhile isDigit = decimal n :=
  List.takeWhile_eq_self_iff.mpr fun _ hb => decimal_isDigit hb

theorem scanNumber_decimal (n : ℕ) : scanNumber (decimal n) = some (false, n) := by
  obtain ⟨d, ds, hd⟩ := List.exists_cons_of_ne_nil (decimal_ne_nil n)
  have digit : isDigit d = true := decimal_isDigit (n := n) (by simp [hd])
  have first := isDigit_toNat digit
  have noMinus : d ≠ 45 := by rintro rfl; exact absurd first.1 (by decide)
  have noPlus : d ≠ 43 := by rintro rfl; exact absurd first.1 (by decide)
  have blanks : (d :: ds).dropWhile isSpace = d :: ds := by
    rw [List.dropWhile_cons_of_neg (by simp [not_isSpace_of_isDigit digit])]
  have sign : splitSign (d :: ds) = (false, d :: ds) := by
    simp [splitSign, noMinus, noPlus]
  have all : (d :: ds).takeWhile isDigit = d :: ds := by rw [← hd, takeWhile_decimal]
  have value : digitsValue (d :: ds) = n := by rw [← hd, digitsValue_decimal]
  simp [scanNumber, hd, blanks, sign, all, value]

theorem scanNumber_intText (z : ℤ) : scanNumber (intText z) = some (decide (z < 0), z.natAbs) := by
  unfold intText
  split
  · rename_i negative
    have blanks : (45 :: decimal z.natAbs).dropWhile isSpace = 45 :: decimal z.natAbs :=
      List.dropWhile_cons_of_neg (by decide)
    have sign : splitSign (45 :: decimal z.natAbs) = (true, decimal z.natAbs) := rfl
    simp [scanNumber, blanks, sign, takeWhile_decimal, decimal_ne_nil, digitsValue_decimal, negative]
  · rename_i positive
    rw [scanNumber_decimal]
    simp [positive]

theorem stoi_intText {z : ℤ} (lo : -2 ^ 31 ≤ z) (hi : z < 2 ^ 31) : stoi (intText z) = .ok z := by
  have value : (if decide (z < 0) = true then -(z.natAbs : ℤ) else (z.natAbs : ℤ)) = z := by
    split
    · rename_i negative
      rw [decide_eq_true_eq] at negative
      omega
    · rename_i positive
      rw [decide_eq_true_eq] at positive
      omega
  rw [stoi, scanNumber_intText]
  dsimp only
  rw [value, if_pos ⟨lo, hi⟩]

theorem stoull_decimal (n : UInt64) : stoull (decimal n.toNat) = .ok n := by
  simp [stoull, scanNumber_decimal, n.toNat_lt]

theorem stoi_bounds {s : Bytes} {z : ℤ} (h : stoi s = .ok z) : -2 ^ 31 ≤ z ∧ z < 2 ^ 31 := by
  unfold stoi at h
  cases scan : scanNumber s with
  | none =>
    rw [scan] at h
    cases h
  | some m =>
    obtain ⟨negative, v⟩ := m
    rw [scan] at h
    dsimp only at h
    generalize (if negative = true then -(v : ℤ) else (v : ℤ)) = w at h
    by_cases within : -2 ^ 31 ≤ w ∧ w < 2 ^ 31
    · rw [if_pos within] at h
      cases h
      exact within
    · rw [if_neg within] at h
      cases h

theorem decimal_digit {b : UInt8} (h : isDigit b = true) : decimal (b.toNat - 48) = [b] := by
  have bounds := isDigit_toNat h
  have value : ∀ d : Fin 10, decimal d.val = [UInt8.ofNat (d.val + 48)] := by decide
  have back : b.toNat - 48 + 48 = b.toNat := by omega
  rw [value ⟨b.toNat - 48, by omega⟩]
  dsimp only
  rw [back, UInt8.ofNat_toNat]

theorem decimal_append {n d : ℕ} (hn : 0 < n) (hd : d < 10) : decimal (10 * n + d) = decimal n ++ decimal d := by
  rw [decimal, ← Nat.toDigits_append_toDigits (by decide) hn hd, List.map_append]
  rfl

theorem digitsValue_concat (p : Bytes) (b : UInt8) :
    digitsValue (p ++ [b]) = 10 * digitsValue p + (b.toNat - 48) := by
  rw [digitsValue, List.foldl_concat]
  rfl

/-- Digits with no leading zero, or a zero alone. -/
def plainDecimal (p : Bytes) : Bool := p ≠ [] && p.all isDigit && (p.head? ≠ some 48 || p = [48])

theorem plainDecimal_iff {p : Bytes} : plainDecimal p = true ↔
    p ≠ [] ∧ (∀ b ∈ p, isDigit b = true) ∧ (p.head? = some 48 → p = [48]) := by
  simp only [plainDecimal, Bool.and_eq_true, Bool.or_eq_true, decide_eq_true_eq, List.all_eq_true, and_assoc,
    imp_iff_not_or, ne_eq]

theorem digitsValue_pos {p : Bytes} (digits : ∀ b ∈ p, isDigit b = true) (some_digit : p ≠ [])
    (first : p.head? ≠ some 48) : 0 < digitsValue p := by
  induction p using List.reverseRecOn with
  | nil => exact absurd rfl some_digit
  | append_singleton p b ih =>
    rw [digitsValue_concat]
    cases p with
    | nil =>
      have bounds := isDigit_toNat (digits b (by simp))
      have not_zero : b.toNat ≠ 48 := fun h => first (by simp [← UInt8.toNat_inj, h])
      omega
    | cons c p =>
      have front := ih (fun d hd => digits d (List.mem_append_left _ hd)) (by simp) (by simpa using first)
      omega

theorem decimal_digitsValue {p : Bytes} (h : plainDecimal p = true) : decimal (digitsValue p) = p := by
  obtain ⟨some_digit, digits, leading⟩ := plainDecimal_iff.mp h
  clear h
  induction p using List.reverseRecOn with
  | nil => exact absurd rfl some_digit
  | append_singleton p b ih =>
    have last := digits b (by simp)
    have small := isDigit_toNat last
    have front : ∀ c ∈ p, isDigit c = true := fun c hc => digits c (by simp [hc])
    rw [digitsValue_concat]
    cases p with
    | nil => simpa [digitsValue] using decimal_digit last
    | cons c p =>
      have first : (c :: p).head? ≠ some 48 := fun h => by simpa using leading (by simpa using h)
      rw [decimal_append (digitsValue_pos front (by simp) first) (by omega), decimal_digit last,
        ih (by simp) front fun h => absurd h first]

theorem head_decimal (n : ℕ) (h : (decimal n).head? = some 48) : decimal n = [48] := by
  by_cases small : n < 10
  · have value : ∀ d : Fin 10, (decimal d.val).head? = some 48 → decimal d.val = [48] := by decide
    exact value ⟨n, small⟩ h
  · have parts : decimal n = decimal (n / 10) ++ decimal (n % 10) := by
      rw [← decimal_append (by omega) (by omega), Nat.div_add_mod]
    rw [parts, List.head?_append_of_ne_nil _ (decimal_ne_nil _)] at h
    have zero : n / 10 = 0 := by
      rw [← digitsValue_decimal (n / 10), head_decimal (n / 10) h]
      rfl
    omega

theorem plainDecimal_decimal (n : ℕ) : plainDecimal (decimal n) = true :=
  plainDecimal_iff.mpr ⟨decimal_ne_nil n, fun _ hb => decimal_isDigit hb, head_decimal n⟩

/-- The text before the first `c` and the text after it. -/
def cut (c : UInt8) : Bytes → Option (Bytes × Bytes)
  | [] => none
  | b :: s => if b = c then some ([], s) else (cut c s).map fun m => (b :: m.1, m.2)

theorem cut_eq_some {c : UInt8} {s mid rest : Bytes} :
    cut c s = some (mid, rest) ↔ s = mid ++ c :: rest ∧ c ∉ mid := by
  induction s generalizing mid with
  | nil => simp [cut]
  | cons b s ih =>
    by_cases hb : b = c
    · subst hb
      cases mid with
      | nil => simp [cut, eq_comm]
      | cons d mid => simp +contextual [cut, eq_comm]
    · cases mid with
      | nil => simp [cut, hb]
      | cons d mid =>
        have noted : ¬ c = b := fun e => hb e.symm
        simp only [cut, if_neg hb, Option.map_eq_some_iff, Prod.exists, Prod.mk.injEq, List.cons.injEq,
          List.cons_append, List.mem_cons, not_or]
        constructor
        · rintro ⟨m, r, hcut, ⟨rfl, rfl⟩, rfl⟩
          obtain ⟨hs, hm⟩ := ih.mp hcut
          exact ⟨⟨rfl, hs⟩, noted, hm⟩
        · rintro ⟨⟨rfl, hs⟩, -, hm⟩
          exact ⟨mid, rest, ih.mpr ⟨hs, hm⟩, ⟨rfl, rfl⟩, rfl⟩

/-- `find` is `cut` with the offset counted from the front. -/
theorem find_eq_cut (s : Bytes) (c : UInt8) (pos : ℕ) :
    find s c pos = (cut c (s.drop pos)).map fun m => pos + m.1.length := by
  have index (t : Bytes) : t.findIdx? (· == c) = (cut c t).map fun m => m.1.length := by
    induction t with
    | nil => rfl
    | cons b t ih =>
      rw [List.findIdx?_cons, cut]
      by_cases hb : b = c
      · simp [hb]
      · simp only [beq_eq_false_iff_ne.mpr hb, hb, if_false, ih, Option.map_map]
        rfl
  rw [find, index, Option.map_map]
  rfl

theorem find_of_cut_none {s : Bytes} {c : UInt8} {pos : ℕ} (h : cut c (s.drop pos) = none) :
    find s c pos = none := by
  rw [find_eq_cut, h]
  rfl

theorem find_of_cut {s mid rest : Bytes} {c : UInt8} {pos : ℕ} (h : cut c (s.drop pos) = some (mid, rest)) :
    find s c pos = some (pos + mid.length) ∧ substr s pos mid.length = mid ∧
      s.drop (pos + mid.length + 1) = rest := by
  have text := (cut_eq_some.mp h).1
  have shift : s.drop (pos + mid.length + 1) = (s.drop pos).drop (mid.length + 1) := by
    rw [List.drop_drop, Nat.add_assoc]
  refine ⟨?_, ?_, ?_⟩
  · rw [find_eq_cut, h]
    rfl
  · rw [substr, text, List.take_left]
  · rw [shift, text, ← List.drop_drop, List.drop_left]
    rfl

end InterchainCommunication.StringText
