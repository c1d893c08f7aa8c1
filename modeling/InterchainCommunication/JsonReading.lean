import InterchainCommunication.JsonGrammar

set_option autoImplicit false

namespace InterchainCommunication.JsonReading
open StringText JsonGrammar

/-- The text after a `u`: one character, or the two halves of one. -/
def readUnicode : Bytes → Option (Bytes × Bytes)
  | a :: b :: c :: d :: t => do
    let n ← hexQuad a b c d
    if n.isValidChar then some (utf8 n, t)
    else match t with
      | x :: y :: e :: f :: g :: h :: t => do
        let m ← hexQuad e f g h
        if x = 92 ∧ y = 117 ∧ n < 0xDC00 ∧ 0xDC00 ≤ m ∧ m < 0xE000 then
          some (utf8 (0x10000 + 0x400 * (n - 0xD800) + (m - 0xDC00)), t)
        else none
      | _ => none
  | _ => none

def readCharacter : Bytes → Option (Bytes × Bytes)
  | [] => none
  | b :: t =>
    if b = 92 then
      match t with
      | [] => none
      | c :: t => if c = 117 then readUnicode t else (shortEscape c).map fun d => ([d], t)
    else if 32 ≤ b then some ([b], t) else none

/-- A string behind its opening quote, up to and with the closing one. -/
def readCharacters : ℕ → Bytes → Option (Bytes × Bytes)
  | 0, _ => none
  | fuel + 1, s =>
    if s.head? = some 34 then some ([], s.tail)
    else do
      let (c, t) ← readCharacter s
      let (cs, t) ← readCharacters fuel t
      return (c ++ cs, t)

def splitDigits (s : Bytes) : Bytes × Bytes := (s.takeWhile isDigit, s.dropWhile isDigit)

def readFraction (s : Bytes) : Option (Option Bytes × Bytes) :=
  if s.head? = some 46 then
    let r := splitDigits s.tail
    if r.1 = [] then none else some (some r.1, r.2)
  else some (none, s)

def readSign (s : Bytes) : Option UInt8 × Bytes :=
  if s.head? = some 43 ∨ s.head? = some 45 then (s.head?, s.tail) else (none, s)

def readExponent : Bytes → Option (Option (UInt8 × Option UInt8 × Bytes) × Bytes)
  | [] => some (none, [])
  | b :: s =>
    if b = 101 ∨ b = 69 then
      let signed := readSign s
      let r := splitDigits signed.2
      if r.1 = [] then none else some (some (b, signed.1, r.1), r.2)
    else some (none, b :: s)

def readNumber (s : Bytes) : Option (NumberText × Bytes) := do
  let minus := s.head? = some 45
  let r := splitDigits (if minus then s.tail else s)
  if plainDecimal r.1 then
    let (fraction, t) ← readFraction r.2
    let (exponent, t) ← readExponent t
    return (⟨minus, r.1, fraction, exponent⟩, t)
  else none

def skip (s : Bytes) : Bytes := s.dropWhile isBlank

def readLiteral (name : Bytes) (v : Json) (s : Bytes) : Option (Json × Bytes) :=
  if s.take name.length = name then some (v, s.drop name.length) else none

def readName (s : Bytes) : Option (Bytes × Bytes) := do
  if s.head? = some 34 then
    let (name, t) ← readCharacters s.length s.tail
    if (skip t).head? = some 58 then some (name, (skip t).tail) else none
  else none

mutual

def readValue : ℕ → Bytes → Option (Json × Bytes)
  | 0, _ => none
  | _, [] => none
  | fuel + 1, b :: t =>
    if b = 34 then (readCharacters (b :: t).length t).map fun r => (.string r.1, r.2)
    else if b = 91 then
      if (skip t).head? = some 93 then some (.array [], (skip t).tail)
      else (readElements fuel t).map fun r => (.array r.1, r.2)
    else if b = 123 then
      if (skip t).head? = some 125 then some (.object [], (skip t).tail)
      else (readMembers fuel t).map fun r => (.object r.1, r.2)
    else if b = 110 then readLiteral (lit "null") .null (b :: t)
    else if b = 116 then readLiteral (lit "true") (.bool true) (b :: t)
    else if b = 102 then readLiteral (lit "false") (.bool false) (b :: t)
    else (readNumber (b :: t)).map fun r => (.number r.1.value, r.2)

def readElements : ℕ → Bytes → Option (List Json × Bytes)
  | 0, _ => none
  | fuel + 1, s => do
    let (v, t) ← readValue fuel (skip s)
    if (skip t).head? = some 93 then some ([v], (skip t).tail)
    else if (skip t).head? = some 44 then
      let (vs, t) ← readElements fuel (skip t).tail
      return (v :: vs, t)
    else none

def readMembers : ℕ → Bytes → Option (List (Bytes × Json) × Bytes)
  | 0, _ => none
  | fuel + 1, s => do
    let (name, t) ← readName (skip s)
    let (v, t) ← readValue fuel (skip t)
    if (skip t).head? = some 125 then some ([(name, v)], (skip t).tail)
    else if (skip t).head? = some 44 then
      let (ms, t) ← readMembers fuel (skip t).tail
      return ((name, v) :: ms, t)
    else none

end

def parse (s : Bytes) : Option Json := do
  let (v, t) ← readValue (2 * s.length + 2) (skip s)
  if skip t = [] then some v else none

theorem readCharacter_append {t s : Bytes} (h : Character t s) (rest : Bytes) :
    readCharacter (t ++ rest) = some (s, rest) := by
  cases h with
  | plain printable quote slash => simp [readCharacter, printable, slash]
  | @short c d escape =>
    have letter : c ≠ 117 := by
      rintro rfl
      cases escape
    simp [readCharacter, letter, escape]
  | unicode quad valid => simp [readCharacter, readUnicode, quad, valid]
  | @surrogates a b c d e f g h n m first high low second high' low' =>
    have lone : ¬ n.isValidChar := by
      unfold Nat.isValidChar
      omega
    simp [readCharacter, readUnicode, first, second, lone, low, high', low']

theorem head_character {t s : Bytes} (h : Character t s) : ∃ b u, t = b :: u ∧ b ≠ 34 := by
  cases h with
  | @plain b printable quote slash => exact ⟨b, [], rfl, quote⟩
  | @short c d escape => exact ⟨92, [c], rfl, by decide⟩
  | unicode => exact ⟨92, _, rfl, by decide⟩
  | surrogates => exact ⟨92, _, rfl, by decide⟩

theorem readCharacters_append {t s : Bytes} (h : Characters t s) :
    ∀ rest fuel, t.length < fuel → readCharacters fuel (t ++ 34 :: rest) = some (s, rest) := by
  induction h with
  | nil =>
    intro rest fuel enough
    obtain ⟨fuel, rfl⟩ := Nat.exists_eq_add_one_of_ne_zero (Nat.ne_zero_of_lt enough)
    simp [readCharacters]
  | @cons t s ts ss first tail ih =>
    intro rest fuel enough
    obtain ⟨b, u, text, quote⟩ := head_character first
    obtain ⟨fuel, rfl⟩ := Nat.exists_eq_add_one_of_ne_zero (Nat.ne_zero_of_lt enough)
    have fewer : ts.length < fuel := by
      rw [text] at enough
      simp only [List.length_append, List.length_cons] at enough
      omega
    have open_string : ¬ (t ++ ts ++ 34 :: rest).head? = some 34 := by
      rw [text]
      simpa using quote
    rw [readCharacters, if_neg open_string, List.append_assoc, readCharacter_append first]
    simp only [Option.bind_eq_bind, Option.bind_some]
    rw [ih rest fuel fewer]
    rfl

/-- What may stand behind a value: nothing, a blank, a comma or a closing bracket. -/
def Ends (s : Bytes) : Prop := ∀ b ∈ s.head?, isBlank b = true ∨ b = 44 ∨ b = 93 ∨ b = 125

def NoDigit (s : Bytes) : Prop := ∀ b ∈ s.head?, isDigit b = false

theorem digit_ends_nothing {b : UInt8} (digit : isDigit b = true) :
    isBlank b = false ∧ b ≠ 44 ∧ b ≠ 93 ∧ b ≠ 125 := by
  have bounds := isDigit_toNat digit
  have far (c : UInt8) (other : c.toNat < 48 ∨ 57 < c.toNat) : b ≠ c := by
    rintro rfl
    omega
  simp [isBlank, far 32 (by decide), far 9 (by decide), far 10 (by decide), far 13 (by decide),
    far 44 (by decide), far 93 (by decide), far 125 (by decide)]

theorem noDigit_of_ends {s : Bytes} (ends : Ends s) : NoDigit s := by
  intro b hb
  rw [← Bool.not_eq_true]
  intro digit
  obtain ⟨blank, comma, bracket, brace⟩ := digit_ends_nothing digit
  rcases ends b hb with h | h | h | h
  · rw [blank] at h
    cases h
  · exact comma h
  · exact bracket h
  · exact brace h

theorem head_of_ends {s : Bytes} (ends : Ends s) : ∀ b ∈ s.head?, b ≠ 46 ∧ b ≠ 101 ∧ b ≠ 69 := by
  intro b hb
  have far (c : UInt8) (other : ¬ (isBlank c = true ∨ c = 44 ∨ c = 93 ∨ c = 125)) : b ≠ c := by
    rintro rfl
    exact other (ends b hb)
  exact ⟨far 46 (by decide), far 101 (by decide), far 69 (by decide)⟩

theorem splitDigits_append {ds rest : Bytes} (digits : ∀ b ∈ ds, isDigit b = true) (stop : NoDigit rest) :
    splitDigits (ds ++ rest) = (ds, rest) := by
  have behind : rest.takeWhile isDigit = [] ∧ rest.dropWhile isDigit = rest := by
    cases rest with
    | nil => exact ⟨rfl, rfl⟩
    | cons b rest =>
      have other : isDigit b = false := stop b rfl
      exact ⟨by simp [other], by simp [other]⟩
  rw [splitDigits, List.takeWhile_append_of_pos digits, List.dropWhile_append_of_pos digits, behind.1, behind.2,
    List.append_nil]

theorem isDigits_iff {ds : Bytes} : NumberText.isDigits ds = true ↔ ds ≠ [] ∧ ∀ b ∈ ds, isDigit b = true := by
  simp [NumberText.isDigits]

theorem head_digits {ds : Bytes} (h : NumberText.isDigits ds = true) :
    ∃ b u, ds = b :: u ∧ isDigit b = true := by
  obtain ⟨some_digit, digits⟩ := isDigits_iff.mp h
  obtain ⟨b, u, text⟩ := List.exists_cons_of_ne_nil some_digit
  exact ⟨b, u, text, digits b (by simp [text])⟩

theorem readSign_append {sign : Option UInt8} {ds : Bytes} (named : ∀ b ∈ sign, b = 43 ∨ b = 45)
    (digits : NumberText.isDigits ds = true) (rest : Bytes) :
    readSign (sign.toList ++ ds ++ rest) = (sign, ds ++ rest) := by
  cases sign with
  | none =>
    obtain ⟨b, u, text, digit⟩ := head_digits digits
    have plus : b ≠ 43 := by
      rintro rfl
      exact absurd digit (by decide)
    have minus : b ≠ 45 := by
      rintro rfl
      exact absurd digit (by decide)
    simp [readSign, text, plus, minus]
  | some b =>
    rcases named b rfl with rfl | rfl
    · simp [readSign]
    · simp [readSign]

theorem readExponent_append {p : NumberText} (valid : p.Valid) {rest : Bytes} (ends : Ends rest) :
    readExponent (p.exponentText ++ rest) = some (p.exponent, rest) := by
  have stop := noDigit_of_ends ends
  have other := head_of_ends ends
  unfold NumberText.exponentText
  cases exponent : p.exponent with
  | none =>
    cases rest with
    | nil => rfl
    | cons b rest =>
      obtain ⟨-, small, large⟩ := other b rfl
      simp [readExponent, small, large]
  | some x =>
    obtain ⟨letter, sign, ds⟩ := x
    have named := valid.letter _ exponent
    have digits := valid.exponent _ exponent
    have split := splitDigits_append (isDigits_iff.mp digits).2 stop
    have signed := readSign_append (valid.sign _ exponent) digits rest
    dsimp only at named digits split signed ⊢
    rw [List.cons_append, readExponent, if_pos named, signed]
    simp only [split, (isDigits_iff.mp digits).1, if_false]

theorem readFraction_append {p : NumberText} (valid : p.Valid) {rest : Bytes} (stop : NoDigit rest)
    (point : rest.head? ≠ some 46) : readFraction (p.fractionText ++ rest) = some (p.fraction, rest) := by
  unfold NumberText.fractionText
  cases fraction : p.fraction with
  | none => simp [readFraction, point]
  | some ds =>
    obtain ⟨some_digit, digits⟩ := isDigits_iff.mp (valid.fraction ds fraction)
    simp [readFraction, splitDigits_append digits stop, some_digit]

theorem head_exponentText {p : NumberText} (valid : p.Valid) {rest : Bytes} (ends : Ends rest) :
    NoDigit (p.exponentText ++ rest) ∧ (p.exponentText ++ rest).head? ≠ some 46 := by
  have stop := noDigit_of_ends ends
  have other := head_of_ends ends
  unfold NumberText.exponentText
  cases exponent : p.exponent with
  | none => exact ⟨stop, fun point => (other 46 point).1 rfl⟩
  | some x =>
    obtain ⟨letter, sign, ds⟩ := x
    rcases valid.letter _ exponent with rfl | rfl
    · exact ⟨fun b hb => by cases hb; decide, by simp⟩
    · exact ⟨fun b hb => by cases hb; decide, by simp⟩

theorem head_fractionText {p : NumberText} (valid : p.Valid) {rest : Bytes} (ends : Ends rest) :
    NoDigit (p.fractionText ++ (p.exponentText ++ rest)) := by
  unfold NumberText.fractionText
  cases p.fraction with
  | none => exact (head_exponentText valid ends).1
  | some ds => exact fun b hb => by cases hb; decide

theorem plainDecimal_digits {ds : Bytes} (h : plainDecimal ds = true) :
    ∃ b u, ds = b :: u ∧ isDigit b = true := by
  obtain ⟨some_digit, digits, -⟩ := plainDecimal_iff.mp h
  exact head_digits (isDigits_iff.mpr ⟨some_digit, digits⟩)

/-- A number ends where something other than a digit, a point or an exponent stands. -/
theorem readNumber_append {p : NumberText} (valid : p.Valid) {rest : Bytes} (ends : Ends rest) :
    readNumber (p.text ++ rest) = some (p, rest) := by
  obtain ⟨b, u, whole, digit⟩ := plainDecimal_digits valid.whole
  have unsigned : b ≠ 45 := by
    rintro rfl
    exact absurd digit (by decide)
  have digits := (plainDecimal_iff.mp valid.whole).2.1
  have split := splitDigits_append digits (head_fractionText valid ends)
  have fraction := readFraction_append valid (head_exponentText valid ends).1 (head_exponentText valid ends).2
  have exponent := readExponent_append valid ends
  have sign : (if (p.text ++ rest).head? = some 45 then (p.text ++ rest).tail else p.text ++ rest) =
      p.whole ++ (p.fractionText ++ (p.exponentText ++ rest)) ∧
        decide ((p.text ++ rest).head? = some 45) = p.minus := by
    unfold NumberText.text
    cases p.minus with
    | true => simp
    | false => simp [whole, unsigned]
  simp only [readNumber, sign.1, sign.2, split, valid.whole, if_true, fraction, exponent,
    Option.bind_eq_bind, Option.bind_some, Option.pure_def]

theorem head_number {p : NumberText} (valid : p.Valid) : ∃ b u, p.text = b :: u ∧ (b = 45 ∨ isDigit b = true) := by
  obtain ⟨b, u, whole, digit⟩ := plainDecimal_digits valid.whole
  unfold NumberText.text
  cases p.minus with
  | true => exact ⟨45, p.whole ++ p.fractionText ++ p.exponentText, by simp, .inl rfl⟩
  | false => exact ⟨b, u ++ p.fractionText ++ p.exponentText, by simp [whole], .inr digit⟩

/-- The first byte of a value, which tells its productions apart and is no blank and no bracket's end. -/
theorem head_value {v : Json} {s : Bytes} (h : Derives (.value v) s) :
    ∃ b u, s = b :: u ∧ isBlank b = false ∧ b ≠ 93 ∧ b ≠ 125 := by
  generalize phrase : Phrase.value v = p at h
  cases h with
  | null => exact ⟨110, lit "ull", rfl, by decide, by decide, by decide⟩
  | true => exact ⟨116, lit "rue", rfl, by decide, by decide, by decide⟩
  | false => exact ⟨102, lit "alse", rfl, by decide, by decide, by decide⟩
  | number valid =>
    obtain ⟨b, u, text, rfl | digit⟩ := head_number valid
    · exact ⟨45, u, text, by decide, by decide, by decide⟩
    · obtain ⟨blank, -, bracket, brace⟩ := digit_ends_nothing digit
      exact ⟨b, u, text, blank, bracket, brace⟩
  | string => exact ⟨34, _, rfl, by decide, by decide, by decide⟩
  | noElements => exact ⟨91, _, rfl, by decide, by decide, by decide⟩
  | array => exact ⟨91, _, rfl, by decide, by decide, by decide⟩
  | noMembers => exact ⟨123, _, rfl, by decide, by decide, by decide⟩
  | object => exact ⟨123, _, rfl, by decide, by decide, by decide⟩
  | element => cases phrase
  | lastElement => cases phrase
  | moreElements => cases phrase
  | member => cases phrase
  | lastMember => cases phrase
  | moreMembers => cases phrase

theorem skip_blanks {w : Bytes} (blank : Blanks w) (rest : Bytes) : skip (w ++ rest) = skip rest :=
  List.dropWhile_append_of_pos blank

theorem skip_of_head {b : UInt8} (plain : isBlank b = false) (rest : Bytes) : skip (b :: rest) = b :: rest :=
  List.dropWhile_cons_of_neg (by simp [plain])

theorem ends_blanks {w rest : Bytes} (blank : Blanks w) (ends : Ends rest) : Ends (w ++ rest) := by
  cases w with
  | nil => exact ends
  | cons b w =>
    intro c hc
    cases hc
    exact .inl (blank b (by simp))

theorem head_element {v : Json} {s : Bytes} (h : Derives (.element v) s) (rest : Bytes) :
    ∃ b u, skip (s ++ rest) = b :: u ∧ b ≠ 93 := by
  cases h with
  | @element v w t w' blank value blank' =>
    obtain ⟨b, u, text, plain, bracket, -⟩ := head_value value
    refine ⟨b, u ++ (w' ++ rest), ?_, bracket⟩
    rw [List.append_assoc, skip_blanks blank, text]
    simpa using skip_of_head plain (u ++ (w' ++ rest))

theorem head_elements {vs : List Json} {s : Bytes} (h : Derives (.elements vs) s) (rest : Bytes) :
    (skip (s ++ rest)).head? ≠ some 93 := by
  cases h with
  | lastElement element =>
    obtain ⟨b, u, text, bracket⟩ := head_element element rest
    simpa [text] using bracket
  | @moreElements v vs t ts element elements =>
    obtain ⟨b, u, text, bracket⟩ := head_element element (44 :: (ts ++ rest))
    simpa [text] using bracket

theorem head_member {m : Bytes × Json} {s : Bytes} (h : Derives (.member m) s) (rest : Bytes) :
    ∃ u, skip (s ++ rest) = 34 :: u := by
  cases h with
  | @member s t w w' u v blank name blank' element =>
    rw [List.append_assoc, skip_blanks blank]
    exact ⟨_, skip_of_head (by decide) _⟩

theorem head_members {ms : List (Bytes × Json)} {s : Bytes} (h : Derives (.members ms) s) (rest : Bytes) :
    (skip (s ++ rest)).head? ≠ some 125 := by
  cases h with
  | lastMember member =>
    obtain ⟨u, text⟩ := head_member member rest
    simp [text]
  | @moreMembers m ms t ts member members =>
    obtain ⟨u, text⟩ := head_member member (44 :: (ts ++ rest))
    simp [text]

def Closes (s : Bytes) : Prop := ∀ b ∈ s.head?, b = 44 ∨ b = 93 ∨ b = 125

theorem skip_closes {s : Bytes} (closes : Closes s) : skip s = s := by
  cases s with
  | nil => rfl
  | cons b s =>
    apply skip_of_head
    rcases closes b rfl with rfl | rfl | rfl
    · decide
    · decide
    · decide

/-- The reader finds what a phrase derives in front of anything that may follow it. -/
def Found : Phrase → Bytes → Prop
  | .value v, s => ∀ rest fuel, Ends rest → 2 * s.length < fuel → readValue fuel (s ++ rest) = some (v, rest)
  | .element v, s => ∀ rest fuel, Closes rest → 2 * s.length < fuel →
      ∃ u, readValue fuel (skip (s ++ rest)) = some (v, u) ∧ skip u = rest
  | .elements vs, s => ∀ rest fuel, 2 * s.length + 1 < fuel → readElements fuel (s ++ 93 :: rest) = some (vs, rest)
  | .member m, s => ∀ rest fuel, Closes rest → 2 * s.length < fuel →
      ∃ t u, readName (skip (s ++ rest)) = some (m.1, t) ∧ readValue fuel (skip t) = some (m.2, u) ∧ skip u = rest
  | .members ms, s => ∀ rest fuel, 2 * s.length + 1 < fuel → readMembers fuel (s ++ 125 :: rest) = some (ms, rest)

theorem found_literal (word : Bytes) (v : Json)
    (reads : ∀ fuel t, readValue (fuel + 1) (word ++ t) = readLiteral word v (word ++ t)) :
    Found (.value v) word := by
  intro rest fuel ends enough
  obtain ⟨fuel, rfl⟩ := Nat.exists_eq_add_one_of_ne_zero (Nat.ne_zero_of_lt enough)
  simp [reads, readLiteral]

theorem readValue_null (fuel : ℕ) (t : Bytes) :
    readValue (fuel + 1) (lit "null" ++ t) = readLiteral (lit "null") .null (lit "null" ++ t) := by
  change readValue (fuel + 1) (110 :: (lit "ull" ++ t)) = _
  rw [readValue, if_neg (by decide), if_neg (by decide), if_neg (by decide), if_pos rfl]
  rfl

theorem readValue_true (fuel : ℕ) (t : Bytes) :
    readValue (fuel + 1) (lit "true" ++ t) = readLiteral (lit "true") (.bool true) (lit "true" ++ t) := by
  change readValue (fuel + 1) (116 :: (lit "rue" ++ t)) = _
  rw [readValue, if_neg (by decide), if_neg (by decide), if_neg (by decide), if_neg (by decide), if_pos rfl]
  rfl

theorem readValue_false (fuel : ℕ) (t : Bytes) :
    readValue (fuel + 1) (lit "false" ++ t) = readLiteral (lit "false") (.bool false) (lit "false" ++ t) := by
  change readValue (fuel + 1) (102 :: (lit "alse" ++ t)) = _
  rw [readValue, if_neg (by decide), if_neg (by decide), if_neg (by decide), if_neg (by decide), if_neg (by decide),
    if_pos rfl]
  rfl

theorem found_number {p : NumberText} (valid : p.Valid) : Found (.value (.number p.value)) p.text := by
  intro rest fuel ends enough
  obtain ⟨b, u, text, first⟩ := head_number valid
  have read := readNumber_append valid ends
  have other (c : UInt8) (hc : isDigit c = false ∧ c ≠ 45) : b ≠ c := by
    rintro rfl
    rcases first with h | h
    · exact hc.2 h
    · rw [hc.1] at h
      cases h
  obtain ⟨fuel, rfl⟩ := Nat.exists_eq_add_one_of_ne_zero (Nat.ne_zero_of_lt enough)
  rw [text, List.cons_append] at read ⊢
  rw [readValue, if_neg (other 34 (by decide)), if_neg (other 91 (by decide)), if_neg (other 123 (by decide)),
    if_neg (other 110 (by decide)), if_neg (other 116 (by decide)), if_neg (other 102 (by decide)), read]
  rfl

theorem found_string {t s : Bytes} (h : Characters t s) : Found (.value (.string s)) (34 :: (t ++ [34])) := by
  intro rest fuel ends enough
  obtain ⟨fuel, rfl⟩ := Nat.exists_eq_add_one_of_ne_zero (Nat.ne_zero_of_lt enough)
  have text : 34 :: (t ++ [34]) ++ rest = 34 :: (t ++ 34 :: rest) := by simp
  have read := readCharacters_append h rest (34 :: (t ++ 34 :: rest)).length (by simp)
  rw [text, readValue, if_pos rfl, read]
  rfl

theorem found_array {vs : List Json} {t : Bytes} (derives : Derives (.elements vs) t) (h : Found (.elements vs) t) :
    Found (.value (.array vs)) (91 :: (t ++ [93])) := by
  intro rest fuel ends enough
  obtain ⟨fuel, rfl⟩ := Nat.exists_eq_add_one_of_ne_zero (Nat.ne_zero_of_lt enough)
  have text : 91 :: (t ++ [93]) ++ rest = 91 :: (t ++ 93 :: rest) := by simp
  have inside := head_elements derives (93 :: rest)
  have read := h rest fuel (by simp at enough; omega)
  rw [text, readValue, if_neg (by decide), if_pos rfl, if_neg inside, read]
  rfl

theorem found_object {ms : List (Bytes × Json)} {t : Bytes} (derives : Derives (.members ms) t)
    (h : Found (.members ms) t) : Found (.value (.object ms)) (123 :: (t ++ [125])) := by
  intro rest fuel ends enough
  obtain ⟨fuel, rfl⟩ := Nat.exists_eq_add_one_of_ne_zero (Nat.ne_zero_of_lt enough)
  have text : 123 :: (t ++ [125]) ++ rest = 123 :: (t ++ 125 :: rest) := by simp
  have inside := head_members derives (125 :: rest)
  have read := h rest fuel (by simp at enough; omega)
  rw [text, readValue, if_neg (by decide), if_neg (by decide), if_pos rfl, if_neg inside, read]
  rfl

theorem found_empty (opening closing : UInt8) (v : Json)
    (reads : ∀ fuel t, (skip t).head? = some closing → readValue (fuel + 1) (opening :: t) = some (v, (skip t).tail))
    (plain : isBlank closing = false) {w : Bytes} (blank : Blanks w) :
    Found (.value v) (opening :: (w ++ [closing])) := by
  intro rest fuel ends enough
  obtain ⟨fuel, rfl⟩ := Nat.exists_eq_add_one_of_ne_zero (Nat.ne_zero_of_lt enough)
  have text : opening :: (w ++ [closing]) ++ rest = opening :: (w ++ closing :: rest) := by simp
  have behind : skip (w ++ closing :: rest) = closing :: rest := by rw [skip_blanks blank, skip_of_head plain]
  rw [text, reads fuel _ (by rw [behind]; rfl), behind]
  rfl

theorem readValue_noElements (fuel : ℕ) (t : Bytes) (closed : (skip t).head? = some 93) :
    readValue (fuel + 1) (91 :: t) = some (.array [], (skip t).tail) := by
  rw [readValue, if_neg (by decide), if_pos rfl, if_pos closed]

theorem readValue_noMembers (fuel : ℕ) (t : Bytes) (closed : (skip t).head? = some 125) :
    readValue (fuel + 1) (123 :: t) = some (.object [], (skip t).tail) := by
  rw [readValue, if_neg (by decide), if_neg (by decide), if_pos rfl, if_pos closed]

theorem found_element {v : Json} {w t w' : Bytes} (blank : Blanks w) (derives : Derives (.value v) t)
    (blank' : Blanks w') (h : Found (.value v) t) : Found (.element v) (w ++ (t ++ w')) := by
  intro rest fuel closes enough
  obtain ⟨b, u, text, plain, -⟩ := head_value derives
  have ends : Ends (w' ++ rest) := ends_blanks blank' fun b hb => .inr (closes b hb)
  have read := h (w' ++ rest) fuel ends (by simp at enough; omega)
  refine ⟨w' ++ rest, ?_, ?_⟩
  · rw [List.append_assoc, skip_blanks blank, List.append_assoc, text, List.cons_append, skip_of_head plain,
      ← List.cons_append, ← text, read]
  · rw [skip_blanks blank', skip_closes closes]

theorem found_member {s t w w' u : Bytes} {v : Json} (blank : Blanks w) (name : Characters t s)
    (blank' : Blanks w') (h : Found (.element v) u) :
    Found (.member (s, v)) (w ++ 34 :: (t ++ 34 :: (w' ++ 58 :: u))) := by
  intro rest fuel closes enough
  obtain ⟨x, read, behind⟩ := h rest fuel closes (by simp at enough; omega)
  refine ⟨u ++ rest, x, ?_, read, behind⟩
  have text : skip (w ++ 34 :: (t ++ 34 :: (w' ++ 58 :: u)) ++ rest) =
      34 :: (t ++ 34 :: (w' ++ 58 :: (u ++ rest))) := by
    rw [List.append_assoc, skip_blanks blank]
    simp [skip_of_head (b := 34) (by decide)]
  have colon : skip (w' ++ 58 :: (u ++ rest)) = 58 :: (u ++ rest) := by
    rw [skip_blanks blank', skip_of_head (by decide)]
  have chars := readCharacters_append name (w' ++ 58 :: (u ++ rest))
    (34 :: (t ++ 34 :: (w' ++ 58 :: (u ++ rest)))).length (by simp)
  rw [text, readName, if_pos List.head?_cons, List.tail_cons, chars]
  simp [colon]

theorem found_lastElement {v : Json} {t : Bytes} (h : Found (.element v) t) : Found (.elements [v]) t := by
  intro rest fuel enough
  obtain ⟨fuel, rfl⟩ := Nat.exists_eq_add_one_of_ne_zero (Nat.ne_zero_of_lt enough)
  obtain ⟨u, read, behind⟩ := h (93 :: rest) fuel (by simp [Closes]) (by omega)
  rw [readElements, read]
  simp [behind]

theorem found_moreElements {v : Json} {vs : List Json} {t ts : Bytes} (h : Found (.element v) t)
    (hs : Found (.elements vs) ts) : Found (.elements (v :: vs)) (t ++ 44 :: ts) := by
  intro rest fuel enough
  simp only [List.length_append, List.length_cons] at enough
  obtain ⟨fuel, rfl⟩ := Nat.exists_eq_add_one_of_ne_zero (Nat.ne_zero_of_lt enough)
  obtain ⟨u, read, behind⟩ := h (44 :: (ts ++ 93 :: rest)) fuel (by simp [Closes]) (by omega)
  have more := hs rest fuel (by omega)
  rw [List.append_assoc, List.cons_append, readElements, read]
  simp [behind, more]

theorem found_lastMember {m : Bytes × Json} {t : Bytes} (h : Found (.member m) t) : Found (.members [m]) t := by
  intro rest fuel enough
  obtain ⟨fuel, rfl⟩ := Nat.exists_eq_add_one_of_ne_zero (Nat.ne_zero_of_lt enough)
  obtain ⟨x, u, name, read, behind⟩ := h (125 :: rest) fuel (by simp [Closes]) (by omega)
  rw [readMembers, name]
  simp [read, behind]

theorem found_moreMembers {m : Bytes × Json} {ms : List (Bytes × Json)} {t ts : Bytes} (h : Found (.member m) t)
    (hs : Found (.members ms) ts) : Found (.members (m :: ms)) (t ++ 44 :: ts) := by
  intro rest fuel enough
  simp only [List.length_append, List.length_cons] at enough
  obtain ⟨fuel, rfl⟩ := Nat.exists_eq_add_one_of_ne_zero (Nat.ne_zero_of_lt enough)
  obtain ⟨x, u, name, read, behind⟩ := h (44 :: (ts ++ 125 :: rest)) fuel (by simp [Closes]) (by omega)
  have more := hs rest fuel (by omega)
  rw [List.append_assoc, List.cons_append, readMembers, name]
  simp [read, behind, more]

/-- One case for each production. -/
theorem found_of_derives {p : Phrase} {s : Bytes} (h : Derives p s) : Found p s := by
  induction h with
  | null => exact found_literal _ _ readValue_null
  | true => exact found_literal _ _ readValue_true
  | false => exact found_literal _ _ readValue_false
  | number valid => exact found_number valid
  | string chars => exact found_string chars
  | noElements blank => exact found_empty 91 93 _ readValue_noElements (by decide) blank
  | array derives ih => exact found_array derives ih
  | noMembers blank => exact found_empty 123 125 _ readValue_noMembers (by decide) blank
  | object derives ih => exact found_object derives ih
  | element blank derives blank' ih => exact found_element blank derives blank' ih
  | lastElement _ ih => exact found_lastElement ih
  | moreElements _ _ ih ihs => exact found_moreElements ih ihs
  | member blank name blank' _ ih => exact found_member blank name blank' ih
  | lastMember _ ih => exact found_lastMember ih
  | moreMembers _ _ ih ihs => exact found_moreMembers ih ihs

theorem parse_of_text {v : Json} {s : Bytes} (h : Text v s) : parse s = some v := by
  obtain ⟨u, read, behind⟩ := found_of_derives h [] (2 * s.length + 2) (by simp [Closes]) (by omega)
  rw [List.append_nil] at read
  rw [parse, read]
  simp [behind]

/-- A text denotes at most one value. -/
theorem text_unique {v w : Json} {s : Bytes} (hv : Text v s) (hw : Text w s) : v = w :=
  Option.some.inj ((parse_of_text hv).symm.trans (parse_of_text hw))

end InterchainCommunication.JsonReading
