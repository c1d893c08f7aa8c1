import InterchainCommunication.PacketCodec

set_option autoImplicit false

namespace InterchainCommunication.PacketStrictness
open StringText CoreTypes PacketCodec

/-- A number of blanks, a sign and digits at the front, with a value an `int` holds. -/
def readsInt (p : Bytes) : Bool :=
  match scanNumber p with
  | none => false
  | some (negative, v) => decide (v < 2 ^ 31) || (negative && decide (v = 2 ^ 31))

def readsULong (p : Bytes) : Bool :=
  match scanNumber p with
  | none => false
  | some (_, v) => decide (v < 2 ^ 64)

def readable (s : Bytes) : Bool :=
  match split s pipe with
  | [p0, _, _, _, _, _, _, p7, _] => readsInt p0 && readsULong p7
  | _ => false

/-- A text whose only escapes are those of a pipe and of a backslash. -/
def spare (p : Bytes) : Bool := DelimitedText.sparing pipe backslash p

/-- Nine parts as the encoder writes them for a packet of one of the two types. -/
def canonical (s : Bytes) : Bool :=
  match split s pipe with
  | [p0, p1, p2, p3, p4, p5, p6, p7, p8] =>
    (p0 = lit "0" || p0 = lit "1") && (plainDecimal p7 && decide (digitsValue p7 < 2 ^ 64)) &&
      [p1, p2, p3, p4, p5, p6, p8].all spare
  | _ => false

theorem guarded_ok_iff {α ε : Type} {c : Prop} [Decidable c] (a : α) (e : ε) :
    (∃ z, (if c then Except.ok a else Except.error e) = Except.ok z) ↔ c := by
  by_cases h : c
  · simp [h]
  · simp [h]

theorem stoi_ok_iff (p : Bytes) : (∃ z, stoi p = .ok z) ↔ readsInt p = true := by
  unfold stoi readsInt
  cases scanNumber p with
  | none => simp
  | some m =>
    obtain ⟨negative, v⟩ := m
    simp only [guarded_ok_iff, Bool.or_eq_true, Bool.and_eq_true, decide_eq_true_eq]
    cases negative with
    | false =>
      simp only [Bool.false_eq_true, if_false, false_and, or_false]
      omega
    | true =>
      simp only [if_true, true_and]
      omega

theorem stoull_ok_iff (p : Bytes) : (∃ n, stoull p = .ok n) ↔ readsULong p = true := by
  unfold stoull readsULong
  cases scanNumber p with
  | none => simp
  | some m =>
    obtain ⟨negative, v⟩ := m
    simp only [guarded_ok_iff, decide_eq_true_eq]

theorem IBCPacketType.toInt_ofInt (v : ℤ) : (IBCPacketType.ofInt v).toInt = v := by
  unfold IBCPacketType.ofInt
  split
  · rename_i h
    rw [h]
    rfl
  · split
    · rename_i h
      rw [h]
      rfl
    · rfl

theorem ofInt_named_iff (v : ℤ) :
    IBCPacketType.ofInt v = .data ∨ IBCPacketType.ofInt v = .ack ↔ v = 0 ∨ v = 1 := by
  constructor
  · rintro (h | h)
    · exact .inl ((IBCPacketType.toInt_ofInt v).symm.trans (congrArg IBCPacketType.toInt h))
    · exact .inr ((IBCPacketType.toInt_ofInt v).symm.trans (congrArg IBCPacketType.toInt h))
  · rintro (rfl | rfl)
    · exact .inl rfl
    · exact .inr rfl

/-- A text is what the encoder writes exactly when it is cut into that packet's fields. -/
theorem serialize_eq_iff (pkt : IBCPacket) (s : Bytes) :
    serializeIBCPacket pkt = s ↔ split s pipe = packetFields pkt := by
  constructor
  · rintro rfl
    exact split_serializeIBCPacket pkt
  · intro parts
    rw [serializeIBCPacket_eq, ← parts, split_eq]
    exact DelimitedText.intercalate_split pipe backslash s

theorem escape_unescape_iff (p : Bytes) : p = escape (unescape p) ↔ spare p = true := by
  rw [escape_eq, unescape_eq, eq_comm]
  exact DelimitedText.escape_unescape_iff pipe backslash p

theorem type_field_iff {p : Bytes} {z : ℤ} (read : stoi p = .ok z) :
    (z = 0 ∨ z = 1) ∧ p = intText z ↔ p = lit "0" ∨ p = lit "1" := by
  have zero : intText 0 = lit "0" := by decide
  have one : intText 1 = lit "1" := by decide
  constructor
  · rintro ⟨rfl | rfl, field⟩
    · exact .inl (field.trans zero)
    · exact .inr (field.trans one)
  · rintro (rfl | rfl)
    · rw [← zero, stoi_intText (by decide) (by decide)] at read
      cases read
      exact ⟨.inl rfl, zero.symm⟩
    · rw [← one, stoi_intText (by decide) (by decide)] at read
      cases read
      exact ⟨.inr rfl, one.symm⟩

theorem stoull_plainDecimal {p : Bytes} (plain : plainDecimal p = true) (small : digitsValue p < 2 ^ 64) :
    stoull p = .ok (UInt64.ofNat (digitsValue p)) := by
  have value : (UInt64.ofNat (digitsValue p)).toNat = digitsValue p := UInt64.toNat_ofNat_of_lt' small
  rw [← stoull_decimal, value, decimal_digitsValue plain]

theorem sequence_field_iff {p : Bytes} {n : UInt64} (read : stoull p = .ok n) :
    p = decimal n.toNat ↔ plainDecimal p = true ∧ digitsValue p < 2 ^ 64 := by
  constructor
  · rintro rfl
    rw [digitsValue_decimal]
    exact ⟨plainDecimal_decimal _, n.toNat_lt⟩
  · rintro ⟨plain, small⟩
    rw [stoull_plainDecimal plain small] at read
    cases read
    rw [UInt64.toNat_ofNat_of_lt' small, decimal_digitsValue plain]

theorem deserialize_readable {s p0 p1 p2 p3 p4 p5 p6 p7 p8 : Bytes} {z : ℤ} {n : UInt64}
    (parts : split s pipe = [p0, p1, p2, p3, p4, p5, p6, p7, p8]) (type : stoi p0 = .ok z)
    (sequence : stoull p7 = .ok n) : deserializeIBCPacket s =
      .ok ⟨.ofInt z, unescape p1, unescape p2, ⟨unescape p3⟩, ⟨unescape p4⟩, ⟨unescape p5⟩, ⟨unescape p6⟩, n,
        unescape p8⟩ := by
  unfold deserializeIBCPacket
  rw [parts]
  dsimp only
  simp only [parseParts, type, sequence]
  rfl

theorem refused_unless_nine {s : Bytes}
    (other : ¬ ∃ p0 p1 p2 p3 p4 p5 p6 p7 p8, split s pipe = [p0, p1, p2, p3, p4, p5, p6, p7, p8]) :
    readable s = false ∧ ∃ w, deserializeIBCPacket s = .error (.runtimeError w) := by
  constructor
  · unfold readable
    split
    · rename_i parts
      exact absurd ⟨_, _, _, _, _, _, _, _, _, parts⟩ other
    · rfl
  · unfold deserializeIBCPacket
    split
    · rename_i parts
      exact absurd ⟨_, _, _, _, _, _, _, _, _, parts⟩ other
    · exact ⟨_, rfl⟩

/-- Nine parts with two numbers decode, anything else is refused with the one exception. -/
theorem deserialize_cases (s : Bytes) :
    (readable s = true ∧ ∃ p0 p1 p2 p3 p4 p5 p6 p7 p8 z n,
      split s pipe = [p0, p1, p2, p3, p4, p5, p6, p7, p8] ∧ stoi p0 = .ok z ∧ stoull p7 = .ok n) ∨
    (readable s = false ∧ ∃ w, deserializeIBCPacket s = .error (.runtimeError w)) := by
  by_cases nine : ∃ p0 p1 p2 p3 p4 p5 p6 p7 p8, split s pipe = [p0, p1, p2, p3, p4, p5, p6, p7, p8]
  · obtain ⟨p0, p1, p2, p3, p4, p5, p6, p7, p8, parts⟩ := nine
    unfold readable deserializeIBCPacket
    rw [parts]
    dsimp only
    cases type : stoi p0 with
    | error e =>
      have unread : readsInt p0 = false := by
        rw [← Bool.not_eq_true, ← stoi_ok_iff, type]
        simp
      refine .inr ⟨by simp [unread], lit "Failed to parse IBCPacket: " ++ e.what, ?_⟩
      simp only [parseParts, type]
      rfl
    | ok z =>
      have int := (stoi_ok_iff p0).mp ⟨z, type⟩
      cases sequence : stoull p7 with
      | error e =>
        have unread : readsULong p7 = false := by
          rw [← Bool.not_eq_true, ← stoull_ok_iff, sequence]
          simp
        refine .inr ⟨by simp [unread], lit "Failed to parse IBCPacket: " ++ e.what, ?_⟩
        simp only [parseParts, type, sequence]
        rfl
      | ok n =>
        have long := (stoull_ok_iff p7).mp ⟨n, sequence⟩
        exact .inl ⟨by simp [int, long], p0, p1, p2, p3, p4, p5, p6, p7, p8, z, n, rfl, type, sequence⟩
  · exact .inr (refused_unless_nine nine)

theorem readable_of_canonical {s : Bytes} (h : canonical s = true) : readable s = true := by
  unfold canonical at h
  unfold readable
  split at h
  · rename_i p0 p1 p2 p3 p4 p5 p6 p7 p8 parts
    simp only [Bool.and_eq_true, Bool.or_eq_true, decide_eq_true_eq] at h
    obtain ⟨⟨type, plain, small⟩, -⟩ := h
    have int : readsInt p0 = true := by
      rcases type with rfl | rfl
      · decide
      · decide
    have long := (stoull_ok_iff p7).mp ⟨_, stoull_plainDecimal plain small⟩
    simp only [int, long, Bool.and_self]
  · cases h

theorem named_and_rewritten_iff {s p0 p1 p2 p3 p4 p5 p6 p7 p8 : Bytes} {z : ℤ} {n : UInt64}
    (parts : split s pipe = [p0, p1, p2, p3, p4, p5, p6, p7, p8]) (type : stoi p0 = .ok z)
    (sequence : stoull p7 = .ok n) {pkt : IBCPacket}
    (decoded : pkt = ⟨.ofInt z, unescape p1, unescape p2, ⟨unescape p3⟩, ⟨unescape p4⟩, ⟨unescape p5⟩,
      ⟨unescape p6⟩, n, unescape p8⟩) :
    (pkt.type = .data ∨ pkt.type = .ack) ∧ serializeIBCPacket pkt = s ↔ canonical s = true := by
  have spelled : canonical s = true ↔ (p0 = lit "0" ∨ p0 = lit "1") ∧
      (plainDecimal p7 = true ∧ digitsValue p7 < 2 ^ 64) ∧
        spare p1 = true ∧ spare p2 = true ∧ spare p3 = true ∧ spare p4 = true ∧ spare p5 = true ∧
          spare p6 = true ∧ spare p8 = true := by
    unfold canonical
    rw [parts]
    simp only [Bool.and_eq_true, Bool.or_eq_true, decide_eq_true_eq, List.all_cons, List.all_nil, and_assoc,
      and_true]
  subst decoded
  rw [spelled, serialize_eq_iff, parts]
  simp only [packetFields, IBCPacketType.toInt_ofInt, ofInt_named_iff, List.cons.injEq, and_true,
    escape_unescape_iff, sequence_field_iff sequence]
  rw [← type_field_iff type]
  tauto

/-- The decoder as one that takes the encoder's texts for the two types and no others. -/
def Strict (s : Bytes) : Prop :=
  (∃ w, deserializeIBCPacket s = .error (.runtimeError w)) ∨
    ∃ pkt, deserializeIBCPacket s = .ok pkt ∧ (pkt.type = .data ∨ pkt.type = .ack) ∧ serializeIBCPacket pkt = s

theorem lenient_packet : ¬ ∀ s, Strict s := by
  intro strict
  have decoded : deserializeIBCPacket (lit "+0|A|B|p|c|q|d|01|\\x\\") =
      .ok ⟨.data, lit "A", lit "B", ⟨lit "p"⟩, ⟨lit "c"⟩, ⟨lit "q"⟩, ⟨lit "d"⟩, 1, lit "x"⟩ := by
    decide +kernel
  rcases strict (lit "+0|A|B|p|c|q|d|01|\\x\\") with ⟨w, refused⟩ | ⟨pkt, accepted, -, same⟩
  · rw [decoded] at refused
    cases refused
  · rw [decoded] at accepted
    cases accepted
    exact absurd same (by decide +kernel)

/-- Every text is refused with the one exception or decoded to a packet that its own text gives back.
    Of the texts of packets of the two types it accepts each one, and returns it only for these. -/
theorem packet_decoder_normalizes (s : Bytes) :
    ((readable s = false ∧ ∃ w, deserializeIBCPacket s = .error (.runtimeError w)) ∨
      (readable s = true ∧ ∃ pkt, deserializeIBCPacket s = .ok pkt ∧
        deserializeIBCPacket (serializeIBCPacket pkt) = .ok pkt ∧
        ((pkt.type = .data ∨ pkt.type = .ack) ∧ serializeIBCPacket pkt = s ↔ canonical s = true))) ∧
    (canonical s = true ↔ ∃ pkt : IBCPacket, (pkt.type = .data ∨ pkt.type = .ack) ∧ serializeIBCPacket pkt = s) := by
  rcases deserialize_cases s with
    ⟨accepted, p0, p1, p2, p3, p4, p5, p6, p7, p8, z, n, parts, type, sequence⟩ | ⟨refused, w, error⟩
  · have decoded := deserialize_readable parts type sequence
    have written := named_and_rewritten_iff parts type sequence rfl
    have bounds := stoi_bounds type
    refine ⟨.inr ⟨accepted, _, decoded, ?_, written⟩, ?_⟩
    · apply deserialize_serialize
      simpa only [IBCPacketType.toInt_ofInt] using stoi_intText bounds.1 bounds.2
    · constructor
      · intro spelled
        exact ⟨_, written.mpr spelled⟩
      · rintro ⟨pkt, named, rfl⟩
        rw [deserialize_serialize pkt (stoi_type named)] at decoded
        cases decoded
        exact written.mp ⟨named, rfl⟩
  · refine ⟨.inl ⟨refused, w, error⟩, ?_⟩
    constructor
    · intro spelled
      rw [readable_of_canonical spelled] at refused
      cases refused
    · rintro ⟨pkt, named, rfl⟩
      rw [deserialize_serialize pkt (stoi_type named)] at error
      cases error

end InterchainCommunication.PacketStrictness
