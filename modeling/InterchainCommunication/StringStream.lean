import InterchainCommunication.StringText

set_option autoImplicit false

namespace InterchainCommunication.StringStream
open StringText

structure OStringStream where
  str : Bytes
  hex : Bool
  width : ℕ
  fill : UInt8

namespace OStringStream

def new : OStringStream := ⟨[], false, 0, 32⟩

/-- What a string or a character inserter does, and a number inserter with its digits. -/
def put (ss : OStringStream) (field : Bytes) : OStringStream :=
  { ss with str := ss.str ++ List.replicate (ss.width - field.length) ss.fill ++ field, width := 0 }

def hexText (n : ℕ) : Bytes := (Nat.toDigits 16 n).map Char.toUInt8

/-- An `int` is printed in base sixteen as the unsigned value of its 32 bits. -/
def putInt (ss : OStringStream) (z : ℤ) : OStringStream :=
  ss.put (if ss.hex then hexText (z % 2 ^ 32).toNat else intText z)

def putUInt64 (ss : OStringStream) (n : UInt64) : OStringStream :=
  ss.put (if ss.hex then hexText n.toNat else decimal n.toNat)

def setHex (ss : OStringStream) : OStringStream := { ss with hex := true }
def setDec (ss : OStringStream) : OStringStream := { ss with hex := false }
def setw (ss : OStringStream) (n : ℕ) : OStringStream := { ss with width := n }
def setfill (ss : OStringStream) (c : UInt8) : OStringStream := { ss with fill := c }

def written (text : Bytes) : OStringStream := ⟨text, false, 0, 32⟩

@[simp] theorem new_eq_written : new = written [] := rfl

@[simp] theorem str_written (text : Bytes) : (written text).str = text := rfl

@[simp] theorem put_written (text field : Bytes) : (written text).put field = written (text ++ field) := by
  simp [written, put]

@[simp] theorem putInt_written (text : Bytes) (z : ℤ) :
    (written text).putInt z = written (text ++ intText z) :=
  put_written text (intText z)

@[simp] theorem putUInt64_written (text : Bytes) (n : UInt64) :
    (written text).putUInt64 n = written (text ++ decimal n.toNat) :=
  put_written text (decimal n.toNat)

theorem put_hex_field (text : Bytes) (width n : ℕ) (small : n < 2 ^ 32) :
    ((((((written text).setHex).setw width).setfill 48).putInt n).setDec).setfill 32 =
      written (text ++ List.replicate (width - (hexText n).length) 48 ++ hexText n) := by
  have value : ((n : ℤ) % 2 ^ 32).toNat = n := by omega
  simp only [written, setHex, setw, setfill, putInt, put, setDec, if_true, value]

end OStringStream
end InterchainCommunication.StringStream
