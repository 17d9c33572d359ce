import Mathlib.Data.Nat.Digits.Lemmas

/-!
# Byte strings

C strings are lists of bytes without their terminating zero.  This file has
the pieces of the C library that a formatted message needs: ASCII literals and
the `%d` conversion.
-/

namespace OnlineProgram

/-- The contents of a C string or buffer. -/
abbrev Bytes := List UInt8

namespace ByteStrings

/-- The bytes of an ASCII literal. -/
def ascii (text : String) : Bytes :=
  text.toList.map fun character => character.toNat.toUInt8

/-- The character of one decimal digit. -/
def digitByte (digit : Nat) : UInt8 :=
  (48 + digit).toUInt8

/-- A natural number in decimal without leading zeros. -/
def decimal (number : Nat) : Bytes :=
  if number = 0 then [48]
  else (Nat.digits 10 number).reverse.map digitByte

theorem decimal_length_le {number width : Nat} (positive : 0 < width)
    (small : number < 10 ^ width) : (decimal number).length ≤ width := by
  unfold decimal
  split
  · exact positive
  · simpa using (Nat.digits_length_le_iff (by decide) number).mpr small

/-- The `%d` conversion of a C integer. -/
def formatD : Int → Bytes
  | .ofNat number => decimal number
  | .negSucc number => 45 :: decimal (number + 1)

/-- The `%d` conversion of a C++ `bool`, which is promoted to 0 or 1. -/
def formatBool (flag : Bool) : Bytes :=
  formatD flag.toNat

/-- The `%s` conversion.  A null pointer is undefined behaviour in C, so what
the library of the target platform makes of it is a parameter. -/
def formatS (nullText : Bytes) : Option Bytes → Bytes
  | some text => text
  | none => nullText

/-- A property of bytes can be checked on the 256 values. -/
theorem forall_byte {P : UInt8 → Prop}
    (values : ∀ value : Fin 256, P (UInt8.ofFin value)) (byte : UInt8) : P byte :=
  values byte.toFin

/-- The sum of the values of bytes. -/
def byteSum (bytes : Bytes) : Nat :=
  (bytes.map UInt8.toNat).sum

theorem byteSum_le (bytes : Bytes) : byteSum bytes ≤ 255 * bytes.length := by
  induction bytes with
  | nil => simp [byteSum]
  | cons byte bytes ih =>
      have small := byte.toNat_lt
      simp only [byteSum, List.map_cons, List.sum_cons, List.length_cons] at ih ⊢
      omega

@[simp]
theorem byteSum_cons (byte : UInt8) (bytes : Bytes) :
    byteSum (byte :: bytes) = byte.toNat + byteSum bytes := by
  simp [byteSum]

theorem byteSum_append (first second : Bytes) :
    byteSum (first ++ second) = byteSum first + byteSum second := by
  simp [byteSum]

theorem formatBool_length (flag : Bool) : (formatBool flag).length = 1 := by
  cases flag <;> decide

theorem formatBool_injective : Function.Injective formatBool := by
  intro first second
  cases first <;> cases second <;> decide

end ByteStrings

end OnlineProgram
