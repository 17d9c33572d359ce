import Mathlib.Algebra.Field.Rat
import Mathlib.Data.List.TakeWhile
import OnlineProgram.JsonText
import OnlineProgram.JsonTree

/-!
# What JSON texts mean

The value of a JSON text, with strings as UTF-8 and numbers as rationals.
-/

namespace OnlineProgram.JsonText

open Utf8Text

/-! ### Numbers -/

/-- The parts of a number: its sign, the digits before and behind the point, and
the sign and the digits of its exponent. -/
structure Numeral where
  minus : Bool
  whole : List Char
  part : List Char
  powerMinus : Bool
  power : List Char

def Numeral.value (numeral : Numeral) : ℚ :=
  let size : ℚ := Nat.ofDigitChars 10 (numeral.whole ++ numeral.part) 0
  let power : Int := Nat.ofDigitChars 10 numeral.power 0
  (if numeral.minus then -size else size) *
    10 ^ ((if numeral.powerMinus then -power else power) - numeral.part.length)

/-- The parts of a number behind its sign and its integer. -/
def fractionOf : List Char → List Char × List Char
  | [] => ([], [])
  | char :: rest =>
      if char = '.' then (rest.takeWhile Char.isDigit, rest.dropWhile Char.isDigit)
      else ([], char :: rest)

def numeral (digits : List Char) : Numeral :=
  let signed := sign ['-'] digits
  let fraction := fractionOf (signed.2.dropWhile Char.isDigit)
  let power := sign ['+', '-'] (fraction.2.drop 1)
  { minus := signed.1 = ['-']
    whole := signed.2.takeWhile Char.isDigit
    part := fraction.1
    powerMinus := power.1 = ['-']
    power := power.2 }

/-- Digits with at most a sign before them. -/
def IsWhole (digits : List Char) : Prop :=
  (sign ['-'] digits).2.all Char.isDigit

instance : DecidablePred IsWhole :=
  fun _ => inferInstanceAs (Decidable (_ = true))

theorem numeral_value_of_isWhole {digits : List Char} (whole : IsWhole digits) :
    (numeral digits).value =
      (if (sign ['-'] digits).1 = ['-'] then -1 else 1 : Int) *
        (Nat.ofDigitChars 10 (sign ['-'] digits).2 0 : Int) := by
  have all : ∀ char ∈ (sign ['-'] digits).2, char.isDigit = true := List.all_eq_true.mp whole
  have nothing : (sign ['-'] digits).2.dropWhile Char.isDigit = [] :=
    List.dropWhile_eq_nil_iff.mpr all
  have same : (sign ['-'] digits).2.takeWhile Char.isDigit = (sign ['-'] digits).2 :=
    List.takeWhile_eq_self_iff.mpr all
  unfold numeral Numeral.value
  simp only [nothing, same]
  by_cases minus : (sign ['-'] digits).1 = ['-']
  · simp [fractionOf, sign]
  · simp [fractionOf, sign]

/-- Digits without a sign. -/
theorem numeral_value_of_digits {digits : List Char} (first : digits.head? ≠ some '-')
    (all : digits.all Char.isDigit) :
    (numeral digits).value = ((Nat.ofDigitChars 10 digits 0 : Int) : ℚ) := by
  have unsigned : sign ['-'] digits = ([], digits) := by
    cases digits with
    | nil => rfl
    | cons char digits =>
        have other : char ≠ '-' := by simpa using first
        simp [sign, other]
  have whole : IsWhole digits := by
    rw [IsWhole, unsigned]
    exact all
  rw [numeral_value_of_isWhole whole, unsigned]
  simp

/-! ### Values -/

mutual

def Json.toValue : Json → JsonValue
  | .null => .null
  | .bool value => .bool value
  | .number digits => .number (numeral digits).value
  | .string text => .string (encode text)
  | .array items => .array (Json.toValues items)
  | .object members => .object (Json.toMembers members)

def Json.toValues : List Json → List JsonValue
  | [] => []
  | item :: items => item.toValue :: Json.toValues items

def Json.toMembers : List (List Char × Json) → List (Bytes × JsonValue)
  | [] => []
  | (name, item) :: members => (encode name, item.toValue) :: Json.toMembers members

end

/-- A value without a zero character in its texts, whose integers of 32 bits are
written without a point and an exponent.  How other numbers are written does not
matter. -/
inductive Ordinary : Json → Prop
  | null : Ordinary .null
  | bool (value : Bool) : Ordinary (.bool value)
  | number {digits : List Char} (whole : ∀ integer : Int, (numeral digits).value = integer →
      -2 ^ 31 ≤ integer → integer < 2 ^ 31 → IsWhole digits) : Ordinary (.number digits)
  | string {text : List Char} (nonzero : '\x00' ∉ text) : Ordinary (.string text)
  | array {items : List Json} (ordinary : ∀ item ∈ items, Ordinary item) :
      Ordinary (.array items)
  | object {members : List (List Char × Json)} (names : ∀ entry ∈ members, '\x00' ∉ entry.1)
      (ordinary : ∀ entry ∈ members, Ordinary entry.2) : Ordinary (.object members)

end OnlineProgram.JsonText
