import OnlineProgram.CMemory
import OnlineProgram.FallibleScans
import OnlineProgram.NetworkLayer

/-!
# The JSON parser

The parser of `cJSON.cpp` on a text in memory, where every request for memory is
granted.  A pointer into the text is what stands in memory from there on, so
reading at the end of that is a fault.  The arithmetic of `double` is a
parameter, and the place of an error is left out, because the program never asks
for it.
-/

namespace OnlineProgram

open ByteStrings CMemory

/-- The operations on `double` that `parse_number` makes; `pow10` is `pow` for
the base ten, and `toInt` the conversion to `int`. -/
class DoubleArithmetic (D : Type) where
  ofInt : Int → D
  add : D → D → D
  mul : D → D → D
  pow10 : Int → D
  toInt : D → Int

/-- The types of an item.  A new item has none. -/
inductive CJsonType where
  | unset
  | false
  | true
  | null
  | number
  | string
  | array
  | object
deriving DecidableEq, Repr

/-- A `cJSON` item, with its chain of children as a list. -/
structure CJsonItem (D : Type) where
  child : List (CJsonItem D)
  type : CJsonType
  valuestring : Option Bytes
  valueint : Int
  valuedouble : D
  string : Option Bytes

mutual

/-- What the program reads of an item. -/
def CJsonItem.toCJson {D : Type} : CJsonItem D → CJson
  | ⟨child, _, valuestring, valueint, _, string⟩ =>
      { string, valueint, valuestring, child := CJsonItem.toCJsons child }

def CJsonItem.toCJsons {D : Type} : List (CJsonItem D) → List CJson
  | [] => []
  | item :: items => item.toCJson :: CJsonItem.toCJsons items

end

namespace CJsonParser

/-! ### Characters -/

def quote : UInt8 := 34

def backslash : UInt8 := 92

def isDigit (byte : UInt8) : Prop :=
  48 ≤ byte ∧ byte ≤ 57

instance : DecidablePred isDigit :=
  fun _ => inferInstanceAs (Decidable (_ ∧ _))

/-- `*ptr` -/
def peek (ptr : Bytes) : Scan Fault UInt8 :=
  .access (loadByte ptr 0)

/-- `skip` -/
def skip : Bytes → Scan Fault Bytes
  | [] => .fault .outOfBounds
  | byte :: rest => if byte ≠ 0 ∧ byte ≤ 32 then skip rest else pure (byte :: rest)

/-- Whether `strncmp` finds the literal. -/
def startsWith : Bytes → Bytes → Scan Fault Bool
  | _, [] => pure true
  | [], _ :: _ => .fault .outOfBounds
  | byte :: rest, first :: literal =>
      if byte = first then startsWith rest literal else pure false

/-! ### Strings -/

def hexValue (byte : UInt8) : Option Nat :=
  if 48 ≤ byte ∧ byte ≤ 57 then some (byte.toNat - 48)
  else if 65 ≤ byte ∧ byte ≤ 70 then some (10 + byte.toNat - 65)
  else if 97 ≤ byte ∧ byte ≤ 102 then some (10 + byte.toNat - 97)
  else none

/-- The digits that are left of `parse_hex4`. -/
def hexDigits : Nat → Nat → Bytes → Scan Fault Nat
  | 0, h, _ => pure h
  | _ + 1, _, [] => .fault .outOfBounds
  | count + 1, h, byte :: rest =>
      match hexValue byte with
      | some digit => hexDigits count (h * 16 + digit) rest
      | none => pure 0

/-- `parse_hex4` -/
def parseHex4 (str : Bytes) : Scan Fault Nat :=
  hexDigits 4 0 str

def firstByteMark : List Nat :=
  [0x00, 0x00, 0xC0, 0xE0, 0xF0, 0xF8, 0xFC]

/-- The cases of the switch over `len`, which fall through from the last byte to
the first. -/
def transcode (mark : Nat) : Nat → Nat → Bytes → Bytes
  | 0, uc, behind => (uc ||| mark).toUInt8 :: behind
  | more + 1, uc, behind =>
      transcode mark more (uc >>> 6) (((uc ||| 0x80) &&& 0xBF).toUInt8 :: behind)

/-- The length of the code of a character in UTF-8. -/
def utf8Length (uc : Nat) : Nat :=
  if uc < 0x80 then 1 else if uc < 0x800 then 2 else if uc < 0x10000 then 3 else 4

def utf8Bytes (uc : Nat) : Bytes :=
  transcode (firstByteMark.getD (utf8Length uc) 0) (utf8Length uc - 1) uc []

/-- The loop that looks for the end of a string: how far `end_ptr` goes, and
`len`.  The byte behind a backslash is skipped, whatever it is. -/
def stringEnd : Bytes → Scan Fault (Nat × Nat)
  | [] => .fault .outOfBounds
  | byte :: rest =>
      if byte = quote ∨ byte = 0 then pure (0, 0)
      else if byte = backslash then
        match rest with
        | [] => .fault .outOfBounds
        | _ :: rest => do
            let (distance, len) ← stringEnd rest
            pure (distance + 2, len + 1)
      else do
        let (distance, len) ← stringEnd rest
        pure (distance + 1, len + 1)

/-- Write behind what has been written to a block of `capacity` bytes. -/
def put (capacity : Nat) (out bytes : Bytes) : Scan Fault Bytes :=
  if out.length + bytes.length ≤ capacity then pure (out ++ bytes)
  else .fault .bufferOverflow

/-- The character behind a backslash, other than `u`. -/
def escaped (code : UInt8) : UInt8 :=
  if code = 98 then 8
  else if code = 102 then 12
  else if code = 110 then 10
  else if code = 114 then 13
  else if code = 116 then 9
  else code

/-- The case `u`, where the end of the string is `left` bytes from the `u`: the
code of the character, and how many bytes behind the `u` are taken. -/
def unicodeEscape (digits : Bytes) (left : Nat) : Scan Fault (Nat × Nat) := do
  let uc ← parseHex4 digits
  if left ≤ 4 then .reject
  else if 0xDC00 ≤ uc ∧ uc ≤ 0xDFFF ∨ uc = 0 then .reject
  else if 0xD800 ≤ uc ∧ uc ≤ 0xDBFF then
    if left - 4 < 6 then .reject
    else do
      let isPair ← startsWith (digits.drop 4) [backslash, 117]
      if isPair then do
        let uc2 ← parseHex4 (digits.drop 6)
        if uc2 < 0xDC00 ∨ 0xDFFF < uc2 then .reject
        else pure (0x10000 + (((uc &&& 0x3FF) <<< 10) ||| (uc2 &&& 0x3FF)), 10)
      else .reject
  else pure (uc, 4)

/-- The loop that copies a string, with `end_ptr` at `left` bytes from `ptr`:
what is in the block, and where `ptr` stops.  Every character takes a step. -/
def copyString (capacity : Nat) : Nat → Nat → Bytes → Bytes → Scan Fault (Bytes × Bytes)
  | 0, _, _, _ => .fault .outOfBounds
  | steps + 1, left, ptr, out =>
      if left = 0 then pure (out, ptr)
      else
        match ptr with
        | [] => .fault .outOfBounds
        | byte :: ptr =>
            if byte ≠ backslash then do
              let out ← put capacity out [byte]
              copyString capacity steps (left - 1) ptr out
            else
              match ptr with
              | [] => .fault .outOfBounds
              | code :: ptr =>
                  if code = 117 then do
                    let (uc, taken) ← unicodeEscape ptr (left - 1)
                    let out ← put capacity out (utf8Bytes uc)
                    copyString capacity steps (left - 2 - taken) (ptr.drop taken) out
                  else do
                    let out ← put capacity out [escaped code]
                    copyString capacity steps (left - 2) ptr out

/-- The string in a block. -/
def blockString (out : Bytes) : Bytes :=
  out.takeWhile (· ≠ 0)

/-- `parse_string` -/
def parseString : Bytes → Scan Fault (Bytes × Bytes)
  | [] => .fault .outOfBounds
  | byte :: str =>
      if byte ≠ quote then .reject
      else do
        let (distance, len) ← stringEnd str
        let (out, ptr) ← copyString (len + 1) (distance + 1) distance str []
        let out ← put (len + 1) out [0]
        let byte ← peek ptr
        pure (blockString out, if byte = quote then ptr.drop 1 else ptr)

/-! ### Numbers -/

section Numbers

variable {D : Type} [DoubleArithmetic D]

open DoubleArithmetic

/-- Digits read into `n`, and their number. -/
def numberDigits : D → Bytes → Scan Fault (D × Nat × Bytes)
  | _, [] => .fault .outOfBounds
  | n, byte :: num =>
      if isDigit byte then do
        let (n, count, num) ← numberDigits (add (mul n (ofInt 10)) (ofInt (byte.toNat - 48))) num
        pure (n, count + 1, num)
      else pure (n, 0, byte :: num)

/-- The digits of an exponent, in an `int` that wraps around. -/
def exponentDigits : Int → Bytes → Scan Fault (Int × Bytes)
  | _, [] => .fault .outOfBounds
  | subscale, byte :: num =>
      if isDigit byte then
        exponentDigits ((subscale * 10 + (byte.toNat - 48)).bmod (2 ^ 32)) num
      else pure (subscale, byte :: num)

/-- A fractional part, if there is one; `scale` goes down by its digits. -/
def numberFraction (n : D) (num : Bytes) : Scan Fault (D × Int × Bytes) := do
  let byte ← peek num
  if byte = 46 then do
    let first ← peek (num.drop 1)
    if isDigit first then do
      let (n, count, num) ← numberDigits n (num.drop 1)
      pure (n, -count, num)
    else pure (n, 0, num)
  else pure (n, 0, num)

/-- An exponent, if there is one. -/
def numberExponent (num : Bytes) : Scan Fault (Int × Bytes) := do
  let byte ← peek num
  if byte = 101 ∨ byte = 69 then do
    let num := num.drop 1
    let sign ← peek num
    if sign = 43 then exponentDigits 0 (num.drop 1)
    else if sign = 45 then do
      let (subscale, num) ← exponentDigits 0 (num.drop 1)
      pure (-subscale, num)
    else exponentDigits 0 num
  else pure (0, num)

/-- The digits before a point, which do not begin with a zero. -/
def numberInteger (num : Bytes) : Scan Fault (D × Bytes) := do
  let first ← peek num
  if 49 ≤ first ∧ first ≤ 57 then do
    let (n, _, num) ← numberDigits (ofInt 0) num
    pure (n, num)
  else pure (ofInt 0, num)

/-- A number behind its sign and a leading zero. -/
def scaledNumber (sign : Int) (num : Bytes) : Scan Fault (D × Bytes) := do
  let (n, num) ← numberInteger num
  let (n, scale, num) ← numberFraction n num
  let (subscale, num) ← numberExponent num
  pure (mul (mul (ofInt sign) n) (pow10 (scale + subscale)), num)

/-- `parse_number` -/
def parseNumber (num : Bytes) : Scan Fault (D × Bytes) := do
  let sign ← peek num
  let num := if sign = 45 then num.drop 1 else num
  let zero ← peek num
  scaledNumber (if sign = 45 then -1 else 1) (if zero = 48 then num.drop 1 else num)

end Numbers

/-! ### Values -/

section Chains

variable {α : Type} (item : Bytes → Scan Fault (α × Bytes)) (closing : UInt8)

/-- A chain of children with commas between them, and the closing bracket.
Every child takes a step. -/
def parseChain : Nat → Bytes → Scan Fault (List α × Bytes)
  | 0, _ => .fault .outOfBounds
  | steps + 1, value => do
      let value ← skip value
      let (child, value) ← item value
      let value ← skip value
      let byte ← peek value
      if byte = 44 then do
        let (others, value) ← parseChain steps (value.drop 1)
        pure (child :: others, value)
      else if byte = closing then pure ([child], value.drop 1)
      else .reject

/-- What stands behind the opening bracket. -/
def parseChildren (value : Bytes) : Scan Fault (List α × Bytes) := do
  let value ← skip value
  let byte ← peek value
  if byte = closing then pure ([], value.drop 1)
  else parseChain item closing (value.length + 1) value

end Chains

section Values

variable {D : Type} [DoubleArithmetic D]

open DoubleArithmetic

/-- `cJSON_New_Item` -/
def newItem : CJsonItem D :=
  { child := []
    type := .unset
    valuestring := none
    valueint := 0
    valuedouble := ofInt 0
    string := none }

def nullItem : CJsonItem D :=
  { newItem with type := .null }

def falseItem : CJsonItem D :=
  { newItem with type := .false }

def trueItem : CJsonItem D :=
  { newItem with type := .true, valueint := 1 }

def numberItem (n : D) : CJsonItem D :=
  { newItem with type := .number, valueint := toInt n, valuedouble := n }

def stringItem (text : Bytes) : CJsonItem D :=
  { newItem with type := .string, valuestring := some text }

def arrayItem (child : List (CJsonItem D)) : CJsonItem D :=
  { newItem with type := .array, child }

def objectItem (child : List (CJsonItem D)) : CJsonItem D :=
  { newItem with type := .object, child }

/-- A member of an object: its name, and the value behind the colon. -/
def parseMember (parseValue : Bytes → Scan Fault (CJsonItem D × Bytes)) (value : Bytes) :
    Scan Fault (CJsonItem D × Bytes) := do
  let (string, value) ← parseString value
  let value ← skip value
  let byte ← peek value
  if byte = 58 then do
    let value ← skip (value.drop 1)
    let (child, value) ← parseValue value
    pure ({ child with string := some string }, value)
  else .reject

/-- `parse_array`, behind its opening bracket. -/
def parseArray (parseValue : Bytes → Scan Fault (CJsonItem D × Bytes)) (value : Bytes) :
    Scan Fault (CJsonItem D × Bytes) := do
  let (child, value) ← parseChildren parseValue 93 value
  pure (arrayItem child, value)

/-- `parse_object`, behind its opening bracket. -/
def parseObject (parseValue : Bytes → Scan Fault (CJsonItem D × Bytes)) (value : Bytes) :
    Scan Fault (CJsonItem D × Bytes) := do
  let (child, value) ← parseChildren (parseMember parseValue) 125 value
  pure (objectItem child, value)

/-- `parse_value`.  Every level of a tree takes a step. -/
def parseValue : Nat → Bytes → Scan Fault (CJsonItem D × Bytes)
  | 0, _ => .fault .outOfBounds
  | steps + 1, value => do
      let isNull ← startsWith value (ascii "null")
      if isNull then pure (nullItem, value.drop 4)
      else do
        let isFalse ← startsWith value (ascii "false")
        if isFalse then pure (falseItem, value.drop 5)
        else do
          let isTrue ← startsWith value (ascii "true")
          if isTrue then pure (trueItem, value.drop 4)
          else do
            let byte ← peek value
            if byte = quote then do
              let (text, value) ← parseString value
              pure (stringItem text, value)
            else if byte = 45 ∨ isDigit byte then do
              let (n, value) ← parseNumber value
              pure (numberItem n, value)
            else if byte = 91 then parseArray (parseValue steps) (value.drop 1)
            else if byte = 123 then parseObject (parseValue steps) (value.drop 1)
            else .reject

end Values

end CJsonParser

open CJsonParser in
/-- `cJSON_Parse`, on what stands in memory from the text on. -/
def cJsonParse (D : Type) [DoubleArithmetic D] (memory : Bytes) :
    Except Fault (Option (CJsonItem D)) :=
  OptionT.run do
    let value ← skip memory
    let (item, _) ← parseValue (D := D) (value.length + 1) value
    pure item

end OnlineProgram
