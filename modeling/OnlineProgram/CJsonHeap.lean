import OnlineProgram.ParserSafety
import OnlineProgram.ScanningRuns
import OnlineProgram.SystemCalls

/-!
# The parser and the heap

The parser of `cJSON.cpp` once more, with every request for memory on the way.
It works on items that exist already, so where it gives up, what it has made
hangs on the root and is deleted from there.  Whatever requests are refused, the
parser ends as it does when none is, or gives up with nothing left behind.
-/

namespace OnlineProgram

open ByteStrings CMemory ResourceRuns CJsonParser

/-- `sizeof(cJSON)` on the target. -/
def sizeofCJson : Nat := 40

namespace CJsonHeap

variable {D : Type} [DoubleArithmetic D] {τ : Type}

/-! ### The parser -/

section Parser

variable (heap : Heap)

/-- `cJSON_New_Item` -/
def allocateItem : Run Fault τ (Option (CJsonItem D)) := do
  match ← malloc heap sizeofCJson with
  | none => pure none
  | some _ => pure (some newItem)

/-- `parse_string`: the block belongs to the item before anything is in it. -/
def parseString (item : CJsonItem D) (str : Bytes) : Run Fault τ (CJsonItem D × Option Bytes) :=
  tryScan (peek str) (item, none) fun byte =>
    if byte ≠ quote then pure (item, none)
    else
      tryScan (stringEnd (str.drop 1)) (item, none) fun (distance, len) => do
        match ← malloc heap (len + 1) with
        | none => pure (item, none)
        | some _ =>
            let item := { item with valuestring := some [], type := .string }
            tryScan (copyString (len + 1) (distance + 1) distance (str.drop 1) []) (item, none)
              fun (out, ptr) => tryScan (put (len + 1) out [0]) (item, none) fun out =>
                tryScan (peek ptr) (item, none) fun byte =>
                  pure ({ item with valuestring := some (blockString out) },
                    some (if byte = quote then ptr.drop 1 else ptr))

section Chains

variable (parseItem : CJsonItem D → Bytes → Run Fault τ (CJsonItem D × Option Bytes))
  (closing : UInt8)

def parseChain : Nat → Bytes → Run Fault τ (List (CJsonItem D) × Option Bytes)
  | 0, _ => attempt (.error .outOfBounds)
  | steps + 1, value => do
      match ← allocateItem heap with
      | none => pure ([], none)
      | some child =>
          tryScan (skip value) ([child], none) fun value =>
            unlessNull (parseItem child value) (fun child => [child]) fun child value =>
              tryScan (skip value) ([child], none) fun value =>
                tryScan (peek value) ([child], none) fun byte =>
                  if byte = 44 then
                    unlessNull (parseChain steps (value.drop 1)) (fun others => child :: others)
                      fun others value => pure (child :: others, some value)
                  else if byte = closing then pure ([child], some (value.drop 1))
                  else pure ([child], none)

def parseChildren (value : Bytes) : Run Fault τ (List (CJsonItem D) × Option Bytes) :=
  tryScan (skip value) ([], none) fun value =>
    tryScan (peek value) ([], none) fun byte =>
      if byte = closing then pure ([], some (value.drop 1))
      else parseChain heap parseItem closing (value.length + 1) value

end Chains

def parseMember (parseValue : CJsonItem D → Bytes → Run Fault τ (CJsonItem D × Option Bytes))
    (child : CJsonItem D) (value : Bytes) : Run Fault τ (CJsonItem D × Option Bytes) :=
  unlessNull (parseString heap child value) (fun child => child) fun child value =>
    tryScan (skip value) (child, none) fun value =>
      let child := { child with string := child.valuestring, valuestring := none }
      tryScan (peek value) (child, none) fun byte =>
        if byte = 58 then
          tryScan (skip (value.drop 1)) (child, none) fun value => parseValue child value
        else pure (child, none)

/-- `parse_value` -/
def parseValue : Nat → CJsonItem D → Bytes → Run Fault τ (CJsonItem D × Option Bytes)
  | 0, _, _ => attempt (.error .outOfBounds)
  | steps + 1, item, value =>
      tryScan (startsWith value (ascii "null")) (item, none) fun isNull =>
        if isNull then pure ({ item with type := .null }, some (value.drop 4))
        else tryScan (startsWith value (ascii "false")) (item, none) fun isFalse =>
          if isFalse then pure ({ item with type := .false }, some (value.drop 5))
          else tryScan (startsWith value (ascii "true")) (item, none) fun isTrue =>
            if isTrue then
              pure ({ item with type := .true, valueint := 1 }, some (value.drop 4))
            else tryScan (peek value) (item, none) fun byte =>
              if byte = quote then parseString heap item value
              else if byte = 45 ∨ isDigit byte then
                tryScan (parseNumber value) (item, none) fun (n, value) =>
                  pure ({ item with
                    type := .number
                    valueint := DoubleArithmetic.toInt n
                    valuedouble := n }, some value)
              else if byte = 91 then
                let item := { item with type := .array }
                unlessNull (parseChildren heap (parseValue steps) 93 (value.drop 1))
                  (fun child => { item with child })
                  fun child value => pure ({ item with child }, some value)
              else if byte = 123 then
                let item := { item with type := .object }
                unlessNull
                  (parseChildren heap (parseMember heap (parseValue steps)) 125 (value.drop 1))
                  (fun child => { item with child })
                  fun child value => pure ({ item with child }, some value)
              else pure (item, none)

end Parser

/-! ### Deleting a tree -/

/-- Free what a field points to, if it does. -/
def freeField : Option Bytes → Run Fault τ Unit
  | none => pure ()
  | some _ => free

mutual

/-- `cJSON_Delete` of an item and what hangs on it. -/
def deleteItem : CJsonItem D → Run Fault τ Unit
  | ⟨child, _, valuestring, _, _, string⟩ => do
      deleteItems child
      freeField valuestring
      freeField string
      free

/-- `cJSON_Delete` of a chain. -/
def deleteItems : List (CJsonItem D) → Run Fault τ Unit
  | [] => pure ()
  | item :: items => do
      deleteItem item
      deleteItems items

end

/-- `cJSON_Parse` -/
def parse (heap : Heap) (memory : Bytes) : Run Fault τ (Option (CJsonItem D)) := do
  match ← allocateItem heap with
  | none => pure none
  | some c =>
      let (c, value) ← tryScan (skip memory) (c, none) fun value =>
        parseValue heap (value.length + 1) c value
      match value with
      | none => do
          deleteItem c
          pure none
      | some _ => pure (some c)

end CJsonHeap

end OnlineProgram
