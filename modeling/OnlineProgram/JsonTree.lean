import Mathlib.Data.List.Forall2
import Mathlib.Data.Rat.Defs
import OnlineProgram.NetworkLayer

/-!
# Trees of JSON values

What a `cJSON` tree stands for.  Names and strings are bytes here, because cJSON
copies them without looking at their encoding.
-/

namespace OnlineProgram

open ByteStrings

inductive JsonValue where
  | null
  | bool (value : Bool)
  | number (value : ℚ)
  | string (text : Bytes)
  | array (elements : List JsonValue)
  | object (members : List (Bytes × JsonValue))

/-- A node stands for a value.  An integer of C appears in `valueint`; nothing
is said of `valueint` at other values, as cJSON sets it to one for `true` and
leaves zero elsewhere. -/
inductive Represents : CJson → JsonValue → Prop
  | null {item : CJson} (noString : item.valuestring = none) (leaf : item.child = []) :
      Represents item .null
  | bool {item : CJson} (value : Bool) (noString : item.valuestring = none)
      (leaf : item.child = []) : Represents item (.bool value)
  | number {item : CJson} {value : ℚ} (noString : item.valuestring = none)
      (leaf : item.child = [])
      (rounds : ∀ integer : Int, value = integer → -2 ^ 31 ≤ integer → integer < 2 ^ 31 →
        item.valueint = integer) : Represents item (.number value)
  | string {item : CJson} {text : Bytes} (string : item.valuestring = some text)
      (nonzero : (0 : UInt8) ∉ text) (leaf : item.child = []) : Represents item (.string text)
  | array {item : CJson} {elements : List JsonValue} (noString : item.valuestring = none)
      (unnamed : ∀ element ∈ item.child, element.string = none)
      (children : List.Forall₂ Represents item.child elements) :
      Represents item (.array elements)
  | object {item : CJson} {members : List (Bytes × JsonValue)}
      (noString : item.valuestring = none)
      (names : item.child.map CJson.string = members.map fun entry => some entry.1)
      (children : List.Forall₂ Represents item.child (members.map Prod.snd)) :
      Represents item (.object members)

/-- The first member whose name agrees up to case. -/
def JsonValue.member : JsonValue → Bytes → Option JsonValue
  | .object members, name =>
      (members.find? fun entry => entry.1.map tolower = name.map tolower).map Prod.snd
  | _, _ => none

/-- The value that a path of names leads to. -/
def JsonValue.valueAt : JsonValue → List Bytes → Option JsonValue
  | value, [] => some value
  | value, name :: names => (value.member name).bind fun found => found.valueAt names

/-- The node that a path of names leads to. -/
def CJson.itemAt : CJson → List Bytes → Option CJson
  | item, [] => some item
  | item, name :: names => (cjsonGetObjectItem item name).bind fun found => found.itemAt names

theorem find_members {items : List CJson} {members : List (Bytes × JsonValue)} (name : Bytes)
    (names : items.map CJson.string = members.map fun entry => some entry.1)
    (children : List.Forall₂ Represents items (members.map Prod.snd)) :
    Option.Rel Represents
      (items.find? fun item => item.string.any fun other => other.map tolower = name.map tolower)
      ((members.find? fun entry => entry.1.map tolower = name.map tolower).map Prod.snd) := by
  induction members generalizing items with
  | nil =>
      obtain rfl : items = [] := by simpa using names
      exact .none
  | cons entry members ih =>
      cases items with
      | nil => simp at names
      | cons item items =>
          obtain ⟨named, names⟩ := List.cons.inj names
          obtain ⟨child, children⟩ := List.forall₂_cons.mp children
          rw [List.find?_cons, List.find?_cons, named]
          by_cases same : entry.1.map tolower = name.map tolower
          · simp only [Option.any_some, same, decide_true, Option.map_some]
            exact .some child
          · simp only [Option.any_some, same, decide_false]
            exact ih names children

theorem Represents.no_member {item : CJson} (name : Bytes)
    (unnamed : ∀ child ∈ item.child, child.string = none) :
    cjsonGetObjectItem item name = none := by
  apply List.find?_eq_none.mpr
  intro child member
  simp [unnamed child member]

/-- The tree has the members of the value. -/
theorem Represents.member {item : CJson} {value : JsonValue} (represents : Represents item value)
    (name : Bytes) :
    Option.Rel Represents (cjsonGetObjectItem item name) (value.member name) := by
  have none_of_leaf (leaf : item.child = []) : cjsonGetObjectItem item name = none :=
    no_member name (by simp [leaf])
  cases represents with
  | null _ leaf =>
      rw [none_of_leaf leaf]
      exact .none
  | bool _ _ leaf =>
      rw [none_of_leaf leaf]
      exact .none
  | number _ leaf _ =>
      rw [none_of_leaf leaf]
      exact .none
  | string _ _ leaf =>
      rw [none_of_leaf leaf]
      exact .none
  | array _ unnamed _ =>
      rw [no_member name unnamed]
      exact .none
  | object _ names children => exact find_members name names children

theorem Represents.valueAt {item : CJson} {value : JsonValue} (represents : Represents item value)
    (path : List Bytes) : Option.Rel Represents (item.itemAt path) (value.valueAt path) := by
  induction path generalizing item value with
  | nil => exact .some represents
  | cons name path ih =>
      have first := represents.member name
      unfold CJson.itemAt JsonValue.valueAt
      generalize cjsonGetObjectItem item name = found, value.member name = foundValue at first
      cases first with
      | some found => exact ih found
      | none => exact .none

end OnlineProgram
