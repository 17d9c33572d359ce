import Mathlib.Data.List.TakeWhile
import OnlineProgram.ByteStrings

/-!
# Byte buffers of C

A C object is the list of its bytes, and a pointer into it is an offset.  The
functions below are the accesses of the C library to such objects.  An access
outside the object is a fault, so a computation that returns has stayed inside
every object it was given.
-/

namespace OnlineProgram.CMemory

open ByteStrings

inductive Fault where
  | outOfBounds
  | bufferOverflow
  | nullPointer
deriving DecidableEq, Repr

/-- Read the byte at an offset. -/
def loadByte (memory : Bytes) (position : Nat) : Except Fault UInt8 :=
  match memory[position]? with
  | some byte => .ok byte
  | none => .error .outOfBounds

/-- A buffer with the bytes from an offset replaced. -/
def splice (memory : Bytes) (position : Nat) (bytes : Bytes) : Bytes :=
  memory.take position ++ bytes ++ memory.drop (position + bytes.length)

/-- Write bytes from an offset. -/
def store (memory : Bytes) (position : Nat) (bytes : Bytes) :
    Except Fault Bytes :=
  if position + bytes.length ≤ memory.length then
    .ok (splice memory position bytes)
  else .error .bufferOverflow

theorem loadByte_of_lt {memory : Bytes} {position : Nat} (inside : position < memory.length) :
    ∃ byte, loadByte memory position = .ok byte := by
  refine ⟨memory[position], ?_⟩
  unfold loadByte
  rw [List.getElem?_eq_getElem inside]

theorem loadByte_of_le {memory : Bytes} {position : Nat} (outside : memory.length ≤ position) :
    loadByte memory position = .error .outOfBounds := by
  unfold loadByte
  rw [List.getElem?_eq_none outside]

/-- Reading through a pointer is reading from the start of what it points at. -/
theorem loadByte_add (memory : Bytes) (pointer offset : Nat) :
    loadByte memory (pointer + offset) = loadByte (memory.drop pointer) offset := by
  simp [loadByte]

/-- Four bytes in a row, and the loads that read them. -/
theorem four_bytes {memory : Bytes} {position : Nat} (inside : position + 4 ≤ memory.length) :
    ∃ byte0 byte1 byte2 byte3 rest,
      memory.drop position = byte0 :: byte1 :: byte2 :: byte3 :: rest ∧
        loadByte memory position = .ok byte0 ∧ loadByte memory (position + 1) = .ok byte1 ∧
        loadByte memory (position + 2) = .ok byte2 ∧
        loadByte memory (position + 3) = .ok byte3 := by
  have length : 4 ≤ (memory.drop position).length := by
    rw [List.length_drop]
    omega
  obtain ⟨byte0, byte1, byte2, byte3, rest, pointed⟩ : ∃ byte0 byte1 byte2 byte3 rest,
      memory.drop position = byte0 :: byte1 :: byte2 :: byte3 :: rest := by
    generalize memory.drop position = tail at length ⊢
    rcases tail with _ | ⟨b0, _ | ⟨b1, _ | ⟨b2, _ | ⟨b3, rest⟩⟩⟩⟩
    · simp at length
    · simp at length
    · simp at length
    · simp at length
    · exact ⟨b0, b1, b2, b3, rest, rfl⟩
  have load (offset : Nat) : loadByte memory (position + offset) =
      loadByte (byte0 :: byte1 :: byte2 :: byte3 :: rest) offset := by
    rw [loadByte_add, pointed]
  exact ⟨byte0, byte1, byte2, byte3, rest, pointed, load 0, load 1, load 2, load 3⟩

theorem store_of_le {memory bytes : Bytes} {position : Nat}
    (fits : position + bytes.length ≤ memory.length) :
    store memory position bytes = .ok (splice memory position bytes) := by
  simp [store, fits]

theorem store_of_lt {memory bytes : Bytes} {position : Nat}
    (tooLong : memory.length < position + bytes.length) :
    store memory position bytes = .error .bufferOverflow :=
  if_neg (by omega)

theorem splice_length {memory bytes : Bytes} {position : Nat}
    (fits : position + bytes.length ≤ memory.length) :
    (splice memory position bytes).length = memory.length := by
  simp [splice]
  omega

@[simp]
theorem splice_nil (memory : Bytes) (position : Nat) :
    splice memory position [] = memory := by
  simp [splice]

/-- Two writes side by side are one write. -/
theorem splice_splice {memory first second : Bytes} {position : Nat}
    (fits : position + first.length ≤ memory.length) :
    splice (splice memory position first) (position + first.length) second =
      splice memory position (first ++ second) := by
  have beforeLength : (memory.take position ++ first).length =
      position + first.length := by
    simp
    omega
  unfold splice
  rw [List.take_left' beforeLength, ← List.drop_drop, List.drop_left' beforeLength]
  simp [List.drop_drop, Nat.add_assoc]

/-- Writing on behind what has been written is writing both at once. -/
theorem store_splice {memory first : Bytes} {position : Nat}
    (fits : position + first.length ≤ memory.length) (second : Bytes) :
    store (splice memory position first) (position + first.length) second =
      store memory position (first ++ second) := by
  unfold store
  rw [splice_length fits, List.length_append, ← Nat.add_assoc]
  split
  · rw [splice_splice fits]
  · rfl

/-- What a buffer holds after a write, byte by byte. -/
theorem splice_getElem? {memory bytes : Bytes} {position : Nat} (index : Nat)
    (fits : position + bytes.length ≤ memory.length) :
    (splice memory position bytes)[index]? =
      if position ≤ index ∧ index < position + bytes.length then bytes[index - position]?
      else memory[index]? := by
  have frontLength : (memory.take position).length = position := by
    rw [List.length_take]
    omega
  unfold splice
  rw [List.append_assoc]
  rcases Nat.lt_or_ge index position with before | atLeast
  · rw [List.getElem?_append_left (by rw [frontLength]; exact before), if_neg (by omega),
      List.getElem?_take_of_lt before]
  · rw [List.getElem?_append_right (by rw [frontLength]; exact atLeast), frontLength]
    rcases Nat.lt_or_ge index (position + bytes.length) with inside | behind
    · rw [List.getElem?_append_left (by omega), if_pos ⟨atLeast, inside⟩]
    · rw [List.getElem?_append_right (by omega), if_neg (by omega), List.getElem?_drop]
      congr 1
      omega

/-- What a buffer holds up to a point inside a write. -/
theorem splice_take {memory bytes : Bytes} {position count : Nat}
    (inside : position ≤ memory.length) (written : count ≤ bytes.length) :
    (splice memory position bytes).take (position + count) =
      memory.take position ++ bytes.take count := by
  have beforeLength : (memory.take position).length = position := by
    simpa using inside
  unfold splice
  rw [List.append_assoc, List.take_append, List.take_of_length_le (by omega),
    beforeLength, Nat.add_sub_cancel_left, List.take_append_of_le_length written]

/-- The C string that starts an object, without its terminating zero. -/
def cString : Bytes → Except Fault Bytes
  | [] => .error .outOfBounds
  | byte :: rest =>
      if byte = 0 then .ok [] else (byte :: ·) <$> cString rest

/-- A string ends at the first zero. -/
theorem cString_zero (text rest : Bytes) :
    cString (text ++ 0 :: rest) = .ok (text.takeWhile (· ≠ 0)) := by
  induction text with
  | nil => rfl
  | cons byte text ih =>
      rw [List.cons_append]
      by_cases zero : byte = 0
      · simp [cString, zero]
      · simp [cString, zero, ih]

theorem takeWhile_nonzero {text : Bytes} (nonzero : (0 : UInt8) ∉ text) :
    text.takeWhile (· ≠ 0) = text := by
  refine List.takeWhile_eq_self_iff.mpr fun byte member => ?_
  have byteNonzero : byte ≠ 0 := fun zero => nonzero (zero ▸ member)
  exact decide_eq_true byteNonzero

theorem cString_append {text : Bytes} (rest : Bytes) (nonzero : (0 : UInt8) ∉ text) :
    cString (text ++ 0 :: rest) = .ok text := by
  rw [cString_zero, takeWhile_nonzero nonzero]

/-- What stands at the start of an object that holds a string. -/
theorem cString_eq_ok_iff {memory text : Bytes} :
    cString memory = .ok text ↔ (0 : UInt8) ∉ text ∧ ∃ rest, memory = text ++ 0 :: rest := by
  constructor
  · intro holds
    induction memory generalizing text with
    | nil => simp [cString] at holds
    | cons byte memory ih =>
        unfold cString at holds
        by_cases zero : byte = 0
        · rw [if_pos zero] at holds
          obtain rfl := Except.ok.inj holds
          exact ⟨by simp, memory, by rw [zero]; rfl⟩
        · rw [if_neg zero] at holds
          cases later : cString memory with
          | error fault => simp [later] at holds
          | ok tail =>
              rw [later] at holds
              obtain rfl := Except.ok.inj holds
              obtain ⟨nonzero, rest, rfl⟩ := ih later
              exact ⟨by simp [Ne.symm zero, nonzero], rest, rfl⟩
  · rintro ⟨nonzero, rest, rfl⟩
    exact cString_append rest nonzero

/-- `strcmp` -/
def strcmp : Bytes → Bytes → Except Fault Int
  | first :: firsts, second :: seconds =>
      if first = second then
        if first = 0 then .ok 0 else strcmp firsts seconds
      else .ok (first.toNat - second.toNat)
  | _, _ => .error .outOfBounds

/-- The result is zero when the strings are equal. -/
theorem strcmp_eq_zero_iff {memory text : Bytes} (nonzero : (0 : UInt8) ∉ text) :
    strcmp memory (text ++ [0]) = .ok 0 ↔ cString memory = .ok text := by
  rw [cString_eq_ok_iff]
  induction memory generalizing text with
  | nil => cases text <;> simp [strcmp]
  | cons byte memory ih =>
      cases text with
      | nil =>
          rw [List.nil_append, strcmp]
          by_cases zero : byte = 0
          · simp [zero]
          · rw [if_neg zero]
            have differ : byte.toNat ≠ 0 := fun equal => zero (UInt8.toNat_inj.mp equal)
            simp [zero, differ]
      | cons head text =>
          obtain ⟨headNonzero, textNonzero⟩ : ¬ 0 = head ∧ (0 : UInt8) ∉ text := by
            simpa using nonzero
          rw [List.cons_append, strcmp]
          by_cases same : byte = head
          · rw [if_pos same, if_neg (same ▸ Ne.symm headNonzero), ih textNonzero]
            simp [same, headNonzero]
          · rw [if_neg same]
            have differ : (byte.toNat : Int) - head.toNat ≠ 0 := fun equal =>
              same (UInt8.toNat_inj.mp (by omega))
            simp [same, differ]

/-- The comparison ends inside an object that is longer than the string. -/
theorem strcmp_returns {memory text : Bytes} (longer : text.length < memory.length) :
    ∃ ret, strcmp memory (text ++ [0]) = .ok ret := by
  induction memory generalizing text with
  | nil => simp at longer
  | cons byte memory ih =>
      cases text with
      | nil =>
          rw [List.nil_append, strcmp]
          split_ifs
          · exact ⟨0, rfl⟩
          · exact ⟨_, rfl⟩
      | cons head text =>
          rw [List.cons_append, strcmp]
          split_ifs
          · exact ⟨0, rfl⟩
          · exact ih (by simpa using longer)
          · exact ⟨_, rfl⟩

/-- The bytes that `strncpy` stores for the string at an offset. -/
def strncpy (memory : Bytes) : Nat → Nat → Except Fault Bytes
  | _, 0 => .ok []
  | position, count + 1 => do
      let byte ← loadByte memory position
      if byte = 0 then .ok (List.replicate (count + 1) 0)
      else
        let rest ← strncpy memory (position + 1) count
        .ok (byte :: rest)

/-- `sprintf` into an array of `capacity` bytes. -/
def sprintf (capacity : Nat) (text : Bytes) : Except Fault Bytes :=
  if text.length < capacity then .ok text else .error .bufferOverflow

/-- The search of `strstr`, where `position` is the offset reached. -/
def searchFrom (needle : Bytes) : Bytes → Nat → Except Fault (Option Nat)
  | [], _ => .error .outOfBounds
  | byte :: rest, position =>
      if needle.isPrefixOf (byte :: rest) then .ok (some position)
      else if byte = 0 then .ok none
      else searchFrom needle rest (position + 1)

/-- The offset of the first occurrence of `needle` in the C string that starts
at the offset `start`. -/
def strstr (memory : Bytes) (start : Nat) (needle : Bytes) :
    Except Fault (Option Nat) :=
  searchFrom needle (memory.drop start) start

/-- `before` is followed by the first occurrence of `needle`. -/
def FirstAt (needle before after : Bytes) : Prop :=
  ∀ earlier rest, earlier ++ rest = before → rest ≠ [] →
    ¬ needle <+: rest ++ (needle ++ after)

theorem searchFrom_first {needle before after : Bytes} (position : Nat)
    (needleNonempty : needle ≠ []) (nonzero : (0 : UInt8) ∉ before)
    (first : FirstAt needle before after) :
    searchFrom needle (before ++ (needle ++ after)) position =
      .ok (some (position + before.length)) := by
  induction before generalizing position with
  | nil =>
      obtain ⟨head, tail, rfl⟩ := List.exists_cons_of_ne_nil needleNonempty
      simp [searchFrom]
  | cons byte before ih =>
      obtain ⟨byteNonzero, beforeNonzero⟩ : ¬ 0 = byte ∧ (0 : UInt8) ∉ before := by
        simpa using nonzero
      have notHere : ¬ needle <+: byte :: (before ++ (needle ++ after)) := by
        simpa using first [] (byte :: before) rfl (by simp)
      have later : FirstAt needle before after := by
        intro earlier rest split restNonempty
        exact first (byte :: earlier) rest (by simp [split]) restNonempty
      have found := ih (position + 1) beforeNonzero later
      simp only [List.cons_append, searchFrom]
      rw [if_neg (by simpa using notHere), if_neg (Ne.symm byteNonzero), found]
      simp
      omega

/-- A needle whose first byte is new is not found earlier. -/
theorem firstAt_of_head_not_mem {head : UInt8} {tail before : Bytes} (after : Bytes)
    (fresh : head ∉ before) : FirstAt (head :: tail) before after := by
  intro earlier rest split restNonempty found
  obtain ⟨byte, bytes, rfl⟩ := List.exists_cons_of_ne_nil restNonempty
  have same : head = byte := (List.cons_prefix_cons.mp found).1
  exact fresh (by simp [← split, same])

/-- `0\r\n` does not begin inside a line that ends in another digit. -/
theorem firstAt_of_line {body : Bytes} {last : UInt8} (after : Bytes)
    (noReturn : (13 : UInt8) ∉ body) (lastNotZero : last ≠ 48) (lastNotReturn : last ≠ 13) :
    FirstAt [48, 13, 10] (body ++ [last, 13, 10]) after := by
  intro earlier rest split restNonempty found
  rcases List.append_eq_append_iff.mp split with
    ⟨inner, bodyEq, restEq⟩ | ⟨inner, -, lineEq⟩
  · rw [restEq] at found
    rcases inner with _ | ⟨first, _ | ⟨second, inner⟩⟩
    · exact lastNotZero (List.cons_prefix_cons.mp found).1.symm
    · have tailFound := (List.cons_prefix_cons.mp found).2
      exact lastNotReturn (List.cons_prefix_cons.mp tailFound).1.symm
    · have tailFound := (List.cons_prefix_cons.mp found).2
      have second : 13 = second := (List.cons_prefix_cons.mp tailFound).1
      exact noReturn (by simp [bodyEq, second])
  · rcases inner with _ | ⟨first, _ | ⟨second, _ | ⟨third, inner⟩⟩⟩
    · obtain rfl : [last, 13, 10] = rest := by simpa using lineEq
      exact lastNotZero (List.cons_prefix_cons.mp found).1.symm
    · obtain ⟨-, rfl⟩ : last = first ∧ [13, 10] = rest := by simpa using lineEq
      exact absurd (List.cons_prefix_cons.mp found).1 (by decide)
    · obtain ⟨-, -, rfl⟩ : last = first ∧ 13 = second ∧ [10] = rest := by
        simpa using lineEq
      exact absurd (List.cons_prefix_cons.mp found).1 (by decide)
    · have restEmpty : inner = [] ∧ rest = [] := by
        simp at lineEq
        exact lineEq.2.2.2
      exact restNonempty restEmpty.2

/-- `0\r\n` does not begin before the end of a text without returns. -/
theorem firstAt_of_body {body : Bytes} (after : Bytes) (noReturn : (13 : UInt8) ∉ body) :
    FirstAt [48, 13, 10] body after := by
  intro earlier rest split restNonempty found
  rcases rest with _ | ⟨first, _ | ⟨second, rest⟩⟩
  · exact restNonempty rfl
  · have tailFound := (List.cons_prefix_cons.mp found).2
    exact absurd (List.cons_prefix_cons.mp tailFound).1 (by decide)
  · have tailFound := (List.cons_prefix_cons.mp found).2
    have second : 13 = second := (List.cons_prefix_cons.mp tailFound).1
    exact noReturn (by simp [← split, second])

/-- A needle that occurs in the string is found, there or earlier. -/
theorem searchFrom_isSome {needle before after : Bytes} (position : Nat)
    (needleNonempty : needle ≠ []) (nonzero : (0 : UInt8) ∉ before) :
    ∃ found, searchFrom needle (before ++ (needle ++ after)) position =
      .ok (some found) := by
  induction before generalizing position with
  | nil =>
      obtain ⟨head, tail, rfl⟩ := List.exists_cons_of_ne_nil needleNonempty
      exact ⟨position, by simp [searchFrom]⟩
  | cons byte before ih =>
      obtain ⟨byteNonzero, beforeNonzero⟩ : ¬ 0 = byte ∧ (0 : UInt8) ∉ before := by
        simpa using nonzero
      simp only [List.cons_append, searchFrom]
      split
      · exact ⟨position, rfl⟩
      · rw [if_neg (Ne.symm byteNonzero)]
        exact ih (position + 1) beforeNonzero

/-- The search runs off the object when no zero ends it and the needle does not
occur. -/
theorem searchFrom_error_iff {needle : Bytes} (needleNonempty : needle ≠ [])
    (memory : Bytes) (position : Nat) :
    (∃ fault, searchFrom needle memory position = .error fault) ↔
      (0 : UInt8) ∉ memory ∧ ¬ needle <:+: memory := by
  induction memory generalizing position with
  | nil =>
      have absent : ¬ needle <:+: [] := fun found =>
        needleNonempty (List.infix_nil.mp found)
      simp [searchFrom, absent]
  | cons byte rest ih =>
      unfold searchFrom
      by_cases here : needle <+: byte :: rest
      · simp [here, here.isInfix]
      · rw [if_neg (by simpa using here)]
        by_cases zero : byte = 0
        · simp [zero]
        · rw [if_neg zero, ih, List.infix_cons_iff]
          simp [here, Ne.symm zero]

/-- The search faults only at the end of the object. -/
theorem searchFrom_fault {needle memory : Bytes} {position : Nat} {fault : Fault}
    (search : searchFrom needle memory position = .error fault) : fault = .outOfBounds := by
  induction memory generalizing position with
  | nil => simpa [searchFrom, eq_comm] using search
  | cons byte rest ih =>
      unfold searchFrom at search
      split_ifs at search with here zero
      exact ih search

/-- The search gives up only at a zero. -/
theorem searchFrom_none {needle memory : Bytes} {position : Nat}
    (search : searchFrom needle memory position = .ok none) : (0 : UInt8) ∈ memory := by
  induction memory generalizing position with
  | nil => simp [searchFrom] at search
  | cons byte rest ih =>
      unfold searchFrom at search
      split_ifs at search with here zero
      · simp at search
      · simp [zero]
      · exact List.mem_cons_of_mem byte (ih search)

/-- What follows the first occurrence of `needle` in the C string that starts an
object. -/
def FollowsFirst (needle memory after : Bytes) : Prop :=
  ∃ before, memory = before ++ (needle ++ after) ∧ (0 : UInt8) ∉ before ∧
    FirstAt needle before after

/-- The search finds the first occurrence. -/
theorem FollowsFirst.search {needle memory after : Bytes}
    (follows : FollowsFirst needle memory after) (needleNonempty : needle ≠ []) (position : Nat) :
    ∃ skip, searchFrom needle memory position = .ok (some (position + skip)) ∧
      memory.drop (skip + needle.length) = after := by
  obtain ⟨before, rfl, nonzero, first⟩ := follows
  refine ⟨before.length, searchFrom_first position needleNonempty nonzero first, ?_⟩
  rw [← List.drop_drop, List.drop_left, List.drop_left]

theorem follows_of_searchFrom {needle memory : Bytes} {position found : Nat}
    (search : searchFrom needle memory position = .ok (some found)) :
    ∃ after, FollowsFirst needle memory after := by
  induction memory generalizing position with
  | nil => simp [searchFrom] at search
  | cons byte rest ih =>
      unfold searchFrom at search
      split_ifs at search with here zero
      · obtain ⟨after, split⟩ := List.isPrefixOf_iff_prefix.mp here
        refine ⟨after, [], split.symm, by simp, ?_⟩
        intro earlier later splitEmpty laterNonempty
        exact absurd (List.append_eq_nil_iff.mp splitEmpty).2 laterNonempty
      · simp at search
      · obtain ⟨after, before, split, nonzero, first⟩ := ih search
        refine ⟨after, byte :: before, by rw [split, List.cons_append], ?_, ?_⟩
        · simpa [Ne.symm zero] using nonzero
        · intro earlier later splitBefore laterNonempty found
          rcases earlier with _ | ⟨head, earlier⟩
          · rw [List.nil_append] at splitBefore
            rw [splitBefore, List.cons_append, ← split] at found
            exact here (List.isPrefixOf_iff_prefix.mpr found)
          · obtain ⟨-, tail⟩ := List.cons.inj splitBefore
            exact first earlier later tail laterNonempty found

theorem FollowsFirst.unique {needle memory first second : Bytes} (needleNonempty : needle ≠ [])
    (follows : FollowsFirst needle memory first)
    (alsoFollows : FollowsFirst needle memory second) : first = second := by
  obtain ⟨skip, search, rfl⟩ := follows.search needleNonempty 0
  obtain ⟨other, otherSearch, rfl⟩ := alsoFollows.search needleNonempty 0
  have same : skip = other := by simpa using search.symm.trans otherSearch
  rw [same]

/-- A needle without zeros does not reach beyond the string. -/
theorem prefix_string {needle text rest : Bytes} (needleNonzero : (0 : UInt8) ∉ needle)
    (here : needle <+: text ++ 0 :: rest) : needle <+: text := by
  rcases Nat.lt_or_ge text.length needle.length with long | short
  · have ended : text ++ [0] <+: text ++ 0 :: rest := ⟨rest, by simp⟩
    have inside : text ++ [0] <+: needle :=
      List.prefix_of_prefix_length_le ended here (by simpa using long)
    exact absurd (inside.subset (by simp)) needleNonzero
  · exact List.prefix_of_prefix_length_le here (List.prefix_append ..) short

/-- The search of a string finds the needle exactly when it occurs. -/
theorem searchFrom_string {needle text : Bytes} (needleNonempty : needle ≠ [])
    (needleNonzero : (0 : UInt8) ∉ needle) (nonzero : (0 : UInt8) ∉ text)
    (rest : Bytes) (position : Nat) :
    ∃ found, searchFrom needle (text ++ 0 :: rest) position = .ok found ∧
      (found ≠ none ↔ needle <:+: text) := by
  induction text generalizing position with
  | nil =>
      have notHere : ¬ needle <+: 0 :: rest := by
        intro here
        exact needleNonempty (List.prefix_nil.mp (prefix_string needleNonzero here))
      exact ⟨none, by simp [searchFrom, notHere], by simpa using needleNonempty⟩
  | cons byte text ih =>
      obtain ⟨byteNonzero, textNonzero⟩ : ¬ 0 = byte ∧ (0 : UInt8) ∉ text := by
        simpa using nonzero
      obtain ⟨found, search, occurs⟩ := ih textNonzero (position + 1)
      by_cases here : needle <+: byte :: (text ++ 0 :: rest)
      · have inside : needle <+: byte :: text := prefix_string needleNonzero here
        exact ⟨some position, by simp [searchFrom, here], by simp [inside.isInfix]⟩
      · have notInside : ¬ needle <+: byte :: text := fun inside =>
          here (inside.trans (List.prefix_append (byte :: text) _))
        refine ⟨found, ?_, by rw [occurs, List.infix_cons_iff]; simp [notInside]⟩
        simp only [List.cons_append, searchFrom]
        rw [if_neg (by simpa using here), if_neg (Ne.symm byteNonzero)]
        exact search

/-- `0\r\n` occurs in a text at the end of its first line or behind it. -/
theorem infix_line_iff {body : Bytes} {last : UInt8} (behind : Bytes)
    (noReturn : (13 : UInt8) ∉ body) (lastNotReturn : last ≠ 13) :
    [48, 13, 10] <:+: body ++ last :: 13 :: 10 :: behind ↔
      last = 48 ∨ [48, 13, 10] <:+: behind := by
  induction body with
  | nil =>
      simp [List.infix_cons_iff, List.cons_prefix_cons, eq_comm]
  | cons byte body ih =>
      obtain ⟨-, bodyNoReturn⟩ : ¬ 13 = byte ∧ (13 : UInt8) ∉ body := by
        simpa using noReturn
      have notHere : ¬ [48, 13, 10] <+: byte :: (body ++ last :: 13 :: 10 :: behind) := by
        intro here
        have tailHere := (List.cons_prefix_cons.mp here).2
        cases body with
        | nil => exact lastNotReturn (List.cons_prefix_cons.mp tailHere).1.symm
        | cons second body =>
            have isReturn : 13 = second := (List.cons_prefix_cons.mp tailHere).1
            exact bodyNoReturn (by simp [isReturn])
      rw [List.cons_append, List.infix_cons_iff, ih bodyNoReturn]
      simp [notHere]

/-- The digits that `strtol` accumulates. -/
def readDigits : Bytes → Nat → Except Fault Nat
  | [], _ => .error .outOfBounds
  | byte :: rest, value =>
      if 48 ≤ byte ∧ byte ≤ 57 then
        readDigits rest (10 * value + (byte.toNat - 48))
      else .ok value

/-- The result of `strtol` in a 32-bit `long`. -/
def saturate (value : Int) : Int :=
  max (-2 ^ 31) (min value (2 ^ 31 - 1))

/-- `isspace`, in the C locale. -/
def isSpace (byte : UInt8) : Prop :=
  byte = 32 ∨ 9 ≤ byte ∧ byte ≤ 13

instance : DecidablePred isSpace :=
  fun _ => inferInstanceAs (Decidable (_ ∨ _))

def atoi : Bytes → Except Fault Int
  | [] => .error .outOfBounds
  | byte :: rest =>
      if isSpace byte then atoi rest
      else if byte = 45 then
        (fun value : Nat => saturate (-value)) <$> readDigits rest 0
      else if byte = 43 then
        (fun value : Nat => saturate value) <$> readDigits rest 0
      else (fun value : Nat => saturate value) <$> readDigits (byte :: rest) 0

/-- Reading digits runs off the object when nothing else is in it. -/
theorem readDigits_error_iff {text : Bytes} {value : Nat} {fault : Fault} :
    readDigits text value = .error fault ↔
      fault = .outOfBounds ∧ ∀ byte ∈ text, 48 ≤ byte ∧ byte ≤ 57 := by
  induction text generalizing value with
  | nil => simp [readDigits, eq_comm]
  | cons byte rest ih =>
      unfold readDigits
      by_cases isDigit : 48 ≤ byte ∧ byte ≤ 57
      · rw [if_pos isDigit, ih]
        simp [isDigit]
      · rw [if_neg isDigit]
        simp [isDigit]

/-- A text of blanks, a sign and digits, and nothing else: `atoi` does not find
its end. -/
def Unended (text : Bytes) : Prop :=
  ∃ blanks sign digits, text = blanks ++ (sign ++ digits) ∧
    (∀ byte ∈ blanks, isSpace byte) ∧ (sign = [] ∨ sign = [45] ∨ sign = [43]) ∧
    ∀ byte ∈ digits, 48 ≤ byte ∧ byte ≤ 57

theorem not_isDigit_of_isSpace {byte : UInt8} (space : isSpace byte) :
    ¬ (48 ≤ byte ∧ byte ≤ 57) ∧ byte ≠ 45 ∧ byte ≠ 43 := by
  revert byte
  apply forall_byte
  decide +kernel

theorem unended_of_isSpace {byte : UInt8} {rest : Bytes} (space : isSpace byte) :
    Unended (byte :: rest) ↔ Unended rest := by
  obtain ⟨notDigit, notMinus, notPlus⟩ := not_isDigit_of_isSpace space
  constructor
  · rintro ⟨_ | ⟨head, blanks⟩, sign, digits, split, blank, signs, isDigits⟩
    · rcases signs with rfl | rfl | rfl
      · rw [List.nil_append, List.nil_append] at split
        exact absurd (isDigits byte (by simp [← split])) notDigit
      · exact absurd (List.cons.inj split).1 notMinus
      · exact absurd (List.cons.inj split).1 notPlus
    · exact ⟨blanks, sign, digits, (List.cons.inj split).2,
        fun other member => blank other (by simp [member]), signs, isDigits⟩
  · rintro ⟨blanks, sign, digits, rfl, blank, rest⟩
    refine ⟨byte :: blanks, sign, digits, rfl, fun other member => ?_, rest⟩
    rcases List.mem_cons.mp member with rfl | inBlanks
    · exact space
    · exact blank other inBlanks

/-- Behind the blanks there is at most one sign. -/
theorem unended_of_not_isSpace {byte : UInt8} {rest : Bytes} (notSpace : ¬ isSpace byte) :
    Unended (byte :: rest) ↔
      (byte = 45 ∨ byte = 43 ∨ 48 ≤ byte ∧ byte ≤ 57) ∧
        ∀ other ∈ rest, 48 ≤ other ∧ other ≤ 57 := by
  constructor
  · rintro ⟨_ | ⟨head, blanks⟩, sign, digits, split, blank, signs, isDigits⟩
    · rcases signs with rfl | rfl | rfl
      · rw [List.nil_append, List.nil_append] at split
        rw [← split] at isDigits
        exact ⟨.inr (.inr (isDigits byte (by simp))),
          fun other member => isDigits other (by simp [member])⟩
      · obtain ⟨isMinus, rfl⟩ := List.cons.inj split
        exact ⟨.inl isMinus, isDigits⟩
      · obtain ⟨isPlus, rfl⟩ := List.cons.inj split
        exact ⟨.inr (.inl isPlus), isDigits⟩
    · obtain ⟨rfl, -⟩ := List.cons.inj split
      exact absurd (blank byte (by simp)) notSpace
  · rintro ⟨rfl | rfl | isDigit, isDigits⟩
    · exact ⟨[], [45], rest, rfl, by simp, by simp, isDigits⟩
    · exact ⟨[], [43], rest, rfl, by simp, by simp, isDigits⟩
    · refine ⟨[], [], byte :: rest, rfl, by simp, by simp, fun other member => ?_⟩
      rcases List.mem_cons.mp member with rfl | inRest
      · exact isDigit
      · exact isDigits other inRest

theorem map_eq_error_iff {α β : Type} {result : Except Fault α} {function : α → β}
    {fault : Fault} : function <$> result = .error fault ↔ result = .error fault := by
  cases result <;> simp [Functor.map, Except.map]

/-- `atoi` runs off the object when the text does not end. -/
theorem atoi_error_iff {text : Bytes} {fault : Fault} :
    atoi text = .error fault ↔ fault = .outOfBounds ∧ Unended text := by
  induction text with
  | nil =>
      have empty : Unended [] := ⟨[], [], [], rfl, by simp, by simp, by simp⟩
      simp [atoi, empty, eq_comm]
  | cons byte rest ih =>
      unfold atoi
      by_cases space : isSpace byte
      · rw [if_pos space, ih, unended_of_isSpace space]
      · rw [if_neg space, unended_of_not_isSpace space]
        by_cases minus : byte = 45
        · rw [if_pos minus, map_eq_error_iff, readDigits_error_iff]
          simp [minus]
        · by_cases plus : byte = 43
          · rw [if_neg minus, if_pos plus, map_eq_error_iff, readDigits_error_iff]
            simp [plus]
          · rw [if_neg minus, if_neg plus, map_eq_error_iff, readDigits_error_iff]
            simp [minus, plus]

theorem digitByte_toNat {digit : Nat} (small : digit < 10) :
    (digitByte digit).toNat = 48 + digit := by
  simp [digitByte, Nat.toUInt8]
  omega

theorem readDigits_digits (digits : List Nat) {stop : UInt8} (rest : Bytes)
    (value : Nat) (small : ∀ digit ∈ digits, digit < 10)
    (stops : ¬ (48 ≤ stop ∧ stop ≤ 57)) :
    readDigits (digits.map digitByte ++ stop :: rest) value =
      .ok (digits.foldl (fun total digit => 10 * total + digit) value) := by
  induction digits generalizing value with
  | nil => simp [readDigits, stops]
  | cons digit digits ih =>
      have digitSmall : digit < 10 := small digit (by simp)
      have byteValue := digitByte_toNat digitSmall
      have isDigit : 48 ≤ digitByte digit ∧ digitByte digit ≤ 57 := by
        rw [UInt8.le_iff_toNat_le, UInt8.le_iff_toNat_le, byteValue]
        simp
        omega
      have rest := ih (10 * value + digit)
        (fun digit member => small digit (by simp [member]))
      simp only [List.map_cons, List.cons_append, readDigits, List.foldl_cons]
      rw [if_pos isDigit, byteValue, Nat.add_sub_cancel_left, rest]

/-- The digits of a number, read from the most significant on. -/
theorem foldl_digits_reverse (number : Nat) :
    (Nat.digits 10 number).reverse.foldl (fun total digit => 10 * total + digit) 0 =
      number := by
  rw [List.foldl_reverse]
  have folded := Nat.ofDigits_eq_foldr 10 (Nat.digits 10 number)
  rw [Nat.ofDigits_digits] at folded
  calc
    _ = (Nat.digits 10 number).foldr (fun digit total => digit + 10 * total) 0 := by
      congr
      funext digit total
      exact Nat.add_comm _ _
    _ = number := by simpa using folded.symm

theorem readDigits_decimal (number : Nat) {stop : UInt8} (rest : Bytes)
    (stops : ¬ (48 ≤ stop ∧ stop ≤ 57)) :
    readDigits (decimal number ++ stop :: rest) 0 = .ok number := by
  unfold decimal
  split
  · next zero =>
      have digits := readDigits_digits [0] rest 0 (by simp) stops
      rw [zero]
      exact digits
  · have digits := readDigits_digits (Nat.digits 10 number).reverse rest 0
      (by
        intro digit member
        exact Nat.digits_lt_base (by decide) (List.mem_reverse.mp member)) stops
    rw [digits, foldl_digits_reverse]

theorem decimal_ne_nil (number : Nat) : decimal number ≠ [] := by
  unfold decimal
  split
  · simp
  · next nonzero => simpa [Nat.digits_ne_nil_iff_ne_zero] using nonzero

/-- Decimal text is made of digits. -/
theorem decimal_isDigit {number : Nat} {byte : UInt8} (member : byte ∈ decimal number) :
    48 ≤ byte ∧ byte ≤ 57 := by
  unfold decimal at member
  split at member
  · obtain rfl : byte = 48 := by simpa using member
    decide
  · obtain ⟨digit, digitMember, rfl⟩ := List.mem_map.mp member
    have digitSmall : digit < 10 :=
      Nat.digits_lt_base (by decide) (List.mem_reverse.mp digitMember)
    rw [UInt8.le_iff_toNat_le, UInt8.le_iff_toNat_le, digitByte_toNat digitSmall]
    simp
    omega

/-- The last character of decimal text is the last digit. -/
theorem decimal_last (number : Nat) :
    ∃ front, decimal number = front ++ [digitByte (number % 10)] := by
  unfold decimal
  split
  · next zero =>
      subst zero
      exact ⟨[], rfl⟩
  · next nonzero =>
      refine ⟨(Nat.digits 10 (number / 10)).reverse.map digitByte, ?_⟩
      rw [Nat.digits_eq_cons_digits_div (by decide) nonzero]
      simp

/-- `atoi` reads back what `%d` printed. -/
theorem atoi_decimal {number : Nat} (small : number < 2 ^ 31) {stop : UInt8}
    (rest : Bytes) (stops : ¬ (48 ≤ stop ∧ stop ≤ 57)) :
    atoi (decimal number ++ stop :: rest) = .ok number := by
  have digits := readDigits_decimal number rest stops
  obtain ⟨byte, bytes, decimalEq⟩ := List.exists_cons_of_ne_nil (decimal_ne_nil number)
  have isDigit : 48 ≤ byte ∧ byte ≤ 57 :=
    have member : byte ∈ decimal number := by simp [decimalEq]
    decimal_isDigit member
  rw [decimalEq, List.cons_append] at digits ⊢
  have lower : 48 ≤ byte.toNat := UInt8.le_iff_toNat_le.mp isDigit.1
  have notSpace : ¬ isSpace byte := by
    rintro (rfl | ⟨-, upper⟩)
    · simp at lower
    · have upper : byte.toNat ≤ 13 := UInt8.le_iff_toNat_le.mp upper
      omega
  have notMinus : byte ≠ 45 := by
    rintro rfl
    simp at lower
  have notPlus : byte ≠ 43 := by
    rintro rfl
    simp at lower
  have saturated : saturate number = number := by
    unfold saturate
    omega
  unfold atoi
  rw [if_neg notSpace, if_neg notMinus, if_neg notPlus, digits]
  exact congrArg Except.ok saturated

/-- An array object: no write changes its size. -/
structure CArray (size : Nat) where
  bytes : Bytes
  length_eq : bytes.length = size

namespace CArray

variable {size : Nat}

def zeroed (size : Nat) : CArray size :=
  ⟨List.replicate size 0, List.length_replicate⟩

/-- Write bytes from an offset, inside the array. -/
def write (array : CArray size) (position : Nat) (bytes : Bytes) : Except Fault (CArray size) :=
  if fits : position + bytes.length ≤ size then
    .ok
      { bytes := splice array.bytes position bytes
        length_eq := (splice_length (array.length_eq.symm ▸ fits)).trans array.length_eq }
  else .error .bufferOverflow

theorem write_isOk_iff {array : CArray size} {position : Nat} {bytes : Bytes} :
    (∃ after, array.write position bytes = .ok after) ↔ position + bytes.length ≤ size := by
  unfold write
  split
  · next fits => exact iff_of_true ⟨_, rfl⟩ fits
  · next overflows => exact iff_of_false (by simp) overflows

theorem write_of_overflow {array : CArray size} {position : Nat} {bytes : Bytes}
    (overflows : ¬ position + bytes.length ≤ size) :
    array.write position bytes = .error .bufferOverflow :=
  dif_neg overflows

theorem write_contents {array after : CArray size} {position : Nat} {bytes : Bytes}
    (written : array.write position bytes = .ok after) :
    position + bytes.length ≤ size ∧
      after.bytes = splice array.bytes position bytes := by
  unfold write at written
  split at written
  · next fits =>
    cases written
    exact ⟨fits, rfl⟩
  · cases written

/-- `strcat` -/
def strcat (array : CArray size) (text : Bytes) : Except Fault (CArray size) := do
  let held ← cString array.bytes
  array.write held.length (text ++ [0])

theorem strcat_of_fits {array : CArray size} {held text : Bytes}
    (holds : cString array.bytes = .ok held) (nonzero : (0 : UInt8) ∉ text)
    (fits : held.length + text.length < size) :
    ∃ after, array.strcat text = .ok after ∧ cString after.bytes = .ok (held ++ text) := by
  obtain ⟨heldNonzero, rest, bytes⟩ := cString_eq_ok_iff.mp holds
  obtain ⟨after, written⟩ : ∃ after, array.write held.length (text ++ [0]) = .ok after :=
    write_isOk_iff.mpr (by simpa [← Nat.add_assoc] using fits)
  refine ⟨after, ?_, ?_⟩
  · rw [strcat, holds]
    exact written
  · have front : array.bytes.take held.length = held := by
      rw [bytes, List.take_left]
    rw [(write_contents written).2, splice, front]
    simpa using cString_append _ (by simp [heldNonzero, nonzero] : (0 : UInt8) ∉ held ++ text)

theorem strcat_of_overflow {array : CArray size} {held text : Bytes}
    (holds : cString array.bytes = .ok held) (overflows : ¬ held.length + text.length < size) :
    array.strcat text = .error .bufferOverflow := by
  rw [strcat, holds]
  exact write_of_overflow (by simp; omega)

end CArray

end OnlineProgram.CMemory
