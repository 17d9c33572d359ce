import OnlineProgram.CMemory
import OnlineProgram.FaultingRuns
import OnlineProgram.UuCoding

/-!
# The uuencoder of the programmer

`UUencodeLine` and `UUdecodeLine` of `UUencode.cpp`, with `char` as an unsigned
byte.  A pointer argument is an object and an offset into it, so the tests for
`NULL` have no counterpart.  Both functions work on whole groups: the encoder
reads, and the decoder writes, up to two bytes beyond the length of the line.
-/

namespace OnlineProgram

open ByteStrings CMemory

/-- `UU_ENCODE_BYTE` -/
def uuEncodeByte (a : UInt8) : UInt8 :=
  if a = 0 then 0x60 else a + 0x20

/-- `UU_DECODE_BYTE` -/
def uuDecodeByte (a : UInt8) : UInt8 :=
  if a = 0 then 0x60 else a - 0x20

def uuEncodeBase (in0 in1 in2 : UInt8) : Bytes :=
  [uuEncodeByte ((in0 &&& 0xFC) >>> 2),
    uuEncodeByte (((in0 &&& 0x03) <<< 4) + ((in1 &&& 0xF0) >>> 4)),
    uuEncodeByte (((in1 &&& 0x0F) <<< 2) + ((in2 &&& 0xC0) >>> 6)),
    uuEncodeByte (in2 &&& 0x3F)]

/-- `UUdecodeBase`: each byte is stored before the next character is read. -/
def uuDecodeBase (memory : Bytes) (input : Nat) (output : Bytes) (position : Nat) :
    Except Fault Bytes := do
  let in0 ← loadByte memory input
  let in1 ← loadByte memory (input + 1)
  let output ← store output position
    [(uuDecodeByte in0 <<< 2) + ((uuDecodeByte in1 &&& 0x30) >>> 4)]
  let in2 ← loadByte memory (input + 2)
  let output ← store output (position + 1)
    [((uuDecodeByte in1 &&& 0x0F) <<< 4) + ((uuDecodeByte in2 &&& 0x3C) >>> 2)]
  let in3 ← loadByte memory (input + 3)
  store output (position + 2)
    [((uuDecodeByte in2 &&& 0x03) <<< 6) + (uuDecodeByte in3 &&& 0x3F)]

/-- The three bytes that `UUencodeLine` encodes in round `i` of `num`. -/
def uuEncodeInput (memory : Bytes) (input len num i : Nat) :
    Except Fault Bytes :=
  if i ≤ num - 1 then do
    let in0 ← loadByte memory (input + i * 3)
    let in1 ← loadByte memory (input + (i * 3 + 1))
    let in2 ← loadByte memory (input + (i * 3 + 2))
    .ok (uuEncodeBase in0 in1 in2)
  else if len % 3 = 0 then do
    let str ← strncpy memory (input + i * 3) 3
    .ok (uuEncodeBase (str.getD 0 0) (str.getD 1 0) (str.getD 2 0))
  else if len % 3 = 1 then do
    let in0 ← loadByte memory (input + i * 3)
    .ok (uuEncodeBase in0 48 48)
  else do
    let in0 ← loadByte memory (input + 3 * i)
    let in1 ← loadByte memory (input + (3 * i + 1))
    .ok (uuEncodeBase in0 in1 48)

/-- The loop of `UUencodeLine` from round `i` on. -/
def uuEncodeLoop (memory : Bytes) (input len num : Nat) :
    Nat → Nat → Bytes → Except Fault Bytes
  | 0, _, output => .ok output
  | remaining + 1, i, output => do
      let encoded ← uuEncodeInput memory input len num i
      let output ← store output (i * 4 + 1) encoded
      uuEncodeLoop memory input len num remaining (i + 1) output

def uuEncodeLine (memory : Bytes) (input : Nat) (output : Bytes) (len : UInt8) :
    Except Fault (Int × Bytes) :=
  if len = 0 ∨ 45 < len then .ok (-1, output)
  else do
    let output ← store output 0 [len + 0x20]
    let num := len.toNat / 3 + (if len.toNat % 3 = 0 then 0 else 1)
    let output ← uuEncodeLoop memory input len.toNat num num 0 output
    let output ← store output (num * 4 + 1) [13, 10, 0]
    .ok (1, output)

/-- The loop of `UUdecodeLine` from round `i` on. -/
def uuDecodeLoop (memory : Bytes) (input position : Nat) :
    Nat → Nat → Bytes → Except Fault Bytes
  | 0, _, output => .ok output
  | remaining + 1, i, output => do
      let output ← uuDecodeBase memory (input + (4 * i + 1)) output (position + 3 * i)
      uuDecodeLoop memory input position remaining (i + 1) output

/-- `UUdecodeLine`, which stores from `position` of `output` on.  Its callers
ignore the result, and the source forgets to return one on success. -/
def uuDecodeLine (memory : Bytes) (input : Nat) (output : Bytes) (position : Nat) :
    Except Fault Bytes := do
  let first ← loadByte memory input
  let len : Int := first.toNat - 32
  if len ≤ 0 ∨ 45 < len then .ok output
  else
    let len := len.toNat
    let num := len / 3 + (if len % 3 = 0 then 0 else 1)
    let output ← uuDecodeLoop memory input position num 0 output
    store output (position + len) [0]

namespace UuCoding

theorem uuEncodeByte_eq_character :
    ∀ sextet : UInt8, sextet < 64 →
      uuEncodeByte sextet = character sextet.toNat := by
  apply forall_byte
  decide +kernel

theorem encodeMasks_toNat :
    ∀ byte : UInt8,
      ((byte &&& 0xFC) >>> 2).toNat = byte.toNat / 4 ∧
        ((byte &&& 0x03) <<< 4).toNat = byte.toNat % 4 * 16 ∧
        ((byte &&& 0xF0) >>> 4).toNat = byte.toNat / 16 ∧
        ((byte &&& 0x0F) <<< 2).toNat = byte.toNat % 16 * 4 ∧
        ((byte &&& 0xC0) >>> 6).toNat = byte.toNat / 64 ∧
        (byte &&& 0x3F).toNat = byte.toNat % 64 := by
  apply forall_byte
  decide +kernel

theorem decodeMasks_toNat :
    ∀ byte : UInt8,
      (uuDecodeByte byte <<< 2).toNat = value byte * 4 ∧
        ((uuDecodeByte byte &&& 0x30) >>> 4).toNat = value byte / 16 ∧
        ((uuDecodeByte byte &&& 0x0F) <<< 4).toNat = value byte % 16 * 16 ∧
        ((uuDecodeByte byte &&& 0x3C) >>> 2).toNat = value byte / 4 ∧
        ((uuDecodeByte byte &&& 0x03) <<< 6).toNat = value byte % 4 * 64 ∧
        (uuDecodeByte byte &&& 0x3F).toNat = value byte := by
  apply forall_byte
  decide +kernel

end UuCoding

open UuCoding

theorem uuEncodeBase_eq_encodeGroup (in0 in1 in2 : UInt8) :
    uuEncodeBase in0 in1 in2 = encodeGroup in0 in1 in2 := by
  obtain ⟨high0, low0, -, -, -, -⟩ := encodeMasks_toNat in0
  obtain ⟨-, -, high1, low1, -, -⟩ := encodeMasks_toNat in1
  obtain ⟨-, -, -, -, high2, low2⟩ := encodeMasks_toNat in2
  have small0 := in0.toNat_lt
  have small1 := in1.toNat_lt
  have small2 := in2.toNat_lt
  have second : (((in0 &&& 0x03) <<< 4) + ((in1 &&& 0xF0) >>> 4)).toNat =
      in0.toNat % 4 * 16 + in1.toNat / 16 := by
    rw [UInt8.toNat_add, low0, high1]
    omega
  have third : (((in1 &&& 0x0F) <<< 2) + ((in2 &&& 0xC0) >>> 6)).toNat =
      in1.toNat % 16 * 4 + in2.toNat / 64 := by
    rw [UInt8.toNat_add, low1, high2]
    omega
  have encodes (sextet : UInt8) (small : sextet.toNat < 64) :
      uuEncodeByte sextet = character sextet.toNat :=
    uuEncodeByte_eq_character sextet (UInt8.lt_iff_toNat_lt.mpr small)
  unfold uuEncodeBase encodeGroup
  rw [encodes _ (by omega), encodes _ (by omega), encodes _ (by omega),
    encodes _ (by omega), high0, second, third, low2]
  simp only [List.cons.injEq, and_true]
  refine ⟨?_, ?_, ?_, ?_⟩ <;>
  · congr 1
    omega

theorem decodedBytes_eq_decodeGroup (in0 in1 in2 in3 : UInt8) :
    [(uuDecodeByte in0 <<< 2) + ((uuDecodeByte in1 &&& 0x30) >>> 4),
      ((uuDecodeByte in1 &&& 0x0F) <<< 4) + ((uuDecodeByte in2 &&& 0x3C) >>> 2),
      ((uuDecodeByte in2 &&& 0x03) <<< 6) + (uuDecodeByte in3 &&& 0x3F)] =
        decodeGroup in0 in1 in2 in3 := by
  obtain ⟨first, -, -, -, -, -⟩ := decodeMasks_toNat in0
  obtain ⟨-, second, third, -, -, -⟩ := decodeMasks_toNat in1
  obtain ⟨-, -, -, fourth, fifth, -⟩ := decodeMasks_toNat in2
  obtain ⟨-, -, -, -, -, sixth⟩ := decodeMasks_toNat in3
  have small (byte : UInt8) : value byte < 64 := Nat.mod_lt _ (by decide)
  have small0 := small in0
  have small1 := small in1
  have small2 := small in2
  have small3 := small in3
  unfold decodeGroup
  simp only [List.cons.injEq, and_true]
  refine ⟨?_, ?_, ?_⟩ <;>
  · apply UInt8.toNat_inj.mp
    simp only [UInt8.toNat_add, first, second, third, fourth, fifth, sixth]
    simp [Nat.toUInt8]
    omega

theorem uuEncodeInput_of_drop {memory rest : Bytes} {input len num i : Nat}
    {in0 in1 in2 : UInt8} (inRange : i < num)
    (pointed : memory.drop (input + i * 3) = in0 :: in1 :: in2 :: rest) :
    uuEncodeInput memory input len num i = .ok (encodeGroup in0 in1 in2) := by
  have load0 : loadByte memory (input + i * 3) = .ok in0 := by
    rw [← Nat.add_zero (input + i * 3), loadByte_add, pointed]
    rfl
  have load1 : loadByte memory (input + (i * 3 + 1)) = .ok in1 := by
    rw [← Nat.add_assoc, loadByte_add, pointed]
    rfl
  have load2 : loadByte memory (input + (i * 3 + 2)) = .ok in2 := by
    rw [← Nat.add_assoc, loadByte_add, pointed]
    rfl
  unfold uuEncodeInput
  rw [if_pos (by omega), load0, load1, load2, ← uuEncodeBase_eq_encodeGroup]
  rfl

/-- The loop writes the encoding of the groups that are left. -/
theorem uuEncodeLoop_of_drop {memory bytes after : Bytes}
    {input len num remaining i : Nat} {output : Bytes} (inRange : i + remaining ≤ num)
    (length : bytes.length = 3 * remaining)
    (pointed : memory.drop (input + i * 3) = bytes ++ after)
    (fits : i * 4 + 1 + 4 * remaining ≤ output.length) :
    uuEncodeLoop memory input len num remaining i output =
      .ok (splice output (i * 4 + 1) (encode bytes)) := by
  induction remaining generalizing i bytes output with
  | zero =>
      obtain rfl : bytes = [] := List.eq_nil_of_length_eq_zero length
      simp [uuEncodeLoop, encode]
  | succ remaining ih =>
      obtain ⟨in0, in1, in2, rest, rfl, restLength⟩ := exists_three_cons length
      have encoded : uuEncodeInput memory input len num i =
          .ok (encodeGroup in0 in1 in2) :=
        uuEncodeInput_of_drop (by omega) pointed
      have groupLength : (encodeGroup in0 in1 in2).length = 4 := rfl
      have stored : store output (i * 4 + 1) (encodeGroup in0 in1 in2) =
          .ok (splice output (i * 4 + 1) (encodeGroup in0 in1 in2)) :=
        store_of_le (by omega)
      have restPointed : memory.drop (input + (i + 1) * 3) = rest ++ after := by
        have shifted : input + (i + 1) * 3 = input + i * 3 + 3 := by omega
        rw [shifted, ← List.drop_drop, pointed]
        rfl
      have outputLength :
          (splice output (i * 4 + 1) (encodeGroup in0 in1 in2)).length = output.length :=
        splice_length (by omega)
      have restFits : (i + 1) * 4 + 1 + 4 * remaining ≤
          (splice output (i * 4 + 1) (encodeGroup in0 in1 in2)).length := by omega
      have restWritten := ih (by omega) restLength restPointed restFits
      have nextPosition : (i + 1) * 4 + 1 =
          i * 4 + 1 + (encodeGroup in0 in1 in2).length := by omega
      rw [nextPosition, splice_splice (by omega)] at restWritten
      unfold uuEncodeLoop
      rw [encoded]
      simp only [bind, Except.bind]
      rw [stored]
      exact restWritten

theorem roundedGroups_eq (length : Nat) :
    length / 3 + (if length % 3 = 0 then 0 else 1) = groups length := by
  unfold groups
  split <;> omega

/-- The line that the encoder makes of the whole groups at a pointer. -/
def encodedLine (memory : Bytes) (input : Nat) (len : UInt8) : Bytes :=
  (len + 0x20) :: (encode ((memory.drop input).take (3 * groups len.toNat)) ++ [13, 10])

theorem groups_le {length : Nat} (short : length ≤ 45) : groups length ≤ 15 := by
  unfold groups
  omega

theorem length_le_groups (length : Nat) : length ≤ 3 * groups length := by
  unfold groups
  omega

theorem lengthByte_eq {len : UInt8} (short : len ≤ 45) :
    len + 0x20 = (32 + len.toNat).toUInt8 := by
  rw [UInt8.le_iff_toNat_le] at short
  have small : len.toNat ≤ 45 := short
  apply UInt8.toNat_inj.mp
  rw [lengthCharacter_toNat small, UInt8.toNat_add]
  simp
  omega

/-- The encoder writes its line as a C string when the whole groups can be
read. -/
theorem uuEncodeLine_eq {memory output : Bytes} {input : Nat} {len : UInt8}
    (nonzero : len ≠ 0) (short : len ≤ 45)
    (readable : input + 3 * groups len.toNat ≤ memory.length)
    (fits : 4 * groups len.toNat + 4 ≤ output.length) :
    uuEncodeLine memory input output len =
      .ok (1, splice output 0 (encodedLine memory input len ++ [0])) := by
  obtain ⟨whole, wholeEq⟩ :
      ∃ whole, whole = (memory.drop input).take (3 * groups len.toNat) := ⟨_, rfl⟩
  have filled : whole.length = 3 * groups len.toNat := by
    rw [wholeEq, List.length_take, List.length_drop]
    omega
  have encodedLength := encode_length filled
  have headStored : store output 0 [len + 0x20] = .ok (splice output 0 [len + 0x20]) :=
    store_of_le (by simp; omega)
  have headLength : (splice output 0 [len + 0x20]).length = output.length :=
    splice_length (by simp; omega)
  have loop : uuEncodeLoop memory input len.toNat (groups len.toNat) (groups len.toNat) 0
      (splice output 0 [len + 0x20]) =
        .ok (splice (splice output 0 [len + 0x20]) (0 * 4 + 1) (encode whole)) := by
    have pointed : memory.drop (input + 0 * 3) =
        whole ++ (memory.drop input).drop (3 * groups len.toNat) := by
      rw [wholeEq, List.take_append_drop, Nat.zero_mul, Nat.add_zero]
    exact uuEncodeLoop_of_drop (by omega) filled pointed (by rw [headLength]; omega)
  have joined : splice (splice output 0 [len + 0x20]) (0 * 4 + 1) (encode whole) =
      splice output 0 ((len + 0x20) :: encode whole) :=
    splice_splice (by simp; omega)
  have bodyLength : (splice output 0 ((len + 0x20) :: encode whole)).length = output.length :=
    splice_length (by simp; omega)
  have tailPosition : groups len.toNat * 4 + 1 =
      0 + ((len + 0x20) :: encode whole).length := by
    rw [List.length_cons, encodedLength]
    omega
  have tailStored :
      store (splice output 0 ((len + 0x20) :: encode whole)) (groups len.toNat * 4 + 1)
        [13, 10, 0] =
          .ok (splice output 0 ((len + 0x20) :: encode whole ++ [13, 10, 0])) := by
    rw [store_of_le (by simp; omega), tailPosition, splice_splice (by simp; omega)]
  have accepted : ¬ (len = 0 ∨ 45 < len) := by
    rw [UInt8.lt_iff_toNat_lt]
    rw [UInt8.le_iff_toNat_le] at short
    simp only [nonzero, false_or]
    omega
  unfold uuEncodeLine
  rw [if_neg accepted]
  simp only [bind, Except.bind]
  rw [headStored]
  simp only [roundedGroups_eq]
  rw [loop, joined]
  simp only []
  rw [tailStored, encodedLine, ← wholeEq]
  simp

/-- The encoder's line carries the bytes at the pointer. -/
theorem isLine_encodedLine {memory bytes after : Bytes} {input : Nat} {len : UInt8}
    (length : bytes.length = len.toNat) (nonempty : 0 < bytes.length)
    (short : bytes.length ≤ 45) (pointed : memory.drop input = bytes ++ after)
    (readable : 3 * groups bytes.length ≤ bytes.length + after.length) :
    IsLine bytes (encodedLine memory input len) := by
  have enough := length_le_groups bytes.length
  have whole : (memory.drop input).take (3 * groups len.toNat) =
      bytes ++ after.take (3 * groups bytes.length - bytes.length) := by
    rw [pointed, ← length, List.take_append, List.take_of_length_le enough]
  have lenShort : len ≤ 45 := by
    rw [UInt8.le_iff_toNat_le, ← length]
    exact short
  unfold encodedLine
  rw [whole, lengthByte_eq lenShort, ← length]
  apply isLine_encode nonempty short
  rw [List.length_append, List.length_take]
  omega

theorem uuEncodeLine_spec {memory bytes after output : Bytes} {input : Nat}
    {len : UInt8} (length : bytes.length = len.toNat) (nonempty : 0 < bytes.length)
    (short : bytes.length ≤ 45) (pointed : memory.drop input = bytes ++ after)
    (readable : 3 * groups bytes.length ≤ bytes.length + after.length)
    (fits : 64 ≤ output.length) :
    ∃ line, IsLine bytes line ∧
      uuEncodeLine memory input output len =
        .ok (1, splice output 0 (line ++ [0])) := by
  have isLine := isLine_encodedLine length nonempty short pointed readable
  have groupsSmall := groups_le short
  have pointedLength := congrArg List.length pointed
  rw [List.length_drop, List.length_append] at pointedLength
  refine ⟨_, isLine, uuEncodeLine_eq ?nonzero ?short ?inside ?room⟩
  case nonzero =>
    rintro rfl
    exact absurd length (Nat.ne_of_gt nonempty)
  case short =>
    rw [UInt8.le_iff_toNat_le, ← length]
    exact short
  case inside =>
    rw [← length]
    unfold groups at readable ⊢
    omega
  case room =>
    rw [← length]
    omega

theorem decodedGroup_length {memory : Bytes} {input i : Nat}
    (readable : input + (4 * i + 4) < memory.length) :
    (decode ((memory.drop (input + (4 * i + 1))).take 4)).length = 3 := by
  have length : ((memory.drop (input + (4 * i + 1))).take 4).length = 4 * 1 := by
    rw [List.length_take, List.length_drop]
    omega
  exact decode_length length

/-- A group that can be read is decoded when its three bytes fit. -/
theorem uuDecodeBase_of_readable {memory : Bytes} {input : Nat}
    (readable : input + 3 < memory.length) (output : Bytes) (position : Nat) :
    uuDecodeBase memory input output position =
      if position + 3 ≤ output.length then
        .ok (splice output position (decode ((memory.drop input).take 4)))
      else .error .bufferOverflow := by
  obtain ⟨in0, in1, in2, in3, rest, pointed, load0, load1, load2, load3⟩ :=
    four_bytes (Nat.succ_le_of_lt readable)
  have group : decode ((memory.drop input).take 4) = decodeGroup in0 in1 in2 in3 := by
    rw [pointed]
    simp [decode]
  unfold uuDecodeBase
  rw [load0, load1, load2, load3, group, ← decodedBytes_eq_decodeGroup]
  simp only [bind, Except.bind]
  generalize uuDecodeByte in0 <<< 2 + (uuDecodeByte in1 &&& 0x30) >>> 4 = first,
    (uuDecodeByte in1 &&& 0x0F) <<< 4 + (uuDecodeByte in2 &&& 0x3C) >>> 2 = second,
    (uuDecodeByte in2 &&& 0x03) <<< 6 + (uuDecodeByte in3 &&& 0x3F) = third
  rcases Nat.lt_or_ge position output.length with firstFits | full
  · have firstRoom : position + [first].length ≤ output.length := firstFits
    have behindFirst : store (splice output position [first]) (position + 1) [second] =
        store output position [first, second] := store_splice firstRoom [second]
    rw [store_of_le firstRoom]
    dsimp only
    rw [behindFirst]
    rcases Nat.lt_or_ge (position + 1) output.length with secondFits | full
    · have secondRoom : position + [first, second].length ≤ output.length := secondFits
      have behindSecond : store (splice output position [first, second]) (position + 2) [third] =
          store output position [first, second, third] := store_splice secondRoom [third]
      rw [store_of_le secondRoom]
      dsimp only
      rw [behindSecond]
      rfl
    · rw [store_of_lt (Nat.lt_succ_of_le full), if_neg (by omega)]
  · rw [store_of_lt (Nat.lt_succ_of_le full), if_neg (by omega)]

/-- A group overflows at a byte whose characters can be read. -/
theorem uuDecodeBase_overflow_iff {memory output : Bytes} {input position : Nat} :
    uuDecodeBase memory input output position = .error .bufferOverflow ↔
      ∃ byte < 3, input + byte + 1 < memory.length ∧ output.length ≤ position + byte := by
  rcases Nat.lt_or_ge (input + 3) memory.length with readable | short
  · rw [uuDecodeBase_of_readable readable]
    split
    · next room =>
        simp only [reduceCtorEq, false_iff]
        rintro ⟨byte, below, -, overflow⟩
        omega
    · next noRoom =>
        simp only [true_iff]
        exact ⟨2, by omega, by omega, by omega⟩
  · have unread3 : loadByte memory (input + 3) = .error .outOfBounds := loadByte_of_le short
    unfold uuDecodeBase
    rcases Nat.lt_or_ge (input + 1) memory.length with pair | noPair
    · obtain ⟨in0, load0⟩ := loadByte_of_lt (Nat.lt_of_succ_lt pair)
      obtain ⟨in1, load1⟩ := loadByte_of_lt pair
      rw [load0, load1]
      simp only [bind, Except.bind]
      generalize uuDecodeByte in0 <<< 2 + (uuDecodeByte in1 &&& 0x30) >>> 4 = first
      rcases Nat.lt_or_ge position output.length with firstFits | full
      · have firstRoom : position + [first].length ≤ output.length := firstFits
        rw [store_of_le firstRoom]
        rcases Nat.lt_or_ge (input + 2) memory.length with triple | noTriple
        · obtain ⟨in2, load2⟩ := loadByte_of_lt triple
          rw [load2, unread3]
          simp only []
          generalize (uuDecodeByte in1 &&& 0x0F) <<< 4 + (uuDecodeByte in2 &&& 0x3C) >>> 2 = second
          have behindFirst : store (splice output position [first]) (position + 1) [second] =
              store output position [first, second] := store_splice firstRoom [second]
          rw [behindFirst]
          rcases Nat.lt_or_ge (position + 1) output.length with secondFits | full
          · have secondRoom : position + [first, second].length ≤ output.length := secondFits
            rw [store_of_le secondRoom]
            simp only [Except.error.injEq, reduceCtorEq, false_iff]
            rintro ⟨byte, below, read, overflow⟩
            omega
          · rw [store_of_lt (Nat.lt_succ_of_le full)]
            simp only [true_iff]
            exact ⟨1, by omega, triple, full⟩
        · have unread2 : loadByte memory (input + 2) = .error .outOfBounds :=
            loadByte_of_le noTriple
          rw [unread2]
          simp only [Except.error.injEq, reduceCtorEq, false_iff]
          rintro ⟨byte, below, read, overflow⟩
          omega
      · rw [store_of_lt (Nat.lt_succ_of_le full)]
        simp only [true_iff]
        exact ⟨0, by omega, pair, full⟩
    · have unread1 : loadByte memory (input + 1) = .error .outOfBounds := loadByte_of_le noPair
      have fails : ¬ ∃ byte < 3, input + byte + 1 < memory.length ∧
          output.length ≤ position + byte := by
        rintro ⟨byte, below, read, -⟩
        omega
      rw [unread1, iff_false_right fails]
      rcases Nat.lt_or_ge input memory.length with inside | outside
      · obtain ⟨in0, load0⟩ := loadByte_of_lt inside
        rw [load0]
        exact Except.error.inj.mt Fault.noConfusion
      · rw [loadByte_of_le outside]
        exact Except.error.inj.mt Fault.noConfusion

/-- Decoding a group returns only when it can be read and its bytes fit. -/
theorem uuDecodeBase_returns {memory output final : Bytes} {input position : Nat}
    (returned : uuDecodeBase memory input output position = .ok final) :
    input + 3 < memory.length ∧ position + 3 ≤ output.length ∧
      final = splice output position (decode ((memory.drop input).take 4)) := by
  have readable : input + 3 < memory.length := by
    by_contra short
    have unread3 : loadByte memory (input + 3) = .error .outOfBounds :=
      loadByte_of_le (Nat.le_of_not_lt short)
    obtain ⟨_, -, afterFirst⟩ := FaultingRuns.steps_of_bind_eq_ok returned
    obtain ⟨_, -, afterSecond⟩ := FaultingRuns.steps_of_bind_eq_ok afterFirst
    obtain ⟨_, -, afterStore⟩ := FaultingRuns.steps_of_bind_eq_ok afterSecond
    obtain ⟨_, -, afterThird⟩ := FaultingRuns.steps_of_bind_eq_ok afterStore
    obtain ⟨_, -, afterSecondStore⟩ := FaultingRuns.steps_of_bind_eq_ok afterThird
    obtain ⟨_, load3, -⟩ := FaultingRuns.steps_of_bind_eq_ok afterSecondStore
    cases unread3.symm.trans load3
  rw [uuDecodeBase_of_readable readable] at returned
  split_ifs at returned with room
  exact ⟨readable, room, (Except.ok.inj returned).symm⟩

/-- The loop writes the decoding of the groups that are left. -/
theorem uuDecodeLoop_of_drop {memory characters after : Bytes}
    {input position remaining i : Nat} {output : Bytes}
    (length : characters.length = 4 * remaining)
    (pointed : memory.drop (input + (4 * i + 1)) = characters ++ after)
    (fits : position + 3 * i + 3 * remaining ≤ output.length) :
    uuDecodeLoop memory input position remaining i output =
      .ok (splice output (position + 3 * i) (decode characters)) := by
  induction remaining generalizing i characters output with
  | zero =>
      obtain rfl : characters = [] := List.eq_nil_of_length_eq_zero length
      simp [uuDecodeLoop, decode]
  | succ remaining ih =>
      have readable : input + (4 * i + 4) < memory.length := by
        have total := congrArg List.length pointed
        rw [List.length_drop, List.length_append] at total
        omega
      have group : (memory.drop (input + (4 * i + 1))).take 4 = characters.take 4 := by
        rw [pointed, List.take_append_of_le_length (by omega)]
      have groupLength := decodedGroup_length readable
      rw [group] at groupLength
      have split : decode characters =
          decode (characters.take 4) ++ decode (characters.drop 4) := by
        have one : (characters.take 4).length = 4 * 1 := by
          rw [List.length_take]
          omega
        rw [← decode_append one, List.take_append_drop]
      have restLength : (characters.drop 4).length = 4 * remaining := by
        rw [List.length_drop]
        omega
      have restPointed : memory.drop (input + (4 * (i + 1) + 1)) =
          characters.drop 4 ++ after := by
        have shifted : input + (4 * (i + 1) + 1) = input + (4 * i + 1) + 4 := by omega
        rw [shifted, ← List.drop_drop, pointed, List.drop_append_of_le_length (by omega)]
      have outputLength :
          (splice output (position + 3 * i) (decode (characters.take 4))).length =
            output.length :=
        splice_length (by omega)
      have nextPosition : position + 3 * (i + 1) =
          position + 3 * i + (decode (characters.take 4)).length := by omega
      have decoded : uuDecodeBase memory (input + (4 * i + 1)) output (position + 3 * i) =
          .ok (splice output (position + 3 * i) (decode (characters.take 4))) := by
        rw [uuDecodeBase_of_readable (by omega), if_pos (by omega), group]
      unfold uuDecodeLoop
      rw [decoded]
      simp only [bind, Except.bind]
      rw [ih restLength restPointed (by omega), nextPosition, splice_splice (by omega), split]

end OnlineProgram
