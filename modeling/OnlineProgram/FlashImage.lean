import Mathlib.Data.List.GetD
import OnlineProgram.CMemory

/-!
# The flash image of a bin file

A bin file goes to flash in blocks of 512 bytes, padded with `0xFF`.  The boot
ROM of the target wants the first eight words of the image to sum to zero, so
the eighth is replaced by the two's complement of the sum of the others.  The
first part of this file says which image that is; the second follows the loop
of the program that patches the first block.
-/

namespace OnlineProgram

open ByteStrings CMemory

/-- The value of bytes, the least significant first. -/
def littleEndian (bytes : Bytes) : Nat :=
  Nat.ofDigits 256 (bytes.map UInt8.toNat)

/-- The four bytes of a 32-bit value, the least significant first. -/
def littleEndianBytes (value : Nat) : Bytes :=
  (List.range 4).map fun index => (value / 256 ^ index).toUInt8

/-- Word `index` of an image. -/
def imageWord (image : Bytes) (index : Nat) : Nat :=
  littleEndian ((image.drop (4 * index)).take 4)

/-- The two's complement of the sum of the first seven words. -/
def vectorChecksum (image : Bytes) : Nat :=
  (2 ^ 32 - ((List.range 7).map (imageWord image)).sum % 2 ^ 32) % 2 ^ 32

/-- The number of blocks of a file. -/
def blockCount (length : Nat) : Nat :=
  (length + 511) / 512

/-- The size of the last block. -/
def lastBlockSize (length : Nat) : Nat :=
  if length % 512 = 0 then 512 else length % 512

/-- The file, padded to whole blocks. -/
def paddedFile (content : Bytes) : Bytes :=
  content ++ List.replicate (512 * blockCount content.length - content.length) 0xFF

/-- An image with the checksum in its eighth word. -/
def withVectorChecksum (image : Bytes) : Bytes :=
  splice image 0x1C (littleEndianBytes (vectorChecksum image))

def flashImage (content : Bytes) : Bytes :=
  withVectorChecksum (paddedFile content)

theorem blockCount_eq (length : Nat) :
    length / 512 + (if length % 512 ≠ 0 then 1 else 0) = blockCount length := by
  unfold blockCount
  split <;> omega

theorem blockCount_bounds {length : Nat} (nonempty : 0 < length) :
    512 * (blockCount length - 1) < length ∧ length ≤ 512 * blockCount length := by
  unfold blockCount
  omega

theorem lastBlockSize_eq {length : Nat} (nonempty : 0 < length) :
    lastBlockSize length = length - 512 * (blockCount length - 1) := by
  unfold lastBlockSize blockCount
  split <;> omega

theorem littleEndianBytes_length (value : Nat) : (littleEndianBytes value).length = 4 := by
  simp [littleEndianBytes]

theorem paddedFile_length (content : Bytes) :
    (paddedFile content).length = 512 * blockCount content.length := by
  have enough : content.length ≤ 512 * blockCount content.length := by
    unfold blockCount
    omega
  simp [paddedFile]
  omega

/-- The first seven words are in the first 28 bytes. -/
theorem vectorWords_append {image : Bytes} (after : Bytes) (length : 28 ≤ image.length) :
    (List.range 7).map (imageWord (image ++ after)) = (List.range 7).map (imageWord image) := by
  apply List.map_congr_left
  intro index member
  have inRange : index < 7 := List.mem_range.mp member
  unfold imageWord
  rw [List.drop_append_of_le_length (by omega),
    List.take_append_of_le_length (by simp; omega)]

/-- The checksum looks at the first 28 bytes only. -/
theorem vectorChecksum_append {image : Bytes} (after : Bytes) (length : 28 ≤ image.length) :
    vectorChecksum (image ++ after) = vectorChecksum image := by
  unfold vectorChecksum
  rw [vectorWords_append after length]

theorem withVectorChecksum_append {image : Bytes} (after : Bytes)
    (length : 32 ≤ image.length) :
    withVectorChecksum (image ++ after) = withVectorChecksum image ++ after := by
  have checksumLength := littleEndianBytes_length (vectorChecksum image)
  unfold withVectorChecksum splice
  rw [vectorChecksum_append after (by omega), checksumLength,
    List.take_append_of_le_length (by omega), List.drop_append_of_le_length (by omega)]
  simp

theorem withVectorChecksum_length {image : Bytes} (length : 32 ≤ image.length) :
    (withVectorChecksum image).length = image.length := by
  apply splice_length
  rw [littleEndianBytes_length]
  omega

theorem flashImage_length {content : Bytes} (nonempty : 0 < content.length) :
    (flashImage content).length = 512 * blockCount content.length := by
  have length := paddedFile_length content
  unfold flashImage
  rw [withVectorChecksum_length _, length]
  rw [length]
  unfold blockCount
  omega

/-- A block of an image. -/
def imageBlock (image : Bytes) (index : Nat) : Bytes :=
  (image.drop (512 * index)).take 512

theorem imageBlock_length {image : Bytes} {index : Nat}
    (inside : 512 * index + 512 ≤ image.length) :
    (imageBlock image index).length = 512 := by
  simp [imageBlock]
  omega

theorem imageBlock_getD {image : Bytes} {index offset : Nat} (inside : offset < 512)
    (other : UInt8) :
    (imageBlock image index).getD offset other =
      image.getD (512 * index + offset) other := by
  simp [imageBlock, List.getD_eq_getElem?_getD, inside]

/-- A block before the last is a block of the file. -/
theorem imageBlock_paddedFile_inner {content : Bytes} {index : Nat}
    (inside : 512 * index + 512 ≤ content.length) :
    imageBlock (paddedFile content) index = (content.drop (512 * index)).take 512 := by
  unfold imageBlock paddedFile
  rw [List.drop_append_of_le_length (by omega),
    List.take_append_of_le_length (by simp only [List.length_drop]; omega)]

/-- The last block is the rest of the file and the padding. -/
theorem imageBlock_paddedFile_last {content : Bytes} (nonempty : 0 < content.length) :
    imageBlock (paddedFile content) (blockCount content.length - 1) =
      content.drop (512 * (blockCount content.length - 1)) ++
        List.replicate (512 - lastBlockSize content.length) 0xFF := by
  have bounds := blockCount_bounds nonempty
  have lastSize := lastBlockSize_eq nonempty
  have padding : 512 * blockCount content.length - content.length =
      512 - lastBlockSize content.length := by omega
  unfold imageBlock paddedFile
  rw [padding, List.drop_append_of_le_length (by omega)]
  apply List.take_of_length_le
  simp only [List.length_append, List.length_drop, List.length_replicate]
  omega

/-- The checksum goes into the first block and leaves the others alone. -/
theorem imageBlock_withVectorChecksum {image : Bytes} (index : Nat)
    (length : 512 ≤ image.length) :
    imageBlock (withVectorChecksum image) index =
      if index = 0 then withVectorChecksum (imageBlock image 0)
      else imageBlock image index := by
  have firstLength : (image.take 512).length = 512 := List.length_take_of_le length
  have changed : withVectorChecksum image =
      withVectorChecksum (image.take 512) ++ image.drop 512 := by
    rw [← withVectorChecksum_append _ (by omega), List.take_append_drop]
  have changedLength : (withVectorChecksum (image.take 512)).length = 512 := by
    rw [withVectorChecksum_length (by omega), firstLength]
  split
  · next first =>
      subst first
      unfold imageBlock
      rw [changed, Nat.mul_zero, List.drop_zero, List.drop_zero]
      exact List.take_left' changedLength
  · next later =>
      have split : 512 * index = 512 + 512 * (index - 1) := by omega
      unfold imageBlock
      rw [changed, split, ← List.drop_drop, ← List.drop_drop,
        List.drop_left' changedLength]

/-- The loop that sums the vectors in a `uint32_t`, from byte `j` on. -/
def sumVectors (buffer : Bytes) : Nat → Nat → UInt32 → Except Fault UInt32
  | 0, _, tmp => .ok tmp
  | remaining + 1, j, tmp => do
      let byte ← loadByte buffer j
      sumVectors buffer remaining (j + 1)
        (tmp + (byte.toUInt32 <<< (j % 4 * 8).toUInt32))

/-- "modify vector at 0x1c" -/
def modifyVector (buffer : Bytes) : Except Fault Bytes := do
  let tmp ← sumVectors buffer 28 0 0
  let tmp := ~~~tmp + 1
  store buffer 28 ((List.range 4).map fun j => (tmp >>> (j * 8).toUInt32).toUInt8)

theorem shifted_eq :
    ∀ byte : UInt8,
      byte.toUInt32 <<< (0 * 8 : Nat).toUInt32 = UInt32.ofNat byte.toNat ∧
        byte.toUInt32 <<< (1 * 8 : Nat).toUInt32 = UInt32.ofNat (byte.toNat * 256) ∧
        byte.toUInt32 <<< (2 * 8 : Nat).toUInt32 = UInt32.ofNat (byte.toNat * 65536) ∧
        byte.toUInt32 <<< (3 * 8 : Nat).toUInt32 =
          UInt32.ofNat (byte.toNat * 16777216) := by
  apply forall_byte
  decide +kernel

/-- Four rounds of the loop add one word. -/
theorem sumVectors_word {buffer : Bytes} {remaining word : Nat} {tmp : UInt32}
    (inside : 4 * word + 4 ≤ buffer.length) :
    sumVectors buffer (remaining + 4) (4 * word) tmp =
      sumVectors buffer remaining (4 * (word + 1))
        (tmp + UInt32.ofNat (imageWord buffer word)) := by
  obtain ⟨byte0, byte1, byte2, byte3, rest, pointed, load0, load1, load2, load3⟩ :=
    four_bytes inside
  have load2 : loadByte buffer (4 * word + 1 + 1) = .ok byte2 := load2
  have load3 : loadByte buffer (4 * word + 1 + 1 + 1) = .ok byte3 := load3
  have shift0 : 4 * word % 4 = 0 := by omega
  have shift1 : (4 * word + 1) % 4 = 1 := by omega
  have shift2 : (4 * word + 1 + 1) % 4 = 2 := by omega
  have shift3 : (4 * word + 1 + 1 + 1) % 4 = 3 := by omega
  have value : imageWord buffer word = byte0.toNat + byte1.toNat * 256 +
      byte2.toNat * 65536 + byte3.toNat * 16777216 := by
    unfold imageWord littleEndian
    rw [pointed]
    simp only [List.take, List.map, Nat.ofDigits_cons, Nat.ofDigits_nil]
    omega
  simp only [sumVectors, load0, load1, load2, load3, bind, Except.bind, shift0, shift1,
    shift2, shift3, (shifted_eq byte0).1, (shifted_eq byte1).2.1,
    (shifted_eq byte2).2.2.1, (shifted_eq byte3).2.2.2]
  rw [value, UInt32.ofNat_add, UInt32.ofNat_add, UInt32.ofNat_add]
  simp only [UInt32.add_assoc]
  rfl

/-- The loop over whole words. -/
theorem sumVectors_words {buffer : Bytes} {count word : Nat} {tmp : UInt32}
    (inside : 4 * (word + count) ≤ buffer.length) :
    sumVectors buffer (4 * count) (4 * word) tmp =
      .ok (tmp + UInt32.ofNat
        ((List.range' word count).map (imageWord buffer)).sum) := by
  induction count generalizing word tmp with
  | zero => simp [sumVectors]
  | succ count ih =>
      rw [Nat.mul_succ, sumVectors_word (by omega), ih (by omega), List.range'_succ,
        List.map_cons, List.sum_cons, UInt32.ofNat_add, UInt32.add_assoc]

/-- Negation of a sum is its two's complement. -/
theorem toNat_not_add_one (sum : Nat) :
    (~~~(UInt32.ofNat sum) + 1).toNat = (2 ^ 32 - sum % 2 ^ 32) % 2 ^ 32 := by
  simp only [UInt32.toNat_add, UInt32.toNat_not, UInt32.toNat_ofNat', UInt32.size]
  have one : (1 : UInt32).toNat = 1 := rfl
  omega

theorem shifted_toUInt8 (tmp : UInt32) :
    ((List.range 4).map fun j => (tmp >>> (j * 8).toUInt32).toUInt8) =
      littleEndianBytes tmp.toNat := by
  apply List.map_congr_left
  intro index member
  have inRange : index < 4 := List.mem_range.mp member
  apply UInt8.toNat_inj.mp
  have shift : index * 8 % 32 = 8 * index := by omega
  simp only [Nat.toUInt8, UInt32.toNat_toUInt8, UInt32.toNat_shiftRight,
    Nat.shiftRight_eq_div_pow, Nat.toUInt32, UInt32.toNat_ofNat', UInt8.toNat_ofNat']
  rw [Nat.mod_mod_of_dvd _ (by decide), shift, Nat.pow_mul]

/-- The loop puts the checksum into the eighth word. -/
theorem modifyVector_eq {buffer : Bytes} (length : 32 ≤ buffer.length) :
    modifyVector buffer = .ok (withVectorChecksum buffer) := by
  have sum : sumVectors buffer (4 * 7) (4 * 0) 0 = .ok (0 + UInt32.ofNat
      ((List.range' 0 7).map (imageWord buffer)).sum) :=
    sumVectors_words (by omega)
  rw [UInt32.zero_add, ← List.range_eq_range'] at sum
  unfold modifyVector
  rw [sum]
  simp only [bind, Except.bind]
  rw [shifted_toUInt8, toNat_not_add_one]
  exact store_of_le (by rw [littleEndianBytes_length]; omega)

end OnlineProgram
