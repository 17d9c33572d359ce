import Mathlib.Data.Nat.Digits.Lemmas
import OnlineProgram.FlashImage

/-!
# The boot signature of an image

The boot ROM adds the first eight words of flash in 32 bits and starts the image
when the sum is zero.  This file shows that the patch of the first block reaches
that sum, that no other eighth word does, and that a patched block is patched
already.
-/

namespace OnlineProgram

open ByteStrings CMemory

/-- The sum that the boot ROM forms, a 32-bit sum of the first eight words. -/
def bootSum (image : Bytes) : Nat :=
  ((List.range 8).map (imageWord image)).sum % 2 ^ 32

theorem littleEndian_lt (bytes : Bytes) : littleEndian bytes < 256 ^ bytes.length := by
  have small := Nat.ofDigits_lt_base_pow_length (by decide : 1 < 256)
    (l := bytes.map UInt8.toNat) (by simpa using fun byte _ => byte.toNat_lt)
  simpa [littleEndian] using small

/-- Four bytes are known by their value. -/
theorem littleEndian_inj {first second : Bytes} (sameLength : first.length = second.length)
    (sameValue : littleEndian first = littleEndian second) : first = second := by
  have sameBytes : first.map UInt8.toNat = second.map UInt8.toNat := by
    apply Nat.ofDigits_inj_of_len_eq (by decide : 1 < 256)
    · simpa using sameLength
    · simpa using fun byte _ => byte.toNat_lt
    · simpa using fun byte _ => byte.toNat_lt
    · exact sameValue
  exact List.map_injective_iff.mpr (fun _ _ => UInt8.toNat_inj.mp) sameBytes

/-- A 32-bit value is recovered from its bytes. -/
theorem littleEndian_littleEndianBytes {value : Nat} (small : value < 2 ^ 32) :
    littleEndian (littleEndianBytes value) = value := by
  have byte0 : (value / 256 ^ 0).toUInt8.toNat = value % 256 := by simp [Nat.toUInt8]
  have byte1 : (value / 256 ^ 1).toUInt8.toNat = value / 256 % 256 := by simp [Nat.toUInt8]
  have byte2 : (value / 256 ^ 2).toUInt8.toNat = value / 65536 % 256 := by simp [Nat.toUInt8]
  have byte3 : (value / 256 ^ 3).toUInt8.toNat = value / 16777216 % 256 := by
    simp [Nat.toUInt8]
  simp only [littleEndian, littleEndianBytes, List.range_succ, List.range_zero, List.nil_append,
    List.map_cons, List.map_nil, List.cons_append, byte0, byte1, byte2, byte3, Nat.ofDigits_cons,
    Nat.ofDigits_nil]
  omega

theorem vectorChecksum_lt (image : Bytes) : vectorChecksum image < 2 ^ 32 :=
  Nat.mod_lt _ (by decide)

/-- A value written over another of its size. -/
theorem splice_overwrite {memory first second : Bytes} {position : Nat}
    (sameLength : first.length = second.length)
    (fits : position + first.length ≤ memory.length) :
    splice (splice memory position first) position second = splice memory position second := by
  have beforeLength : (memory.take position).length = position :=
    List.length_take_of_le (by omega)
  have writtenLength : (memory.take position ++ first).length = position + second.length := by
    rw [List.length_append, beforeLength, sameLength]
  unfold splice
  rw [List.drop_left' writtenLength, List.append_assoc (memory.take position) first,
    List.take_left' beforeLength, sameLength]

section

variable {image value : Bytes}

/-- The eighth word is out of sight of the checksum. -/
theorem vectorChecksum_splice (length : 32 ≤ image.length) :
    vectorChecksum (splice image 28 value) = vectorChecksum image := by
  have vectorsLength : (image.take 28).length = 28 := List.length_take_of_le (by omega)
  calc vectorChecksum (splice image 28 value)
      = vectorChecksum (image.take 28 ++ (value ++ image.drop (28 + value.length))) := by
        rw [splice, List.append_assoc]
    _ = vectorChecksum (image.take 28 ++ image.drop 28) := by
        rw [vectorChecksum_append _ (by omega), vectorChecksum_append _ (by omega)]
    _ = vectorChecksum image := by rw [List.take_append_drop]

/-- The sum of an image with its eighth word replaced. -/
theorem bootSum_splice (size : value.length = 4) (length : 32 ≤ image.length) :
    bootSum (splice image 28 value) =
      (((List.range 7).map (imageWord image)).sum + littleEndian value) % 2 ^ 32 := by
  have vectorsLength : (image.take 28).length = 28 := List.length_take_of_le (by omega)
  have vectors : (List.range 7).map (imageWord (splice image 28 value)) =
      (List.range 7).map (imageWord image) := by
    unfold splice
    rw [List.append_assoc, vectorWords_append _ (by omega)]
    conv => rhs; rw [← List.take_append_drop 28 image]
    rw [vectorWords_append _ (by omega)]
  have eighth : imageWord (splice image 28 value) 7 = littleEndian value := by
    unfold imageWord splice
    rw [List.append_assoc, List.drop_left' vectorsLength, List.take_left' size]
  unfold bootSum
  rw [List.range_succ, List.map_append, List.sum_append, vectors]
  simp [eighth]

/-- The checksum is the one value that brings the sum to zero. -/
theorem bootSum_splice_eq_zero_iff (size : value.length = 4) (length : 32 ≤ image.length) :
    bootSum (splice image 28 value) = 0 ↔
      value = littleEndianBytes (vectorChecksum image) := by
  have valueSmall : littleEndian value < 2 ^ 32 := by
    have small := littleEndian_lt value
    rw [size] at small
    exact small
  have checksumValue := littleEndian_littleEndianBytes (vectorChecksum_lt image)
  rw [bootSum_splice size length]
  constructor
  · intro zero
    apply littleEndian_inj (by rw [size, littleEndianBytes_length])
    rw [checksumValue]
    unfold vectorChecksum
    omega
  · rintro rfl
    rw [checksumValue]
    unfold vectorChecksum
    omega

/-- A patched image sums to zero. -/
theorem bootSum_withVectorChecksum (length : 32 ≤ image.length) :
    bootSum (withVectorChecksum image) = 0 :=
  (bootSum_splice_eq_zero_iff (littleEndianBytes_length _) length).mpr rfl

theorem withVectorChecksum_idempotent (length : 32 ≤ image.length) :
    withVectorChecksum (withVectorChecksum image) = withVectorChecksum image := by
  have checksumSize := littleEndianBytes_length (vectorChecksum image)
  have sameChecksum : vectorChecksum (withVectorChecksum image) = vectorChecksum image :=
    vectorChecksum_splice length
  calc withVectorChecksum (withVectorChecksum image)
      = splice (withVectorChecksum image) 28 (littleEndianBytes (vectorChecksum image)) := by
        rw [withVectorChecksum, sameChecksum]
    _ = withVectorChecksum image := splice_overwrite rfl (by omega)

end

/-- Every image that the program makes of a file has the boot signature. -/
theorem bootSum_flashImage {content : Bytes} (nonempty : 0 < content.length) :
    bootSum (flashImage content) = 0 := by
  apply bootSum_withVectorChecksum
  rw [paddedFile_length]
  have blocks := blockCount_bounds nonempty
  unfold blockCount at blocks ⊢
  omega

/-- The patch of the first block: the signature is reached, nothing else of the
block changes, patching again changes nothing, and no other value at offset 28
gives the signature. -/
theorem modifyVector_signature (block : Bytes) (length : block.length = 512) :
    ∃ patched, modifyVector block = .ok patched ∧
      patched.length = 512 ∧
      bootSum patched = 0 ∧
      (∀ index, index < 28 ∨ 32 ≤ index → patched[index]? = block[index]?) ∧
      modifyVector patched = .ok patched ∧
      ∀ value : Bytes, value.length = 4 → bootSum (splice block 28 value) = 0 →
        splice block 28 value = patched := by
  have enough : 32 ≤ block.length := by omega
  have checksumSize := littleEndianBytes_length (vectorChecksum block)
  have patchedLength := withVectorChecksum_length enough
  refine ⟨withVectorChecksum block, modifyVector_eq enough, by omega,
    bootSum_withVectorChecksum enough, ?outside, ?again, ?only⟩
  case outside =>
    intro index outside
    unfold withVectorChecksum
    rw [splice_getElem? index (by omega), if_neg (by omega)]
  case again =>
    rw [modifyVector_eq (by omega), withVectorChecksum_idempotent enough]
  case only =>
    intro value size zero
    rw [(bootSum_splice_eq_zero_iff size enough).mp zero]
    rfl

/-- The first block of an erased flash. -/
theorem modifyVector_signature_erased :
    ∃ patched, modifyVector (List.replicate 512 0xFF) = .ok patched ∧
      patched.length = 512 ∧
      bootSum patched = 0 ∧
      (∀ index, index < 28 ∨ 32 ≤ index →
        patched[index]? = (List.replicate 512 (0xFF : UInt8))[index]?) ∧
      modifyVector patched = .ok patched ∧
      ∀ value : Bytes, value.length = 4 →
        bootSum (splice (List.replicate 512 0xFF) 28 value) = 0 →
        splice (List.replicate 512 0xFF) 28 value = patched :=
  modifyVector_signature (List.replicate 512 0xFF) List.length_replicate

end OnlineProgram
