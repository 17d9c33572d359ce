import OnlineProgram.ByteStrings

/-!
# Sums of bytes

A sum of bytes is a weak checksum.  This file says which sums can be reached
with a number of bytes, and when the sum is enough to know the bytes.
-/

namespace OnlineProgram.ByteStrings

/-- Every sum that is not too large is the sum of some bytes. -/
theorem exists_byteSum {count sum : Nat} (reachable : sum ≤ 255 * count) :
    ∃ bytes : Bytes, bytes.length = count ∧ byteSum bytes = sum := by
  induction count generalizing sum with
  | zero => exact ⟨[], rfl, by simp [byteSum]; omega⟩
  | succ count ih =>
      have restReachable : sum - min sum 255 ≤ 255 * count := by omega
      obtain ⟨rest, length, restSum⟩ := ih restReachable
      have head : (min sum 255).toUInt8.toNat = min sum 255 := by
        simp [Nat.toUInt8]
      refine ⟨(min sum 255).toUInt8 :: rest, by simp [length], ?_⟩
      rw [byteSum_cons, head, restSum]
      omega

theorem eq_replicate_of_byteSum_eq_zero {bytes : Bytes} (zero : byteSum bytes = 0) :
    bytes = List.replicate bytes.length 0 := by
  induction bytes with
  | nil => rfl
  | cons byte bytes ih =>
      rw [byteSum_cons] at zero
      have byteZero : byte = 0 := UInt8.toNat_inj.mp (by simp; omega)
      rw [List.length_cons, List.replicate_succ, ← ih (by omega), byteZero]

theorem eq_replicate_of_le_byteSum {bytes : Bytes} (large : 255 * bytes.length ≤ byteSum bytes) :
    bytes = List.replicate bytes.length 255 := by
  induction bytes with
  | nil => rfl
  | cons byte bytes ih =>
      have byteSmall := byte.toNat_lt
      have restSmall := byteSum_le bytes
      rw [byteSum_cons, List.length_cons] at large
      have byteFull : byte = 255 := UInt8.toNat_inj.mp (by simp; omega)
      rw [List.length_cons, List.replicate_succ, ← ih (by omega), byteFull]

/-- Bytes are known by their number and their sum when there is at most one of
them, or all are as small or as large as can be. -/
theorem byteSum_determines_iff {count sum : Nat} :
    (∀ first second : Bytes, first.length = count → second.length = count →
        byteSum first = sum → byteSum second = sum → first = second) ↔
      count ≤ 1 ∨ sum = 0 ∨ 255 * count ≤ sum := by
  constructor
  · intro determined
    by_contra free
    obtain ⟨rest, restLength, restSum⟩ :=
      exists_byteSum (Nat.min_le_right (sum - 1) (255 * (count - 2)))
    obtain ⟨pair, pairEq⟩ : ∃ pair, pair = sum - min (sum - 1) (255 * (count - 2)) :=
      ⟨_, rfl⟩
    have large : (min pair 255).toUInt8.toNat = min pair 255 := by
      simp [Nat.toUInt8]
    have small : (pair - min pair 255).toUInt8.toNat = pair - min pair 255 := by
      simp [Nat.toUInt8]
      omega
    have same := determined ((min pair 255).toUInt8 :: (pair - min pair 255).toUInt8 :: rest)
      ((pair - min pair 255).toUInt8 :: (min pair 255).toUInt8 :: rest)
      (by simp [restLength]; omega) (by simp [restLength]; omega)
      (by simp only [byteSum_cons, large, small, restSum]; omega)
      (by simp only [byteSum_cons, large, small, restSum]; omega)
    have heads := congrArg UInt8.toNat (List.cons.inj same).1
    rw [large, small] at heads
    omega
  · rintro few first second firstLength secondLength firstSum secondSum
    rcases few with single | none | all
    · rcases Nat.le_one_iff_eq_zero_or_eq_one.mp single with rfl | rfl
      · rw [List.eq_nil_of_length_eq_zero firstLength,
          List.eq_nil_of_length_eq_zero secondLength]
      · obtain ⟨byte, rfl⟩ := List.length_eq_one_iff.mp firstLength
        obtain ⟨other, rfl⟩ := List.length_eq_one_iff.mp secondLength
        rw [byteSum_cons] at firstSum secondSum
        have sameByte : byte = other := UInt8.toNat_inj.mp (by omega)
        rw [sameByte]
    · rw [eq_replicate_of_byteSum_eq_zero (firstSum.trans none),
        eq_replicate_of_byteSum_eq_zero (secondSum.trans none), firstLength, secondLength]
    · have firstAll : 255 * first.length ≤ byteSum first := by rw [firstLength, firstSum]; exact all
      have secondAll : 255 * second.length ≤ byteSum second := by
        rw [secondLength, secondSum]
        exact all
      rw [eq_replicate_of_le_byteSum firstAll, eq_replicate_of_le_byteSum secondAll,
        firstLength, secondLength]

end OnlineProgram.ByteStrings
