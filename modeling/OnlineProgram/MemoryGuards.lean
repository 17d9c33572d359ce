import OnlineProgram.ReadBack
import OnlineProgram.ResultCodes

/-!
# The memory that the guards let through

The guards of `ISP_WriteToRAM`, `ISP_copyToFlash` and `ISP_readMemory` look at
the first address, at its alignment and at the size, each for itself.  This file
shows which calls they turn away, and which calls with bytes behind the end of a
region they let through.
-/

namespace OnlineProgram

open ByteStrings CMemory SerialLink

variable {σ α β : Type}

/-- A call comes back with `RET_CODE_PARAM_ILLEGAL`. -/
def TurnedAway (result : Except Fault (RetCode × α)) : Prop :=
  ∃ final, result = .ok (.paramIllegal, final)

theorem turnedAway_bind_iff {result : Except Fault β} {next : β → Except Fault (RetCode × α)} :
    TurnedAway (result.bind next) ↔ ∃ value, result = .ok value ∧ TurnedAway (next value) := by
  cases result with
  | error fault => simp [TurnedAway, Except.bind]
  | ok value => simp [TurnedAway, Except.bind]

theorem not_turnedAway {code : RetCode} {final : α} (legal : code ≠ .paramIllegal) :
    ¬ TurnedAway (.ok (code, final)) := by
  rintro ⟨other, same⟩
  exact legal (Prod.mk.inj (Except.ok.inj same)).1

theorem turnedAway_paramIllegal (final : α) : TurnedAway (.ok (.paramIllegal, final)) :=
  ⟨final, rfl⟩

/-- Waiting for an answer has other results. -/
theorem ispAwait_ne_paramIllegal {timeoutUs : Nat} {expected : Bytes} {isp final : Isp σ}
    {ret : RetCode} (awaited : ispAwait timeoutUs expected isp = .ok (ret, final)) :
    ret ≠ .paramIllegal := by
  unfold ispAwait at awaited
  cases hears : ispGetResp timeoutUs isp with
  | error fault => simp [hears, bind, Except.bind] at awaited
  | ok heard =>
      simp only [hears, bind, Except.bind] at awaited
      split_ifs at awaited
      · simp only [Except.ok.injEq, Prod.mk.injEq] at awaited
        rw [← awaited.1]
        decide
      · cases search : strstr heard.2.ispRecvBuf 0 expected with
        | error fault => simp [search] at awaited
        | ok found =>
            simp only [search, Except.ok.injEq, Prod.mk.injEq] at awaited
            rw [← awaited.1]
            split_ifs <;> decide

theorem not_turnedAway_ispAwait (timeoutUs : Nat) (expected : Bytes) (isp : Isp σ) :
    ¬ TurnedAway (ispAwait timeoutUs expected isp) := by
  rintro ⟨final, awaited⟩
  exact ispAwait_ne_paramIllegal awaited rfl

section Calls

variable (peer : Peer σ)

theorem ispWriteToRAM_turnedAway_iff (malloc : Nat → Option Bytes) (startAddr size : UInt32)
    (data : Bytes) (isp : Isp σ) :
    TurnedAway (ispWriteToRAM peer malloc startAddr size data isp) ↔
      ¬ WriteAccepted startAddr size := by
  unfold ispWriteToRAM WriteAccepted
  split
  · next accepted =>
    refine iff_of_false ?_ (not_not.mpr accepted)
    simp only [bind, turnedAway_bind_iff]
    rintro ⟨cmdStr, -, ⟨ret, answered⟩, awaited, away⟩
    by_cases acknowledged : ret = .success
    · simp only [acknowledged, ne_eq, not_true_eq_false, if_false] at away
      cases allocated : malloc 64 with
      | none =>
          rw [allocated] at away
          exact not_turnedAway (by decide) away
      | some block =>
          simp only [allocated, turnedAway_bind_iff] at away
          obtain ⟨_, _, _, _, _, _, last⟩ := away
          exact not_turnedAway_ispAwait _ _ _ last
    · rw [if_pos acknowledged] at away
      exact not_turnedAway (ispAwait_ne_paramIllegal awaited) away
  · next refused => exact iff_of_true (turnedAway_paramIllegal isp) refused

theorem ispCopyToFlash_turnedAway_iff (dst src : UInt32) (size : UInt16) (isp : Isp σ) :
    TurnedAway (ispCopyToFlash peer dst src size isp) ↔
      ¬ (CodedCommand.copyToFlash dst src size).Accepted := by
  unfold ispCopyToFlash CodedCommand.Accepted
  split
  · next accepted =>
    refine iff_of_false ?_ (not_not.mpr accepted)
    simp only [bind, turnedAway_bind_iff]
    rintro ⟨⟨ret, prepared⟩, prepares, away⟩
    split_ifs at away with done
    · obtain ⟨_, -, last⟩ := turnedAway_bind_iff.mp away
      exact not_turnedAway_ispAwait _ _ _ last
    · refine not_turnedAway ?_ away
      rintro rfl
      unfold ispPrepareSectors ispSectors at prepares
      rw [if_neg (by decide)] at prepares
      have sectors : TurnedAway (Except.ok (RetCode.paramIllegal, prepared)) :=
        turnedAway_paramIllegal prepared
      rw [← prepares] at sectors
      obtain ⟨_, -, last⟩ := turnedAway_bind_iff.mp sectors
      exact not_turnedAway_ispAwait _ _ _ last
  · next refused => exact iff_of_true (turnedAway_paramIllegal isp) refused

theorem ispReadMemory_turnedAway_iff (addr size : UInt32) (data : Bytes) (isp : Isp σ) :
    TurnedAway (ispReadMemory peer addr size data isp) ↔ ¬ ReadAccepted addr size := by
  unfold ispReadMemory ReadAccepted
  split
  · next accepted =>
    refine iff_of_false ?_ (not_not.mpr accepted)
    simp only [bind, turnedAway_bind_iff]
    rintro ⟨cmdStr, -, ⟨count, answered⟩, -, away⟩
    dsimp only at away
    by_cases silent : count ≤ 0
    · rw [if_pos silent] at away
      exact not_turnedAway (by decide) away
    · rw [if_neg silent] at away
      obtain ⟨found, -, away⟩ := turnedAway_bind_iff.mp away
      cases found with
      | none => exact not_turnedAway (by decide) away
      | some p =>
          simp only [turnedAway_bind_iff] at away
          obtain ⟨_, -, _, -, behind, -, away⟩ := away
          cases behind with
          | none =>
              obtain ⟨final, fault⟩ := away
              cases fault
          | some q =>
              obtain ⟨_, -, away⟩ := turnedAway_bind_iff.mp away
              split_ifs at away
              · exact not_turnedAway (by decide) away
              · exact not_turnedAway (by decide) away
  · next refused => exact iff_of_true (turnedAway_paramIllegal _) refused

end Calls

/-- The calls of `ISP_WriteToRAM` that pass with bytes behind the end of RAM:
those within the last 15 blocks of 32 bytes, for more than the blocks left. -/
def WriteOverruns (startAddr size : UInt32) : Prop :=
  ∃ k, 1 ≤ k ∧ k ≤ 15 ∧ startAddr.toNat = 0x10002000 - 32 * k ∧ size.toNat % 4 = 0 ∧
    32 * k < size.toNat ∧ size.toNat ≤ 512

/-- The calls of `ISP_copyToFlash` that pass with bytes behind the end of a
region: to the last 15 blocks of 256 bytes of flash, for more than the blocks
left, or from the end of RAM, for more than the bytes left. -/
def CopyOverruns (dst src : UInt32) (size : UInt16) : Prop :=
  size.toNat ∈ [256, 512, 1024, 4096] ∧
    ∃ blocks bytes, 1 ≤ blocks ∧ blocks ≤ 256 ∧ dst.toNat = 0x10000 - 256 * blocks ∧
      1 ≤ bytes ∧ bytes ≤ 8192 ∧ src.toNat = 0x10002000 - bytes ∧
      (256 * blocks < size.toNat ∨ bytes < size.toNat)

/-- The calls of `ISP_readMemory` that pass with bytes behind the end of a
region: those from its last bytes, for more than the bytes left. -/
def ReadOverruns (addr size : UInt32) : Prop :=
  ∃ k, 1 ≤ k ∧ (addr.toNat = 0x10000 - k ∨ addr.toNat = 0x10002000 - k) ∧ k < size.toNat ∧
    size.toNat % 4 = 0 ∧ size.toNat ≤ 8192

open ChipMemory

theorem writeAccepted_inRam_iff (startAddr size : UInt32) :
    (WriteAccepted startAddr size → InRam startAddr.toNat size.toNat) ↔
      ¬ WriteOverruns startAddr size := by
  unfold WriteAccepted WriteOverruns checkRamAddr InRam ramEndAddress ramStartAddress ramSize
    ispMaxSizeWrite
  constructor
  · rintro inside ⟨k, atLeast, atMost, start, words, behind, short⟩
    have := inside ⟨by omega, by omega, words, by omega, short⟩
    omega
  · rintro noOverrun ⟨inRam, aligned, words, positive, short⟩
    refine ⟨inRam.1, ?_⟩
    by_contra behind
    exact noOverrun ⟨(0x10002000 - startAddr.toNat) / 32, by omega, by omega, by omega, words,
      by omega, short⟩

theorem copyAccepted_inside_iff (dst src : UInt32) (size : UInt16) :
    ((CodedCommand.copyToFlash dst src size).Accepted →
        InFlash dst.toNat size.toNat ∧ InRam src.toNat size.toNat) ↔
      ¬ CopyOverruns dst src size := by
  have sizes : (size = 256 ∨ size = 512 ∨ size = 1024 ∨ size = 4096) ↔
      size.toNat ∈ [256, 512, 1024, 4096] := by
    simp [← UInt16.toNat_inj]
  unfold CodedCommand.Accepted CopyOverruns checkFlashAddr checkRamAddr InFlash InRam
    flashEndAddress flashStartAddress ramEndAddress ramStartAddress ramSize flashSize sectorNum
    sectorSize
  simp only [sizes]
  constructor
  · rintro inside ⟨size, blocks, bytes, someBlocks, -, dstEq, someBytes, fewBytes, srcEq, behind⟩
    have := inside ⟨by omega, by omega, by omega, size⟩
    omega
  · rintro noOverrun ⟨inFlash, inRam, aligned, size⟩
    by_contra behind
    exact noOverrun ⟨size, (0x10000 - dst.toNat) / 256, 0x10002000 - src.toNat, by omega,
      by omega, by omega, by omega, by omega, by omega, by omega⟩

theorem readAccepted_inside_iff (addr size : UInt32) :
    (ReadAccepted addr size →
        InFlash addr.toNat size.toNat ∨ InRam addr.toNat size.toNat) ↔
      ¬ ReadOverruns addr size := by
  unfold ReadAccepted ReadOverruns checkFlashAddr checkRamAddr InFlash InRam flashEndAddress
    flashStartAddress ramEndAddress ramStartAddress ramSize flashSize sectorNum sectorSize
  constructor
  · rintro inside ⟨k, some, start, behind, words, short⟩
    have := inside ⟨by omega, words, by omega, by omega, short⟩
    omega
  · rintro noOverrun ⟨inMemory, words, positive, -, short⟩
    by_contra behind
    rcases inMemory with inFlash | inRam
    · exact noOverrun ⟨0x10000 - addr.toNat, by omega, by omega, by omega, words, short⟩
    · exact noOverrun ⟨0x10002000 - addr.toNat, by omega, by omega, by omega, words, short⟩

/-- When a call that is not turned away is for memory that exists: except for
the overrunning ones, always. -/
theorem commands_inside_iff (peer : Peer σ) (malloc : Nat → Option Bytes) (data : Bytes)
    (isp : Isp σ) :
    (∀ startAddr size : UInt32,
      (¬ TurnedAway (ispWriteToRAM peer malloc startAddr size data isp) →
          InRam startAddr.toNat size.toNat) ↔
        ¬ WriteOverruns startAddr size) ∧
    (∀ (dst src : UInt32) (size : UInt16),
      (¬ TurnedAway (ispCopyToFlash peer dst src size isp) →
          InFlash dst.toNat size.toNat ∧ InRam src.toNat size.toNat) ↔
        ¬ CopyOverruns dst src size) ∧
    ∀ addr size : UInt32,
      (¬ TurnedAway (ispReadMemory peer addr size data isp) →
          InFlash addr.toNat size.toNat ∨ InRam addr.toNat size.toNat) ↔
        ¬ ReadOverruns addr size := by
  refine ⟨fun startAddr size => ?_, fun dst src size => ?_, fun addr size => ?_⟩
  · rw [ispWriteToRAM_turnedAway_iff, not_not]
    exact writeAccepted_inRam_iff startAddr size
  · rw [ispCopyToFlash_turnedAway_iff, not_not]
    exact copyAccepted_inside_iff dst src size
  · rw [ispReadMemory_turnedAway_iff, not_not]
    exact readAccepted_inside_iff addr size

/-- A block for the last 32 bytes of RAM is written. -/
theorem not_inRam_lastBlock :
    ¬ TurnedAway (ispWriteToRAM (replyPeer (ascii "0\r\n")) (fun _ => none) 0x10001FE0 512
        (List.replicate 512 0) quietIsp) ∧
      ¬ InRam (0x10001FE0 : UInt32).toNat (512 : UInt32).toNat := by
  rw [ispWriteToRAM_turnedAway_iff]
  decide

end OnlineProgram
