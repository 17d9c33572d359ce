import Mathlib.Data.List.GetD
import OnlineProgram.ProgramBinFile
import OnlineProgram.SentText

/-!
# Programming a UID

`programUID`: the sector is erased, a buffer with the UID at its place in a
block of 512 bytes is written, and the block is verified.  Its own stores stay
inside the buffer or are a fault; the commands get a pointer to it, and `behind`
is the memory that follows it there.
-/

namespace OnlineProgram

open ByteStrings CMemory SerialLink UuCoding

/-- The loop that puts the UID into the buffer, from byte `i` on. -/
def fillUid (id : Bytes) (offset : Nat) : Nat → Nat → Bytes → Except Fault Bytes
  | 0, _, buffer => .ok buffer
  | remaining + 1, i, buffer => do
      let byte ← loadByte id i
      let buffer ← store buffer (offset + i) [byte]
      fillUid id offset remaining (i + 1) buffer

variable {σ : Type} (peer : Peer σ) (malloc : Nat → Option Bytes)

/-- Programming and verifying the filled buffer. -/
def writeUidBlock (behind : Bytes) (programAddr : UInt32) (buffer : Bytes) (isp : Isp σ) :
    Except Fault (Int × Isp σ) := do
  let (ret, isp) ← ispWriteToRAM peer malloc ispWriteRamAddr 512 (buffer ++ behind) isp
  if ret ≠ .success then .ok (-4, isp)
  else do
    let (ret, isp) ← ispCopyToFlash peer programAddr ispWriteRamAddr 512 isp
    if ret ≠ .success then .ok (-5, isp)
    else do
      let checksumW ← sumBytes buffer 512
      let (ret, buffer, isp) ← ispReadMemory peer programAddr 512 (buffer ++ behind) isp
      if ret ≠ .success then .ok (-6, isp)
      else do
        let checksumR ← sumBytes buffer 512
        if checksumW ≠ checksumR then .ok (-7, isp) else .ok (0, isp)

/-- What `programUID` does with the filled buffer. -/
def programUidBlock (behind : Bytes) (sectorIndex : UInt8) (programAddr : UInt32)
    (buffer : Bytes) (isp : Isp σ) : Except Fault (Int × Isp σ) := do
  let (_, isp) ← ispUnlock peer isp
  let (ret, isp) ← ispErase peer sectorIndex sectorIndex isp
  if ret ≠ .success then .ok (-3, isp)
  else do
    let (_, isp) ← ispUnlock peer isp
    writeUidBlock peer malloc behind programAddr buffer isp

/-- `programAddr` -/
def uidProgramAddr (addr : UInt32) (size : UInt8) : UInt32 :=
  ((2 * (addr.toNat / 512) + if 512 < addr.toNat % 512 + size.toNat then 1 else 0) *
    256).toUInt32

/-- `programUID` -/
def programUid (behind : Bytes) (addr : UInt32) (id : Option Bytes) (size : UInt8)
    (isp : Isp σ) : Except Fault (Int × Isp σ) :=
  match id with
  | none => .ok (-1, isp)
  | some id =>
      if ¬ checkFlashAddr addr ∨ addr.toNat % 16 ≠ 0 ∨ size.toNat ≤ 0 then .ok (-1, isp)
      else if flashEndAddress < (addr + size.toUInt32).toNat then .ok (-2, isp)
      else do
        let buffer ← fillUid id (addr.toNat % 512) size.toNat 0 (List.replicate 512 0xFF)
        programUidBlock peer malloc behind (addr.toNat / sectorSize).toUInt8
          (uidProgramAddr addr size) buffer isp

/-- The UID goes into the buffer, if it fits. -/
theorem fillUid_eq {id : Bytes} {offset remaining i : Nat} {buffer : Bytes}
    (inside : offset + i ≤ buffer.length) (present : i + remaining ≤ id.length) :
    fillUid id offset remaining i buffer =
      if offset + i + remaining ≤ buffer.length then
        .ok (splice buffer (offset + i) ((id.drop i).take remaining))
      else .error .bufferOverflow := by
  induction remaining generalizing i buffer with
  | zero => simp [fillUid, inside]
  | succ remaining ih =>
      have here : i < id.length := by omega
      have loaded : loadByte id i = .ok id[i] := by
        unfold loadByte
        rw [List.getElem?_eq_getElem here]
      have bytes : (id.drop i).take (remaining + 1) =
          [id[i]] ++ (id.drop (i + 1)).take remaining := by
        rw [List.drop_eq_getElem_cons here, List.take_succ_cons]
        rfl
      unfold fillUid
      rw [loaded]
      simp only [bind, Except.bind]
      by_cases room : offset + i + 1 ≤ buffer.length
      · have stored : store buffer (offset + i) [id[i]] =
            .ok (splice buffer (offset + i) [id[i]]) :=
          store_of_le room
        have storedLength : (splice buffer (offset + i) [id[i]]).length = buffer.length :=
          splice_length room
        have joined : splice (splice buffer (offset + i) [id[i]]) (offset + i + 1)
            ((id.drop (i + 1)).take remaining) =
              splice buffer (offset + i) ([id[i]] ++ (id.drop (i + 1)).take remaining) :=
          splice_splice room
        have nextInside : offset + (i + 1) ≤
            (splice buffer (offset + i) [id[i]]).length := by
          rw [storedLength]
          exact room
        have nextPresent : i + 1 + remaining ≤ id.length := by omega
        rw [stored]
        simp only []
        rw [ih nextInside nextPresent, storedLength, ← Nat.add_assoc, joined, bytes]
        simp only [Nat.add_assoc, Nat.add_comm 1]
      · have overflows : store buffer (offset + i) [id[i]] = .error .bufferOverflow := by
          unfold store
          exact if_neg room
        rw [overflows, if_neg (by omega)]

/-- The block of flash that is programmed. -/
def uidBlock (addr : UInt32) (id : Bytes) : Bytes :=
  splice (List.replicate 512 0xFF) (addr.toNat % 512) id

theorem uidBlock_length {addr : UInt32} {id : Bytes}
    (fits : addr.toNat % 512 + id.length ≤ 512) : (uidBlock addr id).length = 512 := by
  unfold uidBlock
  rw [splice_length (by rw [List.length_replicate]; exact fits), List.length_replicate]

/-- The block holds the UID, and erased cells around it. -/
theorem uidBlock_getElem? {addr : UInt32} {id : Bytes} {index : Nat}
    (fits : addr.toNat % 512 + id.length ≤ 512) (inside : index < 512) :
    (uidBlock addr id)[index]? =
      if addr.toNat % 512 ≤ index ∧ index < addr.toNat % 512 + id.length then
        id[index - addr.toNat % 512]?
      else some 0xFF := by
  unfold uidBlock
  rw [splice_getElem? index (by rw [List.length_replicate]; exact fits),
    List.getElem?_replicate, if_pos inside]

theorem uidProgramAddr_toNat {addr : UInt32} {size : UInt8} (inFlash : addr.toNat < flashSize)
    (fits : addr.toNat % 512 + size.toNat ≤ 512) :
    (uidProgramAddr addr size).toNat = 512 * (addr.toNat / 512) := by
  unfold flashSize sectorNum sectorSize at inFlash
  unfold uidProgramAddr
  rw [if_neg (by omega)]
  simp [Nat.toUInt32]
  omega

section Calls

variable {peer : Peer σ} {malloc : Nat → Option Bytes} {behind : Bytes} {addr : UInt32}
  {id : Bytes} {size : UInt8} {isp : Isp σ}

/-- The address is a multiple of 16 and the size that of the UID. -/
structure UidRequest (addr : UInt32) (id : Bytes) (size : UInt8) : Prop where
  aligned : addr.toNat % 16 = 0
  positive : 0 < size.toNat
  sized : id.length = size.toNat

theorem end_toNat (size : UInt8) (start : addr.toNat < flashSize) :
    (addr + size.toUInt32).toNat = addr.toNat + size.toNat := by
  have sizeSmall := size.toNat_lt
  unfold flashSize sectorNum sectorSize at start
  rw [UInt32.toNat_add, UInt8.toNat_toUInt32]
  omega

/-- What does not end before the last byte of flash is turned away. -/
theorem programUid_of_outside (peer : Peer σ) (malloc : Nat → Option Bytes)
    (behind : Bytes) (id : Bytes) (isp : Isp σ)
    (outside : flashEndAddress < addr.toNat + size.toNat) :
    ∃ result, result < 0 ∧
      programUid peer malloc behind addr (some id) size isp = .ok (result, isp) := by
  unfold programUid
  simp only []
  by_cases refused : ¬ checkFlashAddr addr ∨ addr.toNat % 16 ≠ 0 ∨ size.toNat ≤ 0
  · rw [if_pos refused]
    exact ⟨-1, by decide, rfl⟩
  · rw [not_or, not_not] at refused
    have start : addr.toNat < flashSize := by
      have upper := refused.1.2
      unfold flashEndAddress flashStartAddress flashSize sectorNum sectorSize at upper
      unfold flashSize sectorNum sectorSize
      omega
    rw [if_neg (by rw [not_or, not_not]; exact refused), end_toNat size start,
      if_pos outside]
    exact ⟨-2, by decide, rfl⟩

/-- A UID that crosses a line of 512 bytes overruns the buffer. -/
theorem programUid_of_inside (request : UidRequest addr id size)
    (inside : addr.toNat + size.toNat ≤ flashEndAddress) :
    programUid peer malloc behind addr (some id) size isp =
      if addr.toNat % 512 + size.toNat ≤ 512 then
        programUidBlock peer malloc behind (addr.toNat / sectorSize).toUInt8
          (uidProgramAddr addr size) (uidBlock addr id) isp
      else .error .bufferOverflow := by
  have start : addr.toNat < flashSize := by
    have positive := request.positive
    unfold flashEndAddress flashStartAddress flashSize sectorNum sectorSize at inside
    unfold flashSize sectorNum sectorSize
    omega
  have notRefused : ¬ (¬ checkFlashAddr addr ∨ addr.toNat % 16 ≠ 0 ∨ size.toNat ≤ 0) := by
    have positive := request.positive
    have aligned := request.aligned
    have inFlash : checkFlashAddr addr := ⟨Nat.zero_le _, by omega⟩
    rw [not_or, not_not, not_or]
    exact ⟨inFlash, by omega, by omega⟩
  have offset : addr.toNat % 512 + 0 ≤ (List.replicate 512 (0xFF : UInt8)).length := by
    rw [List.length_replicate]
    omega
  have present : 0 + size.toNat ≤ id.length := by
    rw [request.sized]
    omega
  have whole : (id.drop 0).take size.toNat = id := by
    rw [List.drop_zero, ← request.sized, List.take_length]
  unfold programUid
  simp only []
  rw [if_neg notRefused, end_toNat size start, if_neg (by omega),
    fillUid_eq offset present, whole, List.length_replicate]
  simp only [Nat.add_zero]
  split <;> rfl

end Calls

/-- Reading a block that was copied from RAM gives what was written there. -/
theorem ChipMemory.read_copied (memory : ChipMemory) {block : Bytes} {address : Nat}
    (length : block.length = 512) (inFlash : ChipMemory.InFlash address 512) :
    ((memory.writeRam ispWriteRamAddr.toNat block).copyToFlash address
      ispWriteRamAddr.toNat 512).read address 512 = block := by
  apply List.ext_getElem
  · rw [ChipMemory.read_length, length]
  · intro offset lower upper
    rw [ChipMemory.read_length] at lower
    have inRegion : address + offset < flashSize := by
      unfold ChipMemory.InFlash at inFlash
      omega
    simp [ChipMemory.read, ChipMemory.contents, ChipMemory.copyToFlash, ChipMemory.writeRam,
      inRegion, lower, List.getElem?_eq_getElem upper]

section Target

variable {peer : Peer σ} {malloc : Nat → Option Bytes} {target : Conforming peer}

/-- The sector is erased before the block is written. -/
theorem programUidBlock_erased (malloc : Nat → Option Bytes) (behind : Bytes)
    {sectorIndex : UInt8} (programAddr : UInt32)
    (buffer : Bytes) {isp : Isp σ} (idle : target.idle isp.target) (quiet : isp.incoming = [])
    (inRange : sectorIndex.toNat < sectorNum) :
    ∃ ready, target.Ready ready ∧
      target.memory ready.target =
        (target.memory isp.target).eraseSectors sectorIndex.toNat sectorIndex.toNat ∧
      programUidBlock peer malloc behind sectorIndex programAddr buffer isp =
        writeUidBlock peer malloc behind programAddr buffer ready := by
  obtain ⟨unlocked, unlocks, unlockedReady, unlockedMemory⟩ := ispUnlock_spec idle quiet
  obtain ⟨erased, erases, erasedReady, erasedMemory⟩ :=
    ispErase_spec sectorIndex sectorIndex unlockedReady (Nat.le_refl _) inRange
  obtain ⟨ready, unlocksAgain, readyAgain, readyMemory⟩ :=
    ispUnlock_spec erasedReady.idle erasedReady.quiet
  refine ⟨ready, readyAgain, by rw [readyMemory, erasedMemory, unlockedMemory], ?_⟩
  unfold programUidBlock
  rw [unlocks]
  simp only [bind, Except.bind]
  rw [erases]
  simp only [ne_eq, not_true_eq_false, if_false]
  rw [unlocksAgain]

/-- The block is written and verified, where a byte behind the buffer can be
used. -/
theorem writeUidBlock_spec {behind block : Bytes} {programAddr : UInt32} {buffer : Bytes}
    {isp : Isp σ} (ready : target.Ready isp) (allocated : malloc 64 = some block)
    (blockLength : block.length = 64) (room : behind ≠ []) (length : buffer.length = 512)
    (inFlash : ChipMemory.InFlash programAddr.toNat 512) (aligned : programAddr.toNat % 512 = 0)
    (erased : (target.memory isp.target).Erased programAddr.toNat 512) :
    ∃ final, writeUidBlock peer malloc behind programAddr buffer isp = .ok (0, final) ∧
      target.Ready final ∧
      target.memory final.target =
        ((target.memory isp.target).writeRam ispWriteRamAddr.toNat buffer).copyToFlash
          programAddr.toNat ispWriteRamAddr.toNat 512 := by
  have behindLength : 0 < behind.length := List.length_pos_of_ne_nil room
  have inRam : ChipMemory.InRam ispWriteRamAddr.toNat 512 := by decide
  have lastGroup : 3 * groups ((512 : UInt32).toNat % 45) = 18 := by decide
  have lastLine : (512 : UInt32).toNat % 45 = 17 := by decide
  have wholeGroups : 3 * groups (512 : UInt32).toNat = 513 := by decide
  have dataLength : (buffer ++ behind).length = 512 + behind.length := by simp [length]
  obtain ⟨written, writes, writtenReady, writtenMemory⟩ :=
    ispWriteToRAM_spec 512 behind ready allocated blockLength length inRam (by decide)
      (by decide) (by decide) (by decide) (by decide) (by omega)
  have stillErased : (target.memory written.target).Erased programAddr.toNat 512 := by
    rw [writtenMemory]
    exact erased
  obtain ⟨copied, copies, copiedReady, copiedMemory⟩ :=
    ispCopyToFlash_spec 512 writtenReady inFlash inRam (by omega) (by decide) (by decide)
      stillErased
  obtain ⟨stored, final, reads, finalReady, finalMemory, storedLength, storedBlock⟩ :=
    ispReadMemory_spec 512 (buffer ++ behind) copiedReady (.inl inFlash) (by omega)
      (by decide) (by decide) (by decide) (by decide) (by omega)
      (by rw [dataLength]; exact Nat.lt_add_of_pos_right behindLength)
  have readBack : (target.memory copied.target).read programAddr.toNat 512 = buffer := by
    rw [copiedMemory, writtenMemory]
    exact ChipMemory.read_copied _ length inFlash
  have sumW : sumBytes buffer 512 = .ok (byteSum buffer) := by
    have sum := sumBytes_append [] length
    rwa [List.append_nil] at sum
  have sumR : sumBytes stored 512 = .ok (byteSum buffer) := by
    have block : stored.take 512 = buffer := storedBlock.trans readBack
    rw [← List.take_append_drop 512 stored, block]
    exact sumBytes_append _ length
  refine ⟨final, ?_, finalReady, by rw [finalMemory, copiedMemory, writtenMemory]; rfl⟩
  unfold writeUidBlock
  rw [writes]
  simp only [bind, Except.bind, ne_eq, not_true_eq_false, if_false]
  rw [copies]
  simp only [not_true_eq_false, if_false]
  rw [sumW]
  simp only []
  rw [reads]
  simp only [not_true_eq_false, if_false]
  rw [sumR]
  simp only [not_true_eq_false, if_false]

/-- The target takes the command line of the block. -/
theorem ispWrite_acknowledged {isp : Isp σ} (ready : target.Ready isp) :
    ∃ answered : Isp σ,
      ispAwait ispUartRecvTimeoutUs cmdSuccessRespStr
          (isp.clearRecvBuf.puts peer
            (requestLine 'W' [ispWriteRamAddr.toNat, (512 : UInt32).toNat])) =
        .ok (.success, answered) := by
  obtain ⟨waiting, replies, -⟩ := target.write isp.target ispWriteRamAddr.toNat
    (512 : UInt32).toNat ready.idle ready.unlocked (by decide) (by decide) (by decide)
    (by decide)
  obtain ⟨answered, await, -⟩ :=
    ispAwait_of_answer target.echo ready.quiet replies (by decide) (by simp) (by decide)
  exact ⟨answered, await⟩

/-- Without the byte behind the buffer the encoder leaves it. -/
theorem writeUidBlock_zero {behind : Bytes} {programAddr : UInt32} {buffer : Bytes}
    {isp final : Isp σ} (ready : target.Ready isp) (length : buffer.length = 512)
    (returned : writeUidBlock peer malloc behind programAddr buffer isp = .ok (0, final)) :
    malloc 64 ≠ none ∧ behind ≠ [] := by
  obtain ⟨answered, acknowledged⟩ := ispWrite_acknowledged ready
  have whole : (512 : UInt32).toNat ≤ (buffer ++ behind).length := by
    rw [List.length_append, length]
    exact Nat.le_add_right _ _
  have accepted : WriteAccepted ispWriteRamAddr 512 := by
    unfold WriteAccepted
    decide
  unfold writeUidBlock at returned
  rw [ispWriteToRAM_of_acknowledged accepted whole acknowledged] at returned
  cases allocated : malloc 64 with
  | none => simp [allocated, bind, Except.bind] at returned
  | some block =>
      refine ⟨Option.some_ne_none block, ?_⟩
      rintro rfl
      cases sends : ispSendLines peer (buffer ++ []) (lineCount (512 : UInt32).toNat)
          ((512 : UInt32).toNat % 45) (lineCount (512 : UInt32).toNat) 0 block answered with
      | error fault =>
          simp only [allocated, sends] at returned
          simp [bind, Except.bind] at returned
      | ok sent =>
          have rounds : 0 + 11 = lineCount (512 : UInt32).toNat - 1 := by decide
          obtain ⟨output, result, encodes⟩ := ispSendLines_encodes rounds sends
          have readable := uuEncodeLine_readable (by decide) (by decide) encodes
          rw [List.append_nil, length] at readable
          exact absurd readable (by decide)

/-- The flash after a UID has been programmed: its block, and behind and before
it the erased sector. -/
theorem programUid_spec {behind : Bytes} {addr : UInt32} {id : Bytes} {size : UInt8}
    {isp : Isp σ} (request : UidRequest addr id size) (idle : target.idle isp.target)
    (quiet : isp.incoming = []) {block : Bytes} (allocated : malloc 64 = some block)
    (blockLength : block.length = 64) (room : behind ≠ [])
    (fits : addr.toNat % 512 + size.toNat ≤ 512)
    (inside : addr.toNat + size.toNat ≤ flashEndAddress) :
    ∃ final, programUid peer malloc behind addr (some id) size isp = .ok (0, final) ∧
      target.Ready final ∧
      (target.memory final.target).flash = fun address =>
        if 512 * (addr.toNat / 512) ≤ address ∧ address < 512 * (addr.toNat / 512) + 512 then
          (uidBlock addr id).getD (address - 512 * (addr.toNat / 512)) 0xFF
        else if address / sectorSize = addr.toNat / sectorSize then 0xFF
        else (target.memory isp.target).flash address := by
  have start : addr.toNat < 65536 := by
    have positive := request.positive
    unfold flashEndAddress flashStartAddress flashSize sectorNum sectorSize at inside
    omega
  have programAddr := uidProgramAddr_toNat start fits
  have sector : (addr.toNat / sectorSize).toUInt8.toNat = addr.toNat / sectorSize := by
    unfold sectorSize
    simp [Nat.toUInt8]
    omega
  have inRange : (addr.toNat / sectorSize).toUInt8.toNat < sectorNum := by
    rw [sector]
    unfold sectorSize sectorNum
    omega
  have length : (uidBlock addr id).length = 512 :=
    uidBlock_length (by rw [request.sized]; exact fits)
  obtain ⟨ready, isReady, erasedMemory, erases⟩ :=
    programUidBlock_erased malloc behind (uidProgramAddr addr size)
      (uidBlock addr id) idle quiet inRange
  have inFlash : ChipMemory.InFlash (uidProgramAddr addr size).toNat 512 := by
    unfold ChipMemory.InFlash flashSize sectorNum sectorSize
    rw [programAddr]
    omega
  have erased : (target.memory ready.target).Erased (uidProgramAddr addr size).toNat 512 := by
    intro offset below
    rw [erasedMemory, sector, programAddr]
    unfold ChipMemory.eraseSectors sectorSize
    dsimp only
    rw [if_pos (by omega)]
  obtain ⟨final, writes, finalReady, finalMemory⟩ :=
    writeUidBlock_spec isReady allocated blockLength room length inFlash
      (by rw [programAddr]; omega) erased
  refine ⟨final, ?_, finalReady, ?_⟩
  · rw [programUid_of_inside request inside, if_pos fits, erases, writes]
  · rw [finalMemory, erasedMemory, programAddr, sector]
    funext address
    unfold ChipMemory.copyToFlash ChipMemory.writeRam ChipMemory.eraseSectors
    dsimp only
    split
    · next inBlock =>
        have offset : ispWriteRamAddr.toNat + (address - 512 * (addr.toNat / 512)) -
            ispWriteRamAddr.toNat = address - 512 * (addr.toNat / 512) := by omega
        rw [if_pos (Nat.le_add_right _ _), offset, List.getD_eq_getElem _ _ (by omega),
          List.getD_eq_getElem _ _ (by omega)]
    · have sameSector : addr.toNat / sectorSize ≤ address / sectorSize ∧
          address / sectorSize ≤ addr.toNat / sectorSize ↔
            address / sectorSize = addr.toNat / sectorSize := by omega
      simp only [sameSector]

/-- What a call that returns 0 has used. -/
theorem programUid_zero {behind : Bytes} {addr : UInt32} {id : Bytes} {size : UInt8}
    {isp final : Isp σ} (request : UidRequest addr id size) (idle : target.idle isp.target)
    (quiet : isp.incoming = [])
    (returned : programUid peer malloc behind addr (some id) size isp = .ok (0, final)) :
    malloc 64 ≠ none ∧ behind ≠ [] ∧ addr.toNat % 512 + size.toNat ≤ 512 ∧
      addr.toNat + size.toNat ≤ flashEndAddress := by
  rcases Nat.lt_or_ge flashEndAddress (addr.toNat + size.toNat) with outside | inside
  · obtain ⟨result, negative, refuses⟩ :=
      programUid_of_outside peer malloc behind id isp outside
    obtain ⟨rfl, -⟩ : result = 0 ∧ _ := by simpa using refuses.symm.trans returned
    exact absurd negative (by decide)
  · rw [programUid_of_inside request inside] at returned
    by_cases fits : addr.toNat % 512 + size.toNat ≤ 512
    · have inRange : (addr.toNat / sectorSize).toUInt8.toNat < sectorNum := by
        unfold flashEndAddress flashStartAddress flashSize sectorNum sectorSize at inside
        unfold sectorSize sectorNum
        simp [Nat.toUInt8]
        omega
      have length : (uidBlock addr id).length = 512 :=
        uidBlock_length (by rw [request.sized]; exact fits)
      obtain ⟨ready, isReady, -, erases⟩ :=
        programUidBlock_erased malloc behind (uidProgramAddr addr size) (uidBlock addr id)
          idle quiet inRange
      rw [if_pos fits, erases] at returned
      obtain ⟨memory, room⟩ := writeUidBlock_zero isReady length returned
      exact ⟨memory, room, fits, inside⟩
    · simp [if_neg fits] at returned

end Target

/-- For every request, whatever stands behind the buffer: a UID that lies inside
flash is programmed and any other is turned away without a command, exactly
when a UID inside flash comes with memory for the encode buffer, a byte behind
the buffer of 512 that may be used, no crossing of a line of 512 bytes, and an
end before the last byte of flash. -/
theorem programUid_programs_iff {peer : Peer σ} {malloc : Nat → Option Bytes}
    (target : Conforming peer) (sized : ∀ block, malloc 64 = some block → block.length = 64)
    (behind : Bytes) {addr : UInt32} {id : Bytes} {size : UInt8} {isp : Isp σ}
    (request : UidRequest addr id size) (idle : target.idle isp.target)
    (quiet : isp.incoming = []) :
    ((ChipMemory.InFlash addr.toNat size.toNat →
        ∃ final, programUid peer malloc behind addr (some id) size isp = .ok (0, final) ∧
          ∀ offset < size.toNat,
            (target.memory final.target).flash (addr.toNat + offset) = id.getD offset 0) ∧
      (¬ ChipMemory.InFlash addr.toNat size.toNat →
        ∃ result, result < 0 ∧
          programUid peer malloc behind addr (some id) size isp = .ok (result, isp))) ↔
      (ChipMemory.InFlash addr.toNat size.toNat →
        malloc 64 ≠ none ∧ behind ≠ [] ∧ addr.toNat % 512 + size.toNat ≤ 512 ∧
          addr.toNat + size.toNat ≤ flashEndAddress) := by
  constructor
  · rintro ⟨programs, -⟩ inFlash
    obtain ⟨final, runs, -⟩ := programs inFlash
    exact programUid_zero request idle quiet runs
  · intro condition
    refine ⟨fun inFlash => ?_, fun outside => ?_⟩
    · obtain ⟨memory, room, fits, inside⟩ := condition inFlash
      obtain ⟨block, allocated⟩ := Option.ne_none_iff_exists'.mp memory
      obtain ⟨final, runs, -, flash⟩ := programUid_spec request idle quiet allocated
        (sized block allocated) room fits inside
      refine ⟨final, runs, fun offset below => ?_⟩
      have inBlock : 512 * (addr.toNat / 512) ≤ addr.toNat + offset ∧
          addr.toNat + offset < 512 * (addr.toNat / 512) + 512 := by omega
      have position : addr.toNat + offset - 512 * (addr.toNat / 512) =
          addr.toNat % 512 + offset := by omega
      have idLength := request.sized
      rw [flash]
      dsimp only
      rw [if_pos inBlock, position, List.getD_eq_getElem?_getD, List.getD_eq_getElem?_getD,
        uidBlock_getElem? (by omega) (by omega), if_pos (by omega), Nat.add_sub_cancel_left,
        List.getElem?_eq_getElem (by omega)]
      rfl
    · apply programUid_of_outside
      unfold ChipMemory.InFlash at outside
      unfold flashEndAddress flashStartAddress
      omega

/-- The link to the reference target before any command. -/
def romIsp : Isp Rom :=
  { target := Rom.initial, incoming := [], ispRecvBuf := [] }

theorem programUid_programs_iff_three :
    ∃ final,
      programUid (romPeer true) (fun size => some (List.replicate size 0)) [0] 0xF000
          (some [1, 2, 3]) 3 romIsp = .ok (0, final) ∧
        ∀ offset < 3, final.target.memory.flash (0xF000 + offset) = [1, 2, 3].getD offset 0 :=
  ((programUid_programs_iff (romConforming true) (sized_zeros 64) [0]
    ⟨by decide, by decide, rfl⟩ ⟨rfl, rfl⟩ rfl).mpr
      fun _ => ⟨Option.some_ne_none _, by decide, by decide, by decide⟩).1 (by decide)

/-- A UID in the last 16 bytes of flash is turned away. -/
theorem programUid_refuses_last :
    ChipMemory.InFlash 0xFFF0 16 ∧
      ∀ final, programUid (romPeer true) (fun size => some (List.replicate size 0)) [0] 0xFFF0
        (some (List.replicate 16 1)) 16 romIsp ≠ .ok (0, final) := by
  refine ⟨by decide, fun final runs => ?_⟩
  obtain ⟨result, negative, refuses⟩ := programUid_of_outside (romPeer true)
    (fun size => some (List.replicate size 0)) [0] (List.replicate 16 1) romIsp
    (by decide : flashEndAddress < (0xFFF0 : UInt32).toNat + (16 : UInt8).toNat)
  obtain ⟨rfl, -⟩ : result = 0 ∧ _ := by simpa using refuses.symm.trans runs
  exact absurd negative (by decide)

end OnlineProgram
