import OnlineProgram.FlashImage
import OnlineProgram.ReadBack
import OnlineProgram.ReferenceTarget

/-!
# Programming a bin file

`programBinFileV1`: the file is checked, the flash erased, and then written and
verified in blocks of 512 bytes.  The buffer of a block is one byte longer
here than the program allocates, because decoding the last line of a block that
is read back stores a zero behind it; what that byte held before is arbitrary.
Messages on the console are left out.
-/

namespace OnlineProgram

open ByteStrings CMemory SerialLink UuCoding

/-- A file of the SD card, whose file system keeps sizes in 32 bits. -/
structure BinFile where
  content : Bytes
  short : content.length < 2 ^ 32

/-- `ftell` at the end of the file, stored in an `int`. -/
def BinFile.size (file : BinFile) : Int :=
  (BitVec.ofNat 32 file.content.length).toInt

/-- The bytes that `fread` finds at an offset. -/
def BinFile.fread (file : BinFile) (offset count : Nat) : Bytes :=
  (file.content.drop offset).take count

def minBinSize : Nat := 1024 * 2

/-- "load data": the next block in the buffer, or the return value for a file
that ends too early. -/
def loadBlock (file : BinFile) (num lastPackSize i : Nat) (buffer : Bytes) :
    Except Fault (Int × Bytes) :=
  if i = num - 1 then do
    let data := file.fread (i * 512) lastPackSize
    let buffer ← store buffer 0 data
    if data.length ≠ lastPackSize then .ok (-6, buffer)
    else do
      let buffer ← store buffer lastPackSize (List.replicate (512 - lastPackSize) 0xFF)
      .ok (0, buffer)
  else do
    let data := file.fread (i * 512) 512
    let buffer ← store buffer 0 data
    if data.length ≠ 512 then .ok (-6, buffer) else .ok (0, buffer)

/-- The vectors are in the first block. -/
def modifyBlock (i : Nat) (buffer : Bytes) : Except Fault Bytes :=
  if i = 0 then modifyVector buffer else .ok buffer

variable {σ : Type} (peer : Peer σ) (malloc : Nat → Option Bytes)

/-- One round of the loop that programs: the return value so far, the buffer,
and the target. -/
def programBlock (file : BinFile) (num lastPackSize i : Nat) (buffer : Bytes)
    (isp : Isp σ) : Except Fault (Int × Bytes × Isp σ) := do
  let (ret, buffer) ← loadBlock file num lastPackSize i buffer
  if ret ≠ 0 then .ok (ret, buffer, isp)
  else do
    let buffer ← modifyBlock i buffer
    let (ret, isp) ← ispWriteToRAM peer malloc ispWriteRamAddr 512 buffer isp
    if ret ≠ .success then .ok (-7, buffer, isp)
    else do
      let (ret, isp) ← ispCopyToFlash peer (i * 512).toUInt32 ispWriteRamAddr 512 isp
      if ret ≠ .success then .ok (-8, buffer, isp) else .ok (0, buffer, isp)

/-- The loop that programs, from block `i` on.  It leaves the checksum of every
block it has written. -/
def programBlocks (file : BinFile) (num lastPackSize : Nat) :
    Nat → Nat → Bytes → List Nat → Isp σ →
      Except Fault (Int × Bytes × List Nat × Isp σ)
  | 0, _, buffer, checksumW, isp => .ok (0, buffer, checksumW, isp)
  | remaining + 1, i, buffer, checksumW, isp => do
      let (ret, buffer, isp) ←
        programBlock peer malloc file num lastPackSize i buffer isp
      if ret ≠ 0 then .ok (ret, buffer, checksumW, isp)
      else do
        let checksum ← sumBytes buffer 512
        programBlocks file num lastPackSize remaining (i + 1) buffer
          (checksumW ++ [checksum]) isp

/-- The loop that verifies, from block `i` on, over the checksums of the blocks
that are left. -/
def verifyBlocks : List Nat → Nat → Bytes → Isp σ → Except Fault (Int × Isp σ)
  | [], _, _, isp => .ok (0, isp)
  | checksumW :: rest, i, buffer, isp => do
      let (ret, buffer, isp) ←
        ispReadMemory peer (i * 512).toUInt32 512 buffer isp
      if ret ≠ .success then .ok (-9, isp)
      else do
        let checksumR ← sumBytes buffer 512
        if checksumR ≠ checksumW then .ok (-10, isp)
        else verifyBlocks rest (i + 1) buffer isp

/-- `programBinFileV1`, where `after` is the byte behind the allocated buffer
and `fopen` the file system.  The two arrays of checksums have the same size,
so one request stands for both. -/
def programBinFileV1 (after : UInt8) (fopen : Bytes → Option BinFile)
    (path : Option Bytes) (isp : Isp σ) : Except Fault (Int × Isp σ) :=
  match path with
  | none => .ok (-1, isp)
  | some path =>
      match fopen path with
      | none => .ok (-2, isp)
      | some file =>
          if file.size < minBinSize ∨ file.size > flashSize then .ok (-3, isp)
          else do
            let (_, isp) ← ispUnlock peer isp
            let (ret, isp) ← ispErase peer 0 (sectorNum - 1).toUInt8 isp
            if ret ≠ .success then .ok (-4, isp)
            else
              let size := file.size.toNat
              let num := size / 512 + (if size % 512 ≠ 0 then 1 else 0)
              let lastPackSize := if size % 512 = 0 then 512 else size % 512
              match malloc 512, malloc (4 * num) with
              | some block, some _ => do
                  let (_, isp) ← ispUnlock peer isp
                  let (ret, buffer, checksumW, isp) ←
                    programBlocks peer malloc file num lastPackSize num 0
                      (block ++ [after]) [] isp
                  if ret ≠ 0 then .ok (ret, isp)
                  else verifyBlocks peer checksumW 0 buffer isp
              | _, _ => .ok (-5, isp)

/-- `programBinFileV1` on a file that is accepted, up to the message that the
program is finished. -/
def copyPhase (after : UInt8) (file : BinFile) (isp : Isp σ) :
    Except Fault (Int × Bytes × List Nat × Isp σ) := do
  let (_, isp) ← ispUnlock peer isp
  let (ret, isp) ← ispErase peer 0 (sectorNum - 1).toUInt8 isp
  if ret ≠ .success then .ok (-4, [], [], isp)
  else
    match malloc 512, malloc (4 * blockCount file.content.length) with
    | some block, some _ => do
        let (_, isp) ← ispUnlock peer isp
        programBlocks peer malloc file (blockCount file.content.length)
          (lastBlockSize file.content.length) (blockCount file.content.length) 0
          (block ++ [after]) [] isp
    | _, _ => .ok (-5, [], [], isp)

/-- Loading puts the next block of the padded file before what stands behind
the buffer. -/
theorem loadBlock_spec {file : BinFile} {i : Nat} {buffer : Bytes}
    (nonempty : 0 < file.content.length) (inRange : i < blockCount file.content.length)
    (bufferLength : buffer.length = 513) :
    loadBlock file (blockCount file.content.length)
        (lastBlockSize file.content.length) i buffer =
      .ok (0, imageBlock (paddedFile file.content) i ++ buffer.drop 512) := by
  have lastSize := lastBlockSize_eq nonempty
  have countBounds := blockCount_bounds nonempty
  have blockLength : (imageBlock (paddedFile file.content) i).length = 512 := by
    apply imageBlock_length
    rw [paddedFile_length]
    omega
  have spliced : splice buffer 0 (imageBlock (paddedFile file.content) i) =
      imageBlock (paddedFile file.content) i ++ buffer.drop 512 := by
    simp [splice, blockLength]
  unfold loadBlock
  split
  · next isLast =>
      have blockIs := imageBlock_paddedFile_last nonempty
      rw [← isLast] at blockIs
      have dataLength : (file.content.drop (512 * i)).length =
          lastBlockSize file.content.length := by
        simp only [List.length_drop]
        omega
      have dataIs : file.fread (i * 512) (lastBlockSize file.content.length) =
          file.content.drop (512 * i) := by
        unfold BinFile.fread
        rw [Nat.mul_comm]
        exact List.take_of_length_le (Nat.le_of_eq dataLength)
      have dataStored : store buffer 0 (file.content.drop (512 * i)) =
          .ok (splice buffer 0 (file.content.drop (512 * i))) :=
        store_of_le (by omega)
      have dataStoredLength :
          (splice buffer 0 (file.content.drop (512 * i))).length = buffer.length :=
        splice_length (by omega)
      have paddingStored : store (splice buffer 0 (file.content.drop (512 * i)))
          (lastBlockSize file.content.length)
          (List.replicate (512 - lastBlockSize file.content.length) 0xFF) =
            .ok (splice buffer 0 (imageBlock (paddedFile file.content) i)) := by
        rw [store_of_le (by rw [List.length_replicate, dataStoredLength]; omega), blockIs,
          ← splice_splice (by omega), Nat.zero_add, dataLength]
      rw [dataIs]
      simp only [bind, Except.bind]
      rw [dataStored]
      simp only []
      rw [if_neg (by simp [dataLength]), paddingStored, spliced]
  · next isInner =>
      have dataIs : file.fread (i * 512) 512 = imageBlock (paddedFile file.content) i := by
        rw [imageBlock_paddedFile_inner (by omega), BinFile.fread, Nat.mul_comm]
      have dataStored : store buffer 0 (imageBlock (paddedFile file.content) i) =
          .ok (splice buffer 0 (imageBlock (paddedFile file.content) i)) :=
        store_of_le (by omega)
      rw [dataIs]
      simp only [bind, Except.bind]
      rw [dataStored]
      simp only []
      rw [if_neg (by simp [blockLength]), spliced]

/-- What is sent is a block of the flash image. -/
theorem modifyBlock_spec {content : Bytes} {i : Nat} (behind : Bytes)
    (inRange : i < blockCount content.length) :
    modifyBlock i (imageBlock (paddedFile content) i ++ behind) =
      .ok (imageBlock (flashImage content) i ++ behind) := by
  have large : 512 ≤ (paddedFile content).length := by
    rw [paddedFile_length]
    omega
  have blockLength : (imageBlock (paddedFile content) i).length = 512 := by
    apply imageBlock_length
    rw [paddedFile_length]
    omega
  unfold flashImage modifyBlock
  rw [imageBlock_withVectorChecksum i large]
  split
  · next first =>
      subst first
      rw [modifyVector_eq (by simp only [List.length_append]; omega),
        withVectorChecksum_append _ (by omega)]
  · rfl

/-- The image is in flash up to an address, and the flash behind is erased. -/
structure ChipMemory.Holds (memory : ChipMemory) (image : Bytes) (count : Nat) :
    Prop where
  written : ∀ address < count, memory.flash address = image.getD address 0
  erased : ∀ address, count ≤ address → address < flashSize →
    memory.flash address = 0xFF

theorem ChipMemory.holds_of_erased (memory : ChipMemory) (image : Bytes) :
    (memory.eraseSectors 0 (sectorNum - 1)).Holds image 0 where
  written := by
    intro address impossible
    exact absurd impossible (Nat.not_lt_zero address)
  erased := by
    intro address _ inFlash
    have inSectors : 0 ≤ address / sectorSize ∧ address / sectorSize ≤ sectorNum - 1 := by
      unfold flashSize sectorNum sectorSize at inFlash
      unfold sectorNum sectorSize
      omega
    simp [ChipMemory.eraseSectors, inSectors]

/-- Writing a block to RAM and copying it programs the block. -/
theorem ChipMemory.Holds.program {memory : ChipMemory} {image : Bytes} {i : Nat}
    (holds : memory.Holds image (512 * i)) (inside : 512 * i + 512 ≤ image.length) :
    ((memory.writeRam ispWriteRamAddr.toNat (imageBlock image i)).copyToFlash (512 * i)
      ispWriteRamAddr.toNat 512).Holds image (512 * (i + 1)) where
  written := by
    intro address below
    unfold ChipMemory.copyToFlash ChipMemory.writeRam
    dsimp only
    split
    · next inBlock =>
        have offset : ispWriteRamAddr.toNat + (address - 512 * i) - ispWriteRamAddr.toNat =
            address - 512 * i := by omega
        rw [if_pos (Nat.le_add_right _ _), offset, imageBlock_getD (by omega)]
        have position : 512 * i + (address - 512 * i) = address := by omega
        rw [position, List.getD_eq_getElem _ _ (by omega), List.getD_eq_getElem _ _ (by omega)]
    · exact holds.written address (by omega)
  erased := by
    intro address above inFlash
    unfold ChipMemory.copyToFlash ChipMemory.writeRam
    dsimp only
    rw [if_neg (by omega)]
    exact holds.erased address (by omega) inFlash

/-- Reading a programmed block gives the block. -/
theorem ChipMemory.Holds.read_block {memory : ChipMemory} {image : Bytes} {count i : Nat}
    (holds : memory.Holds image count) (programmed : 512 * i + 512 ≤ count)
    (inside : count ≤ image.length) (inFlash : count ≤ flashSize) :
    memory.read (512 * i) 512 = imageBlock image i := by
  apply List.ext_getElem
  · rw [ChipMemory.read_length, imageBlock_length (by omega)]
  · intro offset lower upper
    rw [ChipMemory.read_length] at lower
    have written := holds.written (512 * i + offset) (by omega)
    rw [List.getD_eq_getElem _ _ (by omega)] at written
    have inRegion : 512 * i + offset < flashSize := by omega
    simp [ChipMemory.read, ChipMemory.contents, inRegion, written, imageBlock]

section Loops

variable {peer : Peer σ} {malloc : Nat → Option Bytes} {target : Conforming peer}

/-- Every request for memory succeeds. -/
def Allocates (malloc : Nat → Option Bytes) : Prop :=
  ∀ size, ∃ block, malloc size = some block ∧ block.length = size

/-- An allocator that never fails. -/
theorem allocates_zeros : Allocates fun size => some (List.replicate size 0) :=
  fun size => ⟨List.replicate size 0, rfl, List.length_replicate⟩

/-- The address of a block of an accepted file. -/
theorem blockAddress_toNat {i : Nat} (inFlash : 512 * i + 512 ≤ flashSize) :
    (i * 512).toUInt32.toNat = 512 * i := by
  unfold flashSize sectorNum sectorSize at inFlash
  simp [Nat.toUInt32]
  omega

/-- A round writes the block of the image, and copies it. -/
theorem programBlock_eq (peer : Peer σ) (malloc : Nat → Option Bytes) {file : BinFile} {i : Nat}
    {buffer : Bytes} (nonempty : 0 < file.content.length)
    (inRange : i < blockCount file.content.length) (bufferLength : buffer.length = 513)
    (isp : Isp σ) :
    programBlock peer malloc file (blockCount file.content.length)
        (lastBlockSize file.content.length) i buffer isp =
      (ispWriteToRAM peer malloc ispWriteRamAddr 512
          (imageBlock (flashImage file.content) i ++ buffer.drop 512) isp).bind
        fun (ret, written) =>
          if ret ≠ .success then
            .ok (-7, imageBlock (flashImage file.content) i ++ buffer.drop 512, written)
          else
            (ispCopyToFlash peer (i * 512).toUInt32 ispWriteRamAddr 512 written).bind
              fun (ret, copied) =>
                .ok (if ret ≠ .success then -8 else 0,
                  imageBlock (flashImage file.content) i ++ buffer.drop 512, copied) := by
  unfold programBlock
  rw [loadBlock_spec nonempty inRange bufferLength]
  simp only [bind, Except.bind]
  rw [if_neg (by decide), modifyBlock_spec (buffer.drop 512) inRange]
  simp only []
  cases ispWriteToRAM peer malloc ispWriteRamAddr 512
      (imageBlock (flashImage file.content) i ++ buffer.drop 512) isp with
  | error fault => rfl
  | ok written =>
      simp only []
      split_ifs
      · rfl
      · cases ispCopyToFlash peer (i * 512).toUInt32 ispWriteRamAddr 512 written.2 with
        | error fault => rfl
        | ok copied =>
            simp only []
            split_ifs <;> rfl

/-- A block that is taken to RAM and copied is programmed. -/
theorem programBlock_of_copied {file : BinFile} {i : Nat} {buffer : Bytes}
    {isp written final : Isp σ} (nonempty : 0 < file.content.length)
    (inRange : i < blockCount file.content.length) (bufferLength : buffer.length = 513)
    (writes : ispWriteToRAM peer malloc ispWriteRamAddr 512
      (imageBlock (flashImage file.content) i ++ buffer.drop 512) isp = .ok (.success, written))
    (copies : ispCopyToFlash peer (i * 512).toUInt32 ispWriteRamAddr 512 written =
      .ok (.success, final)) :
    programBlock peer malloc file (blockCount file.content.length)
        (lastBlockSize file.content.length) i buffer isp =
      .ok (0, imageBlock (flashImage file.content) i ++ buffer.drop 512, final) := by
  rw [programBlock_eq peer malloc nonempty inRange bufferLength, writes]
  simp only [Except.bind, ne_eq, not_true_eq_false, if_false]
  rw [copies]
  rfl

theorem programBlock_spec {file : BinFile} {i : Nat} {buffer : Bytes} {isp : Isp σ}
    (ready : target.Ready isp)
    (allocated : ∃ encode, malloc 64 = some encode ∧ encode.length = 64)
    (nonempty : 0 < file.content.length) (inRange : i < blockCount file.content.length)
    (inFlash : 512 * blockCount file.content.length ≤ flashSize)
    (bufferLength : buffer.length = 513)
    (holds : (target.memory isp.target).Holds (flashImage file.content) (512 * i)) :
    ∃ final, programBlock peer malloc file (blockCount file.content.length)
        (lastBlockSize file.content.length) i buffer isp =
          .ok (0, imageBlock (flashImage file.content) i ++ buffer.drop 512, final) ∧
      target.Ready final ∧
      (target.memory final.target).Holds (flashImage file.content) (512 * (i + 1)) := by
  have imageLength := flashImage_length nonempty
  have blockLength : (imageBlock (flashImage file.content) i).length = 512 :=
    imageBlock_length (by omega)
  have behindLength : (buffer.drop 512).length = 1 := by
    simp [bufferLength]
  have addressIs := blockAddress_toNat (i := i) (by omega)
  have inRam : ChipMemory.InRam ispWriteRamAddr.toNat 512 := by decide
  obtain ⟨encode, allocated, encodeLength⟩ := allocated
  obtain ⟨written, writes, writtenReady, writtenMemory⟩ :=
    ispWriteToRAM_spec 512 (buffer.drop 512) ready allocated encodeLength blockLength
      inRam (by decide) (by decide) (by decide) (by decide) (by decide)
      (by rw [behindLength]; decide)
  have blockInFlash : ChipMemory.InFlash (i * 512).toUInt32.toNat 512 := by
    unfold ChipMemory.InFlash
    rw [addressIs]
    omega
  have erased : (target.memory written.target).Erased (i * 512).toUInt32.toNat 512 := by
    intro offset below
    rw [writtenMemory, addressIs]
    exact holds.erased (512 * i + offset) (by omega) (by omega)
  obtain ⟨final, copies, finalReady, finalMemory⟩ :=
    ispCopyToFlash_spec 512 writtenReady blockInFlash inRam (by rw [addressIs]; omega)
      (by decide) (by decide) erased
  refine ⟨final, programBlock_of_copied nonempty inRange bufferLength writes copies, finalReady,
    ?_⟩
  rw [finalMemory, writtenMemory, addressIs]
  exact holds.program (by omega)

/-- The loop programs the blocks that are left, and keeps their checksums, when
what holds before a block lets it be programmed and holds before the next. -/
theorem programBlocks_of_invariant {file : BinFile} (nonempty : 0 < file.content.length)
    (Before : Nat → Isp σ → Prop)
    (step : ∀ i < blockCount file.content.length, ∀ buffer isp, buffer.length = 513 →
      Before i isp → ∃ next,
        programBlock peer malloc file (blockCount file.content.length)
            (lastBlockSize file.content.length) i buffer isp =
          .ok (0, imageBlock (flashImage file.content) i ++ buffer.drop 512, next) ∧
        Before (i + 1) next)
    {remaining i : Nat} {buffer : Bytes} (checksumW : List Nat) {isp : Isp σ}
    (rounds : i + remaining = blockCount file.content.length)
    (bufferLength : buffer.length = 513) (before : Before i isp) :
    ∃ left final,
      programBlocks peer malloc file (blockCount file.content.length)
          (lastBlockSize file.content.length) remaining i buffer checksumW isp =
        .ok (0, left, checksumW ++ (List.range' i remaining).map
          (fun index => byteSum (imageBlock (flashImage file.content) index)), final) ∧
      left.length = 513 ∧ Before (blockCount file.content.length) final := by
  induction remaining generalizing i buffer checksumW isp with
  | zero =>
      refine ⟨buffer, isp, by simp [programBlocks], bufferLength, ?_⟩
      rw [← rounds]
      exact before
  | succ remaining ih =>
      have imageLength := flashImage_length nonempty
      have blockLength : (imageBlock (flashImage file.content) i).length = 512 :=
        imageBlock_length (by omega)
      obtain ⟨next, programs, nextBefore⟩ := step i (by omega) buffer isp bufferLength before
      have nextLength :
          (imageBlock (flashImage file.content) i ++ buffer.drop 512).length = 513 := by
        simp [blockLength, bufferLength]
      obtain ⟨left, final, rest, leftLength, finalBefore⟩ :=
        ih _ (by omega) nextLength nextBefore
      refine ⟨left, final, ?_, leftLength, finalBefore⟩
      unfold programBlocks
      rw [programs]
      simp only [bind, Except.bind]
      rw [if_neg (by decide), sumBytes_append _ blockLength]
      simp only []
      rw [rest, List.range'_succ, List.map_cons]
      simp

/-- The loop programs the blocks that are left, and keeps their checksums. -/
theorem programBlocks_spec {file : BinFile}
    (allocated : ∃ encode, malloc 64 = some encode ∧ encode.length = 64)
    (nonempty : 0 < file.content.length)
    (inFlash : 512 * blockCount file.content.length ≤ flashSize)
    {remaining i : Nat} {buffer : Bytes} (checksumW : List Nat) {isp : Isp σ}
    (rounds : i + remaining = blockCount file.content.length)
    (ready : target.Ready isp) (bufferLength : buffer.length = 513)
    (holds : (target.memory isp.target).Holds (flashImage file.content) (512 * i)) :
    ∃ left final,
      programBlocks peer malloc file (blockCount file.content.length)
          (lastBlockSize file.content.length) remaining i buffer checksumW isp =
        .ok (0, left, checksumW ++ (List.range' i remaining).map
          (fun index => byteSum (imageBlock (flashImage file.content) index)), final) ∧
      left.length = 513 ∧ target.Ready final ∧
      (target.memory final.target).Holds (flashImage file.content)
        (512 * blockCount file.content.length) := by
  refine programBlocks_of_invariant nonempty
    (fun i isp => target.Ready isp ∧
      (target.memory isp.target).Holds (flashImage file.content) (512 * i))
    ?_ checksumW rounds bufferLength ⟨ready, holds⟩
  intro i inRange buffer isp bufferLength ⟨ready, holds⟩
  exact programBlock_spec ready allocated nonempty inRange inFlash bufferLength holds

/-- The loop reads every block back as it was written. -/
theorem verifyBlocks_spec {file : BinFile} (nonempty : 0 < file.content.length)
    (inFlash : 512 * blockCount file.content.length ≤ flashSize)
    {remaining i : Nat} {buffer : Bytes} {isp : Isp σ}
    (rounds : i + remaining = blockCount file.content.length)
    (ready : target.Ready isp) (bufferLength : buffer.length = 513)
    (holds : (target.memory isp.target).Holds (flashImage file.content)
      (512 * blockCount file.content.length)) :
    ∃ final,
      verifyBlocks peer ((List.range' i remaining).map
          (fun index => byteSum (imageBlock (flashImage file.content) index)))
          i buffer isp =
        .ok (0, final) ∧
      target.Ready final ∧ target.memory final.target = target.memory isp.target := by
  induction remaining generalizing i buffer isp with
  | zero => exact ⟨isp, rfl, ready, rfl⟩
  | succ remaining ih =>
      have imageLength := flashImage_length nonempty
      have blockLength : (imageBlock (flashImage file.content) i).length = 512 :=
        imageBlock_length (by omega)
      have addressIs := blockAddress_toNat (i := i) (by omega)
      have blockInFlash : ChipMemory.InFlash (i * 512).toUInt32.toNat 512 := by
        unfold ChipMemory.InFlash
        rw [addressIs]
        omega
      obtain ⟨stored, next, reads, nextReady, nextMemory, storedLength, storedBlock⟩ :=
        ispReadMemory_spec 512 buffer ready (.inl blockInFlash) (by rw [addressIs]; omega)
          (by decide) (by decide) (by decide) (by decide)
          (by rw [bufferLength]; decide) (by rw [bufferLength]; decide)
      have readBlock : (target.memory isp.target).read (512 * i) 512 =
          imageBlock (flashImage file.content) i :=
        holds.read_block (by omega) (by omega) inFlash
      have block : stored.take 512 = imageBlock (flashImage file.content) i := by
        rw [← readBlock, ← addressIs]
        exact storedBlock
      have sum : sumBytes stored 512 =
          .ok (byteSum (imageBlock (flashImage file.content) i)) := by
        rw [← List.take_append_drop 512 stored, block]
        exact sumBytes_append _ blockLength
      have nextRounds : i + 1 + remaining = blockCount file.content.length := by omega
      obtain ⟨final, rest, finalReady, finalMemory⟩ :=
        ih nextRounds nextReady (by rw [storedLength, bufferLength])
          (by rw [nextMemory]; exact holds)
      refine ⟨final, ?_, finalReady, by rw [finalMemory, nextMemory]⟩
      rw [List.range'_succ, List.map_cons]
      unfold verifyBlocks
      rw [reads]
      simp only [bind, Except.bind, ne_eq, not_true_eq_false, if_false]
      rw [sum]
      simp only [not_true_eq_false, if_false]
      exact rest

end Loops

/-- The sizes that `programBinFileV1` takes. -/
def BinFile.Accepted (file : BinFile) : Prop :=
  minBinSize ≤ file.content.length ∧ file.content.length ≤ flashSize

instance (file : BinFile) : Decidable file.Accepted :=
  inferInstanceAs (Decidable (_ ∧ _))

/-- The blocks of an accepted file are in flash. -/
theorem BinFile.Accepted.inFlash {file : BinFile} (accepted : file.Accepted) :
    0 < file.content.length ∧ 512 * blockCount file.content.length ≤ flashSize := by
  have bounds : 2048 ≤ file.content.length ∧ file.content.length ≤ 65536 := accepted
  unfold blockCount flashSize sectorNum sectorSize
  omega

theorem BinFile.size_of_accepted {file : BinFile} (accepted : file.Accepted) :
    file.size = file.content.length := by
  unfold BinFile.Accepted flashSize sectorNum sectorSize at accepted
  unfold BinFile.size
  rw [BitVec.toInt_eq_toNat_of_lt] <;> simp <;> omega

/-- The test on the `int` turns away every other file, also those whose size
is negative in it. -/
theorem BinFile.refused_iff (file : BinFile) :
    (file.size < minBinSize ∨ file.size > flashSize) ↔ ¬ file.Accepted := by
  have short := file.short
  constructor
  · intro refused accepted
    rw [BinFile.size_of_accepted accepted] at refused
    unfold BinFile.Accepted at accepted
    omega
  · intro refused
    unfold BinFile.Accepted minBinSize flashSize sectorNum sectorSize at refused
    unfold BinFile.size minBinSize flashSize sectorNum sectorSize
    rw [BitVec.toInt_eq_toNat_cond]
    simp only [BitVec.toNat_ofNat]
    split <;> omega

variable {peer : Peer σ} {malloc : Nat → Option Bytes}

/-- On an accepted file the program copies, and then verifies. -/
theorem programBinFileV1_eq_copyPhase (peer : Peer σ) (malloc : Nat → Option Bytes)
    (after : UInt8) {fopen : Bytes → Option BinFile} {path : Bytes} {file : BinFile}
    (opens : fopen path = some file) (accepted : file.Accepted) (isp : Isp σ) :
    programBinFileV1 peer malloc after fopen (some path) isp =
      (copyPhase peer malloc after file isp).bind fun (ret, buffer, checksumW, isp) =>
        if ret ≠ 0 then .ok (ret, isp) else verifyBlocks peer checksumW 0 buffer isp := by
  have size : file.size.toNat = file.content.length := by
    rw [BinFile.size_of_accepted accepted, Int.toNat_natCast]
  have notRefused : ¬ (file.size < minBinSize ∨ file.size > flashSize) := by
    rw [BinFile.refused_iff]
    exact not_not.mpr accepted
  have lastSize : (if file.content.length % 512 = 0 then 512
      else file.content.length % 512) = lastBlockSize file.content.length := rfl
  unfold programBinFileV1 copyPhase
  simp only [opens]
  rw [if_neg notRefused]
  cases ispUnlock peer isp with
  | error fault => rfl
  | ok unlocked =>
      simp only [bind, Except.bind]
      cases ispErase peer 0 (sectorNum - 1).toUInt8 unlocked.2 with
      | error fault => rfl
      | ok erased =>
          simp only [size]
          rw [blockCount_eq, lastSize]
          by_cases failed : erased.1 ≠ .success
          · rw [if_pos failed, if_pos failed]
            rfl
          · rw [if_neg failed, if_neg failed]
            cases malloc 512 with
            | none => rfl
            | some block =>
                cases malloc (4 * blockCount file.content.length) with
                | none => rfl
                | some sums =>
                    simp only []
                    cases ispUnlock peer erased.2 with
                    | error fault => rfl
                    | ok unlockedAgain => rfl

/-- The program runs on an accepted file: the flash is erased before memory is
asked for. -/
theorem programBinFileV1_erased (target : Conforming peer) (malloc : Nat → Option Bytes)
    (after : UInt8) {fopen : Bytes → Option BinFile} {path : Bytes} {file : BinFile}
    (opens : fopen path = some file) (accepted : file.Accepted) {isp : Isp σ}
    (idle : target.idle isp.target) (quiet : isp.incoming = []) :
    ∃ erased ready : Isp σ,
      target.Ready ready ∧ (target.memory ready.target).Holds (flashImage file.content) 0 ∧
      programBinFileV1 peer malloc after fopen (some path) isp =
        match malloc 512, malloc (4 * blockCount file.content.length) with
        | some block, some _ =>
            (programBlocks peer malloc file (blockCount file.content.length)
                (lastBlockSize file.content.length) (blockCount file.content.length) 0
                (block ++ [after]) [] ready).bind fun (ret, buffer, checksumW, isp) =>
              if ret ≠ 0 then .ok (ret, isp) else verifyBlocks peer checksumW 0 buffer isp
        | _, _ => .ok (-5, erased) := by
  obtain ⟨unlocked, unlocks, unlockedReady, -⟩ := ispUnlock_spec idle quiet
  obtain ⟨erased, erases, erasedReady, erasedMemory⟩ :=
    ispErase_spec 0 (sectorNum - 1).toUInt8 unlockedReady (by decide) (by decide)
  obtain ⟨ready, unlocksAgain, readyAgain, readyMemory⟩ :=
    ispUnlock_spec erasedReady.idle erasedReady.quiet
  have startHolds : (target.memory ready.target).Holds (flashImage file.content) 0 := by
    rw [readyMemory, erasedMemory]
    exact ChipMemory.holds_of_erased _ _
  refine ⟨erased, ready, readyAgain, startHolds, ?_⟩
  rw [programBinFileV1_eq_copyPhase peer malloc after opens accepted isp]
  unfold copyPhase
  rw [unlocks]
  simp only [bind, Except.bind]
  rw [erases]
  simp only [ne_eq, not_true_eq_false, if_false]
  cases malloc 512 with
  | none => rfl
  | some block =>
      cases malloc (4 * blockCount file.content.length) with
      | none => rfl
      | some sums =>
          simp only []
          rw [unlocksAgain]

/-- With the memory that it asks for, the program ends with the image in
flash. -/
theorem programBinFileV1_of_allocated (target : Conforming peer) {block sums : Bytes}
    (after : UInt8) {fopen : Bytes → Option BinFile} {path : Bytes} {file : BinFile}
    (opens : fopen path = some file) (accepted : file.Accepted)
    (allocated : ∃ encode, malloc 64 = some encode ∧ encode.length = 64)
    (blockIs : malloc 512 = some block) (blockLength : block.length = 512)
    (sumsIs : malloc (4 * blockCount file.content.length) = some sums) {isp : Isp σ}
    (idle : target.idle isp.target) (quiet : isp.incoming = []) :
    ∃ final,
      programBinFileV1 peer malloc after fopen (some path) isp = .ok (0, final) ∧
      target.Ready final ∧
      (target.memory final.target).Holds (flashImage file.content)
        (512 * blockCount file.content.length) := by
  obtain ⟨nonempty, inFlash⟩ := accepted.inFlash
  obtain ⟨erased, ready, isReady, startHolds, runs⟩ :=
    programBinFileV1_erased target malloc after opens accepted idle quiet
  have bufferLength : (block ++ [after]).length = 513 := by
    simp [blockLength]
  obtain ⟨left, programmed, programs, leftLength, programmedReady, holds⟩ :=
    programBlocks_spec allocated nonempty inFlash [] (Nat.zero_add _) isReady
      bufferLength startHolds
  obtain ⟨final, verifies, finalReady, finalMemory⟩ :=
    verifyBlocks_spec nonempty inFlash (Nat.zero_add _) programmedReady leftLength holds
  refine ⟨final, ?_, finalReady, by rw [finalMemory]; exact holds⟩
  rw [runs, blockIs, sumsIs]
  simp only []
  rw [programs]
  exact verifies

theorem programBinFileV1_of_refused (peer : Peer σ) (malloc : Nat → Option Bytes)
    (after : UInt8) {fopen : Bytes → Option BinFile} {path : Option Bytes} (isp : Isp σ)
    (refused : ∀ file, path.bind fopen = some file → ¬ file.Accepted) :
    ∃ result, programBinFileV1 peer malloc after fopen path isp = .ok (result, isp) ∧
      result < 0 := by
  cases path with
  | none => exact ⟨-1, rfl, by decide⟩
  | some path =>
      cases opens : fopen path with
      | none => exact ⟨-2, by simp [programBinFileV1, opens], by decide⟩
      | some file =>
          have turnedAway := (BinFile.refused_iff file).mpr (refused file opens)
          refine ⟨-3, ?_, by decide⟩
          unfold programBinFileV1
          simp only [opens]
          rw [if_pos turnedAway]

/-- Against a conforming target the program either puts the flash image of the
file into flash, or returns a negative value and leaves the flash alone. -/
theorem programBinFileV1_programs (target : Conforming peer)
    (allocates : Allocates malloc) (after : UInt8) (fopen : Bytes → Option BinFile)
    (path : Option Bytes) (isp : Isp σ) (idle : target.idle isp.target)
    (quiet : isp.incoming = []) :
    ∃ result final,
      programBinFileV1 peer malloc after fopen path isp = .ok (result, final) ∧
      (∀ file, path.bind fopen = some file → file.Accepted →
        result = 0 ∧ ∀ address < 512 * blockCount file.content.length,
          (target.memory final.target).flash address =
            (flashImage file.content).getD address 0) ∧
      ((∀ file, path.bind fopen = some file → ¬ file.Accepted) →
        result < 0 ∧
          (target.memory final.target).flash = (target.memory isp.target).flash) := by
  by_cases accepted : ∃ file, path.bind fopen = some file ∧ file.Accepted
  · obtain ⟨file, opens, accepted⟩ := accepted
    obtain ⟨name, rfl, opens⟩ := Option.bind_eq_some_iff.mp opens
    obtain ⟨block, blockIs, blockLength⟩ := allocates 512
    obtain ⟨sums, sumsIs, -⟩ := allocates (4 * blockCount file.content.length)
    obtain ⟨final, runs, -, holds⟩ := programBinFileV1_of_allocated target after opens
      accepted (allocates 64) blockIs blockLength sumsIs idle quiet
    refine ⟨0, final, runs, ?_, ?_⟩
    · intro other otherOpens _
      obtain rfl : file = other := Option.some.inj (opens.symm.trans otherOpens)
      exact ⟨rfl, holds.written⟩
    · intro refused
      exact absurd accepted (refused file opens)
  · have refused : ∀ file, path.bind fopen = some file → ¬ file.Accepted := by
      intro file opens isAccepted
      exact accepted ⟨file, opens, isAccepted⟩
    obtain ⟨result, runs, negative⟩ :=
      programBinFileV1_of_refused peer malloc after isp refused
    refine ⟨result, isp, runs, ?_, fun _ => ⟨negative, rfl⟩⟩
    intro file opens isAccepted
    exact absurd isAccepted (refused file opens)

/-- The reference target before any command. -/
def Rom.initial : Rom :=
  { phase := .command
    line := []
    unlocked := false
    prepared := fun _ => false
    memory := { flash := fun _ => 0, ram := fun _ => 0 } }

/-- A file of one repeated byte. -/
def uniformFile (byte : UInt8) (length : Nat) (short : length < 2 ^ 32) : BinFile :=
  { content := List.replicate length byte
    short := by rw [List.length_replicate]; exact short }

theorem uniformFile_accepted {byte : UInt8} {length : Nat} {short : length < 2 ^ 32}
    (inRange : minBinSize ≤ length ∧ length ≤ flashSize) :
    (uniformFile byte length short).Accepted := by
  unfold BinFile.Accepted uniformFile
  rwa [List.length_replicate]

/-- A file of the smallest size that is accepted. -/
def smallestFile : BinFile :=
  uniformFile 1 2048 (by decide)

theorem programBinFileV1_programs_smallest :
    ∃ result final,
      programBinFileV1 (romPeer true) (fun size => some (List.replicate size 0)) 0
          (fun _ => some smallestFile) (some (ascii "/sd/test.bin"))
          { target := Rom.initial, incoming := [], ispRecvBuf := [] } =
        .ok (result, final) ∧
      result = 0 ∧ ∀ address < 2048, final.target.memory.flash address =
        (flashImage smallestFile.content).getD address 0 := by
  obtain ⟨result, final, runs, programs, -⟩ :=
    programBinFileV1_programs (romConforming true)
      allocates_zeros 0 (fun _ => some smallestFile)
      (some (ascii "/sd/test.bin"))
      { target := Rom.initial, incoming := [], ispRecvBuf := [] } ⟨rfl, rfl⟩ rfl
  have length : smallestFile.content.length = 2048 := List.length_replicate
  have accepted : smallestFile.Accepted := uniformFile_accepted (by decide)
  have blocks : 512 * blockCount smallestFile.content.length = 2048 := by
    rw [length]
    decide
  have flashed := programs smallestFile rfl accepted
  rw [blocks] at flashed
  exact ⟨result, final, runs, flashed⟩

end OnlineProgram
