import OnlineProgram.ProgramUid

/-!
# A UID over an image

The two programming modes share the flash.  A UID has its place in the last
sector, which `programUID` erases before it writes one block of 512 bytes, and
an image may reach into that sector.  This file says which images are still
whole after the UID has been programmed over them.
-/

namespace OnlineProgram

open ByteStrings CMemory SerialLink UuCoding

/-- `UID_PROGRAM_ADDRESS` -/
def uidProgramAddress : UInt32 := 0xF000

/-- Behind the vectors the image is the file and its padding. -/
theorem flashImage_getD {content : Bytes} {address : Nat}
    (behind : 32 ≤ address) (inside : address < 512 * blockCount content.length) :
    (flashImage content).getD address 0 =
      if address < content.length then content.getD address 0 else 0xFF := by
  have length := paddedFile_length content
  have checksumLength := littleEndianBytes_length (vectorChecksum (paddedFile content))
  unfold flashImage withVectorChecksum
  rw [List.getD_eq_getElem?_getD, splice_getElem? address (by omega), if_neg (by omega)]
  unfold paddedFile
  split
  · next inFile =>
      rw [List.getElem?_append_left inFile, List.getD_eq_getElem?_getD]
  · next inPadding =>
      rw [List.getElem?_append_right (by omega), List.getElem?_replicate, if_pos (by omega)]
      rfl

section Runs

variable {σ : Type} {peer : Peer σ} {malloc : Nat → Option Bytes} {target : Conforming peer}

/-- The first block is not written without memory to encode it. -/
theorem programBlocks_of_no_memory {file : BinFile} {count : Nat} {buffer : Bytes}
    {isp : Isp σ} (ready : target.Ready isp) (nonempty : 0 < file.content.length)
    (rounds : blockCount file.content.length = count + 1) (bufferLength : buffer.length = 513)
    (memory : malloc 64 = none) :
    ∃ left stopped,
      programBlocks peer malloc file (blockCount file.content.length)
        (lastBlockSize file.content.length) (count + 1) 0 buffer [] isp =
          .ok (-7, left, [], stopped) := by
  have whole : (512 : UInt32).toNat ≤
      (imageBlock (flashImage file.content) 0 ++ buffer.drop 512).length := by
    have imageLength := flashImage_length nonempty
    rw [List.length_append, imageBlock_length (by omega)]
    exact Nat.le_add_right _ _
  have accepted : WriteAccepted ispWriteRamAddr 512 := by decide
  obtain ⟨answered, acknowledged⟩ := ispWrite_acknowledged ready
  have writes : ispWriteToRAM peer malloc ispWriteRamAddr 512
      (imageBlock (flashImage file.content) 0 ++ buffer.drop 512) isp =
        .ok (.memOverflow, answered) := by
    rw [ispWriteToRAM_of_acknowledged accepted whole acknowledged, memory]
  refine ⟨imageBlock (flashImage file.content) 0 ++ buffer.drop 512, answered, ?_⟩
  have block : programBlock peer malloc file (blockCount file.content.length)
      (lastBlockSize file.content.length) 0 buffer isp =
        .ok (-7, imageBlock (flashImage file.content) 0 ++ buffer.drop 512, answered) := by
    rw [programBlock_eq peer malloc nonempty (by omega) bufferLength, writes]
    rfl
  unfold programBlocks
  rw [block]
  rfl

/-- A run that returns 0 has put the image into flash. -/
theorem programBinFileV1_zero (sized : ∀ size block, malloc size = some block →
      block.length = size) {after : UInt8} {fopen : Bytes → Option BinFile} {path : Bytes}
    {file : BinFile} (opens : fopen path = some file) (accepted : file.Accepted)
    {isp final : Isp σ} (idle : target.idle isp.target) (quiet : isp.incoming = [])
    (returned : programBinFileV1 peer malloc after fopen (some path) isp = .ok (0, final)) :
    target.Ready final ∧ (target.memory final.target).Holds (flashImage file.content)
      (512 * blockCount file.content.length) := by
  have nonempty : 0 < file.content.length := accepted.inFlash.1
  obtain ⟨erased, ready, isReady, -, runs⟩ :=
    programBinFileV1_erased target malloc after opens accepted idle quiet
  cases blockIs : malloc 512 with
  | none => simp [runs, blockIs] at returned
  | some block =>
      cases sumsIs : malloc (4 * blockCount file.content.length) with
      | none => simp [runs, blockIs, sumsIs] at returned
      | some sums =>
          have blockLength := sized 512 block blockIs
          cases allocated : malloc 64 with
          | none =>
              obtain ⟨count, rounds⟩ : ∃ count, blockCount file.content.length = count + 1 :=
                ⟨blockCount file.content.length - 1, by unfold blockCount; omega⟩
              have bufferLength : (block ++ [after]).length = 513 := by
                simp [blockLength]
              obtain ⟨left, stopped, stops⟩ :=
                programBlocks_of_no_memory isReady nonempty rounds bufferLength allocated
              rw [← rounds] at stops
              simp [runs, blockIs, sumsIs, stops, Except.bind] at returned
          | some encode =>
              obtain ⟨reached, completes, reachedReady, holds⟩ :=
                programBinFileV1_of_allocated target after opens accepted
                  ⟨encode, allocated, sized 64 encode allocated⟩ blockIs blockLength sumsIs
                  idle quiet
              obtain rfl : reached = final := by simpa using completes.symm.trans returned
              exact ⟨reachedReady, holds⟩

/-- Both programs run to the end where there is memory and a byte behind the
buffer of the UID. -/
theorem programs_then_uid (target : Conforming peer) (malloc : Nat → Option Bytes)
    (allocates : Allocates malloc) (after : UInt8) {behind : Bytes} (room : behind ≠ [])
    (fopen : Bytes → Option BinFile) (path : Bytes) {file : BinFile}
    (opens : fopen path = some file) (accepted : file.Accepted) {uid : Bytes} {size : UInt8}
    (request : UidRequest uidProgramAddress uid size) (isp : Isp σ)
    (idle : target.idle isp.target) (quiet : isp.incoming = []) :
    ∃ middle final,
      programBinFileV1 peer malloc after fopen (some path) isp = .ok (0, middle) ∧
      programUid peer malloc behind uidProgramAddress (some uid) size middle =
        .ok (0, final) ∧
      ∀ address, 61952 ≤ address → address < flashSize →
        (target.memory final.target).flash address = 0xFF := by
  obtain ⟨block, blockIs, blockLength⟩ := allocates 512
  obtain ⟨sums, sumsIs, -⟩ := allocates (4 * blockCount file.content.length)
  obtain ⟨encode, allocated, encodeLength⟩ := allocates 64
  obtain ⟨middle, programs, ready, -⟩ := programBinFileV1_of_allocated target after opens
    accepted (allocates 64) blockIs blockLength sumsIs idle quiet
  have sizeSmall := size.toNat_lt
  have place : uidProgramAddress.toNat = 61440 := rfl
  have inside : uidProgramAddress.toNat + size.toNat ≤ flashEndAddress := by
    unfold flashEndAddress flashStartAddress flashSize sectorNum sectorSize
    omega
  obtain ⟨final, programsUid, -, flash⟩ := programUid_spec request ready.idle ready.quiet
    allocated encodeLength room (by omega) inside
  refine ⟨middle, final, programs, programsUid, fun address atLeast inFlash => ?_⟩
  unfold flashSize sectorNum sectorSize at inFlash
  unfold sectorSize at flash
  rw [flash, place]
  dsimp only
  rw [if_neg (by omega), if_pos (by omega)]

end Runs

/-- For every accepted file and every UID of at most 35 bytes: when both
programs return 0, the image is still in flash outside the UID exactly when the
file holds nothing but erased bytes behind the place of the UID. -/
theorem imageKept_iff {σ : Type} {peer : Peer σ} {malloc : Nat → Option Bytes}
    (target : Conforming peer)
    (sized : ∀ size block, malloc size = some block → block.length = size)
    {after : UInt8} {behind : Bytes} {fopen : Bytes → Option BinFile} {path : Bytes}
    {file : BinFile} (opens : fopen path = some file) (accepted : file.Accepted)
    {uid : Bytes} (nonempty : uid ≠ []) (short : uid.length ≤ 35) {isp middle final : Isp σ}
    (idle : target.idle isp.target) (quiet : isp.incoming = [])
    (programs : programBinFileV1 peer malloc after fopen (some path) isp = .ok (0, middle))
    (programsUid : programUid peer malloc behind uidProgramAddress (some uid)
      uid.length.toUInt8 middle = .ok (0, final)) :
    (∀ address < 512 * blockCount file.content.length,
        ¬ (uidProgramAddress.toNat ≤ address ∧
            address < uidProgramAddress.toNat + uid.length) →
          (target.memory final.target).flash address =
            (flashImage file.content).getD address 0) ↔
      ∀ address, uidProgramAddress.toNat + uid.length ≤ address →
        address < file.content.length → file.content.getD address 0 = 0xFF := by
  obtain ⟨ready, holds⟩ := programBinFileV1_zero sized opens accepted idle quiet programs
  have positive : 0 < uid.length := List.length_pos_of_ne_nil nonempty
  have sizeByte : uid.length.toUInt8.toNat = uid.length := by
    simp [Nat.toUInt8]
    omega
  have request : UidRequest uidProgramAddress uid uid.length.toUInt8 :=
    ⟨by decide, by omega, sizeByte.symm⟩
  obtain ⟨memory, room, fits, inside⟩ :=
    programUid_zero request ready.idle ready.quiet programsUid
  obtain ⟨encode, allocated⟩ := Option.ne_none_iff_exists'.mp memory
  obtain ⟨reached, runs, -, flash⟩ := programUid_spec request ready.idle ready.quiet
    allocated (sized 64 encode allocated) room fits inside
  obtain rfl : reached = final := by simpa using runs.symm.trans programsUid
  have place : uidProgramAddress.toNat = 61440 := rfl
  have imageInFlash : 512 * blockCount file.content.length ≤ 65536 := accepted.inFlash.2
  have inFile : file.content.length ≤ 512 * blockCount file.content.length := by
    unfold blockCount
    omega
  have below (address : Nat) (before : address < 61440) :
      (target.memory reached.target).flash address =
        (target.memory middle.target).flash address := by
    unfold sectorSize at flash
    rw [flash, place]
    dsimp only
    rw [if_neg (by omega), if_neg (by omega)]
  have above (address : Nat) (atLeast : 61440 + uid.length ≤ address)
      (inSector : address < 65536) :
      (target.memory reached.target).flash address = 0xFF := by
    unfold sectorSize at flash
    rw [flash, place]
    dsimp only
    split
    · rw [List.getD_eq_getElem?_getD, uidBlock_getElem? (by rw [place]; omega) (by omega),
        if_neg (by rw [place]; omega)]
      rfl
    · rw [if_pos (by omega)]
  rw [place]
  constructor
  · intro kept address atLeast inContent
    have same := kept address (by omega) (by omega)
    rw [above address atLeast (by omega), flashImage_getD (by omega) (by omega),
      if_pos inContent] at same
    exact same.symm
  · intro erased address inImage outside
    rcases Nat.lt_or_ge address 61440 with before | atLeast
    · rw [below address before, holds.written address inImage]
    · rw [above address (by omega) (by omega), flashImage_getD (by omega) inImage]
      split
      · next inContent => exact (erased address (by omega) inContent).symm
      · rfl

theorem imageKept_iff_smallest :
    ∃ middle final,
      programBinFileV1 (romPeer true) (fun size => some (List.replicate size 0)) 0
          (fun _ => some smallestFile) (some (ascii "/sd/test.bin")) romIsp =
        .ok (0, middle) ∧
      programUid (romPeer true) (fun size => some (List.replicate size 0)) [0]
          uidProgramAddress (some [1, 2, 3]) 3 middle = .ok (0, final) ∧
      ∀ address < 2048, ¬ (61440 ≤ address ∧ address < 61443) →
        final.target.memory.flash address =
          (flashImage smallestFile.content).getD address 0 := by
  have length : smallestFile.content.length = 2048 := List.length_replicate
  have accepted : smallestFile.Accepted := uniformFile_accepted (by decide)
  have blocks : 512 * blockCount smallestFile.content.length = 2048 := by
    rw [length]
    decide
  have request : UidRequest uidProgramAddress [1, 2, 3] 3 := ⟨by decide, by decide, rfl⟩
  obtain ⟨middle, final, programs, programsUid, -⟩ :=
    programs_then_uid (romConforming true) (fun size => some (List.replicate size 0))
      allocates_zeros 0 (List.cons_ne_nil 0 [])
      (fun _ => some smallestFile) (ascii "/sd/test.bin") rfl accepted request romIsp
      ⟨rfl, rfl⟩ rfl
  have kept := (imageKept_iff (romConforming true)
    sized_zeros (by rfl) accepted (by decide) (by decide) ⟨rfl, rfl⟩ rfl programs
    programsUid).mpr (by
      intro address atLeast inFile
      have lower : 61440 + 3 ≤ address := atLeast
      rw [length] at inFile
      omega)
  rw [blocks] at kept
  exact ⟨middle, final, programs, programsUid, kept⟩

/-- A file that fills the flash. -/
def largestFile : BinFile :=
  uniformFile 1 65536 (by decide)

/-- The end of the largest image is lost under a UID. -/
theorem largestImage_lost :
    ∃ middle final,
      programBinFileV1 (romPeer true) (fun size => some (List.replicate size 0)) 0
          (fun _ => some largestFile) (some (ascii "/sd/test.bin")) romIsp =
        .ok (0, middle) ∧
      programUid (romPeer true) (fun size => some (List.replicate size 0)) [0]
          uidProgramAddress (some [1, 2, 3]) 3 middle = .ok (0, final) ∧
      65535 < 512 * blockCount largestFile.content.length ∧
      final.target.memory.flash 65535 ≠ (flashImage largestFile.content).getD 65535 0 := by
  have length : largestFile.content.length = 65536 := List.length_replicate
  have accepted : largestFile.Accepted := uniformFile_accepted (by decide)
  have inImage : 65535 < 512 * blockCount largestFile.content.length := by
    rw [length]
    decide
  have request : UidRequest uidProgramAddress [1, 2, 3] 3 := ⟨by decide, by decide, rfl⟩
  obtain ⟨middle, final, programs, programsUid, erased⟩ :=
    programs_then_uid (romConforming true) (fun size => some (List.replicate size 0))
      allocates_zeros 0 (List.cons_ne_nil 0 [])
      (fun _ => some largestFile) (ascii "/sd/test.bin") rfl accepted request romIsp
      ⟨rfl, rfl⟩ rfl
  refine ⟨middle, final, programs, programsUid, inImage, ?_⟩
  have isErased : final.target.memory.flash 65535 = 0xFF := erased 65535 (by decide) (by decide)
  have written : largestFile.content.getD 65535 0 = 1 := by
    unfold largestFile uniformFile
    rw [List.getD_replicate _ (by decide)]
  rw [isErased, flashImage_getD (by decide) inImage, if_pos (by rw [length]; decide), written]
  decide

end OnlineProgram
