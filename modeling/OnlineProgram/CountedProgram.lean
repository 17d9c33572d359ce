import OnlineProgram.SystemCalls

/-!
# Programming with what is held counted

`programBinFileV1` once more, with every `fopen`, `fclose`, `malloc` and `free`
on the way.  Each request for memory has an outcome of its own, and the file may
be read short.
-/

namespace OnlineProgram.Counted

open ByteStrings CMemory ResourceRuns SerialLink UuCoding

variable {σ : Type} (peer : Peer σ) (heap : Heap)

/-- `ISP_WriteToRAM` -/
def ispWriteToRAM (startAddr size : UInt32) (data : Bytes) : Run Fault (Isp σ) RetCode :=
  if checkRamAddr startAddr ∧ startAddr.toNat % 32 = 0 ∧ size.toNat % 4 = 0 ∧
      0 < size.toNat ∧ size.toNat ≤ ispMaxSizeWrite then do
    let cmdStr ← attempt (sprintf 32
      (commandLine .writeToRam [formatD32 startAddr, formatD32 size]))
    let ret ← onState fun isp => ispAwait ispUartRecvTimeoutUs cmdSuccessRespStr
      (isp.clearRecvBuf.puts peer cmdStr)
    if ret ≠ .success then pure ret
    else
      let extra := size.toNat % 45
      let num := size.toNat / 45 + (if extra = 0 then 0 else 1)
      match ← malloc heap 64 with
      | none => pure .memOverflow
      | some encode => do
          onState fun isp =>
            (ispSendLines peer data num extra num 0 encode.bytes isp).map fun isp => ((), isp)
          free
          let checksum ← attempt (sumBytes data size.toNat)
          let checksumStr ← attempt (sprintf 12 (formatD checksum ++ endcodeStr))
          onState fun isp => ispAwait 1000 okStr (isp.clearRecvBuf.puts peer checksumStr)
  else pure .paramIllegal

/-- "load data", as `fread` finds it. -/
def loadBlock (file : SdFile) (num lastPackSize i : Nat) (buffer : Bytes) :
    Except Fault (Int × Bytes) :=
  if i = num - 1 then do
    let data := file.fread (i * 512) lastPackSize
    let buffer ← store buffer 0 data
    if data.length ≠ lastPackSize then .ok (-6, buffer)
    else do
      let buffer ← store buffer lastPackSize (List.replicate (512 - lastPackSize) 0xFF)
      .ok (0, buffer)
  else do
    let data := file.fread (i * 512) 512
    let buffer ← store buffer 0 data
    if data.length ≠ 512 then .ok (-6, buffer) else .ok (0, buffer)

/-- One round of the loop that programs. -/
def programBlock (file : SdFile) (num lastPackSize i : Nat) (buffer : Bytes) :
    Run Fault (Isp σ) (Int × Bytes) := do
  let (ret, buffer) ← attempt (loadBlock file num lastPackSize i buffer)
  if ret ≠ 0 then pure (ret, buffer)
  else do
    let buffer ← attempt (modifyBlock i buffer)
    let ret ← ispWriteToRAM peer heap ispWriteRamAddr 512 buffer
    if ret ≠ .success then pure (-7, buffer)
    else do
      let ret ← onState (ispCopyToFlash peer (i * 512).toUInt32 ispWriteRamAddr 512)
      if ret ≠ .success then pure (-8, buffer) else pure (0, buffer)

/-- The loop that programs, from block `i` on. -/
def programBlocks (file : SdFile) (num lastPackSize : Nat) :
    Nat → Nat → Bytes → List Nat → Run Fault (Isp σ) (Int × Bytes × List Nat)
  | 0, _, buffer, checksumW => pure (0, buffer, checksumW)
  | remaining + 1, i, buffer, checksumW => do
      let (ret, buffer) ← programBlock peer heap file num lastPackSize i buffer
      if ret ≠ 0 then pure (ret, buffer, checksumW)
      else do
        let checksum ← attempt (sumBytes buffer 512)
        programBlocks file num lastPackSize remaining (i + 1) buffer (checksumW ++ [checksum])

/-- The label `Exit` of `programBinFileV1`. -/
def exitProgram (ret : Int) : Run Fault (Isp σ) Int := do
  free
  free
  free
  closeFile
  pure ret

/-- `programBinFileV1` with the three blocks at hand. -/
def copyAndVerify (file : SdFile) (num lastPackSize : Nat) (buffer : Bytes) :
    Run Fault (Isp σ) Int := do
  let _ ← onState (ispUnlock peer)
  let (ret, buffer, checksumW) ← programBlocks peer heap file num lastPackSize num 0 buffer []
  if ret ≠ 0 then exitProgram ret
  else do
    let ret ← onState (verifyBlocks peer checksumW 0 buffer)
    if ret ≠ 0 then exitProgram ret
    else do
      closeFile
      pure 0

/-- The number of blocks of a file. -/
def fileBlocks (size : Nat) : Nat :=
  size / 512 + (if size % 512 ≠ 0 then 1 else 0)

/-- The requests for memory of `programBinFileV1`. -/
def allocateBlocks (after : UInt8) (file : SdFile) (size : Nat) : Run Fault (Isp σ) Int := do
  match ← malloc heap 512 with
  | none => pure (-5)
  | some buffer =>
      match ← malloc heap (4 * fileBlocks size) with
      | none => do
          free
          pure (-5)
      | some _ =>
          match ← malloc heap (4 * fileBlocks size) with
          | none => do
              free
              free
              pure (-5)
          | some _ =>
              copyAndVerify peer heap file (fileBlocks size) (lastBlockSize size)
                (buffer.bytes ++ [after])

/-- `programBinFileV1` with the file open, where `size` is the result of
`ftell`. -/
def programFile (after : UInt8) (file : SdFile) (size : Int) : Run Fault (Isp σ) Int :=
  if size < minBinSize ∨ size > flashSize then pure (-3)
  else do
    let _ ← onState (ispUnlock peer)
    let ret ← onState (ispErase peer 0 (sectorNum - 1).toUInt8)
    if ret ≠ .success then pure (-4)
    else allocateBlocks peer heap after file size.toNat

/-- `programBinFileV1`, where `after` is the byte behind the buffer. -/
def programBinFileV1 (after : UInt8) (fopen : Bytes → Option SdFile) (path : Option Bytes) :
    Run Fault (Isp σ) Int :=
  match path with
  | none => pure (-1)
  | some path =>
      match fopen path with
      | none => pure (-2)
      | some file => do
          openFile
          programFile peer heap after file file.size

/-! ### What the callees add -/

section Added

variable {peer : Peer σ} {heap : Heap}

theorem ispWriteToRAM_adds (startAddr size : UInt32) (data : Bytes) :
    Adds (ispWriteToRAM peer heap startAddr size data) 0 0 := by
  unfold ispWriteToRAM
  split
  · apply (adds_attempt _).zero_bind
    intro cmdStr
    apply (adds_onState _).zero_bind
    intro ret
    split
    · exact adds_pure ret
    · apply adds_malloc_bind
      · exact adds_pure _
      intro encode
      apply (adds_onState _).zero_bind
      intro _
      apply adds_free.bind_zero
      intro _
      apply (adds_attempt _).zero_bind
      intro checksum
      apply (adds_attempt _).zero_bind
      intro checksumStr
      exact adds_onState _
  · exact adds_pure _

theorem programBlock_adds (file : SdFile) (num lastPackSize i : Nat) (buffer : Bytes) :
    Adds (programBlock peer heap file num lastPackSize i buffer) 0 0 := by
  unfold programBlock
  apply (adds_attempt _).zero_bind
  rintro ⟨ret, loaded⟩
  dsimp only
  split
  · exact adds_pure _
  · apply (adds_attempt _).zero_bind
    intro modified
    apply (ispWriteToRAM_adds _ _ _).zero_bind
    intro written
    split
    · exact adds_pure _
    · apply (adds_onState _).zero_bind
      intro copied
      split
      · exact adds_pure _
      · exact adds_pure _

theorem programBlocks_adds (file : SdFile) (num lastPackSize remaining i : Nat) (buffer : Bytes)
    (checksumW : List Nat) :
    Adds (programBlocks peer heap file num lastPackSize remaining i buffer checksumW) 0 0 := by
  induction remaining generalizing i buffer checksumW with
  | zero => exact adds_pure _
  | succ remaining ih =>
      apply (programBlock_adds file num lastPackSize i buffer).zero_bind
      rintro ⟨ret, next⟩
      dsimp only
      split
      · exact adds_pure _
      · apply (adds_attempt _).zero_bind
        intro checksum
        exact ih (i + 1) next _

end Added

/-! ### The program without the counters -/

section Projection

variable {malloc : (size : Nat) → Option (CArray size)}

/-- An allocator that answers equal requests alike. -/
def uniform (malloc : (size : Nat) → Option (CArray size)) : Heap := fun _ => malloc

/-- Its blocks without their sizes. -/
def blockBytes (malloc : (size : Nat) → Option (CArray size)) (size : Nat) : Option Bytes :=
  (malloc size).map CArray.bytes

theorem blockBytes_none {size : Nat} {number : Nat}
    (refused : uniform malloc number size = none) : blockBytes malloc size = none := by
  rw [blockBytes, show malloc size = none from refused, Option.map_none]

theorem blockBytes_some {size : Nat} {number : Nat} {block : CArray size}
    (given : uniform malloc number size = some block) :
    blockBytes malloc size = some block.bytes := by
  rw [blockBytes, show malloc size = some block from given, Option.map_some]

theorem ispWriteToRAM_projects (startAddr size : UInt32) (data : Bytes) (world : World (Isp σ)) :
    Projects (ispWriteToRAM peer (uniform malloc) startAddr size data) (fun made => made) world
      (OnlineProgram.ispWriteToRAM peer (blockBytes malloc) startAddr size data world.state) := by
  unfold ispWriteToRAM OnlineProgram.ispWriteToRAM
  split
  · apply Projects.attempt_bind
    intro cmdStr _
    apply Projects.onState_bind
    intro ret isp _
    dsimp only
    split
    · exact projects_pure ret
    · apply Projects.malloc_bind
      · intro refused
        rw [blockBytes_none refused]
        exact projects_pure _
      · intro encode given
        simp only [blockBytes_some given]
        apply Projects.onState_map_bind
        intro sent _
        apply Projects.free_bind
        apply Projects.attempt_bind
        intro checksum _
        apply Projects.attempt_bind
        intro checksumStr _
        exact projects_onState _
  · exact projects_pure _

theorem loadBlock_sdFile (file : BinFile) (num lastPackSize i : Nat) (buffer : Bytes) :
    loadBlock file.sdFile num lastPackSize i buffer =
      OnlineProgram.loadBlock file num lastPackSize i buffer :=
  rfl

theorem programBlock_projects (file : BinFile) (num lastPackSize i : Nat) (buffer : Bytes)
    (world : World (Isp σ)) :
    Projects (programBlock peer (uniform malloc) file.sdFile num lastPackSize i buffer)
      (fun made => (made.1.1, made.1.2, made.2)) world
      (OnlineProgram.programBlock peer (blockBytes malloc) file num lastPackSize i buffer
        world.state) := by
  unfold programBlock OnlineProgram.programBlock
  rw [loadBlock_sdFile]
  apply Projects.attempt_bind
  rintro ⟨ret, loaded⟩ _
  dsimp only
  split
  · exact projects_pure _
  · apply Projects.attempt_bind
    intro modified _
    apply (ispWriteToRAM_projects peer ispWriteRamAddr 512 modified world).bind
    intro written between _
    dsimp only
    split
    · exact projects_pure _
    · apply Projects.onState_bind
      intro copied isp _
      dsimp only
      split
      · exact projects_pure _
      · exact projects_pure _

theorem programBlocks_projects (file : BinFile) (num lastPackSize remaining i : Nat)
    (buffer : Bytes) (checksumW : List Nat) (world : World (Isp σ)) :
    Projects
      (programBlocks peer (uniform malloc) file.sdFile num lastPackSize remaining i buffer
        checksumW)
      (fun made => (made.1.1, made.1.2.1, made.1.2.2, made.2)) world
      (OnlineProgram.programBlocks peer (blockBytes malloc) file num lastPackSize remaining i
        buffer checksumW world.state) := by
  induction remaining generalizing i buffer checksumW world with
  | zero => exact projects_pure _
  | succ remaining ih =>
      unfold programBlocks OnlineProgram.programBlocks
      apply (programBlock_projects peer file num lastPackSize i buffer world).bind
      rintro ⟨ret, next⟩ between _
      dsimp only
      split
      · exact projects_pure _
      · apply Projects.attempt_bind
        intro checksum _
        exact ih (i + 1) next _ between

theorem exitProgram_projects (ret : Int) (world : World (Isp σ)) :
    Projects (exitProgram ret) (fun made => made) world (.ok (ret, world.state)) :=
  rfl

theorem copyAndVerify_projects (file : BinFile) (num lastPackSize : Nat) (buffer : Bytes)
    (world : World (Isp σ)) :
    Projects (copyAndVerify peer (uniform malloc) file.sdFile num lastPackSize buffer)
      (fun made => made) world (do
        let (_, isp) ← ispUnlock peer world.state
        let (ret, buffer, checksumW, isp) ←
          OnlineProgram.programBlocks peer (blockBytes malloc) file num lastPackSize num 0 buffer
            [] isp
        if ret ≠ 0 then .ok (ret, isp) else verifyBlocks peer checksumW 0 buffer isp) := by
  unfold copyAndVerify
  apply Projects.onState_bind
  intro unlocked isp _
  apply (programBlocks_projects peer file num lastPackSize num 0 buffer [] _).bind
  rintro ⟨ret, left, checksumW⟩ between _
  dsimp only
  split
  · exact exitProgram_projects ret between
  · rw [← bind_pure (verifyBlocks peer checksumW 0 left between.state)]
    apply Projects.onState_bind
    intro verified isp _
    split
    · exact exitProgram_projects verified _
    · next zero =>
        obtain rfl : verified = 0 := not_not.mp zero
        apply Projects.closeFile_bind
        exact projects_pure _

theorem allocateBlocks_projects (after : UInt8) (file : BinFile) (size : Nat)
    (world : World (Isp σ)) :
    Projects (allocateBlocks peer (uniform malloc) after file.sdFile size) (fun made => made) world
      (match blockBytes malloc 512, blockBytes malloc (4 * fileBlocks size) with
      | some block, some _ => do
          let (_, isp) ← ispUnlock peer world.state
          let (ret, buffer, checksumW, isp) ←
            OnlineProgram.programBlocks peer (blockBytes malloc) file (fileBlocks size)
              (lastBlockSize size) (fileBlocks size) 0 (block ++ [after]) [] isp
          if ret ≠ 0 then .ok (ret, isp) else verifyBlocks peer checksumW 0 buffer isp
      | _, _ => .ok (-5, world.state)) := by
  unfold allocateBlocks
  apply Projects.malloc_bind
  · intro refused
    rw [blockBytes_none refused]
    exact projects_pure _
  · intro buffer given
    rw [blockBytes_some given]
    apply Projects.malloc_bind
    · intro refused
      rw [blockBytes_none refused]
      apply Projects.free_bind
      exact projects_pure _
    · intro checksumW checksumGiven
      rw [blockBytes_some checksumGiven]
      apply Projects.malloc_bind
      · intro refused
        have given : malloc (4 * fileBlocks size) = some checksumW := checksumGiven
        exact absurd (given.symm.trans refused) (by simp)
      · intro checksumR _
        exact copyAndVerify_projects peer file _ _ _ _

/-- Where the file is read without failures and equal requests have equal
outcomes, this is the program as it was before. -/
theorem programBinFileV1_projects (after : UInt8) (fopen : Bytes → Option BinFile)
    (path : Option Bytes) (world : World (Isp σ)) :
    Projects
      (programBinFileV1 peer (uniform malloc) after (fun path => (fopen path).map BinFile.sdFile)
        path)
      (fun made => made) world
      (OnlineProgram.programBinFileV1 peer (blockBytes malloc) after fopen path world.state) := by
  unfold programBinFileV1 OnlineProgram.programBinFileV1
  cases path with
  | none => exact projects_pure _
  | some path =>
      dsimp only
      cases fopen path with
      | none => exact projects_pure _
      | some file =>
          apply Projects.openFile_bind
          change Projects (programFile peer (uniform malloc) after file.sdFile file.size) _ _ _
          dsimp only
          unfold programFile
          split
          · exact projects_pure _
          · apply Projects.onState_bind
            intro unlocked isp _
            apply Projects.onState_bind
            intro erased isp _
            dsimp only
            split
            · exact projects_pure _
            · exact allocateBlocks_projects peer after file file.size.toNat _

end Projection

end OnlineProgram.Counted
