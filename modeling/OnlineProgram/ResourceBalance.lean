import OnlineProgram.CountedProgram
import OnlineProgram.IspConfig

/-!
# What a call leaves behind

Whether a call gives back the files and blocks it has taken.  `programBinFileV1`
does so when it comes to its label `Exit`, and none of the functions does so
where it succeeds.
-/

namespace OnlineProgram

open ByteStrings CMemory ResourceRuns SerialLink

variable {σ : Type}

/-! ### Blocks that fail -/

section Failures

variable (peer : Peer σ) (heap : Heap) (file : SdFile) (num lastPackSize : Nat)

/-- The buffer that is sent for a block that can be read. -/
def LoadsAs (i : Nat) (buffer modified : Bytes) : Prop :=
  ∃ loaded, Counted.loadBlock file num lastPackSize i buffer = .ok (0, loaded) ∧
    modifyBlock i loaded = .ok modified

/-- A block cannot be read, or the target does not take it. -/
inductive BlockRefused (i : Nat) (buffer : Bytes) (world : World (Isp σ)) : Prop
  | unread {ret : Int} {loaded : Bytes}
      (loads : Counted.loadBlock file num lastPackSize i buffer = .ok (ret, loaded))
      (short : ret ≠ 0)
  | unwritten {modified : Bytes} {ret : RetCode} {written : World (Isp σ)}
      (loads : LoadsAs file num lastPackSize i buffer modified)
      (writes : Counted.ispWriteToRAM peer heap ispWriteRamAddr 512 modified world =
        .ok (ret, written)) (refused : ret ≠ .success)
  | uncopied {modified : Bytes} {ret : RetCode} {written : World (Isp σ)} {copied : Isp σ}
      (loads : LoadsAs file num lastPackSize i buffer modified)
      (writes : Counted.ispWriteToRAM peer heap ispWriteRamAddr 512 modified world =
        .ok (.success, written))
      (copies : ispCopyToFlash peer (i * 512).toUInt32 ispWriteRamAddr 512 written.state =
        .ok (ret, copied)) (refused : ret ≠ .success)

/-- A block is read, and the target takes it. -/
inductive BlockTaken (i : Nat) (buffer : Bytes) (world : World (Isp σ)) :
    Bytes → World (Isp σ) → Prop
  | taken {modified : Bytes} {written : World (Isp σ)} {copied : Isp σ}
      (loads : LoadsAs file num lastPackSize i buffer modified)
      (writes : Counted.ispWriteToRAM peer heap ispWriteRamAddr 512 modified world =
        .ok (.success, written))
      (copies : ispCopyToFlash peer (i * 512).toUInt32 ispWriteRamAddr 512 written.state =
        .ok (.success, copied)) :
      BlockTaken i buffer world modified { written with state := copied }

/-- A block, from `i` on, cannot be read back or has another checksum than the
one at the head of the list. -/
inductive VerifyRefused : List Nat → Nat → Bytes → Isp σ → Prop
  | unread {checksumW : Nat} {rest : List Nat} {i : Nat} {buffer data : Bytes} {isp after : Isp σ}
      {ret : RetCode}
      (reads : ispReadMemory peer (i * 512).toUInt32 512 buffer isp = .ok (ret, data, after))
      (refused : ret ≠ .success) : VerifyRefused (checksumW :: rest) i buffer isp
  | differs {checksumW checksumR : Nat} {rest : List Nat} {i : Nat} {buffer data : Bytes}
      {isp after : Isp σ}
      (reads : ispReadMemory peer (i * 512).toUInt32 512 buffer isp = .ok (.success, data, after))
      (sums : sumBytes data 512 = .ok checksumR) (differ : checksumR ≠ checksumW) :
      VerifyRefused (checksumW :: rest) i buffer isp
  | later {checksumW : Nat} {rest : List Nat} {i : Nat} {buffer data : Bytes} {isp after : Isp σ}
      (reads : ispReadMemory peer (i * 512).toUInt32 512 buffer isp = .ok (.success, data, after))
      (sums : sumBytes data 512 = .ok checksumW)
      (refused : VerifyRefused rest (i + 1) data after) :
      VerifyRefused (checksumW :: rest) i buffer isp

/-- A block fails, of those that are left to program or of all when they are
verified. -/
inductive BlocksFail : Nat → Nat → Bytes → List Nat → World (Isp σ) → Prop
  | refused {remaining i : Nat} {buffer : Bytes} {checksumW : List Nat} {world : World (Isp σ)}
      (refused : BlockRefused peer heap file num lastPackSize i buffer world) :
      BlocksFail (remaining + 1) i buffer checksumW world
  | later {remaining i checksum : Nat} {buffer next : Bytes} {checksumW : List Nat}
      {world after : World (Isp σ)}
      (taken : BlockTaken peer heap file num lastPackSize i buffer world next after)
      (sums : sumBytes next 512 = .ok checksum)
      (fails : BlocksFail remaining (i + 1) next (checksumW ++ [checksum]) after) :
      BlocksFail (remaining + 1) i buffer checksumW world
  | unverified {i : Nat} {buffer : Bytes} {checksumW : List Nat} {world : World (Isp σ)}
      (refused : VerifyRefused peer checksumW 0 buffer world.state) :
      BlocksFail 0 i buffer checksumW world

end Failures

section Rounds

variable {peer : Peer σ} {heap : Heap} {file : SdFile} {num lastPackSize i : Nat}
  {buffer : Bytes} {world : World (Isp σ)}

/-- How a round ends. -/
theorem programBlock_cases {ret : Int} {next : Bytes} {after : World (Isp σ)}
    (ends : Counted.programBlock peer heap file num lastPackSize i buffer world =
      .ok ((ret, next), after)) :
    ret ≠ 0 ∧ BlockRefused peer heap file num lastPackSize i buffer world ∨
      ret = 0 ∧ BlockTaken peer heap file num lastPackSize i buffer world next after := by
  unfold Counted.programBlock at ends
  obtain ⟨⟨loadRet, loaded⟩, _, loading, afterLoad⟩ := bind_eq_ok.mp ends
  obtain ⟨loads, rfl⟩ := attempt_eq_ok.mp loading
  dsimp only at afterLoad
  split at afterLoad
  · next short =>
      obtain ⟨made, rfl⟩ := Prod.mk.inj (Except.ok.inj afterLoad)
      obtain ⟨rfl, rfl⟩ := Prod.mk.inj made
      exact .inl ⟨short, .unread loads short⟩
  · next whole =>
      obtain rfl : loadRet = 0 := not_not.mp whole
      obtain ⟨modified, _, modifying, afterModify⟩ := bind_eq_ok.mp afterLoad
      obtain ⟨modifies, rfl⟩ := attempt_eq_ok.mp modifying
      obtain ⟨writeRet, written, writes, afterWrite⟩ := bind_eq_ok.mp afterModify
      have loadsAs : LoadsAs file num lastPackSize i buffer modified := ⟨loaded, loads, modifies⟩
      split at afterWrite
      · next refused =>
          obtain ⟨made, rfl⟩ := Prod.mk.inj (Except.ok.inj afterWrite)
          obtain ⟨rfl, rfl⟩ := Prod.mk.inj made
          exact .inl ⟨by decide, .unwritten loadsAs writes refused⟩
      · next success =>
          obtain rfl : writeRet = .success := not_not.mp success
          obtain ⟨copyRet, _, copying, afterCopy⟩ := bind_eq_ok.mp afterWrite
          obtain ⟨copied, copies, rfl⟩ := onState_eq_ok.mp copying
          split at afterCopy
          · next refused =>
              obtain ⟨made, rfl⟩ := Prod.mk.inj (Except.ok.inj afterCopy)
              obtain ⟨rfl, rfl⟩ := Prod.mk.inj made
              exact .inl ⟨by decide, .uncopied loadsAs writes copies refused⟩
          · next success =>
              obtain rfl : copyRet = .success := not_not.mp success
              obtain ⟨made, rfl⟩ := Prod.mk.inj (Except.ok.inj afterCopy)
              obtain ⟨rfl, rfl⟩ := Prod.mk.inj made
              exact .inr ⟨rfl, .taken loadsAs writes copies⟩

/-- What a round does with the block it loads. -/
theorem LoadsAs.programBlock {modified : Bytes}
    (loads : LoadsAs file num lastPackSize i buffer modified) (world : World (Isp σ)) :
    Counted.programBlock peer heap file num lastPackSize i buffer world =
      (Counted.ispWriteToRAM peer heap ispWriteRamAddr 512 modified >>= fun ret =>
        if ret ≠ .success then pure (-7, modified)
        else onState (ispCopyToFlash peer (i * 512).toUInt32 ispWriteRamAddr 512) >>= fun ret =>
          if ret ≠ .success then pure (-8, modified) else pure (0, modified)) world := by
  obtain ⟨loaded, loads, modifies⟩ := loads
  unfold Counted.programBlock
  rw [loads, attempt_bind_ok]
  dsimp only
  rw [if_neg (by decide), modifies, attempt_bind_ok]

theorem BlockRefused.programBlock
    (refused : BlockRefused peer heap file num lastPackSize i buffer world) :
    ∃ ret next after, ret ≠ 0 ∧
      Counted.programBlock peer heap file num lastPackSize i buffer world =
        .ok ((ret, next), after) := by
  cases refused with
  | @unread ret loaded loads short =>
      refine ⟨ret, loaded, world, short, ?_⟩
      unfold Counted.programBlock
      rw [loads, attempt_bind_ok]
      dsimp only
      rw [if_pos short]
      rfl
  | @unwritten modified ret written loads writes refused =>
      refine ⟨-7, modified, written, by decide, ?_⟩
      rw [loads.programBlock, bind_of_ok writes, if_pos refused]
      rfl
  | @uncopied modified ret written copied loads writes copies refused =>
      refine ⟨-8, modified, { written with state := copied }, by decide, ?_⟩
      rw [loads.programBlock, bind_of_ok writes, if_neg (by decide),
        bind_of_ok (onState_of_ok copies), if_pos refused]
      rfl

theorem BlockTaken.programBlock {next : Bytes} {after : World (Isp σ)}
    (taken : BlockTaken peer heap file num lastPackSize i buffer world next after) :
    Counted.programBlock peer heap file num lastPackSize i buffer world =
      .ok ((0, next), after) := by
  cases taken with
  | taken loads writes copies =>
      rw [loads.programBlock, bind_of_ok writes, if_neg (by decide),
        bind_of_ok (onState_of_ok copies), if_neg (by decide)]
      rfl

theorem VerifyRefused.verifyBlocks {checksumW : List Nat} {isp : Isp σ}
    (refused : VerifyRefused peer checksumW i buffer isp) :
    ∃ ret after, ret ≠ 0 ∧ verifyBlocks peer checksumW i buffer isp = .ok (ret, after) := by
  induction refused with
  | @unread _ _ _ _ _ _ after _ reads refused =>
      refine ⟨-9, after, by decide, ?_⟩
      rw [OnlineProgram.verifyBlocks, reads]
      exact if_pos refused
  | @differs _ _ _ _ _ _ _ after reads sums differ =>
      refine ⟨-10, after, by decide, ?_⟩
      rw [OnlineProgram.verifyBlocks, reads]
      simp only [bind, Except.bind]
      rw [if_neg (by decide), sums]
      exact if_pos differ
  | later reads sums _ ih =>
      obtain ⟨ret, after, nonzero, ends⟩ := ih
      refine ⟨ret, after, nonzero, ?_⟩
      rw [OnlineProgram.verifyBlocks, reads]
      simp only [bind, Except.bind]
      rw [if_neg (by decide), sums]
      simp only []
      rw [if_neg (by simp), ends]

theorem verifyRefused_of_nonzero {checksumW : List Nat} {isp after : Isp σ} {ret : Int}
    (ends : verifyBlocks peer checksumW i buffer isp = .ok (ret, after)) (nonzero : ret ≠ 0) :
    VerifyRefused peer checksumW i buffer isp := by
  induction checksumW generalizing i buffer isp with
  | nil =>
      obtain ⟨rfl, -⟩ := Prod.mk.inj (Except.ok.inj ends)
      exact absurd rfl nonzero
  | cons checksumW rest ih =>
      unfold verifyBlocks at ends
      cases reads : ispReadMemory peer (i * 512).toUInt32 512 buffer isp with
      | error fault =>
          rw [reads] at ends
          cases ends
      | ok made =>
          obtain ⟨readRet, data, read⟩ := made
          simp only [reads, bind, Except.bind] at ends
          split at ends
          · next refused => exact .unread reads refused
          · next success =>
              obtain rfl : readRet = .success := not_not.mp success
              cases sums : sumBytes data 512 with
              | error fault => simp [sums] at ends
              | ok checksumR =>
                  simp only [sums] at ends
                  split at ends
                  · next differ => exact .differs reads sums differ
                  · next same =>
                      obtain rfl : checksumR = checksumW := not_not.mp same
                      exact .later reads sums (ih ends)

end Rounds

section Loops

variable {peer : Peer σ} {heap : Heap} {file : SdFile} {num lastPackSize : Nat}

/-- Both loops end with a failure. -/
def LoopsFail (peer : Peer σ) (heap : Heap) (file : SdFile) (num lastPackSize remaining i : Nat)
    (buffer : Bytes) (checksumW : List Nat) (world : World (Isp σ)) : Prop :=
  ∃ ret left sums after,
    Counted.programBlocks peer heap file num lastPackSize remaining i buffer checksumW world =
        .ok ((ret, left, sums), after) ∧
      (ret ≠ 0 ∨ ∃ verified isp, verified ≠ 0 ∧
        verifyBlocks peer sums 0 left after.state = .ok (verified, isp))

theorem BlocksFail.loopsFail {remaining i : Nat} {buffer : Bytes} {checksumW : List Nat}
    {world : World (Isp σ)}
    (fails : BlocksFail peer heap file num lastPackSize remaining i buffer checksumW world) :
    LoopsFail peer heap file num lastPackSize remaining i buffer checksumW world := by
  induction fails with
  | @refused remaining i buffer checksumW world refused =>
      obtain ⟨ret, next, after, nonzero, ends⟩ := refused.programBlock
      refine ⟨ret, next, checksumW, after, ?_, .inl nonzero⟩
      rw [Counted.programBlocks, bind_of_ok ends]
      dsimp only
      rw [if_pos nonzero]
      rfl
  | later taken sums _ ih =>
      obtain ⟨ret, left, all, final, ends, failure⟩ := ih
      refine ⟨ret, left, all, final, ?_, failure⟩
      rw [Counted.programBlocks, bind_of_ok taken.programBlock]
      dsimp only
      rw [if_neg (by decide), sums, attempt_bind_ok, ends]
  | @unverified i buffer checksumW world refused =>
      obtain ⟨verified, isp, nonzero, ends⟩ := refused.verifyBlocks
      exact ⟨0, buffer, checksumW, world, rfl, .inr ⟨verified, isp, nonzero, ends⟩⟩

theorem LoopsFail.blocksFail {remaining i : Nat} {buffer : Bytes} {checksumW : List Nat}
    {world : World (Isp σ)}
    (fails : LoopsFail peer heap file num lastPackSize remaining i buffer checksumW world) :
    BlocksFail peer heap file num lastPackSize remaining i buffer checksumW world := by
  obtain ⟨ret, left, sums, after, ends, failure⟩ := fails
  induction remaining generalizing i buffer checksumW world with
  | zero =>
      obtain ⟨made, rfl⟩ := Prod.mk.inj (Except.ok.inj ends)
      obtain ⟨rfl, rfl, rfl⟩ : 0 = ret ∧ buffer = left ∧ checksumW = sums := by
        simpa using made
      rcases failure with impossible | ⟨verified, isp, nonzero, verifies⟩
      · exact absurd rfl impossible
      · exact .unverified (verifyRefused_of_nonzero verifies nonzero)
  | succ remaining ih =>
      rw [Counted.programBlocks] at ends
      obtain ⟨⟨roundRet, next⟩, between, round, afterRound⟩ := bind_eq_ok.mp ends
      rcases programBlock_cases round with ⟨-, refused⟩ | ⟨rfl, taken⟩
      · exact .refused refused
      · dsimp only at afterRound
        rw [if_neg (by decide)] at afterRound
        obtain ⟨checksum, _, summing, afterSum⟩ := bind_eq_ok.mp afterRound
        obtain ⟨summed, rfl⟩ := attempt_eq_ok.mp summing
        exact .later taken summed (ih afterSum)

theorem exitProgram_gains (ret : Int) (world : World (Isp σ)) :
    Gains (Counted.exitProgram ret) world (-1) (-3) := by
  unfold Counted.exitProgram
  rw [gains_free_bind_iff, gains_free_bind_iff, gains_free_bind_iff, gains_closeFile_bind_iff,
    gains_pure_iff]
  decide

/-- The three blocks and the file are given back where a loop fails, and only
there. -/
theorem copyAndVerify_gains_iff {buffer : Bytes} {world : World (Isp σ)} :
    Gains (Counted.copyAndVerify peer heap file num lastPackSize buffer) world (-1) (-3) ↔
      ∃ again ready, ispUnlock peer world.state = .ok (again, ready) ∧
        BlocksFail peer heap file num lastPackSize num 0 buffer []
          { world with state := ready } := by
  unfold Counted.copyAndVerify
  constructor
  · intro gains
    obtain ⟨again, _, unlocking, gainsLoops⟩ := (adds_onState _).gains_bind_iff.mp gains
    obtain ⟨ready, unlocks, rfl⟩ := onState_eq_ok.mp unlocking
    obtain ⟨⟨ret, left, sums⟩, after, ends, gainsEnd⟩ :=
      (Counted.programBlocks_adds file num lastPackSize num 0 buffer []).gains_bind_iff.mp
        gainsLoops
    refine ⟨again, ready, unlocks, LoopsFail.blocksFail ⟨ret, left, sums, after, ends, ?_⟩⟩
    dsimp only at gainsEnd
    split at gainsEnd
    · next failed => exact .inl failed
    · obtain ⟨verified, _, verifying, gainsVerified⟩ :=
        (adds_onState _).gains_bind_iff.mp gainsEnd
      obtain ⟨isp, verifies, rfl⟩ := onState_eq_ok.mp verifying
      refine .inr ⟨verified, isp, ?_, verifies⟩
      rintro rfl
      rw [if_neg (by decide), gains_closeFile_bind_iff, gains_pure_iff] at gainsVerified
      omega
  · rintro ⟨again, ready, unlocks, fails⟩
    obtain ⟨ret, left, sums, after, ends, failure⟩ := fails.loopsFail
    apply (adds_onState _).gains_bind_iff.mpr
    refine ⟨again, _, onState_of_ok unlocks, ?_⟩
    apply (Counted.programBlocks_adds file num lastPackSize num 0 buffer []).gains_bind_iff.mpr
    refine ⟨(ret, left, sums), after, ends, ?_⟩
    dsimp only
    split
    · exact exitProgram_gains ret after
    · next finished =>
        obtain ⟨verified, isp, nonzero, verifies⟩ := failure.resolve_left finished
        apply (adds_onState _).gains_bind_iff.mpr
        refine ⟨verified, _, onState_of_ok verifies, ?_⟩
        rw [if_pos nonzero]
        exact exitProgram_gains verified _

/-- The world when the requests of `programBinFileV1` are granted. -/
def grantedThree (world : World (Isp σ)) : World (Isp σ) :=
  ((world.countRequest.hold 0 1).countRequest.hold 0 1).countRequest.hold 0 1

theorem allocateBlocks_gains_iff {after : UInt8} {size : Nat} {world : World (Isp σ)} :
    Gains (Counted.allocateBlocks peer heap after file size) world (-1) 0 ↔
      ∃ buffer, heap world.requests 512 = some buffer ∧
        heap (world.requests + 1) (4 * Counted.fileBlocks size) ≠ none ∧
        heap (world.requests + 2) (4 * Counted.fileBlocks size) ≠ none ∧
        Gains (Counted.copyAndVerify peer heap file (Counted.fileBlocks size)
          (lastBlockSize size) (buffer.bytes ++ [after])) (grantedThree world) (-1) (-3) := by
  unfold Counted.allocateBlocks
  cases first : heap world.requests 512 with
  | none =>
      rw [gains_malloc_bind_none first, gains_pure_iff]
      simp
  | some buffer =>
      rw [gains_malloc_bind_some first]
      simp only [Option.some.injEq, exists_eq_left']
      cases second : heap (world.requests + 1) (4 * Counted.fileBlocks size) with
      | none =>
          have refused : heap (world.countRequest.hold 0 1).requests
              (4 * Counted.fileBlocks size) = none := second
          rw [gains_malloc_bind_none refused, gains_free_bind_iff, gains_pure_iff]
          simp
      | some checksumW =>
          have given : heap (world.countRequest.hold 0 1).requests
              (4 * Counted.fileBlocks size) = some checksumW := second
          rw [gains_malloc_bind_some given]
          simp only []
          cases third : heap (world.requests + 2) (4 * Counted.fileBlocks size) with
          | none =>
              have refused : heap ((world.countRequest.hold 0 1).countRequest.hold 0 1).requests
                  (4 * Counted.fileBlocks size) = none := third
              rw [gains_malloc_bind_none refused, gains_free_bind_iff, gains_free_bind_iff,
                gains_pure_iff]
              simp
          | some checksumR =>
              have given : heap ((world.countRequest.hold 0 1).countRequest.hold 0 1).requests
                  (4 * Counted.fileBlocks size) = some checksumR := third
              rw [gains_malloc_bind_some given]
              simp [grantedThree]

end Loops

/-- A block fails after the flash is erased and all memory is granted. -/
inductive FailsAtBlock (peer : Peer σ) (heap : Heap) (after : UInt8) (file : SdFile)
    (world : World (Isp σ)) : Prop
  | fails {unlock again : RetCode} {unlocked erased ready : Isp σ} {buffer : CArray 512}
      (accepted : ¬ (file.size < minBinSize ∨ file.size > flashSize))
      (unlocks : ispUnlock peer world.state = .ok (unlock, unlocked))
      (erases : ispErase peer 0 (sectorNum - 1).toUInt8 unlocked = .ok (.success, erased))
      (first : heap world.requests 512 = some buffer)
      (second : heap (world.requests + 1) (4 * Counted.fileBlocks file.size.toNat) ≠ none)
      (third : heap (world.requests + 2) (4 * Counted.fileBlocks file.size.toNat) ≠ none)
      (unlocksAgain : ispUnlock peer erased = .ok (again, ready))
      (blocks : BlocksFail peer heap file (Counted.fileBlocks file.size.toNat)
        (lastBlockSize file.size.toNat) (Counted.fileBlocks file.size.toNat) 0
        (buffer.bytes ++ [after]) [] { grantedThree world with state := ready })

theorem programFile_gains_iff {peer : Peer σ} {heap : Heap} {after : UInt8} {file : SdFile}
    {world : World (Isp σ)} :
    Gains (Counted.programFile peer heap after file file.size) world (-1) 0 ↔
      FailsAtBlock peer heap after file world := by
  unfold Counted.programFile
  constructor
  · intro gains
    split at gains
    · rw [gains_pure_iff] at gains
      omega
    · next accepted =>
        obtain ⟨unlock, _, unlocking, gainsErase⟩ := (adds_onState _).gains_bind_iff.mp gains
        obtain ⟨unlocked, unlocks, rfl⟩ := onState_eq_ok.mp unlocking
        obtain ⟨erase, _, erasing, gainsAfter⟩ := (adds_onState _).gains_bind_iff.mp gainsErase
        obtain ⟨erased, erases, rfl⟩ := onState_eq_ok.mp erasing
        split at gainsAfter
        · rw [gains_pure_iff] at gainsAfter
          omega
        · next success =>
            obtain rfl : erase = .success := not_not.mp success
            obtain ⟨buffer, first, second, third, gainsLoops⟩ :=
              allocateBlocks_gains_iff.mp gainsAfter
            obtain ⟨again, ready, unlocksAgain, blocks⟩ :=
              copyAndVerify_gains_iff.mp gainsLoops
            exact .fails accepted unlocks erases first second third unlocksAgain blocks
  · rintro ⟨accepted, unlocks, erases, first, second, third, unlocksAgain, blocks⟩
    rw [if_neg accepted]
    apply (adds_onState _).gains_bind_iff.mpr
    refine ⟨_, _, onState_of_ok unlocks, ?_⟩
    apply (adds_onState _).gains_bind_iff.mpr
    refine ⟨_, _, onState_of_ok erases, ?_⟩
    rw [if_neg (by decide)]
    apply allocateBlocks_gains_iff.mpr
    refine ⟨_, first, second, third, ?_⟩
    exact copyAndVerify_gains_iff.mpr ⟨_, _, unlocksAgain, blocks⟩

theorem programBinFileV1_givesBack_iff {peer : Peer σ} {heap : Heap} {after : UInt8}
    {fopen : Bytes → Option SdFile} {path : Option Bytes} {world : World (Isp σ)} :
    GivesBack (Counted.programBinFileV1 peer heap after fopen path) world ↔
      ∀ file ∈ path.bind fopen, FailsAtBlock peer heap after file (world.hold 1 0) := by
  rw [givesBack_iff_gains]
  unfold Counted.programBinFileV1
  cases path with
  | none => simp [gains_pure_iff]
  | some path =>
      dsimp only
      cases opens : fopen path with
      | none => simp [gains_pure_iff, opens]
      | some file =>
          rw [gains_openFile_bind_iff]
          simp [opens, ← programFile_gains_iff]

/-! ### The configuration -/

section Configuration

variable {heap : Heap} {parse : Bytes → Option CJson} {file : SdFile} {config : IspConfig}
  {world : World (Option IspConfig)} {files blocks : Int}

theorem exitCfg_gains_iff {ret : Int} :
    Gains (exitCfg ret) world files blocks ↔ files = -1 ∧ blocks = -1 := by
  unfold exitCfg
  rw [gains_closeFile_bind_iff, gains_free_bind_iff, gains_pure_iff]
  omega

/-- At most one of the two buffers is given back. -/
theorem parseCfg_keeps {txt : CArray (cfgFileSizeLimit + 1)}
    (gains : Gains (parseCfg parse file txt config) world files blocks) : -1 ≤ blocks := by
  unfold parseCfg at gains
  obtain ⟨text, _, _, gainsParse⟩ := (adds_attempt _).gains_bind_iff.mp gains
  cases parsed : parse text with
  | none =>
      rw [cjsonParse_bind_none parsed, exitCfg_gains_iff] at gainsParse
      omega
  | some json =>
      rw [cjsonParse_bind_some parsed, gains_own_bind_iff] at gainsParse
      dsimp only at gainsParse
      split at gainsParse
      · rw [exitCfg_gains_iff] at gainsParse
        omega
      · obtain ⟨_, _, _, gainsFilled⟩ := (adds_onState _).gains_bind_iff.mp gainsParse
        rw [gains_pure_iff] at gainsFilled
        omega

theorem loadCfg_gains_iff :
    Gains (loadCfg heap parse file config) world (-1) 0 ↔
      file.size > cfgFileSizeLimit ∨ heap world.requests (cfgFileSizeLimit + 1) = none := by
  unfold loadCfg
  split
  · next large =>
      refine iff_of_true ?_ (.inl large)
      rw [gains_closeFile_bind_iff, gains_pure_iff]
      decide
  · next small =>
      cases first : heap world.requests (cfgFileSizeLimit + 1) with
      | none =>
          refine iff_of_true ?_ (.inr rfl)
          rw [gains_malloc_bind_none first, gains_closeFile_bind_iff, gains_pure_iff]
          decide
      | some txt =>
          refine iff_of_false ?_ (by simpa using small)
          rw [gains_malloc_bind_some first]
          simp only []
          cases second : heap (world.requests + 1) (cfgFileSizeLimit + 1) with
          | none =>
              have refused : heap (world.countRequest.hold 0 1).requests
                  (cfgFileSizeLimit + 1) = none := second
              rw [gains_malloc_bind_none refused, gains_closeFile_bind_iff, gains_pure_iff]
              omega
          | some flit =>
              have given : heap (world.countRequest.hold 0 1).requests
                  (cfgFileSizeLimit + 1) = some flit := second
              rw [gains_malloc_bind_some given]
              intro gains
              have kept := parseCfg_keeps gains
              omega

theorem getIspCfg_givesBack_iff {fopen : Bytes → Option SdFile} {path : Option Bytes} :
    GivesBack (getIspCfg heap parse fopen path) world ↔
      ∀ file ∈ path.bind fopen, world.state = none ∨ file.size > cfgFileSizeLimit ∨
        heap world.requests (cfgFileSizeLimit + 1) = none := by
  cases path with
  | none =>
      have unopened : getIspCfg heap parse fopen none world = .ok (-1, world) := rfl
      simp [GivesBack, unopened]
  | some path =>
      cases given : world.state with
      | none => simp [GivesBack, getIspCfg_null heap parse fopen path given]
      | some config =>
          rw [givesBack_iff_gains]
          unfold Gains
          rw [getIspCfg_eq heap parse fopen path given]
          cases opens : fopen path with
          | none => simp [opens]
          | some file =>
              simp only []
              rw [gains_hold_iff]
              simp only [Option.bind_some, opens, Option.mem_def, Option.some.injEq, forall_eq',
                reduceCtorEq, false_or]
              exact loadCfg_gains_iff

end Configuration

/-! ### Messages -/

namespace Counted

/-- `parseRecvMsgInfo`, which does not delete the tree. -/
def parseRecvMsgInfo (nullText : Bytes) (parse : Bytes → Option CJson) (text : Bytes)
    (answers : Option Nat) : Run Fault Device Unit := do
  match ← cjsonParse parse text with
  | none => pure ()
  | some json =>
      onState fun device => .ok ((), device.parseRecvMsgInfo nullText (some json) answers)

/-- On the device it does what it did before. -/
theorem parseRecvMsgInfo_projects (nullText : Bytes) (parse : Bytes → Option CJson)
    (text : Bytes) (answers : Option Nat) (world : World Device) :
    Projects (parseRecvMsgInfo nullText parse text answers) (fun made => made) world
      (.ok ((), world.state.parseRecvMsgInfo nullText (parse text) answers)) := by
  unfold parseRecvMsgInfo
  cases parsed : parse text with
  | none =>
      rw [cjsonParse_bind_none parsed]
      exact projects_pure ()
  | some json =>
      rw [cjsonParse_bind_some parsed]
      rfl

end Counted

theorem parseRecvMsgInfo_givesBack_iff {nullText : Bytes} {parse : Bytes → Option CJson}
    {text : Bytes} {answers : Option Nat} {world : World Device} :
    GivesBack (Counted.parseRecvMsgInfo nullText parse text answers) world ↔ parse text = none := by
  rw [givesBack_iff_gains]
  unfold Counted.parseRecvMsgInfo
  cases parsed : parse text with
  | none =>
      rw [cjsonParse_bind_none parsed, gains_pure_iff]
      simp
  | some json =>
      rw [cjsonParse_bind_some parsed, gains_own_bind_iff]
      refine iff_of_false ?_ (by simp)
      rintro ⟨_, _, returns, -, blocksAfter⟩
      obtain ⟨_, -, rfl⟩ := onState_eq_ok.mp returns
      have positive := json.blocks_pos
      simp only [World.hold] at blocksAfter
      omega

/-- Files and blocks are as they were before the call exactly in these cases: no
file is opened or a block fails in `programBinFileV1`; no file is opened, it is
too large or the first buffer is refused in `getISPCfg`; and a message is no
JSON. -/
theorem calls_giveBack_iff (peer : Peer σ) (heap : Heap) (parse : Bytes → Option CJson)
    (fopen : Bytes → Option SdFile) (path : Option Bytes) (after : UInt8)
    (nullText text : Bytes) (answers : Option Nat) (isp : World (Isp σ))
    (config : World (Option IspConfig)) (device : World Device) :
    (GivesBack (Counted.programBinFileV1 peer heap after fopen path) isp ↔
        ∀ file ∈ path.bind fopen, FailsAtBlock peer heap after file (isp.hold 1 0)) ∧
      (GivesBack (getIspCfg heap parse fopen path) config ↔
        ∀ file ∈ path.bind fopen, config.state = none ∨ file.size > cfgFileSizeLimit ∨
          heap config.requests (cfgFileSizeLimit + 1) = none) ∧
      (GivesBack (Counted.parseRecvMsgInfo nullText parse text answers) device ↔
        parse text = none) :=
  ⟨programBinFileV1_givesBack_iff, getIspCfg_givesBack_iff, parseRecvMsgInfo_givesBack_iff⟩

def mutePeer : Peer Unit where
  accept _ state := (state, [])

def emptyFile : BinFile where
  content := []
  short := by decide

/-- A file that is too small stays open, a configuration that is read keeps its
file, its buffers and its tree, and so does the answer to a heartbeat its tree. -/
theorem calls_leak :
    ¬ GivesBack (Counted.programBinFileV1 mutePeer fullHeap 0 (fun _ => some emptyFile.sdFile)
        (some (ascii "/sd/app.bin")))
      (World.fresh { target := (), incoming := [], ispRecvBuf := [] }) ∧
    ¬ GivesBack (getIspCfg fullHeap
        (parseOnly (sampleText "0") (sampleTree (numberItem "flash_start_address" 0)))
        (fun _ => some (sampleFile sampleFits_number).sdFile) (some (ascii "/sd/lpc.json")))
      (World.fresh (some emptyConfig)) ∧
    ¬ GivesBack (Counted.parseRecvMsgInfo []
        (fun _ => some (answerJson apiIdHeartbeat respCodeSuccess none))
        (ascii "\x7b\"apiId\":2,\"respCode\":100\x7d") none)
      (World.fresh connectedDevice) := by
  refine ⟨?_, ?_, ?_⟩
  · rw [programBinFileV1_givesBack_iff]
    intro restores
    cases restores emptyFile.sdFile rfl with
    | fails accepted => exact accepted (.inl (by decide))
  · rw [getIspCfg_givesBack_iff]
    intro restores
    have large := restores (sampleFile sampleFits_number).sdFile rfl
    rw [BinFile.sdFile_size, BinFile.size_of_small sampleFits_number.small] at large
    have small := sampleFits_number.small
    rcases large with null | large | refused
    · cases null
    · exact absurd (Int.ofNat_lt.mp large) (Nat.not_lt.mpr small)
    · cases refused
  · rw [parseRecvMsgInfo_givesBack_iff]
    simp

end OnlineProgram
