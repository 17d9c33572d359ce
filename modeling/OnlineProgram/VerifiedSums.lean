import OnlineProgram.ReadContents
import OnlineProgram.ScriptedTarget

/-!
# What verification verifies

`programBinFileV1` compares sums of blocks.  Whatever the flash holds after the
blocks have been copied, the program returns 0 when every block that is read
back has the sum of the block that was sent, and bytes of a block may have
changed places.
-/

namespace OnlineProgram

open ByteStrings CMemory SerialLink UuCoding

section Sums

variable {σ : Type} {peer : Peer σ} {malloc : Nat → Option Bytes} {file : BinFile}

/-- A block that has been programmed is in the buffer, whatever the target is. -/
theorem programBlock_zero {i : Nat} {buffer left : Bytes} {isp next : Isp σ}
    (nonempty : 0 < file.content.length) (inRange : i < blockCount file.content.length)
    (bufferLength : buffer.length = 513)
    (returned : programBlock peer malloc file (blockCount file.content.length)
      (lastBlockSize file.content.length) i buffer isp = .ok (0, left, next)) :
    left = imageBlock (flashImage file.content) i ++ buffer.drop 512 := by
  rw [programBlock_eq peer malloc nonempty inRange bufferLength] at returned
  cases writes : ispWriteToRAM peer malloc ispWriteRamAddr 512
      (imageBlock (flashImage file.content) i ++ buffer.drop 512) isp with
  | error fault => simp [writes, Except.bind] at returned
  | ok written =>
      simp only [writes, Except.bind] at returned
      split_ifs at returned
      · simp at returned
      · cases copies : ispCopyToFlash peer (i * 512).toUInt32 ispWriteRamAddr 512 written.2 with
        | error fault => simp only [copies, reduceCtorEq] at returned
        | ok copied =>
            simp only [copies, Except.ok.injEq, Prod.mk.injEq] at returned
            exact returned.2.1.symm

/-- Blocks that have been programmed leave the sums of the image. -/
theorem programBlocks_zero (nonempty : 0 < file.content.length) {remaining i : Nat}
    {buffer left : Bytes} {checksumW sums : List Nat} {isp final : Isp σ}
    (rounds : i + remaining = blockCount file.content.length)
    (bufferLength : buffer.length = 513)
    (returned : programBlocks peer malloc file (blockCount file.content.length)
      (lastBlockSize file.content.length) remaining i buffer checksumW isp =
        .ok (0, left, sums, final)) :
    left.length = 513 ∧
      sums = checksumW ++ (List.range' i remaining).map
        fun index => byteSum (imageBlock (flashImage file.content) index) := by
  have imageLength := flashImage_length nonempty
  induction remaining generalizing i buffer checksumW isp with
  | zero =>
      simp only [programBlocks, Except.ok.injEq, Prod.mk.injEq] at returned
      obtain ⟨-, rfl, rfl, -⟩ := returned
      exact ⟨bufferLength, by simp⟩
  | succ remaining ih =>
      have blockLength : (imageBlock (flashImage file.content) i).length = 512 :=
        imageBlock_length (by omega)
      unfold programBlocks at returned
      cases programs : programBlock peer malloc file (blockCount file.content.length)
          (lastBlockSize file.content.length) i buffer isp with
      | error fault => simp [programs, bind, Except.bind] at returned
      | ok programmed =>
          obtain ⟨ret, next, after⟩ := programmed
          simp only [programs, bind, Except.bind] at returned
          split_ifs at returned with failed
          · exact absurd (Prod.mk.inj (Except.ok.inj returned)).1 failed
          · obtain rfl : ret = 0 := not_not.mp failed
            have nextIs := programBlock_zero nonempty (by omega) bufferLength programs
            have nextLength : next.length = 513 := by
              rw [nextIs, List.length_append, blockLength, List.length_drop, bufferLength]
            rw [nextIs, sumBytes_append _ blockLength, ← nextIs] at returned
            obtain ⟨leftLength, sumsAre⟩ := ih (by omega) nextLength returned
            refine ⟨leftLength, ?_⟩
            rw [sumsAre, List.range'_succ, List.map_cons]
            simp

theorem copyPhase_zero (sized : ∀ size block, malloc size = some block → block.length = size)
    (accepted : file.Accepted) {after : UInt8} {buffer : Bytes} {checksumW : List Nat}
    {isp programmed : Isp σ}
    (copied : copyPhase peer malloc after file isp = .ok (0, buffer, checksumW, programmed)) :
    checksumW = (List.range' 0 (blockCount file.content.length)).map
      fun index => byteSum (imageBlock (flashImage file.content) index) := by
  unfold copyPhase at copied
  cases unlocks : ispUnlock peer isp with
  | error fault => simp [unlocks, bind, Except.bind] at copied
  | ok unlocked =>
      simp only [unlocks, bind, Except.bind] at copied
      cases erases : ispErase peer 0 (sectorNum - 1).toUInt8 unlocked.2 with
      | error fault => simp [erases] at copied
      | ok erased =>
          simp only [erases] at copied
          split_ifs at copied
          · simp at copied
          · cases block : malloc 512 with
            | none => simp [block] at copied
            | some blockBytes =>
                cases sums : malloc (4 * blockCount file.content.length) with
                | none => simp [block, sums] at copied
                | some sumsBytes =>
                    simp only [block, sums] at copied
                    cases again : ispUnlock peer erased.2 with
                    | error fault => simp [again] at copied
                    | ok ready =>
                        simp only [again] at copied
                        have bufferLength : (blockBytes ++ [after]).length = 513 := by
                          rw [List.length_append, sized 512 blockBytes block]
                          rfl
                        exact (programBlocks_zero accepted.inFlash.1 (Nat.zero_add _) bufferLength
                          copied).2

/-- `ISP_readMemory` reports the contents `held`, block by block from block `i`
on. -/
def ReportsFaithfully (peer : Peer σ) (held : Bytes) : Nat → Nat → Bytes → Isp σ → Prop
  | 0, _, _, _ => True
  | remaining + 1, i, buffer, isp =>
      ∃ stored next,
        ispReadMemory peer (i * 512).toUInt32 512 buffer isp = .ok (.success, stored, next) ∧
          stored.take 512 = imageBlock held i ∧
          ReportsFaithfully peer held remaining (i + 1) stored next

/-- Verification compares the sums of the blocks. -/
theorem verifyBlocks_zero_iff (image : Bytes) {held : Bytes} {remaining i : Nat}
    {buffer : Bytes} {isp : Isp σ} (inside : 512 * (i + remaining) ≤ held.length)
    (reports : ReportsFaithfully peer held remaining i buffer isp) :
    (∃ final, verifyBlocks peer ((List.range' i remaining).map
        fun index => byteSum (imageBlock image index)) i buffer isp = .ok (0, final)) ↔
      ∀ index, i ≤ index → index < i + remaining →
        byteSum (imageBlock held index) = byteSum (imageBlock image index) := by
  induction remaining generalizing i buffer isp with
  | zero =>
      simp only [List.range'_zero, List.map_nil, verifyBlocks, Except.ok.injEq, Prod.mk.injEq,
        true_and, exists_eq', true_iff]
      intro index atLeast below
      omega
  | succ remaining ih =>
      obtain ⟨stored, next, reads, block, rest⟩ := reports
      have blockLength : (imageBlock held i).length = 512 := imageBlock_length (by omega)
      have sum : sumBytes stored 512 = .ok (byteSum (imageBlock held i)) := by
        rw [← List.take_append_drop 512 stored, block]
        exact sumBytes_append _ blockLength
      rw [List.range'_succ, List.map_cons]
      unfold verifyBlocks
      rw [reads]
      simp only [bind, Except.bind, ne_eq, not_true_eq_false, if_false]
      rw [sum]
      simp only []
      by_cases same : byteSum (imageBlock held i) = byteSum (imageBlock image i)
      · rw [if_neg (not_not.mpr same), ih (by omega) rest]
        constructor
        · intro others index atLeast below
          rcases Nat.eq_or_lt_of_le atLeast with rfl | later
          · exact same
          · exact others index later (by omega)
        · intro all index atLeast below
          exact all index (by omega) (by omega)
      · rw [if_pos same]
        simp only [Except.ok.injEq, Prod.mk.injEq, Int.reduceNeg, reduceCtorEq, false_and,
          exists_false, false_iff]
        exact fun all => same (all i (Nat.le_refl i) (by omega))

/-- For every accepted file and all contents that the flash holds once the copies
are done, and that are reported faithfully: the program returns 0 exactly when
each block of them has the sum of the block that was sent. -/
theorem programBinFileV1_zero_iff_sums
    (sized : ∀ size block, malloc size = some block → block.length = size) {after : UInt8}
    {fopen : Bytes → Option BinFile} {path : Bytes} (opens : fopen path = some file)
    (accepted : file.Accepted) {buffer held : Bytes} {checksumW : List Nat}
    {isp programmed : Isp σ}
    (copied : copyPhase peer malloc after file isp = .ok (0, buffer, checksumW, programmed))
    (length : held.length = 512 * blockCount file.content.length)
    (reports : ReportsFaithfully peer held (blockCount file.content.length) 0 buffer
      programmed) :
    (∃ final, programBinFileV1 peer malloc after fopen (some path) isp = .ok (0, final)) ↔
      ∀ index < blockCount file.content.length,
        byteSum (imageBlock held index) =
          byteSum (imageBlock (flashImage file.content) index) := by
  have compares := verifyBlocks_zero_iff (flashImage file.content)
    (by rw [length, Nat.zero_add]) reports
  rw [programBinFileV1_eq_copyPhase peer malloc after opens accepted isp, copied]
  simp only [Except.bind, ne_eq, not_true_eq_false, if_false]
  rw [copyPhase_zero sized accepted copied, compares]
  simp only [Nat.zero_le, Nat.zero_add, true_implies]

end Sums

/-- The answers to a read of a block, and to the line that ends it. -/
def readReplies (held : Bytes) (i : Nat) : List Bytes :=
  [readResponse false (i * 512).toUInt32 512 (imageBlock held i)
    (encodeLines 12 (imageBlock held i)), []]

/-- The answers while the blocks are read back. -/
def verifyReplies (held : Bytes) (i remaining : Nat) : List Bytes :=
  ((List.range' i remaining).map (readReplies held)).flatten

theorem readAnswer_scripted {addr size : UInt32} {isp : Isp (List Bytes)} {reply : Bytes}
    {rest : List Bytes} (script : isp.target = reply :: rest) (quiet : isp.incoming = []) :
    readAnswer scriptPeer addr size isp = reply ∧
      (heardRead scriptPeer addr size isp).target = rest ∧
      (heardRead scriptPeer addr size isp).incoming = [] := by
  have replies := scriptPeer_replies 'R' [addr.toNat, size.toNat] reply rest (by decide)
    (by decide : 0 < ispUartRecvTimeoutUs)
  rw [← script] at replies
  obtain ⟨hears, heard⟩ := hear_of_replies quiet replies
  unfold heardRead readLine
  rw [heard]
  exact ⟨hears, rfl, rfl⟩

/-- The line that ends a read. -/
theorem afterRead_scripted {addr size : UInt32} {isp : Isp (List Bytes)} {reply : Bytes}
    {rest : List Bytes} (script : isp.target = reply :: [] :: rest)
    (quiet : isp.incoming = []) :
    (afterRead scriptPeer addr size isp .success).target = rest ∧
      (afterRead scriptPeer addr size isp .success).incoming = [] := by
  obtain ⟨-, heardScript, heardQuiet⟩ := readAnswer_scripted script quiet
  have ended : scriptPeer.receive (okStr ++ endcodeStr) ([] :: rest) = (rest, []) :=
    scriptPeer_receive_line [] rest (by decide : (10 : UInt8) ∉ okStr ++ [13])
  have targets := congrArg Prod.fst ended
  have timelines := congrArg Prod.snd ended
  rw [Peer.receive_append] at targets timelines
  unfold afterRead Isp.puts
  rw [if_pos rfl, heardScript, heardQuiet]
  exact ⟨targets, timelines⟩

/-- A script can report any contents. -/
theorem reportsFaithfully_scripted {held : Bytes} (inFlash : held.length ≤ flashSize)
    {remaining i : Nat} {buffer : Bytes} {isp : Isp (List Bytes)}
    (inside : 512 * (i + remaining) ≤ held.length) (bufferLength : buffer.length = 513)
    (script : isp.target = verifyReplies held i remaining) (quiet : isp.incoming = []) :
    ReportsFaithfully scriptPeer held remaining i buffer isp := by
  induction remaining generalizing i buffer isp with
  | zero => trivial
  | succ remaining ih =>
      have blockLength : (imageBlock held i).length = 512 := imageBlock_length (by omega)
      have addressIs := blockAddress_toNat (i := i) (by omega)
      have accepted : ReadAccepted (i * 512).toUInt32 512 := by
        refine ⟨.inl ?_, by decide, by decide, by decide, by decide⟩
        unfold checkFlashAddr
        rw [addressIs]
        unfold flashEndAddress flashStartAddress
        omega
      have full : IsFullText (imageBlock held i) (encodeLines 12 (imageBlock held i)) :=
        isFullText_encodeLines (by omega) (by omega)
      have scriptIs : isp.target =
          readResponse false (i * 512).toUInt32 512 (imageBlock held i)
              (encodeLines 12 (imageBlock held i)) ::
            [] :: verifyReplies held (i + 1) remaining := by
        rw [script, verifyReplies, List.range'_succ]
        rfl
      have silent : ([] : Bytes).length ≤ 33 := by decide
      have fits := response_length_le full (by omega) silent
      have groupsFit : 3 * groups (512 : UInt32).toNat ≤ buffer.length := by
        rw [bufferLength]
        decide
      have terminatorFits : (512 : UInt32).toNat < buffer.length := by
        rw [bufferLength]
        decide
      obtain ⟨stored, reads, storedLength, block⟩ :=
        ispReadMemory_of_answer accepted full blockLength (readAnswer_scripted scriptIs quiet).1
          fits (by decide) groupsFit terminatorFits
      obtain ⟨nextScript, nextQuiet⟩ := afterRead_scripted scriptIs quiet
      exact ⟨stored, _, reads, block,
        ih (by omega) (storedLength.trans bufferLength) nextScript nextQuiet⟩

/-- The link of a target that plays its part in the copy phase, and then reports
`held`. -/
def reportingIsp (num : Nat) (held : Bytes) : Isp (List Bytes) :=
  scriptIsp (copyReplies num ++ verifyReplies held 0 num)

theorem copyPhase_reporting {malloc : Nat → Option Bytes} (allocates : Allocates malloc)
    (after : UInt8) {file : BinFile} (accepted : file.Accepted) {held : Bytes}
    (length : held.length = 512 * blockCount file.content.length) :
    ∃ buffer programmed,
      copyPhase scriptPeer malloc after file
          (reportingIsp (blockCount file.content.length) held) =
        .ok (0, buffer, (List.range' 0 (blockCount file.content.length)).map
          (fun index => byteSum (imageBlock (flashImage file.content) index)), programmed) ∧
      ReportsFaithfully scriptPeer held (blockCount file.content.length) 0 buffer
        programmed := by
  have inFlash := accepted.inFlash.2
  obtain ⟨buffer, programmed, copied, bufferLength, script, quiet⟩ :=
    copyPhase_scripted allocates after accepted
      (verifyReplies held 0 (blockCount file.content.length))
  exact ⟨buffer, programmed, copied,
    reportsFaithfully_scripted (by omega) (by omega) bufferLength script quiet⟩

/-- The image itself is accepted. -/
theorem programBinFileV1_zero_iff_sums_image :
    ∃ final, programBinFileV1 scriptPeer (fun size => some (List.replicate size 0)) 0
        (fun _ => some smallestFile) (some (ascii "/sd/test.bin"))
        (reportingIsp (blockCount smallestFile.content.length)
          (flashImage smallestFile.content)) =
      .ok (0, final) := by
  have returns (file : BinFile) (accepted : file.Accepted) :
      ∃ final, programBinFileV1 scriptPeer (fun size => some (List.replicate size 0)) 0
          (fun _ => some file) (some (ascii "/sd/test.bin"))
          (reportingIsp (blockCount file.content.length) (flashImage file.content)) =
        .ok (0, final) := by
    have length : (flashImage file.content).length = 512 * blockCount file.content.length :=
      flashImage_length accepted.inFlash.1
    obtain ⟨buffer, programmed, copied, reports⟩ :=
      copyPhase_reporting allocates_zeros 0 accepted length
    exact (programBinFileV1_zero_iff_sums sized_zeros rfl accepted copied length reports).mpr
      fun _ _ => rfl
  exact returns smallestFile (uniformFile_accepted (by decide))

/-- A target may report any contents with the sums of the image. -/
theorem programBinFileV1_reporting {malloc : Nat → Option Bytes} (allocates : Allocates malloc)
    (after : UInt8) (fopen : Bytes → Option BinFile) (path : Bytes) {file : BinFile}
    (opens : fopen path = some file) (accepted : file.Accepted) {held : Bytes}
    (length : held.length = 512 * blockCount file.content.length)
    (sums : ∀ index < blockCount file.content.length, byteSum (imageBlock held index) =
      byteSum (imageBlock (flashImage file.content) index)) :
    ∃ buffer checksumW programmed final,
      copyPhase scriptPeer malloc after file
          (reportingIsp (blockCount file.content.length) held) =
        .ok (0, buffer, checksumW, programmed) ∧
      ReportsFaithfully scriptPeer held (blockCount file.content.length) 0 buffer programmed ∧
      programBinFileV1 scriptPeer malloc after fopen (some path)
          (reportingIsp (blockCount file.content.length) held) =
        .ok (0, final) := by
  obtain ⟨buffer, programmed, copied, reports⟩ :=
    copyPhase_reporting allocates after accepted length
  obtain ⟨final, verified⟩ := (verifyBlocks_zero_iff (flashImage file.content)
    (by rw [length, Nat.zero_add]) reports).mpr fun index _ below => sums index (by omega)
  refine ⟨buffer, _, programmed, final, copied, reports, ?_⟩
  rw [programBinFileV1_eq_copyPhase scriptPeer malloc after opens accepted, copied]
  exact verified

/-- The smallest file that is accepted, with two different bytes in its second
block. -/
def orderedFile : BinFile where
  content := List.replicate 512 0 ++ [1, 2] ++ List.replicate 1534 0
  short := by decide +kernel

/-- The image of `orderedFile`, where these bytes have changed places. -/
def swappedContents : Bytes :=
  (flashImage orderedFile.content).take 512 ++ [2, 1] ++ List.replicate 1534 0

theorem blockCount_orderedFile : blockCount orderedFile.content.length = 4 := by
  decide +kernel

theorem orderedFile_accepted : orderedFile.Accepted := by
  decide +kernel

theorem swappedContents_length :
    swappedContents.length = 512 * blockCount orderedFile.content.length := by
  decide +kernel

theorem swappedContents_sums (index : Nat) (below : index < 4) :
    byteSum (imageBlock swappedContents index) =
      byteSum (imageBlock (flashImage orderedFile.content) index) := by
  revert index
  decide +kernel

/-- Two bytes of a block that change places are not noticed. -/
theorem programBinFileV1_accepts_swapped :
    ∃ buffer checksumW programmed final,
      orderedFile.Accepted ∧
      copyPhase scriptPeer (fun size => some (List.replicate size 0)) 0 orderedFile
          (reportingIsp 4 swappedContents) =
        .ok (0, buffer, checksumW, programmed) ∧
      ReportsFaithfully scriptPeer swappedContents 4 0 buffer programmed ∧
      programBinFileV1 scriptPeer (fun size => some (List.replicate size 0)) 0
          (fun _ => some orderedFile) (some (ascii "/sd/test.bin"))
          (reportingIsp 4 swappedContents) =
        .ok (0, final) ∧
      swappedContents.length = 512 * blockCount orderedFile.content.length ∧
      swappedContents ≠ flashImage orderedFile.content := by
  have differs : swappedContents ≠ flashImage orderedFile.content := by decide +kernel
  have runs := programBinFileV1_reporting allocates_zeros 0 (fun _ => some orderedFile)
    (ascii "/sd/test.bin") rfl orderedFile_accepted swappedContents_length
    (by rw [blockCount_orderedFile]; exact swappedContents_sums)
  rw [blockCount_orderedFile] at runs
  obtain ⟨buffer, checksumW, programmed, final, copied, reports, returns⟩ := runs
  exact ⟨buffer, checksumW, programmed, final, orderedFile_accepted, copied, reports, returns,
    swappedContents_length, differs⟩

end OnlineProgram
