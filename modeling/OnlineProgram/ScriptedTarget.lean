import OnlineProgram.ProgramBinFile

/-!
# A scripted target

A target that answers line after line from a script, and looks at nothing that
it is sent.  It takes the place of a machine whose flash is out of order: as
long as the answers are those of the boot ROM, the host sees no difference.
-/

namespace OnlineProgram

open ByteStrings CMemory SerialLink UuCoding

/-- The state is what is left of the script. -/
def scriptPeer : Peer (List Bytes) where
  accept byte script :=
    if byte = 10 then (script.tail, (script.headD []).map fun sent => (0, sent))
    else (script, [])

/-- The link before any command. -/
def scriptIsp (script : List Bytes) : Isp (List Bytes) :=
  { target := script, incoming := [], ispRecvBuf := [] }

theorem scriptPeer_receive_line {body : Bytes} (reply : Bytes) (rest : List Bytes)
    (noFeed : (10 : UInt8) ∉ body) :
    scriptPeer.receive (body ++ [10]) (reply :: rest) =
      (rest, reply.map fun sent => (0, sent)) := by
  induction body with
  | nil => simp [Peer.receive, scriptPeer]
  | cons byte body ih =>
      obtain ⟨byteNotFeed, bodyNoFeed⟩ : ¬ 10 = byte ∧ (10 : UInt8) ∉ body := by
        simpa using noFeed
      have taken : scriptPeer.accept byte (reply :: rest) = (reply :: rest, []) := by
        simp [scriptPeer, Ne.symm byteNotFeed]
      rw [List.cons_append, Peer.receive, taken]
      simp only [ih bodyNoFeed, List.nil_append]

theorem scriptPeer_replies_line {body : Bytes} (reply : Bytes) (rest : List Bytes)
    {timeoutUs : Nat} (noFeed : (10 : UInt8) ∉ body) (patient : 0 < timeoutUs) :
    scriptPeer.Replies (body ++ [10]) timeoutUs reply (reply :: rest) rest := by
  refine ⟨_, scriptPeer_receive_line reply rest noFeed, by simp, ?_⟩
  intro sent member
  obtain ⟨byte, -, rfl⟩ := List.mem_map.mp member
  exact patient

theorem scriptPeer_replies (letter : Char) (arguments : List Nat) (reply : Bytes)
    (rest : List Bytes) {timeoutUs : Nat} (notFeed : letter.toNat.toUInt8 ≠ 10)
    (patient : 0 < timeoutUs) :
    scriptPeer.Replies (requestLine letter arguments) timeoutUs reply (reply :: rest) rest := by
  obtain ⟨body, lineEq, noFeed⟩ := requestLine_eq_append letter arguments notFeed
  rw [lineEq]
  exact scriptPeer_replies_line reply rest noFeed patient

/-- Lines that the script lets pass. -/
theorem scriptPeer_receive_data {data : Bytes} {lines : List Bytes} (isText : IsText data lines)
    (rest : List Bytes) :
    scriptPeer.receive lines.flatten (List.replicate lines.length [] ++ rest) = (rest, []) := by
  induction isText with
  | nil => rfl
  | @cons chunk line chunks lines isLine _ ih =>
      obtain ⟨body, lineEq, noFeed⟩ := isLine_eq_append isLine
      rw [List.flatten_cons, List.length_cons, List.replicate_succ, List.cons_append,
        Peer.receive_append, lineEq, scriptPeer_receive_line _ _ noFeed]
      simp only [ih, List.map_nil, List.nil_append]

theorem scriptPeer_replies_data {data : Bytes} {lines : List Bytes} {timeoutUs : Nat}
    (isText : IsText data lines) (rest : List Bytes) (patient : 0 < timeoutUs) :
    scriptPeer.Replies (lines.flatten ++ checksumLine data) timeoutUs okLine
      (List.replicate lines.length [] ++ okLine :: rest) rest := by
  obtain ⟨body, checksumEq, noFeed⟩ := checksumLine_eq_append data
  obtain ⟨timeline, receives, sent, inTime⟩ :=
    scriptPeer_replies_line okLine rest noFeed patient
  refine ⟨timeline, ?_, sent, inTime⟩
  rw [checksumEq, Peer.receive_append, scriptPeer_receive_data isText, receives]
  rfl

/-- The answers while a block is written to RAM and copied. -/
def blockReplies : List Bytes :=
  successLine :: (List.replicate 12 [] ++ [okLine, successLine, successLine])

/-- The answers of a copy phase. -/
def copyReplies (num : Nat) : List Bytes :=
  List.replicate 4 successLine ++ (List.replicate num blockReplies).flatten

section Phases

variable {malloc : Nat → Option Bytes} {file : BinFile} {rest : List Bytes}
  {isp : Isp (List Bytes)}

theorem ispUnlock_scripted (script : isp.target = successLine :: rest)
    (quiet : isp.incoming = []) :
    ∃ answered, ispUnlock scriptPeer isp = .ok (.success, answered) ∧
      answered.target = rest ∧ answered.incoming = [] := by
  have replies := scriptPeer_replies 'U' [23130] successLine rest (by decide)
    (by decide : 0 < ispUartRecvTimeoutUs)
  rw [← script] at replies
  exact ispUnlock_of_answer false quiet replies

theorem ispPrepareSectors_scripted (script : isp.target = successLine :: rest)
    (quiet : isp.incoming = []) :
    ∃ answered, ispPrepareSectors scriptPeer 0 (sectorNum - 1).toUInt8 isp =
        .ok (.success, answered) ∧
      answered.target = rest ∧ answered.incoming = [] := by
  have replies := scriptPeer_replies 'P' [(0 : UInt8).toNat, (sectorNum - 1).toUInt8.toNat]
    successLine rest (by decide) (by decide : 0 < ispUartRecvTimeoutUs)
  rw [← script] at replies
  exact ispSectors_of_answer false .prepareSectors 'P' quiet rfl (by decide)
    (by decide) (by decide) replies

theorem ispErase_scripted (script : isp.target = successLine :: successLine :: rest)
    (quiet : isp.incoming = []) :
    ∃ answered, ispErase scriptPeer 0 (sectorNum - 1).toUInt8 isp = .ok (.success, answered) ∧
      answered.target = rest ∧ answered.incoming = [] := by
  obtain ⟨prepared, prepares, preparedScript, preparedQuiet⟩ :=
    ispPrepareSectors_scripted script quiet
  have replies := scriptPeer_replies 'E' [(0 : UInt8).toNat, (sectorNum - 1).toUInt8.toNat]
    successLine rest (by decide) (by decide : 0 < ispEraseWaitTimeoutUs)
  rw [← preparedScript] at replies
  obtain ⟨answered, erases, final⟩ := ispSectors_of_answer false .eraseSectors 'E' preparedQuiet
    rfl (by decide) (by decide) (by decide) replies
  refine ⟨answered, ?_, final⟩
  unfold ispErase
  rw [prepares]
  exact erases

/-- A block is written and copied, as far as the host can tell. -/
theorem programBlock_scripted {i : Nat} {buffer : Bytes}
    (allocated : ∃ encode, malloc 64 = some encode ∧ encode.length = 64)
    (nonempty : 0 < file.content.length) (inRange : i < blockCount file.content.length)
    (inFlash : 512 * blockCount file.content.length ≤ flashSize)
    (bufferLength : buffer.length = 513) (script : isp.target = blockReplies ++ rest)
    (quiet : isp.incoming = []) :
    ∃ final, programBlock scriptPeer malloc file (blockCount file.content.length)
        (lastBlockSize file.content.length) i buffer isp =
          .ok (0, imageBlock (flashImage file.content) i ++ buffer.drop 512, final) ∧
      final.target = rest ∧ final.incoming = [] := by
  have imageLength := flashImage_length nonempty
  have blockLength : (imageBlock (flashImage file.content) i).length = 512 :=
    imageBlock_length (by omega)
  have behindLength : (buffer.drop 512).length = 1 := by
    simp [bufferLength]
  have addressIs := blockAddress_toNat (i := i) (by omega)
  have scriptIs : isp.target = successLine ::
      (List.replicate 12 [] ++ okLine :: successLine :: successLine :: rest) := by
    simp [script, blockReplies]
  obtain ⟨encode, allocated, encodeLength⟩ := allocated
  have takesCommand := scriptPeer_replies 'W' [ispWriteRamAddr.toNat, (512 : UInt32).toNat]
    successLine (List.replicate 12 [] ++ okLine :: successLine :: successLine :: rest)
    (by decide) (by decide : 0 < ispUartRecvTimeoutUs)
  rw [← scriptIs] at takesCommand
  have takesData : ∀ lines, IsText (imageBlock (flashImage file.content) i) lines →
      lines.length = (512 : UInt32).toNat / 45 + 1 → ∃ waiting,
        scriptPeer.Replies
            (lines.flatten ++ checksumLine (imageBlock (flashImage file.content) i)) 1000 okLine
            (List.replicate 12 [] ++ okLine :: successLine :: successLine :: rest) waiting ∧
          waiting = successLine :: successLine :: rest := by
    intro lines isText count
    have takes := scriptPeer_replies_data isText (successLine :: successLine :: rest)
      (by decide : 0 < 1000)
    rw [count] at takes
    exact ⟨_, takes, rfl⟩
  obtain ⟨written, writes, writtenScript, writtenQuiet⟩ :=
    ispWriteToRAM_of_answers false 512 (buffer.drop 512) quiet allocated encodeLength blockLength
      (by decide) (by decide) (by decide) (by decide) (by decide) (by decide)
      (by rw [behindLength]; decide) takesCommand takesData
  obtain ⟨prepared, prepares, preparedScript, preparedQuiet⟩ :=
    ispPrepareSectors_scripted writtenScript writtenQuiet
  have takesCopy := scriptPeer_replies 'C'
    [(i * 512).toUInt32.toNat, ispWriteRamAddr.toNat, (512 : UInt16).toNat] successLine rest
    (by decide) (by decide : 0 < 10000)
  rw [← preparedScript] at takesCopy
  have blockInFlash : ChipMemory.InFlash (i * 512).toUInt32.toNat 512 := by
    unfold ChipMemory.InFlash
    rw [addressIs]
    omega
  obtain ⟨final, copies, finalScript, finalQuiet⟩ :=
    ispCopyToFlash_of_answers false 512 blockInFlash (by decide) (by rw [addressIs]; omega)
      (by decide) prepares preparedQuiet takesCopy
  exact ⟨final, programBlock_of_copied nonempty inRange bufferLength writes copies, finalScript,
    finalQuiet⟩

/-- The copy phase of an accepted file runs through. -/
theorem copyPhase_scripted
    (allocates : Allocates malloc) (after : UInt8) (accepted : file.Accepted)
    (rest : List Bytes) :
    ∃ buffer programmed,
      copyPhase scriptPeer malloc after file
          (scriptIsp (copyReplies (blockCount file.content.length) ++ rest)) =
        .ok (0, buffer, (List.range' 0 (blockCount file.content.length)).map
          (fun index => byteSum (imageBlock (flashImage file.content) index)), programmed) ∧
      buffer.length = 513 ∧ programmed.target = rest ∧ programmed.incoming = [] := by
  obtain ⟨nonempty, inFlash⟩ := accepted.inFlash
  have start : (scriptIsp (copyReplies (blockCount file.content.length) ++ rest)).target =
      successLine :: successLine :: successLine :: successLine ::
        ((List.replicate (blockCount file.content.length) blockReplies).flatten ++ rest) := by
    simp [scriptIsp, copyReplies, List.replicate_succ]
  obtain ⟨unlocked, unlocks, unlockedScript, unlockedQuiet⟩ := ispUnlock_scripted start rfl
  obtain ⟨erased, erases, erasedScript, erasedQuiet⟩ :=
    ispErase_scripted unlockedScript unlockedQuiet
  obtain ⟨ready, unlocksAgain, readyScript, readyQuiet⟩ :=
    ispUnlock_scripted erasedScript erasedQuiet
  obtain ⟨block, blockIs, blockLength⟩ := allocates 512
  obtain ⟨sums, sumsIs, -⟩ := allocates (4 * blockCount file.content.length)
  have bufferLength : (block ++ [after]).length = 513 := by
    simp [blockLength]
  have step : ∀ i < blockCount file.content.length, ∀ (buffer : Bytes) (isp : Isp (List Bytes)),
      buffer.length = 513 →
      (isp.target =
          (List.replicate (blockCount file.content.length - i) blockReplies).flatten ++ rest ∧
        isp.incoming = []) →
      ∃ next, programBlock scriptPeer malloc file (blockCount file.content.length)
          (lastBlockSize file.content.length) i buffer isp =
            .ok (0, imageBlock (flashImage file.content) i ++ buffer.drop 512, next) ∧
        next.target = (List.replicate (blockCount file.content.length - (i + 1))
          blockReplies).flatten ++ rest ∧
        next.incoming = [] := by
    intro i inRange buffer isp bufferLength ⟨script, quiet⟩
    have rounds : blockCount file.content.length - i =
        blockCount file.content.length - (i + 1) + 1 := by omega
    rw [rounds, List.replicate_succ, List.flatten_cons, List.append_assoc] at script
    exact programBlock_scripted (allocates 64) nonempty inRange inFlash bufferLength script
      quiet
  obtain ⟨left, final, programs, leftLength, finalScript, finalQuiet⟩ :=
    programBlocks_of_invariant nonempty _ step [] (Nat.zero_add _) bufferLength
      ⟨readyScript, readyQuiet⟩
  refine ⟨left, final, ?_, leftLength, ?_, finalQuiet⟩
  · unfold copyPhase
    rw [unlocks]
    simp only [bind, Except.bind]
    rw [erases]
    simp only [ne_eq, not_true_eq_false, if_false, blockIs, sumsIs]
    rw [unlocksAgain]
    exact programs
  · rw [finalScript, Nat.sub_self]
    rfl

end Phases

end OnlineProgram
