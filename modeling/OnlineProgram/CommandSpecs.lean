import OnlineProgram.ConformingTarget
import OnlineProgram.ReceivedBursts

/-!
# The commands against a conforming target

One specification for each command function: when the target is conforming and
quiet, the function returns success, the target has done what the command says
and is quiet again.  All of them rest on one fact about `ISP_getResp`, that a
reply in time and shorter than the buffer is received whole.
-/

namespace OnlineProgram

open ByteStrings CMemory SerialLink UuCoding

section Exchange

variable {σ : Type} {peer : Peer σ}

theorem puts_puts (first second : Bytes) (isp : Isp σ) :
    (isp.puts peer first).puts peer second = isp.puts peer (first ++ second) := by
  simp [Isp.puts, Peer.receive_append]

/-- A reply in time that fits in the buffer is received whole. -/
theorem ispGetResp_of_replies {isp : Isp σ} {line reply : Bytes} {timeoutUs : Nat}
    {final : σ} (quiet : isp.incoming = [])
    (replies : peer.Replies line timeoutUs reply isp.target final)
    (fits : reply.length ≤ ispRecvBufSize) :
    ispGetResp timeoutUs (isp.clearRecvBuf.puts peer line) =
      .ok (reply.length,
        { target := final, incoming := [], ispRecvBuf := received reply }) := by
  obtain ⟨hears, heard⟩ := hear_of_replies quiet replies
  rw [← clearRecvBuf_puts, ispGetResp_cleared, hears, if_pos fits, heard]

/-- A reply that contains what the host waits for counts as success. -/
theorem ispAwait_of_replies {isp : Isp σ} {line before expected after : Bytes}
    {timeoutUs : Nat} {final : σ} (quiet : isp.incoming = [])
    (replies : peer.Replies line timeoutUs (before ++ (expected ++ after))
      isp.target final)
    (fits : (before ++ (expected ++ after)).length ≤ ispRecvBufSize)
    (nonempty : expected ≠ []) (nonzero : (0 : UInt8) ∉ before) :
    ispAwait timeoutUs expected (isp.clearRecvBuf.puts peer line) =
      .ok (.success,
        { target := final, incoming := []
          ispRecvBuf := received (before ++ (expected ++ after)) }) := by
  have answered : before ++ (expected ++ after) ≠ [] := by
    simp [nonempty]
  obtain ⟨found, search⟩ : ∃ found,
      searchFrom expected (before ++ (expected ++ (after ++ List.replicate
        (ispRecvBufSize - (before ++ (expected ++ after)).length) 0))) 0 =
          .ok (some found) :=
    searchFrom_isSome 0 nonempty nonzero
  have located : strstr (received (before ++ (expected ++ after))) 0 expected =
      .ok (some found) := by
    unfold strstr received
    rw [List.drop_zero, List.append_assoc, List.append_assoc, search]
  obtain ⟨hears, heard⟩ := hear_of_replies quiet replies
  rw [← clearRecvBuf_puts, ispAwait_cleared hears fits answered, located, heard]
  simp [Except.bind]

end Exchange

section Lines

theorem commandLine_eq_requestLine (cmd : IspCmd) (letter : Char)
    (sameLetter : ispCmdList cmd = letter.toNat.toUInt8) (arguments : List Nat) :
    commandLine cmd (arguments.map decimal) = requestLine letter arguments := by
  simp [commandLine, requestLine, sameLetter, endcodeStr, List.flatMap_map]

theorem formatD_natCast (number : Nat) : formatD (number : Int) = decimal number :=
  rfl

theorem formatD32_of_lt {value : UInt32} (small : value.toNat < 2 ^ 31) :
    formatD32 value = decimal value.toNat := by
  have signed : value.toBitVec.toInt = (value.toNat : Int) := by
    rw [BitVec.toInt_eq_toNat_of_lt]
    · rfl
    · show 2 * value.toNat < 2 ^ 32
      omega
  rw [formatD32, signed, formatD_natCast]

theorem requestLine_zero_not_mem {letter : Char} (arguments : List Nat)
    (nonzero : letter.toNat.toUInt8 ≠ 0) :
    (0 : UInt8) ∉ requestLine letter arguments := by
  intro member
  simp only [requestLine, List.mem_cons, List.mem_append, List.mem_flatMap,
    List.not_mem_nil, or_false] at member
  rcases member with isLetter | ⟨argument, -, isBlank | isDigit⟩ | isReturn | isFeed
  · exact nonzero isLetter.symm
  · exact absurd isBlank (by decide)
  · exact absurd (decimal_isDigit isDigit).1 (by decide)
  · exact absurd isReturn (by decide)
  · exact absurd isFeed (by decide)

theorem digitByte_eq_zero_iff {digit : Nat} (small : digit < 10) :
    digitByte digit = 48 ↔ digit = 0 := by
  have code := digitByte_toNat small
  constructor
  · intro isZero
    rw [isZero] at code
    simp at code
    omega
  · rintro rfl
    rfl

theorem digitByte_ne_return {digit : Nat} (small : digit < 10) : digitByte digit ≠ 13 := by
  intro isReturn
  have code := digitByte_toNat small
  rw [isReturn] at code
  simp at code
  omega

theorem return_not_mem_decimal (number : Nat) : (13 : UInt8) ∉ decimal number :=
  fun member => absurd (decimal_isDigit member).1 (by decide)

theorem zero_not_mem_decimal (number : Nat) : (0 : UInt8) ∉ decimal number :=
  fun member => absurd (decimal_isDigit member).1 (by decide)

/-- A command line ends in the last digit of its last argument. -/
theorem requestLine_last {letter : Char} (arguments : List Nat) (last : Nat)
    (notReturn : letter.toNat.toUInt8 ≠ 13) :
    ∃ body, requestLine letter (arguments ++ [last]) =
        body ++ [digitByte (last % 10), 13, 10] ∧ (13 : UInt8) ∉ body := by
  obtain ⟨front, lastText⟩ := decimal_last last
  refine ⟨letter.toNat.toUInt8 ::
    ((arguments.flatMap fun argument => 32 :: decimal argument) ++ 32 :: front), ?_, ?_⟩
  · simp [requestLine, lastText]
  · have frontDigits : (13 : UInt8) ∉ front := fun member =>
      return_not_mem_decimal last (by simp [lastText, member])
    intro member
    simp only [List.mem_cons, List.mem_append, List.mem_flatMap] at member
    rcases member with isLetter | ⟨argument, -, isBlank | isDigit⟩ | isBlank | inFront
    · exact notReturn isLetter.symm
    · exact absurd isBlank (by decide)
    · exact return_not_mem_decimal argument isDigit
    · exact absurd isBlank (by decide)
    · exact frontDigits inFront

/-- A line with arguments of at most `width` digits. -/
theorem requestLine_length_le (letter : Char) {arguments : List Nat} {width : Nat}
    (positive : 0 < width) (small : ∀ argument ∈ arguments, argument < 10 ^ width) :
    (requestLine letter arguments).length ≤ 3 + arguments.length * (width + 1) := by
  have joined : (arguments.flatMap fun argument => 32 :: decimal argument).length ≤
      arguments.length * (width + 1) := by
    induction arguments with
    | nil => simp
    | cons argument arguments ih =>
        have head := decimal_length_le positive (small argument (by simp))
        have tail := ih fun other member => small other (by simp [member])
        simp only [List.flatMap_cons, List.length_append, List.length_cons]
        rw [Nat.succ_mul]
        omega
  simp only [requestLine, List.length_cons, List.length_append, List.length_nil]
  omega

end Lines

section Answers

variable {σ : Type} {peer : Peer σ} (echo : Bool)

theorem echo_zero_not_mem {letter : Char} (arguments : List Nat)
    (nonzero : letter.toNat.toUInt8 ≠ 0) :
    (0 : UInt8) ∉ if echo then requestLine letter arguments else [] := by
  split
  · exact requestLine_zero_not_mem arguments nonzero
  · simp

theorem echo_length_le (letter : Char) {arguments : List Nat}
    (few : arguments.length ≤ 3) (small : ∀ argument ∈ arguments, argument < 10 ^ 9) :
    (if echo then requestLine letter arguments else []).length ≤ 33 := by
  have lineLength := requestLine_length_le letter (by decide) small
  split
  · omega
  · simp

/-- A command that the target answers with success is successful. -/
theorem ispAwait_of_answer {isp : Isp σ} {letter : Char} {arguments : List Nat}
    {timeoutUs : Nat} {final : σ} (quiet : isp.incoming = [])
    (replies : peer.Replies (requestLine letter arguments) timeoutUs
      ((if echo then requestLine letter arguments else []) ++ successLine) isp.target final)
    (nonzero : letter.toNat.toUInt8 ≠ 0) (few : arguments.length ≤ 3)
    (small : ∀ argument ∈ arguments, argument < 10 ^ 9) :
    ∃ answered : Isp σ,
      ispAwait timeoutUs cmdSuccessRespStr
          (isp.clearRecvBuf.puts peer (requestLine letter arguments)) =
        .ok (.success, answered) ∧
      answered.target = final ∧ answered.incoming = [] := by
  have echoLength := echo_length_le echo letter few small
  have success : successLine = cmdSuccessRespStr ++ [] := by decide
  rw [success] at replies
  refine ⟨_, ispAwait_of_replies quiet replies ?_ (by decide)
    (echo_zero_not_mem echo arguments nonzero), rfl, rfl⟩
  simp only [List.length_append, cmdSuccessRespStr, ispRecvBufSize]
  simp only [List.length_cons, List.length_nil]
  omega

theorem ispUnlock_of_answer {isp : Isp σ} {final : σ} (quiet : isp.incoming = [])
    (replies : peer.Replies (requestLine 'U' [23130]) ispUartRecvTimeoutUs
      ((if echo then requestLine 'U' [23130] else []) ++ successLine) isp.target final) :
    ∃ answered : Isp σ, ispUnlock peer isp = .ok (.success, answered) ∧
      answered.target = final ∧ answered.incoming = [] := by
  have line : unlockCmdStr ++ endcodeStr = requestLine 'U' [23130] := by
    simp [unlockCmdStr, endcodeStr, requestLine, ascii, decimal, digitByte]
  unfold ispUnlock
  rw [puts_puts, line]
  exact ispAwait_of_answer echo quiet replies (by decide) (by simp) (by simp)

/-- The line of a command on sectors fits in the array it is printed to. -/
theorem sectorsLine_eq {cmd : IspCmd} {letter : Char} {start last : UInt8}
    (sameLetter : ispCmdList cmd = letter.toNat.toUInt8)
    (ordered : start.toNat ≤ last.toNat) (inRange : last.toNat < sectorNum) :
    sprintf 12 (commandLine cmd [formatD start.toNat, formatD last.toNat]) =
      .ok (requestLine letter [start.toNat, last.toNat]) := by
  have line : commandLine cmd [formatD start.toNat, formatD last.toNat] =
      requestLine letter [start.toNat, last.toNat] :=
    commandLine_eq_requestLine cmd letter sameLetter [start.toNat, last.toNat]
  have small : ∀ argument ∈ [start.toNat, last.toNat], argument < 10 ^ 2 := by
    intro argument member
    unfold sectorNum at inRange
    rcases List.mem_pair.mp member with rfl | rfl <;> omega
  have length : (requestLine letter [start.toNat, last.toNat]).length ≤ 3 + 2 * (2 + 1) :=
    requestLine_length_le letter (by decide) small
  unfold sprintf
  rw [line, if_pos (by omega)]

theorem ispSectors_of_answer (cmd : IspCmd) (letter : Char) {timeoutUs : Nat}
    {start last : UInt8} {isp : Isp σ} {final : σ} (quiet : isp.incoming = [])
    (sameLetter : ispCmdList cmd = letter.toNat.toUInt8)
    (nonzero : letter.toNat.toUInt8 ≠ 0)
    (ordered : start.toNat ≤ last.toNat) (inRange : last.toNat < sectorNum)
    (replies : peer.Replies (requestLine letter [start.toNat, last.toNat]) timeoutUs
      ((if echo then requestLine letter [start.toNat, last.toNat] else []) ++
        successLine) isp.target final) :
    ∃ answered : Isp σ,
      ispSectors peer cmd timeoutUs start last isp = .ok (.success, answered) ∧
        answered.target = final ∧ answered.incoming = [] := by
  have small : ∀ argument ∈ [start.toNat, last.toNat], argument < 10 ^ 9 := by
    intro argument member
    unfold sectorNum at inRange
    rcases List.mem_pair.mp member with rfl | rfl <;> omega
  obtain ⟨answered, await, answeredTarget, answeredQuiet⟩ :=
    ispAwait_of_answer echo quiet replies nonzero (by simp) small
  refine ⟨answered, ?_, answeredTarget, answeredQuiet⟩
  have accepted : ¬ (last < start ∨ sectorNum - 1 < last.toNat) := by
    rw [UInt8.lt_iff_toNat_lt]
    omega
  unfold ispSectors
  rw [if_neg accepted, sectorsLine_eq sameLetter ordered inRange]
  exact await

/-- One full line: what is sent, and what the encode buffer holds then. -/
theorem ispSendLines_step (peer : Peer σ) {data chunk after encode : Bytes} (isp : Isp σ)
    {num i : Nat} (extra rest : Nat) (pointed : data.drop (45 * i) = chunk ++ after)
    (chunkLength : chunk.length = 45) (inner : i < num - 1) (encodeLength : encode.length = 64) :
    ∃ line, IsLine chunk line ∧ (line ++ 0 :: encode.drop 64).length = 64 ∧
      ispSendLines peer data num extra (rest + 1) i encode isp =
        ispSendLines peer data num extra rest (i + 1) (line ++ 0 :: encode.drop 64)
          (isp.puts peer line) := by
  have readable : 3 * groups chunk.length ≤ chunk.length + after.length := by
    rw [chunkLength]
    unfold groups
    omega
  have lenByte : chunk.length = (45 : UInt8).toNat := chunkLength
  obtain ⟨line, isLine, encoded⟩ :=
    uuEncodeLine_spec lenByte (by omega) (by omega) pointed readable
      (Nat.le_of_eq encodeLength.symm)
  have lineLength : line.length = 63 := by
    rw [isLine.length, chunkLength]
    decide
  have written : splice encode 0 (line ++ [0]) = line ++ 0 :: encode.drop 64 := by
    simp [splice, lineLength]
  rw [written] at encoded
  refine ⟨line, isLine, by simp [lineLength, encodeLength], ?_⟩
  have printed : cString (line ++ 0 :: encode.drop 64) = .ok line :=
    cString_append _ isLine.zero_not_mem
  conv_lhs => unfold ispSendLines
  rw [if_pos inner, encoded]
  simp only [bind, Except.bind]
  rw [printed]

/-- The lines that are sent carry the data that is left. -/
theorem ispSendLines_spec (peer : Peer σ) {data bytes after encode : Bytes}
    (isp : Isp σ) {extra remaining i : Nat} (pointed : data.drop (45 * i) = bytes ++ after)
    (length : bytes.length = 45 * remaining + extra)
    (partialLine : 0 < extra) (short : extra ≤ 45)
    (readable : 3 * groups extra ≤ extra + after.length)
    (encodeLength : encode.length = 64) :
    ∃ lines, IsText bytes lines ∧ lines.length = remaining + 1 ∧
      ispSendLines peer data (i + remaining + 1) extra (remaining + 1) i encode isp =
        .ok (isp.puts peer lines.flatten) := by
  induction remaining generalizing i bytes encode isp with
  | zero =>
      have lenByte : bytes.length = extra.toUInt8.toNat := by
        simp [Nat.toUInt8, length]
        omega
      have bytesLength : bytes.length = extra := by omega
      obtain ⟨line, isLine, encoded⟩ :=
        uuEncodeLine_spec lenByte (by omega) (by omega) pointed
          (by rw [bytesLength]; exact readable) (Nat.le_of_eq encodeLength.symm)
      have printed : cString (splice encode 0 (line ++ [0])) = .ok line := by
        simp [splice, cString_append _ isLine.zero_not_mem]
      refine ⟨[line], by simpa using IsText.cons isLine .nil, rfl, ?_⟩
      have lastRound : ¬ i < i + 0 + 1 - 1 := by omega
      unfold ispSendLines
      rw [if_neg lastRound, encoded]
      simp only [bind, Except.bind]
      rw [printed]
      simp [ispSendLines]
  | succ remaining ih =>
      obtain ⟨chunk, rest, rfl, chunkLength⟩ : ∃ chunk rest,
          bytes = chunk ++ rest ∧ chunk.length = 45 :=
        ⟨bytes.take 45, bytes.drop 45, (List.take_append_drop 45 bytes).symm,
          by simp; omega⟩
      have restLength : rest.length = 45 * remaining + extra := by
        simp only [List.length_append] at length
        omega
      have chunkPointed : data.drop (45 * i) = chunk ++ (rest ++ after) := by
        rw [pointed, List.append_assoc]
      have innerRound : i < i + (remaining + 1) + 1 - 1 := by omega
      obtain ⟨line, isLine, nextEncode, lineSent⟩ := ispSendLines_step peer isp extra
        (remaining + 1) chunkPointed chunkLength innerRound encodeLength
      have restPointed : data.drop (45 * (i + 1)) = rest ++ after := by
        rw [Nat.mul_add, ← List.drop_drop, chunkPointed]
        exact List.drop_left' chunkLength
      obtain ⟨lines, isText, linesLength, sent⟩ :=
        ih (isp.puts peer line) restPointed restLength nextEncode
      have sameCount : i + (remaining + 1) + 1 = i + 1 + remaining + 1 := by omega
      refine ⟨line :: lines, .cons isLine isText, by simp [linesLength], ?_⟩
      rw [lineSent, sameCount, sent, puts_puts, List.flatten_cons]

/-- The line of a command on memory fits in the array it is printed to. -/
theorem memoryLine_eq {cmd : IspCmd} {letter : Char} {arguments : List Nat}
    {texts : List Bytes} {capacity : Nat}
    (sameLetter : ispCmdList cmd = letter.toNat.toUInt8)
    (printed : texts = arguments.map decimal)
    (small : ∀ argument ∈ arguments, argument < 10 ^ 9)
    (roomy : 3 + arguments.length * 10 < capacity) :
    sprintf capacity (commandLine cmd texts) = .ok (requestLine letter arguments) := by
  have length := requestLine_length_le letter (by decide) small
  unfold sprintf
  rw [printed, commandLine_eq_requestLine cmd letter sameLetter, if_pos (by omega)]

/-- The line of a command with an address and a size. -/
theorem addressLine_eq {cmd : IspCmd} {letter : Char} {address size : UInt32}
    {capacity : Nat} (sameLetter : ispCmdList cmd = letter.toNat.toUInt8)
    (addressSmall : address.toNat < 10 ^ 9) (sizeSmall : size.toNat < 10 ^ 9)
    (roomy : 23 < capacity) :
    sprintf capacity (commandLine cmd [formatD32 address, formatD32 size]) =
      .ok (requestLine letter [address.toNat, size.toNat]) := by
  apply memoryLine_eq sameLetter
  · rw [formatD32_of_lt (by omega), formatD32_of_lt (by omega)]
    rfl
  · intro argument member
    rcases List.mem_pair.mp member with rfl | rfl <;> assumption
  · exact roomy

theorem checksum_printed {data : Bytes} (short : data.length ≤ 512) :
    sprintf 12 (formatD (byteSum data : Nat) ++ endcodeStr) = .ok (checksumLine data) := by
  have sumBound := byteSum_le data
  have sumLength : (decimal (byteSum data)).length ≤ 6 :=
    decimal_length_le (by decide) (by omega)
  unfold sprintf
  rw [formatD_natCast, if_pos (by simp [endcodeStr]; omega)]
  rfl

theorem ChipMemory.InRam.address_lt {address size : Nat}
    (inRam : ChipMemory.InRam address size) : address < 10 ^ 9 := by
  unfold ChipMemory.InRam ramStartAddress ramSize at inRam
  omega

theorem ChipMemory.InFlash.address_lt {address size : Nat}
    (inFlash : ChipMemory.InFlash address size) : address < 10 ^ 9 := by
  unfold ChipMemory.InFlash flashSize sectorNum sectorSize at inFlash
  omega

theorem checkRamAddr_of_inRam {address : UInt32} {size : Nat}
    (inRam : ChipMemory.InRam address.toNat size) (positive : 0 < size) :
    checkRamAddr address := by
  unfold ChipMemory.InRam at inRam
  unfold checkRamAddr ramEndAddress
  omega

theorem checkFlashAddr_of_inFlash {address : UInt32} {size : Nat}
    (inFlash : ChipMemory.InFlash address.toNat size) (positive : 0 < size) :
    checkFlashAddr address := by
  unfold ChipMemory.InFlash at inFlash
  unfold checkFlashAddr flashEndAddress flashStartAddress
  omega

theorem sumBytes_append {block : Bytes} (behind : Bytes) {size : Nat}
    (length : block.length = size) :
    sumBytes (block ++ behind) size = .ok (byteSum block) := by
  unfold sumBytes
  rw [if_pos (by simp [length]), List.take_left' length]

/-- The guard of `ISP_WriteToRAM`. -/
def WriteAccepted (startAddr size : UInt32) : Prop :=
  checkRamAddr startAddr ∧ startAddr.toNat % 32 = 0 ∧ size.toNat % 4 = 0 ∧
    0 < size.toNat ∧ size.toNat ≤ ispMaxSizeWrite

instance (startAddr size : UInt32) : Decidable (WriteAccepted startAddr size) :=
  inferInstanceAs (Decidable (_ ∧ _))

/-- The number of lines of a block of data. -/
def lineCount (size : Nat) : Nat :=
  size / 45 + (if size % 45 = 0 then 0 else 1)

theorem writeLine_eq {startAddr size : UInt32} (accepted : WriteAccepted startAddr size) :
    sprintf 32 (commandLine .writeToRam [formatD32 startAddr, formatD32 size]) =
      .ok (requestLine 'W' [startAddr.toNat, size.toNat]) := by
  obtain ⟨inRam, -, -, -, short⟩ := accepted
  unfold checkRamAddr ramEndAddress ramStartAddress ramSize at inRam
  unfold ispMaxSizeWrite at short
  exact addressLine_eq rfl (by omega) (by omega) (by decide)

/-- An allocator of zeros hands out what is asked for. -/
theorem sized_zeros (size : Nat) (block : Bytes)
    (allocated : some (List.replicate size 0) = some block) : block.length = size := by
  rw [← Option.some.inj allocated, List.length_replicate]

/-- What follows the acknowledgement of the command line. -/
theorem ispWriteToRAM_of_acknowledged {peer : Peer σ} {malloc : Nat → Option Bytes}
    {startAddr size : UInt32} {data : Bytes} {isp answered : Isp σ}
    (accepted : WriteAccepted startAddr size) (whole : size.toNat ≤ data.length)
    (acknowledged : ispAwait ispUartRecvTimeoutUs cmdSuccessRespStr
      (isp.clearRecvBuf.puts peer (requestLine 'W' [startAddr.toNat, size.toNat])) =
        .ok (.success, answered)) :
    ispWriteToRAM peer malloc startAddr size data isp =
      match malloc 64 with
      | none => .ok (.memOverflow, answered)
      | some block =>
          (ispSendLines peer data (lineCount size.toNat) (size.toNat % 45)
              (lineCount size.toNat) 0 block answered).bind fun sent =>
            ispAwait 1000 okStr
              (sent.clearRecvBuf.puts peer (checksumLine (data.take size.toNat))) := by
  have short : (data.take size.toNat).length ≤ 512 := by
    have bound : size.toNat ≤ 512 := accepted.2.2.2.2
    rw [List.length_take]
    omega
  have sum : sumBytes data size.toNat = .ok (byteSum (data.take size.toNat)) := by
    unfold sumBytes
    rw [if_pos whole]
  have guard : checkRamAddr startAddr ∧ startAddr.toNat % 32 = 0 ∧ size.toNat % 4 = 0 ∧
      0 < size.toNat ∧ size.toNat ≤ ispMaxSizeWrite := accepted
  unfold ispWriteToRAM
  rw [if_pos guard, writeLine_eq accepted]
  simp only [bind, Except.bind]
  rw [acknowledged]
  simp only [ne_eq, not_true_eq_false, if_false]
  cases malloc 64 with
  | none => rfl
  | some block =>
      simp only []
      rw [sum]
      simp only []
      rw [checksum_printed short]
      rfl

/-- A block goes to RAM when the target takes the command, and then the lines and
their checksum. -/
theorem ispWriteToRAM_of_answers {malloc : Nat → Option Bytes} {startAddr : UInt32}
    (size : UInt32) {bytes : Bytes} (after : Bytes) {block : Bytes} {isp : Isp σ}
    {waiting : σ} {Taken : σ → Prop} (quiet : isp.incoming = [])
    (allocated : malloc 64 = some block) (blockLength : block.length = 64)
    (length : bytes.length = size.toNat)
    (inRam : ChipMemory.InRam startAddr.toNat size.toNat)
    (aligned : startAddr.toNat % 32 = 0) (words : size.toNat % 4 = 0)
    (positive : 0 < size.toNat) (short : size.toNat ≤ ispMaxSizeWrite)
    (partialLine : size.toNat % 45 ≠ 0)
    (readable : 3 * groups (size.toNat % 45) ≤ size.toNat % 45 + after.length)
    (commandReplies : peer.Replies (requestLine 'W' [startAddr.toNat, size.toNat])
      ispUartRecvTimeoutUs
      ((if echo then requestLine 'W' [startAddr.toNat, size.toNat] else []) ++ successLine)
      isp.target waiting)
    (takesData : ∀ lines, IsText bytes lines → lines.length = size.toNat / 45 + 1 →
      ∃ final, peer.Replies (lines.flatten ++ checksumLine bytes) 1000 okLine waiting final ∧
        Taken final) :
    ∃ answered : Isp σ,
      ispWriteToRAM peer malloc startAddr size (bytes ++ after) isp =
        .ok (.success, answered) ∧
      Taken answered.target ∧ answered.incoming = [] := by
  unfold ispMaxSizeWrite at short
  have startSmall := inRam.address_lt
  have small : ∀ argument ∈ [startAddr.toNat, size.toNat], argument < 10 ^ 9 := by
    intro argument member
    rcases List.mem_pair.mp member with rfl | rfl <;> omega
  obtain ⟨answered, commandAwait, rfl, answeredQuiet⟩ :=
    ispAwait_of_answer echo quiet commandReplies (by decide) (by simp) small
  have pointed : (bytes ++ after).drop (45 * 0) = bytes ++ after := by simp
  have linesLength : bytes.length = 45 * (size.toNat / 45) + size.toNat % 45 := by omega
  obtain ⟨lines, isText, count, sent⟩ :=
    ispSendLines_spec peer answered pointed linesLength (by omega) (by omega)
      readable blockLength
  obtain ⟨final, dataReplies, taken⟩ := takesData lines isText count
  have okLine_eq : okLine = [] ++ (okStr ++ [13, 10]) := by decide
  rw [okLine_eq] at dataReplies
  have dataAwait := ispAwait_of_replies answeredQuiet dataReplies (by decide)
    (by decide) (by simp)
  have accepted : WriteAccepted startAddr size :=
    ⟨checkRamAddr_of_inRam inRam positive, aligned, words, positive, short⟩
  have whole : size.toNat ≤ (bytes ++ after).length := by
    rw [List.length_append]
    omega
  have rounds : lineCount size.toNat = 0 + size.toNat / 45 + 1 := by
    unfold lineCount
    rw [if_neg partialLine]
    omega
  refine ⟨{ target := final, incoming := []
            ispRecvBuf := received ([] ++ (okStr ++ [13, 10])) },
    ?_, taken, rfl⟩
  rw [ispWriteToRAM_of_acknowledged accepted whole commandAwait, allocated]
  simp only [rounds]
  rw [Nat.zero_add] at sent ⊢
  rw [sent]
  simp only [Except.bind]
  rw [List.take_left' length, clearRecvBuf_puts, puts_puts]
  exact dataAwait

/-- A block is copied when the target prepares the sectors and takes the
command. -/
theorem ispCopyToFlash_of_answers {dst src : UInt32} (size : UInt16) {isp preparedIsp : Isp σ}
    {final : σ} (inFlash : ChipMemory.InFlash dst.toNat size.toNat)
    (inRam : ChipMemory.InRam src.toNat size.toNat) (dstAligned : dst.toNat % 256 = 0)
    (sizes : size = 256 ∨ size = 512 ∨ size = 1024 ∨ size = 4096)
    (prepares : ispPrepareSectors peer 0 (sectorNum - 1).toUInt8 isp =
      .ok (.success, preparedIsp))
    (quiet : preparedIsp.incoming = [])
    (replies : peer.Replies (requestLine 'C' [dst.toNat, src.toNat, size.toNat]) 10000
      ((if echo then requestLine 'C' [dst.toNat, src.toNat, size.toNat] else []) ++ successLine)
      preparedIsp.target final) :
    ∃ answered : Isp σ, ispCopyToFlash peer dst src size isp = .ok (.success, answered) ∧
      answered.target = final ∧ answered.incoming = [] := by
  have sizeBounds : 0 < size.toNat ∧ size.toNat < 10 ^ 9 := by
    rcases sizes with rfl | rfl | rfl | rfl <;> decide
  have dstSmall := inFlash.address_lt
  have srcSmall := inRam.address_lt
  have small : ∀ argument ∈ [dst.toNat, src.toNat, size.toNat], argument < 10 ^ 9 := by
    intro argument member
    simp only [List.mem_cons, List.not_mem_nil, or_false] at member
    rcases member with rfl | rfl | rfl <;> omega
  have guard : checkFlashAddr dst ∧ checkRamAddr src ∧ dst.toNat % 256 = 0 ∧
      (size = 256 ∨ size = 512 ∨ size = 1024 ∨ size = 4096) :=
    ⟨checkFlashAddr_of_inFlash inFlash sizeBounds.1,
      checkRamAddr_of_inRam inRam sizeBounds.1, dstAligned, sizes⟩
  have commandStr : sprintf 36 (commandLine .copyRamToFlash
      [formatD32 dst, formatD32 src, formatD size.toNat]) =
        .ok (requestLine 'C' [dst.toNat, src.toNat, size.toNat]) := by
    apply memoryLine_eq rfl _ small (by simp)
    rw [formatD32_of_lt (by omega), formatD32_of_lt (by omega)]
    rfl
  unfold ispCopyToFlash
  rw [if_pos guard, prepares]
  simp only [bind, Except.bind, if_true]
  rw [commandStr]
  exact ispAwait_of_answer echo quiet replies (by decide) (by simp) small

end Answers

section Commands

variable {σ : Type} {peer : Peer σ} (target : Conforming peer)

/-- The target is unlocked and waits for a command, and nothing is on the way
from it. -/
structure Conforming.Ready (isp : Isp σ) : Prop where
  idle : target.idle isp.target
  unlocked : target.unlocked isp.target
  quiet : isp.incoming = []

variable {target}

theorem ispUnlock_spec {isp : Isp σ} (idle : target.idle isp.target)
    (quiet : isp.incoming = []) :
    ∃ final, ispUnlock peer isp = .ok (.success, final) ∧ target.Ready final ∧
      target.memory final.target = target.memory isp.target := by
  obtain ⟨final, replies, finalIdle, finalUnlocked, memory⟩ :=
    target.unlock isp.target idle
  obtain ⟨answered, unlocks, rfl, answeredQuiet⟩ := ispUnlock_of_answer target.echo quiet replies
  exact ⟨answered, unlocks, ⟨finalIdle, finalUnlocked, answeredQuiet⟩, memory⟩

theorem ispPrepareSectors_spec {start last : UInt8} {isp : Isp σ}
    (ready : target.Ready isp) (ordered : start.toNat ≤ last.toNat)
    (inRange : last.toNat < sectorNum) :
    ∃ final, ispPrepareSectors peer start last isp = .ok (.success, final) ∧
      target.Ready final ∧
      target.memory final.target = target.memory isp.target ∧
      ∀ sector, start.toNat ≤ sector → sector ≤ last.toNat →
        target.prepared final.target sector := by
  obtain ⟨final, replies, idle, unlocked, memory, prepared⟩ :=
    target.prepare isp.target start.toNat last.toNat ready.idle ready.unlocked
      ordered inRange
  obtain ⟨answered, sectors, rfl, quiet⟩ :=
    ispSectors_of_answer target.echo .prepareSectors 'P' ready.quiet rfl (by decide) ordered
      inRange replies
  exact ⟨answered, sectors, ⟨idle, unlocked, quiet⟩, memory, prepared⟩

theorem ispErase_spec (start last : UInt8) {isp : Isp σ}
    (ready : target.Ready isp) (ordered : start.toNat ≤ last.toNat)
    (inRange : last.toNat < sectorNum) :
    ∃ final, ispErase peer start last isp = .ok (.success, final) ∧
      target.Ready final ∧
      target.memory final.target =
        (target.memory isp.target).eraseSectors start.toNat last.toNat := by
  obtain ⟨preparedIsp, prepares, preparedReady, kept, prepared⟩ :=
    ispPrepareSectors_spec ready ordered inRange
  obtain ⟨final, replies, idle, unlocked, memory⟩ :=
    target.erase preparedIsp.target start.toNat last.toNat preparedReady.idle
      preparedReady.unlocked ordered inRange prepared
  obtain ⟨answered, sectors, rfl, quiet⟩ :=
    ispSectors_of_answer target.echo .eraseSectors 'E' preparedReady.quiet rfl (by decide)
      ordered inRange replies
  refine ⟨answered, ?_, ⟨idle, unlocked, quiet⟩, by rw [memory, kept]⟩
  unfold ispErase
  rw [prepares]
  exact sectors

theorem ispWriteToRAM_spec {malloc : Nat → Option Bytes} {startAddr : UInt32}
    (size : UInt32) {bytes : Bytes} (after : Bytes) {block : Bytes} {isp : Isp σ}
    (ready : target.Ready isp)
    (allocated : malloc 64 = some block) (blockLength : block.length = 64)
    (length : bytes.length = size.toNat)
    (inRam : ChipMemory.InRam startAddr.toNat size.toNat)
    (aligned : startAddr.toNat % 32 = 0) (words : size.toNat % 4 = 0)
    (positive : 0 < size.toNat) (short : size.toNat ≤ ispMaxSizeWrite)
    (partialLine : size.toNat % 45 ≠ 0)
    (readable : 3 * groups (size.toNat % 45) ≤ size.toNat % 45 + after.length) :
    ∃ final,
      ispWriteToRAM peer malloc startAddr size (bytes ++ after) isp =
        .ok (.success, final) ∧
      target.Ready final ∧
      target.memory final.target =
        (target.memory isp.target).writeRam startAddr.toNat bytes := by
  obtain ⟨waiting, commandReplies, takesData⟩ :=
    target.write isp.target startAddr.toNat size.toNat ready.idle ready.unlocked inRam
      (by omega) words positive
  unfold ispMaxSizeWrite at short
  obtain ⟨answered, writes, ⟨idle, unlocked, memory⟩, quiet⟩ :=
    ispWriteToRAM_of_answers target.echo size after ready.quiet allocated blockLength length
      inRam aligned words positive short partialLine readable commandReplies
      fun lines isText count => takesData bytes lines isText length (by omega)
  exact ⟨answered, writes, ⟨idle, unlocked, quiet⟩, memory⟩

theorem ispCopyToFlash_spec {dst src : UInt32} (size : UInt16) {isp : Isp σ}
    (ready : target.Ready isp) (inFlash : ChipMemory.InFlash dst.toNat size.toNat)
    (inRam : ChipMemory.InRam src.toNat size.toNat) (dstAligned : dst.toNat % 256 = 0)
    (srcAligned : src.toNat % 4 = 0)
    (sizes : size = 256 ∨ size = 512 ∨ size = 1024 ∨ size = 4096)
    (erased : (target.memory isp.target).Erased dst.toNat size.toNat) :
    ∃ final, ispCopyToFlash peer dst src size isp = .ok (.success, final) ∧
      target.Ready final ∧
      target.memory final.target =
        (target.memory isp.target).copyToFlash dst.toNat src.toNat size.toNat := by
  have allowed : size.toNat ∈ [256, 512, 1024, 4096] := by
    rcases sizes with rfl | rfl | rfl | rfl <;> decide
  have allSectors : (0 : UInt8).toNat ≤ (sectorNum - 1).toUInt8.toNat := by decide
  have lastSector : (sectorNum - 1).toUInt8.toNat < sectorNum := by decide
  obtain ⟨preparedIsp, prepares, preparedReady, kept, prepared⟩ :=
    ispPrepareSectors_spec ready allSectors lastSector
  have rangePrepared : ∀ sector, dst.toNat / sectorSize ≤ sector →
      sector ≤ (dst.toNat + size.toNat - 1) / sectorSize →
        target.prepared preparedIsp.target sector := by
    intro sector _ upper
    apply prepared sector (Nat.zero_le sector)
    have lastIs : (sectorNum - 1).toUInt8.toNat = 15 := by decide
    unfold ChipMemory.InFlash flashSize sectorNum sectorSize at inFlash
    unfold sectorSize at upper
    omega
  obtain ⟨final, replies, idle, unlocked, -, memory⟩ :=
    target.copy preparedIsp.target dst.toNat src.toNat size.toNat preparedReady.idle
      preparedReady.unlocked inFlash inRam dstAligned srcAligned allowed rangePrepared
      (by rw [kept]; exact erased)
  obtain ⟨answered, copies, rfl, quiet⟩ :=
    ispCopyToFlash_of_answers target.echo size inFlash inRam dstAligned sizes prepares
      preparedReady.quiet replies
  exact ⟨answered, copies, ⟨idle, unlocked, quiet⟩, by rw [memory, kept]⟩

end Commands

end OnlineProgram
