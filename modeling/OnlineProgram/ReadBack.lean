import OnlineProgram.CommandSpecs
import OnlineProgram.DecodedLines

/-!
# Reading memory back

`ISP_readMemory` finds the data behind the first `0\r\n` of the response, then
the lines at a fixed stride, then the checksum behind the end of the last line.
An echoed command line whose last digit is zero ends in the same three
characters, and a response of more than the buffer is not received, so the
specification is about the other sizes.
-/

namespace OnlineProgram

open ByteStrings CMemory SerialLink UuCoding

/-- The lines are decoded one behind the other. -/
theorem ispDecodeLines_spec {buf bytes after : Bytes} {lines : List Bytes}
    {p i : Nat} (data : Bytes) (full : IsFullText bytes lines)
    (pointed : buf.drop (p + 63 * i) = lines.flatten ++ after)
    (groupsFit : 45 * i + 3 * groups bytes.length ≤ data.length)
    (terminatorFits : 45 * i + bytes.length < data.length) :
    ∃ decoded, ispDecodeLines buf p lines.length i data = .ok decoded ∧
      decoded.length = data.length ∧
      decoded.take (45 * i + bytes.length) = data.take (45 * i) ++ bytes := by
  induction full generalizing i data with
  | @last bytes line isLine =>
      have linePointed : buf.drop (p + 63 * i) = line ++ after := by
        simpa using pointed
      obtain ⟨decoded, decodes, length, contents⟩ :=
        uuDecodeLine_spec isLine linePointed groupsFit terminatorFits
      refine ⟨decoded, ?_, length, contents⟩
      rw [List.length_singleton]
      unfold ispDecodeLines
      rw [decodes]
      rfl
  | @next chunk line rest lines isLine chunkLength restFull ih =>
      have lineLength : line.length = 63 := by
        rw [isLine.length, chunkLength]
        decide
      have restGroups : groups (chunk ++ rest).length = 15 + groups rest.length := by
        simp only [List.length_append, chunkLength, groups]
        omega
      simp only [List.length_append, chunkLength] at terminatorFits
      rw [restGroups] at groupsFit
      have linePointed : buf.drop (p + 63 * i) = line ++ (lines.flatten ++ after) := by
        rw [pointed, List.flatten_cons, List.append_assoc]
      have chunkGroups : 45 * i + 3 * groups chunk.length ≤ data.length := by
        rw [chunkLength]
        unfold groups
        omega
      obtain ⟨stored, stores, storedLength, storedContents⟩ :=
        uuDecodeLine_spec isLine linePointed chunkGroups (by omega)
      have restPointed : buf.drop (p + 63 * (i + 1)) = lines.flatten ++ after := by
        have shifted : p + 63 * (i + 1) = p + 63 * i + 63 := by omega
        rw [shifted, ← List.drop_drop, linePointed, ← lineLength]
        exact List.drop_left
      obtain ⟨decoded, decodes, length, contents⟩ :=
        ih stored restPointed (by omega) (by omega)
      refine ⟨decoded, ?_, by rw [length, storedLength], ?_⟩
      · simp only [List.length_cons]
        unfold ispDecodeLines
        rw [stores]
        exact decodes
      · have position : 45 * (i + 1) = 45 * i + chunk.length := by omega
        have total : 45 * i + (chunk ++ rest).length = 45 * (i + 1) + rest.length := by
          rw [List.length_append]
          omega
        rw [total, contents, position, storedContents, List.append_assoc]

variable {σ : Type} {peer : Peer σ} {target : Conforming peer}

/-- The success line is found behind the echo, not in it, when the size does not
end in a zero. -/
theorem firstAt_readEcho (echo : Bool) (address : Nat) {size : Nat} (after : Bytes)
    (lastDigit : size % 10 ≠ 0) :
    FirstAt cmdSuccessRespStr (if echo then requestLine 'R' [address, size] else []) after := by
  cases echo with
  | false =>
      intro earlier rest split restNonempty
      exact absurd (List.append_eq_nil_iff.mp split).2 restNonempty
  | true =>
      have letter : 'R'.toNat.toUInt8 ≠ 13 := by decide
      obtain ⟨body, line, noReturn⟩ := requestLine_last [address] size letter
      have digit : size % 10 < 10 := Nat.mod_lt _ (by decide)
      have lastNotZero : digitByte (size % 10) ≠ 48 :=
        fun isZero => lastDigit ((digitByte_eq_zero_iff digit).mp isZero)
      have split : requestLine 'R' [address, size] =
          body ++ [digitByte (size % 10), 13, 10] := line
      rw [if_pos rfl, split]
      exact firstAt_of_line after noReturn lastNotZero (digitByte_ne_return digit)

/-- The search for the first occurrence, from a pointer on. -/
theorem strstr_of_first {memory needle before after : Bytes} {start : Nat}
    (pointed : memory.drop start = before ++ (needle ++ after))
    (needleNonempty : needle ≠ []) (nonzero : (0 : UInt8) ∉ before)
    (first : FirstAt needle before after) :
    strstr memory start needle = .ok (some (start + before.length)) := by
  unfold strstr
  rw [pointed]
  exact searchFrom_first start needleNonempty nonzero first

theorem ChipMemory.read_length (memory : ChipMemory) (address size : Nat) :
    (memory.read address size).length = size := by
  simp [ChipMemory.read]

/-- The buffer that has received a response to a read. -/
theorem received_response (echo : Bytes) (lines : List Bytes) (contents : Bytes) :
    ∃ padding,
      received (echo ++ successLine ++ (lines.flatten ++ checksumLine contents)) =
        echo ++ (cmdSuccessRespStr ++
          (lines.flatten ++ (checksumLine contents ++ padding))) := by
  have success : successLine = cmdSuccessRespStr := by decide
  simp only [received, success, List.append_assoc]
  exact ⟨_, rfl⟩

/-- The checksum is found behind the last line, and read. -/
theorem checksum_located {buf bytes padding : Bytes} {lines : List Bytes} {p : Nat}
    (full : IsFullText bytes lines) (small : byteSum bytes < 2 ^ 31)
    (pointed : buf.drop p = lines.flatten ++ (checksumLine bytes ++ padding)) :
    ∃ q, strstr buf (p + 63 * (lines.length - 1)) endcodeStr = .ok (some q) ∧
      atoi (buf.drop (q + 2)) = .ok (byteSum bytes) := by
  obtain ⟨front, body, flatten, frontLength, printable⟩ := full.last_line
  have noReturn : (13 : UInt8) ∉ body := by
    intro member
    exact absurd (printable 13 member) (by decide)
  have noZero : (0 : UInt8) ∉ body := by
    intro member
    exact absurd (printable 0 member) (by decide)
  have lastPointed : buf.drop (p + 63 * (lines.length - 1)) =
      body ++ (endcodeStr ++ (checksumLine bytes ++ padding)) := by
    rw [← List.drop_drop, pointed, flatten, ← frontLength]
    simp [endcodeStr]
  refine ⟨p + 63 * (lines.length - 1) + body.length, ?_, ?_⟩
  · exact strstr_of_first lastPointed (by decide) noZero
      (firstAt_of_head_not_mem _ noReturn)
  · have checksumPointed : buf.drop (p + 63 * (lines.length - 1) + body.length + 2) =
        decimal (byteSum bytes) ++ 13 :: 10 :: padding := by
      rw [← List.drop_drop, ← List.drop_drop, lastPointed, List.drop_left]
      simp [endcodeStr, checksumLine]
    rw [checksumPointed]
    exact atoi_decimal small _ (by decide)

/-- The guard of `ISP_readMemory`. -/
def ReadAccepted (addr size : UInt32) : Prop :=
  (checkFlashAddr addr ∨ checkRamAddr addr) ∧ size.toNat % 4 = 0 ∧
    0 < size.toNat ∧ size.toNat ≤ flashSize ∧ size.toNat ≤ ramSize

instance (addr size : UInt32) : Decidable (ReadAccepted addr size) :=
  inferInstanceAs (Decidable (_ ∧ _))

/-- The line that `ISP_readMemory` sends. -/
def readLine (addr size : UInt32) : Bytes :=
  requestLine 'R' [addr.toNat, size.toNat]

theorem readLine_eq {addr size : UInt32} (accepted : ReadAccepted addr size) :
    sprintf 36 (commandLine .readMemory [formatD32 addr, formatD32 size]) =
      .ok (readLine addr size) := by
  obtain ⟨inMemory, -, -, -, short⟩ := accepted
  have addrSmall : addr.toNat < 10 ^ 9 := by
    unfold checkFlashAddr flashEndAddress flashStartAddress flashSize sectorNum sectorSize
      checkRamAddr ramEndAddress ramStartAddress ramSize at inMemory
    omega
  unfold ramSize at short
  exact addressLine_eq rfl addrSmall (by omega) (by decide)

/-- The guard of `ISP_readMemory` lets mapped memory through. -/
theorem readAccepted_of_mapped {addr size : UInt32}
    (mapped : ChipMemory.InFlash addr.toNat size.toNat ∨
      ChipMemory.InRam addr.toNat size.toNat)
    (words : size.toNat % 4 = 0) (positive : 0 < size.toNat)
    (short : size.toNat ≤ ramSize) : ReadAccepted addr size := by
  have ramFits : ramSize ≤ flashSize := by decide
  refine ⟨?_, words, positive, short.trans ramFits, short⟩
  rcases mapped with inFlash | inRam
  · exact .inl (checkFlashAddr_of_inFlash inFlash positive)
  · exact .inr (checkRamAddr_of_inRam inRam positive)

/-- The response of a target is parsed: the data goes to the buffer, and the
host acknowledges. -/
theorem ispReadMemory_of_response {addr size : UInt32} {data : Bytes}
    {isp answered : Isp σ} {echo contents padding : Bytes} {lines : List Bytes} {count : Nat}
    (accepted : ReadAccepted addr size)
    (responded : ispGetResp ispUartRecvTimeoutUs
      (isp.clearRecvBuf.puts peer (readLine addr size)) = .ok (count, answered))
    (nonempty : ¬ count ≤ 0)
    (response : answered.ispRecvBuf = echo ++ (cmdSuccessRespStr ++
      (lines.flatten ++ (checksumLine contents ++ padding))))
    (echoNoZero : (0 : UInt8) ∉ echo)
    (echoFirst : ∀ after, FirstAt cmdSuccessRespStr echo after)
    (full : IsFullText contents lines) (contentsLength : contents.length = size.toNat)
    (groupsFit : 3 * groups size.toNat ≤ data.length)
    (terminatorFits : size.toNat < data.length) :
    ∃ stored,
      ispReadMemory peer addr size data isp =
        .ok (.success, stored, (answered.puts peer okStr).puts peer endcodeStr) ∧
      stored.length = data.length ∧ stored.take size.toNat = contents := by
  have located : strstr answered.ispRecvBuf 0 cmdSuccessRespStr =
      .ok (some (0 + echo.length)) :=
    strstr_of_first (by rw [List.drop_zero, response]) (by decide) echoNoZero (echoFirst _)
  have linesPointed : answered.ispRecvBuf.drop (0 + echo.length + 3) =
      lines.flatten ++ (checksumLine contents ++ padding) := by
    rw [response, Nat.zero_add, ← List.drop_drop, List.drop_left]
    simp [cmdSuccessRespStr]
  have sumBound := byteSum_le contents
  have guard : (checkFlashAddr addr ∨ checkRamAddr addr) ∧ size.toNat % 4 = 0 ∧
      0 < size.toNat ∧ size.toNat ≤ flashSize ∧ size.toNat ≤ ramSize := accepted
  have sizeBound : size.toNat ≤ 8192 := guard.2.2.2.2
  rw [← contentsLength] at groupsFit terminatorFits
  obtain ⟨stored, decodes, storedLength, storedContents⟩ :=
    ispDecodeLines_spec (i := 0) data full linesPointed (by omega) (by omega)
  obtain ⟨q, ended, checksumRead⟩ := checksum_located full (by omega) linesPointed
  rw [Nat.mul_zero, Nat.zero_add, List.take_zero, List.nil_append, contentsLength]
    at storedContents
  have sum : sumBytes stored size.toNat = .ok (byteSum contents) := by
    unfold sumBytes
    rw [if_pos (by omega), storedContents]
  have lineCount : size.toNat / 45 + (if size.toNat % 45 ≠ 0 then 1 else 0) =
      lines.length := by
    rw [full.lines_length, contentsLength]
    split <;> omega
  refine ⟨stored, ?_, storedLength, storedContents⟩
  unfold ispReadMemory
  rw [if_pos guard, readLine_eq accepted]
  simp only [bind, Except.bind]
  rw [responded]
  simp only []
  rw [if_neg nonempty, located]
  simp only []
  rw [lineCount, decodes]
  simp only []
  rw [sum]
  simp only []
  rw [ended]
  simp only []
  rw [checksumRead]
  exact if_pos rfl

/-- The whole response fits in the receive buffer. -/
theorem response_length_le {echo contents : Bytes} {lines : List Bytes}
    (full : IsFullText contents lines) (short : contents.length ≤ 15 * 45)
    (echoLength : echo.length ≤ 33) :
    (echo ++ successLine ++ (lines.flatten ++ checksumLine contents)).length ≤
      ispRecvBufSize := by
  have linesLength := full.lines_length
  have flattenLength := full.flatten_length_le
  have sumBound := byteSum_le contents
  have sumLength : (decimal (byteSum contents)).length ≤ 6 :=
    decimal_length_le (by decide) (by omega)
  have successLength : successLine.length = 3 := by decide
  simp only [List.length_append, checksumLine, List.length_cons, List.length_nil,
    ispRecvBufSize]
  omega

theorem ispReadMemory_spec {addr : UInt32} (size : UInt32) (data : Bytes) {isp : Isp σ}
    (ready : target.Ready isp)
    (mapped : ChipMemory.InFlash addr.toNat size.toNat ∨
      ChipMemory.InRam addr.toNat size.toNat)
    (aligned : addr.toNat % 4 = 0) (words : size.toNat % 4 = 0)
    (positive : 0 < size.toNat) (short : size.toNat ≤ 15 * 45)
    (lastDigit : size.toNat % 10 ≠ 0)
    (groupsFit : 3 * groups size.toNat ≤ data.length)
    (terminatorFits : size.toNat < data.length) :
    ∃ stored final,
      ispReadMemory peer addr size data isp = .ok (.success, stored, final) ∧
      target.Ready final ∧
      target.memory final.target = target.memory isp.target ∧
      stored.length = data.length ∧
      stored.take size.toNat =
        (target.memory isp.target).read addr.toNat size.toNat := by
  obtain ⟨lines, waiting, final, full, replies, acknowledges, idle, unlocked, memory⟩ :=
    target.read isp.target addr.toNat size.toNat ready.idle ready.unlocked mapped
      aligned words positive (by omega)
  have contentsLength := ChipMemory.read_length (target.memory isp.target) addr.toNat
    size.toNat
  have addrSmall : addr.toNat < 10 ^ 9 := by
    rcases mapped with inFlash | inRam
    · exact inFlash.address_lt
    · exact inRam.address_lt
  have small : ∀ argument ∈ [addr.toNat, size.toNat], argument < 10 ^ 9 := by
    intro argument member
    rcases List.mem_pair.mp member with rfl | rfl <;> omega
  have echoLength := echo_length_le target.echo 'R' (by simp) small
  have responded := ispGetResp_of_replies ready.quiet replies
    (response_length_le full (by omega) echoLength)
  obtain ⟨padding, response⟩ := received_response
    (if target.echo then requestLine 'R' [addr.toNat, size.toNat] else []) lines
    ((target.memory isp.target).read addr.toNat size.toNat)
  obtain ⟨stored, reads, storedLength, storedContents⟩ :=
    ispReadMemory_of_response
      (readAccepted_of_mapped mapped words positive (short.trans (by decide))) responded
      (by simp [successLine, ascii]) response
      (echo_zero_not_mem target.echo _ (by decide))
      (fun after => firstAt_readEcho target.echo addr.toNat after lastDigit)
      full contentsLength groupsFit terminatorFits
  obtain ⟨timeline, receives, empty, -⟩ := acknowledges
  obtain rfl : timeline = [] := List.map_eq_nil_iff.mp empty
  have acknowledgement : okStr ++ endcodeStr = okLine := by decide
  refine ⟨stored, _, reads, ?_, ?_, storedLength, storedContents⟩ <;>
    rw [puts_puts, acknowledgement]
  · refine ⟨?_, ?_, ?_⟩ <;> simp only [Isp.puts, receives]
    · exact idle
    · exact unlocked
    · rfl
  · simp only [Isp.puts, receives]
    exact memory

end OnlineProgram
