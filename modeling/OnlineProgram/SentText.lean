import OnlineProgram.CommandSpecs

/-!
# The text that carries the data

`ISP_WriteToRAM` sends its data in lines of 45 bytes, the last line with the
rest.  When nothing is left over, the last line is asked for with length zero:
the encoder refuses, and the line before it goes out once more.  This file says
for which sizes and data the text that is sent carries the data.
-/

namespace OnlineProgram

open ByteStrings CMemory SerialLink UuCoding

section Lines

variable {σ : Type}

/-- Full lines carry the data, and the last of them stays in the encode
buffer. -/
theorem ispSendLines_inner (peer : Peer σ) {data bytes chunk after encode : Bytes}
    (isp : Isp σ) {num count i : Nat} (extra rest : Nat)
    (pointed : data.drop (45 * i) = bytes ++ (chunk ++ after))
    (length : bytes.length = 45 * count) (chunkLength : chunk.length = 45)
    (inner : i + count < num - 1) (encodeLength : encode.length = 64) :
    ∃ lines line tail, IsText bytes lines ∧ IsLine chunk line ∧
      ispSendLines peer data num extra (rest + count + 1) i encode isp =
        ispSendLines peer data num extra rest (i + count + 1) (line ++ 0 :: tail)
          (isp.puts peer (lines.flatten ++ line)) := by
  induction count generalizing i bytes encode isp with
  | zero =>
      obtain rfl : bytes = [] := List.eq_nil_of_length_eq_zero length
      rw [List.nil_append] at pointed
      obtain ⟨line, isLine, -, sent⟩ :=
        ispSendLines_step peer isp extra rest pointed chunkLength inner encodeLength
      exact ⟨[], line, encode.drop 64, .nil, isLine, sent⟩
  | succ count ih =>
      obtain ⟨first, bytes, rfl, firstLength⟩ : ∃ first others,
          bytes = first ++ others ∧ first.length = 45 :=
        ⟨bytes.take 45, bytes.drop 45, (List.take_append_drop 45 bytes).symm,
          by simp; omega⟩
      have restLength : bytes.length = 45 * count := by
        simp only [List.length_append] at length
        omega
      rw [List.append_assoc] at pointed
      have firstInner : i < num - 1 := by omega
      obtain ⟨firstLine, firstIsLine, bufferLength, firstSent⟩ :=
        ispSendLines_step peer isp extra (rest + count + 1) pointed firstLength firstInner
          encodeLength
      have restPointed : data.drop (45 * (i + 1)) = bytes ++ (chunk ++ after) := by
        rw [Nat.mul_add, ← List.drop_drop, pointed]
        exact List.drop_left' firstLength
      obtain ⟨lines, line, tail, isText, isLine, sent⟩ :=
        ih (isp.puts peer firstLine) restPointed restLength (by omega) bufferLength
      have position : i + 1 + count + 1 = i + (count + 1) + 1 := by omega
      have rounds : rest + count + 1 + 1 = rest + (count + 1) + 1 := by omega
      rw [position] at sent
      rw [rounds] at firstSent
      refine ⟨firstLine :: lines, line, tail, .cons firstIsLine isText, isLine, ?_⟩
      rw [firstSent, sent, puts_puts, List.flatten_cons, List.append_assoc]

/-- A last line of length zero sends the line before it again. -/
theorem ispSendLines_repeated (peer : Peer σ) {data bytes chunk after encode : Bytes}
    (isp : Isp σ) {count : Nat} (pointed : data = bytes ++ (chunk ++ after))
    (length : bytes.length = 45 * count) (chunkLength : chunk.length = 45)
    (encodeLength : encode.length = 64) :
    ∃ lines, IsText (bytes ++ (chunk ++ chunk)) lines ∧
      ispSendLines peer data (count + 2) 0 (count + 2) 0 encode isp =
        .ok (isp.puts peer lines.flatten) := by
  have start : data.drop (45 * 0) = bytes ++ (chunk ++ after) := by simp [pointed]
  have lastInner : 0 + count < count + 2 - 1 := by omega
  obtain ⟨lines, line, tail, isText, isLine, sent⟩ :=
    ispSendLines_inner peer isp 0 1 start length chunkLength lastInner encodeLength
  have rounds : 1 + count + 1 = count + 2 := by omega
  have printed : cString (line ++ 0 :: tail) = .ok line :=
    cString_append _ isLine.zero_not_mem
  have lastRound : ¬ 0 + count + 1 < count + 2 - 1 := by omega
  have refused : uuEncodeLine data (45 * (0 + count + 1)) (line ++ 0 :: tail)
      (0 : Nat).toUInt8 = .ok (-1, line ++ 0 :: tail) := by
    unfold uuEncodeLine
    exact if_pos (.inl rfl)
  have twice : IsText (chunk ++ chunk) [line, line] := by
    simpa using IsText.cons isLine (.cons isLine .nil)
  refine ⟨lines ++ [line, line], isText.append twice, ?_⟩
  rw [rounds] at sent
  rw [sent]
  unfold ispSendLines
  rw [if_neg lastRound, refused]
  simp only [bind, Except.bind]
  rw [printed]
  simp [ispSendLines, puts_puts]

/-- The last line is encoded whenever the lines are sent. -/
theorem ispSendLines_encodes {peer : Peer σ} {data encode : Bytes} {isp final : Isp σ}
    {num extra remaining i : Nat} (rounds : i + remaining = num - 1)
    (sent : ispSendLines peer data num extra (remaining + 1) i encode isp = .ok final) :
    ∃ output result, uuEncodeLine data (45 * (num - 1)) output extra.toUInt8 = .ok result := by
  induction remaining generalizing i encode isp with
  | zero =>
      have lastRound : ¬ i < num - 1 := by omega
      have position : i = num - 1 := by omega
      unfold ispSendLines at sent
      rw [if_neg lastRound, position] at sent
      cases encoded : uuEncodeLine data (45 * (num - 1)) encode extra.toUInt8 with
      | error fault => simp [encoded, bind, Except.bind] at sent
      | ok result => exact ⟨encode, result, encoded⟩
  | succ remaining ih =>
      have innerRound : i < num - 1 := by omega
      unfold ispSendLines at sent
      rw [if_pos innerRound] at sent
      cases encoded : uuEncodeLine data (45 * i) encode 45 with
      | error fault => simp [encoded, bind, Except.bind] at sent
      | ok result =>
          simp only [encoded, bind, Except.bind] at sent
          cases printed : cString result.2 with
          | error fault => simp [printed] at sent
          | ok line =>
              simp only [printed] at sent
              exact ih (by omega) sent

end Lines

/-- The rounds of the encoder read whole groups. -/
theorem uuEncodeLoop_readable {memory output final : Bytes} {input len num remaining i : Nat}
    (rounds : i + remaining + 1 = num)
    (encodes : uuEncodeLoop memory input len num (remaining + 1) i output = .ok final) :
    input + 3 * num ≤ memory.length := by
  induction remaining generalizing i output with
  | zero =>
      have lastRound : i ≤ num - 1 := by omega
      unfold uuEncodeLoop uuEncodeInput at encodes
      rw [if_pos lastRound] at encodes
      have inside : ∃ byte, memory[input + (i * 3 + 2)]? = some byte := by
        cases present : memory[input + (i * 3 + 2)]? with
        | some byte => exact ⟨byte, rfl⟩
        | none =>
            unfold loadByte at encodes
            rw [present] at encodes
            cases first : memory[input + i * 3]? <;>
              cases second : memory[input + (i * 3 + 1)]? <;>
              simp [first, second, bind, Except.bind] at encodes
      obtain ⟨byte, present⟩ := inside
      have bound := (List.getElem?_eq_some_iff.mp present).1
      omega
  | succ remaining ih =>
      unfold uuEncodeLoop at encodes
      cases encoded : uuEncodeInput memory input len num i with
      | error fault => simp [encoded, bind, Except.bind] at encodes
      | ok encodedBytes =>
          simp only [encoded, bind, Except.bind] at encodes
          cases stored : store output (i * 4 + 1) encodedBytes with
          | error fault => simp [stored] at encodes
          | ok next =>
              simp only [stored] at encodes
              exact ih (by omega) encodes

/-- A line is encoded only where all its groups can be read. -/
theorem uuEncodeLine_readable {memory output : Bytes} {input : Nat} {len : UInt8}
    {result : Int × Bytes} (nonzero : len ≠ 0) (short : len ≤ 45)
    (encodes : uuEncodeLine memory input output len = .ok result) :
    input + 3 * groups len.toNat ≤ memory.length := by
  have accepted : ¬ (len = 0 ∨ 45 < len) := by
    rw [UInt8.lt_iff_toNat_lt]
    rw [UInt8.le_iff_toNat_le] at short
    simp only [nonzero, false_or]
    omega
  have positive : 0 < groups len.toNat := by
    have byteNonzero : len.toNat ≠ 0 := by
      intro isZero
      exact nonzero (UInt8.toNat_inj.mp isZero)
    unfold groups
    omega
  unfold uuEncodeLine at encodes
  rw [if_neg accepted] at encodes
  cases stored : store output 0 [len + 0x20] with
  | error fault => simp [stored, bind, Except.bind] at encodes
  | ok opened =>
      simp only [stored, bind, Except.bind, roundedGroups_eq] at encodes
      obtain ⟨remaining, rounds⟩ : ∃ remaining, groups len.toNat = remaining + 1 :=
        ⟨groups len.toNat - 1, by omega⟩
      cases loop : uuEncodeLoop memory input len.toNat (groups len.toNat)
          (groups len.toNat) 0 opened with
      | error fault => simp [loop] at encodes
      | ok filled =>
          rw [rounds] at loop ⊢
          exact uuEncodeLoop_readable (Nat.zero_add _ ▸ rfl) loop

/-- A target that keeps what it receives, and answers only `line`. -/
def recordingPeer (line reply : Bytes) : Peer Bytes where
  accept byte log :=
    (log ++ [byte], if log ++ [byte] = line then reply.map fun sent => (0, sent) else [])

theorem recordingPeer_receive_line {line log rest : Bytes} (reply : Bytes)
    (nonempty : rest ≠ []) (split : log ++ rest = line) :
    (recordingPeer line reply).receive rest log =
      (line, reply.map fun sent => (0, sent)) := by
  induction rest generalizing log with
  | nil => exact absurd rfl nonempty
  | cons byte rest ih =>
      unfold Peer.receive
      rcases rest with _ | ⟨next, rest⟩
      · simp [recordingPeer, Peer.receive, split]
      · have unfinished : log ++ [byte] ≠ line := by
          intro finished
          have length := congrArg List.length (finished.trans split.symm)
          simp at length
        have later : (recordingPeer line reply).receive (next :: rest) (log ++ [byte]) =
            (line, reply.map fun sent => (0, sent)) :=
          ih (by simp) (by simpa using split)
        simp only [recordingPeer, if_neg unfinished] at later ⊢
        rw [later]
        rfl

/-- Behind its line the target is silent. -/
theorem recordingPeer_receive_after {line reply log : Bytes} (text : Bytes)
    (answered : line.length ≤ log.length) :
    (recordingPeer line reply).receive text log = (log ++ text, []) := by
  induction text generalizing log with
  | nil => simp [Peer.receive]
  | cons byte text ih =>
      have behind : log ++ [byte] ≠ line := by
        intro same
        have length := congrArg List.length same
        simp at length
        omega
      have later : (recordingPeer line reply).receive text (log ++ [byte]) =
          (log ++ [byte] ++ text, []) :=
        ih (by simp; omega)
      unfold Peer.receive
      simp only [recordingPeer, if_neg behind] at later ⊢
      rw [later]
      simp

/-- Whatever the target is, once it has acknowledged the command line the call
puts lines on the UART that carry the data, and then its checksum, and waits
for the answer. -/
def PutsText (malloc : Nat → Option Bytes) (startAddr size : UInt32) (data : Bytes) : Prop :=
  ∀ (σ : Type) (peer : Peer σ) (isp answered : Isp σ),
    ispAwait ispUartRecvTimeoutUs cmdSuccessRespStr
        (isp.clearRecvBuf.puts peer (requestLine 'W' [startAddr.toNat, size.toNat])) =
      .ok (.success, answered) →
    ∃ lines, IsText (data.take size.toNat) lines ∧
      ispWriteToRAM peer malloc startAddr size data isp =
        ispAwait 1000 okStr
          ((answered.puts peer lines.flatten).clearRecvBuf.puts peer
            (checksumLine (data.take size.toNat)))

theorem ispAwait_of_silence {σ : Type} {timeoutUs : Nat} {expected : Bytes} {isp : Isp σ}
    (silent : isp.incoming = []) :
    ispAwait timeoutUs expected isp = .ok (.respTimeout, isp) := by
  obtain ⟨target, incoming, buffer⟩ := isp
  obtain rfl : incoming = [] := silent
  rfl

section Recorded

variable {malloc : Nat → Option Bytes} {startAddr size : UInt32} {data : Bytes}

/-- The link to a target that records what follows the command line. -/
def recordedIsp : Isp Bytes :=
  { target := [], incoming := [], ispRecvBuf := [] }

/-- The recording target acknowledges the command line. -/
theorem recordingPeer_acknowledges (startAddr size : UInt32) :
    ∃ answered : Isp Bytes,
      ispAwait ispUartRecvTimeoutUs cmdSuccessRespStr
          (recordedIsp.clearRecvBuf.puts
            (recordingPeer (requestLine 'W' [startAddr.toNat, size.toNat]) successLine)
            (requestLine 'W' [startAddr.toNat, size.toNat])) =
        .ok (.success, answered) ∧
      answered.target = requestLine 'W' [startAddr.toNat, size.toNat] ∧
      answered.incoming = [] := by
  have replies : (recordingPeer (requestLine 'W' [startAddr.toNat, size.toNat])
      successLine).Replies (requestLine 'W' [startAddr.toNat, size.toNat])
        ispUartRecvTimeoutUs ([] ++ (cmdSuccessRespStr ++ [])) recordedIsp.target
        (requestLine 'W' [startAddr.toNat, size.toNat]) :=
    ⟨_, recordingPeer_receive_line successLine (by simp [requestLine]) rfl, by decide,
      by decide⟩
  exact ⟨_, ispAwait_of_replies rfl replies (by decide) (by decide) (by simp), rfl, rfl⟩

/-- What the recording target has at the end, when lines have been sent. -/
theorem recordingPeer_recorded {line reply lines checksum : Bytes} {answered : Isp Bytes}
    (target : answered.target = line) (silent : answered.incoming = []) :
    ∃ final : Isp Bytes,
      ispAwait 1000 okStr
          ((answered.puts (recordingPeer line reply) lines).clearRecvBuf.puts
            (recordingPeer line reply) checksum) = .ok (.respTimeout, final) ∧
        final.target = line ++ (lines ++ checksum) := by
  have received : (recordingPeer line reply).receive (lines ++ checksum) line =
      (line ++ (lines ++ checksum), []) :=
    recordingPeer_receive_after _ (Nat.le_refl _)
  rw [clearRecvBuf_puts, puts_puts]
  refine ⟨_, ispAwait_of_silence ?_, ?_⟩
  · simp [Isp.puts, Isp.clearRecvBuf, target, silent, received]
  · simp [Isp.puts, Isp.clearRecvBuf, target, received]

/-- Where the text is put for every target, the recording target has it. -/
theorem PutsText.recorded (puts : PutsText malloc startAddr size data) :
    ∃ lines, IsText (data.take size.toNat) lines ∧
      ∃ final, ispWriteToRAM
          (recordingPeer (requestLine 'W' [startAddr.toNat, size.toNat]) successLine) malloc
          startAddr size data recordedIsp = .ok (.respTimeout, final) ∧
        final.target = requestLine 'W' [startAddr.toNat, size.toNat] ++
          (lines.flatten ++ checksumLine (data.take size.toNat)) := by
  obtain ⟨answered, acknowledged, target, silent⟩ :=
    recordingPeer_acknowledges startAddr size
  obtain ⟨lines, isText, call⟩ := puts _ _ _ _ acknowledged
  obtain ⟨final, await, recorded⟩ := recordingPeer_recorded target silent
  exact ⟨lines, isText, final, call.trans await, recorded⟩

/-- The text is put only when the lines are sent. -/
theorem PutsText.sends (puts : PutsText malloc startAddr size data)
    (accepted : WriteAccepted startAddr size) (whole : size.toNat ≤ data.length) :
    let line := requestLine 'W' [startAddr.toNat, size.toNat]
    let peer := recordingPeer line successLine
    ∃ block lines answered sent final,
      malloc 64 = some block ∧ IsText (data.take size.toNat) lines ∧
      answered.target = line ∧ answered.incoming = [] ∧
      ispSendLines peer data (lineCount size.toNat) (size.toNat % 45)
        (lineCount size.toNat) 0 block answered = .ok sent ∧
      ispAwait 1000 okStr (sent.clearRecvBuf.puts peer
        (checksumLine (data.take size.toNat))) = .ok (.respTimeout, final) ∧
      final.target = line ++ (lines.flatten ++ checksumLine (data.take size.toNat)) := by
  intro line peer
  obtain ⟨lines, isText, final, call, recorded⟩ := puts.recorded
  obtain ⟨answered, acknowledged, target, silent⟩ :=
    recordingPeer_acknowledges startAddr size
  rw [ispWriteToRAM_of_acknowledged accepted whole acknowledged] at call
  cases allocated : malloc 64 with
  | none => simp [allocated] at call
  | some block =>
      simp only [allocated] at call
      cases sends : ispSendLines peer data (lineCount size.toNat) (size.toNat % 45)
          (lineCount size.toNat) 0 block answered with
      | error fault => simp [peer, line, sends, Except.bind] at call
      | ok sent =>
          simp only [peer, line, sends, Except.bind] at call
          exact ⟨block, lines, answered, sent, final, rfl, isText, target, silent, sends, call,
            recorded⟩

/-- The encoder reads the whole groups of the last line. -/
theorem PutsText.readable (puts : PutsText malloc startAddr size data)
    (accepted : WriteAccepted startAddr size) (whole : size.toNat ≤ data.length) :
    3 * groups size.toNat ≤ data.length := by
  obtain ⟨block, lines, answered, sent, final, -, -, -, -, sends, -⟩ :=
    puts.sends accepted whole
  by_cases multiple : size.toNat % 45 = 0
  · unfold groups
    omega
  · have count : lineCount size.toNat = size.toNat / 45 + 1 := by
      unfold lineCount
      rw [if_neg multiple]
    have rounds : 0 + size.toNat / 45 = size.toNat / 45 + 1 - 1 := by omega
    rw [count] at sends
    obtain ⟨output, result, encodes⟩ := ispSendLines_encodes rounds sends
    have lenByte : (size.toNat % 45).toUInt8.toNat = size.toNat % 45 := by
      simp [Nat.toUInt8]
      omega
    have nonzero : (size.toNat % 45).toUInt8 ≠ 0 := by
      intro isZero
      rw [isZero] at lenByte
      exact multiple lenByte.symm
    have short : (size.toNat % 45).toUInt8 ≤ 45 := by
      rw [UInt8.le_iff_toNat_le, lenByte]
      exact Nat.le_of_lt (Nat.mod_lt _ (by decide))
    have inside := uuEncodeLine_readable nonzero short encodes
    rw [lenByte] at inside
    unfold groups at inside ⊢
    omega

/-- The last two pieces of 45 bytes of the data. -/
theorem exists_last_pieces {count : Nat} (sizeEq : size.toNat = 45 * (count + 2))
    (whole : size.toNat ≤ data.length) :
    ∃ bytes after,
      data = bytes ++ ((data.drop (size.toNat - 90)).take 45 ++ after) ∧
      bytes.length = 45 * count ∧ ((data.drop (size.toNat - 90)).take 45).length = 45 ∧
      data.take size.toNat = bytes ++ ((data.drop (size.toNat - 90)).take 45 ++
        (data.drop (size.toNat - 45)).take 45) := by
  have middle : size.toNat - 45 = size.toNat - 90 + 45 := by omega
  have ending : size.toNat = size.toNat - 90 + 45 + 45 := by omega
  refine ⟨data.take (size.toNat - 90), (data.drop (size.toNat - 90)).drop 45, ?_, ?_, ?_, ?_⟩
  · rw [List.take_append_drop, List.take_append_drop]
  · rw [List.length_take]
    omega
  · rw [List.length_take, List.length_drop]
    omega
  · conv_lhs => rw [ending]
    rw [List.take_add, List.take_add, List.append_assoc, middle]

/-- With nothing left over, the line of the last but one piece is sent in the
place of the last. -/
theorem exists_sent_repeated {count : Nat} (sizeEq : size.toNat = 45 * (count + 2))
    (whole : size.toNat ≤ data.length) {block : Bytes} (blockLength : block.length = 64)
    {σ : Type} (peer : Peer σ) (answered : Isp σ) :
    ∃ bytes lines,
      IsText (bytes ++ ((data.drop (size.toNat - 90)).take 45 ++
        (data.drop (size.toNat - 90)).take 45)) lines ∧
      data.take size.toNat = bytes ++ ((data.drop (size.toNat - 90)).take 45 ++
        (data.drop (size.toNat - 45)).take 45) ∧
      ispSendLines peer data (lineCount size.toNat) (size.toNat % 45)
        (lineCount size.toNat) 0 block answered = .ok (answered.puts peer lines.flatten) := by
  have multiple : size.toNat % 45 = 0 := by omega
  have rounds : lineCount size.toNat = count + 2 := by
    unfold lineCount
    rw [if_pos multiple]
    omega
  obtain ⟨bytes, after, pointed, bytesLength, chunkLength, taken⟩ :=
    exists_last_pieces sizeEq whole
  obtain ⟨lines, isText, sent⟩ :=
    ispSendLines_repeated peer answered pointed bytesLength chunkLength blockLength
  rw [multiple, rounds]
  exact ⟨bytes, lines, isText, taken, sent⟩

/-- With something left over, the lines carry the data. -/
theorem exists_sent_partial (whole : size.toNat ≤ data.length)
    (partialLine : size.toNat % 45 ≠ 0) (readable : 3 * groups size.toNat ≤ data.length)
    {block : Bytes} (blockLength : block.length = 64) {σ : Type} (peer : Peer σ)
    (answered : Isp σ) :
    ∃ lines, IsText (data.take size.toNat) lines ∧
      ispSendLines peer data (lineCount size.toNat) (size.toNat % 45)
        (lineCount size.toNat) 0 block answered = .ok (answered.puts peer lines.flatten) := by
  have pointed : data.drop (45 * 0) = data.take size.toNat ++ data.drop size.toNat := by
    rw [List.take_append_drop]
    simp
  have length : (data.take size.toNat).length =
      45 * (size.toNat / 45) + size.toNat % 45 := by
    rw [List.length_take]
    omega
  have lastReadable : 3 * groups (size.toNat % 45) ≤
      size.toNat % 45 + (data.drop size.toNat).length := by
    rw [List.length_drop]
    unfold groups at readable ⊢
    omega
  have rounds : lineCount size.toNat = 0 + size.toNat / 45 + 1 := by
    unfold lineCount
    rw [if_neg partialLine]
    omega
  obtain ⟨lines, isText, -, sent⟩ := ispSendLines_spec peer answered pointed length
    (by omega) (by omega) lastReadable blockLength
  rw [rounds]
  rw [Nat.zero_add] at sent ⊢
  exact ⟨lines, isText, sent⟩

/-- The size of full lines is at least 180. -/
theorem WriteAccepted.exists_count (accepted : WriteAccepted startAddr size)
    (multiple : size.toNat % 45 = 0) : ∃ count, size.toNat = 45 * (count + 2) := by
  obtain ⟨-, -, words, positive, -⟩ := accepted
  exact ⟨size.toNat / 45 - 2, by omega⟩

/-- With nothing left over, the text carries the data when the last two pieces
of 45 bytes are the same. -/
theorem PutsText.repeated (puts : PutsText malloc startAddr size data)
    (sized : ∀ block, malloc 64 = some block → block.length = 64)
    (accepted : WriteAccepted startAddr size) (whole : size.toNat ≤ data.length)
    (multiple : size.toNat % 45 = 0) :
    (data.drop (size.toNat - 90)).take 45 = (data.drop (size.toNat - 45)).take 45 := by
  obtain ⟨block, lines, answered, sent, final, allocated, isText, target, silent, sends,
    await, recorded⟩ := puts.sends accepted whole
  obtain ⟨count, sizeEq⟩ := accepted.exists_count multiple
  obtain ⟨bytes, put, putText, taken, putSent⟩ := exists_sent_repeated sizeEq whole
    (sized block allocated)
    (recordingPeer (requestLine 'W' [startAddr.toNat, size.toNat]) successLine) answered
  obtain ⟨reached, putAwait, putRecorded⟩ := recordingPeer_recorded target silent
  obtain rfl : answered.puts _ put.flatten = sent := Except.ok.inj (putSent.symm.trans sends)
  obtain rfl : reached = final := by simpa using putAwait.symm.trans await
  have sameText : lines.flatten = put.flatten := by
    have logs := recorded.symm.trans putRecorded
    exact List.append_cancel_right (List.append_cancel_left logs)
  have sameBytes := isText.bytes_unique putText sameText
  rw [taken] at sameBytes
  have pieces := List.append_cancel_left sameBytes
  exact (List.append_cancel_left pieces).symm

end Recorded

/-- For every accepted call: whatever the target is, lines that carry the data
and their checksum are put on the UART exactly when there is memory for the
encode buffer, the last line's groups can be read, and the last two pieces of
data are the same if the size is a multiple of 45. -/
theorem ispWriteToRAM_putsText_iff {malloc : Nat → Option Bytes} {startAddr size : UInt32}
    {data : Bytes} (sized : ∀ block, malloc 64 = some block → block.length = 64)
    (accepted : WriteAccepted startAddr size) (whole : size.toNat ≤ data.length) :
    PutsText malloc startAddr size data ↔
      malloc 64 ≠ none ∧ 3 * groups size.toNat ≤ data.length ∧
        (size.toNat % 45 = 0 →
          (data.drop (size.toNat - 90)).take 45 = (data.drop (size.toNat - 45)).take 45) := by
  constructor
  · intro puts
    obtain ⟨block, -, -, -, -, allocated, -⟩ := puts.sends accepted whole
    exact ⟨by simp [allocated], puts.readable accepted whole,
      puts.repeated sized accepted whole⟩
  · rintro ⟨memory, readable, same⟩
    obtain ⟨block, allocated⟩ := Option.ne_none_iff_exists'.mp memory
    intro σ peer isp answered acknowledged
    have sends : ∃ lines, IsText (data.take size.toNat) lines ∧
        ispSendLines peer data (lineCount size.toNat) (size.toNat % 45)
            (lineCount size.toNat) 0 block answered =
          .ok (answered.puts peer lines.flatten) := by
      by_cases multiple : size.toNat % 45 = 0
      · obtain ⟨count, sizeEq⟩ := accepted.exists_count multiple
        obtain ⟨bytes, lines, isText, taken, sent⟩ :=
          exists_sent_repeated sizeEq whole (sized block allocated) peer answered
        rw [taken, ← same multiple]
        exact ⟨lines, isText, sent⟩
      · exact exists_sent_partial whole multiple readable (sized block allocated) peer answered
    obtain ⟨lines, isText, sent⟩ := sends
    refine ⟨lines, isText, ?_⟩
    rw [ispWriteToRAM_of_acknowledged accepted whole acknowledged, allocated]
    simp only []
    rw [sent]
    rfl

theorem ispWriteToRAM_putsText_iff_block :
    PutsText (fun size => some (List.replicate size 0)) ispWriteRamAddr 512
      (List.replicate 513 1) :=
  (ispWriteToRAM_putsText_iff (sized_zeros 64) (by decide)
    (by rw [List.length_replicate]; decide)).mpr
    ⟨Option.some_ne_none _, by rw [List.length_replicate]; decide,
      fun multiple => absurd multiple (by decide)⟩

/-- The last quarter of 180 different bytes is not sent. -/
theorem not_putsText_counting :
    ¬ PutsText (fun size => some (List.replicate size 0)) ispWriteRamAddr 180
      ((List.range 183).map Nat.toUInt8) := by
  intro puts
  have same := puts.repeated (sized_zeros 64)
    (by decide) (by rw [List.length_map, List.length_range]; decide) (by decide)
  exact absurd same (by decide +kernel)

end OnlineProgram
