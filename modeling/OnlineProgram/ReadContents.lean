import OnlineProgram.ReadResponses
import OnlineProgram.ResultCodes

/-!
# Reading the contents of memory

A target answers a read with its echo, the success line, the lines of the memory
and their sum.  `ISP_readMemory` gets the memory back unless the response is too
long for the buffer, or the data has no room for what the decoder writes behind
it, or the echo of a size that ends in the digit zero is taken for the success
line.
-/

namespace OnlineProgram

open ByteStrings CMemory SerialLink UuCoding

/-- The response to a read. -/
def readResponse (echo : Bool) (addr size : UInt32) (contents : Bytes)
    (lines : List Bytes) : Bytes :=
  (if echo then readLine addr size else []) ++ successLine ++
    (lines.flatten ++ checksumLine contents)

/-- What follows the success line in the buffer. -/
def contentsPayload (contents : Bytes) (lines : List Bytes) (padding : Bytes) : Bytes :=
  lines.flatten ++ (checksumLine contents ++ padding)

section Contents

variable {σ : Type} {peer : Peer σ} {isp : Isp σ} {echo : Bool} {addr size : UInt32}
  {contents data : Bytes} {lines : List Bytes}

theorem echo_first (apart : ¬ (echo = true ∧ size.toNat % 10 = 0)) (after : Bytes) :
    FirstAt cmdSuccessRespStr (if echo then readLine addr size else []) after := by
  cases echo with
  | false => exact firstAt_of_body after (by simp)
  | true => exact firstAt_readEcho true addr.toNat after fun lastDigit => apart ⟨rfl, lastDigit⟩

/-- The payload is found behind the echo, not in it. -/
theorem follows_readResponse (addr : UInt32) (contents : Bytes) (lines : List Bytes)
    (apart : ¬ (echo = true ∧ size.toNat % 10 = 0)) :
    ∃ padding, FollowsFirst cmdSuccessRespStr
      (received (readResponse echo addr size contents lines))
      (contentsPayload contents lines padding) := by
  obtain ⟨padding, split⟩ :=
    received_response (if echo then readLine addr size else []) lines contents
  exact ⟨padding, if echo then readLine addr size else [], split,
    echo_zero_not_mem echo _ (by decide), echo_first apart _⟩

/-- The payload is found in the echo of a size that ends in a zero: it begins
with the success line. -/
theorem follows_echo (addr : UInt32) (contents : Bytes) (lines : List Bytes)
    (lastDigit : size.toNat % 10 = 0) :
    ∃ padding, FollowsFirst cmdSuccessRespStr
      (received (readResponse true addr size contents lines))
      (cmdSuccessRespStr ++ contentsPayload contents lines padding) := by
  obtain ⟨padding, split⟩ := received_response (readLine addr size) lines contents
  obtain ⟨body, line, noReturn⟩ := requestLine_last [addr.toNat] size.toNat
    (by decide : 'R'.toNat.toUInt8 ≠ 13)
  have echoed : readLine addr size = body ++ cmdSuccessRespStr := by
    have zero : digitByte 0 = 48 := by decide
    rw [lastDigit, zero] at line
    exact line
  have noZero : (0 : UInt8) ∉ readLine addr size := echo_zero_not_mem true _ (by decide)
  refine ⟨padding, body, ?_, ?_, firstAt_of_body _ noReturn⟩
  · unfold readResponse
    rw [if_pos rfl, split, echoed, List.append_assoc]
    rfl
  · rw [echoed] at noZero
    exact fun member => noZero (List.mem_append_left _ member)

/-- The last line of the payload announces what is left of the data. -/
theorem announcedLength_last (full : IsFullText contents lines) (padding : Bytes) :
    announcedLength ((contentsPayload contents lines padding).drop
      (63 * lastLine contents.length)) = contents.length - 45 * lastLine contents.length := by
  obtain ⟨front, chunk, line, flatten, frontLength, isLine, length⟩ := full.last_chunk
  have count : lastLine contents.length = lines.length - 1 := by
    have nonempty := isLine.nonempty
    rw [full.lines_length]
    unfold lastLine
    omega
  unfold contentsPayload
  rw [count, flatten, ← frontLength, List.append_assoc, List.drop_left,
    announcedLength_of_isLine isLine]
  omega

/-- Data into which the payload is parsed has room for all that the decoder
writes. -/
theorem room_of_parsed {length : Nat} {padding after : Bytes} {checksum : Int}
    (full : IsFullText contents lines) (positive : 0 < contents.length)
    (parsed : Parsed (contentsPayload contents lines padding) contents.length length after
      checksum) :
    3 * groups contents.length ≤ length ∧ contents.length < length := by
  have bounds := lastLine_bounds positive
  have fit := parsed.fit
  rw [fit_lineWrites _ parsed.readable, announcedLength_last full] at fit
  unfold groups at fit ⊢
  omega

/-- Where the payload begins with the success line, its first line announces 16
bytes, and byte 18 of the data stays as it was. -/
theorem echo_keeps {payload after stored : Bytes} {checksum : Int} {size : Nat} {ret : RetCode}
    (positive : 0 < size) (large : size ≤ data.length)
    (parsed : Parsed (cmdSuccessRespStr ++ payload) size data.length after checksum)
    (returned : parsePayload (cmdSuccessRespStr ++ payload) size data = .ok (ret, stored)) :
    stored[18]? = data[18]? := by
  have announced : announcedLength (cmdSuccessRespStr ++ payload) = 16 := rfl
  have begins := readable_begins parsed.readable
  have first : Readable ((cmdSuccessRespStr ++ payload).drop (63 * 0)) := by
    rcases Nat.eq_zero_or_pos (lastLine size) with only | several
    · have last := parsed.readable
      rwa [only] at last
    · exact readable_inner begins several
  have readable : Readable (cmdSuccessRespStr ++ payload) := by
    rwa [Nat.mul_zero, List.drop_zero] at first
  have untouched : ¬ (textWrites (cmdSuccessRespStr ++ payload) (lastLine size + 1) 0).Touch
      18 := by
    rw [touch_first_iff (by decide), touch_lineWrites 0 readable, announced]
    decide
  rw [parsed.parsePayload positive large] at returned
  obtain ⟨-, rfl⟩ := Prod.mk.inj (Except.ok.inj returned)
  exact replay_untouched (parsed.fit_textWrites positive large) untouched

/-- The contents are read when the response fits, its echo is no success line, and
the data has room for what the decoder writes. -/
theorem ispReadMemory_of_answer (accepted : ReadAccepted addr size)
    (full : IsFullText contents lines) (length : contents.length = size.toNat)
    (answers : readAnswer peer addr size isp = readResponse echo addr size contents lines)
    (fits : (readResponse echo addr size contents lines).length ≤ ispRecvBufSize)
    (apart : ¬ (echo = true ∧ size.toNat % 10 = 0))
    (groupsFit : 3 * groups size.toNat ≤ data.length) (terminatorFits : size.toNat < data.length) :
    ∃ stored,
      ispReadMemory peer addr size data isp =
        .ok (.success, stored, afterRead peer addr size isp .success) ∧
      stored.length = data.length ∧ stored.take size.toNat = contents := by
  obtain ⟨padding, split⟩ :=
    received_response (if echo then readLine addr size else []) lines contents
  have answered : ¬ (readAnswer peer addr size isp).length ≤ 0 := by
    rw [answers]
    simp [readResponse, successLine, ascii]
  have responded := ispGetResp_readLine (answers ▸ fits)
  have response : (heardRead peer addr size isp).ispRecvBuf =
      (if echo then readLine addr size else []) ++ (cmdSuccessRespStr ++
        (lines.flatten ++ (checksumLine contents ++ padding))) := by
    rw [← split, ← readResponse, ← answers]
    rfl
  exact ispReadMemory_of_response accepted responded answered response
    (echo_zero_not_mem echo _ (by decide)) (echo_first apart) full length groupsFit
    terminatorFits

/-- For every accepted call, both echo settings and every contents: when the
target answers with them, the call succeeds and reads them, whatever the data
held before, exactly when the response fits in the buffer, an echoed size does
not end in a zero, and the data has room for the last group and the zero behind
it. -/
theorem ispReadMemory_reads_iff {room : Nat} (accepted : ReadAccepted addr size)
    (large : size.toNat ≤ room) (full : IsFullText contents lines)
    (length : contents.length = size.toNat)
    (answers : readAnswer peer addr size isp = readResponse echo addr size contents lines) :
    (∀ data : Bytes, data.length = room → ∃ stored final,
        ispReadMemory peer addr size data isp = .ok (.success, stored, final) ∧
          stored.take size.toNat = contents) ↔
      (readResponse echo addr size contents lines).length ≤ ispRecvBufSize ∧
        ¬ (echo = true ∧ size.toNat % 10 = 0) ∧
        3 * groups size.toNat ≤ room ∧ size.toNat < room := by
  have positive := accepted.2.2.1
  constructor
  · intro reads
    have fits : (readResponse echo addr size contents lines).length ≤ ispRecvBufSize := by
      by_contra long
      obtain ⟨stored, final, returned, -⟩ := reads (List.replicate room 0) (by simp)
      rw [ispReadMemory_receives accepted, answers, if_neg long] at returned
      simp at returned
    have parses {payload : Bytes} (data : Bytes) (dataLength : data.length = room)
        (follows : FollowsFirst cmdSuccessRespStr
          (received (readResponse echo addr size contents lines)) payload) :
        ∃ stored, parsePayload payload size.toNat data = .ok (.success, stored) ∧
          stored.take size.toNat = contents := by
      obtain ⟨stored, final, returned, reads⟩ := reads data dataLength
      rw [← answers] at fits follows
      exact ⟨stored, parsePayload_of_returned accepted fits follows returned, reads⟩
    have apart : ¬ (echo = true ∧ size.toNat % 10 = 0) := by
      rintro ⟨rfl, lastDigit⟩
      obtain ⟨padding, follows⟩ := follows_echo addr contents lines lastDigit
      have words := accepted.2.1
      have inside : 18 < contents.length := by omega
      obtain ⟨stored, parse, contentsRead⟩ :=
        parses (List.replicate room (contents[18] + 1)) (by simp) follows
      obtain ⟨after, checksum, parsed⟩ :=
        exists_parsed positive (by simpa using large) parse
      have kept := echo_keeps positive (by simpa using large) parsed parse
      have read := congrArg (·[18]?) contentsRead
      simp only [List.getElem?_take_of_lt (by omega : 18 < size.toNat), kept,
        List.getElem?_replicate_of_lt (by omega : 18 < room), List.getElem?_eq_getElem inside,
        Option.some.injEq] at read
      simp at read
    obtain ⟨padding, follows⟩ := follows_readResponse addr contents lines apart
    obtain ⟨stored, parse, -⟩ := parses (List.replicate room 0) (by simp) follows
    obtain ⟨after, checksum, parsed⟩ := exists_parsed positive (by simpa using large) parse
    rw [List.length_replicate, ← length] at parsed
    obtain ⟨groupsFit, terminatorFits⟩ := room_of_parsed full (by omega) parsed
    rw [length] at groupsFit terminatorFits
    exact ⟨fits, apart, groupsFit, terminatorFits⟩
  · rintro ⟨fits, apart, groupsFit, terminatorFits⟩ data rfl
    obtain ⟨stored, reads, -, contentsRead⟩ :=
      ispReadMemory_of_answer accepted full length answers fits apart groupsFit terminatorFits
    exact ⟨stored, _, reads, contentsRead⟩

/-- A word is read from an echoing target into an object of six bytes. -/
theorem ispReadMemory_reads_iff_word :
    ∃ stored final,
      ispReadMemory silentPeer 0 4 [9, 9, 9, 9, 9, 9]
          (pendingIsp (readResponse true 0 4 [1, 2, 3, 4] (encodeLines 1 [1, 2, 3, 4]))) =
        .ok (.success, stored, final) ∧ stored.take 4 = [1, 2, 3, 4] :=
  (ispReadMemory_reads_iff (by decide) (by decide)
    (isFullText_encodeLines (by decide) (by decide)) rfl
    (readAnswer_pending 0 4 _)).mpr ⟨by decide +kernel, by decide, by decide, by decide⟩ _ rfl

/-- An echoed read of twenty bytes fails: the end of the echo is taken for the
success line. -/
theorem ispReadMemory_misses_twenty :
    let contents : Bytes := List.replicate 20 0
    let peer := replyPeer (readResponse true 0 20 contents (encodeLines 1 contents))
    IsFullText contents (encodeLines 1 contents) ∧
      readAnswer peer 0 20 quietIsp = readResponse true 0 20 contents (encodeLines 1 contents) ∧
      Prod.fst <$> ispReadMemory peer 0 20 (List.replicate 32 0) quietIsp = .ok .error :=
  ⟨isFullText_encodeLines (by decide) (by decide), by decide +kernel, by decide +kernel⟩

end Contents

end OnlineProgram
