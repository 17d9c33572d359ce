import OnlineProgram.DecodedLines
import OnlineProgram.ReadBack
import OnlineProgram.ReceivedBursts

/-!
# Responses to a read

What `ISP_readMemory` makes of the bytes that arrive, whatever they are: the
data and the checksum behind the first `0\r\n` decide the result, and the target
decides nothing else.
-/

namespace OnlineProgram

open ByteStrings CMemory SerialLink UuCoding

/-- The number of lines behind the first of a response. -/
def lastLine (size : Nat) : Nat :=
  (size - 1) / 45

theorem lastLine_bounds {size : Nat} (positive : 0 < size) :
    45 * lastLine size < size ∧ size ≤ 45 * lastLine size + 45 := by
  unfold lastLine
  omega

/-- What is made of the text behind the first `0\r\n`. -/
def parsePayload (payload : Bytes) (size : Nat) (data : Bytes) :
    Except Fault (RetCode × Bytes) := do
  let data ← ispDecodeLines payload 0 (lastLine size + 1) 0 data
  let checksum ← sumBytes data size
  match ← searchFrom endcodeStr (payload.drop (63 * lastLine size)) 0 with
  | none => .error .nullPointer
  | some skip => do
      let checksumGet ← atoi (payload.drop (63 * lastLine size + skip + 2))
      .ok (if (checksum : Int) = checksumGet then .success else .error, data)

theorem uuDecodeLine_drop (memory : Bytes) (pointer input : Nat) (output : Bytes)
    (position : Nat) :
    uuDecodeLine memory (pointer + input) output position =
      uuDecodeLine (memory.drop pointer) input output position := by
  have loop (remaining i : Nat) (written : Bytes) :
      uuDecodeLoop memory (pointer + input) position remaining i written =
        uuDecodeLoop (memory.drop pointer) input position remaining i written := by
    induction remaining generalizing i written with
    | zero => rfl
    | succ remaining ih =>
        unfold uuDecodeLoop uuDecodeBase
        simp only [Nat.add_assoc, loadByte_add memory pointer, ih]
  unfold uuDecodeLine
  simp only [loadByte_add memory pointer, loop]

theorem ispDecodeLines_drop (buf : Bytes) (p remaining i : Nat) (data : Bytes) :
    ispDecodeLines buf p remaining i data =
      ispDecodeLines (buf.drop p) 0 remaining i data := by
  induction remaining generalizing i data with
  | zero => rfl
  | succ remaining ih =>
      unfold ispDecodeLines
      simp only [uuDecodeLine_drop buf p, Nat.zero_add, ih]

/-- A search that starts later counts from there. -/
theorem searchFrom_add (needle memory : Bytes) (position : Nat) :
    searchFrom needle memory position =
      (searchFrom needle memory 0).map fun found => found.map (position + ·) := by
  induction memory generalizing position with
  | nil => rfl
  | cons byte rest ih =>
      unfold searchFrom
      split
      · rfl
      · split
        · rfl
        · rw [ih (position + 1), ih (0 + 1)]
          cases searchFrom needle rest 0 with
          | error fault => rfl
          | ok found =>
              cases found with
              | none => rfl
              | some skip =>
                  have joined : position + 1 + skip = position + (0 + 1 + skip) := by omega
                  simp [Except.map, joined]

variable {σ : Type} {peer : Peer σ} {addr size : UInt32} {data response payload : Bytes}
  {isp : Isp σ}

/-- The state after the answer to a read has been heard. -/
def heardRead (peer : Peer σ) (addr size : UInt32) (isp : Isp σ) : Isp σ :=
  (isp.puts peer (readLine addr size)).hear ispUartRecvTimeoutUs

/-- The bytes that answer a read. -/
def readAnswer (peer : Peer σ) (addr size : UInt32) (isp : Isp σ) : Bytes :=
  burst ispUartRecvTimeoutUs (isp.puts peer (readLine addr size)).incoming

/-- The part of `ISP_readMemory` behind the success line. -/
theorem parsePayload_eq (peer : Peer σ) (buf : Bytes) (p size : Nat) (data : Bytes)
    (isp : Isp σ) :
    (do
      let data ← ispDecodeLines buf (p + 3) (lastLine size + 1) 0 data
      let checksum ← sumBytes data size
      match ← strstr buf (p + 3 + 63 * lastLine size) endcodeStr with
      | none => .error .nullPointer
      | some q => do
          let checksumGet ← atoi (buf.drop (q + 2))
          if (checksum : Int) = checksumGet then
            .ok (RetCode.success, data, (isp.puts peer okStr).puts peer endcodeStr)
          else .ok (RetCode.error, data, isp)) =
      (parsePayload (buf.drop (p + 3)) size data).map fun result =>
        (result.1, result.2,
          if result.1 = .success then (isp.puts peer okStr).puts peer endcodeStr else isp) := by
  unfold parsePayload
  rw [ispDecodeLines_drop buf (p + 3)]
  cases ispDecodeLines (buf.drop (p + 3)) 0 (lastLine size + 1) 0 data with
  | error fault => rfl
  | ok decoded =>
      simp only [bind, Except.bind]
      cases sumBytes decoded size with
      | error fault => rfl
      | ok checksum =>
          simp only []
          unfold strstr
          rw [searchFrom_add, ← List.drop_drop]
          cases searchFrom endcodeStr ((buf.drop (p + 3)).drop (63 * lastLine size)) 0 with
          | error fault => rfl
          | ok found =>
              cases found with
              | none => rfl
              | some skip =>
                  have place : buf.drop (p + 3 + 63 * lastLine size + skip + 2) =
                      (buf.drop (p + 3)).drop (63 * lastLine size + skip + 2) := by
                    rw [List.drop_drop]
                    congr 1
                    omega
                  simp only [Except.map, Option.map_some, place]
                  cases atoi ((buf.drop (p + 3)).drop (63 * lastLine size + skip + 2)) with
                  | error fault => rfl
                  | ok checksumGet =>
                      simp only []
                      by_cases same : (checksum : Int) = checksumGet
                      · rw [if_pos same, if_pos same, if_pos rfl]
                      · rw [if_neg same, if_neg same, if_neg (by decide)]

/-- An answer that fits is received whole. -/
theorem ispGetResp_readLine
    (fits : (readAnswer peer addr size isp).length ≤ ispRecvBufSize) :
    ispGetResp ispUartRecvTimeoutUs (isp.clearRecvBuf.puts peer (readLine addr size)) =
      .ok ((readAnswer peer addr size isp).length, heardRead peer addr size isp) := by
  rw [← clearRecvBuf_puts, ispGetResp_cleared]
  exact if_pos fits

/-- The answer is received first. -/
theorem ispReadMemory_receives (accepted : ReadAccepted addr size) :
    ispReadMemory peer addr size data isp =
      if (readAnswer peer addr size isp).length ≤ ispRecvBufSize then
        if readAnswer peer addr size isp = [] then
          .ok (.respTimeout, data, heardRead peer addr size isp)
        else
          (strstr (received (readAnswer peer addr size isp)) 0 cmdSuccessRespStr).bind
            fun found =>
              match found with
              | none => .ok (.error, data, heardRead peer addr size isp)
              | some p =>
                  (parsePayload ((received (readAnswer peer addr size isp)).drop (p + 3))
                    size.toNat data).map fun result =>
                      (result.1, result.2,
                        if result.1 = .success then
                          ((heardRead peer addr size isp).puts peer okStr).puts peer endcodeStr
                        else heardRead peer addr size isp)
      else .error .bufferOverflow := by
  have guard : (checkFlashAddr addr ∨ checkRamAddr addr) ∧ size.toNat % 4 = 0 ∧
    0 < size.toNat ∧ size.toNat ≤ flashSize ∧ size.toNat ≤ ramSize := accepted
  have lineNum : size.toNat / 45 + (if size.toNat % 45 ≠ 0 then 1 else 0) =
      lastLine size.toNat + 1 := by
    have positive := accepted.2.2.1
    unfold lastLine
    split <;> omega
  have buffer : (heardRead peer addr size isp).ispRecvBuf =
      received (readAnswer peer addr size isp) := rfl
  unfold ispReadMemory
  rw [if_pos guard, readLine_eq accepted]
  simp only [bind, Except.bind]
  by_cases fits : (readAnswer peer addr size isp).length ≤ ispRecvBufSize
  · rw [ispGetResp_readLine fits, if_pos fits]
    simp only [buffer, lineNum, Nat.add_sub_cancel]
    by_cases silent : readAnswer peer addr size isp = []
    · rw [if_pos silent, if_pos (by simp [silent])]
    · have answered := List.length_pos_of_ne_nil silent
      rw [if_neg silent, if_neg (by omega)]
      cases strstr (received (readAnswer peer addr size isp)) 0 cmdSuccessRespStr with
      | error fault => rfl
      | ok found =>
          cases found with
          | none => rfl
          | some p => exact parsePayload_eq peer _ p size.toNat data _
  · have overflows : ispGetResp ispUartRecvTimeoutUs
        (isp.clearRecvBuf.puts peer (readLine addr size)) = .error .bufferOverflow := by
      rw [← clearRecvBuf_puts, ispGetResp_cleared]
      exact if_neg fits
    rw [overflows, if_neg fits]

/-- What the search of the buffer finds is followed by the payload. -/
theorem follows_of_strstr {buf needle : Bytes} {p : Nat} (needleNonempty : needle ≠ [])
    (search : strstr buf 0 needle = .ok (some p)) :
    FollowsFirst needle buf (buf.drop (p + needle.length)) := by
  have fromStart : searchFrom needle buf 0 = .ok (some p) := search
  obtain ⟨after, follows⟩ := follows_of_searchFrom fromStart
  obtain ⟨skip, found, rfl⟩ := follows.search needleNonempty 0
  have same : p = 0 + skip := by simpa using fromStart.symm.trans found
  rw [same, Nat.zero_add]
  exact follows

/-- What the search does not find is not there. -/
theorem not_follows_of_strstr {buf needle : Bytes} (needleNonempty : needle ≠ [])
    (search : strstr buf 0 needle = .ok none) (payload : Bytes) :
    ¬ FollowsFirst needle buf payload := by
  intro follows
  obtain ⟨skip, found, -⟩ := follows.search needleNonempty 0
  have same : Except.ok none = Except.ok (some (0 + skip)) := search.symm.trans found
  simp at same

/-- The state in which a read leaves the link. -/
def afterRead (peer : Peer σ) (addr size : UInt32) (isp : Isp σ) (ret : RetCode) : Isp σ :=
  if ret = .success then ((heardRead peer addr size isp).puts peer okStr).puts peer endcodeStr
  else heardRead peer addr size isp

/-- An answer that fits is parsed from its first `0\r\n` on. -/
theorem ispReadMemory_of_payload (data : Bytes) (accepted : ReadAccepted addr size)
    (fits : (readAnswer peer addr size isp).length ≤ ispRecvBufSize)
    (follows : FollowsFirst cmdSuccessRespStr (received (readAnswer peer addr size isp))
      payload) :
    ispReadMemory peer addr size data isp =
      (parsePayload payload size.toNat data).map fun result =>
        (result.1, result.2, afterRead peer addr size isp result.1) := by
  have answered : readAnswer peer addr size isp ≠ [] := by
    intro silent
    obtain ⟨before, split, -⟩ := follows
    have member : (48 : UInt8) ∈ received (readAnswer peer addr size isp) := by
      simp [split, cmdSuccessRespStr]
    simp [silent, received] at member
  obtain ⟨p, search, place⟩ := follows.search (by decide) 0
  rw [Nat.zero_add] at search
  have found : strstr (received (readAnswer peer addr size isp)) 0 cmdSuccessRespStr =
      .ok (some p) := search
  have rest : (received (readAnswer peer addr size isp)).drop (p + 3) = payload := place
  rw [ispReadMemory_receives accepted, if_pos fits, if_neg answered, found]
  simp only [Except.bind]
  rw [rest]
  rfl

/-- What a call returns has been made of the payload. -/
theorem parsePayload_of_returned {data stored : Bytes} {ret : RetCode} {final : Isp σ}
    (accepted : ReadAccepted addr size)
    (fits : (readAnswer peer addr size isp).length ≤ ispRecvBufSize)
    (follows : FollowsFirst cmdSuccessRespStr (received (readAnswer peer addr size isp))
      payload)
    (returned : ispReadMemory peer addr size data isp = .ok (ret, stored, final)) :
    parsePayload payload size.toNat data = .ok (ret, stored) := by
  rw [ispReadMemory_of_payload data accepted fits follows] at returned
  cases parse : parsePayload payload size.toNat data with
  | error fault => simp [parse, Except.map] at returned
  | ok result =>
      simp only [parse, Except.map, Except.ok.injEq, Prod.mk.injEq] at returned
      obtain ⟨rfl, rfl, -⟩ := returned
      rfl

/-- An answer without `0\r\n` is no success, and the data is left alone. -/
theorem ispReadMemory_of_no_payload (peer : Peer σ) (data : Bytes) (isp : Isp σ)
    (accepted : ReadAccepted addr size)
    (fits : (readAnswer peer addr size isp).length ≤ ispRecvBufSize)
    (absent : ∀ payload, ¬ FollowsFirst cmdSuccessRespStr
      (received (readAnswer peer addr size isp)) payload) :
    (∃ ret final, ret ≠ .success ∧
        ispReadMemory peer addr size data isp = .ok (ret, data, final)) ∨
      (strstr (received (readAnswer peer addr size isp)) 0 cmdSuccessRespStr =
          .error .outOfBounds ∧
        ispReadMemory peer addr size data isp = .error .outOfBounds) := by
  rw [ispReadMemory_receives accepted, if_pos fits]
  split_ifs with silent
  · exact .inl ⟨_, _, by decide, rfl⟩
  · cases search : strstr (received (readAnswer peer addr size isp)) 0 cmdSuccessRespStr with
    | error fault =>
        obtain rfl := searchFrom_fault search
        exact .inr ⟨rfl, rfl⟩
    | ok found =>
        cases found with
        | none => exact .inl ⟨_, _, by decide, rfl⟩
        | some p => exact absurd (follows_of_strstr (by decide) search) (absent _)

/-- A payload whose last line can be decoded into an object of this length, and
with a checksum behind it. -/
structure Parsed (payload : Bytes) (size length : Nat) (after : Bytes) (checksum : Int) :
    Prop where
  readable : Readable (payload.drop (63 * lastLine size))
  fit : (lineWrites (payload.drop (63 * lastLine size)) (45 * lastLine size)).Fit length
  ended : FollowsFirst endcodeStr (payload.drop (63 * lastLine size)) after
  announced : atoi after = .ok checksum

/-- The data after a response has been decoded. -/
def decodedData (payload : Bytes) (size : Nat) (data : Bytes) : Bytes :=
  replay (textWrites payload (lastLine size + 1) 0) data

/-- All writes fit where those of the last line do. -/
theorem Parsed.fit_textWrites {size length : Nat} {after : Bytes} {checksum : Int}
    (parsed : Parsed payload size length after checksum) (positive : 0 < size)
    (room : size ≤ length) : (textWrites payload (lastLine size + 1) 0).Fit length := by
  have bounds := lastLine_bounds positive
  rw [textWrites_succ, fit_append, Nat.zero_add]
  exact ⟨fit_inner (by omega) (readable_begins parsed.readable), parsed.fit⟩

theorem Parsed.decodedData_length {size : Nat} {after : Bytes} {checksum : Int}
    (parsed : Parsed payload size data.length after checksum) (positive : 0 < size)
    (room : size ≤ data.length) : (decodedData payload size data).length = data.length :=
  replay_length (parsed.fit_textWrites positive room)

/-- The sum of the data decides the result. -/
theorem Parsed.parsePayload {size : Nat} {after : Bytes} {checksum : Int}
    (parsed : Parsed payload size data.length after checksum) (positive : 0 < size)
    (room : size ≤ data.length) :
    parsePayload payload size data =
      .ok (if (byteSum ((decodedData payload size data).take size) : Int) = checksum then
          .success else .error, decodedData payload size data) := by
  have bounds := lastLine_bounds positive
  have decodes : ispDecodeLines payload 0 (lastLine size + 1) 0 data =
      .ok (decodedData payload size data) := by
    rw [ispDecodeLines_eq (List.drop_zero) (by omega) parsed.readable, if_pos parsed.fit]
    rfl
  have sum : sumBytes (decodedData payload size data) size =
      .ok (byteSum ((decodedData payload size data).take size)) := by
    unfold sumBytes
    rw [if_pos (by rw [parsed.decodedData_length positive room]; exact room)]
  obtain ⟨skip, search, rest⟩ := parsed.ended.search (by decide) 0
  have place : payload.drop (63 * lastLine size + skip + 2) = after := by
    rw [← rest, List.drop_drop]
    rfl
  unfold OnlineProgram.parsePayload
  rw [decodes]
  simp only [bind, Except.bind]
  rw [sum]
  simp only []
  rw [search]
  simp only [Nat.zero_add]
  rw [place, parsed.announced]

/-- A payload is turned into a result only when it parses. -/
theorem exists_parsed {size : Nat} {result : RetCode × Bytes} (positive : 0 < size)
    (room : size ≤ data.length) (returned : parsePayload payload size data = .ok result) :
    ∃ after checksum, Parsed payload size data.length after checksum := by
  have bounds := lastLine_bounds positive
  unfold parsePayload at returned
  cases decodes : ispDecodeLines payload 0 (lastLine size + 1) 0 data with
  | error fault => simp [decodes, bind, Except.bind] at returned
  | ok decoded =>
      have readable : Readable (payload.drop (63 * lastLine size)) := by
        have last := ispDecodeLines_returns (List.drop_zero) decodes (lastLine size)
          (Nat.lt_succ_self _)
        rwa [Nat.zero_add] at last
      have fit : (lineWrites (payload.drop (63 * lastLine size))
          (45 * lastLine size)).Fit data.length := by
        by_contra misses
        rw [ispDecodeLines_eq (List.drop_zero) (by omega) readable, if_neg misses] at decodes
        simp at decodes
      simp only [decodes, bind, Except.bind] at returned
      cases sum : sumBytes decoded size with
      | error fault => simp [sum] at returned
      | ok checksum =>
          simp only [sum] at returned
          cases search : searchFrom endcodeStr (payload.drop (63 * lastLine size)) 0 with
          | error fault => simp [search] at returned
          | ok found =>
              cases found with
              | none => simp [search] at returned
              | some skip =>
                  simp only [search] at returned
                  have ended := follows_of_strstr (by decide : endcodeStr ≠ [])
                    (show strstr (payload.drop (63 * lastLine size)) 0 endcodeStr = _ from search)
                  cases number : atoi (payload.drop (63 * lastLine size + skip + 2)) with
                  | error fault => simp [number] at returned
                  | ok checksumGet =>
                      refine ⟨_, checksumGet, readable, fit, ended, ?_⟩
                      rw [List.drop_drop]
                      exact number

/-- Only the decoder writes to the data. -/
theorem parsePayload_overflow_iff {size : Nat} :
    parsePayload payload size data = .error .bufferOverflow ↔
      ispDecodeLines payload 0 (lastLine size + 1) 0 data = .error .bufferOverflow := by
  unfold parsePayload
  cases ispDecodeLines payload 0 (lastLine size + 1) 0 data with
  | error fault => simp [bind, Except.bind]
  | ok decoded =>
      simp only [bind, Except.bind, reduceCtorEq, iff_false]
      unfold sumBytes
      split_ifs
      · simp only []
        cases search : searchFrom endcodeStr (payload.drop (63 * lastLine size)) 0 with
        | error fault => simp [searchFrom_fault search]
        | ok found =>
            cases found with
            | none => simp
            | some skip =>
                simp only []
                cases number : atoi (payload.drop (63 * lastLine size + skip + 2)) with
                | error fault => simp [(atoi_error_iff.mp number).1]
                | ok checksumGet => simp
      · simp

/-- A target that says nothing. -/
def silentPeer : Peer Unit where
  accept _ _ := ((), [])

/-- A link on which a response is already on the way. -/
def pendingIsp (response : Bytes) : Isp Unit :=
  { target := (), incoming := response.map fun byte => (0, byte), ispRecvBuf := [] }

theorem silentPeer_receive (text : Bytes) : (silentPeer.receive text ()).2 = [] := by
  induction text with
  | nil => rfl
  | cons byte text ih => exact ih

/-- Any bytes can be the answer to a read. -/
theorem readAnswer_pending (addr size : UInt32) (response : Bytes) :
    readAnswer silentPeer addr size (pendingIsp response) = response := by
  have inTime : ∀ sent ∈ response.map fun byte => ((0, byte) : Nat × UInt8),
      sent.1 < ispUartRecvTimeoutUs := by
    intro sent member
    obtain ⟨byte, -, rfl⟩ := List.mem_map.mp member
    exact (by decide : 0 < ispUartRecvTimeoutUs)
  unfold readAnswer Isp.puts pendingIsp
  rw [silentPeer_receive, List.append_nil, (burst_of_inTime inTime).1, List.map_map]
  exact List.map_id response

end OnlineProgram
