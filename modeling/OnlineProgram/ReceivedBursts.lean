import OnlineProgram.IspCommands

/-!
# What the host hears

`ISP_getResp` takes the bytes of the UART until it has been idle for the
timeout, whoever sends them and however many they are.  This file describes it
and the search behind it for every stream of bytes, without any promise of the
target.
-/

namespace OnlineProgram

open ByteStrings CMemory SerialLink

variable {σ : Type}

/-- The bytes before the first long gap go into the buffer, if they fit. -/
theorem ispGetRespLoop_eq (timeoutUs : Nat) (timeline : Timeline) {pStr : Nat}
    {buf : Bytes} (inside : pStr ≤ buf.length) :
    ispGetRespLoop timeoutUs timeline pStr buf =
      if pStr + (burst timeoutUs timeline).length ≤ buf.length then
        .ok (pStr + (burst timeoutUs timeline).length, afterBurst timeoutUs timeline,
          splice buf pStr (burst timeoutUs timeline))
      else .error .bufferOverflow := by
  induction timeline generalizing pStr buf with
  | nil => simp [ispGetRespLoop, burst, afterBurst, inside]
  | cons sent timeline ih =>
      obtain ⟨idle, byte⟩ := sent
      unfold ispGetRespLoop burst afterBurst
      by_cases inTime : idle < timeoutUs
      · simp only [if_pos inTime, List.length_cons]
        by_cases room : pStr + 1 ≤ buf.length
        · have stored : store buf pStr [byte] = .ok (splice buf pStr [byte]) :=
            store_of_le room
          have storedLength : (splice buf pStr [byte]).length = buf.length :=
            splice_length room
          have joined : splice (splice buf pStr [byte]) (pStr + 1)
              (burst timeoutUs timeline) =
                splice buf pStr ([byte] ++ burst timeoutUs timeline) :=
            splice_splice room
          rw [stored]
          simp only [bind, Except.bind]
          rw [ih (by rw [storedLength]; exact room), storedLength, joined]
          simp only [Nat.add_assoc, Nat.add_comm 1, List.singleton_append]
        · have overflows : store buf pStr [byte] = .error .bufferOverflow := by
            unfold store
            exact if_neg room
          rw [overflows, if_neg (by omega)]
          rfl
      · simp [inTime, inside]

/-- The buffer after a reply has been received into it. -/
def received (reply : Bytes) : Bytes :=
  reply ++ List.replicate (ispRecvBufSize - reply.length) 0

/-- The state after a burst has been received into the cleared buffer. -/
def Isp.hear (timeoutUs : Nat) (isp : Isp σ) : Isp σ :=
  { isp with
    incoming := afterBurst timeoutUs isp.incoming
    ispRecvBuf := received (burst timeoutUs isp.incoming) }

theorem ispGetResp_cleared (timeoutUs : Nat) (isp : Isp σ) :
    ispGetResp timeoutUs isp.clearRecvBuf =
      if (burst timeoutUs isp.incoming).length ≤ ispRecvBufSize then
        .ok ((burst timeoutUs isp.incoming).length, isp.hear timeoutUs)
      else .error .bufferOverflow := by
  have loop := ispGetRespLoop_eq timeoutUs isp.incoming
    (Nat.zero_le (List.replicate ispRecvBufSize (0 : UInt8)).length)
  rw [Nat.zero_add, List.length_replicate] at loop
  unfold ispGetResp
  simp only [Isp.clearRecvBuf]
  rw [loop]
  split
  · simp [bind, Except.bind, splice, received, Isp.hear]
  · rfl

theorem clearRecvBuf_puts {peer : Peer σ} (text : Bytes) (isp : Isp σ) :
    (isp.puts peer text).clearRecvBuf = isp.clearRecvBuf.puts peer text :=
  rfl

/-- A quiet link hears a reply in time, and is quiet again. -/
theorem hear_of_replies {peer : Peer σ} {isp : Isp σ} {line reply : Bytes} {timeoutUs : Nat}
    {final : σ} (quiet : isp.incoming = [])
    (replies : peer.Replies line timeoutUs reply isp.target final) :
    burst timeoutUs (isp.puts peer line).incoming = reply ∧
      (isp.puts peer line).hear timeoutUs =
        { target := final, incoming := [], ispRecvBuf := received reply } := by
  obtain ⟨timeline, receives, rfl, inTime⟩ := replies
  obtain ⟨heard, silent⟩ := burst_of_inTime inTime
  have incoming : (isp.puts peer line).incoming = timeline := by
    simp only [Isp.puts, quiet, receives, List.nil_append]
  unfold Isp.hear
  rw [incoming, heard, silent]
  exact ⟨rfl, by simp only [Isp.puts, receives]⟩

/-- A buffer that has room behind a response holds it as a string. -/
theorem received_eq_string {response : Bytes} (short : response.length < ispRecvBufSize) :
    ∃ rest, received response = response ++ 0 :: rest := by
  obtain ⟨count, countEq⟩ : ∃ count, ispRecvBufSize - response.length = count + 1 :=
    ⟨ispRecvBufSize - response.length - 1, by omega⟩
  refine ⟨List.replicate count 0, ?_⟩
  unfold received
  rw [countEq, List.replicate_succ]

theorem received_length {response : Bytes} (fits : response.length ≤ ispRecvBufSize) :
    (received response).length = ispRecvBufSize := by
  simp only [received, List.length_append, List.length_replicate]
  omega

/-- A full buffer holds the response and nothing else. -/
theorem received_of_full {response : Bytes} (full : response.length = ispRecvBufSize) :
    received response = response := by
  simp [received, full]

theorem zero_mem_received {response : Bytes} (fits : response.length ≤ ispRecvBufSize) :
    (0 : UInt8) ∈ received response ↔
      response.length < ispRecvBufSize ∨ (0 : UInt8) ∈ response := by
  rcases Nat.lt_or_eq_of_le fits with short | full
  · obtain ⟨rest, isString⟩ := received_eq_string short
    simp [isString, short]
  · simp [received_of_full full, full]

/-- The search of the receive buffer stays inside it when the response leaves a
zero in it or contains the needle. -/
theorem strstr_received_error_iff {needle response : Bytes} (needleNonempty : needle ≠ [])
    (fits : response.length ≤ ispRecvBufSize) :
    (∃ fault, strstr (received response) 0 needle = .error fault) ↔
      response.length = ispRecvBufSize ∧ (0 : UInt8) ∉ response ∧
        ¬ needle <:+: response := by
  unfold strstr
  rw [List.drop_zero, searchFrom_error_iff needleNonempty, zero_mem_received fits, not_or]
  constructor
  · rintro ⟨⟨notShort, noZero⟩, absent⟩
    have full : response.length = ispRecvBufSize := by omega
    rw [received_of_full full] at absent
    exact ⟨full, noZero, absent⟩
  · rintro ⟨full, noZero, absent⟩
    rw [received_of_full full]
    exact ⟨⟨by omega, noZero⟩, absent⟩

/-- Waiting for an answer, by the response that arrives. -/
theorem ispAwait_cleared {timeoutUs : Nat} {expected response : Bytes} {isp : Isp σ}
    (hears : burst timeoutUs isp.incoming = response)
    (fits : response.length ≤ ispRecvBufSize) (answered : response ≠ []) :
    ispAwait timeoutUs expected isp.clearRecvBuf =
      (strstr (received response) 0 expected).bind fun p =>
        .ok (if p ≠ none then .success else .error, isp.hear timeoutUs) := by
  have nonempty : ¬ response.length ≤ 0 := by
    have positive := List.length_pos_of_ne_nil answered
    omega
  have buffer : (isp.hear timeoutUs).ispRecvBuf = received response := by
    simp only [Isp.hear, hears]
  unfold ispAwait
  rw [ispGetResp_cleared, hears, if_pos fits]
  simp only [bind, Except.bind]
  rw [if_neg nonempty, buffer]

/-- A response of more than the buffer overflows it. -/
theorem ispAwait_overflow {timeoutUs : Nat} {expected response : Bytes} {isp : Isp σ}
    (hears : burst timeoutUs isp.incoming = response)
    (long : ispRecvBufSize < response.length) :
    ispAwait timeoutUs expected isp.clearRecvBuf = .error .bufferOverflow := by
  unfold ispAwait
  rw [ispGetResp_cleared, hears, if_neg (by omega)]
  rfl

/-- A response of text that fills the buffer is never an error, because the
search for the missing answer does not return. -/
theorem ispAwait_full {timeoutUs : Nat} {expected response : Bytes} {isp final : Isp σ}
    {ret : RetCode} (hears : burst timeoutUs isp.incoming = response)
    (full : response.length = ispRecvBufSize) (nonzero : (0 : UInt8) ∉ response)
    (returned : ispAwait timeoutUs expected isp.clearRecvBuf = .ok (ret, final)) :
    ret = .success := by
  have answered : response ≠ [] := by
    rintro rfl
    exact absurd full (by decide)
  rw [ispAwait_cleared hears (Nat.le_of_eq full) answered] at returned
  cases search : strstr (received response) 0 expected with
  | error fault => simp [search, Except.bind] at returned
  | ok found =>
      cases found with
      | none =>
          unfold strstr at search
          rw [List.drop_zero, received_of_full full] at search
          exact absurd (searchFrom_none search) nonzero
      | some position =>
          simp only [search, Except.bind, Except.ok.injEq, Prod.mk.injEq] at returned
          exact returned.1.symm.trans (if_pos (by simp))

/-- A response of text that leaves room in the buffer is success when it
contains what the host waits for, and only then. -/
theorem ispAwait_text {timeoutUs : Nat} (expected : Bytes) {response : Bytes}
    {isp : Isp σ} (hears : burst timeoutUs isp.incoming = response)
    (short : response.length < ispRecvBufSize) (answered : response ≠ [])
    (nonzero : (0 : UInt8) ∉ response) (expectedNonempty : expected ≠ [])
    (expectedNonzero : (0 : UInt8) ∉ expected) :
    ∃ ret, ispAwait timeoutUs expected isp.clearRecvBuf = .ok (ret, isp.hear timeoutUs) ∧
      (ret = .success ↔ expected <:+: response) := by
  obtain ⟨rest, isString⟩ := received_eq_string short
  obtain ⟨found, search, occurs⟩ :=
    searchFrom_string expectedNonempty expectedNonzero nonzero rest 0
  have located : strstr (received response) 0 expected = .ok found := by
    unfold strstr
    rw [List.drop_zero, isString, search]
  rw [ispAwait_cleared hears (Nat.le_of_lt short) answered, located]
  refine ⟨_, rfl, ?_⟩
  rw [← occurs]
  split <;> simp_all

end OnlineProgram
