import OnlineProgram.ReceivedBursts
import OnlineProgram.ResultCodes

/-!
# What earlier commands leave in the receive buffer

A response is written over what the buffer held before, and its end is not
marked.  A command that clears the buffer first sees the response alone.
`ISP_disableEcho` does not, so it may find its code of success in the rest of an
earlier response.
-/

namespace OnlineProgram

open ByteStrings CMemory SerialLink

/-- An occurrence in two texts side by side is in the first, or a part of it, as
much as there may be of it, ends the first. -/
theorem infix_append_cases {needle front back : Bytes} (found : needle <:+: front ++ back) :
    needle <:+: front ∨
      ∃ count < needle.length, needle.take count <:+ front ∧ needle.drop count <:+: back := by
  obtain ⟨before, after, split⟩ := found
  rw [List.append_assoc, List.append_eq_append_iff] at split
  rcases split with ⟨middle, frontEq, restEq⟩ | ⟨middle, beforeEq, backEq⟩
  · rw [List.append_eq_append_iff] at restEq
    rcases restEq with ⟨tail, middleEq, -⟩ | ⟨tail, needleEq, backEq⟩
    · exact .inl ⟨before, tail, by rw [frontEq, middleEq, List.append_assoc]⟩
    · rcases List.eq_nil_or_concat tail with rfl | ⟨_, _, notNil⟩
      · rw [List.append_nil] at needleEq
        exact .inl ⟨before, [], by rw [frontEq, needleEq, List.append_nil]⟩
      · have positive : 0 < tail.length := by simp [notNil]
        refine .inr ⟨middle.length, by rw [needleEq, List.length_append]; omega, ?_, ?_⟩
        · rw [needleEq, List.take_left]
          exact ⟨before, frontEq.symm⟩
        · rw [needleEq, List.drop_left]
          exact ⟨[], after, backEq.symm⟩
  · rcases List.eq_nil_or_concat needle with rfl | ⟨_, _, notNil⟩
    · exact .inl List.nil_infix
    · refine .inr ⟨0, by simp [notNil], List.nil_suffix, ?_⟩
      exact ⟨middle, after, by rw [backEq]; simp⟩

/-- The contents that the buffer can have between commands, when no response has
filled it. -/
def LeftOver (buffer : Bytes) : Prop :=
  ∃ previous : Bytes, previous.length < ispRecvBufSize ∧ buffer = received previous

theorem leftOver_received {previous : Bytes} (short : previous.length < ispRecvBufSize) :
    LeftOver (received previous) :=
  ⟨previous, short, rfl⟩

theorem LeftOver.length {buffer : Bytes} (left : LeftOver buffer) :
    buffer.length = ispRecvBufSize := by
  obtain ⟨previous, short, rfl⟩ := left
  exact received_length (Nat.le_of_lt short)

/-- Whatever they are, they end in a zero. -/
theorem leftOver_iff {buffer : Bytes} :
    LeftOver buffer ↔ ∃ front, buffer = front ++ [0] ∧ front.length + 1 = ispRecvBufSize := by
  constructor
  · rintro ⟨previous, short, rfl⟩
    refine ⟨previous ++ List.replicate (ispRecvBufSize - previous.length - 1) 0, ?_, ?_⟩
    · have zeros : ispRecvBufSize - previous.length =
          ispRecvBufSize - previous.length - 1 + 1 := by omega
      unfold received
      rw [zeros, List.replicate_succ', ← zeros, List.append_assoc]
    · simp only [List.length_append, List.length_replicate]
      omega
  · rintro ⟨front, rfl, length⟩
    refine ⟨front, by omega, ?_⟩
    have one : ispRecvBufSize - front.length = 1 := by omega
    unfold received
    rw [one]
    rfl

/-- What stands behind a response ends the text that starts with it. -/
theorem LeftOver.exists_string {buffer response : Bytes} (left : LeftOver buffer)
    (short : response.length < ispRecvBufSize) :
    ∃ text rest, splice buffer 0 response = response ++ (text ++ 0 :: rest) ∧
      (0 : UInt8) ∉ text ∧ response.length + text.length < ispRecvBufSize := by
  obtain ⟨front, rfl, length⟩ := leftOver_iff.mp left
  have zero : (0 : UInt8) ∈ front.drop response.length ++ [0] := by simp
  obtain ⟨text, rest, split, noZero⟩ := List.eq_append_cons_of_mem zero
  have total := congrArg List.length split
  rw [List.length_append, List.length_append, List.length_drop, List.length_singleton,
    List.length_cons] at total
  refine ⟨text, rest, ?_, noZero, by omega⟩
  unfold splice
  rw [Nat.zero_add, List.drop_append_of_le_length (by omega), split]
  simp

variable {σ : Type}

/-- The link with another content of the buffer. -/
def Isp.withBuffer (isp : Isp σ) (buffer : Bytes) : Isp σ :=
  { isp with ispRecvBuf := buffer }

/-- Receiving without clearing. -/
theorem ispGetResp_over {timeoutUs : Nat} {isp : Isp σ}
    (left : isp.ispRecvBuf.length = ispRecvBufSize) :
    ispGetResp timeoutUs isp =
      if (burst timeoutUs isp.incoming).length ≤ ispRecvBufSize then
        .ok ((burst timeoutUs isp.incoming).length,
          { isp with
            incoming := afterBurst timeoutUs isp.incoming
            ispRecvBuf := splice isp.ispRecvBuf 0 (burst timeoutUs isp.incoming) })
      else .error .bufferOverflow := by
  have loop := ispGetRespLoop_eq timeoutUs isp.incoming (Nat.zero_le isp.ispRecvBuf.length)
  rw [Nat.zero_add, left] at loop
  unfold ispGetResp
  rw [loop]
  split
  · rfl
  · rfl

variable (peer : Peer σ) (isp : Isp σ)

/-- A call of a command function, with its arguments. -/
inductive IspCall where
  | getPartID (partId : Bytes)
  | unlock
  | disableEcho
  | prepareSectors (start last : UInt8)
  | eraseSectors (start last : UInt8)
  | writeToRAM (malloc : Nat → Option Bytes) (startAddr size : UInt32) (data : Bytes)
  | copyToFlash (dst src : UInt32) (size : UInt16)
  | readMemory (addr size : UInt32) (data : Bytes)

/-- The value that a call returns. -/
def IspCall.returns : IspCall → Except Fault RetCode
  | .getPartID partId => (ispGetPartID peer partId isp).map Prod.fst
  | .unlock => (ispUnlock peer isp).map Prod.fst
  | .disableEcho => (ispDisableEcho peer isp).map Prod.fst
  | .prepareSectors start last => (ispPrepareSectors peer start last isp).map Prod.fst
  | .eraseSectors start last => (ispEraseSectors peer start last isp).map Prod.fst
  | .writeToRAM malloc startAddr size data =>
      (ispWriteToRAM peer malloc startAddr size data isp).map Prod.fst
  | .copyToFlash dst src size => (ispCopyToFlash peer dst src size isp).map Prod.fst
  | .readMemory addr size data => (ispReadMemory peer addr size data isp).map Prod.fst

variable {peer isp}

theorem ispSectors_withBuffer (cmd : IspCmd) (timeoutUs : Nat) (start last : UInt8)
    (buffer : Bytes) :
    (ispSectors peer cmd timeoutUs start last (isp.withBuffer buffer)).map Prod.fst =
      (ispSectors peer cmd timeoutUs start last isp).map Prod.fst := by
  unfold ispSectors
  split
  · rfl
  · rfl

/-- A command that clears the buffer, or is turned away before it looks at it,
does not depend on what is in it. -/
theorem IspCall.returns_withBuffer {call : IspCall} (clears : call ≠ .disableEcho)
    (buffer : Bytes) : call.returns peer (isp.withBuffer buffer) = call.returns peer isp := by
  cases call with
  | getPartID partId => rfl
  | unlock => rfl
  | disableEcho => exact absurd rfl clears
  | prepareSectors start last => exact ispSectors_withBuffer ..
  | eraseSectors start last => exact ispSectors_withBuffer ..
  | writeToRAM malloc startAddr size data =>
      simp only [returns, ispWriteToRAM]
      split
      · rfl
      · rfl
  | copyToFlash dst src size =>
      have prepares : ispPrepareSectors peer 0 (sectorNum - 1).toUInt8 (isp.withBuffer buffer) =
          ispPrepareSectors peer 0 (sectorNum - 1).toUInt8 isp := by
        unfold ispPrepareSectors ispSectors
        rw [if_neg (by decide), if_neg (by decide)]
        rfl
      simp only [returns, ispCopyToFlash]
      rw [prepares]
      split
      · rfl
      · rfl
  | readMemory addr size data =>
      simp only [returns, ispReadMemory]
      split
      · rfl
      · rfl

/-- What `ISP_disableEcho` hears. -/
def echoAnswer (peer : Peer σ) (isp : Isp σ) : Bytes :=
  burst ispUartRecvTimeoutUs (isp.puts peer disableEchoCmdStr).incoming

/-- The value that `ISP_disableEcho` returns, by the buffer that it writes its
response over. -/
theorem returns_disableEcho {buffer : Bytes} (length : buffer.length = ispRecvBufSize) :
    IspCall.disableEcho.returns peer (isp.withBuffer buffer) =
      if (echoAnswer peer isp).length ≤ ispRecvBufSize then
        if echoAnswer peer isp = [] then .ok .respTimeout
        else
          (searchFrom cmdSuccessRespStr (splice buffer 0 (echoAnswer peer isp)) 0).map
            fun found => if found ≠ none then .success else .error
      else .error .bufferOverflow := by
  have sends : ((isp.withBuffer buffer).puts peer disableEchoCmdStr).ispRecvBuf = buffer := rfl
  have hears : burst ispUartRecvTimeoutUs
      ((isp.withBuffer buffer).puts peer disableEchoCmdStr).incoming = echoAnswer peer isp := rfl
  simp only [IspCall.returns, ispDisableEcho, ispAwait]
  rw [ispGetResp_over (by rw [sends]; exact length), hears]
  by_cases fits : (echoAnswer peer isp).length ≤ ispRecvBufSize
  · rw [if_pos fits, if_pos fits]
    simp only [bind, Except.bind, sends]
    by_cases silent : echoAnswer peer isp = []
    · rw [if_pos silent, if_pos (by simp [silent])]
      rfl
    · have answered := List.length_pos_of_ne_nil silent
      rw [if_neg silent, if_neg (by omega), strstr, List.drop_zero]
      cases searchFrom cmdSuccessRespStr (splice buffer 0 (echoAnswer peer isp)) 0 with
      | error fault => rfl
      | ok found => rfl
  · rw [if_neg fits, if_neg fits]
    rfl

/-- A response whose search ends in it whatever stands behind it: it is empty,
holds a zero or the code of success, or leaves no room to complete the part of
the code that it ends in. -/
def EndsItself (response : Bytes) : Prop :=
  response = [] ∨ (0 : UInt8) ∈ response ∨ cmdSuccessRespStr <:+: response ∨
    ∀ count < 3, cmdSuccessRespStr.take count <:+ response →
      ispRecvBufSize ≤ response.length + (3 - count)

section

variable {buffer text rest : Bytes}

/-- The value, by the text that the search sees. -/
theorem returns_of_string (length : buffer.length = ispRecvBufSize)
    (fits : (echoAnswer peer isp).length ≤ ispRecvBufSize) (answered : echoAnswer peer isp ≠ [])
    (split : splice buffer 0 (echoAnswer peer isp) = text ++ 0 :: rest)
    (noZero : (0 : UInt8) ∉ text) :
    (cmdSuccessRespStr <:+: text →
        IspCall.disableEcho.returns peer (isp.withBuffer buffer) = .ok .success) ∧
      (¬ cmdSuccessRespStr <:+: text →
        IspCall.disableEcho.returns peer (isp.withBuffer buffer) = .ok .error) := by
  obtain ⟨found, search, present⟩ :=
    searchFrom_string (by decide : cmdSuccessRespStr ≠ []) (by decide) noZero rest 0
  rw [returns_disableEcho length, if_pos fits, if_neg answered, split, search]
  constructor
  · intro occurs
    rw [Except.map, if_pos (present.mpr occurs)]
  · intro absent
    rw [Except.map, if_neg fun some => absent (present.mp some)]

theorem infix_of_endsItself {response : Bytes} (ends : EndsItself response)
    (answered : response ≠ []) (noZero : (0 : UInt8) ∉ response)
    (short : response.length + text.length < ispRecvBufSize)
    (found : cmdSuccessRespStr <:+: response ++ text) : cmdSuccessRespStr <:+: response := by
  rcases ends with silent | zero | present | noRoom
  · exact absurd silent answered
  · exact absurd zero noZero
  · exact present
  · rcases infix_append_cases found with present | ⟨count, below, ended, completed⟩
    · exact present
    · have room := completed.length_le
      have needleLength : cmdSuccessRespStr.length = 3 := rfl
      have tooMuch := noRoom count below ended
      rw [List.length_drop] at room
      omega

end

/-- A response that ends itself decides what is returned. -/
theorem returns_of_endsItself {first second : Bytes} (ends : EndsItself (echoAnswer peer isp))
    (firstLeft : LeftOver first) (secondLeft : LeftOver second) :
    IspCall.disableEcho.returns peer (isp.withBuffer first) =
      IspCall.disableEcho.returns peer (isp.withBuffer second) := by
  by_cases answered : echoAnswer peer isp = []
  · rw [returns_disableEcho firstLeft.length, returns_disableEcho secondLeft.length,
      answered]
    rfl
  rcases Nat.lt_or_ge (echoAnswer peer isp).length ispRecvBufSize with short | long
  · have fits := Nat.le_of_lt short
    by_cases zero : (0 : UInt8) ∈ echoAnswer peer isp
    · obtain ⟨text, rest, split, noZero⟩ := List.eq_append_cons_of_mem zero
      have overwritten (buffer : Bytes) : splice buffer 0 (echoAnswer peer isp) =
          text ++ 0 :: (rest ++ buffer.drop (echoAnswer peer isp).length) := by
        unfold splice
        rw [Nat.zero_add, List.take_zero, List.nil_append]
        conv => lhs; arg 1; rw [split]
        rw [List.append_assoc, List.cons_append]
      have firstReturns := returns_of_string firstLeft.length fits answered (overwritten first)
        noZero
      have secondReturns := returns_of_string secondLeft.length fits answered
        (overwritten second) noZero
      by_cases occurs : cmdSuccessRespStr <:+: text
      · rw [firstReturns.1 occurs, secondReturns.1 occurs]
      · rw [firstReturns.2 occurs, secondReturns.2 occurs]
    · have decided {buffer : Bytes} (left : LeftOver buffer) :
          (cmdSuccessRespStr <:+: echoAnswer peer isp →
              IspCall.disableEcho.returns peer (isp.withBuffer buffer) = .ok .success) ∧
            (¬ cmdSuccessRespStr <:+: echoAnswer peer isp →
              IspCall.disableEcho.returns peer (isp.withBuffer buffer) = .ok .error) := by
        obtain ⟨text, rest, split, noZero, room⟩ := left.exists_string short
        rw [← List.append_assoc] at split
        have returned := returns_of_string left.length fits answered split
          (by simp [zero, noZero])
        exact ⟨fun occurs => returned.1 (List.infix_append_of_infix_left occurs),
          fun absent => returned.2 fun occurs =>
            absent (infix_of_endsItself ends answered zero room occurs)⟩
      by_cases occurs : cmdSuccessRespStr <:+: echoAnswer peer isp
      · rw [(decided firstLeft).1 occurs, (decided secondLeft).1 occurs]
      · rw [(decided firstLeft).2 occurs, (decided secondLeft).2 occurs]
  · have whole {buffer : Bytes} (left : LeftOver buffer) :
        splice buffer 0 (echoAnswer peer isp) = echoAnswer peer isp := by
      unfold splice
      rw [List.drop_of_length_le (by rw [left.length]; omega)]
      simp
    rw [returns_disableEcho firstLeft.length, returns_disableEcho secondLeft.length,
      whole firstLeft, whole secondLeft]

/-- A response as long as an earlier one's front. -/
theorem splice_received {front tail response : Bytes} (length : front.length = response.length) :
    splice (received (front ++ tail)) 0 response = received (response ++ tail) := by
  have behind : (front ++ tail ++ List.replicate (ispRecvBufSize - (front ++ tail).length)
      (0 : UInt8)).drop response.length =
        tail ++ List.replicate (ispRecvBufSize - (front ++ tail).length) 0 := by
    rw [List.append_assoc, ← length, List.drop_left]
  unfold splice received
  rw [Nat.zero_add, behind]
  simp [length]

/-- Otherwise the rest of an earlier response can complete the code of success. -/
theorem endsItself_of_returns
    (same : ∀ first second, LeftOver first → LeftOver second →
      IspCall.disableEcho.returns peer (isp.withBuffer first) =
        IspCall.disableEcho.returns peer (isp.withBuffer second)) :
    EndsItself (echoAnswer peer isp) := by
  by_contra unended
  simp only [EndsItself, not_or, not_forall, not_le] at unended
  obtain ⟨answered, noZero, absent, count, below, ended, room⟩ := unended
  have completionLength : (cmdSuccessRespStr.drop count).length = 3 - count := by
    rw [List.length_drop]
    rfl
  have frontLength : (List.replicate (echoAnswer peer isp).length (0 : UInt8)).length =
      (echoAnswer peer isp).length := List.length_replicate
  have clearLeft : LeftOver
      (received (List.replicate (echoAnswer peer isp).length 0 ++ [])) :=
    leftOver_received (by rw [List.length_append, frontLength, List.length_nil]; omega)
  have completingLeft : LeftOver
      (received (List.replicate (echoAnswer peer isp).length 0 ++
        cmdSuccessRespStr.drop count)) :=
    leftOver_received (by rw [List.length_append, frontLength, completionLength]; omega)
  have fits : (echoAnswer peer isp).length ≤ ispRecvBufSize := by omega
  obtain ⟨_, clearString⟩ := received_eq_string
    (by rw [List.append_nil]; omega : (echoAnswer peer isp ++ []).length < ispRecvBufSize)
  obtain ⟨_, completingString⟩ := received_eq_string
    (by rw [List.length_append, completionLength]; omega :
      (echoAnswer peer isp ++ cmdSuccessRespStr.drop count).length < ispRecvBufSize)
  rw [← splice_received frontLength] at clearString completingString
  have completionNonzero : (0 : UInt8) ∉ cmdSuccessRespStr.drop count := fun member =>
    absurd (List.mem_of_mem_drop member) (by decide)
  have clear := (returns_of_string clearLeft.length fits answered clearString
    (by simpa using noZero)).2 (by simpa using absent)
  have completed := (returns_of_string completingLeft.length fits answered completingString
    (by simp [noZero, completionNonzero])).1 (by
      obtain ⟨before, split⟩ := ended
      refine ⟨before, [], ?_⟩
      rw [← split, List.append_nil, List.append_assoc, List.take_append_drop])
  have clash := same _ _ clearLeft completingLeft
  rw [clear, completed] at clash
  cases clash

/-- The value that a command returns is independent of what earlier commands left
in the buffer, except that of `ISP_disableEcho` where the response does not end
itself. -/
theorem returns_fresh_iff (peer : Peer σ) (isp : Isp σ) (call : IspCall) :
    (∀ first second, LeftOver first → LeftOver second →
        call.returns peer (isp.withBuffer first) = call.returns peer (isp.withBuffer second)) ↔
      (call = .disableEcho → EndsItself (echoAnswer peer isp)) := by
  by_cases clears : call = .disableEcho
  · subst clears
    simp only [true_implies]
    exact ⟨endsItself_of_returns, fun ends first second firstLeft secondLeft =>
      returns_of_endsItself ends firstLeft secondLeft⟩
  · refine iff_of_true (fun first second _ _ => ?_) (fun isEcho => absurd isEcho clears)
    rw [IspCall.returns_withBuffer clears, IspCall.returns_withBuffer clears]

/-- An error code is taken for a success that the response to `U 23130` has
left. -/
theorem not_fresh_disableEcho :
    LeftOver (received []) ∧ LeftOver (received (ascii "U 23130\r\n0\r\n")) ∧
      IspCall.disableEcho.returns (replyPeer (ascii "7\r\n"))
        (quietIsp.withBuffer (received [])) = .ok .error ∧
      IspCall.disableEcho.returns (replyPeer (ascii "7\r\n"))
        (quietIsp.withBuffer (received (ascii "U 23130\r\n0\r\n"))) = .ok .success :=
  ⟨leftOver_received (by decide), leftOver_received (by decide), by decide +kernel,
    by decide +kernel⟩

end OnlineProgram
