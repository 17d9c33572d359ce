import OnlineProgram.CommandSpecs

/-!
# Result codes

A target answers a command with the optional echo of its line and the decimal
result code on a line of its own.  The host takes any `0\r\n` in the response
for the code of success.  This file says for every command, code and echo
setting when that is right.
-/

namespace OnlineProgram

open ByteStrings CMemory SerialLink

section Digits

/-- `0\r\n` ends the line of a number whose last digit is zero. -/
theorem infix_decimal_iff (number : Nat) :
    cmdSuccessRespStr <:+: decimal number ++ endcodeStr ↔ number % 10 = 0 := by
  obtain ⟨front, text⟩ := decimal_last number
  have digit : number % 10 < 10 := Nat.mod_lt _ (by decide)
  have noReturn : (13 : UInt8) ∉ front := fun member =>
    return_not_mem_decimal number (by simp [text, member])
  have line : decimal number ++ endcodeStr =
      front ++ digitByte (number % 10) :: 13 :: 10 :: [] := by
    simp [text, endcodeStr]
  rw [line, cmdSuccessRespStr, infix_line_iff [] noReturn (digitByte_ne_return digit),
    digitByte_eq_zero_iff digit]
  simp

/-- `0\r\n` in a response: the echo ends in a zero digit, or the code does. -/
theorem infix_response_iff {letter : Char} (arguments : List Nat) (last code : Nat)
    (echo : Bool) (notReturn : letter.toNat.toUInt8 ≠ 13) :
    cmdSuccessRespStr <:+: (if echo then requestLine letter (arguments ++ [last]) else []) ++
        (decimal code ++ endcodeStr) ↔
      (echo = true ∧ last % 10 = 0) ∨ code % 10 = 0 := by
  cases echo with
  | false => simpa using infix_decimal_iff code
  | true =>
      obtain ⟨body, line, noReturn⟩ := requestLine_last arguments last notReturn
      have digit : last % 10 < 10 := Nat.mod_lt _ (by decide)
      have split : body ++ [digitByte (last % 10), 13, 10] ++ (decimal code ++ endcodeStr) =
          body ++ digitByte (last % 10) :: 13 :: 10 :: (decimal code ++ endcodeStr) := by
        simp
      rw [if_pos rfl, line, split, cmdSuccessRespStr,
        infix_line_iff _ noReturn (digitByte_ne_return digit), digitByte_eq_zero_iff digit]
      have codeLine := infix_decimal_iff code
      rw [cmdSuccessRespStr] at codeLine
      rw [codeLine]
      simp

end Digits

/-- The commands that look for nothing but the code of success. -/
inductive CodedCommand where
  | unlock
  | prepareSectors (start last : UInt8)
  | eraseSectors (start last : UInt8)
  | copyToFlash (dst src : UInt32) (size : UInt16)

namespace CodedCommand

/-- The guard of the function. -/
def Accepted : CodedCommand → Prop
  | .unlock => True
  | .prepareSectors start last | .eraseSectors start last =>
      ¬ (last < start ∨ sectorNum - 1 < last.toNat)
  | .copyToFlash dst src size =>
      checkFlashAddr dst ∧ checkRamAddr src ∧ dst.toNat % 256 = 0 ∧
        (size = 256 ∨ size = 512 ∨ size = 1024 ∨ size = 4096)

def letter : CodedCommand → Char
  | .unlock => 'U'
  | .prepareSectors .. => 'P'
  | .eraseSectors .. => 'E'
  | .copyToFlash .. => 'C'

/-- The arguments before the last. -/
def firstArguments : CodedCommand → List Nat
  | .unlock => []
  | .prepareSectors start _ | .eraseSectors start _ => [start.toNat]
  | .copyToFlash dst src _ => [dst.toNat, src.toNat]

def lastArgument : CodedCommand → Nat
  | .unlock => 23130
  | .prepareSectors _ last | .eraseSectors _ last => last.toNat
  | .copyToFlash _ _ size => size.toNat

/-- The command line. -/
def line (command : CodedCommand) : Bytes :=
  requestLine command.letter (command.firstArguments ++ [command.lastArgument])

def timeoutUs : CodedCommand → Nat
  | .unlock | .prepareSectors .. => ispUartRecvTimeoutUs
  | .eraseSectors .. => ispEraseWaitTimeoutUs
  | .copyToFlash .. => 10000

variable {σ : Type} (peer : Peer σ)

def call (isp : Isp σ) : CodedCommand → Except Fault (RetCode × Isp σ)
  | .unlock => ispUnlock peer isp
  | .prepareSectors start last => ispPrepareSectors peer start last isp
  | .eraseSectors start last => ispEraseSectors peer start last isp
  | .copyToFlash dst src size => ispCopyToFlash peer dst src size isp

/-- The state in which the command line is sent, for `ISP_copyToFlash` after a
successful prepare. -/
def Sends (isp sending : Isp σ) : CodedCommand → Prop
  | .copyToFlash .. =>
      ispPrepareSectors peer 0 (sectorNum - 1).toUInt8 isp = .ok (.success, sending)
  | _ => sending = isp

/-- The response with a result code. -/
def response (command : CodedCommand) (echo : Bool) (code : Nat) : Bytes :=
  (if echo then command.line else []) ++ (decimal code ++ endcodeStr)

variable {peer}

theorem ispSectors_eq_await {cmd : IspCmd} {letter : Char} {timeoutUs : Nat}
    {start last : UInt8} (isp : Isp σ) (sameLetter : ispCmdList cmd = letter.toNat.toUInt8)
    (accepted : ¬ (last < start ∨ sectorNum - 1 < last.toNat)) :
    ispSectors peer cmd timeoutUs start last isp =
      ispAwait timeoutUs cmdSuccessRespStr
        (isp.puts peer (requestLine letter [start.toNat, last.toNat])).clearRecvBuf := by
  have bounds : start.toNat ≤ last.toNat ∧ last.toNat < sectorNum := by
    rw [UInt8.lt_iff_toNat_lt] at accepted
    unfold sectorNum at accepted ⊢
    omega
  unfold ispSectors
  rw [if_neg accepted, sectorsLine_eq sameLetter bounds.1 bounds.2]
  rfl

theorem copyLine_eq {dst src : UInt32} {size : UInt16} (inFlash : checkFlashAddr dst)
    (inRam : checkRamAddr src) :
    sprintf 36 (commandLine .copyRamToFlash
        [formatD32 dst, formatD32 src, formatD size.toNat]) =
      .ok (requestLine 'C' [dst.toNat, src.toNat, size.toNat]) := by
  have dstSmall := inFlash.2
  have srcSmall := inRam.2
  have sizeSmall := size.toNat_lt
  unfold flashEndAddress flashStartAddress flashSize sectorNum sectorSize at dstSmall
  unfold ramEndAddress ramStartAddress ramSize at srcSmall
  apply memoryLine_eq rfl
  · rw [formatD32_of_lt (by omega), formatD32_of_lt (by omega)]
    rfl
  · intro argument member
    simp only [List.mem_cons, List.not_mem_nil, or_false] at member
    rcases member with rfl | rfl | rfl <;> omega
  · simp

/-- A call sends its line and waits for the code of success. -/
theorem call_eq_await {command : CodedCommand} {isp sending : Isp σ}
    (accepted : command.Accepted) (sends : command.Sends peer isp sending) :
    command.call peer isp = ispAwait command.timeoutUs cmdSuccessRespStr
      (sending.puts peer command.line).clearRecvBuf := by
  cases command with
  | unlock =>
      obtain rfl : sending = isp := sends
      have line : unlockCmdStr ++ endcodeStr = requestLine 'U' [23130] := by
        simp [unlockCmdStr, endcodeStr, requestLine, ascii, decimal, digitByte]
      unfold call ispUnlock
      simp only []
      rw [puts_puts, line]
      rfl
  | prepareSectors start last =>
      obtain rfl : sending = isp := sends
      exact ispSectors_eq_await sending rfl accepted
  | eraseSectors start last =>
      obtain rfl : sending = isp := sends
      exact ispSectors_eq_await sending rfl accepted
  | copyToFlash dst src size =>
      have prepares : ispPrepareSectors peer 0 (sectorNum - 1).toUInt8 isp =
        .ok (.success, sending) := sends
      have guard : checkFlashAddr dst ∧ checkRamAddr src ∧ dst.toNat % 256 = 0 ∧
          (size = 256 ∨ size = 512 ∨ size = 1024 ∨ size = 4096) := accepted
      unfold call ispCopyToFlash
      simp only []
      rw [if_pos guard, prepares]
      simp only [bind, Except.bind, if_true]
      rw [copyLine_eq accepted.1 accepted.2.1]
      rfl

theorem letter_ne_return (command : CodedCommand) :
    command.letter.toNat.toUInt8 ≠ 13 ∧ command.letter.toNat.toUInt8 ≠ 0 := by
  cases command <;> simp only [letter] <;> decide

theorem zero_not_mem_response (command : CodedCommand) (echo : Bool) (code : Nat) :
    (0 : UInt8) ∉ command.response echo code := by
  intro member
  unfold response line at member
  simp only [List.mem_append] at member
  rcases member with inEcho | inCode | inEnd
  · cases echo with
    | false => simp at inEcho
    | true => exact requestLine_zero_not_mem _ command.letter_ne_return.2 inEcho
  · exact zero_not_mem_decimal code inCode
  · exact absurd inEnd (by decide)

theorem response_ne_nil (command : CodedCommand) (echo : Bool) (code : Nat) :
    command.response echo code ≠ [] := by
  simp [response, endcodeStr]

/-- The code of success makes a short response. -/
theorem response_length_lt {command : CodedCommand} (accepted : command.Accepted)
    (echo : Bool) : (command.response echo 0).length < ispRecvBufSize := by
  have small : ∀ argument ∈ command.firstArguments ++ [command.lastArgument],
      argument < 10 ^ 10 := by
    cases command with
    | unlock => decide
    | prepareSectors start last | eraseSectors start last =>
        have startSmall := start.toNat_lt
        have lastSmall := last.toNat_lt
        intro argument member
        rcases List.mem_pair.mp member with rfl | rfl
        · omega
        · simp only [lastArgument]
          omega
    | copyToFlash dst src size =>
        have dstSmall := dst.toNat_lt
        have srcSmall := src.toNat_lt
        have sizeSmall := size.toNat_lt
        intro argument member
        simp only [firstArguments, lastArgument, List.cons_append, List.nil_append,
          List.mem_cons, List.not_mem_nil, or_false] at member
        rcases member with rfl | rfl | rfl <;> omega
  have few : (command.firstArguments ++ [command.lastArgument]).length ≤ 3 := by
    cases command <;> simp [firstArguments]
  have lineLength := requestLine_length_le command.letter (by decide) small
  have zeroText : (decimal 0 ++ endcodeStr).length = 3 := by decide
  unfold response line ispRecvBufSize
  rw [List.length_append, zeroText]
  split
  · omega
  · simp

/-- For every command, echo setting and result code: the function returns, and
returns success for the code of success and no other, exactly when the response
leaves room in the receive buffer and, unless the code is the one of success,
neither the code nor the last argument of an echoed line ends in the digit
zero. -/
theorem success_iff_code_zero (peer : Peer σ) (command : CodedCommand) {echo : Bool}
    {code : Nat} {isp sending : Isp σ} (accepted : command.Accepted)
    (sends : command.Sends peer isp sending)
    (responds : burst command.timeoutUs (sending.puts peer command.line).incoming =
      command.response echo code) :
    (∃ ret final, command.call peer isp = .ok (ret, final) ∧
        (ret = .success ↔ code = 0)) ↔
      (command.response echo code).length < ispRecvBufSize ∧
        (code ≠ 0 → code % 10 ≠ 0 ∧
          ¬ (echo = true ∧ command.lastArgument % 10 = 0)) := by
  have nonzero := command.zero_not_mem_response echo code
  have nonempty := command.response_ne_nil echo code
  have contains : cmdSuccessRespStr <:+: command.response echo code ↔
      (echo = true ∧ command.lastArgument % 10 = 0) ∨ code % 10 = 0 :=
    infix_response_iff command.firstArguments command.lastArgument code echo
      command.letter_ne_return.1
  rw [call_eq_await accepted sends]
  rcases Nat.lt_trichotomy (command.response echo code).length ispRecvBufSize with
    short | full | long
  · obtain ⟨ret, await, success⟩ := ispAwait_text cmdSuccessRespStr responds short
      nonempty nonzero (by decide) (by decide)
    rw [contains] at success
    rw [await]
    constructor
    · rintro ⟨ret', final, returned, right⟩
      obtain ⟨rfl, -⟩ : ret = ret' ∧ _ := by simpa using returned
      refine ⟨short, fun isError => ?_⟩
      have notSuccess : ¬ ((echo = true ∧ command.lastArgument % 10 = 0) ∨ code % 10 = 0) :=
        fun found => isError (right.mp (success.mpr found))
      exact ⟨fun ends => notSuccess (.inr ends), fun ends => notSuccess (.inl ends)⟩
    · rintro ⟨-, apart⟩
      refine ⟨ret, _, rfl, ?_⟩
      rw [success]
      constructor
      · intro found
        by_contra isError
        obtain ⟨codeApart, echoApart⟩ := apart isError
        exact found.elim echoApart codeApart
      · rintro rfl
        exact .inr rfl
  · have isError : code ≠ 0 := by
      rintro rfl
      exact absurd full (Nat.ne_of_lt (response_length_lt accepted echo))
    constructor
    · rintro ⟨ret, final, returned, right⟩
      exact absurd (right.mp (ispAwait_full responds full nonzero returned)) isError
    · rintro ⟨short, -⟩
      omega
  · constructor
    · rintro ⟨ret, final, returned, -⟩
      rw [ispAwait_overflow responds long] at returned
      simp at returned
    · rintro ⟨short, -⟩
      omega

end CodedCommand

/-- A target that answers every line with the same text. -/
def replyPeer (reply : Bytes) : Peer Unit where
  accept byte _ := ((), if byte = 10 then reply.map fun sent => (0, sent) else [])

/-- The link to it before any command. -/
def quietIsp : Isp Unit :=
  { target := (), incoming := [], ispRecvBuf := [] }

theorem success_iff_code_zero_unlock :
    ∃ ret final, ispUnlock (replyPeer (ascii "15\r\n")) quietIsp = .ok (ret, final) ∧
      (ret = .success ↔ 15 = 0) := by
  have responds : burst CodedCommand.unlock.timeoutUs
      (quietIsp.puts (replyPeer (ascii "15\r\n")) CodedCommand.unlock.line).incoming =
        CodedCommand.unlock.response false 15 := by
    decide +kernel
  exact (CodedCommand.success_iff_code_zero (replyPeer (ascii "15\r\n")) .unlock trivial rfl
    responds).mpr ⟨by decide +kernel, fun _ => ⟨by decide, by decide⟩⟩

/-- `ISP_COMPARE_ERROR` in answer to an erase counts as success. -/
theorem success_of_compare_error :
    let command : CodedCommand := .eraseSectors 0 1
    let peer := replyPeer (command.response false 10)
    burst command.timeoutUs (quietIsp.puts peer command.line).incoming =
        command.response false 10 ∧
      (command.call peer quietIsp).map Prod.fst = .ok .success := by
  decide +kernel

end OnlineProgram
