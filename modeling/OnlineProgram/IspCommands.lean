import OnlineProgram.SerialLink
import OnlineProgram.UUencode

/-!
# The in-system programming commands

`program.cpp`, against an arbitrary machine at the other end of the UART.  The
commands share one receive buffer, which `ISP_getResp` fills without looking at
its length, and recognise an answer by a substring.  A buffer argument is an
object and never null.  Sums of bytes are natural numbers: no size that passes
a guard lets them reach the width of an `int`.
-/

namespace OnlineProgram

open ByteStrings CMemory SerialLink

inductive RetCode where
  | success
  | error
  | respTimeout
  | paramIllegal
  | memOverflow
  | writeFail
deriving DecidableEq, Repr

inductive IspCmd where
  | writeToRam
  | readMemory
  | prepareSectors
  | copyRamToFlash
  | eraseSectors
deriving DecidableEq, Repr

/-- `isp_cmd_list` -/
def ispCmdList : IspCmd → UInt8
  | .writeToRam => 87
  | .readMemory => 82
  | .prepareSectors => 80
  | .copyRamToFlash => 67
  | .eraseSectors => 69

def sectorNum : Nat := 16
def sectorSize : Nat := 4096
def flashSize : Nat := sectorNum * sectorSize
def flashStartAddress : Nat := 0
def flashEndAddress : Nat := flashStartAddress + flashSize - 1
def ramStartAddress : Nat := 0x10000000
def ramSize : Nat := 8192
def ramEndAddress : Nat := ramStartAddress + ramSize - 1

/-- `BAUDRATE_SYNC_STATUS_T` -/
inductive SyncStatus where
  | setupSync
  | respSync
  | sendFreq
  | exitSync
  | syncDone
  | syncTimeout
  | syncError
deriving DecidableEq, Repr

/-- `isp_cmd_list[ISP_CMD_READ_PART_ID]` -/
def ispCmdReadPartId : UInt8 := 74

/-- `CHECK_RAM_ADDR` -/
def checkRamAddr (x : UInt32) : Prop :=
  ramStartAddress ≤ x.toNat ∧ x.toNat ≤ ramEndAddress

/-- `CHECK_FLASH_ADDR` -/
def checkFlashAddr (x : UInt32) : Prop :=
  flashStartAddress ≤ x.toNat ∧ x.toNat ≤ flashEndAddress

instance : DecidablePred checkRamAddr :=
  fun _ => inferInstanceAs (Decidable (_ ∧ _))

instance : DecidablePred checkFlashAddr :=
  fun _ => inferInstanceAs (Decidable (_ ∧ _))

def baudrateSyncSendStr : Bytes := ascii "?"
def baudrateSyncRecvStr : Bytes := ascii "Synchronized"
def okStr : Bytes := ascii "OK"
def endcodeStr : Bytes := [13, 10]
def unlockCmdStr : Bytes := ascii "U 23130"
def disableEchoCmdStr : Bytes := ascii "A 0\r\n"
def cmdSuccessRespStr : Bytes := [48, 13, 10]

def ispMaxSizeWrite : Nat := 512
def ispWriteRamAddr : UInt32 := 0x10000300
def ispEraseWaitTimeoutUs : Nat := 120000
def ispUartRecvTimeoutUs : Nat := 500
def ispRecvBufSize : Nat := 1024

/-- The `%d` conversion of a `uint32_t`. -/
def formatD32 (value : UInt32) : Bytes :=
  formatD value.toBitVec.toInt

/-- A command line: the letter and its arguments, separated by blanks. -/
def commandLine (cmd : IspCmd) (arguments : List Bytes) : Bytes :=
  ispCmdList cmd :: (arguments.flatMap (32 :: ·) ++ endcodeStr)

/-- The other end of the UART, the bytes on the way from it, and the buffer
that receives them. -/
structure Isp (σ : Type) where
  target : σ
  incoming : Timeline
  ispRecvBuf : Bytes

variable {σ : Type}

/-- `memset(ispRecvBuf,0x0,sizeof(ispRecvBuf))` -/
def Isp.clearRecvBuf (isp : Isp σ) : Isp σ :=
  { isp with ispRecvBuf := List.replicate ispRecvBufSize 0 }

/-- `isp.puts` -/
def Isp.puts (peer : Peer σ) (text : Bytes) (isp : Isp σ) : Isp σ :=
  { isp with
    target := (peer.receive text isp.target).1
    incoming := isp.incoming ++ (peer.receive text isp.target).2 }

/-- The loop of `ISP_getResp`: the next byte is read when it comes before
`timeoutUs` idle polls have passed. -/
def ispGetRespLoop (timeoutUs : Nat) :
    Timeline → Nat → Bytes → Except Fault (Nat × Timeline × Bytes)
  | [], pStr, buf => .ok (pStr, [], buf)
  | (idle, byte) :: rest, pStr, buf =>
      if idle < timeoutUs then do
        let buf ← store buf pStr [byte]
        ispGetRespLoop timeoutUs rest (pStr + 1) buf
      else .ok (pStr, (idle - timeoutUs, byte) :: rest, buf)

def ispGetResp (timeoutUs : Nat) (isp : Isp σ) : Except Fault (Nat × Isp σ) := do
  let (pStr, incoming, buf) ←
    ispGetRespLoop timeoutUs isp.incoming 0 isp.ispRecvBuf
  .ok (pStr, { isp with incoming := incoming, ispRecvBuf := buf })

/-- What a command does after sending its line: wait for an answer, and look
for `expected` in it. -/
def ispAwait (timeoutUs : Nat) (expected : Bytes) (isp : Isp σ) :
    Except Fault (RetCode × Isp σ) := do
  let (count, isp) ← ispGetResp timeoutUs isp
  if count ≤ 0 then .ok (.respTimeout, isp)
  else
    let p ← strstr isp.ispRecvBuf 0 expected
    .ok (if p ≠ none then .success else .error, isp)

variable (peer : Peer σ)

/-- What the cases of `ISP_syncBaudRate` send. -/
def syncSend (status : SyncStatus) (isp : Isp σ) : Isp σ :=
  match status with
  | .setupSync => isp.puts peer baudrateSyncSendStr
  | .respSync => (isp.puts peer baudrateSyncRecvStr).puts peer endcodeStr
  | .sendFreq => isp.puts peer (ascii "0\r\n")
  | .exitSync => isp.puts peer [27]
  | _ => isp

/-- The status that they choose when something has been received. -/
def syncJudge (status : SyncStatus) (buf : Bytes) : Except Fault SyncStatus :=
  match status with
  | .setupSync => do
      let p ← strstr buf 0 baudrateSyncRecvStr
      if p ≠ none then .ok .respSync
      else
        let p ← strstr buf 0 baudrateSyncSendStr
        .ok (if p ≠ none then .exitSync else .syncError)
  | .respSync => do
      let p ← strstr buf 0 okStr
      .ok (if p ≠ none then .sendFreq else .syncError)
  | .sendFreq => do
      let p ← strstr buf 0 okStr
      .ok (if p ≠ none then .syncDone else .syncError)
  | .exitSync => do
      let first ← loadByte buf 0
      .ok (if first = 27 then .syncDone else .syncError)
  | status => .ok status

/-- One round of `ISP_syncBaudRate`: a case of its `switch` that does not
return. -/
def syncRound (status : SyncStatus) (isp : Isp σ) : Except Fault (SyncStatus × Isp σ) := do
  let (count, isp) ← ispGetResp ispUartRecvTimeoutUs (syncSend peer status isp.clearRecvBuf)
  if count ≤ 0 then .ok (.syncTimeout, isp)
  else
    let status ← syncJudge status isp.ispRecvBuf
    .ok (status, isp)

/-- The number of rounds that are left at most. -/
def syncRank : SyncStatus → Nat
  | .setupSync => 3
  | .respSync => 2
  | .sendFreq => 1
  | .exitSync => 1
  | _ => 0

theorem syncJudge_rank {status next : SyncStatus} {buf : Bytes}
    (unfinished : 0 < syncRank status) (judged : syncJudge status buf = .ok next) :
    syncRank next < syncRank status := by
  have chosen {α : Type} {result : Except Fault α} {choose : α → SyncStatus}
      (choices : ∀ found, syncRank (choose found) < syncRank status)
      (made : (do let found ← result; .ok (choose found)) = Except.ok next) :
      syncRank next < syncRank status := by
    cases result with
    | error fault => simp [bind, Except.bind] at made
    | ok found =>
        obtain rfl := Except.ok.inj made
        exact choices found
  cases status with
  | setupSync =>
      unfold syncJudge at judged
      cases search : strstr buf 0 baudrateSyncRecvStr with
      | error fault => simp [search, bind, Except.bind] at judged
      | ok found =>
          have second : (if found ≠ none then .ok .respSync
              else do
                let p ← strstr buf 0 baudrateSyncSendStr
                .ok (if p ≠ none then .exitSync else .syncError)) = Except.ok next := by
            rw [search] at judged
            exact judged
          split_ifs at second
          · obtain rfl := Except.ok.inj second
            decide
          · exact chosen (fun again => by split_ifs <;> decide) second
  | respSync => exact chosen (fun found => by split_ifs <;> decide) judged
  | sendFreq => exact chosen (fun found => by split_ifs <;> decide) judged
  | exitSync => exact chosen (fun first => by split_ifs <;> decide) judged
  | syncDone => exact absurd unfinished (Nat.lt_irrefl 0)
  | syncTimeout => exact absurd unfinished (Nat.lt_irrefl 0)
  | syncError => exact absurd unfinished (Nat.lt_irrefl 0)

/-- No round comes back to an earlier status. -/
theorem syncRound_rank {status next : SyncStatus} {isp after : Isp σ}
    (unfinished : 0 < syncRank status)
    (round : syncRound peer status isp = .ok (next, after)) :
    syncRank next < syncRank status := by
  unfold syncRound at round
  cases hears : ispGetResp ispUartRecvTimeoutUs (syncSend peer status isp.clearRecvBuf) with
  | error fault => simp [hears, bind, Except.bind] at round
  | ok heard =>
      simp only [hears, bind, Except.bind] at round
      split_ifs at round
      · obtain ⟨rfl, -⟩ := Prod.mk.inj (Except.ok.inj round)
        exact unfinished
      · cases judged : syncJudge status heard.2.ispRecvBuf with
        | error fault => simp [judged] at round
        | ok chosen =>
            simp only [judged] at round
            obtain ⟨rfl, -⟩ := Prod.mk.inj (Except.ok.inj round)
            exact syncJudge_rank unfinished judged

/-- The loop of `ISP_syncBaudRate`. -/
def syncLoop (status : SyncStatus) (isp : Isp σ) : Except Fault (RetCode × Isp σ) :=
  if _ : 0 < syncRank status then
    match _ : syncRound peer status isp with
    | .error fault => .error fault
    | .ok (next, isp) => syncLoop next isp
  else
    match status with
    | .syncTimeout => .ok (.respTimeout, isp)
    | .syncError => .ok (.error, isp)
    | _ => .ok (.success, isp)
termination_by syncRank status
decreasing_by exact syncRound_rank peer ‹_› ‹_›

def ispSyncBaudRate (isp : Isp σ) : Except Fault (RetCode × Isp σ) :=
  syncLoop peer .setupSync isp

/-- The loop of `ISP_getPartID`, where `text` is what `p` points at. -/
def partIdLoop : Bytes → Nat → Bytes → Except Fault (Nat × Bytes)
  | [], _, _ => .error .outOfBounds
  | byte :: text, i, partId =>
      if byte ≠ 13 ∨ 10 < i then do
        let partId ← store partId i [byte]
        partIdLoop text (i + 1) partId
      else .ok (i, partId)

/-- `ISP_getPartID`, with the buffer as it leaves it. -/
def ispGetPartID (partId : Bytes) (isp : Isp σ) :
    Except Fault (RetCode × Bytes × Isp σ) := do
  let (count, isp) ← ispGetResp ispUartRecvTimeoutUs
    ((isp.clearRecvBuf.puts peer [ispCmdReadPartId]).puts peer endcodeStr)
  if count ≤ 0 then .ok (.respTimeout, partId, isp)
  else
    match ← strstr isp.ispRecvBuf 0 cmdSuccessRespStr with
    | none => .ok (.error, partId, isp)
    | some p => do
        let (i, partId) ← partIdLoop (isp.ispRecvBuf.drop (p + 3)) 0 partId
        .ok (if 10 < i then .error else .success, partId, isp)

def ispUnlock (isp : Isp σ) : Except Fault (RetCode × Isp σ) :=
  ispAwait ispUartRecvTimeoutUs cmdSuccessRespStr
    ((isp.clearRecvBuf.puts peer unlockCmdStr).puts peer endcodeStr)

/-- `ISP_disableEcho`, the one command that does not clear the buffer first. -/
def ispDisableEcho (isp : Isp σ) : Except Fault (RetCode × Isp σ) :=
  ispAwait ispUartRecvTimeoutUs cmdSuccessRespStr (isp.puts peer disableEchoCmdStr)

/-- The command on a range of sectors that `ISP_prepareSectors` and
`ISP_eraseSectors` send. -/
def ispSectors (cmd : IspCmd) (timeoutUs : Nat) (start last : UInt8)
    (isp : Isp σ) : Except Fault (RetCode × Isp σ) :=
  if last < start ∨ sectorNum - 1 < last.toNat then .ok (.paramIllegal, isp)
  else do
    let line ← sprintf 12
      (commandLine cmd [formatD start.toNat, formatD last.toNat])
    ispAwait timeoutUs cmdSuccessRespStr (isp.clearRecvBuf.puts peer line)

def ispPrepareSectors (start last : UInt8) (isp : Isp σ) :
    Except Fault (RetCode × Isp σ) :=
  ispSectors peer .prepareSectors ispUartRecvTimeoutUs start last isp

def ispEraseSectors (start last : UInt8) (isp : Isp σ) :
    Except Fault (RetCode × Isp σ) :=
  ispSectors peer .eraseSectors ispEraseWaitTimeoutUs start last isp

def ispErase (start last : UInt8) (isp : Isp σ) :
    Except Fault (RetCode × Isp σ) := do
  let (ret, isp) ← ispPrepareSectors peer start last isp
  if ret ≠ .success then .ok (ret, isp)
  else ispEraseSectors peer start last isp

/-- The sum of the first `size` bytes. -/
def sumBytes (data : Bytes) (size : Nat) : Except Fault Nat :=
  if size ≤ data.length then .ok (byteSum (data.take size))
  else .error .outOfBounds

/-- The loop of `ISP_WriteToRAM` that sends the encoded data, from line `i` of
`num` on. -/
def ispSendLines (data : Bytes) (num extra : Nat) :
    Nat → Nat → Bytes → Isp σ → Except Fault (Isp σ)
  | 0, _, _, isp => .ok isp
  | remaining + 1, i, encode, isp => do
      let (_, encode) ← uuEncodeLine data (45 * i) encode
        (if i < num - 1 then 45 else extra.toUInt8)
      let line ← cString encode
      ispSendLines data num extra remaining (i + 1) encode (isp.puts peer line)

/-- `ISP_WriteToRAM`, where `malloc` answers a request of so many bytes with
the block that is handed out. -/
def ispWriteToRAM (malloc : Nat → Option Bytes) (startAddr size : UInt32)
    (data : Bytes) (isp : Isp σ) : Except Fault (RetCode × Isp σ) :=
  if checkRamAddr startAddr ∧ startAddr.toNat % 32 = 0 ∧ size.toNat % 4 = 0 ∧
      0 < size.toNat ∧ size.toNat ≤ ispMaxSizeWrite then do
    let cmdStr ← sprintf 32
      (commandLine .writeToRam [formatD32 startAddr, formatD32 size])
    let (ret, isp) ← ispAwait ispUartRecvTimeoutUs cmdSuccessRespStr
      (isp.clearRecvBuf.puts peer cmdStr)
    if ret ≠ .success then .ok (ret, isp)
    else
      let extra := size.toNat % 45
      let num := size.toNat / 45 + (if extra = 0 then 0 else 1)
      match malloc 64 with
      | none => .ok (.memOverflow, isp)
      | some encode => do
          let isp ← ispSendLines peer data num extra num 0 encode isp
          let checksum ← sumBytes data size.toNat
          let checksumStr ← sprintf 12 (formatD checksum ++ endcodeStr)
          ispAwait 1000 okStr (isp.clearRecvBuf.puts peer checksumStr)
  else .ok (.paramIllegal, isp)

def ispCopyToFlash (dst src : UInt32) (size : UInt16) (isp : Isp σ) :
    Except Fault (RetCode × Isp σ) :=
  if checkFlashAddr dst ∧ checkRamAddr src ∧ dst.toNat % 256 = 0 ∧
      (size = 256 ∨ size = 512 ∨ size = 1024 ∨ size = 4096) then do
    let (ret, isp) ← ispPrepareSectors peer 0 (sectorNum - 1).toUInt8 isp
    if ret = .success then do
      let cmdStr ← sprintf 36 (commandLine .copyRamToFlash
        [formatD32 dst, formatD32 src, formatD size.toNat])
      ispAwait 10000 cmdSuccessRespStr (isp.clearRecvBuf.puts peer cmdStr)
    else .ok (ret, isp)
  else .ok (.paramIllegal, isp)

/-- The loop of `ISP_readMemory` that decodes the received lines, from line `i`
on. -/
def ispDecodeLines (buf : Bytes) (p : Nat) :
    Nat → Nat → Bytes → Except Fault Bytes
  | 0, _, data => .ok data
  | remaining + 1, i, data => do
      let data ← uuDecodeLine buf (p + 63 * i) data (45 * i)
      ispDecodeLines buf p remaining (i + 1) data

/-- `ISP_readMemory`, with the buffer as it leaves it. -/
def ispReadMemory (addr size : UInt32) (data : Bytes) (isp : Isp σ) :
    Except Fault (RetCode × Bytes × Isp σ) :=
  if (checkFlashAddr addr ∨ checkRamAddr addr) ∧ size.toNat % 4 = 0 ∧
      0 < size.toNat ∧ size.toNat ≤ flashSize ∧ size.toNat ≤ ramSize then do
    let cmdStr ← sprintf 36
      (commandLine .readMemory [formatD32 addr, formatD32 size])
    let (count, isp) ← ispGetResp ispUartRecvTimeoutUs
      (isp.clearRecvBuf.puts peer cmdStr)
    if count ≤ 0 then .ok (.respTimeout, data, isp)
    else
      match ← strstr isp.ispRecvBuf 0 cmdSuccessRespStr with
      | none => .ok (.error, data, isp)
      | some p => do
          let uuLineNum := size.toNat / 45 + (if size.toNat % 45 ≠ 0 then 1 else 0)
          let data ← ispDecodeLines isp.ispRecvBuf (p + 3) uuLineNum 0 data
          let checksum ← sumBytes data size.toNat
          match ← strstr isp.ispRecvBuf (p + 3 + 63 * (uuLineNum - 1)) endcodeStr with
          | none => .error .nullPointer
          | some q => do
              let checksumGet ← atoi (isp.ispRecvBuf.drop (q + 2))
              if (checksum : Int) = checksumGet then
                .ok (.success, data,
                  (isp.puts peer okStr).puts peer endcodeStr)
              else .ok (.error, data, isp)
  else .ok (.paramIllegal, data, isp)

end OnlineProgram
