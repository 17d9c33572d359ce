import OnlineProgram.ReceiveBuffer
import OnlineProgram.UidOverImage

/-!
# Synchronising with a board

`ISP_syncBaudRate` against the ROM of a board and against an empty fixture.  A
board that has been reset waits for a question mark and agrees on a baud rate, a
board that has agreed echoes the question mark as the beginning of a command,
which an escape takes back.
-/

namespace OnlineProgram

open ByteStrings CMemory SerialLink

/-- The escape that takes back the beginning of a command. -/
def escapeStr : Bytes := [27]

/-- The clock that `ISP_syncBaudRate` tells the board. -/
def freqStr : Bytes := ascii "0\r\n"

/-- A conforming target that can be reset.  Until it has been greeted it
answers nothing. -/
structure Synchronizing {σ : Type} (peer : Peer σ) extends Conforming peer where
  waiting : σ → Prop
  greets : ∀ state, waiting state → ∃ heard agreed final,
    peer.Replies baudrateSyncSendStr ispUartRecvTimeoutUs (baudrateSyncRecvStr ++ endcodeStr)
      state heard ∧
    peer.Replies (baudrateSyncRecvStr ++ endcodeStr) ispUartRecvTimeoutUs
      (baudrateSyncRecvStr ++ endcodeStr ++ okLine) heard agreed ∧
    peer.Replies freqStr ispUartRecvTimeoutUs (freqStr ++ okLine) agreed final ∧
    idle final ∧ memory final = memory state
  cancels : ∀ state, idle state → ∃ heard final,
    peer.Replies baudrateSyncSendStr ispUartRecvTimeoutUs baudrateSyncSendStr state heard ∧
    peer.Replies escapeStr ispUartRecvTimeoutUs escapeStr heard final ∧
    idle final ∧ memory final = memory state
  deaf : ∀ state text, waiting state → 63 ∉ text → ∃ final,
    peer.receive text state = (final, []) ∧ waiting final ∧ memory final = memory state

section Rounds

variable {σ : Type} {peer : Peer σ}

/-- What a round sends. -/
def syncLine : SyncStatus → Bytes
  | .setupSync => baudrateSyncSendStr
  | .respSync => baudrateSyncRecvStr ++ endcodeStr
  | .sendFreq => freqStr
  | .exitSync => escapeStr
  | _ => []

theorem syncSend_eq {status : SyncStatus} (unfinished : 0 < syncRank status) (isp : Isp σ) :
    syncSend peer status isp = isp.puts peer (syncLine status) := by
  cases status with
  | setupSync => rfl
  | respSync => exact puts_puts _ _ _
  | sendFreq => rfl
  | exitSync => rfl
  | syncDone => exact absurd unfinished (Nat.lt_irrefl 0)
  | syncTimeout => exact absurd unfinished (Nat.lt_irrefl 0)
  | syncError => exact absurd unfinished (Nat.lt_irrefl 0)

/-- A round in which the board answers in time. -/
theorem syncLoop_of_replies {status next : SyncStatus} {reply : Bytes} {state final : σ}
    (buffer : Bytes) (unfinished : 0 < syncRank status)
    (judged : syncJudge status (received reply) = .ok next)
    (replies : peer.Replies (syncLine status) ispUartRecvTimeoutUs reply state final)
    (answered : 0 < reply.length) (fits : reply.length ≤ ispRecvBufSize) :
    syncLoop peer status { target := state, incoming := [], ispRecvBuf := buffer } =
      syncLoop peer next { target := final, incoming := [], ispRecvBuf := received reply } := by
  have round : syncRound peer status { target := state, incoming := [], ispRecvBuf := buffer } =
      .ok (next, { target := final, incoming := [], ispRecvBuf := received reply }) := by
    rw [syncRound, syncSend_eq unfinished, ispGetResp_of_replies rfl replies fits]
    simp only [bind, Except.bind]
    rw [if_neg (Nat.not_le.mpr answered), judged]
  rw [syncLoop_unfinished unfinished, round]
  rfl

/-- A round in which nobody answers. -/
theorem syncLoop_of_silence {status : SyncStatus} {isp : Isp σ} {final : σ}
    (unfinished : 0 < syncRank status) (quiet : isp.incoming = [])
    (silent : peer.receive (syncLine status) isp.target = (final, [])) :
    syncLoop peer status isp =
      .ok (.respTimeout, { target := final, incoming := [], ispRecvBuf := received [] }) := by
  have replies : peer.Replies (syncLine status) ispUartRecvTimeoutUs [] isp.target final :=
    ⟨[], silent, rfl, by simp⟩
  have round : syncRound peer status isp =
      .ok (.syncTimeout, { target := final, incoming := [], ispRecvBuf := received [] }) := by
    rw [syncRound, syncSend_eq unfinished, ispGetResp_of_replies quiet replies (Nat.zero_le _)]
    rfl
  rw [syncLoop_unfinished unfinished, round]
  change syncLoop peer .syncTimeout _ = _
  rw [syncLoop, dif_neg (by decide)]

theorem syncJudge_greeted :
    syncJudge .setupSync (received (baudrateSyncRecvStr ++ endcodeStr)) = .ok .respSync := by
  decide +kernel

theorem syncJudge_agreed :
    syncJudge .respSync (received (baudrateSyncRecvStr ++ endcodeStr ++ okLine)) =
      .ok .sendFreq := by
  decide +kernel

theorem syncJudge_told : syncJudge .sendFreq (received (freqStr ++ okLine)) = .ok .syncDone := by
  decide +kernel

theorem syncJudge_echoed :
    syncJudge .setupSync (received baudrateSyncSendStr) = .ok .exitSync := by
  decide +kernel

theorem syncJudge_cancelled : syncJudge .exitSync (received escapeStr) = .ok .syncDone := by
  decide +kernel

end Rounds

section Boards

variable {σ : Type} {peer : Peer σ} (board : Synchronizing peer)

/-- A board that has been reset, or one that waits for a command. -/
def Synchronizing.Present (state : σ) : Prop :=
  board.waiting state ∨ board.idle state

variable {board}

/-- A board that has been reset is greeted in three rounds. -/
theorem ispSyncBaudRate_greets {isp : Isp σ} (waits : board.waiting isp.target)
    (quiet : isp.incoming = []) :
    ∃ final, ispSyncBaudRate peer isp = .ok (.success, final) ∧ board.idle final.target ∧
      final.incoming = [] ∧ board.memory final.target = board.memory isp.target := by
  obtain ⟨state, incoming, buffer⟩ := isp
  obtain rfl : incoming = [] := quiet
  obtain ⟨heard, agreed, last, greeted, answered, told, idle, memory⟩ := board.greets state waits
  refine ⟨{ target := last, incoming := [], ispRecvBuf := received (freqStr ++ okLine) }, ?_,
    idle, rfl, memory⟩
  rw [ispSyncBaudRate,
    syncLoop_of_replies _ (by decide) syncJudge_greeted greeted (by decide) (by decide),
    syncLoop_of_replies _ (by decide) syncJudge_agreed answered (by decide) (by decide),
    syncLoop_of_replies _ (by decide) syncJudge_told told (by decide) (by decide),
    syncLoop, dif_neg (by decide)]

/-- A board that waits for a command is found by its echo. -/
theorem ispSyncBaudRate_cancels {isp : Isp σ} (idle : board.idle isp.target)
    (quiet : isp.incoming = []) :
    ∃ final, ispSyncBaudRate peer isp = .ok (.success, final) ∧ board.idle final.target ∧
      final.incoming = [] ∧ board.memory final.target = board.memory isp.target := by
  obtain ⟨state, incoming, buffer⟩ := isp
  obtain rfl : incoming = [] := quiet
  obtain ⟨heard, last, echoed, cancelled, stillIdle, memory⟩ := board.cancels state idle
  refine ⟨{ target := last, incoming := [], ispRecvBuf := received escapeStr }, ?_, stillIdle,
    rfl, memory⟩
  rw [ispSyncBaudRate,
    syncLoop_of_replies _ (by decide) syncJudge_echoed echoed (by decide) (by decide),
    syncLoop_of_replies _ (by decide) syncJudge_cancelled cancelled (by decide) (by decide),
    syncLoop, dif_neg (by decide)]

/-- Either way the board ends up waiting for a command. -/
theorem ispSyncBaudRate_connects {isp : Isp σ} (present : board.Present isp.target)
    (quiet : isp.incoming = []) :
    ∃ final, ispSyncBaudRate peer isp = .ok (.success, final) ∧ board.idle final.target ∧
      final.incoming = [] ∧ board.memory final.target = board.memory isp.target := by
  rcases present with waits | idle
  · exact ispSyncBaudRate_greets waits quiet
  · exact ispSyncBaudRate_cancels idle quiet

end Boards

/-! ### The fixture -/

section Fixture

variable {σ : Type} (peer : Peer σ)

/-- A fixture with a board in it or without one. -/
def fixturePeer : Peer (Option σ) where
  accept byte slot :=
    match slot with
    | none => (none, [])
    | some state => ((peer.accept byte state).1, (peer.accept byte state).2)

variable {peer}

theorem fixturePeer_receive_none (text : Bytes) :
    (fixturePeer peer).receive text none = (none, []) := by
  induction text with
  | nil => rfl
  | cons byte text ih =>
      change (((fixturePeer peer).receive text none).1,
        [] ++ ((fixturePeer peer).receive text none).2) = _
      rw [ih]
      rfl

theorem fixturePeer_receive_some (text : Bytes) (state : σ) :
    (fixturePeer peer).receive text (some state) =
      (some (peer.receive text state).1, (peer.receive text state).2) := by
  induction text generalizing state with
  | nil => rfl
  | cons byte text ih =>
      change (((fixturePeer peer).receive text (some (peer.accept byte state).1)).1,
        (peer.accept byte state).2 ++
          ((fixturePeer peer).receive text (some (peer.accept byte state).1)).2) = _
      rw [ih]
      rfl

theorem fixturePeer_replies {line reply : Bytes} {timeout : Nat} {state final : σ}
    (replies : peer.Replies line timeout reply state final) :
    (fixturePeer peer).Replies line timeout reply (some state) (some final) := by
  obtain ⟨timeline, receives, isReply, inTime⟩ := replies
  exact ⟨timeline, by rw [fixturePeer_receive_some, receives], isReply, inTime⟩

/-- Memory that no board has. -/
def ChipMemory.absent : ChipMemory :=
  { flash := fun _ => 0, ram := fun _ => 0 }

/-- There is a board in the fixture, and it has a property. -/
def Holding (property : σ → Prop) : Option σ → Prop
  | none => False
  | some state => property state

/-- The promises of a board hold of the fixture that it is in. -/
def Synchronizing.inFixture (board : Synchronizing peer) : Synchronizing (fixturePeer peer) where
  echo := board.echo
  idle := Holding board.idle
  unlocked := Holding board.unlocked
  prepared slot sector := Holding (board.prepared · sector) slot
  memory slot := (slot.map board.memory).getD ChipMemory.absent
  unlock := by
    rintro (_ | state) idle
    · exact idle.elim
    obtain ⟨final, replies, held⟩ := board.unlock state idle
    exact ⟨some final, fixturePeer_replies replies, held⟩
  prepare := by
    rintro (_ | state) first last idle unlocked ordered inRange
    · exact idle.elim
    obtain ⟨final, replies, held⟩ := board.prepare state first last idle unlocked ordered inRange
    exact ⟨some final, fixturePeer_replies replies, held⟩
  erase := by
    rintro (_ | state) first last idle unlocked ordered inRange prepared
    · exact idle.elim
    obtain ⟨final, replies, held⟩ :=
      board.erase state first last idle unlocked ordered inRange prepared
    exact ⟨some final, fixturePeer_replies replies, held⟩
  write := by
    rintro (_ | state) start size idle unlocked inRam aligned words positive
    · exact idle.elim
    obtain ⟨waiting, replies, writes⟩ :=
      board.write state start size idle unlocked inRam aligned words positive
    refine ⟨some waiting, fixturePeer_replies replies, fun data lines isText length few => ?_⟩
    obtain ⟨final, acknowledged, held⟩ := writes data lines isText length few
    exact ⟨some final, fixturePeer_replies acknowledged, held⟩
  copy := by
    rintro (_ | state) dst src size idle unlocked inFlash inRam dstAligned srcAligned sizes
      prepared erased
    · exact idle.elim
    obtain ⟨final, replies, held⟩ := board.copy state dst src size idle unlocked inFlash inRam
      dstAligned srcAligned sizes prepared erased
    exact ⟨some final, fixturePeer_replies replies, held⟩
  read := by
    rintro (_ | state) address size idle unlocked mapped aligned words positive short
    · exact idle.elim
    obtain ⟨lines, waiting, final, isText, replies, acknowledged, held⟩ :=
      board.read state address size idle unlocked mapped aligned words positive short
    exact ⟨lines, some waiting, some final, isText, fixturePeer_replies replies,
      fixturePeer_replies acknowledged, held⟩
  waiting := Holding board.waiting
  greets := by
    rintro (_ | state) waits
    · exact waits.elim
    obtain ⟨heard, agreed, final, greeted, answered, told, held⟩ := board.greets state waits
    exact ⟨some heard, some agreed, some final, fixturePeer_replies greeted,
      fixturePeer_replies answered, fixturePeer_replies told, held⟩
  cancels := by
    rintro (_ | state) idle
    · exact idle.elim
    obtain ⟨heard, final, echoed, cancelled, held⟩ := board.cancels state idle
    exact ⟨some heard, some final, fixturePeer_replies echoed, fixturePeer_replies cancelled,
      held⟩
  deaf := by
    rintro (_ | state) text waits plain
    · exact waits.elim
    obtain ⟨final, silent, held⟩ := board.deaf state text waits plain
    exact ⟨some final, by rw [fixturePeer_receive_some, silent], held⟩

/-! ### Nobody listens -/

/-- No board, or one that has not been greeted. -/
def Synchronizing.Unready (board : Synchronizing peer) : Option σ → Prop
  | none => True
  | some state => board.waiting state

variable {board : Synchronizing peer}

/-- What stands in the flash of the board in the fixture. -/
def Synchronizing.flash (board : Synchronizing peer) (slot : Option σ) : Option (Nat → UInt8) :=
  slot.map fun state => (board.memory state).flash

/-- A text without a question mark is not answered. -/
theorem unready_receive {slot : Option σ} (unready : board.Unready slot) {text : Bytes}
    (plain : 63 ∉ text) :
    ∃ final, (fixturePeer peer).receive text slot = (final, []) ∧ board.Unready final ∧
      board.flash final = board.flash slot := by
  cases slot with
  | none => exact ⟨none, fixturePeer_receive_none text, trivial, rfl⟩
  | some state =>
      obtain ⟨final, silent, waits, memory⟩ := board.deaf state text unready plain
      refine ⟨some final, by rw [fixturePeer_receive_some, silent], waits, ?_⟩
      simp only [Synchronizing.flash, Option.map_some, memory]

/-- What waits for a command would have answered. -/
theorem Synchronizing.not_awake_of_unready {slot : Option σ} (unready : board.Unready slot) :
    ¬ Holding board.idle slot := by
  intro awake
  obtain ⟨final, ⟨timeline, receives, isReply, -⟩, -⟩ := board.inFixture.unlock slot awake
  obtain ⟨other, silent, -⟩ := unready_receive unready
    (by decide : (63 : UInt8) ∉ requestLine 'U' [23130])
  obtain rfl : timeline = [] := congrArg Prod.snd (receives.symm.trans silent)
  have lengths := congrArg List.length isReply
  rw [List.length_append] at lengths
  change 0 = _ + 3 at lengths
  omega

/-- The state of the line when nobody has answered. -/
structure Synchronizing.Deaf (board : Synchronizing peer) (before after : Isp (Option σ)) :
    Prop where
  unready : board.Unready after.target
  quiet : after.incoming = []
  flash : board.flash after.target = board.flash before.target

theorem Synchronizing.Deaf.trans {first second third : Isp (Option σ)}
    (one : board.Deaf first second) (other : board.Deaf second third) : board.Deaf first third where
  unready := other.unready
  quiet := other.quiet
  flash := other.flash.trans one.flash

theorem ispAwait_deaf {isp : Isp (Option σ)} (unready : board.Unready isp.target)
    (quiet : isp.incoming = []) (timeoutUs : Nat) (expected : Bytes) {line : Bytes}
    (plain : 63 ∉ line) :
    ∃ final, ispAwait timeoutUs expected (isp.clearRecvBuf.puts (fixturePeer peer) line) =
        .ok (.respTimeout, final) ∧ board.Deaf isp final := by
  obtain ⟨slot, silent, stillUnready, flash⟩ := unready_receive unready plain
  have replies : (fixturePeer peer).Replies line timeoutUs [] isp.target slot :=
    ⟨[], silent, rfl, by simp⟩
  refine ⟨{ target := slot, incoming := [], ispRecvBuf := received [] }, ?_,
    stillUnready, rfl, flash⟩
  rw [ispAwait, ispGetResp_of_replies quiet replies (Nat.zero_le _)]
  rfl

theorem ispUnlock_deaf {isp : Isp (Option σ)} (unready : board.Unready isp.target)
    (quiet : isp.incoming = []) :
    ∃ final, ispUnlock (fixturePeer peer) isp = .ok (.respTimeout, final) ∧
      board.Deaf isp final := by
  rw [ispUnlock, puts_puts]
  exact ispAwait_deaf unready quiet _ _ (by decide)

/-- A byte that is no letter, digit or separator is in no command line. -/
theorem not_mem_requestLine (letter : Char) {byte : UInt8} (arguments : List Nat)
    (other : byte ≠ letter.toNat.toUInt8) (mark : byte ∉ [32, 13, 10])
    (noDigit : ¬ (48 ≤ byte ∧ byte ≤ 57)) : byte ∉ requestLine letter arguments := by
  intro member
  simp only [requestLine, List.mem_cons, List.mem_append, List.mem_flatMap,
    List.not_mem_nil, or_false, not_or] at member mark
  rcases member with isLetter | ⟨argument, -, isBlank | isDigit⟩ | isReturn | isFeed
  · exact other isLetter
  · exact mark.1 isBlank
  · exact noDigit (decimal_isDigit isDigit)
  · exact mark.2.1 isReturn
  · exact mark.2.2 isFeed

theorem ispErase_deaf {isp : Isp (Option σ)} (unready : board.Unready isp.target)
    (quiet : isp.incoming = []) (start last : UInt8) (ordered : start.toNat ≤ last.toNat)
    (inRange : last.toNat < sectorNum) :
    ∃ final, ispErase (fixturePeer peer) start last isp = .ok (.respTimeout, final) ∧
      board.Deaf isp final := by
  have legal : ¬ (last < start ∨ sectorNum - 1 < last.toNat) := by
    rw [UInt8.lt_iff_toNat_lt]
    unfold sectorNum at inRange ⊢
    omega
  have letter : ispCmdList .prepareSectors = 'P'.toNat.toUInt8 := rfl
  obtain ⟨final, awaits, deaf⟩ := ispAwait_deaf unready quiet ispUartRecvTimeoutUs
    cmdSuccessRespStr (not_mem_requestLine 'P' [start.toNat, last.toNat]
      (by decide) (by decide) (by decide))
  refine ⟨final, ?_, deaf⟩
  unfold ispErase ispPrepareSectors ispSectors
  rw [if_neg legal, sectorsLine_eq letter ordered inRange]
  simp only [bind, Except.bind]
  rw [awaits]
  rfl

/-- Without a board that listens a file is not programmed. -/
theorem programBinFileV1_deaf {isp : Isp (Option σ)} (unready : board.Unready isp.target)
    (quiet : isp.incoming = []) (malloc : Nat → Option Bytes) (after : UInt8)
    (fopen : Bytes → Option BinFile) (path : Option Bytes) :
    ∃ ret final, programBinFileV1 (fixturePeer peer) malloc after fopen path isp =
        .ok (ret, final) ∧ ret < 0 ∧ board.Deaf isp final := by
  by_cases accepted : ∃ file, path.bind fopen = some file ∧ file.Accepted
  · obtain ⟨file, opens, accepted⟩ := accepted
    obtain ⟨name, rfl, opens⟩ := Option.bind_eq_some_iff.mp opens
    obtain ⟨unlocked, unlocks, deaf⟩ := ispUnlock_deaf unready quiet
    obtain ⟨erased, erases, deafAgain⟩ := ispErase_deaf deaf.unready deaf.quiet 0
      (sectorNum - 1).toUInt8 (by decide) (by decide)
    refine ⟨-4, erased, ?_, by decide, deaf.trans deafAgain⟩
    rw [programBinFileV1_eq_copyPhase _ malloc after opens accepted isp]
    unfold copyPhase
    rw [unlocks]
    simp only [bind, Except.bind]
    rw [erases]
    rfl
  · have refused : ∀ file, path.bind fopen = some file → ¬ file.Accepted :=
      fun file opens isAccepted => accepted ⟨file, opens, isAccepted⟩
    obtain ⟨ret, runs, negative⟩ :=
      programBinFileV1_of_refused (fixturePeer peer) malloc after isp refused
    exact ⟨ret, isp, runs, negative, unready, quiet, rfl⟩

/-- Nor is a UID. -/
theorem programUid_deaf {isp : Isp (Option σ)} (unready : board.Unready isp.target)
    (quiet : isp.incoming = []) (malloc : Nat → Option Bytes) (behind : Bytes) {uid : Bytes}
    {size : UInt8} (request : UidRequest uidProgramAddress uid size) :
    ∃ final, programUid (fixturePeer peer) malloc behind uidProgramAddress (some uid) size isp =
        .ok (-3, final) ∧ board.Deaf isp final := by
  have sizeSmall := size.toNat_lt
  have place : uidProgramAddress.toNat = 61440 := rfl
  have inside : uidProgramAddress.toNat + size.toNat ≤ flashEndAddress := by
    unfold flashEndAddress flashStartAddress flashSize sectorNum sectorSize
    omega
  obtain ⟨unlocked, unlocks, deaf⟩ := ispUnlock_deaf unready quiet
  obtain ⟨erased, erases, deafAgain⟩ := ispErase_deaf deaf.unready deaf.quiet
    (uidProgramAddress.toNat / sectorSize).toUInt8 (uidProgramAddress.toNat / sectorSize).toUInt8
    (Nat.le_refl _) (by decide)
  refine ⟨erased, ?_, deaf.trans deafAgain⟩
  rw [programUid_of_inside request inside, if_pos (by omega)]
  unfold programUidBlock
  rw [unlocks]
  simp only [bind, Except.bind]
  rw [erases]
  rfl

/-- A question mark finds no board in an empty fixture. -/
theorem ispSyncBaudRate_empty {isp : Isp (Option σ)} (empty : isp.target = none)
    (quiet : isp.incoming = []) :
    ∃ final, ispSyncBaudRate (fixturePeer peer) isp = .ok (.respTimeout, final) ∧
      final.target = none ∧ final.incoming = [] := by
  obtain ⟨slot, incoming, buffer⟩ := isp
  obtain rfl : slot = none := empty
  obtain rfl : incoming = [] := quiet
  exact ⟨_, syncLoop_of_silence (by decide) rfl (fixturePeer_receive_none _), rfl, rfl⟩

end Fixture

end OnlineProgram
