import OnlineProgram.BoardSync
import OnlineProgram.DetectedFile
import OnlineProgram.EventHistory
import OnlineProgram.FaultingRuns
import OnlineProgram.StageEffects

/-!
# The programming station

The main thread, the card, the UART and the board in the fixture as one system.
The stages of the loop that look at the card and that talk to the board get
their results from the functions that they call, and between any two stages an
operator may press the buttons, change the card or change the board.  The status
that the device shows is compared with what the board holds.
-/

namespace OnlineProgram

open ByteStrings CMemory SerialLink EventHistory

/-- `RET_CODE_T` -/
def RetCode.value : RetCode → Int
  | .success => 0
  | .error => -1
  | .respTimeout => -2
  | .paramIllegal => -3
  | .memOverflow => -4
  | .writeFail => -5

/-- The file system of the card. -/
structure Card where
  opendir : Bytes → Option (List DirEntry)
  fopen : Bytes → Option BinFile

def binFileType : Bytes := ascii ".bin"

/-- `opened` is what `binFilePath` named when a file was programmed last, and
`replaced` that the board has been changed since a programming; no function of
the program reads them. -/
structure Station (σ : Type) where
  device : Device
  isp : Isp (Option σ)
  card : Card
  binFilePath : CArray filePathSize
  opened : Option BinFile
  replaced : Bool

inductive StationAction (σ : Type) where
  | device (action : Action)
  | changeBoard (slot : Option σ)
  | changeCard (card : Card)

/-- The next stage calls a programming routine. -/
def Device.Programs (device : Device) : Prop :=
  device.stage = .statusUpdate ∧ device.StatusGuard ∧ device.devStatus = .programing

instance (device : Device) : Decidable device.Programs :=
  inferInstanceAs (Decidable (_ ∧ _))

/-- The next stage looks for a file. -/
def Device.Detects (device : Device) : Prop :=
  device.stage = .binDetection ∧ device.deviceMode = .programCode

instance (device : Device) : Decidable device.Detects :=
  inferInstanceAs (Decidable (_ ∧ _))

namespace Station

variable {σ : Type} (peer : Peer σ) (malloc : Nat → Option Bytes) (after : UInt8)
  (behind : Bytes)

/-- The calls in the case `DEV_STATUS_PROGRAMING` of `updateDeviceStatus`. -/
def program (station : Station σ) : Except Fault (Int × Isp (Option σ)) :=
  if station.device.deviceMode = .programCode then do
    let path ← cString station.binFilePath.bytes
    programBinFileV1 (fixturePeer peer) malloc after station.card.fopen (some path) station.isp
  else
    programUid (fixturePeer peer) malloc behind uidProgramAddress (some station.device.uid)
      station.device.uid.length.toUInt8 station.isp

/-- The file that `binFilePath` names. -/
def openedFile (station : Station σ) : Option BinFile :=
  match cString station.binFilePath.bytes with
  | .ok path => station.card.fopen path
  | .error _ => none

/-- One stage of the main thread. -/
def mainStage (io : MainIO) (station : Station σ) : Except Fault (Station σ) :=
  if station.device.Detects then do
    let (ret, path) ← detectFile station.card.opendir (some sdRootDirectory) (some binFileType)
      (some station.binFilePath)
    .ok { station with
      device := station.device.mainStage { io with detectFile := ret }
      binFilePath := path.getD station.binFilePath }
  else if station.device.stage = .boardDetection then do
    let (ret, isp) ← ispSyncBaudRate (fixturePeer peer) station.isp
    .ok { station with
      device := station.device.mainStage { io with detectConnectStatus := ret.value }
      isp }
  else if station.device.Programs then do
    let (ret, isp) ← station.program peer malloc after behind
    .ok { station with
      device := station.device.mainStage { io with programRet := ret }
      isp
      opened := station.openedFile
      replaced := false }
  else .ok { station with device := station.device.mainStage io }

def step (action : StationAction σ) (station : Station σ) : Except Fault (Station σ) :=
  match action with
  | .device (.main io) => station.mainStage peer malloc after behind io
  | .device (.press button) => .ok { station with device := button.release station.device }
  | .device .tick => .ok { station with device := station.device.sysTick }
  | .changeBoard slot =>
      .ok { station with isp := { station.isp with target := slot }, replaced := true }
  | .changeCard card => .ok { station with card }

def run (actions : List (StationAction σ)) (station : Station σ) : Except Fault (Station σ) :=
  FaultingRuns.run (step peer malloc after behind) actions station

end Station

/-- The UID that `programUID` was called with last. -/
def calledUid (log : List Event) : Option Bytes :=
  latest (fun event => match event with
    | .programUIDCalled id _ => some id
    | _ => none) log

/-- What is in flash after a program has been stored. -/
def HoldsFile (file : Option BinFile) (flash : Nat → UInt8) : Prop :=
  ∃ image, file = some image ∧ image.Accepted ∧
    ∀ address < 512 * blockCount image.content.length,
      flash address = (flashImage image.content).getD address 0

/-- What is in flash after a UID has been stored. -/
def HoldsId (id : Option Bytes) (flash : Nat → UInt8) : Prop :=
  ∃ uid, id = some uid ∧
    ∀ offset < uid.length, flash (uidProgramAddress.toNat + offset) = uid.getD offset 0

/-- What the device shows is true: when it shows a success, the board holds what
the mode is for.  Nothing is said while a mode switch is pending. -/
def Device.Reports (file : Option BinFile) (flash : Option (Nat → UInt8)) (device : Device) :
    Prop :=
  device.eventFlags.modeSwitchFlag = false → device.devStatus = .programSuccess →
    ∃ contents, flash = some contents ∧
      (device.deviceMode = .programCode → HoldsFile file contents) ∧
      (device.deviceMode = .programUID → HoldsId (calledUid device.log) contents)

section Devices

variable {file : Option BinFile} {flash : Option (Nat → UInt8)}

theorem calledUid_cons {event : Event} (other : ∀ id ret, event ≠ .programUIDCalled id ret)
    (log : List Event) : calledUid (event :: log) = calledUid log := by
  rw [calledUid, latest_cons]
  cases event with
  | programUIDCalled id ret => exact absurd rfl (other id ret)
  | _ => rfl

/-- A device that shows no success reports nothing. -/
theorem Device.Reports.of_status {device : Device} (status : device.devStatus ≠ .programSuccess) :
    device.Reports file flash :=
  fun _ success => absurd success status

/-- A change that the report does not depend on. -/
theorem Device.Reports.of_same {before after : Device} (reports : before.Reports file flash)
    (switch : after.eventFlags.modeSwitchFlag = before.eventFlags.modeSwitchFlag)
    (status : after.devStatus = before.devStatus) (mode : after.deviceMode = before.deviceMode)
    (called : calledUid after.log = calledUid before.log) : after.Reports file flash := by
  unfold Device.Reports
  rw [switch, status, mode, called]
  exact reports

theorem Device.Reports.change {sends switches : Prop} {before after : Device}
    (change : Change sends switches before after) (reports : before.Reports file flash) :
    after.Reports file flash := by
  cases change with
  | silent => exact reports
  | startRequested => exact reports.of_same rfl rfl rfl (calledUid_cons (by simp) _)
  | uidRequested => exact reports.of_same rfl rfl rfl (calledUid_cons (by simp) _)
  | resetRequested => exact reports
  | modeSwitched => exact fun settled => nomatch settled
  | uidModeEntered => exact .of_status (by simp)
  | codeModeEntered => exact .of_status (by simp)
  | binDetected => exact reports.of_same rfl rfl rfl (calledUid_cons (by simp) _)
  | boardDetected => exact reports
  | connected => exact reports.of_same rfl rfl rfl (calledUid_cons (by simp) _)
  | heartbeatSent => exact reports.of_same rfl rfl rfl (calledUid_cons (by simp) _)
  | heartbeatLost => exact reports
  | requestStarted => exact reports.of_same rfl rfl rfl (calledUid_cons (by simp) _)
  | transmitted => exact reports.of_same rfl rfl rfl (calledUid_cons (by simp) _)

theorem Device.Reports.statusMove {ret : Int} {before after : Device}
    (move : StatusMove ret before after) (reports : before.Reports file flash)
    (unprogrammed : before.devStatus ≠ .programing) : after.Reports file flash := by
  cases move with
  | unchanged => exact reports
  | binFound => exact .of_status (by simp)
  | boardLost => exact .of_status (by simp)
  | startTaken => exact .of_status (by simp)
  | binLost => exact .of_status (by simp)
  | uidTaken => exact .of_status (by simp)
  | boardFound => exact .of_status (by simp)
  | binMissing => exact .of_status (by simp)
  | codeProgrammed status => exact absurd status unprogrammed
  | uidProgrammed status => exact absurd status unprogrammed
  | confirmedCode => exact .of_status (by simp)
  | confirmedUid => exact .of_status (by simp)

/-- No programming routine returns in the step. -/
def Device.Unprogramming (device : Device) (action : Action) : Prop :=
  StepMeets (fun _ _ _ => True) (fun device => device.devStatus ≠ .programing) device action

theorem Device.Unprogramming.of_main {device : Device} (io : MainIO)
    (quiet : ¬ device.Programs) : device.Unprogramming (.main io) := by
  unfold Unprogramming StepMeets
  split
  · exact fun _ _ _ => trivial
  · exact fun guard status => quiet ⟨‹_›, guard, status⟩
  · trivial

/-- A step that programs nothing leaves the report true. -/
theorem Device.Reports.step {device : Device} (reports : device.Reports file flash)
    {action : Action} (unprogramming : device.Unprogramming action) :
    (step action device).Reports file flash := by
  have meets : StepMeets (fun _ _ _ => True) (fun device => device.devStatus ≠ .programing)
      device action := unprogramming
  refine step_preserves (fun device => device.Reports file flash)
    (fun change reports => reports.change change) ?_ ?_ device action reports meets
  · intro response answers device reports _ _
    rw [handleResponse_eq]
    exact reports.of_same rfl rfl rfl (calledUid_cons (by simp) _)
  · intro ret before after move reports _ allowed
    exact (reports.statusMove move allowed).of_same rfl rfl rfl (calledUid_cons (by simp) _)

/-- `uid` fits in its array. -/
def Device.UidFits (device : Device) : Prop :=
  device.uid.length ≤ 35

/-- The UID in what the server sends fits, if there is one. -/
def MainIO.DeliversFitting (io : MainIO) : Prop :=
  ∀ response, io.recvJson.bind (Device.readResponse io.socket.nullText) = some response →
    ∀ uid ∈ response.uid, uid.length ≤ 35

theorem Device.UidFits.step {device : Device} (fits : device.UidFits) (action : Action)
    (delivered : ∀ io, action = .main io → io.DeliversFitting) :
    (OnlineProgram.step action device).UidFits := by
  have meets : StepMeets (fun response _ _ => ∀ uid ∈ response.uid, uid.length ≤ 35)
      (fun _ => True) device action := by
    unfold StepMeets
    split
    · next io _ =>
        intro _ response message
        unfold receivedResponse at message
        split at message
        · exact delivered io rfl response message
        · cases message
    · exact fun _ => trivial
    · trivial
  refine step_preserves Device.UidFits ?_ ?_ ?_ device action fits meets
  · intro sends switches before after change fits
    cases change <;> exact fits
  · intro response answers device fits _ short
    rw [handleResponse_eq]
    unfold UidFits
    dsimp only
    cases held : response.deliveredUid with
    | none => exact fits
    | some uid =>
        unfold Response.deliveredUid at held
        split at held
        · exact short uid held
        · cases held
  · intro ret before after move fits _ _
    cases move <;> exact fits

end Devices

/-! ### Programming -/

section Programming

variable {σ : Type} {peer : Peer σ} {malloc : Nat → Option Bytes} {board : Synchronizing peer}

/-- What may be in the fixture. -/
def Synchronizing.Slot (board : Synchronizing peer) (slot : Option σ) : Prop :=
  board.Unready slot ∨ Holding board.idle slot

/-- The line is quiet, and nothing unknown is at its other end. -/
structure Synchronizing.Settled (board : Synchronizing peer) (isp : Isp (Option σ)) : Prop where
  quiet : isp.incoming = []
  slot : board.Slot isp.target

/-- What there is to program. -/
def Station.Programmable (station : Station σ) : Prop :=
  (station.device.deviceMode = .programCode →
    ∃ file, station.openedFile = some file ∧ file.Accepted) ∧
  (station.device.deviceMode = .programUID → station.device.uid ≠ [])

theorem uidRequest {uid : Bytes} (nonempty : uid ≠ []) (short : uid.length ≤ 35) :
    UidRequest uidProgramAddress uid uid.length.toUInt8 where
  aligned := by decide
  positive := by
    have positive := List.length_pos_of_ne_nil nonempty
    simp [Nat.toUInt8]
    omega
  sized := by
    simp [Nat.toUInt8]
    omega

/-- A UID of the device is stored by a target that waits for a command. -/
theorem programUid_stores {τ : Type} {other : Peer τ} (target : Conforming other)
    (allocates : Allocates malloc) {behind : Bytes} (room : behind ≠ []) {uid : Bytes}
    (nonempty : uid ≠ []) (short : uid.length ≤ 35) {isp : Isp τ} (idle : target.idle isp.target)
    (quiet : isp.incoming = []) :
    ∃ final, programUid other malloc behind uidProgramAddress (some uid) uid.length.toUInt8 isp =
        .ok (0, final) ∧ target.Ready final ∧
      ∀ offset < uid.length, (target.memory final.target).flash
        (uidProgramAddress.toNat + offset) = uid.getD offset 0 := by
  have request := uidRequest nonempty short
  have sizeByte := request.sized
  have place : uidProgramAddress.toNat = 61440 := rfl
  have inside : uidProgramAddress.toNat + uid.length.toUInt8.toNat ≤ flashEndAddress := by
    unfold flashEndAddress flashStartAddress flashSize sectorNum sectorSize
    omega
  obtain ⟨encode, allocated, encodeLength⟩ := allocates 64
  obtain ⟨final, runs, ready, flash⟩ := programUid_spec request idle quiet allocated encodeLength
    room (by omega) inside
  refine ⟨final, runs, ready, fun offset below => ?_⟩
  have position : 61440 + offset - 512 * (61440 / 512) = offset := by omega
  have inBlock : (uidBlock uidProgramAddress uid)[offset]? = uid[offset]? := by
    rw [uidBlock_getElem? (by omega) (by omega), if_pos (by omega), place]
    rfl
  rw [flash, place]
  dsimp only
  rw [if_pos (by omega), position, List.getD_eq_getElem?_getD, List.getD_eq_getElem?_getD, inBlock,
    List.getElem?_eq_getElem below]
  rfl

theorem Synchronizing.settled_of_ready {isp : Isp (Option σ)}
    (ready : board.inFixture.Ready isp) : board.Settled isp where
  quiet := ready.quiet
  slot := .inr ready.idle

/-- A board that is awake is there, with its flash. -/
theorem Synchronizing.flash_of_awake {slot : Option σ} (awake : Holding board.idle slot) :
    board.flash slot = some (board.inFixture.memory slot).flash := by
  cases slot with
  | none => exact awake.elim
  | some state => rfl

/-- What a programming routine does to the board. -/
structure Station.Outcome (board : Synchronizing peer) (station : Station σ) (ret : Int)
    (isp : Isp (Option σ)) : Prop where
  settled : board.Settled isp
  stored : ret = 0 → ∃ contents, board.flash isp.target = some contents ∧
    (station.device.deviceMode = .programCode → HoldsFile station.openedFile contents) ∧
    (station.device.deviceMode = .programUID → HoldsId (some station.device.uid) contents)
  kept : ret ≠ 0 → board.flash isp.target = board.flash station.isp.target

/-- The path of a station is a string. -/
def Station.Named (station : Station σ) : Prop :=
  ∃ path, cString station.binFilePath.bytes = .ok path ∧ (path = [] ∨ 47 ∈ path)

theorem Station.Named.opens {station : Station σ} (named : station.Named) :
    ∃ path, cString station.binFilePath.bytes = .ok path ∧
      station.openedFile = station.card.fopen path := by
  obtain ⟨path, isPath, -⟩ := named
  refine ⟨path, isPath, ?_⟩
  unfold openedFile
  rw [isPath]

/-- A call to an awake board. -/
theorem Station.program_awake {station : Station σ} (allocates : Allocates malloc)
    (after : UInt8) {behind : Bytes} (room : behind ≠ []) (named : station.Named)
    (awake : Holding board.idle station.isp.target) (quiet : station.isp.incoming = [])
    (fits : station.device.UidFits) :
    ∃ ret isp, station.program peer malloc after behind = .ok (ret, isp) ∧
      station.Outcome board ret isp ∧ (ret = 0 ↔ station.Programmable) := by
  have settled : board.Settled station.isp := ⟨quiet, .inr awake⟩
  unfold Station.program Station.Programmable
  cases mode : station.device.deviceMode with
  | programCode =>
      obtain ⟨path, isPath, opened⟩ := named.opens
      rw [if_pos rfl, isPath, opened]
      simp only [bind, Except.bind]
      by_cases accepted : ∃ file, station.card.fopen path = some file ∧ file.Accepted
      · obtain ⟨file, opens, accepted⟩ := accepted
        obtain ⟨block, blockIs, blockLength⟩ := allocates 512
        obtain ⟨sums, sumsIs, -⟩ := allocates (4 * blockCount file.content.length)
        obtain ⟨final, runs, ready, holds⟩ :=
          programBinFileV1_of_allocated board.inFixture.toConforming after opens accepted
            (allocates 64) blockIs blockLength sumsIs awake quiet
        refine ⟨0, final, runs, ⟨Synchronizing.settled_of_ready ready, fun _ => ?_,
          fun failed => absurd rfl failed⟩, by simp [opens, accepted]⟩
        refine ⟨_, Synchronizing.flash_of_awake ready.idle, fun _ => ?_, fun other => ?_⟩
        · exact ⟨file, opened.trans opens, accepted, holds.written⟩
        · cases mode.symm.trans other
      · have refused : ∀ file, (some path).bind station.card.fopen = some file →
            ¬ file.Accepted := fun file opens isAccepted => accepted ⟨file, opens, isAccepted⟩
        obtain ⟨ret, runs, negative⟩ := programBinFileV1_of_refused (fixturePeer peer) malloc
          after station.isp refused
        refine ⟨ret, station.isp, runs, ⟨settled, fun zero => by omega, fun _ => rfl⟩, ?_⟩
        constructor
        · intro zero
          omega
        · intro programmable
          exact absurd (programmable.1 trivial) accepted
  | programUID =>
      rw [if_neg (by simp)]
      by_cases nonempty : station.device.uid = []
      · refine ⟨-1, station.isp, ?_, ⟨settled, fun zero => by omega, fun _ => rfl⟩, ?_⟩
        · rw [nonempty]
          rfl
        · simp [nonempty]
      · obtain ⟨final, runs, ready, holds⟩ := programUid_stores board.inFixture.toConforming
          allocates room nonempty fits awake quiet
        refine ⟨0, final, runs, ⟨Synchronizing.settled_of_ready ready, fun _ => ?_,
          fun failed => absurd rfl failed⟩, by simp [nonempty]⟩
        refine ⟨_, Synchronizing.flash_of_awake ready.idle, fun other => ?_, fun _ => ?_⟩
        · cases mode.symm.trans other
        · exact ⟨_, rfl, holds⟩

/-- A call to which nobody answers. -/
theorem Station.program_unready {station : Station σ} (malloc : Nat → Option Bytes)
    (after : UInt8) (behind : Bytes) (named : station.Named)
    (unready : board.Unready station.isp.target) (quiet : station.isp.incoming = [])
    (fits : station.device.UidFits) :
    ∃ ret isp, station.program peer malloc after behind = .ok (ret, isp) ∧
      station.Outcome board ret isp ∧ ret < 0 := by
  have outcome {ret : Int} {isp : Isp (Option σ)} (negative : ret < 0)
      (deaf : board.Deaf station.isp isp) : station.Outcome board ret isp :=
    ⟨⟨deaf.quiet, .inl deaf.unready⟩, fun zero => by omega, fun _ => deaf.flash⟩
  unfold Station.program
  cases mode : station.device.deviceMode with
  | programCode =>
      obtain ⟨path, isPath, -⟩ := named
      rw [if_pos rfl, isPath]
      obtain ⟨ret, isp, runs, negative, deaf⟩ := programBinFileV1_deaf unready quiet malloc after
        station.card.fopen (some path)
      exact ⟨ret, isp, runs, outcome negative deaf, negative⟩
  | programUID =>
      rw [if_neg (by simp)]
      by_cases nonempty : station.device.uid = []
      · refine ⟨-1, station.isp, ?_, outcome (by decide) ⟨unready, quiet, rfl⟩, by decide⟩
        rw [nonempty]
        rfl
      · obtain ⟨isp, runs, deaf⟩ := programUid_deaf unready quiet malloc behind
          (uidRequest nonempty fits)
        exact ⟨-3, isp, runs, outcome (by decide) deaf, by decide⟩

/-- `ISP_syncBaudRate` finds a board when there is one, and wakes it up. -/
theorem ispSyncBaudRate_settled {isp : Isp (Option σ)} (settled : board.Settled isp) :
    ∃ ret final, ispSyncBaudRate (fixturePeer peer) isp = .ok (ret, final) ∧
      board.Settled final ∧ board.flash final.target = board.flash isp.target ∧
      (ret = .success ↔ isp.target ≠ none) ∧
      (isp.target ≠ none → Holding board.idle final.target) := by
  obtain ⟨slot, incoming, buffer⟩ := isp
  cases slot with
  | none =>
      obtain ⟨final, syncs, empty, quiet⟩ := ispSyncBaudRate_empty rfl settled.quiet
      refine ⟨.respTimeout, final, syncs, ⟨quiet, .inl ?_⟩, by rw [empty], by simp, by simp⟩
      rw [empty]
      trivial
  | some state =>
      have present : board.inFixture.Present (some state) := settled.slot
      obtain ⟨⟨slot, _, buffer⟩, syncs, awake, rfl, memory⟩ :=
        ispSyncBaudRate_connects present settled.quiet
      refine ⟨.success, _, syncs, ⟨rfl, .inr awake⟩, ?_, by simp, fun _ => awake⟩
      rw [Synchronizing.flash_of_awake awake, memory]
      rfl

end Programming

end OnlineProgram
