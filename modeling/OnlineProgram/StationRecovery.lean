import OnlineProgram.StationRuns

/-!
# Getting a board programmed

Whatever a run has left behind, the operator can have the file on the card
programmed into the board in the fixture: `SW3` until the device is in
`MODE_PROGRAM_CODE`, and `SW2` when it shows that the board is connected.  The
network and the clock may do what they like meanwhile, and the operator may take
any time.
-/

namespace OnlineProgram

open ByteStrings CMemory SerialLink FaultingRuns

/-- The operator presses a button. -/
def StationAction.give {σ : Type} (button : Button) : StationAction σ :=
  .device (.press button)

/-- The operator waits. -/
def StationAction.Waits {σ : Type} : StationAction σ → Prop
  | .device (.main io) => io.DeliversFitting
  | .device .tick => True
  | .device (.press _) => False
  | .changeBoard _ => False
  | .changeCard _ => False

/-- The main thread runs a stage. -/
def StationAction.isStage {σ : Type} : StationAction σ → Bool
  | .device (.main _) => true
  | .device .tick => false
  | .device (.press _) => false
  | .changeBoard _ => false
  | .changeCard _ => false

/-- What to press, and how many stages to wait for at least before the next
press. -/
def recoverySchedule : Mode → List (Button × Nat)
  | .programUID => [(.sw3, 15), (.sw2, 10)]
  | .programCode => [(.sw3, 0), (.sw3, 15), (.sw2, 10)]

/-- How many stages come before the mode switch is finished, in
`MODE_PROGRAM_CODE`. -/
def Stage.beforeSwitch : Stage → Nat
  | .modeSwitchDelay => 0
  | .modeSwitch => 1
  | .statusUpdate => 2
  | .checkNetwork => 3
  | .msgTransceiver => 3
  | .boardDetection => 4
  | .binDetection => 5

/-- The stages of a turn of the loop in `MODE_PROGRAM_CODE`. -/
def turnStages : List Stage :=
  [.modeSwitch, .binDetection, .boardDetection, .checkNetwork, .statusUpdate]

/-- The stages of a turn before which the card has been looked at. -/
def stagesAfterCard : List Stage :=
  [.boardDetection, .checkNetwork, .statusUpdate]

/-- The stages of a turn before which the board has been looked for. -/
def stagesAfterBoard : List Stage :=
  [.checkNetwork, .statusUpdate]

/-- The stage that comes next in a turn. -/
def Stage.following : Stage → Stage
  | .modeSwitch => .binDetection
  | .modeSwitchDelay => .binDetection
  | .binDetection => .boardDetection
  | .boardDetection => .checkNetwork
  | .checkNetwork => .statusUpdate
  | .msgTransceiver => .statusUpdate
  | .statusUpdate => .modeSwitch

/-- How many stages it takes until the status has been updated. -/
def Stage.untilUpdated : Stage → Nat
  | .modeSwitch => 5
  | .modeSwitchDelay => 5
  | .binDetection => 4
  | .boardDetection => 3
  | .checkNetwork => 2
  | .msgTransceiver => 2
  | .statusUpdate => 1

theorem Stage.following_untilUpdated {place : Stage} (early : place ≠ .statusUpdate) :
    place.following.untilUpdated = place.untilUpdated - 1 := by
  cases place with
  | statusUpdate => exact absurd rfl early
  | _ => rfl

theorem Stage.untilUpdated_pos (place : Stage) : 0 < place.untilUpdated := by
  cases place <;> decide

theorem Stage.untilUpdated_le (place : Stage) : place.untilUpdated ≤ 5 := by
  cases place <;> decide

theorem Stage.eq_statusUpdate {place : Stage} (last : place.untilUpdated = 1) :
    place = .statusUpdate := by
  cases place with
  | statusUpdate => rfl
  | _ => cases last

theorem Stage.beforeSwitch_le (place : Stage) : place.beforeSwitch ≤ 5 := by
  cases place <;> decide

theorem Stage.following_mem_turnStages {place : Stage} (turns : place ∈ turnStages) :
    place.following ∈ turnStages := by
  cases place with
  | modeSwitchDelay => exact absurd turns (by decide)
  | msgTransceiver => exact absurd turns (by decide)
  | _ => decide

/-- The loop is at a stage in `MODE_PROGRAM_CODE`, and neither a mode switch nor the
confirmation of a result is pending. -/
structure Device.Shows (place : Stage) (status : DevStatus) (start : Bool) (device : Device) :
    Prop where
  turns : place ∈ turnStages
  stage : device.stage = place
  mode : device.deviceMode = .programCode
  settled : device.eventFlags.modeSwitchFlag = false
  unreset : device.eventFlags.resetDevStatusFlag = false
  status : device.devStatus = status
  start : device.eventFlags.startProgramFlag = start

section Recovery

variable {σ : Type} {peer : Peer σ} {malloc : Nat → Option Bytes} {board : Synchronizing peer}
  {after : UInt8} {behind : Bytes} {entry : DirEntry} {file : BinFile}

/-- There is a board in the fixture, and a file that is found on the card. -/
structure Station.Loaded (board : Synchronizing peer) (entry : DirEntry) (file : BinFile)
    (station : Station σ) : Prop where
  sound : station.Sound board
  present : station.isp.target ≠ none
  chosen : station.card.chosen = some entry
  opens : station.card.fopen entry.path = some file
  accepted : file.Accepted

/-- A loaded station in a mode. -/
structure Station.Loading (board : Synchronizing peer) (entry : DirEntry) (file : BinFile)
    (mode : Mode) (station : Station σ) : Prop extends station.Loaded board entry file where
  mode : station.device.deviceMode = mode

/-- The mode switch is pending. -/
structure Station.Pending (board : Synchronizing peer) (entry : DirEntry) (file : BinFile)
    (left : Nat) (station : Station σ) : Prop extends station.Loaded board entry file where
  mode : station.device.deviceMode = .programCode
  pending : station.device.eventFlags.modeSwitchFlag = true
  stage : station.device.stage.beforeSwitch = left

/-- Where the loop is, and what this turn of it has found out so far. -/
structure Station.Phase (board : Synchronizing peer) (entry : DirEntry) (file : BinFile)
    (place : Stage) (status : DevStatus) (start : Bool) (station : Station σ) : Prop
    extends station.Loaded board entry file where
  shows : station.device.Shows place status start
  found : place ∈ stagesAfterCard →
    station.device.eventFlags.binFileExsitFlag = true ∧
      cString station.binFilePath.bytes = .ok entry.path
  connected : place ∈ stagesAfterBoard →
    station.device.eventFlags.boardConnectedFlag = true ∧
      Holding board.idle station.isp.target

/-! ### Moves -/

theorem Synchronizing.flash_ne_none_iff (board : Synchronizing peer) {slot : Option σ} :
    board.flash slot ≠ none ↔ slot ≠ none := by
  unfold Synchronizing.flash
  rw [ne_eq, Option.map_eq_none_iff]

/-- No stage takes the board out of the fixture. -/
theorem Station.StageMove.present {io : MainIO} {station next : Station σ}
    (move : station.StageMove board io next) (present : station.isp.target ≠ none) :
    next.isp.target ≠ none := by
  cases move with
  | detects ret path detects found unfound isPath => exact present
  | connects ret isp connects settled flash found awake =>
      have kept := board.flash_ne_none_iff.mpr present
      rw [← flash] at kept
      exact board.flash_ne_none_iff.mp kept
  | programs ret isp programs outcome success =>
      have kept : board.flash isp.target ≠ none := by
        by_cases zero : ret = 0
        · obtain ⟨contents, held, -⟩ := outcome.stored zero
          simp [held]
        · rw [outcome.kept zero]
          exact board.flash_ne_none_iff.mpr present
      exact board.flash_ne_none_iff.mp kept
  | plain undetecting unconnecting unprogramming => exact present

theorem Station.StageMove.card {io : MainIO} {station next : Station σ}
    (move : station.StageMove board io next) : next.card = station.card := by
  cases move <;> rfl

theorem Station.Loaded.stage (allocates : Allocates malloc) (after : UInt8) (room : behind ≠ [])
    {station : Station σ} (loaded : station.Loaded board entry file) {io : MainIO}
    (fits : io.DeliversFitting) :
    ∃ next, station.step peer malloc after behind (.device (.main io)) = .ok next ∧
      next.Loaded board entry file ∧ station.StageMove board io next := by
  obtain ⟨next, steps, move⟩ := station.mainStage_moves allocates after room loaded.sound io
  refine ⟨next, steps, ⟨move.sound loaded.sound fits, move.present loaded.present, ?_, ?_,
    loaded.accepted⟩, move⟩
  · rw [move.card]
    exact loaded.chosen
  · rw [move.card]
    exact loaded.opens

theorem Station.Loaded.press {station : Station σ} (loaded : station.Loaded board entry file)
    (button : Button) :
    ({ station with device := button.release station.device } : Station σ).Loaded board entry
      file where
  sound := by
    obtain ⟨uid, reports⟩ := loaded.sound.device (.press button) trivial trivial
    exact ⟨loaded.sound.settled, uid, loaded.sound.named, loaded.sound.plain, reports⟩
  present := loaded.present
  chosen := loaded.chosen
  opens := loaded.opens
  accepted := loaded.accepted

theorem Station.Loaded.tick {station : Station σ} (loaded : station.Loaded board entry file) :
    ({ station with device := station.device.sysTick } : Station σ).Loaded board entry file where
  sound := by
    obtain ⟨uid, reports⟩ := loaded.sound.device .tick trivial trivial
    exact ⟨loaded.sound.settled, uid, loaded.sound.named, loaded.sound.plain, reports⟩
  present := loaded.present
  chosen := loaded.chosen
  opens := loaded.opens
  accepted := loaded.accepted

/-! ### The mode switch -/

/-- The main thread leaves the mode alone. -/
theorem Device.mainStage_deviceMode (io : MainIO) (device : Device) :
    (device.mainStage io).deviceMode = device.deviceMode := by
  by_cases delay : device.stage = .modeSwitchDelay
  · simp only [mainStage, delay, finishModeSwitch]
    split
    · rfl
    · rfl
  · refine step_preserves_unswitched (fun later => later.deviceMode = device.deviceMode)
      ?_ ?_ ?_ device (.main io) delay rfl (stepMeets_trivial device (.main io))
    · intro sends before after change same
      cases change with
      | modeSwitched impossible => exact impossible.elim
      | _ => exact same
    · intro response answers later same _ _
      rw [handleResponse_eq]
      exact same
    · intro ret before after move same _ _
      cases move <;> exact same

theorem Station.Loading.tick {mode : Mode} {station : Station σ}
    (loading : station.Loading board entry file mode) :
    ({ station with device := station.device.sysTick } : Station σ).Loading board entry file
      mode where
  toLoaded := loading.toLoaded.tick
  mode := by
    simp only [Device.sysTick]
    split <;> exact loading.mode

theorem Station.Pending.tick {left : Nat} {station : Station σ}
    (pending : station.Pending board entry file left) :
    ({ station with device := station.device.sysTick } : Station σ).Pending board entry file
      left where
  toLoaded := pending.toLoaded.tick
  mode := by
    simp only [Device.sysTick]
    split <;> exact pending.mode
  pending := by
    simp only [Device.sysTick]
    split <;> exact pending.pending
  stage := by
    simp only [Device.sysTick]
    split <;> exact pending.stage

/-- Until it is finished the switch stays pending. -/
theorem Device.mainStage_pending {device : Device} (io : MainIO)
    (pending : device.eventFlags.modeSwitchFlag = true)
    (early : device.stage.beforeSwitch ≠ 0) :
    (device.mainStage io).eventFlags.modeSwitchFlag = true := by
  refine step_preserves_unswitched (fun device => device.eventFlags.modeSwitchFlag = true)
    ?_ ?_ ?_ device (.main io) ?_ pending (stepMeets_trivial device (.main io))
  · intro sends before after change holds
    cases change with
    | uidModeEntered impossible => exact impossible.elim
    | codeModeEntered impossible => exact impossible.elim
    | modeSwitched impossible => exact impossible.elim
    | _ => exact holds
  · intro response answers device holds _ _
    rw [handleResponse_eq]
    exact holds
  · intro ret before after move holds _ _
    cases move <;> exact holds
  · intro switches
    have stage : device.stage = .modeSwitchDelay := switches
    rw [stage] at early
    exact early rfl

theorem Device.mainStage_beforeSwitch {device : Device} (io : MainIO)
    (mode : device.deviceMode = .programCode)
    (pending : device.eventFlags.modeSwitchFlag = true)
    (early : device.stage.beforeSwitch ≠ 0) :
    (device.mainStage io).stage.beforeSwitch + 1 = device.stage.beforeSwitch := by
  unfold mainStage
  cases stage : device.stage with
  | modeSwitchDelay =>
      rw [stage] at early
      exact absurd rfl early
  | modeSwitch => simp [pending, Stage.beforeSwitch]
  | checkNetwork => simp [mode, Stage.beforeSwitch]
  | binDetection => rfl
  | boardDetection => rfl
  | msgTransceiver => rfl
  | statusUpdate => rfl

theorem Station.StageMove.device {io : MainIO} {station next : Station σ}
    (move : station.StageMove board io next) :
    ∃ answers, next.device = station.device.mainStage answers := by
  cases move with
  | detects => exact ⟨_, rfl⟩
  | connects => exact ⟨_, rfl⟩
  | programs => exact ⟨_, rfl⟩
  | plain => exact ⟨_, rfl⟩

theorem Station.Loading.stage (allocates : Allocates malloc) (after : UInt8)
    (room : behind ≠ []) {mode : Mode} {station : Station σ}
    (loading : station.Loading board entry file mode) {io : MainIO}
    (fits : io.DeliversFitting) :
    ∃ next, station.step peer malloc after behind (.device (.main io)) = .ok next ∧
      next.Loading board entry file mode := by
  obtain ⟨next, steps, loaded, move⟩ := loading.toLoaded.stage allocates after room fits
  obtain ⟨answers, isDevice⟩ := move.device
  refine ⟨next, steps, loaded, ?_⟩
  rw [isDevice, Device.mainStage_deviceMode, loading.mode]

theorem Station.Pending.stage_step (allocates : Allocates malloc) (after : UInt8)
    (room : behind ≠ []) {left : Nat} {station : Station σ}
    (pending : station.Pending board entry file (left + 1)) {io : MainIO}
    (fits : io.DeliversFitting) :
    ∃ next, station.step peer malloc after behind (.device (.main io)) = .ok next ∧
      next.Pending board entry file left := by
  obtain ⟨next, steps, loaded, move⟩ := pending.toLoaded.stage allocates after room fits
  obtain ⟨answers, isDevice⟩ := move.device
  have early : station.device.stage.beforeSwitch ≠ 0 := by
    rw [pending.stage]
    exact Nat.succ_ne_zero left
  have flag := Device.mainStage_pending answers pending.pending early
  have nearer := Device.mainStage_beforeSwitch answers pending.mode pending.pending early
  rw [pending.stage] at nearer
  refine ⟨next, steps, loaded, ?_, ?_, ?_⟩
  · rw [isDevice, Device.mainStage_deviceMode, pending.mode]
  · rw [isDevice, flag]
  · rw [isDevice]
    exact Nat.succ_inj.mp nearer

/-- A stage that calls nothing that the station models. -/
theorem Station.StageMove.eq_plain {io : MainIO} {station next : Station σ}
    (move : station.StageMove board io next) (undetecting : ¬ station.device.Detects)
    (unconnecting : station.device.stage ≠ .boardDetection)
    (unprogramming : ¬ station.device.Programs) :
    next = { station with device := station.device.mainStage io } := by
  cases move with
  | detects ret path detects => exact absurd detects undetecting
  | connects ret isp connects => exact absurd connects unconnecting
  | programs ret isp programs => exact absurd programs unprogramming
  | plain => rfl

theorem Station.StageMove.eq_plain_of_stage {io : MainIO} {station next : Station σ}
    (move : station.StageMove board io next)
    (quiet : station.device.stage ∉ [.binDetection, .boardDetection, .statusUpdate]) :
    next = { station with device := station.device.mainStage io } := by
  simp only [List.mem_cons, List.not_mem_nil, or_false, not_or] at quiet
  exact move.eq_plain (fun detects => quiet.1 detects.1) quiet.2.1
    (fun programs => quiet.2.2 programs.1)

/-- The switch is finished, and the loop starts afresh. -/
theorem Station.Pending.finish (allocates : Allocates malloc) (after : UInt8)
    (room : behind ≠ []) {station : Station σ} (pending : station.Pending board entry file 0)
    {io : MainIO} (fits : io.DeliversFitting) :
    ∃ next, station.step peer malloc after behind (.device (.main io)) = .ok next ∧
      next.Phase board entry file .binDetection .binNotFound false := by
  obtain ⟨next, steps, loaded, move⟩ := pending.toLoaded.stage allocates after room fits
  have stage : station.device.stage = .modeSwitchDelay := by
    have zero := pending.stage
    cases stage : station.device.stage with
    | modeSwitchDelay => rfl
    | _ =>
        rw [stage] at zero
        cases zero
  have mode := pending.mode
  obtain rfl := move.eq_plain_of_stage (by simp [stage])
  have finished : station.device.mainStage io =
      { station.device.finishModeSwitch with stage := .binDetection } := by
    simp only [Device.mainStage, stage]
  refine ⟨_, steps, { loaded with
    shows := ?_, found := by simp [stagesAfterCard], connected := by simp [stagesAfterBoard] }⟩
  rw [finished]
  constructor <;>
    simp [Device.finishModeSwitch, Device.resetEventFlags, Device.emit, mode, EventFlags.cleared,
      turnStages]

/-! ### A turn of the loop -/

theorem Device.Shows.tick {place : Stage} {status : DevStatus} {start : Bool} {device : Device}
    (shows : device.Shows place status start) : device.sysTick.Shows place status start := by
  unfold sysTick
  dsimp only
  split
  · exact { shows with stage := shows.stage }
  · exact { shows with stage := shows.stage }

/-- Within a turn, what is shown stays. -/
theorem Device.Shows.early {place : Stage} {status : DevStatus} {start : Bool} {device : Device}
    (shows : device.Shows place status start) (early : place ≠ .statusUpdate) (io : MainIO) :
    (device.mainStage io).Shows place.following status start := by
  have turns := Stage.following_mem_turnStages shows.turns
  unfold mainStage
  rw [shows.stage]
  cases place with
  | modeSwitch =>
      rw [shows.settled]
      exact { shows with turns, stage := rfl }
  | binDetection =>
      unfold detectBinFile
      dsimp only
      rw [if_pos shows.mode]
      exact { shows with turns, stage := rfl }
  | boardDetection => exact { shows with turns, stage := rfl }
  | checkNetwork =>
      have code : device.deviceMode ≠ .programUID := by simp [shows.mode]
      dsimp only
      rw [if_neg code]
      exact { shows with turns, stage := rfl }
  | modeSwitchDelay => exact absurd shows.turns (by decide)
  | msgTransceiver => exact absurd shows.turns (by decide)
  | statusUpdate => exact absurd rfl early

theorem Station.Phase.tick {place : Stage} {status : DevStatus} {start : Bool}
    {station : Station σ} (phase : station.Phase board entry file place status start) :
    ({ station with device := station.device.sysTick } : Station σ).Phase board entry file place
      status start where
  toLoaded := phase.toLoaded.tick
  shows := phase.shows.tick
  found := by
    unfold Device.sysTick
    dsimp only
    split <;> exact phase.found
  connected := by
    unfold Device.sysTick
    dsimp only
    split <;> exact phase.connected

section Turn

variable {status : DevStatus} {start : Bool} {station : Station σ} {io : MainIO}

theorem Station.Phase.begins (allocates : Allocates malloc) (after : UInt8) (room : behind ≠ [])
    (phase : station.Phase board entry file .modeSwitch status start)
    (fits : io.DeliversFitting) :
    ∃ next, station.step peer malloc after behind (.device (.main io)) = .ok next ∧
      next.Phase board entry file .binDetection status start := by
  obtain ⟨next, steps, loaded, move⟩ := phase.toLoaded.stage allocates after room fits
  obtain rfl := move.eq_plain_of_stage (by simp [phase.shows.stage])
  exact ⟨_, steps, { loaded with
    shows := phase.shows.early (by decide) io, found := by simp [stagesAfterCard],
    connected := by simp [stagesAfterBoard] }⟩

theorem Station.Phase.findsFile (allocates : Allocates malloc) (after : UInt8)
    (room : behind ≠ []) (phase : station.Phase board entry file .binDetection status start)
    (fits : io.DeliversFitting) :
    ∃ next, station.step peer malloc after behind (.device (.main io)) = .ok next ∧
      next.Phase board entry file .boardDetection status start := by
  obtain ⟨next, steps, loaded, move⟩ := phase.toLoaded.stage allocates after room fits
  refine ⟨next, steps, ?_⟩
  cases move with
  | connects ret isp connects => cases phase.shows.stage.symm.trans connects
  | programs ret isp programs => cases phase.shows.stage.symm.trans programs.1
  | plain undetecting => exact absurd ⟨phase.shows.stage, phase.shows.mode⟩ undetecting
  | detects ret path detects found unfound isPath =>
      have zero : ret = 0 := found.mpr (by rw [phase.chosen]; rfl)
      refine { loaded with
        shows := phase.shows.early (by decide) _,
        found := fun _ => ⟨?_, isPath entry phase.chosen⟩,
        connected := by simp [stagesAfterBoard] }
      simp [Device.mainStage, phase.shows.stage, Device.detectBinFile, phase.shows.mode, zero,
        Device.emit]

theorem Station.Phase.findsBoard (allocates : Allocates malloc) (after : UInt8)
    (room : behind ≠ []) (phase : station.Phase board entry file .boardDetection status start)
    (fits : io.DeliversFitting) :
    ∃ next, station.step peer malloc after behind (.device (.main io)) = .ok next ∧
      next.Phase board entry file .checkNetwork status start := by
  obtain ⟨next, steps, loaded, move⟩ := phase.toLoaded.stage allocates after room fits
  refine ⟨next, steps, ?_⟩
  cases move with
  | detects ret path detects => cases phase.shows.stage.symm.trans detects.1
  | programs ret isp programs => cases phase.shows.stage.symm.trans programs.1
  | plain undetecting unconnecting => exact absurd phase.shows.stage unconnecting
  | connects ret isp connects settled flash found awake =>
      obtain rfl : ret = .success := found.mpr phase.present
      obtain ⟨flag, isPath⟩ := phase.found (by simp [stagesAfterCard])
      refine { loaded with
        shows := phase.shows.early (by decide) _,
        found := fun _ => ⟨?_, isPath⟩,
        connected := fun _ => ⟨?_, awake phase.present⟩ }
      · simp [Device.mainStage, phase.shows.stage, Device.detectBoard, flag]
      · simp [Device.mainStage, phase.shows.stage, Device.detectBoard, RetCode.value]

theorem Station.Phase.passesNetwork (allocates : Allocates malloc) (after : UInt8)
    (room : behind ≠ []) (phase : station.Phase board entry file .checkNetwork status start)
    (fits : io.DeliversFitting) :
    ∃ next, station.step peer malloc after behind (.device (.main io)) = .ok next ∧
      next.Phase board entry file .statusUpdate status start := by
  obtain ⟨next, steps, loaded, move⟩ := phase.toLoaded.stage allocates after room fits
  obtain rfl := move.eq_plain_of_stage (by simp [phase.shows.stage])
  have moved : station.device.mainStage io = { station.device with stage := .statusUpdate } := by
    simp [Device.mainStage, phase.shows.stage, phase.shows.mode]
  refine ⟨_, steps, { loaded with
    shows := phase.shows.early (by decide) io, found := fun _ => ?_, connected := fun _ => ?_ }⟩
  · rw [moved]
    exact phase.found (by simp [stagesAfterCard])
  · rw [moved]
    exact phase.connected (by simp [stagesAfterBoard])

/-- A stage within a turn. -/
theorem Station.Phase.early (allocates : Allocates malloc) (after : UInt8)
    (room : behind ≠ []) {place : Stage} (phase : station.Phase board entry file place status start)
    (early : place ≠ .statusUpdate) (fits : io.DeliversFitting) :
    ∃ next, station.step peer malloc after behind (.device (.main io)) = .ok next ∧
      next.Phase board entry file place.following status start := by
  cases place with
  | modeSwitch => exact phase.begins allocates after room fits
  | binDetection => exact phase.findsFile allocates after room fits
  | boardDetection => exact phase.findsBoard allocates after room fits
  | checkNetwork => exact phase.passesNetwork allocates after room fits
  | modeSwitchDelay => exact absurd phase.shows.turns (by decide)
  | msgTransceiver => exact absurd phase.shows.turns (by decide)
  | statusUpdate => exact absurd rfl early

theorem Device.Shows.update (shows : station.device.Shows .statusUpdate status start) (ret : Int)
    (answers : MainIO) :
    station.device.mainStage { answers with programRet := ret } =
      { (station.device.switchDevStatus ret).emit
          (.statusUpdated station.device.eventFlags.boardConnectedFlag station.device.devStatus
            (station.device.switchDevStatus ret).devStatus) with
        stage := .modeSwitch } := by
  have guard : station.device.StatusGuard := .inr shows.mode
  have updates : station.device.guardedStatusUpdate ret = station.device.updateDeviceStatus ret :=
    if_pos guard
  simp only [Device.mainStage, shows.stage, updates, Device.updateDeviceStatus]

/-- A run of `updateDeviceStatus` that programs nothing. -/
theorem Station.Phase.updates (allocates : Allocates malloc) (after : UInt8)
    (room : behind ≠ []) (phase : station.Phase board entry file .statusUpdate status start)
    (idle : status ≠ .programing) {nextStatus : DevStatus} {nextStart : Bool}
    (switches : ∀ device : Device, device.Shows .statusUpdate status start →
      device.eventFlags.binFileExsitFlag = true → device.eventFlags.boardConnectedFlag = true →
        ∀ ret, (device.switchDevStatus ret).Shows .statusUpdate nextStatus nextStart)
    (fits : io.DeliversFitting) :
    ∃ next, station.step peer malloc after behind (.device (.main io)) = .ok next ∧
      next.Phase board entry file .modeSwitch nextStatus nextStart := by
  obtain ⟨next, steps, loaded, move⟩ := phase.toLoaded.stage allocates after room fits
  have place := phase.shows.stage
  obtain rfl := move.eq_plain (fun detects => nomatch place.symm.trans detects.1)
    (by simp [place]) (fun programs => idle (phase.shows.status.symm.trans programs.2.2))
  obtain ⟨found, -⟩ := phase.found (by simp [stagesAfterCard])
  obtain ⟨connected, -⟩ := phase.connected (by simp [stagesAfterBoard])
  have switched := switches station.device phase.shows found connected io.programRet
  refine ⟨_, steps, { loaded with
    shows := ?_, found := by simp [stagesAfterCard], connected := by simp [stagesAfterBoard] }⟩
  have moved := phase.shows.update io.programRet io
  dsimp only at moved ⊢
  rw [moved]
  exact { switched with turns := by decide, stage := rfl }

theorem Device.Shows.binFound {device : Device}
    (shows : device.Shows .statusUpdate .binNotFound start)
    (found : device.eventFlags.binFileExsitFlag = true) (ret : Int) :
    (device.switchDevStatus ret).Shows .statusUpdate .disconnected start := by
  unfold switchDevStatus
  rw [shows.status]
  dsimp only
  rw [if_pos found]
  exact { shows with status := rfl }

theorem Device.Shows.boardFound {device : Device}
    (shows : device.Shows .statusUpdate .disconnected start)
    (found : device.eventFlags.binFileExsitFlag = true)
    (connected : device.eventFlags.boardConnectedFlag = true) (ret : Int) :
    (device.switchDevStatus ret).Shows .statusUpdate .connected start := by
  unfold switchDevStatus
  rw [shows.status]
  simp only [updateDisconnected, connected, found, if_true]
  exact { shows with status := rfl }

theorem Device.Shows.stillConnected {device : Device}
    (shows : device.Shows .statusUpdate .connected false)
    (found : device.eventFlags.binFileExsitFlag = true)
    (connected : device.eventFlags.boardConnectedFlag = true) (ret : Int) :
    (device.switchDevStatus ret).Shows .statusUpdate .connected false := by
  unfold switchDevStatus
  rw [shows.status]
  simp only [updateConnected_eq, connected, found, shows.start, shows.mode, shows.status, if_true,
    Bool.false_eq_true, Bool.true_eq_false, if_false]
  exact { shows with mode := rfl, status := rfl, start := rfl }

theorem Device.Shows.startTaken {device : Device}
    (shows : device.Shows .statusUpdate .connected true)
    (found : device.eventFlags.binFileExsitFlag = true)
    (connected : device.eventFlags.boardConnectedFlag = true) (ret : Int) :
    (device.switchDevStatus ret).Shows .statusUpdate .programing false := by
  unfold switchDevStatus
  rw [shows.status]
  simp only [updateConnected_eq, connected, found, shows.start, shows.mode, if_true]
  exact { shows with status := rfl, start := rfl, mode := rfl }

/-- The board has been programmed with the file. -/
structure Station.Programmed (board : Synchronizing peer) (file : BinFile)
    (station : Station σ) : Prop where
  sound : station.Sound board
  shows : ∃ place, station.device.Shows place .programSuccess false
  opened : station.opened = some file
  kept : station.replaced = false

theorem Station.Programmed.flash (programmed : station.Programmed board file) :
    ∃ contents, board.flash station.isp.target = some contents ∧
      ∀ address < 512 * blockCount file.content.length,
        contents address = (flashImage file.content).getD address 0 := by
  obtain ⟨place, shows⟩ := programmed.shows
  obtain ⟨contents, held, code, -⟩ :=
    programmed.sound.reports programmed.kept shows.settled shows.status
  obtain ⟨image, isImage, -, written⟩ := code shows.mode
  obtain rfl : file = image := Option.some.inj (programmed.opened.symm.trans isImage)
  exact ⟨contents, held, written⟩

theorem Station.Phase.opened (phase : station.Phase board entry file .statusUpdate status start) :
    station.openedFile = some file := by
  obtain ⟨-, isPath⟩ := phase.found (by simp [stagesAfterCard])
  unfold Station.openedFile
  rw [isPath]
  exact phase.opens

theorem Station.Phase.programmable
    (phase : station.Phase board entry file .statusUpdate status start) :
    station.Programmable :=
  ⟨fun _ => ⟨file, phase.opened, phase.accepted⟩, fun other =>
    nomatch phase.shows.mode.symm.trans other⟩

/-- The turn in which the file is programmed. -/
theorem Station.Phase.programs (allocates : Allocates malloc) (after : UInt8)
    (room : behind ≠ []) (phase : station.Phase board entry file .statusUpdate .programing false)
    (fits : io.DeliversFitting) :
    ∃ next, station.step peer malloc after behind (.device (.main io)) = .ok next ∧
      next.Programmed board file := by
  obtain ⟨next, steps, loaded, move⟩ := phase.toLoaded.stage allocates after room fits
  refine ⟨next, steps, ?_⟩
  have place := phase.shows.stage
  have programs : station.device.Programs := ⟨place, .inr phase.shows.mode, phase.shows.status⟩
  cases move with
  | detects ret path detects => cases place.symm.trans detects.1
  | connects ret isp connects => cases place.symm.trans connects
  | plain undetecting unconnecting unprogramming => exact absurd programs unprogramming
  | programs ret isp programs outcome success =>
      obtain ⟨-, awake⟩ := phase.connected (by simp [stagesAfterBoard])
      have zero : ret = 0 := success.mpr ⟨awake, phase.programmable⟩
      have switched : station.device.mainStage { io with programRet := ret } =
          { station.device with
            devStatus := .programSuccess
            stage := .modeSwitch
            log := .statusUpdated station.device.eventFlags.boardConnectedFlag .programing
              .programSuccess :: .programBinFileV1Called 0 :: station.device.log } := by
        rw [Device.mainStage_programs programs]
        simp [Device.updatePrograming, phase.shows.mode, zero, Device.emit]
      refine ⟨loaded.sound, ⟨.modeSwitch, ?_⟩, phase.opened, rfl⟩
      simp only [switched]
      exact { phase.shows with turns := by decide, stage := rfl, status := rfl }

/-- A success stays until it is confirmed. -/
theorem Device.Shows.stays {place : Stage} {device : Device}
    (shows : device.Shows place .programSuccess start) (io : MainIO) :
    ∃ next, (device.mainStage io).Shows next .programSuccess start := by
  by_cases early : place = .statusUpdate
  · subst early
    have updates : device.guardedStatusUpdate io.programRet =
        device.updateDeviceStatus io.programRet := if_pos (.inr shows.mode)
    have same : device.switchDevStatus io.programRet = device := by
      unfold switchDevStatus updateProgramResult
      rw [shows.status]
      dsimp only
      rw [shows.unreset, if_neg (by decide)]
    refine ⟨.modeSwitch, ?_⟩
    simp only [mainStage, shows.stage, updates, updateDeviceStatus, same]
    exact { shows with turns := by decide, stage := rfl }
  · exact ⟨_, shows.early early io⟩

theorem Station.Programmed.stage (allocates : Allocates malloc) (after : UInt8)
    (room : behind ≠ []) (programmed : station.Programmed board file)
    (fits : io.DeliversFitting) :
    ∃ next, station.step peer malloc after behind (.device (.main io)) = .ok next ∧
      next.Programmed board file := by
  obtain ⟨place, shows⟩ := programmed.shows
  obtain ⟨next, steps, move⟩ := station.mainStage_moves allocates after room programmed.sound io
  have sound := move.sound programmed.sound fits
  refine ⟨next, steps, ?_⟩
  cases move with
  | detects => exact ⟨sound, shows.stays _, programmed.opened, programmed.kept⟩
  | connects => exact ⟨sound, shows.stays _, programmed.opened, programmed.kept⟩
  | programs ret isp programs => cases shows.status.symm.trans programs.2.2
  | plain => exact ⟨sound, shows.stays _, programmed.opened, programmed.kept⟩

end Turn

/-! ### Waiting -/

/-- From pressing `SW3` until the board is shown as connected, so many stages pass
at most. -/
inductive Station.Connecting (board : Synchronizing peer) (entry : DirEntry) (file : BinFile) :
    Nat → Station σ → Prop
  | switching {left : Nat} {station : Station σ}
      (pending : station.Pending board entry file left) :
      Connecting board entry file (left + 10) station
  | fileless {place : Stage} {station : Station σ}
      (phase : station.Phase board entry file place .binNotFound false) :
      Connecting board entry file (place.untilUpdated + 5) station
  | boardless {place : Stage} {station : Station σ}
      (phase : station.Phase board entry file place .disconnected false) :
      Connecting board entry file place.untilUpdated station
  | connected {place : Stage} {station : Station σ}
      (phase : station.Phase board entry file place .connected false) :
      Connecting board entry file 0 station

/-- From pressing `SW2` until the file is in the board, so many stages pass. -/
inductive Station.Programming (board : Synchronizing peer) (entry : DirEntry) (file : BinFile) :
    Nat → Station σ → Prop
  | requested {place : Stage} {station : Station σ}
      (phase : station.Phase board entry file place .connected true) :
      Programming board entry file (place.untilUpdated + 5) station
  | taken {place : Stage} {station : Station σ}
      (phase : station.Phase board entry file place .programing false) :
      Programming board entry file place.untilUpdated station
  | programmed {station : Station σ} (programmed : station.Programmed board file) :
      Programming board entry file 0 station

/-- What ticks keep and every stage brings nearer is counted down by waiting. -/
theorem Station.countsDown {Left : Nat → Station σ → Prop}
    (ticks : ∀ left station, Left left station →
      Left left { station with device := station.device.sysTick })
    (stages : ∀ left station io, Left left station → io.DeliversFitting →
      ∃ next, station.step peer malloc after behind (.device (.main io)) = .ok next ∧
        Left (left - 1) next) :
    CountsDown (Station.step peer malloc after behind) StationAction.Waits StationAction.isStage
      Left := by
  intro left station action holds waits
  cases action with
  | changeBoard slot => exact waits.elim
  | changeCard card => exact waits.elim
  | device action =>
      cases action with
      | press button => exact waits.elim
      | tick => exact ⟨_, rfl, ticks left station holds⟩
      | main io => exact stages left station io holds waits

theorem Station.Loading.countsDown (allocates : Allocates malloc) (after : UInt8)
    (room : behind ≠ []) (mode : Mode) :
    CountsDown (Station.step peer malloc after behind) StationAction.Waits StationAction.isStage
      (fun _ station => station.Loading board entry file mode) := by
  apply Station.countsDown
  · intro left station loading
    exact loading.tick
  · intro left station io loading fits
    exact loading.stage allocates after room fits

/-- A stage of a turn, the last of which updates the status, and the turns that
come after it. -/
theorem Station.Phase.advances (allocates : Allocates malloc) (after : UInt8) (room : behind ≠ [])
    (Left : Nat → Station σ → Prop) (turns : Nat) {place : Stage} {status : DevStatus}
    {start : Bool} {station : Station σ} (phase : station.Phase board entry file place status start)
    {io : MainIO} (fits : io.DeliversFitting)
    (within : ∀ place (next : Station σ), next.Phase board entry file place status start →
      Left (place.untilUpdated + turns) next)
    (updates : station.Phase board entry file .statusUpdate status start →
      ∃ next, station.step peer malloc after behind (.device (.main io)) = .ok next ∧
        Left turns next) :
    ∃ next, station.step peer malloc after behind (.device (.main io)) = .ok next ∧
      Left (place.untilUpdated + turns - 1) next := by
  by_cases early : place = .statusUpdate
  · subst early
    rw [Stage.untilUpdated, Nat.add_sub_cancel_left]
    exact updates phase
  · obtain ⟨next, steps, moved⟩ := phase.early allocates after room early fits
    have positive := place.untilUpdated_pos
    have nearer : place.untilUpdated + turns - 1 = place.following.untilUpdated + turns := by
      rw [Stage.following_untilUpdated early]
      omega
    rw [nearer]
    exact ⟨next, steps, within _ next moved⟩

theorem Station.Connecting.countsDown (allocates : Allocates malloc) (after : UInt8)
    (room : behind ≠ []) :
    CountsDown (Station.step peer malloc after behind) StationAction.Waits StationAction.isStage
      (Station.Connecting board entry file) := by
  apply Station.countsDown
  · intro left station connecting
    cases connecting with
    | switching pending => exact .switching pending.tick
    | fileless phase => exact .fileless phase.tick
    | boardless phase => exact .boardless phase.tick
    | connected phase => exact .connected phase.tick
  intro left station io connecting fits
  cases connecting with
  | @switching left _ pending =>
      cases left with
      | zero =>
          obtain ⟨next, steps, phase⟩ := pending.finish allocates after room fits
          exact ⟨next, steps, .fileless phase⟩
      | succ left =>
          obtain ⟨next, steps, pending⟩ := pending.stage_step allocates after room fits
          exact ⟨next, steps, .switching pending⟩
  | fileless phase =>
      refine phase.advances allocates after room (Station.Connecting board entry file) 5
        fits (fun _ _ phase => .fileless phase) fun phase => ?_
      obtain ⟨next, steps, phase⟩ := phase.updates allocates after room (by simp)
        (fun device shows found _ ret => shows.binFound found ret) fits
      exact ⟨next, steps, .boardless phase⟩
  | boardless phase =>
      refine phase.advances allocates after room (Station.Connecting board entry file) 0
        fits (fun _ _ phase => .boardless phase) fun phase => ?_
      obtain ⟨next, steps, phase⟩ := phase.updates allocates after room (by simp)
        (fun device shows found connected ret => shows.boardFound found connected ret) fits
      exact ⟨next, steps, .connected phase⟩
  | connected phase =>
      refine phase.advances allocates after room (fun _ => Station.Connecting board entry file 0)
        0 fits (fun _ _ phase => .connected phase) fun phase => ?_
      obtain ⟨next, steps, phase⟩ := phase.updates allocates after room (by simp)
        (fun device shows found connected ret => shows.stillConnected found connected ret) fits
      exact ⟨next, steps, .connected phase⟩

theorem Station.Programmed.tick {station : Station σ} (programmed : station.Programmed board file) :
    ({ station with device := station.device.sysTick } : Station σ).Programmed board file := by
  obtain ⟨uid, reports⟩ := programmed.sound.device .tick trivial trivial
  obtain ⟨place, shows⟩ := programmed.shows
  exact ⟨⟨programmed.sound.settled, uid, programmed.sound.named, programmed.sound.plain,
    reports⟩, ⟨place, shows.tick⟩, programmed.opened, programmed.kept⟩

theorem Station.Programming.countsDown (allocates : Allocates malloc) (after : UInt8)
    (room : behind ≠ []) :
    CountsDown (Station.step peer malloc after behind) StationAction.Waits StationAction.isStage
      (Station.Programming board entry file) := by
  apply Station.countsDown
  · intro left station programming
    cases programming with
    | requested phase => exact .requested phase.tick
    | taken phase => exact .taken phase.tick
    | programmed programmed => exact .programmed programmed.tick
  intro left station io programming fits
  cases programming with
  | requested phase =>
      refine phase.advances allocates after room (Station.Programming board entry file) 5
        fits (fun _ _ phase => .requested phase) fun phase => ?_
      obtain ⟨next, steps, phase⟩ := phase.updates allocates after room (by simp)
        (fun device shows found connected ret => shows.startTaken found connected ret) fits
      exact ⟨next, steps, .taken phase⟩
  | taken phase =>
      refine phase.advances allocates after room (Station.Programming board entry file) 0
        fits (fun _ _ phase => .taken phase) fun phase => ?_
      obtain ⟨next, steps, programmed⟩ := phase.programs allocates after room fits
      exact ⟨next, steps, .programmed programmed⟩
  | programmed programmed =>
      obtain ⟨next, steps, programmed⟩ := programmed.stage allocates after room fits
      exact ⟨next, steps, .programmed programmed⟩

/-! ### The schedule -/

theorem Station.step_give (button : Button) (station : Station σ) :
    station.step peer malloc after behind (.give button) =
      .ok { station with device := button.release station.device } :=
  rfl

/-- `SW2` asks for the programming of a board that is shown as connected. -/
theorem Station.Phase.press {place : Stage} {station : Station σ} {start : Bool}
    (phase : station.Phase board entry file place .connected start) :
    ({ station with device := Button.sw2.release station.device } : Station σ).Phase board entry
      file place .connected true := by
  have released : Button.sw2.release station.device =
      { station.device with
        eventFlags.startProgramFlag := true
        log := .startRequested :: station.device.log } := by
    simp [Button.release, Device.sw2Release, phase.shows.mode, phase.shows.status, Device.emit]
  refine { phase.toLoaded.press .sw2 with shows := ?_, found := ?_, connected := ?_ }
  · simp only [released]
    exact { phase.shows with start := rfl }
  · simp only [released]
    exact phase.found
  · simp only [released]
    exact phase.connected

/-- When nothing is left to wait for, the board is shown as connected. -/
theorem Station.Connecting.phase {station : Station σ}
    (connecting : station.Connecting board entry file 0) :
    ∃ place, station.Phase board entry file place .connected false := by
  generalize none : 0 = left at connecting
  cases connecting with
  | switching pending => omega
  | fileless phase => omega
  | @boardless place _ phase =>
      have positive := place.untilUpdated_pos
      omega
  | connected phase => exact ⟨_, phase⟩

theorem Station.Programming.done {station : Station σ}
    (programming : station.Programming board entry file 0) : station.Programmed board file := by
  generalize none : 0 = left at programming
  cases programming with
  | requested phase => omega
  | @taken place _ phase =>
      have positive := place.untilUpdated_pos
      omega
  | programmed programmed => exact programmed

/-- `SW3` in `MODE_PROGRAM_CODE`. -/
theorem Station.Loading.press {station : Station σ}
    (loading : station.Loading board entry file .programCode) :
    ({ station with device := Button.sw3.release station.device } : Station σ).Loading board entry
      file .programUID where
  toLoaded := loading.toLoaded.press .sw3
  mode := by
    simp only [Button.release, Device.sw3Release, loading.mode, Device.emit, Device.otherMode]

/-- `SW3` in `MODE_PROGRAM_UID`. -/
theorem Station.Loading.switches {station : Station σ}
    (loading : station.Loading board entry file .programUID) :
    ({ station with device := Button.sw3.release station.device } : Station σ).Pending board entry
      file station.device.stage.beforeSwitch where
  toLoaded := loading.toLoaded.press .sw3
  mode := by
    simp only [Button.release, Device.sw3Release, loading.mode, Device.emit, Device.otherMode]
  pending := rfl
  stage := rfl

/-- The presses lead from a loaded station to a programmed board. -/
theorem Station.leads_programmed (allocates : Allocates malloc) (after : UInt8)
    (room : behind ≠ []) (mode : Mode) :
    Leads (Station.step peer malloc after behind) StationAction.give StationAction.Waits
      StationAction.isStage (recoverySchedule mode) (Station.Loading board entry file mode)
      (Station.Programming board entry file 0) := by
  have fromConnected : Leads (Station.step peer malloc after behind) StationAction.give
      StationAction.Waits StationAction.isStage [(.sw2, 10)] (Station.Connecting board entry file 0)
      (Station.Programming board entry file 0) := by
    refine .cons (Station.Programming.countsDown allocates after room) ?_ .nil
    intro station connecting
    obtain ⟨place, phase⟩ := connecting.phase
    have soon := place.untilUpdated_le
    exact ⟨_, place.untilUpdated + 5, rfl, by omega, .requested phase.press⟩
  have fromUid : Leads (Station.step peer malloc after behind) StationAction.give
      StationAction.Waits StationAction.isStage [(.sw3, 15), (.sw2, 10)]
      (Station.Loading board entry file .programUID) (Station.Programming board entry file 0) := by
    refine .cons (Station.Connecting.countsDown allocates after room) ?_ fromConnected
    intro station loading
    have soon := station.device.stage.beforeSwitch_le
    exact ⟨_, station.device.stage.beforeSwitch + 10, rfl, by omega, .switching loading.switches⟩
  cases mode with
  | programUID => exact fromUid
  | programCode =>
      refine .cons (Station.Loading.countsDown allocates after room .programUID) ?_ fromUid
      intro station loading
      exact ⟨_, 0, rfl, Nat.le_refl 0, loading.press⟩

/-- The last stage before the board is shown as connected. -/
theorem Station.Connecting.last {station : Station σ}
    (connecting : station.Connecting board entry file 1) :
    station.Phase board entry file .statusUpdate .disconnected false := by
  generalize one : 1 = left at connecting
  cases connecting with
  | switching pending => omega
  | fileless phase => omega
  | @boardless place _ phase =>
      obtain rfl := Stage.eq_statusUpdate one.symm
      exact phase
  | connected phase => omega

/-- The last stage before the file is in the board. -/
theorem Station.Programming.last {station : Station σ}
    (programming : station.Programming board entry file 1) :
    station.Phase board entry file .statusUpdate .programing false := by
  generalize one : 1 = left at programming
  cases programming with
  | @requested place _ phase =>
      have positive := place.untilUpdated_pos
      omega
  | @taken place _ phase =>
      obtain rfl := Stage.eq_statusUpdate one.symm
      exact phase
  | programmed programmed => omega

end Recovery

end OnlineProgram
