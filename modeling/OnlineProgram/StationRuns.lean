import OnlineProgram.BootedTarget
import OnlineProgram.Station

/-!
# Runs of the station

What every order of stages, presses, ticks and changes by the operator leaves
true: no function reads or writes beyond its memory, and a success that is shown
is one that the board holds.
-/

namespace OnlineProgram

open ByteStrings CMemory SerialLink

/-- The paths of the files fit the array. -/
def Card.Plain (card : Card) : Prop :=
  ∀ dir entries, card.opendir dir = some entries →
    ∀ entry ∈ entries, entry.Fits ∧ 47 ∉ entry.name

/-- The file that `detectFile` takes. -/
def Card.chosen (card : Card) : Option DirEntry :=
  firstContaining binFileType ((card.opendir sdRootDirectory).getD [])

section Detection

variable {card : Card} {path : CArray filePathSize}

theorem DirEntry.slash_mem_path (entry : DirEntry) : 47 ∈ entry.path := by
  have inFront : 47 ∈ ascii "/sd/" := by decide
  exact List.mem_append_left _ inFront

theorem detectFile_plain (plain : card.Plain) {text : Bytes}
    (isPath : cString path.bytes = .ok text) (named : text = [] ∨ 47 ∈ text) :
    ∃ ret found, detectFile card.opendir (some sdRootDirectory) (some binFileType) (some path) =
        .ok (ret, some found) ∧ (ret = 0 ↔ card.chosen.isSome) ∧
      (card.chosen = none → found = path) ∧
      ∀ entry ∈ card.chosen, cString found.bytes = .ok entry.path := by
  have nonempty : binFileType ≠ [] := by decide
  have nonzero : (0 : UInt8) ∉ binFileType := by decide
  simp only [detectFile, Card.chosen]
  cases listing : card.opendir sdRootDirectory with
  | none => exact ⟨-2, path, rfl, by simp [firstContaining], fun _ => rfl,
      by simp [firstContaining]⟩
  | some entries =>
      simp only [Option.getD_some]
      rw [detectLoop_eq nonempty nonzero]
      cases first : firstContaining binFileType entries with
      | none => exact ⟨-3, path, rfl, by simp, fun _ => rfl, by simp⟩
      | some entry =>
          obtain ⟨fits, flat⟩ := plain _ _ listing entry (List.mem_of_find?_eq_some first)
          have inside : binFileType <:+: entry.name := by
            simpa using List.find?_some first
          have fresh : cString path.bytes ≠ .ok entry.name := by
            intro held
            obtain rfl : text = entry.name := Except.ok.inj (isPath.symm.trans held)
            rcases named with empty | slash
            · rw [empty] at inside
              exact nonempty (List.infix_nil.mp inside)
            · exact flat slash
          obtain ⟨found, taken, foundIs⟩ := takeEntry_fits fresh fits
          refine ⟨0, found, by simp only [taken, Except.map], by simp, by simp, ?_⟩
          rintro _ ⟨⟩
          exact foundIs

end Detection

section Runs

variable {σ : Type} {peer : Peer σ} {malloc : Nat → Option Bytes} {board : Synchronizing peer}
  {after : UInt8} {behind : Bytes}

/-- What the operator puts into the fixture is a board that the ROM of the
target is on, the names on the cards fit, and so do the UIDs of the server. -/
def StationAction.Fits (board : Synchronizing peer) : StationAction σ → Prop
  | .device (.main io) => io.DeliversFitting
  | .device (.press _) => True
  | .device .tick => True
  | .changeBoard slot => board.Slot slot
  | .changeCard card => card.Plain

theorem StationAction.delivers {action : Action}
    (fits : (StationAction.device action : StationAction σ).Fits board) :
    ∀ io, action = .main io → io.DeliversFitting := by
  rintro io rfl
  exact fits

/-- The invariant of the station. -/
structure Station.Sound (board : Synchronizing peer) (station : Station σ) : Prop where
  settled : board.Settled station.isp
  fits : station.device.UidFits
  named : station.Named
  plain : station.card.Plain
  reports : station.replaced = false →
    station.device.Reports station.opened (board.flash station.isp.target)

/-- The stage in which a programming routine has returned. -/
theorem Device.mainStage_programs {device : Device} (programs : device.Programs) (io : MainIO) :
    device.mainStage io =
      { device.updatePrograming io.programRet with
        stage := .modeSwitch
        log := .statusUpdated device.eventFlags.boardConnectedFlag .programing
          (device.updatePrograming io.programRet).devStatus ::
            (device.updatePrograming io.programRet).log } := by
  obtain ⟨stage, guard, status⟩ := programs
  have updates : device.guardedStatusUpdate io.programRet =
      device.updateDeviceStatus io.programRet := if_pos guard
  unfold mainStage
  simp only [stage]
  rw [updates, updateDeviceStatus, switchDevStatus, status]
  rfl

theorem Device.Reports.of_programmed {device : Device} (programs : device.Programs) {io : MainIO}
    {file : Option BinFile} {flash : Option (Nat → UInt8)}
    (stored : io.programRet = 0 → ∃ contents, flash = some contents ∧
      (device.deviceMode = .programCode → HoldsFile file contents) ∧
      (device.deviceMode = .programUID → HoldsId (some device.uid) contents)) :
    (device.mainStage io).Reports file flash := by
  rw [mainStage_programs programs]
  unfold updatePrograming
  cases mode : device.deviceMode with
  | programCode =>
      by_cases zero : io.programRet = 0
      · intro _ _
        obtain ⟨contents, held, code, -⟩ := stored zero
        refine ⟨contents, held, fun _ => code mode, fun other => ?_⟩
        simp [zero, emit, mode] at other
      · refine .of_status ?_
        simp [zero]
  | programUID =>
      by_cases zero : io.programRet = 0
      · intro _ _
        obtain ⟨contents, held, -, id⟩ := stored zero
        refine ⟨contents, held, fun other => ?_, fun _ => ?_⟩
        · simp [zero, emit, mode] at other
        · simp only [zero, emit]
          exact id mode
      · refine .of_status ?_
        simp [zero]

/-- The parts of the invariant that a step of the device concerns. -/
theorem Station.Sound.device {station : Station σ} (sound : station.Sound board)
    (action : Action) (fits : (StationAction.device action : StationAction σ).Fits board)
    (unprogramming : station.device.Unprogramming action) :
    (OnlineProgram.step action station.device).UidFits ∧
      (station.replaced = false →
        (OnlineProgram.step action station.device).Reports station.opened
          (board.flash station.isp.target)) :=
  ⟨sound.fits.step action (StationAction.delivers fits),
    fun kept => (sound.reports kept).step unprogramming⟩

/-- The call of the programming routine, whatever is in the fixture. -/
theorem Station.program_outcome (allocates : Allocates malloc) (after : UInt8)
    (room : behind ≠ []) {station : Station σ} (sound : station.Sound board) :
    ∃ ret isp, station.program peer malloc after behind = .ok (ret, isp) ∧
      station.Outcome board ret isp ∧
      (ret = 0 ↔ Holding board.idle station.isp.target ∧ station.Programmable) := by
  rcases sound.settled.slot with unready | awake
  · obtain ⟨ret, isp, runs, outcome, negative⟩ := station.program_unready malloc after behind
      sound.named unready sound.settled.quiet sound.fits
    refine ⟨ret, isp, runs, outcome, ?_⟩
    constructor
    · intro zero
      omega
    · rintro ⟨awake, -⟩
      exact absurd awake (board.not_awake_of_unready unready)
  · obtain ⟨ret, isp, runs, outcome, success⟩ := station.program_awake allocates after room
      sound.named awake sound.settled.quiet sound.fits
    exact ⟨ret, isp, runs, outcome, by rw [success, and_iff_right awake]⟩

/-- What one stage of the main thread does to the station. -/
inductive Station.StageMove (board : Synchronizing peer) (io : MainIO) (station : Station σ) :
    Station σ → Prop
  | detects (ret : Int) (path : CArray filePathSize) (detects : station.device.Detects)
      (found : ret = 0 ↔ station.card.chosen.isSome)
      (unfound : station.card.chosen = none → path = station.binFilePath)
      (isPath : ∀ entry ∈ station.card.chosen, cString path.bytes = .ok entry.path) :
      StageMove board io station
        { station with
          device := station.device.mainStage { io with detectFile := ret }
          binFilePath := path }
  | connects (ret : RetCode) (isp : Isp (Option σ))
      (connects : station.device.stage = .boardDetection) (settled : board.Settled isp)
      (flash : board.flash isp.target = board.flash station.isp.target)
      (present : ret = .success ↔ station.isp.target ≠ none)
      (awake : station.isp.target ≠ none → Holding board.idle isp.target) :
      StageMove board io station
        { station with
          device := station.device.mainStage { io with detectConnectStatus := ret.value }
          isp }
  | programs (ret : Int) (isp : Isp (Option σ)) (programs : station.device.Programs)
      (outcome : station.Outcome board ret isp)
      (success : ret = 0 ↔ Holding board.idle station.isp.target ∧ station.Programmable) :
      StageMove board io station
        { station with
          device := station.device.mainStage { io with programRet := ret }
          isp
          opened := station.openedFile
          replaced := false }
  | plain (undetecting : ¬ station.device.Detects)
      (unconnecting : station.device.stage ≠ .boardDetection)
      (unprogramming : ¬ station.device.Programs) :
      StageMove board io station { station with device := station.device.mainStage io }

/-- A stage ends without a fault. -/
theorem Station.mainStage_moves (allocates : Allocates malloc) (after : UInt8)
    (room : behind ≠ []) {station : Station σ} (sound : station.Sound board) (io : MainIO) :
    ∃ next, station.mainStage peer malloc after behind io = .ok next ∧
      station.StageMove board io next := by
  unfold Station.mainStage
  by_cases detects : station.device.Detects
  · rw [if_pos detects]
    obtain ⟨text, isText, named⟩ := sound.named
    obtain ⟨ret, found, runs, zero, absent, isPath⟩ := detectFile_plain sound.plain isText named
    rw [runs]
    exact ⟨_, rfl, .detects ret found detects zero absent isPath⟩
  rw [if_neg detects]
  by_cases connects : station.device.stage = .boardDetection
  · rw [if_pos connects]
    obtain ⟨ret, isp, syncs, settled, flash, present, awake⟩ :=
      ispSyncBaudRate_settled sound.settled
    rw [syncs]
    exact ⟨_, rfl, .connects ret isp connects settled flash present awake⟩
  rw [if_neg connects]
  by_cases programs : station.device.Programs
  · rw [if_pos programs]
    obtain ⟨ret, isp, runs, outcome, success⟩ :=
      station.program_outcome allocates after room sound
    rw [runs]
    exact ⟨_, rfl, .programs ret isp programs outcome success⟩
  · rw [if_neg programs]
    exact ⟨_, rfl, .plain detects connects programs⟩

/-- A stage keeps the invariant. -/
theorem Station.StageMove.sound {io : MainIO} {station next : Station σ}
    (move : station.StageMove board io next) (sound : station.Sound board)
    (fits : io.DeliversFitting) : next.Sound board := by
  cases move with
  | detects ret path detects found unfound isPath =>
      have quiet : ¬ station.device.Programs := fun programs =>
        nomatch detects.1.symm.trans programs.1
      obtain ⟨uid, reports⟩ := sound.device (.main { io with detectFile := ret }) fits
        (.of_main _ quiet)
      refine ⟨sound.settled, uid, ?_, sound.plain, reports⟩
      cases chosen : station.card.chosen with
      | none =>
          rw [unfound chosen]
          exact sound.named
      | some entry => exact ⟨entry.path, isPath entry chosen, .inr entry.slash_mem_path⟩
  | connects ret isp connects settled flash present awake =>
      have quiet : ¬ station.device.Programs := fun programs =>
        nomatch connects.symm.trans programs.1
      obtain ⟨uid, reports⟩ := sound.device (.main { io with detectConnectStatus := ret.value })
        fits (.of_main _ quiet)
      rw [← flash] at reports
      exact ⟨settled, uid, sound.named, sound.plain, reports⟩
  | programs ret isp programs outcome success =>
      refine ⟨outcome.settled, ?_, sound.named, sound.plain, fun _ => ?_⟩
      · refine sound.fits.step (.main { io with programRet := ret }) ?_
        rintro _ ⟨⟩
        exact fits
      · exact .of_programmed programs outcome.stored
  | plain undetecting unconnecting unprogramming =>
      obtain ⟨uid, reports⟩ := sound.device (.main io) fits (.of_main io unprogramming)
      exact ⟨sound.settled, uid, sound.named, sound.plain, reports⟩

/-- One step of the station. -/
theorem Station.step_sound (allocates : Allocates malloc) (after : UInt8) (room : behind ≠ [])
    (station : Station σ) (action : StationAction σ) (sound : station.Sound board)
    (fits : action.Fits board) :
    ∃ next, station.step peer malloc after behind action = .ok next ∧ next.Sound board := by
  have quiet (action : Action) (fits : (StationAction.device action : StationAction σ).Fits board)
      (unprogramming : station.device.Unprogramming action) :
      ({ station with device := OnlineProgram.step action station.device } :
        Station σ).Sound board := by
    obtain ⟨uid, reports⟩ := sound.device action fits unprogramming
    exact ⟨sound.settled, uid, sound.named, sound.plain, reports⟩
  cases action with
  | changeBoard slot =>
      exact ⟨_, rfl, ⟨sound.settled.quiet, fits⟩, sound.fits, sound.named, sound.plain,
        fun kept => nomatch kept⟩
  | changeCard card =>
      exact ⟨_, rfl, sound.settled, sound.fits, sound.named, fits, sound.reports⟩
  | device action =>
      cases action with
      | press button => exact ⟨_, rfl, quiet (.press button) trivial trivial⟩
      | tick => exact ⟨_, rfl, quiet .tick trivial trivial⟩
      | main io =>
          obtain ⟨next, runs, move⟩ := station.mainStage_moves allocates after room sound io
          exact ⟨next, runs, move.sound sound fits⟩

/-- A step of the station is a step of the device, or none. -/
theorem Station.step_device {station next : Station σ} {action : StationAction σ}
    (steps : station.step peer malloc after behind action = .ok next) :
    ∃ actions, next.device =
      TransitionRuns.run OnlineProgram.step actions station.device := by
  have one {next : Station σ} (action : Action)
      (same : next.device = OnlineProgram.step action station.device) :
      ∃ actions, next.device = TransitionRuns.run OnlineProgram.step actions station.device :=
    ⟨[action], same⟩
  cases action with
  | changeBoard slot =>
      obtain rfl := Except.ok.inj steps
      exact ⟨[], rfl⟩
  | changeCard card =>
      obtain rfl := Except.ok.inj steps
      exact ⟨[], rfl⟩
  | device action =>
      cases action with
      | press button =>
          obtain rfl := Except.ok.inj steps
          exact one (.press button) rfl
      | tick =>
          obtain rfl := Except.ok.inj steps
          exact one .tick rfl
      | main io =>
          change station.mainStage peer malloc after behind io = .ok next at steps
          unfold Station.mainStage at steps
          split at steps
          · obtain ⟨⟨ret, path⟩, -, ends⟩ := FaultingRuns.steps_of_bind_eq_ok steps
            obtain rfl := Except.ok.inj ends
            exact one (.main { io with detectFile := ret }) rfl
          · split at steps
            · obtain ⟨⟨ret, isp⟩, -, ends⟩ := FaultingRuns.steps_of_bind_eq_ok steps
              obtain rfl := Except.ok.inj ends
              exact one (.main { io with detectConnectStatus := ret.value }) rfl
            · split at steps
              · obtain ⟨⟨ret, isp⟩, -, ends⟩ := FaultingRuns.steps_of_bind_eq_ok steps
                obtain rfl := Except.ok.inj ends
                exact one (.main { io with programRet := ret }) rfl
              · obtain rfl := Except.ok.inj steps
                exact one (.main io) rfl

/-- As far as the device goes, a run of the station is one of the device alone. -/
theorem Station.run_device {start final : Station σ} {actions : List (StationAction σ)}
    (runs : start.run peer malloc after behind actions = .ok final) :
    ∃ deviceActions, final.device =
      TransitionRuns.run OnlineProgram.step deviceActions start.device :=
  FaultingRuns.run_projects Station.device (fun _ _ _ steps => Station.step_device steps) runs

/-- The station when the threads start. -/
structure Station.Starts (board : Synchronizing peer) (station : Station σ) : Prop where
  device : ∃ mac presses, station.device = startState mac presses
  settled : board.Settled station.isp
  plain : station.card.Plain
  path : station.binFilePath = .zeroed filePathSize

theorem startState_blank (mac : Bytes) (presses : List Button) :
    (startState mac presses).uid = [] ∧ (startState mac presses).devStatus ≠ .programSuccess := by
  refine startState_induction (fun device => device.uid = [])
    (fun device => device.uid = [] ∧ device.devStatus ≠ .programSuccess) rfl
    (fun _ booting => booting) ?_ presses
  intro device booting
  refine ⟨booting, ?_⟩
  unfold Device.prepareThreads
  dsimp only
  split
  · simp
  · simp

theorem Station.Starts.sound {station : Station σ} (starts : station.Starts board) :
    station.Sound board := by
  obtain ⟨mac, presses, isStart⟩ := starts.device
  obtain ⟨blank, unsuccessful⟩ := startState_blank mac presses
  refine ⟨starts.settled, ?_, ⟨[], ?_, .inl rfl⟩, starts.plain, fun _ => ?_⟩
  · rw [Device.UidFits, isStart, blank]
    exact Nat.zero_le _
  · rw [starts.path]
    rfl
  · rw [isStart]
    exact .of_status unsuccessful

/-- Every run is free of faults and keeps the invariant. -/
theorem Station.run_sound (allocates : Allocates malloc) (after : UInt8) (room : behind ≠ [])
    {start : Station σ} (starts : start.Starts board) {actions : List (StationAction σ)}
    (fits : ∀ action ∈ actions, action.Fits board) :
    ∃ final, start.run peer malloc after behind actions = .ok final ∧ final.Sound board :=
  FaultingRuns.run_keeps (Station.step_sound allocates after room) fits starts.sound

end Runs

/-! ### A station with the reference board -/

def plainCard : Card :=
  { opendir := fun _ => some [binEntry], fopen := fun _ => some smallestFile }

/-- A board that has just been reset is in the fixture. -/
def freshStation : Station BootedRom :=
  { device := startState [] []
    isp :=
      { target := some { stage := .waiting, rom := Rom.initial }, incoming := [], ispRecvBuf := [] }
    card := plainCard
    binFilePath := .zeroed filePathSize
    opened := none
    replaced := false }

theorem plainCard_plain : plainCard.Plain := by
  intro dir entries listing entry member
  obtain rfl : [binEntry] = entries := Option.some.inj listing
  obtain rfl := List.mem_singleton.mp member
  exact ⟨DirEntry.fits_iff.mpr (by decide), by decide⟩

theorem freshStation_starts : freshStation.Starts (bootSynchronizing true) where
  device := ⟨[], [], rfl⟩
  settled := ⟨rfl, .inl ⟨rfl, rfl, rfl⟩⟩
  plain := plainCard_plain
  path := rfl

/-- What the outside answers when nothing arrives. -/
theorem MainIO.succeeding_fits : MainIO.DeliversFitting (.succeeding none none) := by
  intro response message
  cases message

end OnlineProgram
