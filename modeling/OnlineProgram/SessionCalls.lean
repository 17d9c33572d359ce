import OnlineProgram.ModeSessions

/-!
# The programming calls of a session

Both programming routines are reached through the status
`DEV_STATUS_PROGRAMING`, and `deviceMode` decides which of them runs.  This
file relates the status to the history of the current mode session and derives
what precedes every call that is made while no mode switch is pending.
-/

namespace OnlineProgram

open TransitionRuns EventHistory

/-- One run of `updateDeviceStatus`. -/
@[simp] def Event.isStatusUpdated : Event → Bool
  | .statusUpdated _ _ _ => true
  | _ => false

/-- The last run of `updateDeviceStatus` among these events has taken a start
request, made by `sw2` since the run before it, when the last bin-file
detection among them had succeeded. -/
def StartTaken (events : List Event) : Prop :=
  ∃ later earlier,
    events = later ++ .statusUpdated true .connected .programing :: earlier ∧
      later.any Event.isStatusUpdated = false ∧
        (since Event.isStatusUpdated earlier).any Event.isStartRequested ∧
          latest Event.binDetection earlier = some true

/-- Among these events the socket has connected, a message taken for an `AUTH`
success answer has been received on the last connection, and a UID has been
taken from a message. -/
def UidGranted (events : List Event) : Prop :=
  events.any Event.isConnected ∧
    (since Event.isConnected events).any Event.authAccepted ∧
      events.any Event.uidDelivered

/-- The same with an `AUTH` and a `GET_UID` success answer. -/
def UidAnswered (events : List Event) : Prop :=
  events.any Event.isConnected ∧
    (since Event.isConnected events).any Event.authSucceeded ∧
      events.any Event.uidSucceeded

instance (events : List Event) : Decidable (UidAnswered events) :=
  inferInstanceAs (Decidable (_ ∧ _))

theorem StartTaken.cons {events : List Event} (event : Event)
    (taken : StartTaken events) (noUpdate : event.isStatusUpdated = false) :
    StartTaken (event :: events) := by
  obtain ⟨later, earlier, rfl, last, rest⟩ := taken
  refine ⟨event :: later, earlier, rfl, ?_, rest⟩
  rw [List.any_cons, noUpdate, last]
  rfl

/-! ### What the history records -/

def SwitchRecorded (device : Device) : Prop :=
  device.eventFlags.modeSwitchFlag = switchPending device.log ∧
    device.deviceMode = sessionMode device.log

/-- In `MODE_PROGRAM_CODE` the flags and the status stand for events of the
session. -/
def CodeRecorded (device : Device) : Prop :=
  device.deviceMode = .programCode →
    (device.eventFlags.binFileExsitFlag = true →
        latest Event.binDetection (session device.log) = some true) ∧
      (device.eventFlags.startProgramFlag = true →
        (since Event.isStatusUpdated (session device.log)).any
          Event.isStartRequested) ∧
      (device.devStatus = .programing → StartTaken (session device.log))

/-- In `MODE_PROGRAM_UID` the flags and the status stand for events of the
session. -/
def UidRecorded (device : Device) : Prop :=
  device.deviceMode = .programUID →
    (device.networkEvent.offlineFlag = false →
        (session device.log).any Event.isConnected) ∧
      (device.networkEvent.authorizePassFlag = true →
        (since Event.isConnected (session device.log)).any
          Event.authAccepted) ∧
      (device.eventFlags.uidAvailableFlag = true ∨
          device.devStatus = .programing →
        (session device.log).any Event.uidDelivered)

def SessionRecorded (device : Device) : Prop :=
  device.eventFlags.modeSwitchFlag = false →
    CodeRecorded device ∧ UidRecorded device

theorem SwitchRecorded.change {sends switches : Prop} {before after : Device}
    (change : Change sends switches before after) (holds : SwitchRecorded before) :
    SwitchRecorded after := by
  obtain ⟨pending, mode⟩ := holds
  cases change with
  | silent | resetRequested | boardDetected | heartbeatLost =>
      exact ⟨pending, mode⟩
  | modeSwitched =>
      exact ⟨by simp [switchPending_cons], by simp [sessionMode_cons]⟩
  | uidModeEntered | codeModeEntered =>
      exact ⟨by simp [switchPending_cons, EventFlags.cleared],
        by simp [sessionMode_cons, mode]⟩
  | startRequested | uidRequested | binDetected | connected | heartbeatSent
  | requestStarted | transmitted =>
      exact ⟨by simp [switchPending_cons, pending],
        by simp [sessionMode_cons, mode]⟩

theorem SwitchRecorded.sw3Release {device : Device}
    (holds : SwitchRecorded device) : SwitchRecorded device.sw3Release := by
  have switched : Change True True device device.sw3Release :=
    .modeSwitched trivial
  exact holds.change switched

theorem SwitchRecorded.startState (mac : Bytes) (presses : List Button) :
    SwitchRecorded (startState mac presses) :=
  startState_induction SwitchRecorded SwitchRecorded ⟨rfl, rfl⟩
    (fun _ booting => booting.sw3Release) (fun _ booting => booting) presses

theorem SwitchRecorded.handleResponse {device : Device} (response : Response)
    (answers : Option Nat) (holds : SwitchRecorded device) :
    SwitchRecorded (device.handleResponse response answers) := by
  rw [Device.handleResponse_eq]
  exact ⟨by simp [switchPending_cons, holds.1],
    by simp [sessionMode_cons, holds.2]⟩

theorem SwitchRecorded.statusMove {ret : Int} {before after : Device}
    (move : Device.StatusMove ret before after) (holds : SwitchRecorded before)
    (board : Bool) (first second : DevStatus) :
    SwitchRecorded (after.emit (.statusUpdated board first second)) := by
  obtain ⟨pending, mode⟩ := holds
  cases move <;>
    exact ⟨by simp [Device.emit, switchPending_cons, pending],
      by simp [Device.emit, sessionMode_cons, mode]⟩

/-- `CodeRecorded` survives an event that is no mode switch, no detection and
no run of `updateDeviceStatus`, when no flag is raised. -/
theorem CodeRecorded.of_quiet {before after : Device} (event : Event)
    (holds : CodeRecorded before) (mode : after.deviceMode = before.deviceMode)
    (bin : after.eventFlags.binFileExsitFlag =
      before.eventFlags.binFileExsitFlag)
    (start : after.eventFlags.startProgramFlag = true →
      before.eventFlags.startProgramFlag = true)
    (status : after.devStatus = .programing → before.devStatus = .programing)
    (log : after.log = event :: before.log)
    (noSwitch : event.isModeSwitched = false)
    (noDetection : event.binDetection = none)
    (noUpdate : event.isStatusUpdated = false) : CodeRecorded after := by
  intro code
  rw [mode] at code
  obtain ⟨found, started, taken⟩ := holds code
  rw [log, session_cons, noSwitch]
  simp only [Bool.false_eq_true, if_false]
  refine ⟨fun binNow => ?_, fun startNow => ?_, fun statusNow => ?_⟩
  · rw [bin] at binNow
    rw [latest_cons, noDetection, Option.none_or]
    exact found binNow
  · rw [since_cons, noUpdate]
    simpa using Or.inr (started (start startNow))
  · exact (taken (status statusNow)).cons event noUpdate

/-- `CodeRecorded` survives a run of `updateDeviceStatus` that leaves no start
request behind. -/
theorem CodeRecorded.of_update {before after : Device} (event : Event)
    (holds : CodeRecorded before) (mode : after.deviceMode = before.deviceMode)
    (bin : after.eventFlags.binFileExsitFlag =
      before.eventFlags.binFileExsitFlag)
    (start : after.eventFlags.startProgramFlag = false)
    (status : after.devStatus ≠ .programing)
    (log : after.log = event :: before.log)
    (noSwitch : event.isModeSwitched = false)
    (noDetection : event.binDetection = none) : CodeRecorded after := by
  intro code
  rw [mode] at code
  obtain ⟨found, -, -⟩ := holds code
  rw [log, session_cons, noSwitch]
  simp only [Bool.false_eq_true, if_false]
  refine ⟨fun binNow => ?_, fun startNow => ?_, fun statusNow => absurd statusNow status⟩
  · rw [bin] at binNow
    rw [latest_cons, noDetection, Option.none_or]
    exact found binNow
  · exact absurd (start.symm.trans startNow) Bool.false_ne_true

/-- `UidRecorded` survives an event that is neither a mode switch nor a
connect, when no flag is raised. -/
theorem UidRecorded.of_quiet {before after : Device} (event : Event)
    (holds : UidRecorded before) (mode : after.deviceMode = before.deviceMode)
    (online : after.networkEvent.offlineFlag = false →
      before.networkEvent.offlineFlag = false)
    (passed : after.networkEvent.authorizePassFlag = true →
      before.networkEvent.authorizePassFlag = true)
    (uid : after.eventFlags.uidAvailableFlag = true ∨
        after.devStatus = .programing →
      before.eventFlags.uidAvailableFlag = true ∨
        before.devStatus = .programing)
    (log : after.log = event :: before.log)
    (noSwitch : event.isModeSwitched = false)
    (noConnect : event.isConnected = false) : UidRecorded after := by
  intro uidMode
  rw [mode] at uidMode
  obtain ⟨connected, authorised, delivered⟩ := holds uidMode
  rw [log, session_cons, noSwitch]
  refine ⟨fun onlineNow => ?_, fun passedNow => ?_, fun uidNow => ?_⟩
  · simpa using Or.inr (connected (online onlineNow))
  · have earlier := authorised (passed passedNow)
    simp only [Bool.false_eq_true, if_false]
    rw [since_cons, noConnect]
    simpa using Or.inr earlier
  · simpa using Or.inr (delivered (uid uidNow))

theorem SessionRecorded.change {sends switches : Prop} {before after : Device}
    (change : Change sends switches before after) (consistent : FlagsConsistent before)
    (holds : SessionRecorded before) : SessionRecorded after := by
  intro settled
  cases change with
  | silent => exact holds settled
  | startRequested mode =>
      obtain ⟨code, uid⟩ := holds settled
      refine ⟨fun _ => ?_, fun uidMode => by simp [mode] at uidMode⟩
      obtain ⟨found, -, taken⟩ := code mode
      refine ⟨fun binNow => ?_, fun _ => ?_, fun status => ?_⟩
      · simpa [session_cons, latest_cons] using found binNow
      · simp [session_cons, since_cons]
      · exact (taken status).cons _ rfl
  | uidRequested =>
      obtain ⟨code, uid⟩ := holds settled
      exact ⟨code.of_quiet _ rfl rfl id id rfl rfl rfl rfl,
        uid.of_quiet _ rfl id id id rfl rfl rfl⟩
  | resetRequested => exact holds settled
  | modeSwitched => simp at settled
  | uidModeEntered _ mode =>
      refine ⟨fun code => by simp [mode] at code, fun _ => ?_⟩
      refine ⟨fun online => ?_, fun passed => ?_, fun uid => ?_⟩
      · simp [NetworkEvent.initial] at online
      · simp [NetworkEvent.initial] at passed
      · simp [EventFlags.cleared] at uid
  | codeModeEntered _ mode =>
      refine ⟨fun _ => ?_, fun uid => by simp [mode] at uid⟩
      refine ⟨fun bin => ?_, fun start => ?_, fun status => ?_⟩
      · simp [EventFlags.cleared] at bin
      · simp [EventFlags.cleared] at start
      · simp at status
  | binDetected found mode =>
      obtain ⟨code, -⟩ := holds settled
      refine ⟨fun _ => ?_, fun uidMode => by simp [mode] at uidMode⟩
      obtain ⟨-, started, taken⟩ := code mode
      refine ⟨fun binNow => ?_, fun startNow => ?_, fun status => ?_⟩
      · have foundNow : found = true := binNow
        simp [session_cons, latest_cons, foundNow]
      · simpa [session_cons, since_cons] using started startNow
      · exact (taken status).cons _ rfl
  | boardDetected => exact holds settled
  | connected offline =>
      obtain ⟨code, uid⟩ := holds settled
      refine ⟨code.of_quiet _ rfl rfl id id rfl rfl rfl rfl, fun mode => ?_⟩
      obtain ⟨-, authorised, delivered⟩ := uid mode
      refine ⟨fun _ => ?_, fun passed => ?_, fun uidNow => ?_⟩
      · simp [session_cons]
      · obtain ⟨-, -, uidConsistent, -⟩ := consistent settled
        have online := (uidConsistent mode).2 passed
        simp [offline] at online
      · simpa [session_cons] using delivered uidNow
  | heartbeatSent =>
      obtain ⟨code, uid⟩ := holds settled
      exact ⟨code.of_quiet _ rfl rfl id id rfl rfl rfl rfl,
        uid.of_quiet _ rfl id id id rfl rfl rfl⟩
  | heartbeatLost =>
      obtain ⟨code, uid⟩ := holds settled
      refine ⟨code, fun mode => ⟨fun online => ?_, fun passed => ?_, (uid mode).2.2⟩⟩
      · simp at online
      · simp at passed
  | requestStarted allowed msgId =>
      obtain ⟨code, uid⟩ := holds settled
      refine ⟨code.of_quiet _ rfl rfl id id rfl rfl rfl rfl,
        uid.of_quiet _ rfl ?_ ?_ id rfl rfl rfl⟩
      · cases msgId <;> exact id
      · cases msgId <;> exact id
  | transmitted =>
      obtain ⟨code, uid⟩ := holds settled
      exact ⟨code.of_quiet _ rfl rfl id id rfl rfl rfl rfl,
        uid.of_quiet _ rfl id id id rfl rfl rfl⟩

theorem SessionRecorded.handleResponse {device : Device} (response : Response)
    (answers : Option Nat) (holds : SessionRecorded device) :
    SessionRecorded (device.handleResponse response answers) := by
  rw [Device.handleResponse_eq]
  intro settled
  obtain ⟨code, uid⟩ := holds settled
  refine ⟨code.of_quiet _ rfl rfl id id rfl rfl rfl rfl, fun mode => ?_⟩
  obtain ⟨connected, authorised, delivered⟩ := uid mode
  refine ⟨fun online => ?_, fun passed => ?_, fun uidNow => ?_⟩
  · simpa [session_cons] using connected online
  · simp only [Bool.or_eq_true, decide_eq_true_eq] at passed
    rcases passed with earlier | succeeded
    · simpa [session_cons, since_cons] using Or.inr (authorised earlier)
    · simp [session_cons, since_cons, succeeded]
  · simp only [Bool.or_eq_true] at uidNow
    rcases uidNow with (available | now) | status
    · simpa [session_cons] using Or.inr (delivered (Or.inl available))
    · simp [session_cons, now]
    · simpa [session_cons] using Or.inr (delivered (Or.inr status))

theorem SessionRecorded.statusMove {ret : Int} {before after : Device}
    (move : Device.StatusMove ret before after)
    (consistent : FlagsConsistent before) (holds : SessionRecorded before) :
    SessionRecorded (after.emit
      (.statusUpdated before.eventFlags.boardConnectedFlag before.devStatus
        after.devStatus)) := by
  intro settled
  have settledBefore : before.eventFlags.modeSwitchFlag = false := by
    cases move <;> exact settled
  obtain ⟨code, uid⟩ := holds settledBefore
  obtain ⟨start, -, -, -⟩ := consistent settledBefore
  have lowered := move.lowers fun raised => (start raised).2
  cases move with
  | unchanged _ still =>
      exact ⟨code.of_update _ rfl rfl lowered still rfl rfl rfl,
        uid.of_quiet _ rfl id id id rfl rfl rfl⟩
  | startTaken status board started bin =>
      have mode := (start started).1
      refine ⟨fun _ => ?_, fun uidMode => ?_⟩
      · obtain ⟨found, requested, -⟩ := code mode
        refine ⟨fun binNow => ?_, fun startNow => ?_, fun _ => ?_⟩
        · simpa [Device.emit, session_cons, latest_cons] using found binNow
        · simp [Device.emit] at startNow
        · refine ⟨[], session before.log, ?_, rfl, requested started, found (bin mode)⟩
          simp [Device.emit, session_cons, status, board]
      · simp [Device.emit, mode] at uidMode
  | uidTaken status mode available =>
      refine ⟨fun codeMode => ?_, fun _ => ?_⟩
      · simp [Device.emit, mode] at codeMode
      · obtain ⟨connected, authorised, delivered⟩ := uid mode
        refine ⟨fun online => ?_, fun passed => ?_, fun _ => ?_⟩
        · simpa [Device.emit, session_cons] using connected online
        · simpa [Device.emit, session_cons, since_cons] using authorised passed
        · simpa [Device.emit, session_cons] using delivered (Or.inl available)
  | codeProgrammed status mode =>
      have called : CodeRecorded
          { before with log := .programBinFileV1Called ret :: before.log } :=
        code.of_quiet _ rfl rfl id id rfl rfl rfl rfl
      have elsewhere : (if ret = 0 then DevStatus.programSuccess
          else .programFail) ≠ .programing := by
        split <;> simp
      refine ⟨called.of_update _ rfl rfl lowered elsewhere rfl rfl rfl,
        fun uidMode => ?_⟩
      simp [Device.emit, mode] at uidMode
  | uidProgrammed status mode =>
      have called : UidRecorded
          { before with log := .programUIDCalled before.uid ret :: before.log } :=
        uid.of_quiet _ rfl id id id rfl rfl rfl
      refine ⟨fun codeMode => ?_,
        called.of_quiet _ rfl id id (fun _ => Or.inr status) rfl rfl rfl⟩
      simp [Device.emit, mode] at codeMode
  | binFound | boardFound | binMissing | confirmedCode | confirmedUid | boardLost
  | binLost =>
      exact ⟨code.of_update _ rfl rfl lowered (by simp [Device.emit]) rfl rfl rfl,
        uid.of_quiet _ rfl id id (fun flag => Or.inl (by simpa [Device.emit] using flag)) rfl rfl
          rfl⟩

/-! ### The calls -/

/-- What precedes a call of a programming routine when no mode switch is
pending. -/
def CallPrepared : Event → List Event → Prop
  | .programBinFileV1Called _, past =>
      switchPending past = false →
        sessionMode past = .programCode ∧ StartTaken (session past)
  | .programUIDCalled _ _, past =>
      switchPending past = false →
        sessionMode past = .programUID ∧ UidGranted (session past)
  | _, _ => True

/-- The same at every call, with the last bin-file detection before the call
itself and the codes of the answers as they are carried. -/
def CallPreparedThroughout : Event → List Event → Prop
  | .programBinFileV1Called _, past =>
      sessionMode past = .programCode ∧
        (session past).any Event.isStartRequested ∧
          latest Event.binDetection (session past) = some true
  | .programUIDCalled _ _, past =>
      sessionMode past = .programUID ∧ UidAnswered (session past)
  | _, _ => True

instance (event : Event) : DecidablePred (CallPreparedThroughout event) :=
  fun past => by
    apply Event.casesOn (motive := fun event =>
      Decidable (CallPreparedThroughout event past)) event <;>
    intros <;> unfold CallPreparedThroughout <;> infer_instance

/-- The invariant behind `CallPrepared`. -/
def CallInvariant (device : Device) : Prop :=
  ModeInvariant device ∧ SwitchRecorded device ∧ SessionRecorded device ∧
    Everywhen CallPrepared device.log

theorem callPrepared_change {sends switches : Prop} {before after : Device}
    (change : Change sends switches before after)
    (prepared : Everywhen CallPrepared before.log) :
    Everywhen CallPrepared after.log := by
  cases change with
  | silent | resetRequested | boardDetected | heartbeatLost => exact prepared
  | startRequested | uidRequested | modeSwitched | uidModeEntered
  | codeModeEntered | binDetected | connected | heartbeatSent | requestStarted
  | transmitted => exact ⟨trivial, prepared⟩

theorem callPrepared_statusMove {ret : Int} {before after : Device}
    (move : Device.StatusMove ret before after) (guard : before.StatusGuard)
    (consistent : FlagsConsistent before) (switches : SwitchRecorded before)
    (sessions : SessionRecorded before)
    (prepared : Everywhen CallPrepared before.log) :
    Everywhen CallPrepared after.log := by
  obtain ⟨pending, recordedMode⟩ := switches
  cases move with
  | codeProgrammed status mode =>
      refine ⟨fun noSwitch => ?_, prepared⟩
      have settled := pending.trans noSwitch
      obtain ⟨code, -⟩ := sessions settled
      exact ⟨recordedMode.symm.trans mode, (code mode).2.2 status⟩
  | uidProgrammed status mode =>
      refine ⟨fun noSwitch => ?_, prepared⟩
      have settled := pending.trans noSwitch
      have passed : before.networkEvent.authorizePassFlag = true := by
        simpa [Device.StatusGuard, mode] using guard
      obtain ⟨-, -, uidConsistent, -⟩ := consistent settled
      have online := (uidConsistent mode).2 passed
      obtain ⟨-, uid⟩ := sessions settled
      obtain ⟨connected, authorised, delivered⟩ := uid mode
      exact ⟨recordedMode.symm.trans mode, connected online, authorised passed,
        delivered (Or.inr status)⟩
  | unchanged | binFound | boardLost | startTaken | binLost | uidTaken
  | boardFound | binMissing | confirmedCode | confirmedUid => exact prepared

theorem CallInvariant.step {device : Device} (action : Action)
    (inUid : TransceiverInUid device) (holds : CallInvariant device) :
    CallInvariant (step action device) := by
  refine step_preserves CallInvariant ?_ ?_ ?_ device action holds
    (inUid.stepMeets action)
  · intro sends switches before after change ⟨modes, switches, sessions, prepared⟩
    exact ⟨modes.change change, switches.change change,
      sessions.change change modes.flags, callPrepared_change change prepared⟩
  · intro response answers device ⟨modes, switches, sessions, prepared⟩ online inUid
    refine ⟨modes.handleResponse response answers online inUid,
      switches.handleResponse response answers,
      sessions.handleResponse response answers, ?_⟩
    rw [Device.handleResponse_eq]
    exact ⟨trivial, prepared⟩
  · intro ret before after move ⟨modes, switches, sessions, prepared⟩ guard _
    refine ⟨modes.statusMove move _ _ _, switches.statusMove move _ _ _,
      sessions.statusMove move modes.flags, trivial, ?_⟩
    exact callPrepared_statusMove move guard modes.flags switches sessions prepared

theorem CallInvariant.startState (mac : Bytes) (presses : List Button) :
    CallInvariant (startState mac presses) := by
  refine ⟨ModeInvariant.startState mac presses, ?_, ?_, ?_⟩
  · exact SwitchRecorded.startState mac presses
  · intro settled
    rw [startState_of_settled settled]
    refine ⟨fun code => ?_, fun _ => ⟨fun online => ?_, fun passed => ?_,
      fun uid => ?_⟩⟩
    · exact Mode.noConfusion code
    · exact absurd online Bool.true_eq_false.mp
    · exact absurd passed Bool.false_ne_true
    · rcases uid with available | status
      · exact absurd available Bool.false_ne_true
      · exact DevStatus.noConfusion status
  · exact startState_induction
      (fun device => Everywhen CallPrepared device.log)
      (fun device => Everywhen CallPrepared device.log)
      ⟨trivial, trivial⟩ (fun _ booting => ⟨trivial, booting⟩)
      (fun _ booting => booting) presses

/-- In every run, every call of a programming routine made while no mode switch
is pending has been prepared in its own session. -/
theorem everyCall_prepared (mac : Bytes) (presses : List Button)
    (actions : List Action) :
    Everywhen CallPrepared (runFrom mac presses actions).log := by
  have start : TransceiverInUid (startState mac presses) ∧
      CallInvariant (startState mac presses) :=
    ⟨fun stage => by simp [startState_stage] at stage,
      CallInvariant.startState mac presses⟩
  have kept := run_invariant_of_step
    (fun device => TransceiverInUid device ∧ CallInvariant device)
    (fun device action holds =>
      ⟨holds.1.step action, holds.2.step action holds.1⟩) actions start
  exact kept.2.2.2.2

/-- Four runs.  `sw3` turns a UID that is about to be programmed into a call of
`programBinFileV1` that no `sw2` has asked for; in code mode the bin file may be
gone when the routine is called; `sw3` turns a code image that is about to be
programmed into a call of `programUID`, under the authorisation of an earlier
session; and the codes 1 and 356 pass for an `AUTH` success answer. -/
theorem call_unprepared :
    let switchedToCode :=
      authorisedTurns ++ .press .sw2 :: quietTurn ++
        answeredTurn apiIdGetUid (some (ByteStrings.ascii "A1")) 8 ++
        .main (.succeeding none none) :: .press .sw3 ::
          List.replicate 4 (.main (.succeeding none none))
    let codeStarted :=
      .press .sw3 :: List.replicate 11 (.main (.succeeding none none)) ++
        .press .sw2 :: List.replicate 5 (.main (.succeeding none none))
    let binLost :=
      codeStarted ++ List.replicate 5 (.main
        { MainIO.succeeding none none with detectFile := -3 })
    let switchedToUid :=
      authorisedTurns ++ codeStarted ++
        List.replicate 4 (.main (.succeeding none none)) ++
        [.press .sw3, .main (.succeeding none none)]
    let authorisedByMistake :=
      quietTurn ++
        iteration (.succeeding (some (answerJson apiIdAuth 356 none)) (some 3)) ++
        .press .sw2 :: quietTurn ++
        answeredTurn apiIdGetUid (some (ByteStrings.ascii "A1")) 8 ++ quietTurn
    ¬ Everywhen CallPreparedThroughout (runFrom [] [] switchedToCode).log ∧
      ¬ Everywhen CallPreparedThroughout (runFrom [] [] binLost).log ∧
        (.programUIDCalled [] 0 ∈ (runFrom [] [] switchedToUid).log ∧
          ¬ Everywhen CallPreparedThroughout (runFrom [] [] switchedToUid).log) ∧
          ¬ Everywhen CallPreparedThroughout
            (runFrom [] [] authorisedByMistake).log := by
  decide +kernel

end OnlineProgram
