import OnlineProgram.EventHistory
import OnlineProgram.RequestSlot

/-!
# Mode sessions

`sw3_release` changes `deviceMode` at any moment, while the status and the
flags are only reset when the main thread reaches the mode-switch block.  In
between a mode switch is pending.  This file proves which flags, statuses and
modes occur together when none is pending, and exactly when a raised
`authorizePassFlag` stands for an `AUTH` success answer on the connection.
-/

namespace OnlineProgram

open TransitionRuns EventHistory

/-! ### Readings of the history -/

namespace Event

@[simp] def isModeSwitched : Event → Bool
  | .modeSwitched _ => true
  | _ => false

@[simp] def switchedMode : Event → Option Mode
  | .modeSwitched mode => some mode
  | _ => none

@[simp] def isFlagsReset : Event → Bool
  | .flagsReset => true
  | _ => false

@[simp] def isConnected : Event → Bool
  | .connected => true
  | _ => false

@[simp] def isStartRequested : Event → Bool
  | .startRequested => true
  | _ => false

/-- The result of a bin-file detection. -/
@[simp] def binDetection : Event → Option Bool
  | .binDetected found => some found
  | _ => none

/-- An `AUTH` success answer has been received. -/
@[simp] def authSucceeded : Event → Bool
  | .received response _ => response.CarriesSuccess .auth
  | _ => false

/-- A message that the device takes for an `AUTH` success answer has been
received. -/
@[simp] def authAccepted : Event → Bool
  | .received response _ => response.Succeeds .auth
  | _ => false

/-- A `GET_UID` success answer with a UID has been received. -/
@[simp] def uidSucceeded : Event → Bool
  | .received response _ =>
      response.CarriesSuccess .getUid && response.uid.isSome
  | _ => false

/-- The device has taken a UID from a message. -/
@[simp] def uidDelivered : Event → Bool
  | .received response _ => response.deliveredUid.isSome
  | _ => false

end Event

/-- The events since the last `sw3` mode switch. -/
def session (past : List Event) : List Event :=
  since Event.isModeSwitched past

/-- The mode that the last `sw3` mode switch selected. -/
def sessionMode (past : List Event) : Mode :=
  (latest Event.switchedMode past).getD .programUID

/-- The last `sw3` mode switch has not reached the mode-switch block yet. -/
def switchPending (past : List Event) : Bool :=
  (since Event.isFlagsReset past).any Event.isModeSwitched

/-- There has been a successful connect, and an `AUTH` success answer since the
last one. -/
def authorizedSinceConnect (past : List Event) : Bool :=
  past.any Event.isConnected &&
    (since Event.isConnected past).any Event.authSucceeded

theorem session_cons (event : Event) (past : List Event) :
    session (event :: past) =
      if event.isModeSwitched then [] else event :: session past :=
  since_cons _ _ _

theorem sessionMode_cons (event : Event) (past : List Event) :
    sessionMode (event :: past) = event.switchedMode.getD (sessionMode past) := by
  rw [sessionMode, latest_cons]
  cases event.switchedMode <;> rfl

theorem switchPending_cons (event : Event) (past : List Event) :
    switchPending (event :: past) =
      if event.isFlagsReset then false
      else event.isModeSwitched || switchPending past := by
  rw [switchPending, since_cons]
  split <;> rfl

theorem authorizedSinceConnect_cons (event : Event) (past : List Event) :
    authorizedSinceConnect (event :: past) =
      if event.isConnected then false
      else if event.authSucceeded then past.any Event.isConnected
      else authorizedSinceConnect past := by
  rw [authorizedSinceConnect, since_cons]
  cases connected : event.isConnected <;>
    cases succeeded : event.authSucceeded <;>
    simp only [authorizedSinceConnect, List.any_cons, List.any_nil, connected,
      succeeded, Bool.false_eq_true, if_true, if_false, Bool.and_false,
      Bool.and_true, Bool.false_or, Bool.true_or]

/-! ### Which flags, statuses and modes occur together -/

/-- An online device has connected. -/
def OnlineConnected (device : Device) : Prop :=
  device.networkEvent.offlineFlag = false → device.log.any Event.isConnected

def StartConsistent (device : Device) : Prop :=
  device.eventFlags.startProgramFlag = true →
    device.deviceMode = .programCode ∧ device.devStatus = .connected

def ResetConsistent (device : Device) : Prop :=
  device.eventFlags.resetDevStatusFlag = true → InResult device

def UidConsistent (device : Device) : Prop :=
  device.deviceMode = .programUID →
    device.devStatus ≠ .binNotFound ∧
      (device.networkEvent.authorizePassFlag = true →
        device.networkEvent.offlineFlag = false ∧
          authorizedSinceConnect device.log)

def CodeConsistent (device : Device) : Prop :=
  device.deviceMode = .programCode →
    device.eventFlags.uidAvailableFlag = false ∧
      device.eventFlags.notifyDoneFlag = false ∧
        device.eventFlags.uidProgramSuccessFlag = false

/-- The mode-consistency property of a state. -/
def ModeConsistent (device : Device) : Prop :=
  device.eventFlags.modeSwitchFlag = false →
    StartConsistent device ∧ ResetConsistent device ∧
      UidConsistent device ∧ CodeConsistent device

instance : DecidablePred ModeConsistent := fun _ => by
  unfold ModeConsistent StartConsistent ResetConsistent UidConsistent
    CodeConsistent
  infer_instance

/-- The part of `UidConsistent` that reads no history. -/
def UidFlagsConsistent (device : Device) : Prop :=
  device.deviceMode = .programUID →
    device.devStatus ≠ .binNotFound ∧
      (device.networkEvent.authorizePassFlag = true →
        device.networkEvent.offlineFlag = false)

/-- The part of the mode-consistency property that every step keeps. -/
def FlagsConsistent (device : Device) : Prop :=
  device.eventFlags.modeSwitchFlag = false →
    StartConsistent device ∧ ResetConsistent device ∧
      UidFlagsConsistent device ∧ CodeConsistent device

/-- In `MODE_PROGRAM_UID` the authorisation stands for an `AUTH` success answer
on the connection. -/
def PassAnswered (device : Device) : Prop :=
  device.eventFlags.modeSwitchFlag = false → device.deviceMode = .programUID →
    device.networkEvent.authorizePassFlag = true →
      authorizedSinceConnect device.log

theorem modeConsistent_iff (device : Device) :
    ModeConsistent device ↔ FlagsConsistent device ∧ PassAnswered device := by
  constructor
  · intro holds
    refine ⟨fun settled => ?_, fun settled mode passed => ?_⟩
    · obtain ⟨start, reset, uid, code⟩ := holds settled
      exact ⟨start, reset,
        fun mode => ⟨(uid mode).1, fun passed => ((uid mode).2 passed).1⟩, code⟩
    · obtain ⟨-, -, uid, -⟩ := holds settled
      exact ((uid mode).2 passed).2
  · rintro ⟨flags, answered⟩ settled
    obtain ⟨start, reset, uid, code⟩ := flags settled
    exact ⟨start, reset,
      fun mode => ⟨(uid mode).1, fun passed =>
        ⟨(uid mode).2 passed, answered settled mode passed⟩⟩, code⟩

/-- An `AUTH` success answer on the present connection has raised
`authorizePassFlag`. -/
def AnswersPass (device : Device) : Prop :=
  device.networkEvent.offlineFlag = false → authorizedSinceConnect device.log →
    device.networkEvent.authorizePassFlag = true

/-- The message raises `authorizePassFlag`, with no mode switch pending, though
it is no `AUTH` success answer. -/
def MistakenPass (response : Response) (device : Device) : Prop :=
  response.Mistaken .auth ∧ device.eventFlags.modeSwitchFlag = false ∧
    device.networkEvent.authorizePassFlag = false

/-- No message that the step handles raises `authorizePassFlag` by mistake. -/
def NoMistakenPass : Device → Action → Prop :=
  StepMeets (fun response _ device => ¬ MistakenPass response device)
    (fun _ => True)

/-- The network stage that follows `checkNetwork` runs in `MODE_PROGRAM_UID`
unless `sw3` has been pressed in between. -/
def TransceiverInUid (device : Device) : Prop :=
  device.stage = .msgTransceiver →
    device.deviceMode = .programUID ∨ device.eventFlags.modeSwitchFlag = true

theorem OnlineConnected.change {sends switches : Prop} {before after : Device}
    (change : Change sends switches before after) (holds : OnlineConnected before) :
    OnlineConnected after := by
  intro online
  cases change with
  | requestStarted allowed msgId =>
      have connected := holds
        (by cases msgId <;> simpa [Device.takeRequest] using online)
      simpa using connected
  | uidModeEntered => simp [NetworkEvent.initial] at online
  | heartbeatLost => simp at online
  | connected => simp
  | _ => simpa using holds online

theorem UidFlagsConsistent.of_eq {before after : Device}
    (holds : UidFlagsConsistent before) (mode : after.deviceMode = before.deviceMode)
    (status : after.devStatus = before.devStatus)
    (passed : after.networkEvent.authorizePassFlag = true →
      before.networkEvent.authorizePassFlag = true)
    (offline : after.networkEvent.offlineFlag = before.networkEvent.offlineFlag) :
    UidFlagsConsistent after := by
  intro uidMode
  rw [mode] at uidMode
  obtain ⟨known, online⟩ := holds uidMode
  refine ⟨by rwa [status], fun passedAfter => ?_⟩
  rw [offline]
  exact online (passed passedAfter)

theorem FlagsConsistent.change {sends switches : Prop} {before after : Device}
    (change : Change sends switches before after) (holds : FlagsConsistent before) :
    FlagsConsistent after := by
  intro settled
  cases change with
  | silent | uidRequested | binDetected | boardDetected | heartbeatSent
  | transmitted => exact holds settled
  | startRequested mode status =>
      obtain ⟨-, reset, uid, code⟩ := holds settled
      exact ⟨fun _ => ⟨mode, status⟩, reset, uid, code⟩
  | resetRequested status =>
      obtain ⟨start, -, rest⟩ := holds settled
      exact ⟨start, fun _ => status.symm, rest⟩
  | modeSwitched => simp at settled
  | uidModeEntered _ mode =>
      refine ⟨fun start => ?_, fun reset => ?_, fun _ => ⟨by simp, fun passed => ?_⟩,
        fun code => ?_⟩
      · simp [EventFlags.cleared] at start
      · simp [EventFlags.cleared] at reset
      · simp [NetworkEvent.initial] at passed
      · simp [mode] at code
  | codeModeEntered _ mode =>
      refine ⟨fun start => ?_, fun reset => ?_, fun uid => ?_,
        fun _ => ⟨rfl, rfl, rfl⟩⟩
      · simp [EventFlags.cleared] at start
      · simp [EventFlags.cleared] at reset
      · simp [mode] at uid
  | connected offline =>
      obtain ⟨start, reset, uid, code⟩ := holds settled
      exact ⟨start, reset, fun mode => ⟨(uid mode).1, fun _ => rfl⟩, code⟩
  | heartbeatLost =>
      obtain ⟨start, reset, uid, code⟩ := holds settled
      refine ⟨start, reset, fun mode => ⟨(uid mode).1, fun passed => ?_⟩, code⟩
      simp at passed
  | requestStarted allowed msgId =>
      obtain ⟨start, reset, uid, code⟩ := holds settled
      refine ⟨start, reset, uid.of_eq rfl rfl ?_ ?_, code⟩
      · cases msgId <;> exact id
      · cases msgId <;> rfl

theorem FlagsConsistent.handleResponse {device : Device} (response : Response)
    (answers : Option Nat) (online : device.networkEvent.offlineFlag = false)
    (inUid : device.deviceMode = .programUID ∨
      device.eventFlags.modeSwitchFlag = true)
    (holds : FlagsConsistent device) :
    FlagsConsistent (device.handleResponse response answers) := by
  rw [Device.handleResponse_eq]
  intro settled
  have settledBefore : device.eventFlags.modeSwitchFlag = false := settled
  have mode : device.deviceMode = .programUID := by
    simpa [settledBefore] using inUid
  obtain ⟨start, reset, uid, -⟩ := holds settled
  refine ⟨start, reset, fun _ => ⟨(uid mode).1, fun _ => online⟩, fun code => ?_⟩
  simp [mode] at code

/-! ### The authorisation and its answer -/

theorem AnswersPass.of_quiet {before after : Device} (event : Event)
    (holds : AnswersPass before)
    (offline : after.networkEvent.offlineFlag = before.networkEvent.offlineFlag)
    (passed : after.networkEvent.authorizePassFlag =
      before.networkEvent.authorizePassFlag)
    (log : after.log = event :: before.log)
    (noConnect : event.isConnected = false)
    (noAuth : event.authSucceeded = false) : AnswersPass after := by
  intro online authorised
  rw [offline] at online
  rw [log, authorizedSinceConnect_cons, noConnect, noAuth] at authorised
  rw [passed]
  exact holds online authorised

theorem AnswersPass.change {sends switches : Prop} {before after : Device}
    (change : Change sends switches before after) (holds : AnswersPass before) :
    AnswersPass after := by
  cases change with
  | silent | resetRequested | boardDetected => exact holds
  | startRequested | uidRequested | modeSwitched | codeModeEntered
  | binDetected | heartbeatSent | transmitted =>
      exact holds.of_quiet _ rfl rfl rfl rfl rfl
  | uidModeEntered =>
      intro online
      simp [NetworkEvent.initial] at online
  | connected =>
      intro _ authorised
      simp [authorizedSinceConnect_cons] at authorised
  | heartbeatLost =>
      intro online
      simp at online
  | requestStarted _ msgId =>
      refine holds.of_quiet _ ?_ ?_ rfl rfl rfl
      · cases msgId <;> rfl
      · cases msgId <;> rfl

theorem AnswersPass.handleResponse {device : Device} (response : Response)
    (answers : Option Nat) (holds : AnswersPass device) :
    AnswersPass (device.handleResponse response answers) := by
  rw [Device.handleResponse_eq]
  intro online authorised
  by_cases carries : response.CarriesSuccess .auth
  · simp [carries.succeeds]
  · have earlier : authorizedSinceConnect device.log = true := by
      simpa [authorizedSinceConnect_cons, carries] using authorised
    simp [holds online earlier]

theorem AnswersPass.statusMove {ret : Int} {before after : Device}
    (move : Device.StatusMove ret before after) (holds : AnswersPass before)
    (board : Bool) (first second : DevStatus) :
    AnswersPass (after.emit (.statusUpdated board first second)) := by
  have moved : AnswersPass after := by
    cases move with
    | codeProgrammed | uidProgrammed => exact holds.of_quiet _ rfl rfl rfl rfl rfl
    | unchanged | binFound | boardLost | startTaken | binLost | uidTaken
    | boardFound | binMissing | confirmedCode | confirmedUid => exact holds
  exact moved.of_quiet _ rfl rfl rfl rfl rfl

theorem PassAnswered.of_quiet {before after : Device} (event : Event)
    (holds : PassAnswered before)
    (switch : after.eventFlags.modeSwitchFlag = before.eventFlags.modeSwitchFlag)
    (mode : after.deviceMode = before.deviceMode)
    (passed : after.networkEvent.authorizePassFlag =
      before.networkEvent.authorizePassFlag)
    (log : after.log = event :: before.log)
    (noConnect : event.isConnected = false)
    (noAuth : event.authSucceeded = false) : PassAnswered after := by
  intro settled uidMode passedAfter
  rw [switch] at settled
  rw [mode] at uidMode
  rw [passed] at passedAfter
  rw [log, authorizedSinceConnect_cons, noConnect, noAuth]
  exact holds settled uidMode passedAfter

theorem PassAnswered.change {sends switches : Prop} {before after : Device}
    (change : Change sends switches before after) (flags : FlagsConsistent before)
    (holds : PassAnswered before) : PassAnswered after := by
  cases change with
  | silent | resetRequested | boardDetected => exact holds
  | startRequested | uidRequested | binDetected | heartbeatSent | transmitted =>
      exact holds.of_quiet _ rfl rfl rfl rfl rfl rfl
  | modeSwitched =>
      intro settled
      simp at settled
  | uidModeEntered =>
      intro _ _ passed
      simp [NetworkEvent.initial] at passed
  | codeModeEntered _ code =>
      intro _ mode
      simp [code] at mode
  | connected offline =>
      intro settled mode passed
      obtain ⟨-, -, uid, -⟩ := flags settled
      have online := (uid mode).2 passed
      simp [offline] at online
  | heartbeatLost =>
      intro _ _ passed
      simp at passed
  | requestStarted _ msgId =>
      refine holds.of_quiet _ rfl rfl ?_ rfl rfl rfl
      cases msgId <;> rfl

theorem PassAnswered.statusMove {ret : Int} {before after : Device}
    (move : Device.StatusMove ret before after) (holds : PassAnswered before)
    (board : Bool) (first second : DevStatus) :
    PassAnswered (after.emit (.statusUpdated board first second)) := by
  have moved : PassAnswered after := by
    cases move with
    | codeProgrammed | uidProgrammed =>
        exact holds.of_quiet _ rfl rfl rfl rfl rfl rfl
    | unchanged | binFound | boardLost | startTaken | binLost | uidTaken
    | boardFound | binMissing | confirmedCode | confirmedUid => exact holds
  exact moved.of_quiet _ rfl rfl rfl rfl rfl rfl

/-- A message leaves the authorisation answered exactly when it does not raise
it by mistake. -/
theorem PassAnswered.handleResponse_iff {response : Response} {device : Device}
    (answers : Option Nat) (connected : OnlineConnected device)
    (answersPass : AnswersPass device)
    (online : device.networkEvent.offlineFlag = false)
    (inUid : device.deviceMode = .programUID ∨
      device.eventFlags.modeSwitchFlag = true)
    (holds : PassAnswered device) :
    PassAnswered (device.handleResponse response answers) ↔
      ¬ MistakenPass response device := by
  rw [Device.handleResponse_eq]
  constructor
  · rintro kept ⟨mistaken, settled, unauthorised⟩
    have mode : device.deviceMode = .programUID := by simpa [settled] using inUid
    have answered := kept settled mode (by simp [mistaken.1])
    have earlier : authorizedSinceConnect device.log = true := by
      simpa [authorizedSinceConnect_cons, mistaken.2] using answered
    have passed := answersPass online earlier
    simp [unauthorised] at passed
  · intro noMistake settled mode passed
    by_cases carries : response.CarriesSuccess .auth
    · simpa [authorizedSinceConnect_cons, carries] using connected online
    have passedBefore : device.networkEvent.authorizePassFlag = true := by
      by_contra unauthorised
      have succeeds : response.Succeeds .auth := by
        simpa [unauthorised] using passed
      exact noMistake ⟨⟨succeeds, carries⟩, settled, by simpa using unauthorised⟩
    simpa [authorizedSinceConnect_cons, carries] using holds settled mode passedBefore

theorem StartConsistent.statusMove {ret : Int} {before after : Device}
    (move : Device.StatusMove ret before after)
    (holds : StartConsistent before) : StartConsistent after := by
  intro start
  cases move with
  | unchanged => exact holds start
  | boardLost | startTaken | binLost | uidTaken => simp at start
  | binFound status | boardFound status | binMissing status
  | codeProgrammed status | uidProgrammed status =>
      have connected := (holds start).2
      simp [status] at connected
  | confirmedCode status | confirmedUid status =>
      have connected := (holds start).2
      simp [connected] at status

theorem ResetConsistent.statusMove {ret : Int} {before after : Device}
    (move : Device.StatusMove ret before after)
    (holds : ResetConsistent before) : ResetConsistent after := by
  intro reset
  cases move with
  | unchanged => exact holds reset
  | codeProgrammed | uidProgrammed =>
      by_cases success : ret = 0 <;> simp [InResult, success]
  | confirmedCode | confirmedUid => simp at reset
  | binFound status | boardLost status | startTaken status | binLost status
  | uidTaken status | boardFound status | binMissing status =>
      have result := holds reset
      simp [InResult, status] at result

theorem UidFlagsConsistent.statusMove {ret : Int} {before after : Device}
    (move : Device.StatusMove ret before after)
    (holds : UidFlagsConsistent before) : UidFlagsConsistent after := by
  intro mode
  cases move with
  | unchanged => exact holds mode
  | binLost _ code | binMissing _ code | codeProgrammed _ code
  | confirmedCode _ code => simp [code] at mode
  | uidProgrammed =>
      refine ⟨?_, (holds mode).2⟩
      by_cases success : ret = 0 <;> simp [success]
  | binFound | boardLost | startTaken | uidTaken | boardFound | confirmedUid =>
      exact ⟨by simp, (holds mode).2⟩

theorem CodeConsistent.statusMove {ret : Int} {before after : Device}
    (move : Device.StatusMove ret before after)
    (holds : CodeConsistent before) : CodeConsistent after := by
  intro mode
  cases move with
  | uidTaken _ uid | uidProgrammed _ uid | confirmedUid _ uid =>
      simp [uid] at mode
  | _ => exact holds mode

theorem FlagsConsistent.statusMove {ret : Int} {before after : Device}
    (move : Device.StatusMove ret before after) (holds : FlagsConsistent before)
    (event : Event) : FlagsConsistent (after.emit event) := by
  intro settled
  have settledBefore : before.eventFlags.modeSwitchFlag = false := by
    cases move <;> exact settled
  obtain ⟨start, reset, uid, code⟩ := holds settledBefore
  have startAfter := start.statusMove move
  have resetAfter := reset.statusMove move
  have uidAfter := uid.statusMove move
  have codeAfter := code.statusMove move
  exact ⟨startAfter, resetAfter, uidAfter, codeAfter⟩

theorem OnlineConnected.handleResponse {response : Response} {device : Device}
    (answers : Option Nat) (holds : OnlineConnected device) :
    OnlineConnected (device.handleResponse response answers) := by
  rw [Device.handleResponse_eq]
  intro online
  simpa using holds online

theorem OnlineConnected.statusMove {ret : Int} {before after : Device}
    (move : Device.StatusMove ret before after) (holds : OnlineConnected before)
    (board : Bool) (first second : DevStatus) :
    OnlineConnected (after.emit (.statusUpdated board first second)) := by
  intro online
  cases move <;> simpa [Device.emit] using holds online

namespace Device

theorem sw2Release_frame (device : Device) :
    device.sw2Release.stage = device.stage ∧
      device.sw2Release.deviceMode = device.deviceMode ∧
        device.sw2Release.eventFlags.modeSwitchFlag =
          device.eventFlags.modeSwitchFlag := by
  unfold sw2Release
  dsimp only
  split <;> split <;> split <;> exact ⟨rfl, rfl, rfl⟩

theorem sysTick_frame (device : Device) :
    device.sysTick.stage = device.stage ∧
      device.sysTick.deviceMode = device.deviceMode ∧
        device.sysTick.eventFlags = device.eventFlags := by
  unfold sysTick
  dsimp only
  split <;> exact ⟨rfl, rfl, rfl⟩

theorem checkNetwork_deviceMode (io : SocketIO) (device : Device) :
    (device.checkNetwork io).deviceMode = device.deviceMode := by
  unfold checkNetwork reconnect heartbeat
  dsimp only
  split
  · split <;> rfl
  · split
    · split <;> rfl
    · rfl

end Device

theorem TransceiverInUid.step {device : Device} (action : Action)
    (holds : TransceiverInUid device) : TransceiverInUid (step action device) := by
  intro stage
  cases action with
  | press button =>
      cases button with
      | sw2 =>
          obtain ⟨sameStage, sameMode, sameFlag⟩ := device.sw2Release_frame
          simp only [OnlineProgram.step, Button.release] at stage ⊢
          rw [sameMode, sameFlag]
          exact holds (by rw [← sameStage]; exact stage)
      | sw3 => exact Or.inr rfl
  | tick =>
      obtain ⟨sameStage, sameMode, sameFlags⟩ := device.sysTick_frame
      simp only [OnlineProgram.step] at stage ⊢
      rw [sameMode, sameFlags]
      exact holds (by rw [← sameStage]; exact stage)
  | main io =>
      simp only [OnlineProgram.step, Device.mainStage] at stage ⊢
      split at stage
      · split at stage <;> simp at stage
      · simp at stage
      · simp at stage
      · simp at stage
      · rename_i current
        split at stage
        · rename_i mode
          left
          simp [mode, Device.checkNetwork_deviceMode]
        · simp at stage
      · simp at stage
      · simp at stage

/-- What every step keeps, whatever messages arrive. -/
structure ModeInvariant (device : Device) : Prop where
  connected : OnlineConnected device
  flags : FlagsConsistent device
  answersPass : AnswersPass device

theorem ModeInvariant.change {sends switches : Prop} {before after : Device}
    (change : Change sends switches before after) (holds : ModeInvariant before) :
    ModeInvariant after :=
  ⟨holds.connected.change change, holds.flags.change change,
    holds.answersPass.change change⟩

theorem ModeInvariant.handleResponse {device : Device} (response : Response)
    (answers : Option Nat) (online : device.networkEvent.offlineFlag = false)
    (inUid : device.deviceMode = .programUID ∨
      device.eventFlags.modeSwitchFlag = true)
    (holds : ModeInvariant device) :
    ModeInvariant (device.handleResponse response answers) :=
  ⟨holds.connected.handleResponse answers,
    holds.flags.handleResponse response answers online inUid,
    holds.answersPass.handleResponse response answers⟩

theorem ModeInvariant.statusMove {ret : Int} {before after : Device}
    (move : Device.StatusMove ret before after) (holds : ModeInvariant before)
    (board : Bool) (first second : DevStatus) :
    ModeInvariant (after.emit (.statusUpdated board first second)) :=
  ⟨holds.connected.statusMove move _ _ _, holds.flags.statusMove move _,
    holds.answersPass.statusMove move _ _ _⟩

theorem TransceiverInUid.stepMeets {device : Device} (action : Action)
    (holds : TransceiverInUid device) :
    StepMeets (fun _ _ device => device.deviceMode = .programUID ∨
      device.eventFlags.modeSwitchFlag = true) (fun _ => True) device action := by
  unfold StepMeets
  split
  · rename_i io stage
    intro _ _ _
    have frame := device.msgSendPhase_frame io.socket
    rw [frame.deviceMode, frame.eventFlags]
    exact holds stage
  · exact fun _ => trivial
  · trivial

theorem ModeInvariant.step {device : Device} (action : Action)
    (inUid : TransceiverInUid device) (holds : ModeInvariant device) :
    ModeInvariant (step action device) := by
  refine step_preserves ModeInvariant ModeInvariant.change ?_ ?_ device action holds
    (inUid.stepMeets action)
  · exact fun response answers device holds online inUid =>
      holds.handleResponse response answers online inUid
  · exact fun move holds _ _ => holds.statusMove move _ _ _

theorem ModeInvariant.startState (mac : Bytes) (presses : List Button) :
    ModeInvariant (startState mac presses) := by
  refine ⟨fun online => ?_, fun settled => ?_, fun online => ?_⟩
  · exact absurd online Bool.true_eq_false.mp
  · rw [startState_of_settled settled]
    refine ⟨fun start => ?_, fun reset => ?_, fun _ => ⟨?_, fun passed => ?_⟩,
      fun _ => ⟨rfl, rfl, rfl⟩⟩
    · exact absurd start Bool.false_ne_true
    · exact absurd reset Bool.false_ne_true
    · exact fun status => DevStatus.noConfusion status
    · exact absurd passed Bool.false_ne_true
  · exact absurd online Bool.true_eq_false.mp

/-- A step keeps the authorisation answered exactly when it handles no message
that raises it by mistake. -/
theorem PassAnswered.step_iff {device : Device} (action : Action)
    (inUid : TransceiverInUid device) (modes : ModeInvariant device)
    (holds : PassAnswered device) :
    PassAnswered (step action device) ↔ NoMistakenPass device action := by
  constructor
  · intro kept
    unfold NoMistakenPass StepMeets
    split
    · rename_i io stage
      intro online response message
      obtain ⟨sock, closed⟩ := step_of_received stage online message
      have keeps {before after : Device} (change : Change True False before after)
          (holds : ModeInvariant before ∧ PassAnswered before) :
          ModeInvariant after ∧ PassAnswered after :=
        ⟨holds.1.change change, holds.2.change change holds.1.flags⟩
      have sending := Change.chain_preserves keeps
        (Device.msgSendPhase_change False online io.socket) ⟨modes, holds⟩
      have frame := device.msgSendPhase_frame io.socket
      have handled : PassAnswered
          ((device.msgSendPhase io.socket).handleResponse response io.answers) := by
        rw [closed] at kept
        exact kept
      refine (PassAnswered.handleResponse_iff io.answers sending.1.connected
        sending.1.answersPass ?_ ?_ sending.2).mp handled
      · rw [frame.offlineFlag, online]
      · rw [frame.deviceMode, frame.eventFlags]
        exact inUid stage
    · exact fun _ => trivial
    · trivial
  · intro noMistake
    have kept := step_preserves
      (fun device => ModeInvariant device ∧ PassAnswered device)
      (fun change holds => ⟨holds.1.change change,
        holds.2.change change holds.1.flags⟩)
      (fun response answers device holds online meets =>
        ⟨holds.1.handleResponse response answers online meets.1,
          (PassAnswered.handleResponse_iff answers holds.1.connected
            holds.1.answersPass online meets.1 holds.2).mpr meets.2⟩)
      (fun move holds _ _ =>
        ⟨holds.1.statusMove move _ _ _, holds.2.statusMove move _ _ _⟩)
      device action ⟨modes, holds⟩ ((inUid.stepMeets action).and noMistake)
    exact kept.2

theorem PassAnswered.startState (mac : Bytes) (presses : List Button) :
    PassAnswered (startState mac presses) := by
  intro _ _ passed
  exact absurd passed Bool.false_ne_true

/-- Along any run, every state is mode consistent if and only if no message of
the run raises `authorizePassFlag` by mistake. -/
theorem modeConsistent_always_iff (mac : Bytes) (presses : List Button)
    (actions : List Action) :
    EveryState step ModeConsistent actions (startState mac presses) ↔
      EveryStep step NoMistakenPass actions (startState mac presses) := by
  have startsInUid : TransceiverInUid (startState mac presses) := by
    intro stage
    rw [startState_stage] at stage
    exact Stage.noConfusion stage
  have modes := ModeInvariant.startState mac presses
  refine everyState_iff_everyStep_of_invariant
    (fun device => TransceiverInUid device ∧ ModeInvariant device)
    (fun device action holds => ⟨holds.1.step action, holds.2.step action holds.1⟩)
    ?_ actions ⟨startsInUid, modes⟩
    ((modeConsistent_iff _).mpr ⟨modes.flags, PassAnswered.startState mac presses⟩)
  rintro device action ⟨inUid, modes⟩ consistent
  have answered := ((modeConsistent_iff device).mp consistent).2
  rw [modeConsistent_iff, and_iff_right (modes.step action inUid).flags]
  exact answered.step_iff action inUid modes

/-- A message with the codes 1 and 356, of which the second is 100 in its last
byte, authorises the device. -/
theorem authorised_by_mistake :
    ¬ EveryState step ModeConsistent
      (quietTurn ++ iteration (.succeeding (some (answerJson apiIdAuth 356 none)) none))
      (startState [] []) := by
  decide +kernel

end OnlineProgram
