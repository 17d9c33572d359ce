import OnlineProgram.NetworkLayer
import OnlineProgram.TransitionRuns

/-!
# The main thread and the interrupts

The status machine of `OnlineProgram.cpp`, the loop of `mainThread` cut into
its stages, the two button interrupts and the one-second tick, and the
transition function that interleaves them.
-/

namespace OnlineProgram

open ByteStrings

def heartbeatPeriodS : UInt32 := 30

/-- What the world outside answers while one main-loop stage runs: the return
values of the two detection routines and of the programming routine, the
results of the socket calls, what `cJSON_Parse` makes of a received text, and
the transmission that the server answers with it.  Each stage uses the parts
that concern it. -/
structure MainIO where
  detectFile : Int
  detectConnectStatus : Int
  socket : SocketIO
  recvJson : Option CJson
  answers : Option Nat
  programRet : Int

/-- Everything the device asks of the outside succeeds, and the given message,
if any, has arrived. -/
def MainIO.succeeding (recvJson : Option CJson) (answers : Option Nat) :
    MainIO :=
  { detectFile := 0
    detectConnectStatus := 0
    socket := if recvJson.isSome then .arriving else .quiet
    recvJson := recvJson
    answers := answers
    programRet := 0 }

namespace Device

/-- One turn of `sysTickThread`. -/
def sysTick (device : Device) : Device :=
  let device := { device with systemTimer := device.systemTimer + 1 }
  if device.deviceMode = .programUID ∧
      device.systemTimer % heartbeatPeriodS = 0 ∧
      device.networkEvent.offlineFlag = false then
    { device with networkEvent.heartbeatFlag := true }
  else device

/-- `sw2_release` after its anti-shake check. -/
def sw2Release (device : Device) : Device :=
  let device :=
    if device.deviceMode = .programCode then
      if device.devStatus = .connected then
        { device with eventFlags.startProgramFlag := true }.emit .startRequested
      else device
    else
      if device.devStatus = .connected then
        { device with networkEvent.uidReqFlag := true }.emit .uidRequested
      else device
  if device.devStatus = .programFail ∨ device.devStatus = .programSuccess then
    { device with eventFlags.resetDevStatusFlag := true }
  else device

def otherMode : Mode → Mode
  | .programCode => .programUID
  | .programUID => .programCode

/-- `sw3_release` after its anti-shake check. -/
def sw3Release (device : Device) : Device :=
  { device with
    eventFlags.modeSwitchFlag := true
    deviceMode := otherMode device.deviceMode }.emit
      (.modeSwitched (otherMode device.deviceMode))

def resetEventFlags (device : Device) : Device :=
  { device with eventFlags := EventFlags.cleared }.emit .flagsReset

def updateConnected (device : Device) : Device :=
  let device :=
    if device.eventFlags.boardConnectedFlag = false then
      { device with
        devStatus := .disconnected
        eventFlags.startProgramFlag := false }
    else device
  let device :=
    if device.eventFlags.startProgramFlag = true then
      { device with
        devStatus := .programing
        eventFlags.startProgramFlag := false }
    else device
  if device.deviceMode = .programCode then
    if device.eventFlags.binFileExsitFlag = false then
      { device with
        devStatus := .binNotFound
        eventFlags.startProgramFlag := false }
    else device
  else
    if device.eventFlags.uidAvailableFlag = true then
      { device with
        devStatus := .programing
        eventFlags.uidAvailableFlag := false }
    else device

def updateDisconnected (device : Device) : Device :=
  let device :=
    if device.eventFlags.boardConnectedFlag = true then
      { device with devStatus := .connected }
    else device
  if device.eventFlags.binFileExsitFlag = false ∧
      device.deviceMode = .programCode then
    { device with devStatus := .binNotFound }
  else device

/-- The case `DEV_STATUS_PROGRAMING` of `updateDeviceStatus`; `ret` is what
the programming routine returns. -/
def updatePrograming (ret : Int) (device : Device) : Device :=
  if device.deviceMode = .programCode then
    let device := device.emit (.programBinFileV1Called ret)
    if ret = 0 then { device with devStatus := .programSuccess }
    else { device with devStatus := .programFail }
  else
    let device := device.emit (.programUIDCalled device.uid ret)
    let device :=
      if ret = 0 then
        { device with
          devStatus := .programSuccess
          eventFlags.uidProgramSuccessFlag := true }
      else
        { device with
          devStatus := .programFail
          eventFlags.uidProgramSuccessFlag := false }
    { device with networkEvent.notifyResultFlag := true }

/-- The cases `DEV_STATUS_PROGRAM_SUCCESS` and `DEV_STATUS_PROGRAM_FAIL` of
`updateDeviceStatus`, which differ only in the indicator. -/
def updateProgramResult (device : Device) : Device :=
  if device.eventFlags.resetDevStatusFlag = true then
    if device.deviceMode = .programCode then
      { device with
        devStatus := .connected
        eventFlags.resetDevStatusFlag := false }
    else if device.eventFlags.notifyDoneFlag = true then
      { device with
        devStatus := .connected
        eventFlags.resetDevStatusFlag := false
        eventFlags.notifyDoneFlag := false }
    else device
  else device

def switchDevStatus (ret : Int) (device : Device) : Device :=
  match device.devStatus with
  | .binNotFound =>
      if device.eventFlags.binFileExsitFlag = true then
        { device with devStatus := .disconnected }
      else device
  | .connected => device.updateConnected
  | .disconnected => device.updateDisconnected
  | .programing => device.updatePrograming ret
  | .programSuccess => device.updateProgramResult
  | .programFail => device.updateProgramResult

def updateDeviceStatus (ret : Int) (device : Device) : Device :=
  let after := device.switchDevStatus ret
  after.emit (.statusUpdated device.eventFlags.boardConnectedFlag
    device.devStatus after.devStatus)

/-! ### The stages of the loop -/

/-- What the mode-switch block does once the indicator has returned. -/
def finishModeSwitch (device : Device) : Device :=
  let device := device.resetEventFlags
  if device.deviceMode = .programUID then
    { device.initNetworkEvent with devStatus := .disconnected }
  else
    { device with
      tcpSock := device.tcpSock.close
      devStatus := .binNotFound }

def detectBinFile (ret : Int) (device : Device) : Device :=
  if device.deviceMode = .programCode then
    { device with eventFlags.binFileExsitFlag := ret == 0 }.emit
      (.binDetected (ret == 0))
  else device

def detectBoard (ret : Int) (device : Device) : Device :=
  { device with eventFlags.boardConnectedFlag := ret == 0 }

/-- The guarded call of `updateDeviceStatus`; the indicator calls of the other
branch leave the state alone. -/
def guardedStatusUpdate (ret : Int) (device : Device) : Device :=
  if (device.deviceMode = .programUID ∧
      device.networkEvent.authorizePassFlag = true) ∨
      device.deviceMode = .programCode then
    device.updateDeviceStatus ret
  else device

/-- One stage of `mainThread`.  The mode is tested once before the two network
stages, so `msgTransceiverHandle` runs whenever `checkNetwork` has run. -/
def mainStage (io : MainIO) (device : Device) : Device :=
  match device.stage with
  | .modeSwitch =>
      if device.eventFlags.modeSwitchFlag = true then
        { device with stage := .modeSwitchDelay }
      else { device with stage := .binDetection }
  | .modeSwitchDelay =>
      { device.finishModeSwitch with stage := .binDetection }
  | .binDetection =>
      { device.detectBinFile io.detectFile with stage := .boardDetection }
  | .boardDetection =>
      { device.detectBoard io.detectConnectStatus with stage := .checkNetwork }
  | .checkNetwork =>
      if device.deviceMode = .programUID then
        { device.checkNetwork io.socket with stage := .msgTransceiver }
      else { device with stage := .statusUpdate }
  | .msgTransceiver =>
      { device.msgTransceiverHandle io.socket io.recvJson io.answers with
        stage := .statusUpdate }
  | .statusUpdate =>
      { device.guardedStatusUpdate io.programRet with stage := .modeSwitch }

/-! ### Start-up -/

/-- The globals as their initialisers and the `resetEventFlags` call at the
beginning of `main` leave them. -/
def initialGlobals (mac : Bytes) : Device :=
  resetEventFlags
    { deviceMode := .programUID
      devStatus := .binNotFound
      eventFlags := EventFlags.cleared
      networkEvent :=
        { authorizeReqFlag := false
          heartbeatFlag := false
          uidReqFlag := false
          notifyResultFlag := false
          offlineFlag := false
          firstConnectFlag := false
          authorizePassFlag := false }
      msgHandle :=
        { msgSendId := .invalid
          msgRecvId := .invalid
          recvRespCode := enumByte respCodeDefault }
      tcpSock := { sockFd := -1, isConnected := false }
      systemTimer := 0
      sendMsgTime := 0
      uid := []
      devMAC := mac
      outBuffer := []
      stage := .modeSwitch
      log := [] }

/-- The lines of `main` that prepare the state for the threads. -/
def prepareThreads (device : Device) : Device :=
  { device.initNetworkEvent with
    devStatus :=
      if device.deviceMode = .programUID then .disconnected else .binNotFound }

end Device

inductive Button where
  | sw2
  | sw3
deriving DecidableEq, Repr

def Button.release : Button → Device → Device
  | .sw2 => Device.sw2Release
  | .sw3 => Device.sw3Release

/-- The state in which the threads start: the buttons may already be pressed
while `main` prepares it. -/
def startState (mac : Bytes) (presses : List Button) : Device :=
  (TransitionRuns.run Button.release presses
    (Device.initialGlobals mac)).prepareThreads

inductive Action where
  | press (button : Button)
  | tick
  | main (io : MainIO)

/-- The transition function that interleaves the main thread, the interrupts
and the tick. -/
def step : Action → Device → Device
  | .press button, device => button.release device
  | .tick, device => device.sysTick
  | .main io, device => device.mainStage io

/-- One turn of the loop of `mainThread` in `MODE_PROGRAM_UID` with no mode
switch pending. -/
def iteration (io : MainIO) : List Action :=
  List.replicate 6 (.main io)

/-- A turn in which nothing arrives. -/
def quietTurn : List Action :=
  iteration (.succeeding none none)

/-- A turn in which a success answer to the transmission with the given time
stamp arrives. -/
def answeredTurn (apiId : Int) (uid : Option Bytes) (time : Nat) : List Action :=
  iteration (.succeeding (some (answerJson apiId respCodeSuccess uid)) (some time))

/-- The two turns in which the device connects and is authorised. -/
def authorisedTurns : List Action :=
  quietTurn ++ answeredTurn apiIdAuth none 3

def runFrom (mac : Bytes) (presses : List Button) (actions : List Action) :
    Device :=
  TransitionRuns.run step actions (startState mac presses)

end OnlineProgram
