import OnlineProgram.ByteStrings

/-!
# The state of the programmer

The globals of `OnlineProgram.cpp` and `network.cpp` that the main thread, the
two button interrupts and the one-second tick share, together with the point
the main thread has reached in its loop.  The record also carries a history of
the observable events; no function of the program reads it.
-/

namespace OnlineProgram

inductive Mode where
  | programCode
  | programUID
deriving DecidableEq, Repr

inductive DevStatus where
  | binNotFound
  | disconnected
  | connected
  | programing
  | programSuccess
  | programFail
deriving DecidableEq, Repr

structure EventFlags where
  binFileExsitFlag : Bool
  boardConnectedFlag : Bool
  startProgramFlag : Bool
  resetDevStatusFlag : Bool
  modeSwitchFlag : Bool
  uidAvailableFlag : Bool
  uidProgramSuccessFlag : Bool
  notifyDoneFlag : Bool
deriving DecidableEq, Repr

/-- All event flags lowered. -/
def EventFlags.cleared : EventFlags :=
  { binFileExsitFlag := false
    boardConnectedFlag := false
    startProgramFlag := false
    resetDevStatusFlag := false
    modeSwitchFlag := false
    uidAvailableFlag := false
    uidProgramSuccessFlag := false
    notifyDoneFlag := false }

structure NetworkEvent where
  authorizeReqFlag : Bool
  heartbeatFlag : Bool
  uidReqFlag : Bool
  notifyResultFlag : Bool
  offlineFlag : Bool
  firstConnectFlag : Bool
  authorizePassFlag : Bool
deriving DecidableEq, Repr

/-- The flags that `initNetworkEvent` stores. -/
def NetworkEvent.initial : NetworkEvent :=
  { authorizeReqFlag := false
    heartbeatFlag := false
    notifyResultFlag := false
    offlineFlag := true
    uidReqFlag := false
    firstConnectFlag := true
    authorizePassFlag := false }

inductive MsgId where
  | invalid
  | auth
  | getUid
  | notify
deriving DecidableEq, Repr

/-- `API_ID_T`, as the integers that messages carry. -/
def apiIdAuth : Int := 1
def apiIdHeartbeat : Int := 2
def apiIdGetUid : Int := 10
def apiIdNotifyProgramUidResult : Int := 20

/-- `RESP_CODE_T`, as the integers that messages carry. -/
def respCodeDefault : Int := 0
def respCodeSuccess : Int := 100

/-- What an object of type `API_ID_T` or `RESP_CODE_T` holds of a number that
is cast to it: the enums take one byte each, and the cast drops the others. -/
def enumByte (value : Int) : UInt8 :=
  UInt8.ofInt value

/-- The `apiId` that belongs to a request id. -/
def MsgId.apiId : MsgId → Option Int
  | .invalid => none
  | .auth => some apiIdAuth
  | .getUid => some apiIdGetUid
  | .notify => some apiIdNotifyProgramUidResult

/-- `MSG_HANDLE_T` without `sendRespCode`, which nothing reads or writes. -/
structure MsgHandle where
  msgSendId : MsgId
  msgRecvId : MsgId
  recvRespCode : UInt8
deriving DecidableEq, Repr

/-- The members of `TCPSocketConnection` that decide what its calls return. -/
structure TCPSocketConnection where
  sockFd : Int
  isConnected : Bool
deriving DecidableEq, Repr

/-- The three members that `parseRecvMsgInfo` reads from a message, before the
casts to the enums: `uid` is the text that `%s` makes of the `UID` item, or
`none` without such an item. -/
structure Response where
  respCode : Int
  apiId : Int
  uid : Option Bytes
deriving DecidableEq, Repr

/-- What an observer of a run can see.  `startRequested` and `uidRequested`
record that `sw2_release` has set `startProgramFlag` or `uidReqFlag`,
`requestStarted` that `msgTransceiverHandle` has taken a request flag into
`msgSendId`, and `received` that `parseRecvMsgInfo` handles a message; there
`answers` is the time stamp of the transmission that the server answers, if
any.  `statusUpdated` carries the `boardConnectedFlag` that one run of
`updateDeviceStatus` saw and `devStatus` before and after it. -/
inductive Event where
  | startRequested
  | uidRequested
  | modeSwitched (mode : Mode)
  | flagsReset
  | binDetected (found : Bool)
  | connected
  | heartbeatSent (text : Bytes)
  | requestStarted (msgId : MsgId)
  | transmitted (msgId : MsgId) (text : Bytes)
  | received (response : Response) (answers : Option Nat)
  | programBinFileV1Called (ret : Int)
  | programUIDCalled (id : Bytes) (ret : Int)
  | statusUpdated (boardConnected : Bool) (before after : DevStatus)
deriving DecidableEq, Repr

/-- The place of the main thread in its loop.  `modeSwitchDelay` is inside
`Indicator_modeSwitch`. -/
inductive Stage where
  | modeSwitch
  | modeSwitchDelay
  | binDetection
  | boardDetection
  | checkNetwork
  | msgTransceiver
  | statusUpdate
deriving DecidableEq, Repr

structure Device where
  deviceMode : Mode
  devStatus : DevStatus
  eventFlags : EventFlags
  networkEvent : NetworkEvent
  msgHandle : MsgHandle
  tcpSock : TCPSocketConnection
  systemTimer : UInt32
  sendMsgTime : UInt32
  uid : Bytes
  devMAC : Bytes
  outBuffer : Bytes
  stage : Stage
  log : List Event
deriving DecidableEq, Repr

namespace Device

def emit (event : Event) (device : Device) : Device :=
  { device with log := event :: device.log }

end Device

end OnlineProgram
