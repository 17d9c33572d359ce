import OnlineProgram.DeviceState

/-!
# The network layer

The functions of `network.cpp` as state transformers.  What the world outside
answers is an argument: the results of the socket calls and the JSON value
that `cJSON_Parse` makes of a received text.
-/

namespace OnlineProgram

open ByteStrings

/-! ### cJSON values -/

/-- A `cJSON` node: its name in the parent object, its number and string
values, and its children.  An item that is not a string has no
`valuestring`. -/
structure CJson where
  string : Option Bytes
  valueint : Int
  valuestring : Option Bytes
  child : List CJson

def tolower (byte : UInt8) : UInt8 :=
  if 65 ≤ byte ∧ byte ≤ 90 then byte + 32 else byte

/-- `cJSON_GetObjectItem`: the first child whose name agrees up to case. -/
def cjsonGetObjectItem (object : CJson) (string : Bytes) : Option CJson :=
  object.child.find? fun item =>
    item.string.any fun name => name.map tolower = string.map tolower

/-- The JSON object of an answer. -/
def answerJson (apiId respCode : Int) (uid : Option Bytes) : CJson :=
  let number (name : String) (value : Int) : CJson :=
    { string := some (ascii name), valueint := value, valuestring := none,
      child := [] }
  { string := none
    valueint := 0
    valuestring := none
    child :=
      [number "apiId" apiId, number "respCode" respCode] ++
        uid.toList.map fun text =>
          { string := some (ascii "UID"), valueint := 0,
            valuestring := some text, child := [] } }

/-! ### The socket -/

/-- The results of the lwIP calls that one main-loop stage makes, and the text
that `sprintf` makes of a null pointer. -/
structure SocketIO where
  lwipSocket : Int
  setAddress : Int
  lwipConnect : Int
  waitWritable : Int
  lwipSend : Int
  waitReadable : Int
  lwipRecv : Int
  nullText : Bytes

namespace TCPSocketConnection

def close (sock : TCPSocketConnection) : TCPSocketConnection :=
  if sock.sockFd < 0 then sock else { sock with sockFd := -1 }

/-- `TCPSocketConnection::connect` with its call of `init_socket`. -/
def connect (io : SocketIO) (sock : TCPSocketConnection) :
    Int × TCPSocketConnection :=
  if sock.sockFd ≠ -1 then (-1, sock)
  else if io.lwipSocket < 0 then (-1, sock)
  else
    let sock := { sock with sockFd := io.lwipSocket }
    if io.setAddress ≠ 0 then (-1, sock)
    else if io.lwipConnect < 0 then (-1, sock.close)
    else (0, { sock with isConnected := true })

/-- `TCPSocketConnection::send` in the non-blocking mode that `initNetwork`
selects. -/
def send (io : SocketIO) (sock : TCPSocketConnection) :
    Int × TCPSocketConnection :=
  if sock.sockFd < 0 ∨ sock.isConnected = false then (-1, sock)
  else if io.waitWritable ≠ 0 then (-1, sock)
  else (io.lwipSend, { sock with isConnected := io.lwipSend != 0 })

def receive (io : SocketIO) (sock : TCPSocketConnection) :
    Int × TCPSocketConnection :=
  if sock.sockFd < 0 ∨ sock.isConnected = false then (-1, sock)
  else if io.waitReadable ≠ 0 then (-1, sock)
  else (io.lwipRecv, { sock with isConnected := io.lwipRecv != 0 })

end TCPSocketConnection

/-- Every call succeeds, and nothing has arrived. -/
def SocketIO.quiet : SocketIO :=
  { lwipSocket := 0
    setAddress := 0
    lwipConnect := 0
    waitWritable := 0
    lwipSend := 1
    waitReadable := -1
    lwipRecv := 0
    nullText := [] }

/-- Every call succeeds, and a text has arrived. -/
def SocketIO.arriving : SocketIO :=
  { SocketIO.quiet with waitReadable := 0, lwipRecv := 1 }

/-! ### Message texts -/

def customerCode : Bytes := ascii "0000000100000002abcdefgh"

def reqAuth (apiId : Int) (mac : Bytes) (reconnect : Bool) : Bytes :=
  ascii "\x7b\"apiId\":" ++ formatD apiId ++ ascii ",\"mac\":\"" ++ mac ++
    ascii "\",\"reconnect\":" ++ formatBool reconnect ++ ascii "\x7d"

def reqGetUid (apiId : Int) (code : Bytes) : Bytes :=
  ascii "\x7b\"apiId\":" ++ formatD apiId ++ ascii ",\"customerCode\":\"" ++ code ++
    ascii "\"\x7d"

def reqNotifyResult (apiId : Int) (uid : Bytes) (result : Bool) : Bytes :=
  ascii "\x7b\"apiId\":" ++ formatD apiId ++ ascii ",\"UID\":\"" ++ uid ++
    ascii "\",\"result\":" ++ formatBool result ++ ascii "\x7d"

def reqHeartbeat (apiId : Int) : Bytes :=
  ascii "\x7b\"apiId\":" ++ formatD apiId ++ ascii "\x7d"

/-- A result message determines the UID and the result it reports. -/
theorem reqNotifyResult_inj {apiId : Int} {uid uid' : Bytes}
    {result result' : Bool} :
    reqNotifyResult apiId uid result = reqNotifyResult apiId uid' result' ↔
      uid = uid' ∧ result = result' := by
  constructor
  · intro same
    simp only [reqNotifyResult, List.append_assoc, List.append_cancel_left_eq]
      at same
    obtain ⟨uidEq, restEq⟩ := List.append_inj' same (by
      simp [formatBool_length])
    refine ⟨uidEq, formatBool_injective ?_⟩
    simpa using restEq
  · rintro ⟨rfl, rfl⟩
    rfl

def msgResendPeriodS : UInt32 := 5

/-! ### The functions of `network.cpp` -/

namespace Device

def initNetworkEvent (device : Device) : Device :=
  { device with networkEvent := NetworkEvent.initial }

def reconnect (io : SocketIO) (device : Device) : Device :=
  let connection := device.tcpSock.close.connect io
  let device := { device with tcpSock := connection.2 }
  if connection.1 < 0 then device
  else
    { device with
      networkEvent.firstConnectFlag := false
      networkEvent.offlineFlag := false
      networkEvent.authorizeReqFlag := true }.emit .connected

def heartbeat (io : SocketIO) (device : Device) : Device :=
  let sent := device.tcpSock.send io
  let device :=
    { device with networkEvent.heartbeatFlag := false, tcpSock := sent.2 }
  if sent.1 < 0 then
    { device with
      networkEvent.offlineFlag := true
      networkEvent.authorizePassFlag := false }
  else device.emit (.heartbeatSent (reqHeartbeat apiIdHeartbeat))

def checkNetwork (io : SocketIO) (device : Device) : Device :=
  if device.networkEvent.offlineFlag = true then device.reconnect io
  else if device.networkEvent.heartbeatFlag = true then device.heartbeat io
  else device

/-- The text that `sendMsgHandle` formats for a request id. -/
def requestText (device : Device) : MsgId → Option Bytes
  | .auth => some (reqAuth apiIdAuth device.devMAC
      !device.networkEvent.firstConnectFlag)
  | .getUid => some (reqGetUid apiIdGetUid customerCode)
  | .notify => some (reqNotifyResult apiIdNotifyProgramUidResult device.uid
      device.eventFlags.uidProgramSuccessFlag)
  | .invalid => none

def sendMsgHandle (msgId : MsgId) (io : SocketIO) (device : Device) : Device :=
  match device.requestText msgId with
  | none => device
  | some text =>
      let sent := device.tcpSock.send io
      let device := { device with outBuffer := text, tcpSock := sent.2 }
      if 0 ≤ sent.1 then
        { device with
          msgHandle.msgSendId := msgId
          sendMsgTime := device.systemTimer }.emit (.transmitted msgId text)
      else device

def dispatchResponse (response : Response) (device : Device) : Device :=
  let apiId := enumByte response.apiId
  if apiId = enumByte apiIdAuth then
    let device := { device with msgHandle.msgRecvId := .auth }
    if device.msgHandle.recvRespCode = enumByte respCodeSuccess then
      { device with networkEvent.authorizePassFlag := true }
    else device
  else if apiId = enumByte apiIdGetUid then
    let device := { device with msgHandle.msgRecvId := .getUid }
    match response.uid with
    | some uid =>
        if device.msgHandle.recvRespCode = enumByte respCodeSuccess then
          { device with uid := uid, eventFlags.uidAvailableFlag := true }
        else device
    | none => device
  else if apiId = enumByte apiIdNotifyProgramUidResult then
    let device := { device with msgHandle.msgRecvId := .notify }
    if device.msgHandle.recvRespCode = enumByte respCodeSuccess then
      { device with eventFlags.notifyDoneFlag := true }
    else device
  else device

/-- The comparison at the end of `parseRecvMsgInfo` that frees the request
slot. -/
def clearRequest (device : Device) : Device :=
  if device.msgHandle.msgSendId = device.msgHandle.msgRecvId ∧
      device.msgHandle.recvRespCode = enumByte respCodeSuccess then
    { device with
      msgHandle :=
        { msgSendId := .invalid
          msgRecvId := .invalid
          recvRespCode := enumByte respCodeDefault } }
  else device

/-- The part of `parseRecvMsgInfo` that runs when both `respCode` and `apiId`
are present. -/
def handleResponse (response : Response) (answers : Option Nat)
    (device : Device) : Device :=
  let device := device.emit (.received response answers)
  let device :=
    { device with msgHandle.recvRespCode := enumByte response.respCode }
  (device.dispatchResponse response).clearRequest

/-- The members that `parseRecvMsgInfo` looks up, when the two required ones
are there. -/
def readResponse (nullText : Bytes) (json : CJson) : Option Response :=
  match cjsonGetObjectItem json (ascii "respCode"),
      cjsonGetObjectItem json (ascii "apiId") with
  | some respCode, some apiId =>
      some
        { respCode := respCode.valueint
          apiId := apiId.valueint
          uid := (cjsonGetObjectItem json (ascii "UID")).map fun item =>
            formatS nullText item.valuestring }
  | _, _ => none

def parseRecvMsgInfo (nullText : Bytes) (json : Option CJson)
    (answers : Option Nat) (device : Device) : Device :=
  match json.bind (readResponse nullText) with
  | none => device
  | some response => device.handleResponse response answers

def msgRecvHandle (io : SocketIO) (json : Option CJson) (answers : Option Nat)
    (device : Device) : Device :=
  let received := device.tcpSock.receive io
  let device := { device with tcpSock := received.2 }
  if 0 < received.1 then device.parseRecvMsgInfo io.nullText json answers
  else device

/-- The assignment of a request flag to `msgSendId` and the first send, in
`msgTransceiverHandle`. -/
def startRequest (msgId : MsgId) (io : SocketIO) (device : Device) : Device :=
  ({ device with msgHandle.msgSendId := msgId }.emit
    (.requestStarted msgId)).sendMsgHandle msgId io

def msgSendPhase (io : SocketIO) (device : Device) : Device :=
  if device.msgHandle.msgSendId ≠ .invalid then
    if msgResendPeriodS ≤ device.systemTimer - device.sendMsgTime then
      device.sendMsgHandle device.msgHandle.msgSendId io
    else device
  else if device.networkEvent.authorizeReqFlag = true then
    { device with networkEvent.authorizeReqFlag := false }.startRequest .auth io
  else if device.networkEvent.uidReqFlag = true then
    { device with networkEvent.uidReqFlag := false }.startRequest .getUid io
  else if device.networkEvent.notifyResultFlag = true then
    { device with networkEvent.notifyResultFlag := false }.startRequest .notify io
  else device

def msgTransceiverHandle (io : SocketIO) (json : Option CJson)
    (answers : Option Nat) (device : Device) : Device :=
  if device.networkEvent.offlineFlag = false then
    (device.msgSendPhase io).msgRecvHandle io json answers
  else device

end Device

end OnlineProgram
