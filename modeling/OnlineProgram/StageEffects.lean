import OnlineProgram.MainThread
import Mathlib.Logic.Relation

/-!
# What one step can do

Every function of the main loop in closed form: the fields that it can change,
each with its new value.  The invariants of the later files are proved from
these equations and never unfold the functions again.
-/

namespace OnlineProgram

/-! ### Messages -/

namespace Response

/-- The request id that the switch over `apiId` selects. -/
def msgId (response : Response) : Option MsgId :=
  if enumByte response.apiId = enumByte apiIdAuth then some .auth
  else if enumByte response.apiId = enumByte apiIdGetUid then some .getUid
  else if enumByte response.apiId = enumByte apiIdNotifyProgramUidResult then
    some .notify
  else none

/-- The device takes the message for a success answer to the given kind of
request: it compares the codes after the casts to the one-byte enums. -/
def Succeeds (msgId : MsgId) (response : Response) : Prop :=
  response.msgId = some msgId ∧
    enumByte response.respCode = enumByte respCodeSuccess

instance (msgId : MsgId) (response : Response) :
    Decidable (response.Succeeds msgId) :=
  inferInstanceAs (Decidable (_ ∧ _))

/-- The message carries the success code and the `apiId` that belongs to the
given kind of request. -/
def CarriesSuccess (msgId : MsgId) (response : Response) : Prop :=
  msgId.apiId = some response.apiId ∧ response.respCode = respCodeSuccess

instance (msgId : MsgId) (response : Response) :
    Decidable (response.CarriesSuccess msgId) :=
  inferInstanceAs (Decidable (_ ∧ _))

/-- The message passes for a success answer only because the casts drop the
upper bytes of its codes. -/
def Mistaken (msgId : MsgId) (response : Response) : Prop :=
  response.Succeeds msgId ∧ ¬ response.CarriesSuccess msgId

instance (msgId : MsgId) (response : Response) :
    Decidable (response.Mistaken msgId) :=
  inferInstanceAs (Decidable (_ ∧ _))

/-- The UID that the device takes from a message. -/
def deliveredUid (response : Response) : Option Bytes :=
  if response.Succeeds .getUid then response.uid else none

theorem msgId_of_apiId {response : Response} {msgId : MsgId}
    (apiId : msgId.apiId = some response.apiId) : response.msgId = some msgId := by
  cases msgId with
  | invalid => exact absurd apiId (by simp [MsgId.apiId])
  | auth | getUid | notify =>
      simp only [MsgId.apiId, Option.some.injEq] at apiId
      rw [Response.msgId, ← apiId]
      decide

theorem msgId_eq_getUid_iff (response : Response) :
    response.msgId = some .getUid ↔ enumByte response.apiId = enumByte apiIdGetUid := by
  have getUidNotAuth : enumByte apiIdGetUid ≠ enumByte apiIdAuth := by decide
  constructor
  · intro kind
    unfold Response.msgId at kind
    split_ifs at kind with auth getUid notify
    · exact absurd kind (by simp)
    · exact getUid
    · exact absurd kind (by simp)
  · intro same
    rw [Response.msgId, if_neg (by rw [same]; exact getUidNotAuth), if_pos same]

theorem CarriesSuccess.succeeds {response : Response} {msgId : MsgId}
    (carries : response.CarriesSuccess msgId) : response.Succeeds msgId :=
  ⟨msgId_of_apiId carries.1, by rw [carries.2]⟩

/-- What passes for a success answer carries its codes or is mistaken for
one. -/
theorem succeeds_iff (response : Response) (msgId : MsgId) :
    response.Succeeds msgId ↔
      response.CarriesSuccess msgId ∨ response.Mistaken msgId := by
  constructor
  · intro succeeds
    by_cases carries : response.CarriesSuccess msgId
    · exact Or.inl carries
    · exact Or.inr ⟨succeeds, carries⟩
  · rintro (carries | mistaken)
    · exact carries.succeeds
    · exact mistaken.1

theorem not_mistaken_invalid (response : Response) :
    ¬ response.Mistaken .invalid := by
  rintro ⟨⟨none, -⟩, -⟩
  unfold Response.msgId at none
  split_ifs at none <;> simp at none

end Response

/-- The effect of a message on `msgHandle`: the id that the switch selects is
stored, and a success answer frees the slot when the stored ids agree. -/
def MsgHandle.receive (response : Response) (handle : MsgHandle) : MsgHandle :=
  let recvId := response.msgId.getD handle.msgRecvId
  if handle.msgSendId = recvId ∧
      enumByte response.respCode = enumByte respCodeSuccess then
    { msgSendId := .invalid
      msgRecvId := .invalid
      recvRespCode := enumByte respCodeDefault }
  else
    { handle with
      msgRecvId := recvId
      recvRespCode := enumByte response.respCode }

namespace Device

theorem handleResponse_eq (response : Response) (answers : Option Nat)
    (device : Device) :
    device.handleResponse response answers =
      { device with
        networkEvent.authorizePassFlag :=
          device.networkEvent.authorizePassFlag || response.Succeeds .auth
        uid := response.deliveredUid.getD device.uid
        eventFlags.uidAvailableFlag :=
          device.eventFlags.uidAvailableFlag || response.deliveredUid.isSome
        eventFlags.notifyDoneFlag :=
          device.eventFlags.notifyDoneFlag || response.Succeeds .notify
        msgHandle := device.msgHandle.receive response
        log := .received response answers :: device.log } := by
  rcases device with ⟨mode, status, ⟨⟩, ⟨⟩, handle, sock, timer, stamp,
    uid, mac, buffer, stage, log⟩
  rcases response with ⟨respCode, apiId, answerUid⟩
  have getUidNotAuth : enumByte apiIdGetUid ≠ enumByte apiIdAuth := by decide
  have notifyNotAuth :
      enumByte apiIdNotifyProgramUidResult ≠ enumByte apiIdAuth := by decide
  have notifyNotGetUid :
      enumByte apiIdNotifyProgramUidResult ≠ enumByte apiIdGetUid := by decide
  simp only [handleResponse, dispatchResponse, clearRequest, emit,
    MsgHandle.receive, Response.deliveredUid, Response.Succeeds, Response.msgId]
  by_cases success : enumByte respCode = enumByte respCodeSuccess
  · by_cases auth : enumByte apiId = enumByte apiIdAuth
    · by_cases slot : handle.msgSendId = .auth <;> simp [success, auth, slot]
    by_cases getUid : enumByte apiId = enumByte apiIdGetUid
    · cases answerUid <;> by_cases slot : handle.msgSendId = .getUid <;>
        simp [success, getUid, slot, getUidNotAuth]
    by_cases notify : enumByte apiId = enumByte apiIdNotifyProgramUidResult
    · by_cases slot : handle.msgSendId = .notify <;>
        simp [success, notify, slot, notifyNotAuth, notifyNotGetUid]
    by_cases slot : handle.msgSendId = handle.msgRecvId <;>
      simp [success, auth, getUid, notify, slot]
  · by_cases auth : enumByte apiId = enumByte apiIdAuth
    · simp [success, auth]
    by_cases getUid : enumByte apiId = enumByte apiIdGetUid
    · cases answerUid <;> simp [success, getUid, getUidNotAuth]
    by_cases notify : enumByte apiId = enumByte apiIdNotifyProgramUidResult
    · simp [success, notify, notifyNotAuth, notifyNotGetUid]
    simp [success, auth, getUid, notify]

/-! ### The request slot -/

/-- The request that an empty slot takes next. -/
def nextRequest (network : NetworkEvent) : Option MsgId :=
  if network.authorizeReqFlag then some .auth
  else if network.uidReqFlag then some .getUid
  else if network.notifyResultFlag then some .notify
  else none

theorem uidReqFlag_of_nextRequest {network : NetworkEvent}
    (next : nextRequest network = some .getUid) : network.uidReqFlag = true := by
  unfold nextRequest at next
  split_ifs at next with auth getUid
  · simp at next
  · exact getUid
  · simp at next

theorem notifyResultFlag_of_nextRequest {network : NetworkEvent}
    (next : nextRequest network = some .notify) :
    network.notifyResultFlag = true := by
  unfold nextRequest at next
  split_ifs at next with auth getUid notify
  · simp at next
  · simp at next
  · exact notify

/-- The network flags once the flag of a request has been taken. -/
def takeRequest (msgId : MsgId) (network : NetworkEvent) : NetworkEvent :=
  match msgId with
  | .auth => { network with authorizeReqFlag := false }
  | .getUid => { network with uidReqFlag := false }
  | .notify => { network with notifyResultFlag := false }
  | .invalid => network

/-- The request is formatted but the socket refuses it. -/
theorem sendMsgHandle_of_unformatted {msgId : MsgId} {device : Device}
    (format : device.requestText msgId = none) (io : SocketIO) :
    device.sendMsgHandle msgId io = device := by
  simp [sendMsgHandle, format]

theorem sendMsgHandle_of_refused (msgId : MsgId) {io : SocketIO}
    {device : Device} (refused : ¬ 0 ≤ (device.tcpSock.send io).1) :
    ∃ buffer sock, device.sendMsgHandle msgId io =
      { device with outBuffer := buffer, tcpSock := sock } := by
  cases text : device.requestText msgId with
  | none => exact ⟨device.outBuffer, device.tcpSock, sendMsgHandle_of_unformatted text io⟩
  | some text' =>
      exact ⟨text', _, by simp only [sendMsgHandle, text, if_neg refused]; rfl⟩

theorem sendMsgHandle_of_sent {msgId : MsgId} {io : SocketIO}
    {device : Device} {text : Bytes}
    (format : device.requestText msgId = some text)
    (sent : 0 ≤ (device.tcpSock.send io).1) :
    device.sendMsgHandle msgId io =
      { device with
        outBuffer := text
        tcpSock := (device.tcpSock.send io).2
        msgHandle.msgSendId := msgId
        sendMsgTime := device.systemTimer
        log := .transmitted msgId text :: device.log } := by
  simp only [sendMsgHandle, format, if_pos sent]
  rfl

theorem requestText_of_ne_invalid (device : Device) {msgId : MsgId}
    (valid : msgId ≠ .invalid) : ∃ text, device.requestText msgId = some text := by
  cases msgId with
  | invalid => exact absurd rfl valid
  | auth => exact ⟨_, rfl⟩
  | getUid => exact ⟨_, rfl⟩
  | notify => exact ⟨_, rfl⟩

end Device

/-- One change of the shared state, other than the handling of a message and
the run of `updateDeviceStatus`.  `silent` covers the fields that no flag or
status depends on.  The proposition `sends` says whether the two changes that
belong to the sending half of `msgTransceiverHandle` are among them, and
`switches` whether the three that belong to a mode switch are. -/
inductive Change (sends switches : Prop) : Device → Device → Prop
  | silent {device : Device} (stage : Stage) (timer stamp : UInt32)
      (heartbeat : Bool) (sock : TCPSocketConnection) (buffer : Bytes) :
      Change sends switches device
        { device with
          stage := stage
          systemTimer := timer
          sendMsgTime := stamp
          networkEvent.heartbeatFlag := heartbeat
          tcpSock := sock
          outBuffer := buffer }
  | startRequested {device : Device} (mode : device.deviceMode = .programCode)
      (status : device.devStatus = .connected) :
      Change sends switches device
        { device with
          eventFlags.startProgramFlag := true
          log := .startRequested :: device.log }
  | uidRequested {device : Device} (mode : device.deviceMode = .programUID)
      (status : device.devStatus = .connected) :
      Change sends switches device
        { device with
          networkEvent.uidReqFlag := true
          log := .uidRequested :: device.log }
  | resetRequested {device : Device}
      (status : device.devStatus = .programFail ∨
        device.devStatus = .programSuccess) :
      Change sends switches device { device with eventFlags.resetDevStatusFlag := true }
  | modeSwitched {device : Device} (allowed : switches) :
      Change sends switches device
        { device with
          eventFlags.modeSwitchFlag := true
          deviceMode := Device.otherMode device.deviceMode
          log := .modeSwitched (Device.otherMode device.deviceMode) :: device.log }
  | uidModeEntered {device : Device} (allowed : switches)
      (mode : device.deviceMode = .programUID) :
      Change sends switches device
        { device with
          eventFlags := EventFlags.cleared
          networkEvent := NetworkEvent.initial
          devStatus := .disconnected
          log := .flagsReset :: device.log }
  | codeModeEntered {device : Device} (allowed : switches)
      (mode : device.deviceMode = .programCode) :
      Change sends switches device
        { device with
          eventFlags := EventFlags.cleared
          tcpSock := device.tcpSock.close
          devStatus := .binNotFound
          log := .flagsReset :: device.log }
  | binDetected {device : Device} (found : Bool)
      (mode : device.deviceMode = .programCode) :
      Change sends switches device
        { device with
          eventFlags.binFileExsitFlag := found
          log := .binDetected found :: device.log }
  | boardDetected {device : Device} (found : Bool) :
      Change sends switches device { device with eventFlags.boardConnectedFlag := found }
  | connected {device : Device}
      (offline : device.networkEvent.offlineFlag = true) :
      Change sends switches device
        { device with
          networkEvent.firstConnectFlag := false
          networkEvent.offlineFlag := false
          networkEvent.authorizeReqFlag := true
          log := .connected :: device.log }
  | heartbeatSent {device : Device}
      (online : device.networkEvent.offlineFlag = false) (text : Bytes) :
      Change sends switches device { device with log := .heartbeatSent text :: device.log }
  | heartbeatLost {device : Device}
      (online : device.networkEvent.offlineFlag = false) :
      Change sends switches device
        { device with
          networkEvent.offlineFlag := true
          networkEvent.authorizePassFlag := false }
  | requestStarted {device : Device} (allowed : sends) (msgId : MsgId)
      (online : device.networkEvent.offlineFlag = false)
      (free : device.msgHandle.msgSendId = .invalid)
      (next : Device.nextRequest device.networkEvent = some msgId) :
      Change sends switches device
        { device with
          networkEvent := Device.takeRequest msgId device.networkEvent
          msgHandle.msgSendId := msgId
          log := .requestStarted msgId :: device.log }
  | transmitted {device : Device} (allowed : sends) (msgId : MsgId)
      (text : Bytes)
      (online : device.networkEvent.offlineFlag = false)
      (pending : device.msgHandle.msgSendId = msgId)
      (format : device.requestText msgId = some text) :
      Change sends switches device
        { device with log := .transmitted msgId text :: device.log }

namespace Change

/-- A predicate that single changes keep is kept by a chain of them. -/
theorem chain_preserves {sends switches : Prop} {Inv : Device → Prop}
    (keeps : ∀ {before after}, Change sends switches before after → Inv before → Inv after)
    {before after : Device}
    (chain : Relation.ReflTransGen (Change sends switches) before after) (start : Inv before) :
    Inv after := by
  induction chain with
  | refl => exact start
  | tail _ change ih => exact keeps change ih

end Change

namespace Device

open Relation

variable {sends switches : Prop}

theorem sysTick_change (device : Device) :
    ReflTransGen (Change sends switches) device device.sysTick := by
  apply ReflTransGen.single
  unfold sysTick
  dsimp only
  split
  · exact Change.silent device.stage _ device.sendMsgTime true device.tcpSock
      device.outBuffer
  · exact Change.silent device.stage _ device.sendMsgTime
      device.networkEvent.heartbeatFlag device.tcpSock device.outBuffer

theorem sw2Release_change (device : Device) :
    ReflTransGen (Change sends switches) device device.sw2Release := by
  by_cases status : device.devStatus = .connected
  · apply ReflTransGen.single
    cases mode : device.deviceMode with
    | programCode =>
        have closed : Change sends switches device _ := .startRequested mode status
        simpa [sw2Release, mode, status, emit] using closed
    | programUID =>
        have closed : Change sends switches device _ := .uidRequested mode status
        simpa [sw2Release, mode, status, emit] using closed
  · by_cases result : device.devStatus = .programFail ∨
        device.devStatus = .programSuccess
    · apply ReflTransGen.single
      have closed : Change sends switches device _ := .resetRequested result
      simpa [sw2Release, status, result] using closed
    · simpa [sw2Release, status, result] using ReflTransGen.refl

theorem finishModeSwitch_change (device : Device) (allowed : switches) :
    Change sends switches device device.finishModeSwitch := by
  cases mode : device.deviceMode with
  | programUID =>
      have entered : Change sends switches device _ := .uidModeEntered allowed mode
      simpa [finishModeSwitch, resetEventFlags, initNetworkEvent, emit, mode]
        using entered
  | programCode =>
      have entered : Change sends switches device _ := .codeModeEntered allowed mode
      simpa [finishModeSwitch, resetEventFlags, emit, mode] using entered

theorem checkNetwork_change (io : SocketIO) (device : Device) :
    ReflTransGen (Change sends switches) device (device.checkNetwork io) := by
  unfold checkNetwork
  split
  · rename_i offline
    unfold reconnect
    dsimp only
    split
    · exact ReflTransGen.single (Change.silent device.stage device.systemTimer
        device.sendMsgTime device.networkEvent.heartbeatFlag _ device.outBuffer)
    · exact (ReflTransGen.single (Change.silent device.stage
        device.systemTimer device.sendMsgTime device.networkEvent.heartbeatFlag
        (device.tcpSock.close.connect io).2 device.outBuffer)).tail
          (Change.connected offline)
  · rename_i online
    split
    · unfold heartbeat
      dsimp only
      have lowered : Change sends switches device _ :=
        .silent device.stage device.systemTimer device.sendMsgTime false
          (device.tcpSock.send io).2 device.outBuffer
      split
      · exact (ReflTransGen.single lowered).tail
          (Change.heartbeatLost (by simpa using online))
      · exact (ReflTransGen.single lowered).tail
          (Change.heartbeatSent (by simpa using online) _)
    · exact ReflTransGen.refl

theorem sendMsgHandle_change {msgId : MsgId} {device : Device}
    (online : device.networkEvent.offlineFlag = false)
    (pending : device.msgHandle.msgSendId = msgId) (io : SocketIO) :
    ReflTransGen (Change True switches) device (device.sendMsgHandle msgId io) := by
  by_cases sent : 0 ≤ (device.tcpSock.send io).1
  · cases format : device.requestText msgId with
    | none =>
        rw [sendMsgHandle_of_unformatted format]
    | some text =>
        rw [sendMsgHandle_of_sent format sent]
        have transmitted : Change True switches device _ :=
          .transmitted trivial msgId text online pending format
        have stamped : Change True switches
            { device with log := .transmitted msgId text :: device.log } _ :=
          .silent device.stage device.systemTimer device.systemTimer
            device.networkEvent.heartbeatFlag (device.tcpSock.send io).2 text
        have closed := (ReflTransGen.single transmitted).tail stamped
        subst pending
        exact closed
  · obtain ⟨buffer, sock, closed⟩ := sendMsgHandle_of_refused msgId sent
    rw [closed]
    exact ReflTransGen.single (Change.silent device.stage device.systemTimer
      device.sendMsgTime device.networkEvent.heartbeatFlag sock buffer)

theorem startRequest_change (msgId : MsgId) {device : Device}
    (online : device.networkEvent.offlineFlag = false)
    (free : device.msgHandle.msgSendId = .invalid)
    (next : nextRequest device.networkEvent = some msgId) (io : SocketIO) :
    ReflTransGen (Change True switches) device
      ({ device with
        networkEvent := takeRequest msgId device.networkEvent }.startRequest
          msgId io) := by
  have started : Change True switches device _ :=
    .requestStarted trivial msgId online free next
  refine ReflTransGen.head started (sendMsgHandle_change ?_ rfl io)
  cases msgId <;> simpa [takeRequest] using online

theorem msgSendPhase_change (switches : Prop) {device : Device}
    (online : device.networkEvent.offlineFlag = false) (io : SocketIO) :
    ReflTransGen (Change True switches) device (device.msgSendPhase io) := by
  unfold msgSendPhase
  split
  · split
    · exact sendMsgHandle_change online rfl io
    · exact ReflTransGen.refl
  · rename_i occupied
    have free : device.msgHandle.msgSendId = .invalid := by simpa using occupied
    split
    · rename_i auth
      exact startRequest_change .auth online free
        (by simp [nextRequest, auth]) io
    · rename_i noAuth
      split
      · rename_i getUid
        exact startRequest_change .getUid online free
          (by simp [nextRequest, noAuth, getUid]) io
      · rename_i noGetUid
        split
        · rename_i notify
          exact startRequest_change .notify online free
            (by simp [nextRequest, noAuth, noGetUid, notify]) io
        · exact ReflTransGen.refl

/-! ### Receiving -/

/-- The message that `msgRecvHandle` hands to the rest of
`parseRecvMsgInfo`, if it gets that far. -/
def receivedResponse (io : SocketIO) (json : Option CJson)
    (device : Device) : Option Response :=
  if 0 < (device.tcpSock.receive io).1 then json.bind (readResponse io.nullText)
  else none

theorem msgRecvHandle_of_none {io : SocketIO} {json : Option CJson}
    {device : Device} (answers : Option Nat)
    (nothing : device.receivedResponse io json = none) :
    device.msgRecvHandle io json answers =
      { device with tcpSock := (device.tcpSock.receive io).2 } := by
  simp only [receivedResponse] at nothing
  simp only [msgRecvHandle, parseRecvMsgInfo]
  by_cases arrived : 0 < (device.tcpSock.receive io).1
  · rw [if_pos arrived] at nothing
    simp [arrived, nothing]
  · simp [arrived]

theorem msgRecvHandle_of_some {io : SocketIO} {json : Option CJson}
    {device : Device} {response : Response} (answers : Option Nat)
    (message : device.receivedResponse io json = some response) :
    device.msgRecvHandle io json answers =
      { device with tcpSock := (device.tcpSock.receive io).2 }.handleResponse
        response answers := by
  simp only [receivedResponse] at message
  by_cases arrived : 0 < (device.tcpSock.receive io).1
  · rw [if_pos arrived] at message
    simp only [msgRecvHandle, parseRecvMsgInfo, if_pos arrived, message]
  · simp [arrived] at message

/-- The fields that sending leaves alone. -/
structure SendFrame (before after : Device) : Prop where
  deviceMode : after.deviceMode = before.deviceMode
  devStatus : after.devStatus = before.devStatus
  eventFlags : after.eventFlags = before.eventFlags
  uid : after.uid = before.uid
  offlineFlag : after.networkEvent.offlineFlag = before.networkEvent.offlineFlag
  authorizePassFlag :
    after.networkEvent.authorizePassFlag = before.networkEvent.authorizePassFlag

theorem sendMsgHandle_frame (msgId : MsgId) (io : SocketIO) (device : Device) :
    SendFrame device (device.sendMsgHandle msgId io) := by
  by_cases sent : 0 ≤ (device.tcpSock.send io).1
  · cases format : device.requestText msgId with
    | none =>
        rw [sendMsgHandle_of_unformatted format]
        exact ⟨rfl, rfl, rfl, rfl, rfl, rfl⟩
    | some text =>
        rw [sendMsgHandle_of_sent format sent]
        exact ⟨rfl, rfl, rfl, rfl, rfl, rfl⟩
  · obtain ⟨buffer, sock, closed⟩ := sendMsgHandle_of_refused msgId sent
    rw [closed]
    exact ⟨rfl, rfl, rfl, rfl, rfl, rfl⟩

theorem startRequest_frame (msgId : MsgId) (io : SocketIO) (device : Device) :
    SendFrame device (device.startRequest msgId io) := by
  have sent := sendMsgHandle_frame msgId io
    ({ device with msgHandle.msgSendId := msgId }.emit (.requestStarted msgId))
  exact ⟨sent.deviceMode, sent.devStatus, sent.eventFlags, sent.uid,
    sent.offlineFlag, sent.authorizePassFlag⟩

theorem msgSendPhase_frame (io : SocketIO) (device : Device) :
    SendFrame device (device.msgSendPhase io) := by
  have starting (msgId : MsgId) (network : NetworkEvent)
      (offline : network.offlineFlag = device.networkEvent.offlineFlag)
      (passed : network.authorizePassFlag =
        device.networkEvent.authorizePassFlag) :
      SendFrame device
        ({ device with networkEvent := network }.startRequest msgId io) := by
    have started := startRequest_frame msgId io
      { device with networkEvent := network }
    exact ⟨started.deviceMode, started.devStatus, started.eventFlags,
      started.uid, started.offlineFlag.trans offline,
      started.authorizePassFlag.trans passed⟩
  unfold msgSendPhase
  split
  · split
    · exact sendMsgHandle_frame _ io device
    · exact ⟨rfl, rfl, rfl, rfl, rfl, rfl⟩
  · split
    · exact starting .auth _ rfl rfl
    · split
      · exact starting .getUid _ rfl rfl
      · split
        · exact starting .notify _ rfl rfl
        · exact ⟨rfl, rfl, rfl, rfl, rfl, rfl⟩

/-! ### The status machine -/

theorem updateConnected_eq (device : Device) :
    device.updateConnected =
      { device with
        devStatus :=
          if device.deviceMode = .programCode then
            if device.eventFlags.binFileExsitFlag = false then .binNotFound
            else if device.eventFlags.boardConnectedFlag = false then .disconnected
            else if device.eventFlags.startProgramFlag = true then .programing
            else device.devStatus
          else if device.eventFlags.uidAvailableFlag = true then .programing
          else if device.eventFlags.boardConnectedFlag = false then .disconnected
          else if device.eventFlags.startProgramFlag = true then .programing
          else device.devStatus
        eventFlags.startProgramFlag := false
        eventFlags.uidAvailableFlag :=
          device.eventFlags.uidAvailableFlag &&
            decide (device.deviceMode = .programCode) } := by
  rcases device with ⟨mode, status, ⟨bin, board, start, reset, switch, uidFlag,
    success, done⟩, network, handle, sock, timer, stamp, uid, mac, buffer, stage, log⟩
  cases mode <;> cases bin <;> cases board <;> cases start <;> cases uidFlag <;>
    simp [updateConnected]

/-- What the `switch` of `updateDeviceStatus` can do.  In `startTaken` a
pending start request is taken in either mode; in `uidTaken` a received UID
moves the status to programing whether or not a board is connected. -/
inductive StatusMove (ret : Int) (device : Device) : Device → Prop
  | unchanged
      (idle : device.devStatus ≠ .connected ∨
        device.eventFlags.startProgramFlag = false)
      (settled : device.devStatus ≠ .programing) :
      StatusMove ret device device
  | binFound (status : device.devStatus = .binNotFound)
      (found : device.eventFlags.binFileExsitFlag = true) :
      StatusMove ret device { device with devStatus := .disconnected }
  | boardLost (status : device.devStatus = .connected)
      (lost : device.eventFlags.boardConnectedFlag = false) :
      StatusMove ret device
        { device with
          devStatus := .disconnected
          eventFlags.startProgramFlag := false }
  | startTaken (status : device.devStatus = .connected)
      (board : device.eventFlags.boardConnectedFlag = true)
      (start : device.eventFlags.startProgramFlag = true)
      (bin : device.deviceMode = .programCode →
        device.eventFlags.binFileExsitFlag = true) :
      StatusMove ret device
        { device with
          devStatus := .programing
          eventFlags.startProgramFlag := false }
  | binLost (status : device.devStatus = .connected)
      (mode : device.deviceMode = .programCode) :
      StatusMove ret device
        { device with
          devStatus := .binNotFound
          eventFlags.startProgramFlag := false }
  | uidTaken (status : device.devStatus = .connected)
      (mode : device.deviceMode = .programUID)
      (available : device.eventFlags.uidAvailableFlag = true) :
      StatusMove ret device
        { device with
          devStatus := .programing
          eventFlags.startProgramFlag := false
          eventFlags.uidAvailableFlag := false }
  | boardFound (status : device.devStatus = .disconnected)
      (board : device.eventFlags.boardConnectedFlag = true) :
      StatusMove ret device { device with devStatus := .connected }
  | binMissing (status : device.devStatus = .disconnected)
      (mode : device.deviceMode = .programCode) :
      StatusMove ret device { device with devStatus := .binNotFound }
  | codeProgrammed (status : device.devStatus = .programing)
      (mode : device.deviceMode = .programCode) :
      StatusMove ret device
        { device with
          devStatus := if ret = 0 then .programSuccess else .programFail
          log := .programBinFileV1Called ret :: device.log }
  | uidProgrammed (status : device.devStatus = .programing)
      (mode : device.deviceMode = .programUID) :
      StatusMove ret device
        { device with
          devStatus := if ret = 0 then .programSuccess else .programFail
          eventFlags.uidProgramSuccessFlag := decide (ret = 0)
          networkEvent.notifyResultFlag := true
          log := .programUIDCalled device.uid ret :: device.log }
  | confirmedCode
      (status : device.devStatus = .programSuccess ∨
        device.devStatus = .programFail)
      (mode : device.deviceMode = .programCode) :
      StatusMove ret device
        { device with
          devStatus := .connected
          eventFlags.resetDevStatusFlag := false }
  | confirmedUid
      (status : device.devStatus = .programSuccess ∨
        device.devStatus = .programFail)
      (mode : device.deviceMode = .programUID)
      (done : device.eventFlags.notifyDoneFlag = true) :
      StatusMove ret device
        { device with
          devStatus := .connected
          eventFlags.resetDevStatusFlag := false
          eventFlags.notifyDoneFlag := false }

theorem updateConnected_move (ret : Int) {device : Device}
    (status : device.devStatus = .connected) :
    StatusMove ret device device.updateConnected := by
  rw [updateConnected_eq]
  cases mode : device.deviceMode with
  | programCode =>
      cases bin : device.eventFlags.binFileExsitFlag with
      | false =>
          have move : StatusMove ret device _ := .binLost status mode
          simpa [mode, bin] using move
      | true =>
          cases board : device.eventFlags.boardConnectedFlag with
          | false =>
              have move : StatusMove ret device _ := .boardLost status board
              simpa [mode, bin, board] using move
          | true =>
              cases start : device.eventFlags.startProgramFlag with
              | true =>
                  have move : StatusMove ret device _ := .startTaken status board
                    start fun _ => bin
                  simpa [mode, bin, board, start] using move
              | false =>
                  have move : StatusMove ret device _ := .unchanged (Or.inr start)
                    (by simp [status])
                  rcases device with ⟨_, _, ⟨⟩⟩
                  simp only at mode bin board start
                  subst mode bin board start
                  simpa using move
  | programUID =>
      cases available : device.eventFlags.uidAvailableFlag with
      | true =>
          have move : StatusMove ret device _ := .uidTaken status mode available
          simpa [mode, available] using move
      | false =>
          cases board : device.eventFlags.boardConnectedFlag with
          | false =>
              have move : StatusMove ret device _ := .boardLost status board
              simpa [mode, available, board] using move
          | true =>
              cases start : device.eventFlags.startProgramFlag with
              | true =>
                  have move : StatusMove ret device _ := .startTaken status board
                    start fun code => by simp [mode] at code
                  simpa [mode, available, board, start] using move
              | false =>
                  have move : StatusMove ret device _ := .unchanged (Or.inr start)
                    (by simp [status])
                  rcases device with ⟨_, _, ⟨⟩⟩
                  simp only at mode available board start
                  subst mode available board start
                  simpa using move

theorem updateDisconnected_move (ret : Int) {device : Device}
    (status : device.devStatus = .disconnected) :
    StatusMove ret device device.updateDisconnected := by
  have idle : device.devStatus ≠ .connected := by simp [status]
  have settled : device.devStatus ≠ .programing := by simp [status]
  unfold updateDisconnected
  dsimp only
  split
  · rename_i board
    split
    · rename_i missing
      exact StatusMove.binMissing status missing.2
    · exact StatusMove.boardFound status board
  · split
    · rename_i missing
      exact StatusMove.binMissing status missing.2
    · exact StatusMove.unchanged (Or.inl idle) settled

theorem updatePrograming_move (ret : Int) {device : Device}
    (status : device.devStatus = .programing) :
    StatusMove ret device (device.updatePrograming ret) := by
  cases mode : device.deviceMode with
  | programCode =>
      have move : StatusMove ret device _ := .codeProgrammed status mode
      by_cases success : ret = 0 <;>
        simpa [updatePrograming, mode, success, emit] using move
  | programUID =>
      have move : StatusMove ret device _ := .uidProgrammed status mode
      by_cases success : ret = 0 <;>
        simpa [updatePrograming, mode, success, emit] using move

theorem updateProgramResult_move (ret : Int) {device : Device}
    (status : device.devStatus = .programSuccess ∨
      device.devStatus = .programFail) :
    StatusMove ret device device.updateProgramResult := by
  have idle : device.devStatus ≠ .connected := by
    rcases status with status | status <;> simp [status]
  have settled : device.devStatus ≠ .programing := by
    rcases status with status | status <;> simp [status]
  unfold updateProgramResult
  split
  · split
    · rename_i mode
      exact StatusMove.confirmedCode status mode
    · rename_i mode
      have mode : device.deviceMode = .programUID := by
        cases same : device.deviceMode <;> simp_all
      split
      · rename_i done
        exact StatusMove.confirmedUid status mode done
      · exact StatusMove.unchanged (Or.inl idle) settled
  · exact StatusMove.unchanged (Or.inl idle) settled

theorem switchDevStatus_move (ret : Int) (device : Device) :
    StatusMove ret device (device.switchDevStatus ret) := by
  unfold switchDevStatus
  split
  · rename_i status
    split
    · rename_i found
      exact StatusMove.binFound status found
    · exact StatusMove.unchanged (Or.inl (by simp [status])) (by simp [status])
  · rename_i status
    exact updateConnected_move ret status
  · rename_i status
    exact updateDisconnected_move ret status
  · rename_i status
    exact updatePrograming_move ret status
  · rename_i status
    exact updateProgramResult_move ret (Or.inl status)
  · rename_i status
    exact updateProgramResult_move ret (Or.inr status)

/-- Every run of `updateDeviceStatus` lowers `startProgramFlag`, if it is raised
in the status `DEV_STATUS_CONNECTED` only. -/
theorem StatusMove.lowers {ret : Int} {before after : Device}
    (move : StatusMove ret before after)
    (connected : before.eventFlags.startProgramFlag = true →
      before.devStatus = .connected) :
    after.eventFlags.startProgramFlag = false := by
  have idle (elsewhere : before.devStatus ≠ .connected) :
      before.eventFlags.startProgramFlag = false := by
    by_contra started
    exact elsewhere (connected (by simpa using started))
  cases move with
  | unchanged unstarted => exact unstarted.elim idle id
  | boardLost | startTaken | binLost | uidTaken => rfl
  | binFound status | boardFound status | binMissing status
  | codeProgrammed status | uidProgrammed status =>
      exact idle (by simp [status])
  | confirmedCode status | confirmedUid status =>
      exact idle (by rcases status with status | status <;> simp [status])

/-- The guard of the call of `updateDeviceStatus`. -/
def StatusGuard (device : Device) : Prop :=
  (device.deviceMode = .programUID ∧
    device.networkEvent.authorizePassFlag = true) ∨
      device.deviceMode = .programCode

instance (device : Device) : Decidable device.StatusGuard :=
  inferInstanceAs (Decidable (_ ∨ _))

end Device

/-! ### Steps -/

/-- Conditions on the two kinds of step that are not a `Change`: `atReceive` is
required of every message in view of the state in which it is handled, and
`atUpdate` of every state in which `updateDeviceStatus` is called. -/
def StepMeets (atReceive : Response → Option Nat → Device → Prop)
    (atUpdate : Device → Prop) (device : Device) (action : Action) : Prop :=
  match action, device.stage with
  | .main io, .msgTransceiver =>
      device.networkEvent.offlineFlag = false →
        ∀ response ∈ (device.msgSendPhase io.socket).receivedResponse io.socket
            io.recvJson,
          atReceive response io.answers (device.msgSendPhase io.socket)
  | .main _, .statusUpdate => device.StatusGuard → atUpdate device
  | _, _ => True

instance (atReceive : Response → Option Nat → Device → Prop)
    (atUpdate : Device → Prop)
    [∀ response answers, DecidablePred (atReceive response answers)]
    [DecidablePred atUpdate] (device : Device) :
    DecidablePred (StepMeets atReceive atUpdate device)
  | .press _ | .tick => isTrue (by simp [StepMeets])
  | .main io =>
    match stage : device.stage with
    | .msgTransceiver =>
        decidable_of_iff
          (device.networkEvent.offlineFlag = false →
            ∀ response ∈ (device.msgSendPhase io.socket).receivedResponse
                io.socket io.recvJson,
              atReceive response io.answers (device.msgSendPhase io.socket))
          (by simp [StepMeets, stage])
    | .statusUpdate =>
        decidable_of_iff (device.StatusGuard → atUpdate device)
          (by simp [StepMeets, stage])
    | .modeSwitch | .modeSwitchDelay | .binDetection | .boardDetection
    | .checkNetwork => isTrue (by simp [StepMeets, stage])

theorem StepMeets.and {atReceive atReceive' : Response → Option Nat → Device → Prop}
    {atUpdate atUpdate' : Device → Prop} {device : Device} {action : Action}
    (left : StepMeets atReceive atUpdate device action)
    (right : StepMeets atReceive' atUpdate' device action) :
    StepMeets
      (fun response answers device =>
        atReceive response answers device ∧ atReceive' response answers device)
      (fun device => atUpdate device ∧ atUpdate' device) device action := by
  unfold StepMeets at left right ⊢
  split
  · rename_i stage
    simp only [stage] at left right
    intro online response message
    exact ⟨left online response message, right online response message⟩
  · rename_i stage
    simp only [stage] at left right
    intro guard
    exact ⟨left guard, right guard⟩
  · trivial

/-- A step in which a message is handled. -/
theorem step_of_received {io : MainIO} {device : Device} {response : Response}
    (stage : device.stage = .msgTransceiver)
    (online : device.networkEvent.offlineFlag = false)
    (message : (device.msgSendPhase io.socket).receivedResponse io.socket
      io.recvJson = some response) :
    ∃ sock, step (.main io) device =
      { (device.msgSendPhase io.socket).handleResponse response io.answers with
        tcpSock := sock
        stage := .statusUpdate } := by
  refine ⟨((device.msgSendPhase io.socket).tcpSock.receive io.socket).2, ?_⟩
  simp only [step, Device.mainStage, stage, Device.msgTransceiverHandle,
    if_pos online, Device.msgRecvHandle_of_some io.answers message,
    Device.handleResponse_eq]

/-- A condition on the sending half of `msgTransceiverHandle`, in view of the
state in which it starts. -/
def SendMeets (atSend : SocketIO → Device → Prop) (device : Device)
    (action : Action) : Prop :=
  match action, device.stage with
  | .main io, .msgTransceiver =>
      device.networkEvent.offlineFlag = false → atSend io.socket device
  | _, _ => True

/-- The step is a mode switch or finishes one. -/
def Switches (device : Device) (action : Action) : Prop :=
  match action with
  | .press .sw3 => True
  | .main _ => device.stage = .modeSwitchDelay
  | _ => False

/-- Step induction: a predicate is kept by every step that meets the
conditions if it is kept by every `Change` outside the sending half, by the
sending half, by the handling of a message and by a run of
`updateDeviceStatus`, each under its condition. -/
theorem step_preserves_of_sent (Inv : Device → Prop)
    (atSend : SocketIO → Device → Prop)
    {atReceive : Response → Option Nat → Device → Prop} {atUpdate : Device → Prop}
    (device : Device) (action : Action)
    (change : ∀ {before after}, Change False (Switches device action) before after →
      Inv before → Inv after)
    (sent : ∀ io device, Inv device →
      device.networkEvent.offlineFlag = false → atSend io device →
        Inv (device.msgSendPhase io))
    (received : ∀ response answers device, Inv device →
      device.networkEvent.offlineFlag = false → atReceive response answers device →
        Inv (device.handleResponse response answers))
    (updated : ∀ {ret before after}, Device.StatusMove ret before after →
      Inv before → before.StatusGuard → atUpdate before →
        Inv (after.emit (.statusUpdated before.eventFlags.boardConnectedFlag
          before.devStatus after.devStatus)))
    (start : Inv device) (sendMeets : SendMeets atSend device action)
    (meets : StepMeets atReceive atUpdate device action) :
    Inv (step action device) := by
  have moveTo (stage : Stage) {device : Device} (holds : Inv device) :
      Inv { device with stage := stage } :=
    change (Change.silent stage device.systemTimer device.sendMsgTime
      device.networkEvent.heartbeatFlag device.tcpSock device.outBuffer) holds
  cases action with
  | press button =>
      cases button with
      | sw2 => exact Change.chain_preserves change device.sw2Release_change start
      | sw3 =>
          have switched := change (Change.modeSwitched trivial) start
          exact switched
  | tick => exact Change.chain_preserves change device.sysTick_change start
  | main io =>
      change Inv (device.mainStage io)
      unfold Device.mainStage
      split
      · split
        · exact moveTo _ start
        · exact moveTo _ start
      · rename_i stage
        exact moveTo _ (change (device.finishModeSwitch_change stage) start)
      · refine moveTo _ ?_
        unfold Device.detectBinFile
        split
        · rename_i mode
          have detected :=
            change (Change.binDetected (io.detectFile == 0) mode) start
          exact detected
        · exact start
      · exact moveTo _ (change (Change.boardDetected _) start)
      · split
        · exact moveTo _ (Change.chain_preserves change
            (device.checkNetwork_change io.socket) start)
        · exact moveTo _ start
      · rename_i stage
        refine moveTo _ ?_
        unfold Device.msgTransceiverHandle
        split
        · rename_i online
          have sending : Inv (device.msgSendPhase io.socket) := by
            simp only [SendMeets, stage] at sendMeets
            exact sent io.socket device start online (sendMeets online)
          have online' : (device.msgSendPhase
              io.socket).networkEvent.offlineFlag = false := by
            rw [(device.msgSendPhase_frame io.socket).offlineFlag, online]
          have settle (sock : TCPSocketConnection) {device : Device}
              (holds : Inv device) : Inv { device with tcpSock := sock } :=
            change (Change.silent device.stage device.systemTimer
              device.sendMsgTime device.networkEvent.heartbeatFlag sock
              device.outBuffer) holds
          cases message : (device.msgSendPhase io.socket).receivedResponse
              io.socket io.recvJson with
          | none =>
              rw [Device.msgRecvHandle_of_none io.answers message]
              exact settle _ sending
          | some response =>
              have allowed : atReceive response io.answers
                  (device.msgSendPhase io.socket) := by
                simp only [StepMeets, stage] at meets
                exact meets online response message
              have handled := received response io.answers _ sending online' allowed
              rw [Device.msgRecvHandle_of_some io.answers message,
                Device.handleResponse_eq]
              rw [Device.handleResponse_eq] at handled
              exact settle _ handled
        · exact start
      · rename_i stage
        refine moveTo _ ?_
        unfold Device.guardedStatusUpdate
        split
        · rename_i guard
          have allowed : atUpdate device := by
            simp only [StepMeets, stage] at meets
            exact meets guard
          exact updated (device.switchDevStatus_move io.programRet) start guard
            allowed
        · exact start

/-- Step induction without a condition on the sending half. -/
theorem step_preserves_of_switches (Inv : Device → Prop)
    {atReceive : Response → Option Nat → Device → Prop} {atUpdate : Device → Prop}
    (device : Device) (action : Action)
    (change : ∀ {sends before after},
      Change sends (Switches device action) before after →
        Inv before → Inv after)
    (received : ∀ response answers device, Inv device →
      device.networkEvent.offlineFlag = false → atReceive response answers device →
        Inv (device.handleResponse response answers))
    (updated : ∀ {ret before after}, Device.StatusMove ret before after →
      Inv before → before.StatusGuard → atUpdate before →
        Inv (after.emit (.statusUpdated before.eventFlags.boardConnectedFlag
          before.devStatus after.devStatus)))
    (start : Inv device)
    (meets : StepMeets atReceive atUpdate device action) :
    Inv (step action device) := by
  refine step_preserves_of_sent Inv (fun _ _ => True) device action change ?_
    received updated start ?_ meets
  · intro io device holds online _
    exact Change.chain_preserves change
      (Device.msgSendPhase_change _ online io) holds
  · unfold SendMeets
    split
    · exact fun _ => trivial
    · trivial

/-- Step induction for every action. -/
theorem step_preserves (Inv : Device → Prop)
    {atReceive : Response → Option Nat → Device → Prop} {atUpdate : Device → Prop}
    (change : ∀ {sends switches before after},
      Change sends switches before after → Inv before → Inv after)
    (received : ∀ response answers device, Inv device →
      device.networkEvent.offlineFlag = false → atReceive response answers device →
        Inv (device.handleResponse response answers))
    (updated : ∀ {ret before after}, Device.StatusMove ret before after →
      Inv before → before.StatusGuard → atUpdate before →
        Inv (after.emit (.statusUpdated before.eventFlags.boardConnectedFlag
          before.devStatus after.devStatus)))
    (device : Device) (action : Action) (start : Inv device)
    (meets : StepMeets atReceive atUpdate device action) :
    Inv (step action device) :=
  step_preserves_of_switches Inv device action change received updated start meets

/-- Step induction for a step that has no part in a mode switch. -/
theorem step_preserves_unswitched (Inv : Device → Prop)
    {atReceive : Response → Option Nat → Device → Prop} {atUpdate : Device → Prop}
    (change : ∀ {sends before after},
      Change sends False before after → Inv before → Inv after)
    (received : ∀ response answers device, Inv device →
      device.networkEvent.offlineFlag = false → atReceive response answers device →
        Inv (device.handleResponse response answers))
    (updated : ∀ {ret before after}, Device.StatusMove ret before after →
      Inv before → before.StatusGuard → atUpdate before →
        Inv (after.emit (.statusUpdated before.eventFlags.boardConnectedFlag
          before.devStatus after.devStatus)))
    (device : Device) (action : Action) (unswitched : ¬ Switches device action)
    (start : Inv device)
    (meets : StepMeets atReceive atUpdate device action) :
    Inv (step action device) := by
  refine step_preserves_of_switches Inv device action ?_ received updated start
    meets
  rw [eq_false unswitched]
  exact change

theorem Device.handleResponse_log (response : Response)
    (answers : Option Nat) (device : Device) :
    (device.handleResponse response answers).log =
      .received response answers :: device.log := by
  rw [handleResponse_eq]

theorem stepMeets_trivial (device : Device) (action : Action) :
    StepMeets (fun _ _ _ => True) (fun _ => True) device action := by
  unfold StepMeets
  split
  · exact fun _ _ _ => trivial
  · exact fun _ => trivial
  · trivial

/-! ### Start-up -/

/-- Before the threads start, `sw2` does nothing and `sw3` only switches the
mode. -/
theorem startState_induction (Booting Inv : Device → Prop) {mac : Bytes}
    (initial : Booting (Device.initialGlobals mac))
    (switched : ∀ device, Booting device → Booting device.sw3Release)
    (prepared : ∀ device, Booting device → Inv device.prepareThreads)
    (presses : List Button) : Inv (startState mac presses) := by
  have keeps (device : Device) (button : Button)
      (booting : device.devStatus = .binNotFound ∧ Booting device) :
      (button.release device).devStatus = .binNotFound ∧
        Booting (button.release device) := by
    cases button with
    | sw2 =>
        have idle : device.sw2Release = device := by
          simp [Device.sw2Release, booting.1]
        simpa [Button.release, idle] using booting
    | sw3 => exact ⟨booting.1, switched device booting.2⟩
  have booted := TransitionRuns.run_invariant_of_step _ keeps presses
    (show (Device.initialGlobals mac).devStatus = .binNotFound ∧ _ from
      ⟨rfl, initial⟩)
  exact prepared _ booted.2

/-- Without a pending mode switch, nothing has happened before the threads
start. -/
theorem startState_of_settled {mac : Bytes} {presses : List Button}
    (settled : (startState mac presses).eventFlags.modeSwitchFlag = false) :
    startState mac presses = startState mac [] := by
  refine startState_induction
    (fun device => device.eventFlags.modeSwitchFlag = false →
      device = Device.initialGlobals mac)
    (fun device => device.eventFlags.modeSwitchFlag = false →
      device = startState mac [])
    (fun _ => rfl) ?_ ?_ presses settled
  · intro device _ unpressed
    exact absurd unpressed Bool.true_eq_false.mp
  · intro device booting unpressed
    rw [booting unpressed]
    rfl

/-- Without `sw3`, nothing can happen before the threads start. -/
theorem startState_of_unswitched (mac : Bytes) {presses : List Button}
    (unswitched : .sw3 ∉ presses) : startState mac presses = startState mac [] := by
  unfold startState
  congr 1
  induction presses with
  | nil => rfl
  | cons button presses ih =>
      rw [List.mem_cons, not_or] at unswitched
      obtain ⟨notFirst, notRest⟩ := unswitched
      cases button with
      | sw2 => exact ih notRest
      | sw3 => exact absurd rfl notFirst

theorem startState_stage (mac : Bytes) (presses : List Button) :
    (startState mac presses).stage = .modeSwitch :=
  startState_induction (fun device => device.stage = .modeSwitch)
    (fun device => device.stage = .modeSwitch)
    rfl (fun _ booting => booting) (fun _ booting => booting) presses

end OnlineProgram
