import OnlineProgram.StageEffects

/-!
# The request slot

`msgHandle.msgSendId` is the one pending request of the device.  A success
answer frees it when `msgSendId` equals `msgRecvId`, but a message whose
`apiId` the switch does not list leaves the `msgRecvId` of an earlier message
in place, and a message whose codes only end in the right bytes passes for the
answer.  This file determines exactly when the slot is freed by a message that
does not belong to it, and what the stale id costs: a device that waits for an
answer to a request it no longer has.
-/

namespace OnlineProgram

open TransitionRuns

/-- The stale clear: a success message of a kind the switch does not list meets
a pending request that an earlier message has already named. -/
def StaleClear (response : Response) (handle : MsgHandle) : Prop :=
  handle.msgSendId ≠ .invalid ∧ handle.msgSendId = handle.msgRecvId ∧
    response.msgId = none ∧
      enumByte response.respCode = enumByte respCodeSuccess

instance (response : Response) (handle : MsgHandle) :
    Decidable (StaleClear response handle) :=
  inferInstanceAs (Decidable (_ ∧ _))

/-- A message frees the slot without being the success answer to the pending
request: a stale clear, or a message that the casts turn into that answer. -/
def WrongClear (response : Response) (handle : MsgHandle) : Prop :=
  StaleClear response handle ∨ response.Mistaken handle.msgSendId

instance (response : Response) (handle : MsgHandle) :
    Decidable (WrongClear response handle) :=
  inferInstanceAs (Decidable (_ ∨ _))

namespace MsgHandle

/-- A message frees a pending request exactly when the id that its handling
leaves in `msgRecvId` is the pending one and its code is success. -/
theorem receive_invalid_iff {response : Response} {handle : MsgHandle}
    (pending : handle.msgSendId ≠ .invalid) :
    (handle.receive response).msgSendId = .invalid ↔
      handle.msgSendId = response.msgId.getD handle.msgRecvId ∧
        enumByte response.respCode = enumByte respCodeSuccess := by
  by_cases freed : handle.msgSendId = response.msgId.getD handle.msgRecvId ∧
      enumByte response.respCode = enumByte respCodeSuccess
  · simp only [receive, if_pos freed, true_iff]
    exact freed
  · simp only [receive, if_neg freed]
    exact ⟨fun invalid => absurd invalid pending, fun holds => absurd holds freed⟩

/-- A message that does not free the slot leaves the pending id alone. -/
theorem receive_keeps {response : Response} {handle : MsgHandle}
    (kept : (handle.receive response).msgSendId ≠ .invalid) :
    (handle.receive response).msgSendId = handle.msgSendId := by
  by_cases freed : handle.msgSendId = response.msgId.getD handle.msgRecvId ∧
      enumByte response.respCode = enumByte respCodeSuccess
  · simp [receive, if_pos freed] at kept
  · simp only [receive, if_neg freed]

/-- A pending request is freed by its own success answer or by a stale
clear. -/
theorem receive_frees_iff {response : Response} {handle : MsgHandle}
    (pending : handle.msgSendId ≠ .invalid) :
    (handle.receive response).msgSendId = .invalid ↔
      response.Succeeds handle.msgSendId ∨ StaleClear response handle := by
  rw [receive_invalid_iff pending]
  cases known : response.msgId with
  | none => simp [Response.Succeeds, StaleClear, known, pending]
  | some msgId =>
      simp only [Response.Succeeds, StaleClear, known, Option.getD_some,
        Option.some.injEq, reduceCtorEq, false_and, and_false, or_false]
      rw [eq_comm]

end MsgHandle

/-! ### Runs of the network layer -/

/-- A step of the network layer.  Between its two entry points the rest of the
program may set any flag, change the status and advance the timer. -/
inductive NetAction where
  | checkNetwork (io : SocketIO)
  | msgTransceiverHandle (io : SocketIO) (json : Option CJson)
      (answers : Option Nat)
  | environment (mode : Mode) (status : DevStatus) (network : NetworkEvent)
      (flags : EventFlags) (timer : UInt32)

def netStep : NetAction → Device → Device
  | .checkNetwork io, device => device.checkNetwork io
  | .msgTransceiverHandle io json answers, device =>
      device.msgTransceiverHandle io json answers
  | .environment mode status network flags timer, device =>
      { device with
        deviceMode := mode
        devStatus := status
        networkEvent := network
        eventFlags := flags
        systemTimer := timer }

/-- Between two moments at which the given message, if any, was handled,
`msgSendId` changes from a pending id to `MSG_ID_INVALID` only if that message
has the code `RESP_CODE_SUCCESS` and the `apiId` of the pending id. -/
def ClearsRightly (message : Option Response) (before after : Device) : Prop :=
  before.msgHandle.msgSendId ≠ .invalid →
    after.msgHandle.msgSendId = .invalid →
      ∃ response ∈ message, response.respCode = respCodeSuccess ∧
        before.msgHandle.msgSendId.apiId = some response.apiId

instance (message : Option Response) (before after : Device) :
    Decidable (ClearsRightly message before after) :=
  inferInstanceAs (Decidable (_ → _ → _))

/-- Every change of `msgSendId` within one step is right.  Within
`msgTransceiverHandle` only the call of `parseRecvMsgInfo` has a message. -/
def StepClearsRightly (device : Device) : NetAction → Prop
  | .msgTransceiverHandle io json answers =>
      if device.networkEvent.offlineFlag = false then
        ClearsRightly none device (device.msgSendPhase io) ∧
          ClearsRightly ((device.msgSendPhase io).receivedResponse io json)
            (device.msgSendPhase io)
            ((device.msgSendPhase io).msgRecvHandle io json answers)
      else
        ClearsRightly none device (device.msgTransceiverHandle io json answers)
  | action => ClearsRightly none device (netStep action device)

instance (device : Device) : DecidablePred (StepClearsRightly device)
  | .msgTransceiverHandle _ _ _ => inferInstanceAs (Decidable (ite _ _ _))
  | .checkNetwork _ => inferInstanceAs (Decidable (ClearsRightly _ _ _))
  | .environment _ _ _ _ _ => inferInstanceAs (Decidable (ClearsRightly _ _ _))

/-- No message that the step handles frees the slot wrongly. -/
def NoWrongClear (device : Device) : NetAction → Prop
  | .msgTransceiverHandle io json _ =>
      device.networkEvent.offlineFlag = false →
        ∀ response ∈ (device.msgSendPhase io).receivedResponse io json,
          ¬ WrongClear response (device.msgSendPhase io).msgHandle
  | _ => True

theorem clearsRightly_of_msgSendId_eq {message : Option Response}
    {before after : Device}
    (same : after.msgHandle.msgSendId = before.msgHandle.msgSendId) :
    ClearsRightly message before after := by
  intro pending cleared
  rw [same] at cleared
  exact absurd cleared pending

namespace Device

theorem checkNetwork_msgHandle (io : SocketIO) (device : Device) :
    (device.checkNetwork io).msgHandle = device.msgHandle := by
  unfold checkNetwork
  split
  · unfold reconnect
    dsimp only
    split <;> rfl
  · split
    · unfold heartbeat
      dsimp only
      split <;> rfl
    · rfl

theorem sendMsgHandle_msgSendId {msgId : MsgId} {device : Device}
    (pending : device.msgHandle.msgSendId = msgId) (io : SocketIO) :
    (device.sendMsgHandle msgId io).msgHandle.msgSendId = msgId := by
  by_cases sent : 0 ≤ (device.tcpSock.send io).1
  · cases format : device.requestText msgId with
    | none => simpa [sendMsgHandle, format] using pending
    | some text => rw [sendMsgHandle_of_sent format sent]
  · obtain ⟨buffer, sock, closed⟩ := sendMsgHandle_of_refused msgId sent
    rw [closed]
    exact pending

/-- The sending half never gives up a pending request. -/
theorem msgSendPhase_msgSendId {device : Device}
    (pending : device.msgHandle.msgSendId ≠ .invalid) (io : SocketIO) :
    (device.msgSendPhase io).msgHandle.msgSendId =
      device.msgHandle.msgSendId := by
  unfold msgSendPhase
  rw [if_pos pending]
  split
  · exact sendMsgHandle_msgSendId rfl io
  · rfl

end Device

/-- The one place where a step can clear a request wrongly is the handling of a
message that frees the slot without being the answer. -/
theorem stepClearsRightly_iff (device : Device) (action : NetAction) :
    StepClearsRightly device action ↔ NoWrongClear device action := by
  cases action with
  | checkNetwork io =>
      simp only [StepClearsRightly, NoWrongClear, iff_true]
      apply clearsRightly_of_msgSendId_eq
      simp only [netStep, Device.checkNetwork_msgHandle]
  | environment mode status network flags timer =>
      simp only [StepClearsRightly, NoWrongClear, iff_true]
      exact clearsRightly_of_msgSendId_eq rfl
  | msgTransceiverHandle io json answers =>
      by_cases online : device.networkEvent.offlineFlag = false
      · simp only [StepClearsRightly, NoWrongClear, online, if_true, forall_const]
        have sending : ClearsRightly none device (device.msgSendPhase io) := by
          intro pending cleared
          rw [Device.msgSendPhase_msgSendId pending] at cleared
          exact absurd cleared pending
        simp only [sending, true_and]
        generalize device.msgSendPhase io = sent
        cases message : sent.receivedResponse io json with
        | none =>
            rw [Device.msgRecvHandle_of_none answers message]
            simp only [Option.not_mem_none, false_implies, implies_true, iff_true]
            exact clearsRightly_of_msgSendId_eq rfl
        | some response =>
            rw [Device.msgRecvHandle_of_some answers message,
              Device.handleResponse_eq]
            simp only [ClearsRightly, Option.mem_def, Option.some.injEq,
              exists_eq_left', forall_eq']
            by_cases pending : sent.msgHandle.msgSendId = .invalid
            · simp [pending, WrongClear, StaleClear, Response.not_mistaken_invalid]
            · rw [MsgHandle.receive_frees_iff pending, Response.succeeds_iff]
              constructor
              · rintro right (stale | mistaken)
                · have own := right pending (Or.inr stale)
                  have listed := Response.msgId_of_apiId own.2
                  rw [stale.2.2.1] at listed
                  exact absurd listed (by simp)
                · have own := right pending (Or.inl (Or.inr mistaken))
                  exact mistaken.2 ⟨own.2, own.1⟩
              · rintro noWrong - ((own | mistaken) | stale)
                · exact ⟨own.2, own.1⟩
                · exact absurd (Or.inr mistaken) noWrong
                · exact absurd (Or.inl stale) noWrong
      · dsimp only [StepClearsRightly, NoWrongClear]
        rw [if_neg online]
        refine iff_of_true (clearsRightly_of_msgSendId_eq ?_)
          fun onlineNow => absurd onlineNow online
        simp only [Device.msgTransceiverHandle, if_neg online]

/-- From any state and along any run of the network layer, every pending
request is cleared by its own success answer if and only if no message of the
run is a stale clear or passes for the answer by its last bytes only. -/
theorem everyRequest_clearedRightly_iff (actions : List NetAction)
    (device : Device) :
    EveryStep netStep StepClearsRightly actions device ↔
      EveryStep netStep NoWrongClear actions device :=
  everyStep_iff_of_invariant (fun _ => True)
    (fun _ _ _ _ => trivial)
    (fun device action _ => stepClearsRightly_iff device action)
    actions trivial

/-- An `AUTH` error answer followed by the success answer to a heartbeat frees
the `AUTH` request. -/
theorem request_cleared_by_heartbeat_answer :
    ¬ EveryStep netStep StepClearsRightly
      [.checkNetwork .quiet,
        .msgTransceiverHandle .arriving (some (answerJson apiIdAuth 4 none)) none,
        .msgTransceiverHandle .arriving
          (some (answerJson apiIdHeartbeat respCodeSuccess none)) none]
      (startState [] []) := by
  decide +kernel

/-! ### Wedged states -/

/-- The status is one of the two result states. -/
def InResult (device : Device) : Prop :=
  device.devStatus = .programSuccess ∨ device.devStatus = .programFail

instance (device : Device) : Decidable (InResult device) :=
  inferInstanceAs (Decidable (_ ∨ _))

/-- An online device without authorisation is about to ask for it or has
asked. -/
def AuthRequested (device : Device) : Prop :=
  device.networkEvent.offlineFlag = false →
    device.networkEvent.authorizePassFlag = false →
      device.networkEvent.authorizeReqFlag = true ∨
        device.msgHandle.msgSendId = .auth

/-- A device in a result state is about to report it, has reported it, or has
the answer. -/
def ResultReported (device : Device) : Prop :=
  InResult device →
    device.networkEvent.notifyResultFlag = true ∨
      device.msgHandle.msgSendId = .notify ∨
        device.eventFlags.notifyDoneFlag = true

/-- In `MODE_PROGRAM_UID` with no mode switch pending, the device does not wait
for an answer to a request that it neither has nor will send. -/
def NotWedged (device : Device) : Prop :=
  device.deviceMode = .programUID → device.eventFlags.modeSwitchFlag = false →
    AuthRequested device ∧ ResultReported device

instance (device : Device) : Decidable (NotWedged device) :=
  inferInstanceAs (Decidable (_ → _ → ((_ → _ → _) ∧ (_ → _))))

/-- A stale clear that takes away the request the device still depends on. -/
def WedgingClear (response : Response) (device : Device) : Prop :=
  device.deviceMode = .programUID ∧
    device.eventFlags.modeSwitchFlag = false ∧
      StaleClear response device.msgHandle ∧
        ((device.msgHandle.msgSendId = .auth ∧
            device.networkEvent.authorizePassFlag = false ∧
              device.networkEvent.authorizeReqFlag = false) ∨
          (device.msgHandle.msgSendId = .notify ∧ InResult device ∧
            device.networkEvent.notifyResultFlag = false ∧
              device.eventFlags.notifyDoneFlag = false))

/-- No message that the step handles is a wedging clear. -/
def NoWedgingClear : Device → Action → Prop :=
  StepMeets (fun response _ device => ¬ WedgingClear response device)
    (fun _ => True)

theorem NotWedged.change {sends switches : Prop} {before after : Device}
    (change : Change sends switches before after) (sound : NotWedged before) :
    NotWedged after := by
  intro mode settled
  cases change with
  | silent => exact sound mode settled
  | startRequested => exact sound mode settled
  | uidRequested => exact sound mode settled
  | resetRequested => exact sound mode settled
  | modeSwitched => simp at settled
  | uidModeEntered =>
      constructor
      · intro online
        simp [NetworkEvent.initial] at online
      · rintro (status | status) <;> simp at status
  | codeModeEntered _ code => simp [code] at mode
  | binDetected => exact sound mode settled
  | boardDetected => exact sound mode settled
  | connected => exact ⟨fun _ _ => Or.inl rfl, (sound mode settled).2⟩
  | heartbeatSent => exact sound mode settled
  | heartbeatLost =>
      exact ⟨fun online => by simp at online, (sound mode settled).2⟩
  | requestStarted allowed msgId online free next =>
      obtain ⟨auth, reported⟩ := sound mode settled
      have slot : before.msgHandle.msgSendId ≠ .auth ∧
          before.msgHandle.msgSendId ≠ .notify := by simp [free]
      constructor
      · intro _ unauthorised
        have asking : before.networkEvent.authorizeReqFlag = true := by
          have passed : before.networkEvent.authorizePassFlag = false := by
            cases msgId <;> simpa [Device.takeRequest] using unauthorised
          simpa [slot.1] using auth online passed
        have first : msgId = .auth := by
          simpa [Device.nextRequest, asking] using next.symm
        exact Or.inr first
      · intro result
        rcases reported result with waiting | sent | done
        · cases msgId with
          | notify => exact Or.inr (Or.inl rfl)
          | auth => exact Or.inl waiting
          | getUid => exact Or.inl waiting
          | invalid => exact Or.inl waiting
        · exact absurd sent slot.2
        · exact Or.inr (Or.inr done)
  | transmitted => exact sound mode settled

/-- A message keeps the device from being wedged exactly when it is no wedging
clear. -/
theorem NotWedged.handleResponse_iff {response : Response} {device : Device}
    (answers : Option Nat)
    (online : device.networkEvent.offlineFlag = false)
    (sound : NotWedged device) :
    NotWedged (device.handleResponse response answers) ↔
      ¬ WedgingClear response device := by
  rw [Device.handleResponse_eq]
  constructor
  · rintro kept ⟨mode, settled, ⟨-, agree, unlisted, success⟩, lost⟩
    obtain ⟨auth, reported⟩ := kept mode settled
    have freed : (device.msgHandle.receive response).msgSendId = .invalid := by
      simp [MsgHandle.receive, unlisted, agree, success]
    rcases lost with ⟨-, unauthorised, unasked⟩ | ⟨-, result, unsent, undone⟩
    · have := auth online (by simp [unauthorised, Response.Succeeds, unlisted])
      simp [unasked, freed] at this
    · have := reported result
      simp [unsent, undone, freed, Response.Succeeds, unlisted] at this
  · intro harmless mode settled
    obtain ⟨auth, reported⟩ := sound mode settled
    constructor
    · intro _ unauthorised
      simp only [Bool.or_eq_false_iff, decide_eq_false_iff_not] at unauthorised
      rcases auth online unauthorised.1 with asking | asked
      · exact Or.inl asking
      · by_cases asking : device.networkEvent.authorizeReqFlag = true
        · exact Or.inl asking
        right
        have pending : device.msgHandle.msgSendId ≠ .invalid := by simp [asked]
        have kept : (device.msgHandle.receive response).msgSendId ≠ .invalid := by
          rw [Ne, MsgHandle.receive_frees_iff pending, asked]
          rintro (own | stale)
          · exact unauthorised.2 own
          · exact harmless ⟨mode, settled, stale, Or.inl
              ⟨asked, unauthorised.1, by simpa using asking⟩⟩
        rw [MsgHandle.receive_keeps kept, asked]
    · intro result
      by_cases waiting : device.networkEvent.notifyResultFlag = true
      · exact Or.inl waiting
      by_cases done : device.eventFlags.notifyDoneFlag = true
      · exact Or.inr (Or.inr (by simp [done]))
      have sent : device.msgHandle.msgSendId = .notify := by
        simpa [waiting, done] using reported result
      have pending : device.msgHandle.msgSendId ≠ .invalid := by simp [sent]
      by_cases freed : (device.msgHandle.receive response).msgSendId = .invalid
      · rw [MsgHandle.receive_frees_iff pending, sent] at freed
        rcases freed with own | stale
        · exact Or.inr (Or.inr (by simp [own]))
        · exact absurd ⟨mode, settled, stale, Or.inr ⟨sent, result,
            by simpa using waiting, by simpa using done⟩⟩ harmless
      · exact Or.inr (Or.inl (by rw [MsgHandle.receive_keeps freed, sent]))

theorem resultReported_of_not_inResult {device : Device}
    (elsewhere : ¬ InResult device) : ResultReported device :=
  fun result => absurd result elsewhere

theorem NotWedged.statusMove {ret : Int} {before after : Device}
    (move : Device.StatusMove ret before after) (sound : NotWedged before)
    (event : Event) : NotWedged (after.emit event) := by
  intro mode settled
  cases move with
  | unchanged => exact sound mode settled
  | codeProgrammed _ code => simp [Device.emit, code] at mode
  | uidProgrammed => exact ⟨(sound mode settled).1, fun _ => Or.inl rfl⟩
  | binFound | boardLost | startTaken | binLost | uidTaken | boardFound
  | binMissing | confirmedCode | confirmedUid =>
      refine ⟨(sound mode settled).1, resultReported_of_not_inResult ?_⟩
      rintro (status | status) <;> simp [Device.emit] at status

theorem NotWedged.step_iff {device : Device} (action : Action)
    (sound : NotWedged device) :
    NotWedged (step action device) ↔ NoWedgingClear device action := by
  constructor
  · intro kept
    unfold NoWedgingClear StepMeets
    split
    · rename_i io stage
      intro online response message
      obtain ⟨sock, closed⟩ := step_of_received stage online message
      rw [closed] at kept
      refine (NotWedged.handleResponse_iff io.answers ?_ ?_).mp kept
      · rw [(device.msgSendPhase_frame io.socket).offlineFlag, online]
      · exact Change.chain_preserves NotWedged.change
          (Device.msgSendPhase_change False online io.socket) sound
    · exact fun _ => trivial
    · trivial
  · intro harmless
    exact step_preserves NotWedged NotWedged.change
      (fun response answers device sound online harmless =>
        (NotWedged.handleResponse_iff answers online sound).mpr harmless)
      (fun move sound _ _ => NotWedged.statusMove move sound _)
      device action sound harmless

theorem NotWedged.startState (mac : Bytes) (presses : List Button) :
    NotWedged (startState mac presses) := by
  intro _ _
  constructor
  · intro online
    simp [OnlineProgram.startState, Device.prepareThreads,
      Device.initNetworkEvent, NetworkEvent.initial] at online
  · apply resultReported_of_not_inResult
    unfold InResult OnlineProgram.startState Device.prepareThreads
    dsimp only
    split <;> simp

/-- Along any run of the program, no state is wedged if and only if no message
of the run is a wedging clear. -/
theorem neverWedged_iff (mac : Bytes) (presses : List Button)
    (actions : List Action) :
    EveryState step NotWedged actions (startState mac presses) ↔
      EveryStep step NoWedgingClear actions (startState mac presses) :=
  everyState_iff_everyStep
    (fun _ action sound => NotWedged.step_iff action sound)
    actions (NotWedged.startState mac presses)

/-- The device asks for authorisation, is refused, and gets a success answer to
a heartbeat: it is online, not authorised, and will not ask again. -/
theorem wedged_by_heartbeat_answer :
    ¬ EveryState step NotWedged
      (quietTurn ++
        iteration (.succeeding (some (answerJson apiIdAuth 4 none)) none) ++
        answeredTurn apiIdHeartbeat none 0)
      (startState [] []) := by
  decide +kernel

end OnlineProgram
