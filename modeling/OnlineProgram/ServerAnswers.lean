import OnlineProgram.EventHistory
import OnlineProgram.RequestSlot

/-!
# A server that answers transmissions

A request is transmitted again every five seconds until it is answered, and
each transmission may get an answer of its own at any later time.  Answers
carry no request number, so this file numbers the requests by their place in
the history and reads off which of them have been answered.
-/

namespace OnlineProgram

open EventHistory

namespace Event

/-- The `apiId` of the transmission that an event records. -/
def sentApiId : Event → Option Int
  | .transmitted msgId _ => msgId.apiId
  | .heartbeatSent _ => some apiIdHeartbeat
  | _ => none

/-- The transmission that a received message answers. -/
def answeredTime : Event → Option Nat
  | .received _ answers => answers
  | _ => none

def isTransmitted (msgId : MsgId) : Event → Bool
  | .transmitted sent _ => sent == msgId
  | _ => false

def isRequestStarted (msgId : MsgId) : Event → Bool
  | .requestStarted started => started == msgId
  | _ => false

end Event

/-- The message answers an earlier transmission with the `apiId` of that, as far
as the enum holds it, and the transmission has not been answered before. -/
def AnswersOnce (response : Response) (answers : Option Nat)
    (past : List Event) : Prop :=
  match answers with
  | none => False
  | some time =>
      ((eventAt past time).bind Event.sentApiId).map enumByte =
          some (enumByte response.apiId) ∧
        ∀ event ∈ past, event.answeredTime ≠ some time

instance (response : Response) :
    ∀ answers, DecidablePred (AnswersOnce response answers)
  | none, _ => isFalse id
  | some _, _ => inferInstanceAs (Decidable (_ ∧ _))

/-- Every message comes from a server that answers each transmission at most
once, after any delay. -/
def ServerConforms : Device → Action → Prop :=
  StepMeets (fun response answers device =>
    AnswersOnce response answers device.log) (fun _ => True)

instance (device : Device) : DecidablePred (ServerConforms device) :=
  inferInstanceAs (DecidablePred (StepMeets _ _ device))

/-! ### Requests by number -/

/-- How many requests of a kind have been started. -/
def startedRequests (msgId : MsgId) (past : List Event) : Nat :=
  past.countP (Event.isRequestStarted msgId)

/-- The number of the request that a transmission at the given time belongs
to. -/
def requestNumber (msgId : MsgId) (past : List Event) (time : Nat) : Nat :=
  startedRequests msgId (pastAt past time)

/-- The numbers of the requests that the given kind of message has answered. -/
def answeredRequests (msgId : MsgId) (accepts : Response → Bool) :
    List Event → List Nat
  | [] => []
  | .received response (some time) :: past =>
      if accepts response then
        requestNumber msgId past time :: answeredRequests msgId accepts past
      else answeredRequests msgId accepts past
  | _ :: past => answeredRequests msgId accepts past

/-- A message that answers a request anew. -/
def AnswersAgain (msgId : MsgId) (accepts : Response → Bool)
    (answers : Option Nat) (past : List Event) : Prop :=
  ∃ time ∈ answers,
    requestNumber msgId past time ∈ answeredRequests msgId accepts past

instance (msgId : MsgId) (accepts : Response → Bool) (answers : Option Nat) :
    DecidablePred (AnswersAgain msgId accepts answers) :=
  fun _ => inferInstanceAs (Decidable (∃ _ ∈ answers, _))

@[simp]
theorem startedRequests_cons (msgId : MsgId) (event : Event)
    (past : List Event) :
    startedRequests msgId (event :: past) =
      startedRequests msgId past +
        if event.isRequestStarted msgId then 1 else 0 :=
  List.countP_cons ..

theorem requestNumber_le (msgId : MsgId) (past : List Event) (time : Nat) :
    requestNumber msgId past time ≤ startedRequests msgId past :=
  (pastAt_suffix past time).sublist.countP_le

theorem answeredRequests_cons {event : Event} (msgId : MsgId)
    (accepts : Response → Bool) (past : List Event)
    (notReceived : event.answeredTime = none) :
    answeredRequests msgId accepts (event :: past) =
      answeredRequests msgId accepts past := by
  cases event with
  | received response answers =>
      have unanswered : answers = none := notReceived
      rw [unanswered]
      rfl
  | _ => rfl

theorem answeredRequests_received (msgId : MsgId) (accepts : Response → Bool)
    (response : Response) (time : Nat) (past : List Event) :
    answeredRequests msgId accepts (.received response (some time) :: past) =
      if accepts response then
        requestNumber msgId past time :: answeredRequests msgId accepts past
      else answeredRequests msgId accepts past :=
  rfl

/-- Requests of the given kind are started before they are transmitted. -/
def RequestsStarted (msgId : MsgId) (device : Device) : Prop :=
  (device.msgHandle.msgSendId = msgId → 1 ≤ startedRequests msgId device.log) ∧
    Everywhen (fun event past =>
      event.isTransmitted msgId → 1 ≤ startedRequests msgId past) device.log

theorem RequestsStarted.of_quiet {msgId : MsgId} {before after : Device}
    (event : Event) (holds : RequestsStarted msgId before)
    (slot : after.msgHandle.msgSendId = msgId →
      before.msgHandle.msgSendId = msgId)
    (log : after.log = event :: before.log)
    (unsent : event.isTransmitted msgId = false) :
    RequestsStarted msgId after := by
  obtain ⟨pending, sent⟩ := holds
  refine ⟨fun pendingAfter => ?_, ?_⟩
  · have started := pending (slot pendingAfter)
    rw [log, startedRequests_cons]
    omega
  · rw [log, everywhen_cons]
    exact ⟨fun now => by simp [unsent] at now, sent⟩

theorem RequestsStarted.change {msgId : MsgId} {sends switches : Prop}
    {before after : Device} (change : Change sends switches before after)
    (holds : RequestsStarted msgId before) : RequestsStarted msgId after := by
  cases change with
  | silent | resetRequested | boardDetected | heartbeatLost => exact holds
  | startRequested | uidRequested | modeSwitched | uidModeEntered
  | codeModeEntered | binDetected | connected | heartbeatSent =>
      exact holds.of_quiet _ id rfl rfl
  | requestStarted _ started =>
      refine ⟨fun pending => ?_, fun now => ?_, holds.2⟩
      · have same : started = msgId := pending
        simp [Event.isRequestStarted, same]
      · simp [Event.isTransmitted] at now
  | transmitted _ sent text _ pending =>
      refine ⟨fun slot => ?_, fun now => ?_, holds.2⟩
      · simpa [Event.isRequestStarted] using holds.1 slot
      · have same : sent = msgId := by simpa [Event.isTransmitted] using now
        exact holds.1 (pending.trans same)

theorem RequestsStarted.handleResponse {msgId : MsgId} {device : Device}
    (valid : msgId ≠ .invalid) (response : Response) (answers : Option Nat)
    (holds : RequestsStarted msgId device) :
    RequestsStarted msgId (device.handleResponse response answers) := by
  rw [Device.handleResponse_eq]
  refine holds.of_quiet _ (fun pending => ?_) rfl rfl
  have kept : (device.msgHandle.receive response).msgSendId ≠ .invalid := by
    rw [show (device.msgHandle.receive response).msgSendId = msgId from pending]
    exact valid
  rw [← MsgHandle.receive_keeps kept]
  exact pending

theorem RequestsStarted.statusMove {msgId : MsgId} {ret : Int}
    {before after : Device} (move : Device.StatusMove ret before after)
    (holds : RequestsStarted msgId before) (board : Bool)
    (first second : DevStatus) :
    RequestsStarted msgId (after.emit (.statusUpdated board first second)) := by
  have moved : RequestsStarted msgId after := by
    cases move with
    | codeProgrammed | uidProgrammed => exact holds.of_quiet _ id rfl rfl
    | unchanged | binFound | boardLost | startTaken | binLost | uidTaken
    | boardFound | binMissing | confirmedCode | confirmedUid => exact holds
  exact moved.of_quiet _ id rfl rfl

theorem RequestsStarted.startState {msgId : MsgId} (valid : msgId ≠ .invalid)
    (mac : Bytes) (presses : List Button) :
    RequestsStarted msgId (startState mac presses) := by
  refine startState_induction (RequestsStarted msgId) (RequestsStarted msgId)
    ?_ ?_ (fun _ booting => booting) presses
  · refine ⟨fun pending => absurd pending.symm valid, fun now => ?_, trivial⟩
    simp [Event.isTransmitted] at now
  · intro device booting
    exact booting.of_quiet _ id rfl rfl

/-- A transmission with the `apiId` of a request, as far as the enum holds it, is
a transmission of that request. -/
theorem isTransmitted_of_sentApiId {event : Event} {response : Response}
    {msgId : MsgId}
    (sent : event.sentApiId.map enumByte = some (enumByte response.apiId))
    (kind : response.msgId = some msgId) : event.isTransmitted msgId := by
  obtain ⟨apiId, carried, same⟩ := Option.map_eq_some_iff.mp sent
  rw [Response.msgId, ← same] at kind
  cases event with
  | transmitted other text =>
      have kindOf : other = msgId := by
        cases other with
        | invalid => simp [Event.sentApiId, MsgId.apiId] at carried
        | auth | getUid | notify =>
            simp only [Event.sentApiId, MsgId.apiId, Option.some.injEq] at carried
            subst carried
            exact Option.some.inj kind
      simp [Event.isTransmitted, kindOf]
  | heartbeatSent text =>
      simp only [Event.sentApiId, Option.some.injEq] at carried
      subst carried
      exact absurd kind (by decide +revert)
  | _ => simp [Event.sentApiId] at carried

/-- An answer belongs to a transmission of a request of its kind. -/
theorem AnswersOnce.transmitted {msgId : MsgId} {response : Response}
    {answers : Option Nat} {past : List Event}
    (once : AnswersOnce response answers past)
    (kind : response.msgId = some msgId) :
    ∃ time event, answers = some time ∧ eventAt past time = some event ∧
      event.isTransmitted msgId := by
  cases answers with
  | none => exact once.elim
  | some time =>
      obtain ⟨sent, -⟩ := once
      rw [Option.map_bind] at sent
      obtain ⟨event, found, apiId⟩ := Option.bind_eq_some_iff.mp sent
      exact ⟨time, event, rfl, found, isTransmitted_of_sentApiId apiId kind⟩

end OnlineProgram
