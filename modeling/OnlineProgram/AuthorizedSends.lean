import OnlineProgram.ModeSessions
import OnlineProgram.Transmissions

/-!
# Requests on an authorised connection

`authorizePassFlag` records exactly whether a message taken for an `AUTH`
success answer has arrived on the current connection, but the sending half of
`msgTransceiverHandle` does not read it: a request that was pending when the
connection was lost is resent on the next one when its period has elapsed.
This file determines exactly when a request goes out without authorisation.
-/

namespace OnlineProgram

open TransitionRuns EventHistory

/-- A `GET_UID` or `NOTIFY` request is transmitted only after an `AUTH` success
answer on the same connection. -/
def SentAuthorized : Event → List Event → Prop
  | .transmitted msgId _, past =>
      msgId = .getUid ∨ msgId = .notify → authorizedSinceConnect past
  | _, _ => True

instance (event : Event) : DecidablePred (SentAuthorized event) :=
  fun past => by cases event <;> unfold SentAuthorized <;> infer_instance

/-- A message taken for an `AUTH` success answer has arrived since the last
successful connect. -/
def acceptedSinceConnect (past : List Event) : Bool :=
  (since Event.isConnected past).any Event.authAccepted

theorem acceptedSinceConnect_cons (event : Event) (past : List Event) :
    acceptedSinceConnect (event :: past) =
      if event.isConnected then false
      else event.authAccepted || acceptedSinceConnect past := by
  rw [acceptedSinceConnect, since_cons]
  split <;> rfl

/-- Every message since the last successful connect that was taken for an
`AUTH` success answer was mistaken for one. -/
def OnlyMistaken (past : List Event) : Prop :=
  ∀ event ∈ since Event.isConnected past,
    event.authAccepted → event.authSucceeded = false

instance : DecidablePred OnlyMistaken :=
  fun _ => inferInstanceAs (Decidable (∀ _ ∈ _, _))

/-- The two network flags agree with the history of the connection. -/
structure AuthTracked (device : Device) : Prop where
  unauthorised : device.networkEvent.offlineFlag = true →
    device.networkEvent.authorizePassFlag = false
  connected : OnlineConnected device
  authorised : device.networkEvent.offlineFlag = false →
    device.networkEvent.authorizePassFlag = acceptedSinceConnect device.log

namespace AuthTracked

/-- An event that is neither a connect nor a message leaves the agreement as it
is. -/
theorem of_quiet {before after : Device} (event : Event)
    (tracked : AuthTracked before)
    (offline : after.networkEvent.offlineFlag = before.networkEvent.offlineFlag)
    (passed : after.networkEvent.authorizePassFlag =
      before.networkEvent.authorizePassFlag)
    (log : after.log = event :: before.log)
    (noConnect : event.isConnected = false)
    (noAuth : event.authAccepted = false) : AuthTracked after := by
  obtain ⟨unauthorised, connected, authorised⟩ := tracked
  refine ⟨?_, fun online => ?_, ?_⟩
  · rwa [offline, passed]
  · rw [offline] at online
    rw [log, List.any_cons, noConnect, Bool.false_or]
    exact connected online
  · rw [offline, passed, log, acceptedSinceConnect_cons, noConnect, noAuth]
    exact authorised

theorem change {sends switches : Prop} {before after : Device}
    (change : Change sends switches before after) (tracked : AuthTracked before) :
    AuthTracked after := by
  cases change with
  | silent | resetRequested | boardDetected =>
      exact ⟨tracked.unauthorised, tracked.connected, tracked.authorised⟩
  | startRequested | uidRequested | modeSwitched | codeModeEntered
  | binDetected | heartbeatSent | transmitted =>
      exact tracked.of_quiet _ rfl rfl rfl rfl rfl
  | uidModeEntered =>
      refine ⟨fun _ => rfl, fun online => ?_, fun online => ?_⟩
      · simp [NetworkEvent.initial] at online
      · simp [NetworkEvent.initial] at online
  | connected offline =>
      refine ⟨fun stillOffline => ?_, fun _ => ?_, fun _ => ?_⟩
      · simp at stillOffline
      · simp
      · have unauthorised := tracked.unauthorised offline
        simpa [acceptedSinceConnect_cons] using unauthorised
  | heartbeatLost =>
      refine ⟨fun _ => rfl, fun online => ?_, fun online => ?_⟩
      · simp at online
      · simp at online
  | requestStarted _ msgId =>
      refine tracked.of_quiet _ ?_ ?_ rfl rfl rfl
      · cases msgId <;> rfl
      · cases msgId <;> rfl

theorem handleResponse {device : Device} (response : Response)
    (answers : Option Nat) (tracked : AuthTracked device)
    (online : device.networkEvent.offlineFlag = false) :
    AuthTracked (device.handleResponse response answers) := by
  refine ⟨fun offline => ?_, tracked.connected.handleResponse answers, fun _ => ?_⟩
  · rw [Device.handleResponse_eq] at offline
    simp [online] at offline
  · have authorised := tracked.authorised online
    rw [Device.handleResponse_eq]
    simp [acceptedSinceConnect_cons, authorised, Bool.or_comm]

theorem statusMove {ret : Int} {before after : Device}
    (move : Device.StatusMove ret before after) (tracked : AuthTracked before)
    (board : Bool) (first second : DevStatus) :
    AuthTracked (after.emit (.statusUpdated board first second)) := by
  have moved : AuthTracked after := by
    cases move with
    | codeProgrammed | uidProgrammed =>
        exact tracked.of_quiet _ rfl rfl rfl rfl rfl
    | unchanged | binFound | boardLost | startTaken | binLost | uidTaken
    | boardFound | binMissing | confirmedCode | confirmedUid =>
        exact ⟨tracked.unauthorised, tracked.connected, tracked.authorised⟩
  exact moved.of_quiet _ rfl rfl rfl rfl rfl

theorem startState (mac : Bytes) (presses : List Button) :
    AuthTracked (startState mac presses) := by
  refine ⟨fun _ => rfl, (ModeInvariant.startState mac presses).connected, fun online => ?_⟩
  exact absurd online Bool.true_eq_false.mp

end AuthTracked

/-- The connection has had an `AUTH` success answer exactly when
`authorizePassFlag` is raised, and not by mistaken messages alone. -/
theorem AuthTracked.authorizedSinceConnect_iff {device : Device}
    (tracked : AuthTracked device)
    (online : device.networkEvent.offlineFlag = false) :
    authorizedSinceConnect device.log = true ↔
      ¬ (device.networkEvent.authorizePassFlag = true →
        OnlyMistaken device.log) := by
  have accepted : ∀ event : Event, event.authSucceeded = true →
      event.authAccepted = true := by
    intro event succeeded
    cases event with
    | received response answers =>
        have carries : response.CarriesSuccess .auth := by simpa using succeeded
        simpa using carries.succeeds
    | _ => simp at succeeded
  rw [tracked.authorised online, authorizedSinceConnect, tracked.connected online,
    Bool.true_and, List.any_eq_true]
  constructor
  · rintro ⟨event, member, succeeded⟩ mistaken
    have raised : acceptedSinceConnect device.log = true :=
      List.any_eq_true.mpr ⟨event, member, accepted event succeeded⟩
    have unanswered := mistaken raised event member (accepted event succeeded)
    exact absurd (unanswered.symm.trans succeeded) Bool.false_ne_true
  · intro answered
    obtain ⟨-, answered⟩ := Classical.not_imp.mp answered
    unfold OnlyMistaken at answered
    push Not at answered
    obtain ⟨event, member, -, succeeded⟩ := answered
    exact ⟨event, member, by simpa using succeeded⟩

/-- In view of the state in which the sending half starts: while
`authorizePassFlag` is false, or raised by mistaken messages alone, the socket
takes no due request other than `AUTH`. -/
def SendsAuthorized (io : SocketIO) (device : Device) : Prop :=
  (device.networkEvent.authorizePassFlag = true → OnlyMistaken device.log) →
    0 ≤ (device.tcpSock.send io).1 →
      device.dueRequest ≠ some .getUid ∧ device.dueRequest ≠ some .notify

theorem everywhen_sendingLog_iff (msgId : MsgId) (device : Device) :
    Everywhen SentAuthorized (device.sendingLog msgId) ↔
      Everywhen SentAuthorized device.log := by
  unfold Device.sendingLog
  split
  · exact Iff.rfl
  · rw [everywhen_cons]
    exact and_iff_right trivial

theorem authorizedSinceConnect_sendingLog (msgId : MsgId) (device : Device) :
    authorizedSinceConnect (device.sendingLog msgId) =
      authorizedSinceConnect device.log := by
  unfold Device.sendingLog
  split
  · rfl
  · simp [authorizedSinceConnect_cons]

/-- The sending half keeps the requirement exactly under its condition. -/
theorem everywhen_msgSendPhase_iff {device : Device}
    (tracked : AuthTracked device)
    (online : device.networkEvent.offlineFlag = false) (io : SocketIO) :
    Everywhen SentAuthorized (device.msgSendPhase io).log ↔
      Everywhen SentAuthorized device.log ∧ SendsAuthorized io device := by
  have authorised := tracked.authorizedSinceConnect_iff online
  cases due : device.dueRequest with
  | none => simp [Device.msgSendPhase_of_not_due due, SendsAuthorized, due]
  | some msgId =>
      obtain ⟨text, -, closed⟩ := Device.msgSendPhase_log_of_due due io
      rw [closed]
      by_cases sent : 0 ≤ (device.tcpSock.send io).1
      · rw [if_pos sent, everywhen_cons, everywhen_sendingLog_iff, and_comm]
        simp only [SentAuthorized, SendsAuthorized,
          authorizedSinceConnect_sendingLog, authorised, due, sent,
          forall_const, Option.some.injEq, ne_eq]
        tauto
      · rw [if_neg sent, everywhen_sendingLog_iff]
        simp [SendsAuthorized, sent]

theorem AuthTracked.step {device : Device} (action : Action)
    (tracked : AuthTracked device) : AuthTracked (step action device) := by
  refine step_preserves AuthTracked AuthTracked.change ?_ ?_ device action
    tracked (stepMeets_trivial device action)
  · intro response answers device tracked online _
    exact tracked.handleResponse response answers online
  · intro ret before after move tracked _ _
    exact tracked.statusMove move _ _ _

/-- A step keeps the requirement exactly when its sending half, if it has one,
meets the condition. -/
theorem everywhen_sentAuthorized_step_iff {device : Device}
    (tracked : AuthTracked device) (action : Action) :
    Everywhen SentAuthorized (step action device).log ↔
      Everywhen SentAuthorized device.log ∧
        SendMeets SendsAuthorized device action := by
  apply everywhen_step_iff _ (everywhen_msgSendPhase_iff tracked)
  intro event past noSend
  cases event with
  | transmitted => simp at noSend
  | _ => trivial

theorem everywhen_sentAuthorized_startState (mac : Bytes)
    (presses : List Button) :
    Everywhen SentAuthorized (startState mac presses).log :=
  startState_induction (fun device => Everywhen SentAuthorized device.log)
    (fun device => Everywhen SentAuthorized device.log)
    ⟨trivial, trivial⟩ (fun _ booting => ⟨trivial, booting⟩)
    (fun _ booting => booting) presses

/-- Along any run, every `GET_UID` and `NOTIFY` request is transmitted on an
authorised connection if and only if `msgTransceiverHandle` never finds one due
and the socket ready while `authorizePassFlag` is false or raised by mistaken
messages alone. -/
theorem everyRequest_sentAuthorized_iff (mac : Bytes) (presses : List Button)
    (actions : List Action) :
    Everywhen SentAuthorized (runFrom mac presses actions).log ↔
      EveryStep step (SendMeets SendsAuthorized) actions
        (startState mac presses) := by
  have extended := run_property_iff_everyStep AuthTracked
    (fun device => Everywhen SentAuthorized device.log)
    (fun device action tracked => tracked.step action)
    (fun device action tracked => everywhen_sentAuthorized_step_iff tracked action)
    actions (AuthTracked.startState mac presses)
  rw [and_iff_right (everywhen_sentAuthorized_startState mac presses)] at extended
  exact extended

/-- A `GET_UID` request is pending when a heartbeat fails; five seconds after
its last transmission the main loop resends it on the new connection, before
`AUTH`. -/
theorem request_resent_unauthorised :
    ¬ Everywhen SentAuthorized
      (runFrom [] []
        (authorisedTurns ++ .press .sw2 :: quietTurn ++
          List.replicate 30 .tick ++
          iteration { MainIO.succeeding none none with
            socket := { SocketIO.quiet with waitWritable := -1 } } ++
          quietTurn)).log := by
  decide +kernel

end OnlineProgram
