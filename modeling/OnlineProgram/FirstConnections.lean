import OnlineProgram.SessionCalls
import OnlineProgram.Transmissions

/-!
# The first connection

`AUTH` tells the server whether the device reconnects.  `initNetworkEvent` raises
`firstConnectFlag` for that, but `checkNetwork` lowers it in the moment of the
first connect, and `AUTH` is only formatted on a connection.  This file follows
the flag over whole runs: what `AUTH` says is right on every connection but the
first.
-/

namespace OnlineProgram

open TransitionRuns EventHistory

/-- The number of successful connects since the last call of `initNetworkEvent`,
which is made before the threads start and when the flags are reset in
`MODE_PROGRAM_UID`. -/
def connectionsSinceInit : List Event → Nat
  | [] => 0
  | .flagsReset :: past =>
      if sessionMode past = .programUID then 0 else connectionsSinceInit past
  | .connected :: past => connectionsSinceInit past + 1
  | _ :: past => connectionsSinceInit past

theorem connectionsSinceInit_sendingLog (msgId : MsgId) (device : Device) :
    connectionsSinceInit (device.sendingLog msgId) = connectionsSinceInit device.log := by
  unfold Device.sendingLog
  split
  · rfl
  · rfl

/-- What an `AUTH` request says about reconnecting determines it. -/
theorem reqAuth_inj {apiId : Int} {mac : Bytes} {reconnect reconnect' : Bool} :
    reqAuth apiId mac reconnect = reqAuth apiId mac reconnect' ↔ reconnect = reconnect' := by
  constructor
  · intro same
    apply ByteStrings.formatBool_injective
    simpa [reqAuth] using same
  · rintro rfl
    rfl

/-- `AUTH` is transmitted with `reconnect` 0 on the first connection since
`initNetworkEvent`, and with `reconnect` 1 on every later one. -/
def ReconnectTold (mac : Bytes) : Event → List Event → Prop
  | .transmitted .auth text, past =>
      (connectionsSinceInit past = 1 → text = reqAuth apiIdAuth mac false) ∧
        (1 < connectionsSinceInit past → text = reqAuth apiIdAuth mac true)
  | _, _ => True

instance (mac : Bytes) : ∀ event, DecidablePred (ReconnectTold mac event)
  | .transmitted .auth _, _ => @instDecidableAnd _ _ instDecidableForall instDecidableForall
  | .transmitted .getUid _, _ | .transmitted .notify _, _ | .transmitted .invalid _, _
  | .startRequested, _ | .uidRequested, _ | .modeSwitched _, _ | .flagsReset, _
  | .binDetected _, _ | .connected, _ | .heartbeatSent _, _ | .requestStarted _, _
  | .received .., _ | .programBinFileV1Called _, _ | .programUIDCalled .., _
  | .statusUpdated .., _ => isTrue trivial

/-- `firstConnectFlag` is up exactly until the first connect since
`initNetworkEvent`, so an online device has it down. -/
structure FirstConnectTracked (mac : Bytes) (device : Device) : Prop where
  devMAC : device.devMAC = mac
  switches : SwitchRecorded device
  counted : device.networkEvent.firstConnectFlag = true ↔ connectionsSinceInit device.log = 0
  lowered : device.networkEvent.offlineFlag = false →
    device.networkEvent.firstConnectFlag = false

namespace FirstConnectTracked

variable {mac : Bytes}

theorem change {sends switches : Prop} {before after : Device}
    (change : Change sends switches before after) (tracked : FirstConnectTracked mac before) :
    FirstConnectTracked mac after := by
  obtain ⟨devMAC, recorded, counted, lowered⟩ := tracked
  have records := recorded.change change
  have mode := recorded.2
  cases change with
  | uidModeEntered allowed isUid =>
      refine ⟨devMAC, records, ?_, fun online => ?_⟩
      · simp [NetworkEvent.initial, connectionsSinceInit, ← mode, isUid]
      · simp [NetworkEvent.initial] at online
  | codeModeEntered allowed isCode =>
      refine ⟨devMAC, records, ?_, lowered⟩
      simpa [connectionsSinceInit, ← mode, isCode] using counted
  | connected =>
      exact ⟨devMAC, records, by simp [connectionsSinceInit], fun _ => rfl⟩
  | heartbeatLost =>
      refine ⟨devMAC, records, counted, fun online => ?_⟩
      simp at online
  | requestStarted allowed msgId =>
      cases msgId with
      | auth => exact ⟨devMAC, records, counted, lowered⟩
      | getUid => exact ⟨devMAC, records, counted, lowered⟩
      | notify => exact ⟨devMAC, records, counted, lowered⟩
      | invalid => exact ⟨devMAC, records, counted, lowered⟩
  | _ => exact ⟨devMAC, records, counted, lowered⟩

theorem step {device : Device} (action : Action) (tracked : FirstConnectTracked mac device) :
    FirstConnectTracked mac (step action device) := by
  refine step_preserves (FirstConnectTracked mac) FirstConnectTracked.change ?_ ?_ device action
    tracked (stepMeets_trivial device action)
  · intro response answers device tracked _ _
    have records := tracked.switches.handleResponse response answers
    rw [Device.handleResponse_eq] at records ⊢
    exact ⟨tracked.devMAC, records, tracked.counted, tracked.lowered⟩
  · intro ret before after move tracked _ _
    have records := tracked.switches.statusMove move before.eventFlags.boardConnectedFlag
      before.devStatus after.devStatus
    obtain ⟨devMAC, -, counted, lowered⟩ := tracked
    cases move <;> exact ⟨devMAC, records, counted, lowered⟩

theorem startState (mac : Bytes) (presses : List Button) :
    FirstConnectTracked mac (startState mac presses) := by
  refine startState_induction
    (fun device => device.devMAC = mac ∧ SwitchRecorded device ∧
      connectionsSinceInit device.log = 0)
    (FirstConnectTracked mac) ⟨rfl, ⟨rfl, rfl⟩, rfl⟩ ?_ ?_ presses
  · rintro device ⟨devMAC, recorded, none⟩
    exact ⟨devMAC, recorded.sw3Release, none⟩
  · rintro device ⟨devMAC, recorded, none⟩
    exact ⟨devMAC, recorded, iff_of_true rfl none, fun online => nomatch online⟩

end FirstConnectTracked

/-- In view of the state in which the sending half starts: the socket takes no due
`AUTH` on the first connection. -/
def NoFirstAuth (io : SocketIO) (device : Device) : Prop :=
  device.dueRequest = some .auth → 0 ≤ (device.tcpSock.send io).1 →
    connectionsSinceInit device.log ≠ 1

/-- The sending half keeps the requirement exactly under its condition. -/
theorem everywhen_reconnectTold_iff {mac : Bytes} {device : Device}
    (tracked : FirstConnectTracked mac device)
    (online : device.networkEvent.offlineFlag = false) (io : SocketIO) :
    Everywhen (ReconnectTold mac) (device.msgSendPhase io).log ↔
      Everywhen (ReconnectTold mac) device.log ∧ NoFirstAuth io device := by
  have entered (msgId : MsgId) : Everywhen (ReconnectTold mac) (device.sendingLog msgId) ↔
      Everywhen (ReconnectTold mac) device.log := by
    unfold Device.sendingLog
    split
    · exact Iff.rfl
    · exact and_iff_right trivial
  cases due : device.dueRequest with
  | none => simp [Device.msgSendPhase_of_not_due due, NoFirstAuth, due]
  | some msgId =>
      obtain ⟨text, format, log⟩ := Device.msgSendPhase_log_of_due due io
      rw [log]
      by_cases sent : 0 ≤ (device.tcpSock.send io).1
      · rw [if_pos sent, everywhen_cons, entered, and_comm]
        apply and_congr_right'
        cases msgId with
        | auth =>
            obtain rfl : reqAuth apiIdAuth mac true = text := by
              simpa [Device.requestText, tracked.devMAC, tracked.lowered online] using format
            simp [ReconnectTold, NoFirstAuth, due, sent, connectionsSinceInit_sendingLog,
              reqAuth_inj]
        | getUid => simp [ReconnectTold, NoFirstAuth, due]
        | notify => simp [ReconnectTold, NoFirstAuth, due]
        | invalid => simp [ReconnectTold, NoFirstAuth, due]
      · rw [if_neg sent, entered]
        simp [NoFirstAuth, sent]

theorem everywhen_reconnectTold_step_iff {mac : Bytes} {device : Device}
    (tracked : FirstConnectTracked mac device) (action : Action) :
    Everywhen (ReconnectTold mac) (step action device).log ↔
      Everywhen (ReconnectTold mac) device.log ∧ SendMeets NoFirstAuth device action := by
  apply everywhen_step_iff _ (everywhen_reconnectTold_iff tracked)
  intro event past noSend
  cases event with
  | transmitted => simp at noSend
  | _ => trivial

/-- Along any run, every `AUTH` tells the server rightly whether the device
reconnects if and only if none is transmitted on the first connection since
`initNetworkEvent`. -/
theorem everyAuth_reconnectTold_iff (mac : Bytes) (presses : List Button)
    (actions : List Action) :
    Everywhen (ReconnectTold mac) (runFrom mac presses actions).log ↔
      EveryStep step (SendMeets NoFirstAuth) actions (startState mac presses) := by
  have start : Everywhen (ReconnectTold mac) (startState mac presses).log :=
    startState_induction (fun device => Everywhen (ReconnectTold mac) device.log)
      (fun device => Everywhen (ReconnectTold mac) device.log)
      ⟨trivial, trivial⟩ (fun _ booting => ⟨trivial, booting⟩) (fun _ booting => booting) presses
  have extended := run_property_iff_everyStep (FirstConnectTracked mac)
    (fun device => Everywhen (ReconnectTold mac) device.log)
    (fun device action tracked => tracked.step action)
    (fun device action tracked => everywhen_reconnectTold_step_iff tracked action)
    actions (FirstConnectTracked.startState mac presses)
  rw [and_iff_right start] at extended
  exact extended

/-- The first `AUTH` after power-up says that the device reconnects. -/
theorem first_auth_reconnects :
    ¬ Everywhen (ReconnectTold []) (runFrom [] [] quietTurn).log := by
  decide +kernel

end OnlineProgram
