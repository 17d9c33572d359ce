import OnlineProgram.EventHistory
import OnlineProgram.StageEffects

/-!
# What one step transmits

The transmissions of a step are read off the history that it adds.  Only the
sending half of `msgTransceiverHandle` transmits, at most one request, and it
alone stamps `sendMsgTime`; the tick alone advances `systemTimer`.
-/

namespace OnlineProgram

open TransitionRuns EventHistory

/-! ### What the sending half transmits -/

namespace Device

/-- The request that the sending half of `msgTransceiverHandle` hands to
`sendMsgHandle`, if any: the pending one when its period has elapsed, else the
next one. -/
def dueRequest (device : Device) : Option MsgId :=
  if device.msgHandle.msgSendId ≠ .invalid then
    if msgResendPeriodS ≤ device.systemTimer - device.sendMsgTime then
      some device.msgHandle.msgSendId
    else none
  else nextRequest device.networkEvent

/-- The history when `sendMsgHandle` is entered with a request. -/
def sendingLog (msgId : MsgId) (device : Device) : List Event :=
  if device.msgHandle.msgSendId ≠ .invalid then device.log
  else .requestStarted msgId :: device.log

theorem sendMsgHandle_log {msgId : MsgId} (valid : msgId ≠ .invalid)
    (io : SocketIO) (device : Device) :
    ∃ text, device.requestText msgId = some text ∧
      (device.sendMsgHandle msgId io).log =
        if 0 ≤ (device.tcpSock.send io).1 then .transmitted msgId text :: device.log
        else device.log := by
  obtain ⟨text, format⟩ := device.requestText_of_ne_invalid valid
  refine ⟨text, format, ?_⟩
  by_cases sent : 0 ≤ (device.tcpSock.send io).1
  · rw [sendMsgHandle_of_sent format sent, if_pos sent]
  · obtain ⟨buffer, sock, closed⟩ := sendMsgHandle_of_refused msgId sent
    rw [closed, if_neg sent]

theorem startRequest_log {msgId : MsgId} (valid : msgId ≠ .invalid) (io : SocketIO)
    {network : NetworkEvent} (device : Device)
    (first : network.firstConnectFlag = device.networkEvent.firstConnectFlag) :
    ∃ text, device.requestText msgId = some text ∧
      ({ device with networkEvent := network }.startRequest msgId io).log =
        if 0 ≤ (device.tcpSock.send io).1 then
          .transmitted msgId text :: .requestStarted msgId :: device.log
        else .requestStarted msgId :: device.log := by
  obtain ⟨text, format, log⟩ := sendMsgHandle_log valid io
    (({ device with networkEvent := network, msgHandle.msgSendId := msgId } : Device).emit
      (.requestStarted msgId))
  refine ⟨text, ?_, log⟩
  rw [← format]
  cases msgId <;> simp [requestText, emit, first]

theorem msgSendPhase_of_not_due {device : Device}
    (nothing : device.dueRequest = none) (io : SocketIO) :
    device.msgSendPhase io = device := by
  unfold dueRequest nextRequest at nothing
  unfold msgSendPhase
  split_ifs at nothing ⊢ <;> rfl

/-- A due request enters `sendMsgHandle` with the history `sendingLog`, and is
transmitted exactly when the socket takes it. -/
theorem msgSendPhase_log_of_due {device : Device} {msgId : MsgId}
    (due : device.dueRequest = some msgId) (io : SocketIO) :
    ∃ text, device.requestText msgId = some text ∧
      (device.msgSendPhase io).log =
        if 0 ≤ (device.tcpSock.send io).1 then
          .transmitted msgId text :: device.sendingLog msgId
        else device.sendingLog msgId := by
  by_cases pending : device.msgHandle.msgSendId ≠ .invalid
  · unfold dueRequest at due
    rw [if_pos pending] at due
    split at due
    · rename_i elapsed
      obtain rfl := Option.some.inj due
      unfold msgSendPhase sendingLog
      rw [if_pos pending, if_pos elapsed, if_pos pending]
      exact sendMsgHandle_log pending io device
    · simp at due
  · unfold dueRequest nextRequest at due
    unfold msgSendPhase sendingLog
    rw [if_neg pending] at due
    rw [if_neg pending, if_neg pending]
    by_cases auth : device.networkEvent.authorizeReqFlag = true
    · rw [if_pos auth] at due ⊢
      obtain rfl := Option.some.inj due
      exact startRequest_log (by decide) io device rfl
    rw [if_neg auth] at due ⊢
    by_cases getUid : device.networkEvent.uidReqFlag = true
    · rw [if_pos getUid] at due ⊢
      obtain rfl := Option.some.inj due
      exact startRequest_log (by decide) io device rfl
    rw [if_neg getUid] at due ⊢
    by_cases notify : device.networkEvent.notifyResultFlag = true
    · rw [if_pos notify] at due ⊢
      obtain rfl := Option.some.inj due
      exact startRequest_log (by decide) io device rfl
    · simp [notify] at due

end Device

/-! ### What a step transmits -/

/-- The request that an event transmits. -/
@[simp]
def Event.transmittedId : Event → Option MsgId
  | .transmitted msgId _ => some msgId
  | _ => none

/-- The requests that a step transmits, the last one first. -/
def transmittedBy (device : Device) (action : Action) : List MsgId :=
  ((step action device).log.take
    ((step action device).log.length - device.log.length)).filterMap Event.transmittedId

theorem transmittedBy_of_log {device : Device} {action : Action} {events : List Event}
    (log : (step action device).log = events ++ device.log) :
    transmittedBy device action = events.filterMap Event.transmittedId := by
  have added : (step action device).log.length - device.log.length = events.length := by
    rw [log, List.length_append, Nat.add_sub_cancel]
  unfold transmittedBy
  rw [added, log, List.take_left]

/-- The history has grown without a transmission. -/
def QuietlyAfter (earlier : List Event) (device : Device) : Prop :=
  ∃ events, device.log = events ++ earlier ∧ events.filterMap Event.transmittedId = []

theorem QuietlyAfter.cons {earlier : List Event} {before after : Device}
    (quiet : QuietlyAfter earlier before) (event : Event)
    (log : after.log = event :: before.log) (noSend : event.transmittedId = none) :
    QuietlyAfter earlier after := by
  obtain ⟨events, split, nothing⟩ := quiet
  refine ⟨event :: events, by rw [log, split, List.cons_append], ?_⟩
  rw [List.filterMap_cons, noSend]
  exact nothing

theorem QuietlyAfter.change {earlier : List Event} {switches : Prop} {before after : Device}
    (change : Change False switches before after) (quiet : QuietlyAfter earlier before) :
    QuietlyAfter earlier after := by
  cases change with
  | silent | resetRequested | boardDetected | heartbeatLost => exact quiet
  | startRequested | uidRequested | modeSwitched | uidModeEntered | codeModeEntered
  | binDetected | connected | heartbeatSent => exact quiet.cons _ rfl rfl
  | requestStarted allowed => exact allowed.elim
  | transmitted allowed => exact allowed.elim

theorem QuietlyAfter.statusMove {earlier : List Event} {ret : Int} {before after : Device}
    (move : Device.StatusMove ret before after) (quiet : QuietlyAfter earlier before)
    (board : Bool) (first second : DevStatus) :
    QuietlyAfter earlier (after.emit (.statusUpdated board first second)) := by
  have moved : QuietlyAfter earlier after := by
    cases move with
    | codeProgrammed | uidProgrammed => exact quiet.cons _ rfl rfl
    | unchanged | binFound | boardLost | startTaken | binLost | uidTaken | boardFound
    | binMissing | confirmedCode | confirmedUid => exact quiet
  exact moved.cons _ rfl rfl

/-- A step transmits exactly when its sending half finds a request due and the
socket takes it. -/
def SendsDue (msgId : MsgId) (device : Device) (action : Action) : Prop :=
  ∃ io, action = .main io ∧ device.stage = .msgTransceiver ∧
    device.networkEvent.offlineFlag = false ∧ device.dueRequest = some msgId ∧
    0 ≤ (device.tcpSock.send io.socket).1

/-- Without a call of `msgTransceiverHandle` nothing is transmitted. -/
theorem step_log_of_unsent {device : Device} {action : Action}
    (unsent : SendMeets (fun _ _ => False) device action) :
    QuietlyAfter device.log (step action device) := by
  refine step_preserves_of_sent (QuietlyAfter device.log) (fun _ _ => False) device action
    QuietlyAfter.change (fun _ _ _ _ never => never.elim) ?_ ?_ ⟨[], rfl, rfl⟩ unsent
    (stepMeets_trivial device action)
  · intro response answers current quiet _ _
    exact quiet.cons _ (Device.handleResponse_log response answers current) rfl
  · intro ret before after move quiet _ _
    exact quiet.statusMove move _ _ _

theorem exists_io_of_sending {device : Device} {action : Action}
    (sending : ¬ SendMeets (fun _ _ => False) device action) :
    ∃ io, action = .main io ∧ device.stage = .msgTransceiver ∧
      device.networkEvent.offlineFlag = false := by
  unfold SendMeets at sending
  split at sending
  · next io stage =>
      refine ⟨io, rfl, stage, ?_⟩
      by_contra offline
      exact sending fun online => offline online
  · exact absurd trivial sending

/-- Nothing is transmitted behind the sending half. -/
theorem step_log_of_phase (io : MainIO) {device : Device}
    (stage : device.stage = .msgTransceiver)
    (online : device.networkEvent.offlineFlag = false) :
    QuietlyAfter (device.msgSendPhase io.socket).log (step (.main io) device) := by
  simp only [QuietlyAfter, step, Device.mainStage, stage, Device.msgTransceiverHandle,
    if_pos online]
  cases message : (device.msgSendPhase io.socket).receivedResponse io.socket io.recvJson with
  | none =>
      rw [Device.msgRecvHandle_of_none io.answers message]
      exact ⟨[], rfl, rfl⟩
  | some response =>
      rw [Device.msgRecvHandle_of_some io.answers message, Device.handleResponse_log]
      exact ⟨[.received response io.answers], rfl, rfl⟩

/-- What the sending half transmits is what the step transmits. -/
theorem transmittedBy_of_phase {io : MainIO} {device : Device} {events : List Event}
    (stage : device.stage = .msgTransceiver)
    (online : device.networkEvent.offlineFlag = false)
    (log : (device.msgSendPhase io.socket).log = events ++ device.log) :
    transmittedBy device (.main io) = events.filterMap Event.transmittedId := by
  obtain ⟨received, stepLog, nothing⟩ := step_log_of_phase io stage online
  rw [log, ← List.append_assoc] at stepLog
  rw [transmittedBy_of_log stepLog, List.filterMap_append, nothing, List.nil_append]

theorem mem_transmittedBy_iff {msgId : MsgId} {device : Device} {action : Action} :
    msgId ∈ transmittedBy device action ↔ SendsDue msgId device action := by
  by_cases unsent : SendMeets (fun _ _ => False) device action
  · obtain ⟨events, log, nothing⟩ := step_log_of_unsent unsent
    rw [transmittedBy_of_log log, nothing]
    refine iff_of_false List.not_mem_nil ?_
    rintro ⟨io, rfl, stage, online, -⟩
    simp only [SendMeets, stage] at unsent
    exact unsent online
  · obtain ⟨io, rfl, stage, online⟩ := exists_io_of_sending unsent
    have stays {events : List Event}
        (log : (device.msgSendPhase io.socket).log = events ++ device.log) :=
      transmittedBy_of_phase stage online log
    have sends : SendsDue msgId device (.main io) ↔
        device.dueRequest = some msgId ∧ 0 ≤ (device.tcpSock.send io.socket).1 := by
      constructor
      · rintro ⟨other, same, -, -, due, taken⟩
        obtain rfl := Action.main.inj same
        exact ⟨due, taken⟩
      · rintro ⟨due, taken⟩
        exact ⟨io, rfl, stage, online, due, taken⟩
    rw [sends]
    cases due : device.dueRequest with
    | none =>
        have log : (device.msgSendPhase io.socket).log = [] ++ device.log := by
          rw [Device.msgSendPhase_of_not_due due]
          rfl
        rw [stays log]
        simp
    | some other =>
        obtain ⟨text, -, log⟩ := Device.msgSendPhase_log_of_due due io.socket
        have entered : ∃ started, device.sendingLog other = started ++ device.log ∧
            started.filterMap Event.transmittedId = [] := by
          unfold Device.sendingLog
          split
          · exact ⟨[], rfl, rfl⟩
          · exact ⟨[.requestStarted other], rfl, rfl⟩
        obtain ⟨started, enteredLog, nothing⟩ := entered
        by_cases taken : 0 ≤ (device.tcpSock.send io.socket).1
        · rw [if_pos taken, enteredLog, ← List.cons_append] at log
          rw [stays log, List.filterMap_cons]
          simp [nothing, taken, eq_comm]
        · rw [if_neg taken, enteredLog] at log
          rw [stays log, nothing]
          simp [taken]

/-! ### Requirements on what is transmitted -/

section

variable {P : Event → List Event → Prop}

/-- A requirement on transmissions alone is met by all other events. -/
theorem everywhen_append_of_quiet
    (quiet : ∀ event past, event.transmittedId = none → P event past) {events : List Event}
    (nothing : events.filterMap Event.transmittedId = []) (past : List Event) :
    Everywhen P (events ++ past) ↔ Everywhen P past := by
  induction events with
  | nil => exact Iff.rfl
  | cons event events ih =>
      rw [List.filterMap_eq_nil_iff] at nothing
      obtain ⟨first, rest⟩ := List.forall_mem_cons.mp nothing
      rw [List.cons_append, everywhen_cons, ih (List.filterMap_eq_nil_iff.mpr rest)]
      exact and_iff_right (quiet event _ first)

/-- A step keeps a requirement on transmissions exactly when its sending half, if
it has one, meets the condition under which that half keeps it. -/
theorem everywhen_step_iff {atSend : SocketIO → Device → Prop} {device : Device}
    (quiet : ∀ event past, event.transmittedId = none → P event past)
    (sends : device.networkEvent.offlineFlag = false → ∀ io,
      (Everywhen P (device.msgSendPhase io).log ↔ Everywhen P device.log ∧ atSend io device))
    (action : Action) :
    Everywhen P (step action device).log ↔
      Everywhen P device.log ∧ SendMeets atSend device action := by
  by_cases unsent : SendMeets (fun _ _ => False) device action
  · obtain ⟨events, log, nothing⟩ := step_log_of_unsent unsent
    have meets : SendMeets atSend device action := by
      unfold SendMeets at unsent ⊢
      split
      · next stage =>
          simp only [stage] at unsent
          exact fun online => (unsent online).elim
      · trivial
    rw [log, everywhen_append_of_quiet quiet nothing, and_iff_left meets]
  · obtain ⟨io, rfl, stage, online⟩ := exists_io_of_sending unsent
    obtain ⟨received, log, nothing⟩ := step_log_of_phase io stage online
    have meets : SendMeets atSend device (.main io) ↔ atSend io.socket device := by
      simp only [SendMeets, stage, online, forall_const]
    rw [log, everywhen_append_of_quiet quiet nothing, sends online, meets]

end

/-! ### The two timers -/

/-- Both timers are left alone. -/
structure SameTimers (before after : Device) : Prop where
  systemTimer : after.systemTimer = before.systemTimer
  sendMsgTime : after.sendMsgTime = before.sendMsgTime

theorem SameTimers.refl (device : Device) : SameTimers device device :=
  ⟨rfl, rfl⟩

theorem SameTimers.trans {first second third : Device} (one : SameTimers first second)
    (two : SameTimers second third) : SameTimers first third :=
  ⟨two.systemTimer.trans one.systemTimer, two.sendMsgTime.trans one.sendMsgTime⟩

namespace Device

theorem sw2Release_sameTimers (device : Device) : SameTimers device device.sw2Release := by
  unfold sw2Release
  dsimp only
  split <;> split <;> split <;> exact ⟨rfl, rfl⟩

theorem checkNetwork_sameTimers (io : SocketIO) (device : Device) :
    SameTimers device (device.checkNetwork io) := by
  unfold checkNetwork reconnect heartbeat
  dsimp only
  split
  · split <;> exact ⟨rfl, rfl⟩
  · split
    · split <;> exact ⟨rfl, rfl⟩
    · exact SameTimers.refl device

theorem finishModeSwitch_sameTimers (device : Device) :
    SameTimers device device.finishModeSwitch := by
  unfold finishModeSwitch
  dsimp only
  split <;> exact ⟨rfl, rfl⟩

theorem detectBinFile_sameTimers (ret : Int) (device : Device) :
    SameTimers device (device.detectBinFile ret) := by
  unfold detectBinFile
  split <;> exact ⟨rfl, rfl⟩

theorem StatusMove.sameTimers {ret : Int} {before after : Device}
    (move : StatusMove ret before after) : SameTimers before after := by
  cases move <;> exact ⟨rfl, rfl⟩

theorem guardedStatusUpdate_sameTimers (ret : Int) (device : Device) :
    SameTimers device (device.guardedStatusUpdate ret) := by
  unfold guardedStatusUpdate
  split
  · have moved := (device.switchDevStatus_move ret).sameTimers
    exact ⟨moved.systemTimer, moved.sendMsgTime⟩
  · exact SameTimers.refl device

theorem msgRecvHandle_sameTimers (io : SocketIO) (json : Option CJson) (answers : Option Nat)
    (device : Device) : SameTimers device (device.msgRecvHandle io json answers) := by
  cases message : device.receivedResponse io json with
  | none =>
      rw [msgRecvHandle_of_none answers message]
      exact ⟨rfl, rfl⟩
  | some response =>
      rw [msgRecvHandle_of_some answers message, handleResponse_eq]
      exact ⟨rfl, rfl⟩

/-- A request that is transmitted is stamped with the time. -/
theorem sendMsgHandle_timers {msgId : MsgId} (valid : msgId ≠ .invalid) (io : SocketIO)
    (device : Device) :
    (device.sendMsgHandle msgId io).systemTimer = device.systemTimer ∧
      (device.sendMsgHandle msgId io).sendMsgTime =
        if 0 ≤ (device.tcpSock.send io).1 then device.systemTimer else device.sendMsgTime := by
  obtain ⟨text, format⟩ := device.requestText_of_ne_invalid valid
  by_cases sent : 0 ≤ (device.tcpSock.send io).1
  · rw [sendMsgHandle_of_sent format sent, if_pos sent]
    exact ⟨rfl, rfl⟩
  · obtain ⟨buffer, sock, closed⟩ := sendMsgHandle_of_refused msgId sent
    rw [closed, if_neg sent]
    exact ⟨rfl, rfl⟩

theorem startRequest_timers {msgId : MsgId} (valid : msgId ≠ .invalid) (io : SocketIO)
    (network : NetworkEvent) (device : Device) :
    ({ device with networkEvent := network }.startRequest msgId io).systemTimer =
        device.systemTimer ∧
      ({ device with networkEvent := network }.startRequest msgId io).sendMsgTime =
        if 0 ≤ (device.tcpSock.send io).1 then device.systemTimer else device.sendMsgTime :=
  sendMsgHandle_timers valid io _

/-- The sending half stamps `sendMsgTime` exactly when it transmits. -/
theorem msgSendPhase_timers (io : SocketIO) (device : Device) :
    (device.msgSendPhase io).systemTimer = device.systemTimer ∧
      (device.msgSendPhase io).sendMsgTime =
        if device.dueRequest ≠ none ∧ 0 ≤ (device.tcpSock.send io).1 then device.systemTimer
        else device.sendMsgTime := by
  cases due : device.dueRequest with
  | none =>
      rw [msgSendPhase_of_not_due due]
      simp
  | some msgId =>
      simp only [ne_eq, reduceCtorEq, not_false_eq_true, true_and]
      unfold dueRequest nextRequest at due
      unfold msgSendPhase
      generalize stamps : (if 0 ≤ (device.tcpSock.send io).1 then device.systemTimer
        else device.sendMsgTime) = stamp
      split_ifs at due ⊢ with pending elapsed auth getUid notify
      · exact stamps ▸ sendMsgHandle_timers pending io device
      · exact stamps ▸ startRequest_timers (by decide) io _ device
      · exact stamps ▸ startRequest_timers (by decide) io _ device
      · exact stamps ▸ startRequest_timers (by decide) io _ device

end Device

/-- The action is a turn of `sysTickThread`. -/
def Action.isTick : Action → Bool
  | .tick => true
  | _ => false

/-- The number of timer ticks in a run. -/
def ticks (actions : List Action) : Nat :=
  actions.countP Action.isTick

theorem step_systemTimer (action : Action) (device : Device) :
    (step action device).systemTimer =
      device.systemTimer + if action.isTick then 1 else 0 := by
  cases action with
  | press button =>
      cases button with
      | sw2 => simp [step, Button.release, Action.isTick, device.sw2Release_sameTimers.systemTimer]
      | sw3 => simp [step, Button.release, Action.isTick, Device.sw3Release, Device.emit]
  | tick =>
      simp only [step, Device.sysTick, Action.isTick, if_true]
      split <;> rfl
  | main io =>
      simp only [step, Device.mainStage, Action.isTick]
      split
      · split <;> simp
      · simpa using device.finishModeSwitch_sameTimers.systemTimer
      · simpa using (device.detectBinFile_sameTimers io.detectFile).systemTimer
      · simp [Device.detectBoard]
      · split
        · simpa using (device.checkNetwork_sameTimers io.socket).systemTimer
        · simp
      · unfold Device.msgTransceiverHandle
        split
        · have sent := (device.msgSendPhase_timers io.socket).1
          have received := ((device.msgSendPhase io.socket).msgRecvHandle_sameTimers
            io.socket io.recvJson io.answers).systemTimer
          simpa using received.trans sent
        · simp
      · simpa using (device.guardedStatusUpdate_sameTimers io.programRet).systemTimer

/-- The stamp after a call of `msgTransceiverHandle`. -/
theorem step_sendMsgTime_of_online {io : MainIO} {device : Device}
    (stage : device.stage = .msgTransceiver)
    (online : device.networkEvent.offlineFlag = false) :
    (step (.main io) device).sendMsgTime =
      if device.dueRequest ≠ none ∧ 0 ≤ (device.tcpSock.send io.socket).1 then
        device.systemTimer
      else device.sendMsgTime := by
  have received := ((device.msgSendPhase io.socket).msgRecvHandle_sameTimers io.socket
    io.recvJson io.answers).sendMsgTime
  simp only [step, Device.mainStage, stage, Device.msgTransceiverHandle, if_pos online]
  exact received.trans (device.msgSendPhase_timers io.socket).2

/-- A transmission is stamped with the time. -/
theorem SendsDue.stamps {msgId : MsgId} {device : Device} {action : Action}
    (sends : SendsDue msgId device action) :
    (step action device).sendMsgTime = device.systemTimer := by
  obtain ⟨io, rfl, stage, online, due, taken⟩ := sends
  rw [step_sendMsgTime_of_online stage online, if_pos ⟨by simp [due], taken⟩]

/-- Nothing but a transmission changes the stamp. -/
theorem step_sendMsgTime (action : Action) (device : Device) :
    (step action device).sendMsgTime = device.sendMsgTime ∨
      ∃ msgId, SendsDue msgId device action := by
  cases action with
  | press button =>
      cases button with
      | sw2 => exact .inl device.sw2Release_sameTimers.sendMsgTime
      | sw3 => exact .inl rfl
  | tick =>
      left
      simp only [step, Device.sysTick]
      split <;> rfl
  | main io =>
      cases stage : device.stage with
      | msgTransceiver =>
          by_cases online : device.networkEvent.offlineFlag = false
          · rw [step_sendMsgTime_of_online stage online]
            split
            · next sends =>
                obtain ⟨msgId, due⟩ := Option.ne_none_iff_exists'.mp sends.1
                exact .inr ⟨msgId, io, rfl, stage, online, due, sends.2⟩
            · exact .inl rfl
          · left
            simp only [step, Device.mainStage, stage, Device.msgTransceiverHandle,
              if_neg online]
      | modeSwitch =>
          left
          simp only [step, Device.mainStage, stage]
          split <;> rfl
      | modeSwitchDelay =>
          left
          simp only [step, Device.mainStage, stage]
          exact device.finishModeSwitch_sameTimers.sendMsgTime
      | binDetection =>
          left
          simp only [step, Device.mainStage, stage]
          exact (device.detectBinFile_sameTimers io.detectFile).sendMsgTime
      | boardDetection =>
          left
          simp only [step, Device.mainStage, stage]
          rfl
      | checkNetwork =>
          left
          simp only [step, Device.mainStage, stage]
          split
          · exact (device.checkNetwork_sameTimers io.socket).sendMsgTime
          · rfl
      | statusUpdate =>
          left
          simp only [step, Device.mainStage, stage]
          exact (device.guardedStatusUpdate_sameTimers io.programRet).sendMsgTime

end OnlineProgram
