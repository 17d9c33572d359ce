import OnlineProgram.ServerAnswers
import OnlineProgram.SessionCalls

/-!
# Requests and the connected board

In `MODE_PROGRAM_CODE` an unplugged board cancels the start request.  In
`MODE_PROGRAM_UID` a request passes through `uidReqFlag`, the request slot and
`UIDavailableFlag`, and none of them is cleared when the board is gone.  This
file follows both kinds of request since the last run of `updateDeviceStatus`
that saw no board.
-/

namespace OnlineProgram

open ByteStrings TransitionRuns EventHistory

/-- The stages of a UID request that a history shows. -/
inductive UidStage where
  | released
  | started
  | delivered
deriving DecidableEq, Repr

namespace Event

/-- One run of `updateDeviceStatus` has seen `boardConnectedFlag` false. -/
def boardMissed : Event → Bool
  | .statusUpdated board _ _ => !board
  | _ => false

def uidStage : Event → Option UidStage
  | .uidRequested => some .released
  | .requestStarted .getUid => some .started
  | .received response _ => response.deliveredUid.map fun _ => .delivered
  | _ => none

end Event

/-- The events since the board was last missed. -/
def sinceMissed (past : List Event) : List Event :=
  since Event.boardMissed past

/-- The stages of UID requests since the board was last missed, the newest
first. -/
def uidStages (past : List Event) : List UidStage :=
  (sinceMissed past).filterMap Event.uidStage

/-- Since the board was last missed, `sw2` has been released to start the
programming of code, or to ask for a UID that has been requested and has
arrived. -/
def OnBehalfOfRelease (past : List Event) : Prop :=
  match sessionMode past with
  | .programCode => (sinceMissed past).any Event.isStartRequested = true
  | .programUID =>
      [.delivered, .started, .released].Sublist (uidStages past) ∨
        (switchPending past = true ∧
          (sinceMissed past).any Event.isStartRequested = true)

instance : DecidablePred OnBehalfOfRelease :=
  fun past => by unfold OnBehalfOfRelease; split <;> infer_instance

/-- `updateDeviceStatus` sets `DEV_STATUS_PROGRAMING` only with a board and on
behalf of a release. -/
def StartedWithBoard : Event → List Event → Prop
  | .statusUpdated board before .programing, past =>
      before ≠ .programing → board = true ∧ OnBehalfOfRelease past
  | _, _ => True

instance (event : Event) : DecidablePred (StartedWithBoard event) :=
  fun past => by
    apply Event.casesOn (motive := fun event => Decidable (StartedWithBoard event past)) event
    case statusUpdated =>
      intro board before after
      apply DevStatus.casesOn (motive := fun after =>
        Decidable (StartedWithBoard (.statusUpdated board before after) past)) after <;>
      unfold StartedWithBoard <;> infer_instance
    all_goals
      intros
      unfold StartedWithBoard
      infer_instance

/-- A UID request is under way. -/
def UidUnderWay (device : Device) : Prop :=
  device.networkEvent.uidReqFlag = true ∨
    device.msgHandle.msgSendId = .getUid ∨
      device.eventFlags.uidAvailableFlag = true

instance : DecidablePred UidUnderWay :=
  fun _ => inferInstanceAs (Decidable (_ ∨ _))

/-- The message answers a `GET_UID` transmission made since the board was last
missed. -/
def AnswersSinceMissed (answers : Option Nat) (past : List Event) : Prop :=
  ∃ time ∈ answers, (∃ sent ∈ eventAt past time, sent.isTransmitted .getUid) ∧
    ∀ event ∈ eventsFrom past time, event.boardMissed = false

instance (answers : Option Nat) : DecidablePred (AnswersSinceMissed answers) :=
  fun _ => inferInstanceAs (Decidable (∃ _ ∈ answers, _))

/-- No UID request is under way when `updateDeviceStatus` sees no board, and no
UID answer to an earlier transmission raises `UIDavailableFlag` afterwards. -/
def FollowsBoard : Device → Action → Prop :=
  StepMeets
    (fun response answers device =>
      response.deliveredUid.isSome →
        device.eventFlags.uidAvailableFlag = false →
          AnswersSinceMissed answers device.log)
    (fun device =>
      device.eventFlags.boardConnectedFlag = false → ¬ UidUnderWay device)

instance (device : Device) : DecidablePred (FollowsBoard device) :=
  inferInstanceAs (DecidablePred (StepMeets _ _ device))

theorem sinceMissed_cons (event : Event) (past : List Event) :
    sinceMissed (event :: past) =
      if event.boardMissed then [] else event :: sinceMissed past :=
  since_cons _ _ _

theorem uidStages_cons {event : Event} (past : List Event)
    (seen : event.boardMissed = false) :
    uidStages (event :: past) =
      (event.uidStage.toList) ++ uidStages past := by
  rw [uidStages, sinceMissed_cons, seen]
  simp only [Bool.false_eq_true, if_false, List.filterMap_cons]
  cases event.uidStage <;> rfl

theorem uidStages_sublist_cons {event : Event} (past : List Event)
    (seen : event.boardMissed = false) :
    (uidStages past).Sublist (uidStages (event :: past)) := by
  rw [uidStages_cons past seen]
  exact List.sublist_append_right _ _

/-- What the flags of a UID request stand for. -/
structure UidTraced (device : Device) : Prop where
  released : device.networkEvent.uidReqFlag = true →
    [.released].Sublist (uidStages device.log)
  started : device.msgHandle.msgSendId = .getUid →
    [.started, .released].Sublist (uidStages device.log)
  delivered : device.eventFlags.uidAvailableFlag = true →
    [.delivered, .started, .released].Sublist (uidStages device.log)
  sent : Everywhen (fun event past => event.isTransmitted .getUid →
    [.started, .released].Sublist (uidStages past)) device.log

namespace UidTraced

theorem of_quiet {before after : Device} (event : Event)
    (traced : UidTraced before)
    (requested : after.networkEvent.uidReqFlag = true →
      before.networkEvent.uidReqFlag = true)
    (slot : after.msgHandle.msgSendId = .getUid →
      before.msgHandle.msgSendId = .getUid)
    (available : after.eventFlags.uidAvailableFlag = true →
      before.eventFlags.uidAvailableFlag = true)
    (log : after.log = event :: before.log)
    (seen : event.boardMissed = false)
    (unsent : event.isTransmitted .getUid →
      before.msgHandle.msgSendId = .getUid) : UidTraced after := by
  obtain ⟨released, started, delivered, sent⟩ := traced
  have grows : (uidStages before.log).Sublist (uidStages after.log) := by
    rw [log]
    exact uidStages_sublist_cons _ seen
  refine ⟨fun now => ?_, fun now => ?_, fun now => ?_, ?_⟩
  · exact (released (requested now)).trans grows
  · exact (started (slot now)).trans grows
  · exact (delivered (available now)).trans grows
  · rw [log]
    exact ⟨fun now => started (unsent now), sent⟩

theorem change {sends switches : Prop} {before after : Device}
    (change : Change sends switches before after) (traced : UidTraced before) :
    UidTraced after := by
  have unsent {P : Prop} (now : false = true) : P :=
    absurd now Bool.false_ne_true
  cases change with
  | silent | resetRequested | boardDetected | heartbeatLost =>
      exact ⟨traced.released, traced.started, traced.delivered, traced.sent⟩
  | startRequested | modeSwitched | binDetected | connected | heartbeatSent =>
      exact traced.of_quiet _ id id id rfl rfl unsent
  | uidRequested =>
      obtain ⟨released, started, delivered, sent⟩ := traced
      have grows := uidStages_sublist_cons before.log
        (show Event.boardMissed .uidRequested = false from rfl)
      have stages : uidStages (.uidRequested :: before.log) =
          .released :: uidStages before.log := uidStages_cons _ rfl
      refine ⟨fun _ => ?_, fun now => (started now).trans grows,
        fun now => (delivered now).trans grows, unsent, sent⟩
      rw [stages]
      exact (List.nil_sublist _).cons_cons _
  | uidModeEntered =>
      exact traced.of_quiet _ unsent id unsent rfl rfl unsent
  | codeModeEntered =>
      exact traced.of_quiet _ id id unsent rfl rfl unsent
  | requestStarted _ msgId _ free next =>
      cases msgId with
      | getUid =>
          have asked := Device.uidReqFlag_of_nextRequest next
          obtain ⟨released, -, delivered, sent⟩ := traced
          have grows := uidStages_sublist_cons before.log
            (show Event.boardMissed (.requestStarted .getUid) = false from rfl)
          have stages : uidStages (.requestStarted .getUid :: before.log) =
              .started :: uidStages before.log := uidStages_cons _ rfl
          refine ⟨unsent, fun _ => ?_, fun now => (delivered now).trans grows,
            unsent, sent⟩
          rw [stages]
          exact (released asked).cons_cons _
      | auth | notify | invalid =>
          exact traced.of_quiet _ id (by simp) id rfl rfl unsent
  | transmitted _ msgId text _ pending =>
      refine traced.of_quiet _ id id id rfl rfl fun now => ?_
      have same : msgId = .getUid := by simpa [Event.isTransmitted] using now
      exact pending.trans same

/-- The stages before a transmission that is answered since the board was last
missed. -/
theorem started_of_answer {device : Device} {answers : Option Nat}
    (traced : UidTraced device)
    (recent : AnswersSinceMissed answers device.log) :
    [.started, .released].Sublist (uidStages device.log) := by
  obtain ⟨time, -, ⟨sent, found, transmitted⟩, seen⟩ := recent
  have then_ := traced.sent.eventAt found transmitted
  have split : sinceMissed device.log =
      eventsFrom device.log time ++ sinceMissed (pastAt device.log time) := by
    have whole := since_append seen (pastAt device.log time)
    rw [eventsFrom_append_pastAt] at whole
    exact whole
  have stages : uidStages device.log =
      (eventsFrom device.log time).filterMap Event.uidStage ++
        uidStages (pastAt device.log time) := by
    rw [uidStages, split, List.filterMap_append]
    rfl
  rw [stages]
  exact then_.trans (List.sublist_append_right _ _)

theorem handleResponse {device : Device} {response : Response}
    {answers : Option Nat} (traced : UidTraced device)
    (recent : response.deliveredUid.isSome →
      device.eventFlags.uidAvailableFlag = false →
        AnswersSinceMissed answers device.log) :
    UidTraced (device.handleResponse response answers) := by
  have grows := uidStages_sublist_cons device.log
    (show Event.boardMissed (.received response answers) = false from rfl)
  rw [Device.handleResponse_eq]
  refine ⟨fun now => (traced.released now).trans grows, fun now => ?_,
    fun now => ?_, fun now => absurd now Bool.false_ne_true, traced.sent⟩
  · have kept : (device.msgHandle.receive response).msgSendId ≠ .invalid := by
      rw [show (device.msgHandle.receive response).msgSendId = .getUid from now]
      simp
    have pending : device.msgHandle.msgSendId = .getUid := by
      rw [← MsgHandle.receive_keeps kept]
      exact now
    exact (traced.started pending).trans grows
  · cases available : device.eventFlags.uidAvailableFlag with
    | true => exact (traced.delivered available).trans grows
    | false =>
        have someUid : response.deliveredUid.isSome = true := by
          simpa [available] using now
        have started := traced.started_of_answer (recent someUid available)
        obtain ⟨uid, delivers⟩ := Option.isSome_iff_exists.mp someUid
        have stages : uidStages (.received response answers :: device.log) =
            .delivered :: uidStages device.log := by
          rw [uidStages_cons _ rfl, Event.uidStage, delivers]
          rfl
        rw [stages]
        exact started.cons_cons _

theorem statusMove {ret : Int} {before after : Device}
    (move : Device.StatusMove ret before after) (traced : UidTraced before)
    (cancelled : before.eventFlags.boardConnectedFlag = false →
      ¬ UidUnderWay before) (first second : DevStatus) :
    UidTraced (after.emit
      (.statusUpdated before.eventFlags.boardConnectedFlag first second)) := by
  have unsent {P : Prop} (now : false = true) : P :=
    absurd now Bool.false_ne_true
  have moved : UidTraced after := by
    cases move with
    | codeProgrammed | uidProgrammed =>
        exact traced.of_quiet _ id id id rfl rfl unsent
    | uidTaken =>
        exact ⟨traced.released, traced.started, unsent, traced.sent⟩
    | unchanged | binFound | boardLost | startTaken | binLost | boardFound
    | binMissing | confirmedCode | confirmedUid =>
        exact ⟨traced.released, traced.started, traced.delivered, traced.sent⟩
  cases board : before.eventFlags.boardConnectedFlag with
  | true => exact moved.of_quiet _ id id id rfl rfl unsent
  | false =>
      have idle := cancelled board
      have idleAfter : ¬ UidUnderWay after := by
        cases move <;> first | exact idle | simp_all [UidUnderWay]
      simp only [UidUnderWay, not_or] at idleAfter
      obtain ⟨unasked, unpending, unavailable⟩ := idleAfter
      exact ⟨fun now => absurd now unasked, fun now => absurd now unpending,
        fun now => absurd now unavailable, unsent, moved.sent⟩

theorem startState (mac : Bytes) (presses : List Button) :
    UidTraced (startState mac presses) := by
  refine startState_induction UidTraced UidTraced ?_ ?_ ?_ presses
  · exact ⟨fun now => absurd now Bool.false_ne_true,
      fun now => MsgId.noConfusion now,
      fun now => absurd now Bool.false_ne_true,
      fun now => absurd now Bool.false_ne_true, trivial⟩
  · intro device traced
    exact traced.of_quiet _ id id id rfl rfl
      fun now => absurd now Bool.false_ne_true
  · intro device traced
    exact ⟨fun now => absurd now Bool.false_ne_true, traced.started,
      traced.delivered, traced.sent⟩

end UidTraced

/-- A start request that has not been taken was made in the status
`DEV_STATUS_CONNECTED`, and the board has not been missed since. -/
def StartTraced (device : Device) : Prop :=
  device.eventFlags.startProgramFlag = true →
    device.devStatus = .connected ∧
      (sinceMissed device.log).any Event.isStartRequested

namespace StartTraced

theorem of_quiet {before after : Device} (event : Event)
    (traced : StartTraced before)
    (start : after.eventFlags.startProgramFlag = true →
      before.eventFlags.startProgramFlag = true)
    (status : after.devStatus = before.devStatus)
    (log : after.log = event :: before.log)
    (seen : event.boardMissed = false) : StartTraced after := by
  intro started
  obtain ⟨connected, released⟩ := traced (start started)
  refine ⟨status.trans connected, ?_⟩
  rw [log, sinceMissed_cons, seen]
  simpa using Or.inr released

theorem change {sends switches : Prop} {before after : Device}
    (change : Change sends switches before after)
    (traced : StartTraced before) : StartTraced after := by
  cases change with
  | silent | resetRequested | boardDetected | heartbeatLost => exact traced
  | startRequested _ status =>
      intro _
      refine ⟨status, ?_⟩
      rw [sinceMissed_cons]
      simp [Event.boardMissed]
  | uidModeEntered => exact fun now => absurd now Bool.false_ne_true
  | codeModeEntered => exact fun now => absurd now Bool.false_ne_true
  | uidRequested | modeSwitched | binDetected | connected | heartbeatSent
  | requestStarted | transmitted => exact traced.of_quiet _ id rfl rfl rfl

theorem handleResponse {device : Device} (response : Response)
    (answers : Option Nat) (traced : StartTraced device) :
    StartTraced (device.handleResponse response answers) := by
  rw [Device.handleResponse_eq]
  exact traced.of_quiet _ id rfl rfl rfl

theorem startState (mac : Bytes) (presses : List Button) :
    StartTraced (startState mac presses) :=
  startState_induction (fun device => device.eventFlags.startProgramFlag = false)
    StartTraced rfl (fun _ booting => booting)
    (fun _ booting now => absurd (booting.symm.trans now) Bool.false_ne_true)
    presses

end StartTraced

/-- The invariant behind `StartedWithBoard`. -/
structure BoardInvariant (device : Device) : Prop where
  modes : ModeInvariant device
  switches : SwitchRecorded device
  uid : UidTraced device
  start : StartTraced device
  board : Everywhen StartedWithBoard device.log

namespace BoardInvariant

theorem change {sends switches : Prop} {before after : Device}
    (change : Change sends switches before after)
    (holds : BoardInvariant before) : BoardInvariant after := by
  obtain ⟨modes, switches, uid, start, board⟩ := holds
  refine ⟨modes.change change, switches.change change, uid.change change,
    start.change change, ?_⟩
  cases change with
  | silent | resetRequested | boardDetected | heartbeatLost => exact board
  | startRequested | uidRequested | modeSwitched | uidModeEntered
  | codeModeEntered | binDetected | connected | heartbeatSent | requestStarted
  | transmitted => exact ⟨trivial, board⟩

/-- A step that sets `DEV_STATUS_PROGRAMING` has a board and a release. -/
theorem startedWithBoard {ret : Int} {before after : Device}
    (move : Device.StatusMove ret before after)
    (cancelled : before.eventFlags.boardConnectedFlag = false →
      ¬ UidUnderWay before) (holds : BoardInvariant before) :
    StartedWithBoard
      (.statusUpdated before.eventFlags.boardConnectedFlag before.devStatus
        after.devStatus) after.log := by
  obtain ⟨modes, ⟨pending, mode⟩, uid, start, -⟩ := holds
  cases move with
  | startTaken status board started =>
      intro _
      have released := (start started).2
      refine ⟨board, ?_⟩
      unfold OnBehalfOfRelease
      split
      · exact released
      · rename_i uidMode
        refine Or.inr ⟨?_, released⟩
        by_contra settled
        have noSwitch : before.eventFlags.modeSwitchFlag = false := by
          rw [pending]
          simpa using settled
        have code := ((modes.flags noSwitch).1 started).1
        have uidMode' := mode.trans uidMode
        simp [code] at uidMode'
  | uidTaken status uidMode available =>
      intro _
      have board : before.eventFlags.boardConnectedFlag = true := by
        by_contra missing
        exact cancelled (by simpa using missing) (Or.inr (Or.inr available))
      refine ⟨board, ?_⟩
      have recorded : sessionMode before.log = .programUID :=
        mode.symm.trans uidMode
      unfold OnBehalfOfRelease
      dsimp only
      rw [recorded]
      exact Or.inl (uid.delivered available)
  | unchanged =>
      cases status : before.devStatus <;> simp [StartedWithBoard]
  | codeProgrammed => by_cases success : ret = 0 <;> simp [StartedWithBoard, success]
  | uidProgrammed => by_cases success : ret = 0 <;> simp [StartedWithBoard, success]
  | binFound | boardLost | binLost | boardFound | binMissing | confirmedCode
  | confirmedUid => trivial

theorem statusMove {ret : Int} {before after : Device}
    (move : Device.StatusMove ret before after)
    (cancelled : before.eventFlags.boardConnectedFlag = false →
      ¬ UidUnderWay before) (holds : BoardInvariant before) :
    BoardInvariant (after.emit
      (.statusUpdated before.eventFlags.boardConnectedFlag before.devStatus
        after.devStatus)) := by
  have now := holds.startedWithBoard move cancelled
  obtain ⟨modes, switches, uid, start, board⟩ := holds
  have earlier : Everywhen StartedWithBoard after.log := by
    cases move with
    | codeProgrammed | uidProgrammed => exact ⟨trivial, board⟩
    | unchanged | binFound | boardLost | startTaken | binLost | uidTaken
    | boardFound | binMissing | confirmedCode | confirmedUid => exact board
  refine ⟨modes.statusMove move _ _ _, switches.statusMove move _ _ _,
    uid.statusMove move cancelled _ _, ?_, now, earlier⟩
  intro started
  have lowered := move.lowers fun raised => (start raised).1
  exact absurd (lowered.symm.trans started) Bool.false_ne_true

theorem step {device : Device} (action : Action)
    (inUid : TransceiverInUid device) (follows : FollowsBoard device action)
    (holds : BoardInvariant device) : BoardInvariant (step action device) := by
  refine step_preserves BoardInvariant BoardInvariant.change ?_ ?_ device action
    holds ((inUid.stepMeets action).and follows)
  · rintro response answers device ⟨modes, switches, uid, start, board⟩ online
      ⟨inUid, recent⟩
    refine ⟨modes.handleResponse response answers online inUid,
      switches.handleResponse response answers, uid.handleResponse recent,
      start.handleResponse response answers, ?_⟩
    rw [Device.handleResponse_log]
    exact ⟨trivial, board⟩
  · rintro ret before after move holds - ⟨-, cancelled⟩
    exact holds.statusMove move cancelled

theorem startState (mac : Bytes) (presses : List Button) :
    BoardInvariant (startState mac presses) := by
  refine ⟨ModeInvariant.startState mac presses, ?_, UidTraced.startState mac presses,
    StartTraced.startState mac presses, ?_⟩
  · exact SwitchRecorded.startState mac presses
  · exact startState_induction
      (fun device => Everywhen StartedWithBoard device.log)
      (fun device => Everywhen StartedWithBoard device.log)
      ⟨trivial, trivial⟩ (fun _ booting => ⟨trivial, booting⟩)
      (fun _ booting => booting) presses

end BoardInvariant

/-- In every run in which a missing board always finds no UID request under
way, and no UID answers a transmission from before, `DEV_STATUS_PROGRAMING` is
set only with a board and on behalf of a release made since the board was last
missed. -/
theorem everyStart_withBoard (mac : Bytes) (presses : List Button)
    {actions : List Action}
    (follows : EveryStep step FollowsBoard actions (startState mac presses)) :
    EveryState step (fun device => Everywhen StartedWithBoard device.log)
      actions (startState mac presses) := by
  refine everyState_of_conforming
    (fun device => TransceiverInUid device ∧ BoardInvariant device) ?_ ?_ ?_
    follows
  · rintro device action ⟨inUid, holds⟩ follows
    exact ⟨inUid.step action, holds.step action inUid follows⟩
  · exact fun device holds => holds.2.board
  · exact ⟨fun stage => by simp [startState_stage] at stage,
      BoardInvariant.startState mac presses⟩

/-- The board is connected when the UID arrives. -/
theorem everyStart_withBoard_once :
    let actions :=
      authorisedTurns ++ .press .sw2 :: quietTurn ++
        answeredTurn apiIdGetUid (some (ascii "A1")) 8
    .statusUpdated true .connected .programing ∈ (runFrom [] [] actions).log ∧
      EveryState step (fun device => Everywhen StartedWithBoard device.log)
        actions (startState [] []) :=
  ⟨by decide +kernel, everyStart_withBoard [] [] (by decide +kernel)⟩

/-- The board is unplugged in the turn in which the UID arrives, and the status
becomes `DEV_STATUS_PROGRAMING` all the same. -/
theorem started_without_board :
    ¬ EveryState step (fun device => Everywhen StartedWithBoard device.log)
      (authorisedTurns ++ .press .sw2 :: quietTurn ++
        iteration { MainIO.succeeding
            (some (answerJson apiIdGetUid respCodeSuccess (some (ascii "A1"))))
            (some 8) with
          detectConnectStatus := -1 })
      (startState [] []) := by
  decide +kernel

end OnlineProgram
