import OnlineProgram.ModeSessions
import OnlineProgram.ServerAnswers

/-!
# The reported programming result

A `NOTIFY` message is formatted each time it is sent, from the globals `uid`
and `UIDProgramSuccessFlag`.  This file states what these globals hold in terms
of the last call of `programUID` and of what has happened since, and derives
exactly when a report is faithful to the call.
-/

namespace OnlineProgram

open ByteStrings TransitionRuns EventHistory

namespace Event

/-- The UID that `programUID` was given and what it returned. -/
@[simp] def uidCall : Event → Option (Bytes × Int)
  | .programUIDCalled id ret => some (id, ret)
  | _ => none

@[simp] def isUidCall (event : Event) : Bool :=
  event.uidCall.isSome

/-- The UID that the device takes from a message. -/
@[simp] def newUid : Event → Option Bytes
  | .received response _ => response.deliveredUid
  | _ => none

end Event

/-- The last UID delivered since the last call of `programUID`. -/
def uidSinceCall (past : List Event) : Option Bytes :=
  latest Event.newUid (since Event.isUidCall past)

/-- `resetEventFlags` has run since the last call of `programUID`. -/
def resetSinceCall (past : List Event) : Bool :=
  (since Event.isUidCall past).any Event.isFlagsReset

theorem uidSinceCall_cons (event : Event) (past : List Event) :
    uidSinceCall (event :: past) =
      if event.isUidCall then none
      else event.newUid.or (uidSinceCall past) := by
  rw [uidSinceCall, since_cons]
  split
  · rfl
  · rw [latest_cons]
    rfl

theorem resetSinceCall_cons (event : Event) (past : List Event) :
    resetSinceCall (event :: past) =
      if event.isUidCall then false
      else event.isFlagsReset || resetSinceCall past := by
  rw [resetSinceCall, since_cons]
  split <;> rfl

/-- A report carries the UID of the last call and whether that returned 0. -/
def ReportFaithful : Event → List Event → Prop
  | .transmitted .notify text, past =>
      ∃ call ∈ latest Event.uidCall past,
        text = reqNotifyResult apiIdNotifyProgramUidResult call.1
          (decide (call.2 = 0))
  | _, _ => True

/-- A report carries the last delivered UID, and a success only until the flags
are reset. -/
def ReportCurrent : Event → List Event → Prop
  | .transmitted .notify text, past =>
      ∃ call ∈ latest Event.uidCall past,
        text = reqNotifyResult apiIdNotifyProgramUidResult
          ((uidSinceCall past).getD call.1)
          (decide (call.2 = 0) && !resetSinceCall past)
  | _, _ => True

/-- Since the last call of `programUID` no other UID has been delivered last,
and the flags have not been reset if the call succeeded. -/
def UndisturbedSinceCall (past : List Event) : Prop :=
  ∀ call ∈ latest Event.uidCall past,
    (∀ uid ∈ uidSinceCall past, uid = call.1) ∧
      (call.2 = 0 → resetSinceCall past = false)

/-- The report is sent undisturbed. -/
def ReportUndisturbed : Event → List Event → Prop
  | .transmitted .notify _, past => UndisturbedSinceCall past
  | _, _ => True

instance (event : Event) : DecidablePred (ReportFaithful event) :=
  fun past => by unfold ReportFaithful; split <;> infer_instance

/-- The globals that a report is made of. -/
structure ReportTracked (device : Device) : Prop where
  called : device.networkEvent.notifyResultFlag = true ∨
      device.msgHandle.msgSendId = .notify →
    (latest Event.uidCall device.log).isSome
  current : ∀ call ∈ latest Event.uidCall device.log,
    device.uid = (uidSinceCall device.log).getD call.1 ∧
      device.eventFlags.uidProgramSuccessFlag =
        (decide (call.2 = 0) && !resetSinceCall device.log)
  reports : Everywhen ReportCurrent device.log

namespace ReportTracked

theorem of_quiet {before after : Device} (event : Event)
    (tracked : ReportTracked before)
    (waiting : after.networkEvent.notifyResultFlag = true ∨
        after.msgHandle.msgSendId = .notify →
      before.networkEvent.notifyResultFlag = true ∨
        before.msgHandle.msgSendId = .notify)
    (uid : after.uid = before.uid)
    (flag : after.eventFlags.uidProgramSuccessFlag =
      before.eventFlags.uidProgramSuccessFlag)
    (log : after.log = event :: before.log)
    (noCall : event.uidCall = none) (noUid : event.newUid = none)
    (noReset : event.isFlagsReset = false) (report : ReportCurrent event before.log) :
    ReportTracked after := by
  obtain ⟨called, current, reports⟩ := tracked
  have unmarked : event.isUidCall = false := by
    rw [Event.isUidCall, noCall, Option.isSome_none]
  refine ⟨fun waitingAfter => ?_, ?_, ?_⟩
  · rw [log, latest_cons, noCall, Option.none_or]
    exact called (waiting waitingAfter)
  · rw [log, latest_cons, noCall, Option.none_or, uidSinceCall_cons, unmarked,
      noUid, resetSinceCall_cons, unmarked, noReset, uid, flag]
    simpa using current
  · rw [log]
    exact ⟨report, reports⟩

theorem change {sends switches : Prop} {before after : Device}
    (change : Change sends switches before after) (tracked : ReportTracked before) :
    ReportTracked after := by
  cases change with
  | silent | resetRequested | boardDetected | heartbeatLost =>
      exact ⟨tracked.called, tracked.current, tracked.reports⟩
  | startRequested | uidRequested | modeSwitched | binDetected | connected
  | heartbeatSent =>
      exact tracked.of_quiet _ id rfl rfl rfl rfl rfl rfl trivial
  | uidModeEntered | codeModeEntered =>
      refine ⟨fun waiting => ?_, ?_, trivial, tracked.reports⟩
      · have called := tracked.called (waiting.imp_left (by
          simp [NetworkEvent.initial]))
        simpa [latest_cons] using called
      · intro call last
        have last : call ∈ latest Event.uidCall before.log := by
          simpa [latest_cons] using last
        have uid := (tracked.current call last).1
        exact ⟨by simpa [uidSinceCall_cons] using uid,
          by simp [EventFlags.cleared, resetSinceCall_cons]⟩
  | requestStarted _ msgId _ free next =>
      refine tracked.of_quiet _ ?_ rfl rfl rfl rfl rfl rfl trivial
      rintro (waiting | started)
      · cases msgId <;> simp_all [Device.takeRequest]
      · have notify : msgId = .notify := started
        exact Or.inl (Device.notifyResultFlag_of_nextRequest (notify ▸ next))
  | transmitted _ msgId text _ pending format =>
      refine tracked.of_quiet _ id rfl rfl rfl rfl rfl rfl ?_
      cases msgId with
      | notify =>
          have called := tracked.called (Or.inr pending)
          obtain ⟨call, last⟩ := Option.isSome_iff_exists.mp called
          obtain ⟨uid, flag⟩ := tracked.current call last
          refine ⟨call, last, ?_⟩
          rw [← uid, ← flag]
          exact (Option.some.inj format).symm
      | auth | getUid | invalid => trivial

theorem handleResponse {device : Device} (response : Response)
    (answers : Option Nat) (tracked : ReportTracked device) :
    ReportTracked (device.handleResponse response answers) := by
  rw [Device.handleResponse_eq]
  refine ⟨fun waiting => ?_, ?_, trivial, tracked.reports⟩
  · have called := tracked.called (waiting.imp_right fun pending => by
      have kept : (device.msgHandle.receive response).msgSendId ≠ .invalid := by
        rw [pending]
        simp
      rw [← MsgHandle.receive_keeps kept, pending])
    simpa [latest_cons] using called
  · intro call last
    have last : call ∈ latest Event.uidCall device.log := by
      simpa [latest_cons] using last
    obtain ⟨uid, flag⟩ := tracked.current call last
    refine ⟨?_, by simpa [resetSinceCall_cons] using flag⟩
    cases delivered : response.deliveredUid with
    | none => simpa [uidSinceCall_cons, delivered] using uid
    | some id => simp [uidSinceCall_cons, delivered]

theorem statusMove {ret : Int} {before after : Device}
    (move : Device.StatusMove ret before after) (tracked : ReportTracked before)
    (board : Bool) (first second : DevStatus) :
    ReportTracked (after.emit (.statusUpdated board first second)) := by
  have moved : ReportTracked after := by
    cases move with
    | codeProgrammed =>
        exact tracked.of_quiet _ id rfl rfl rfl rfl rfl rfl trivial
    | uidProgrammed =>
        refine ⟨fun _ => by simp [latest_cons], ?_, trivial, tracked.reports⟩
        intro call last
        obtain rfl : (before.uid, ret) = call := by
          simpa [latest_cons] using last
        simp [uidSinceCall_cons, resetSinceCall_cons]
    | unchanged | binFound | boardLost | startTaken | binLost | uidTaken
    | boardFound | binMissing | confirmedCode | confirmedUid =>
        exact ⟨tracked.called, tracked.current, tracked.reports⟩
  exact moved.of_quiet _ id rfl rfl rfl rfl rfl rfl trivial

theorem startState (mac : Bytes) (presses : List Button) :
    ReportTracked (startState mac presses) := by
  refine startState_induction ReportTracked ReportTracked ?_ ?_ ?_
    presses
  · refine ⟨fun waiting => ?_, fun call last => ?_, trivial, trivial⟩
    · rcases waiting with waiting | pending
      · exact absurd waiting Bool.false_ne_true
      · exact MsgId.noConfusion pending
    · have nothing : (none : Option (Bytes × Int)) = some call := last
      simp at nothing
  · intro device booting
    exact booting.of_quiet _ id rfl rfl rfl rfl rfl rfl trivial
  · intro device booting
    refine ⟨fun waiting => ?_, booting.current, booting.reports⟩
    rcases waiting with waiting | pending
    · exact absurd waiting Bool.false_ne_true
    · exact booting.called (Or.inr pending)

theorem step {device : Device} (action : Action)
    (tracked : ReportTracked device) : ReportTracked (step action device) := by
  refine step_preserves ReportTracked ReportTracked.change ?_ ?_ device action
    tracked (stepMeets_trivial device action)
  · intro response answers device tracked _ _
    exact tracked.handleResponse response answers
  · intro ret before after move tracked _ _
    exact tracked.statusMove move _ _ _

end ReportTracked

/-- A current report is faithful exactly when nothing has disturbed the two
globals since the call. -/
theorem reportFaithful_iff {event : Event} {past : List Event}
    (current : ReportCurrent event past) :
    ReportFaithful event past ↔ ReportUndisturbed event past := by
  unfold ReportFaithful ReportUndisturbed
  split
  · rename_i text
    obtain ⟨call, last, rfl⟩ := current
    simp only [UndisturbedSinceCall, Option.mem_def] at last ⊢
    simp only [last, Option.some.injEq, exists_eq_left', forall_eq',
      reqNotifyResult_inj]
    apply and_congr
    · cases uidSinceCall past <;> simp
    · cases resetSinceCall past <;> simp
  · simp

/-- In every run, every report is faithful to the last call of `programUID` if
and only if every report is sent undisturbed. -/
theorem everyReport_faithful_iff (mac : Bytes) (presses : List Button)
    (actions : List Action) :
    Everywhen ReportFaithful (runFrom mac presses actions).log ↔
      Everywhen ReportUndisturbed (runFrom mac presses actions).log := by
  have tracked := run_invariant_of_step ReportTracked
    (fun device action tracked => tracked.step action) actions
    (ReportTracked.startState mac presses)
  exact everywhen_congr tracked.reports fun _ _ => reportFaithful_iff

/-- Two runs with a conforming server.  In the first a second answer to a
resent `GET_UID` request delivers another UID while the report is pending, and
the resent report carries that UID.  In the second the device leaves
`MODE_PROGRAM_UID` and returns while the report of a success is pending, and
the resent report denies the success. -/
theorem report_unfaithful :
    let resentUid :=
      authorisedTurns ++ .press .sw2 :: quietTurn ++ List.replicate 5 .tick ++
        answeredTurn apiIdGetUid (some (ascii "A1")) 8 ++ quietTurn ++
        answeredTurn apiIdGetUid (some (ascii "A2")) 10 ++
        List.replicate 5 .tick ++ quietTurn
    let switched :=
      authorisedTurns ++ .press .sw2 :: quietTurn ++
        answeredTurn apiIdGetUid (some (ascii "A1")) 8 ++ quietTurn ++
        quietTurn ++
        .press .sw3 :: List.replicate 6 (.main (.succeeding none none)) ++
        .press .sw3 :: List.replicate 5 .tick ++
          List.replicate 7 (.main (.succeeding none none))
    (EveryStep step ServerConforms resentUid (startState [] []) ∧
        ¬ Everywhen ReportFaithful (runFrom [] [] resentUid).log) ∧
      EveryStep step ServerConforms switched (startState [] []) ∧
        ¬ Everywhen ReportFaithful (runFrom [] [] switched).log := by
  decide +kernel

end OnlineProgram
