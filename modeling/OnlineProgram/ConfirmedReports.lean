import OnlineProgram.UidCycles

/-!
# Confirmed reports

In `MODE_PROGRAM_UID` a result state is left only when `notifyDoneFlag` is
true, which any message taken for a `NOTIFY` success answer makes it.  This
file follows the requests from one call of `programUID` to the next: each call
starts one `NOTIFY` request, and as long as no late or mistaken answer raises a
lowered flag, the flag stands for the answer to the report of the current
result.
-/

namespace OnlineProgram

open ByteStrings TransitionRuns EventHistory

/-- The device takes the message for a `NOTIFY` success answer. -/
def confirmsReport (response : Response) : Bool :=
  response.Succeeds .notify

/-- The event is a `NOTIFY` success answer to a `NOTIFY` transmission, at whose
time every call of `programUID` of the given history had been made. -/
def ConfirmsLastCall (history : List Event) : Event → Prop
  | .received response (some time) =>
      response.CarriesSuccess .notify ∧
        (∃ sent ∈ eventAt history time, sent.isTransmitted .notify) ∧
          uidCalls (pastAt history time) = uidCalls history
  | _ => False

instance (history : List Event) : DecidablePred (ConfirmsLastCall history) :=
  fun event => by unfold ConfirmsLastCall; split <;> infer_instance

/-- A success answer to a `NOTIFY` transmission made after the last call of
`programUID` has been received. -/
def LastCallConfirmed (past : List Event) : Prop :=
  ∃ event ∈ past, ConfirmsLastCall past event

instance : DecidablePred LastCallConfirmed :=
  fun past => inferInstanceAs (Decidable (∃ event ∈ past, _))

/-- A result state is left for `DEV_STATUS_CONNECTED` only with the report
confirmed. -/
def LeftConfirmed : Event → List Event → Prop
  | .statusUpdated _ before after, past =>
      before = .programSuccess ∨ before = .programFail → after = .connected →
        LastCallConfirmed past
  | _, _ => True

instance (event : Event) : DecidablePred (LeftConfirmed event) :=
  fun past => by
    apply Event.casesOn (motive := fun event => Decidable (LeftConfirmed event past)) event <;>
    intros <;> unfold LeftConfirmed <;> infer_instance

/-- A message that raises `notifyDoneFlag` carries the codes of a `NOTIFY`
success answer, and no message taken for one has answered its request before. -/
def RaisedRightly (response : Response) (answers : Option Nat)
    (device : Device) : Prop :=
  confirmsReport response → device.eventFlags.notifyDoneFlag = false →
    ¬ response.Mistaken .notify ∧
      ¬ AnswersAgain .notify confirmsReport answers device.log

instance (response : Response) (answers : Option Nat) (device : Device) :
    Decidable (RaisedRightly response answers device) :=
  inferInstanceAs (Decidable (_ → _ → (_ ∧ _)))

/-- No late and no mistaken confirmation raises `notifyDoneFlag`. -/
def NoFalseConfirmation : Device → Action → Prop :=
  StepMeets RaisedRightly (fun _ => True)

instance (device : Device) : DecidablePred (NoFalseConfirmation device) :=
  inferInstanceAs (DecidablePred (StepMeets _ _ device))

/-- The numbers of the confirmed reports. -/
def confirmedReports (past : List Event) : List Nat :=
  answeredRequests .notify confirmsReport past

theorem confirmedReports_cons {event : Event} (past : List Event)
    (notReceived : event.answeredTime = none) :
    confirmedReports (event :: past) = confirmedReports past :=
  answeredRequests_cons _ _ past notReceived

theorem subset_confirmedReports (response : Response) (answers : Option Nat)
    (past : List Event) :
    confirmedReports past ⊆
      confirmedReports (.received response answers :: past) := by
  intro number member
  cases answers with
  | none => exact member
  | some time =>
      unfold confirmedReports
      rw [answeredRequests_received]
      split
      · exact List.mem_cons_of_mem _ member
      · exact member

/-- What confirms the last call still does so after an event that is no
call. -/
theorem ConfirmsLastCall.cons {past : List Event} {answer : Event}
    (event : Event) (confirms : ConfirmsLastCall past answer)
    (noCall : event.isUidCall = false) :
    ConfirmsLastCall (event :: past) answer := by
  have calls : uidCalls (event :: past) = uidCalls past := by
    rw [uidCalls_cons, noCall]
    rfl
  unfold ConfirmsLastCall at confirms ⊢
  split at confirms
  · obtain ⟨success, ⟨sent, found, transmitted⟩, allCalled⟩ := confirms
    have earlier := eventAt_lt found
    refine ⟨success, ⟨sent, ?_, transmitted⟩, ?_⟩
    · rw [eventAt_cons event earlier]
      exact found
    · rw [pastAt_cons event earlier.le, calls]
      exact allCalled
  · exact confirms

theorem LastCallConfirmed.cons {past : List Event} (event : Event)
    (confirmed : LastCallConfirmed past) (noCall : event.isUidCall = false) :
    LastCallConfirmed (event :: past) := by
  obtain ⟨answer, member, confirms⟩ := confirmed
  exact ⟨answer, List.mem_cons_of_mem _ member, confirms.cons event noCall⟩

/-- The `NOTIFY` requests between two calls of `programUID`: outside the result
states every report is confirmed; in a result state every earlier one is, and
`notifyDoneFlag` stands for the confirmation of the current one. -/
structure ReportsAccounted (device : Device) : Prop where
  balanced : startedRequests .notify device.log +
      device.networkEvent.notifyResultFlag.toNat = uidCalls device.log
  sent : Everywhen (fun event past => event.isTransmitted .notify →
    startedRequests .notify past ≤ uidCalls past) device.log
  idle : ¬ InResult device →
    device.networkEvent.notifyResultFlag = false ∧
      device.eventFlags.notifyDoneFlag = false ∧
        ∀ number, 1 ≤ number → number ≤ uidCalls device.log →
          number ∈ confirmedReports device.log
  waiting : InResult device →
    (∀ number, 1 ≤ number → number < uidCalls device.log →
        number ∈ confirmedReports device.log) ∧
      (device.eventFlags.notifyDoneFlag = true →
        device.networkEvent.notifyResultFlag = false ∧
          uidCalls device.log ∈ confirmedReports device.log ∧
            LastCallConfirmed device.log)
  left : Everywhen LeftConfirmed device.log

namespace ReportsAccounted

theorem of_quiet {before after : Device} (event : Event)
    (accounted : ReportsAccounted before)
    (status : after.devStatus = before.devStatus)
    (done : after.eventFlags.notifyDoneFlag = before.eventFlags.notifyDoneFlag)
    (flag : after.networkEvent.notifyResultFlag =
      before.networkEvent.notifyResultFlag)
    (log : after.log = event :: before.log)
    (noStart : event.isRequestStarted .notify = false)
    (noCall : event.isUidCall = false)
    (notReceived : event.answeredTime = none)
    (unsent : event.isTransmitted .notify →
      startedRequests .notify before.log ≤ uidCalls before.log)
    (leaves : LeftConfirmed event before.log) : ReportsAccounted after := by
  obtain ⟨balanced, sent, idle, waiting, left⟩ := accounted
  have started : startedRequests .notify after.log =
      startedRequests .notify before.log := by
    simp [log, noStart]
  have calls : uidCalls after.log = uidCalls before.log := by
    rw [log, uidCalls_cons, noCall]
    rfl
  have same : confirmedReports after.log = confirmedReports before.log := by
    rw [log, confirmedReports_cons _ notReceived]
  have result : InResult after ↔ InResult before := by
    rw [InResult, InResult, status]
  refine ⟨?_, ?_, ?_, ?_, ?_⟩
  · rw [started, calls, flag]
    exact balanced
  · rw [log]
    exact ⟨unsent, sent⟩
  · rw [result, flag, done, calls, same]
    exact idle
  · rw [result, flag, done, calls, same]
    intro inResult
    obtain ⟨earlier, current⟩ := waiting inResult
    refine ⟨earlier, fun doneNow => ?_⟩
    obtain ⟨taken, member, confirmed⟩ := current doneNow
    rw [log]
    exact ⟨taken, member, confirmed.cons event noCall⟩
  · rw [log]
    exact ⟨leaves, left⟩

theorem change {sends : Prop} {before after : Device}
    (change : Change sends False before after)
    (accounted : ReportsAccounted before) : ReportsAccounted after := by
  cases change with
  | silent | resetRequested | boardDetected | heartbeatLost =>
      exact ⟨accounted.balanced, accounted.sent, accounted.idle,
        accounted.waiting, accounted.left⟩
  | modeSwitched allowed => exact allowed.elim
  | uidModeEntered allowed => exact allowed.elim
  | codeModeEntered allowed => exact allowed.elim
  | startRequested | uidRequested | binDetected | connected | heartbeatSent =>
      exact accounted.of_quiet _ rfl rfl rfl rfl rfl rfl rfl
        (fun now => absurd now Bool.false_ne_true) trivial
  | transmitted =>
      refine accounted.of_quiet _ rfl rfl rfl rfl rfl rfl rfl (fun _ => ?_) trivial
      have balanced := accounted.balanced
      omega
  | requestStarted _ msgId _ free next =>
      cases msgId with
      | notify =>
          have asked := Device.notifyResultFlag_of_nextRequest next
          obtain ⟨balanced, sent, idle, waiting, left⟩ := accounted
          have result : InResult before := by
            by_contra elsewhere
            simp [asked] at idle
            exact elsewhere idle
          obtain ⟨earlier, current⟩ := waiting result
          have started : startedRequests .notify
              (.requestStarted .notify :: before.log) =
                startedRequests .notify before.log + 1 :=
            startedRequests_cons ..
          refine ⟨?_, ⟨fun now => absurd now Bool.false_ne_true, sent⟩,
            fun elsewhere => absurd result elsewhere, fun _ => ?_, trivial, left⟩
          · rw [asked] at balanced
            rw [started]
            exact balanced
          · refine ⟨earlier, fun doneNow => ?_⟩
            obtain ⟨-, member, confirmed⟩ := current doneNow
            exact ⟨rfl, member, confirmed.cons _ rfl⟩
      | auth | getUid | invalid =>
          exact accounted.of_quiet _ rfl rfl rfl rfl rfl rfl rfl
            (fun now => absurd now Bool.false_ne_true) trivial

/-- A first confirmation that raises `notifyDoneFlag` confirms the current
report. -/
theorem confirms_of_fresh {device : Device} {response : Response}
    {answers : Option Nat} (accounted : ReportsAccounted device)
    (requests : RequestsStarted .notify device)
    (once : AnswersOnce response answers device.log)
    (confirms : confirmsReport response = true)
    (genuine : ¬ response.Mistaken .notify)
    (fresh : ¬ AnswersAgain .notify confirmsReport answers device.log) :
    InResult device ∧ device.networkEvent.notifyResultFlag = false ∧
      ∃ time, answers = some time ∧
        requestNumber .notify device.log time = uidCalls device.log ∧
          ConfirmsLastCall device.log (.received response answers) := by
  obtain ⟨balanced, sent, idle, waiting, -⟩ := accounted
  have success : response.Succeeds .notify := of_decide_eq_true confirms
  have carries : response.CarriesSuccess .notify :=
    ((response.succeeds_iff .notify).mp success).resolve_right genuine
  obtain ⟨time, event, rfl, found, transmitted⟩ := once.transmitted success.1
  have first := requests.2.eventAt found transmitted
  have last := requestNumber_le .notify device.log time
  have behind := sent.eventAt found transmitted
  have unanswered : requestNumber .notify device.log time ∉
      confirmedReports device.log := fun member => fresh ⟨time, rfl, member⟩
  have numbered : 1 ≤ requestNumber .notify device.log time := first
  have result : InResult device := by
    by_contra elsewhere
    have confirmed := (idle elsewhere).2.2 _ numbered (by omega)
    exact unanswered confirmed
  have current : requestNumber .notify device.log time =
      uidCalls device.log := by
    by_contra other
    have confirmed := (waiting result).1 _ numbered (by omega)
    exact unanswered confirmed
  have callsThen : uidCalls (pastAt device.log time) ≤ uidCalls device.log :=
    (pastAt_suffix device.log time).sublist.countP_le
  refine ⟨result, ?_, time, rfl, current, carries, ⟨event, found, transmitted⟩, ?_⟩
  · cases asked : device.networkEvent.notifyResultFlag with
    | false => rfl
    | true =>
        rw [asked, Bool.toNat_true] at balanced
        omega
  · have numberThen : requestNumber .notify device.log time =
        startedRequests .notify (pastAt device.log time) := rfl
    omega

theorem handleResponse {device : Device} {response : Response}
    {answers : Option Nat} (accounted : ReportsAccounted device)
    (requests : RequestsStarted .notify device)
    (once : AnswersOnce response answers device.log)
    (rightly : RaisedRightly response answers device) :
    ReportsAccounted (device.handleResponse response answers) := by
  have confirming (confirms : confirmsReport response = true)
      (undone : device.eventFlags.notifyDoneFlag = false) :=
    accounted.confirms_of_fresh requests once confirms (rightly confirms undone).1
      (rightly confirms undone).2
  obtain ⟨balanced, sent, idle, waiting, left⟩ := accounted
  have grows := subset_confirmedReports response answers device.log
  rw [Device.handleResponse_eq]
  refine ⟨balanced, ⟨fun now => absurd now Bool.false_ne_true, sent⟩,
    fun elsewhere => ?_, fun result => ?_, trivial, left⟩
  · obtain ⟨unasked, undone, confirmed⟩ := idle elsewhere
    refine ⟨unasked, ?_, fun number first last => grows (confirmed number first last)⟩
    cases confirms : confirmsReport response with
    | false => exact Bool.or_eq_false_iff.mpr ⟨undone, confirms⟩
    | true => exact absurd (confirming confirms undone).1 elsewhere
  · obtain ⟨earlier, current⟩ := waiting result
    refine ⟨fun number first last => grows (earlier number first last),
      fun doneNow => ?_⟩
    cases done : device.eventFlags.notifyDoneFlag with
    | true =>
        obtain ⟨unasked, member, confirmed⟩ := current done
        exact ⟨unasked, grows member, confirmed.cons _ rfl⟩
    | false =>
        have confirms : confirmsReport response = true := by
          simpa [done, confirmsReport] using doneNow
        obtain ⟨-, unasked, time, rfl, number, confirmsLast⟩ :=
          confirming confirms done
        refine ⟨unasked, ?_, _, List.mem_cons_self .., confirmsLast.cons _ rfl⟩
        have listed : uidCalls device.log ∈ confirmedReports
            (.received response (some time) :: device.log) := by
          rw [← number]
          unfold confirmedReports
          rw [answeredRequests_received, if_pos confirms]
          exact List.mem_cons_self ..
        exact listed

theorem switched {ret : Int} {before after : Device}
    (move : Device.StatusMove ret before after) (inUid : SettledInUid before)
    (accounted : ReportsAccounted before) : ReportsAccounted after := by
  obtain ⟨balanced, sent, idle, waiting, left⟩ := accounted
  cases move with
  | unchanged => exact ⟨balanced, sent, idle, waiting, left⟩
  | codeProgrammed _ code => simp [inUid.mode] at code
  | confirmedCode _ code => simp [inUid.mode] at code
  | uidProgrammed status =>
      have elsewhere : ¬ InResult before := by simp [InResult, status]
      obtain ⟨unasked, undone, confirmed⟩ := idle elsewhere
      have calls : uidCalls (.programUIDCalled before.uid ret :: before.log) =
          uidCalls before.log + 1 := uidCalls_cons ..
      have result : InResult
          { before with devStatus := if ret = 0 then .programSuccess else .programFail } := by
        by_cases success : ret = 0 <;> simp [InResult, success]
      refine ⟨?_, ⟨fun now => absurd now Bool.false_ne_true, sent⟩,
        fun elsewhere => absurd result elsewhere, fun _ => ⟨?_, ?_⟩, trivial, left⟩
      · rw [unasked] at balanced
        rw [calls]
        exact congrArg (· + 1) balanced
      · intro number first last
        rw [calls] at last
        exact confirmed number first (by omega)
      · intro done
        rw [undone] at done
        exact absurd done Bool.false_ne_true
  | confirmedUid status _ done =>
      obtain ⟨earlier, current⟩ := waiting status
      obtain ⟨unasked, member, -⟩ := current done
      refine ⟨balanced, sent, fun _ => ⟨unasked, rfl, ?_⟩, fun result => ?_, left⟩
      · intro number first last
        rcases Nat.lt_or_eq_of_le last with before | rfl
        · exact earlier number first before
        · exact member
      · rcases result with result | result <;> simp at result
  | binFound status | boardLost status | startTaken status | binLost status
  | uidTaken status | boardFound status | binMissing status =>
      have elsewhere : ¬ InResult before := by simp [InResult, status]
      obtain ⟨unasked, undone, confirmed⟩ := idle elsewhere
      refine ⟨balanced, sent, fun _ => ⟨unasked, undone, confirmed⟩,
        fun result => ?_, left⟩
      rcases result with result | result <;> simp at result

theorem statusMove {ret : Int} {before after : Device}
    (move : Device.StatusMove ret before after) (inUid : SettledInUid before)
    (accounted : ReportsAccounted before) (board : Bool) :
    ReportsAccounted (after.emit
      (.statusUpdated board before.devStatus after.devStatus)) := by
  have moved : ReportsAccounted after := accounted.switched move inUid
  refine moved.of_quiet _ rfl rfl rfl rfl rfl rfl rfl
    (fun now => absurd now Bool.false_ne_true) ?_
  intro result connected
  cases move with
  | unchanged | binFound | boardLost | startTaken | binLost | uidTaken
  | boardFound | binMissing => simp_all
  | codeProgrammed | uidProgrammed => simp_all
  | confirmedCode _ code => simp [inUid.mode] at code
  | confirmedUid status _ done =>
      exact ((accounted.waiting status).2 done).2.2

theorem startState (mac : Bytes) : ReportsAccounted (startState mac []) := by
  refine ⟨rfl, ⟨fun now => absurd now Bool.false_ne_true, trivial⟩,
    fun _ => ⟨rfl, rfl, fun number first last => ?_⟩, fun result => ?_,
    trivial, trivial⟩
  · have none : number ≤ 0 := last
    omega
  · rcases result with result | result <;> exact DevStatus.noConfusion result

end ReportsAccounted

/-- The invariant behind the confirmations. -/
def ReportInvariant (device : Device) : Prop :=
  SettledInUid device ∧ RequestsStarted .notify device ∧ ReportsAccounted device

theorem ReportInvariant.step {device : Device} {action : Action}
    (stays : StaysInUid device) (keeps : action.KeepsMode)
    (conforms : ServerConforms device action)
    (rightly : NoFalseConfirmation device action) (holds : ReportInvariant device) :
    ReportInvariant (step action device) := by
  refine stays.accounted_step (by simp) ReportsAccounted ReportsAccounted.change
    ?_ ?_ keeps conforms rightly holds
  · exact fun accounted requests once rightly =>
      accounted.handleResponse requests once rightly
  · exact fun move inUid accounted => accounted.statusMove move inUid _

/-- In every run in `MODE_PROGRAM_UID` with a server that answers each
transmission at most once, a result state is left only with its report
confirmed, provided no late and no mistaken confirmation raises
`notifyDoneFlag`. -/
theorem everyResult_leftConfirmed (mac : Bytes) {presses : List Button}
    {actions : List Action} (unpressed : .sw3 ∉ presses)
    (keeps : ∀ action ∈ actions, action.KeepsMode)
    (conforms : EveryStep step ServerConforms actions (startState mac presses))
    (rightly : EveryStep step NoFalseConfirmation actions
      (startState mac presses)) :
    EveryState step (fun device => Everywhen LeftConfirmed device.log) actions
      (startState mac presses) := by
  refine everyState_stayingInUid ReportInvariant ?_ ?_ ?_ unpressed keeps
    (conforms.and rightly)
  · exact fun stays keeps meets holds => holds.step stays keeps meets.1 meets.2
  · exact fun device holds => holds.2.2.left
  · have stays := StaysInUid.startState mac unpressed
    refine ⟨stays.inUid, RequestsStarted.startState (by simp) mac presses, ?_⟩
    rw [startState_of_unswitched mac unpressed]
    exact ReportsAccounted.startState mac

/-- A UID is programmed, reported twice and confirmed. -/
def confirmedTurns : List Action :=
  programmedTurns ++ quietTurn ++ List.replicate 5 .tick ++
    answeredTurn apiIdNotifyProgramUidResult none 15 ++ .press .sw2 :: quietTurn

theorem everyResult_leftConfirmed_once :
    .statusUpdated true .programSuccess .connected ∈
        (runFrom [] [] confirmedTurns).log ∧
      EveryState step (fun device => Everywhen LeftConfirmed device.log)
        confirmedTurns (startState [] []) :=
  ⟨by decide +kernel,
    everyResult_leftConfirmed [] (by decide) (by decide +kernel)
      (by decide +kernel) (by decide +kernel)⟩

/-- The answer to the second report of one UID arrives after the first has been
confirmed, and lets the next result be left without any answer to its own
report. -/
theorem result_left_unconfirmed :
    let actions :=
      confirmedTurns ++ answeredTurn apiIdNotifyProgramUidResult none 17 ++
        .press .sw2 :: quietTurn ++
        answeredTurn apiIdGetUid (some (ascii "A2")) 25 ++ quietTurn ++
        .press .sw2 :: quietTurn
    (∀ action ∈ actions, action.KeepsMode) ∧
      EveryStep step ServerConforms actions (startState [] []) ∧
        ¬ EveryState step (fun device => Everywhen LeftConfirmed device.log)
          actions (startState [] []) := by
  decide +kernel

end OnlineProgram
