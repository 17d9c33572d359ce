import OnlineProgram.ReportedResults
import Mathlib.Data.Finset.Card
import Mathlib.Order.Interval.Finset.Nat

/-!
# Programming cycles

Without `sw3` the device stays in `MODE_PROGRAM_UID` and every call of
`programUID` belongs to a request of the operator.  This file accounts for the
calls by the numbers of the answered requests, under the one condition the
program relies on: an answer to a request that has been answered before does
not raise a lowered flag.
-/

namespace OnlineProgram

open ByteStrings TransitionRuns EventHistory

/-- The action is not a release of `sw3`. -/
def Action.KeepsMode : Action → Prop
  | .press .sw3 => False
  | _ => True

instance : DecidablePred Action.KeepsMode
  | .press .sw2 => isTrue trivial
  | .press .sw3 => isFalse id
  | .tick => isTrue trivial
  | .main _ => isTrue trivial

/-- The device is in `MODE_PROGRAM_UID` with no mode switch pending. -/
structure SettledInUid (device : Device) : Prop where
  mode : device.deviceMode = .programUID
  settled : device.eventFlags.modeSwitchFlag = false
  unstarted : device.eventFlags.startProgramFlag = false

/-- The same outside the mode-switch block. -/
structure StaysInUid (device : Device) : Prop where
  inUid : SettledInUid device
  outside : device.stage ≠ .modeSwitchDelay

theorem SettledInUid.change {sends : Prop} {before after : Device}
    (change : Change sends False before after) (holds : SettledInUid before) :
    SettledInUid after := by
  obtain ⟨mode, settled, unstarted⟩ := holds
  cases change with
  | startRequested code => simp [mode] at code
  | modeSwitched allowed => exact allowed.elim
  | uidModeEntered allowed => exact allowed.elim
  | codeModeEntered allowed => exact allowed.elim
  | silent | uidRequested | resetRequested | binDetected | boardDetected
  | connected | heartbeatSent | heartbeatLost | requestStarted | transmitted =>
      exact ⟨mode, settled, unstarted⟩

theorem SettledInUid.handleResponse {device : Device} (response : Response)
    (answers : Option Nat) (holds : SettledInUid device) :
    SettledInUid (device.handleResponse response answers) := by
  rw [Device.handleResponse_eq]
  exact ⟨holds.mode, holds.settled, holds.unstarted⟩

theorem SettledInUid.statusMove {ret : Int} {before after : Device}
    (move : Device.StatusMove ret before after) (holds : SettledInUid before)
    (event : Event) : SettledInUid (after.emit event) := by
  obtain ⟨mode, settled, unstarted⟩ := holds
  cases move <;> exact ⟨mode, settled, by simp [Device.emit, unstarted]⟩

theorem StaysInUid.unswitched {device : Device} {action : Action}
    (holds : StaysInUid device) (keeps : action.KeepsMode) :
    ¬ Switches device action := by
  cases action with
  | press button =>
      cases button with
      | sw2 => exact id
      | sw3 => exact keeps.elim
  | tick => exact id
  | main io => exact holds.outside

theorem StaysInUid.step {device : Device} {action : Action}
    (holds : StaysInUid device) (keeps : action.KeepsMode) :
    StaysInUid (step action device) := by
  refine ⟨?_, ?_⟩
  · exact step_preserves_unswitched SettledInUid SettledInUid.change
      (fun response answers _ holds _ _ => holds.handleResponse response answers)
      (fun move holds _ _ => holds.statusMove move _) device action
      (holds.unswitched keeps) holds.inUid (stepMeets_trivial device action)
  · cases action with
    | press button =>
        cases button with
        | sw2 =>
            simp only [OnlineProgram.step, Button.release]
            rw [device.sw2Release_frame.1]
            exact holds.outside
        | sw3 => exact keeps.elim
    | tick =>
        simp only [OnlineProgram.step]
        rw [device.sysTick_frame.1]
        exact holds.outside
    | main io =>
        simp only [OnlineProgram.step, Device.mainStage]
        split
        · simp [holds.inUid.settled]
        · simp
        · simp
        · simp
        · split <;> simp
        · simp
        · simp

theorem StaysInUid.startState (mac : Bytes) {presses : List Button}
    (unswitched : .sw3 ∉ presses) : StaysInUid (startState mac presses) := by
  rw [startState_of_unswitched mac unswitched]
  exact ⟨⟨rfl, rfl, rfl⟩, by simp [startState_stage]⟩

/-- Accounts of the requests of one kind that every change, every fresh answer
and every status move keep are kept by every step. -/
theorem StaysInUid.accounted_step {msgId : MsgId} (valid : msgId ≠ .invalid)
    (Accounted : Device → Prop) {fresh : Response → Option Nat → Device → Prop}
    (change : ∀ {sends before after}, Change sends False before after →
      Accounted before → Accounted after)
    (received : ∀ {response answers device}, Accounted device →
      RequestsStarted msgId device → AnswersOnce response answers device.log →
        fresh response answers device →
          Accounted (device.handleResponse response answers))
    (updated : ∀ {ret before after}, Device.StatusMove ret before after →
      SettledInUid before → Accounted before →
        Accounted (after.emit (.statusUpdated
          before.eventFlags.boardConnectedFlag before.devStatus after.devStatus)))
    {device : Device} {action : Action} (stays : StaysInUid device)
    (keeps : action.KeepsMode) (conforms : ServerConforms device action)
    (meets : StepMeets fresh (fun _ => True) device action)
    (holds : SettledInUid device ∧ RequestsStarted msgId device ∧
      Accounted device) :
    SettledInUid (OnlineProgram.step action device) ∧
      RequestsStarted msgId (OnlineProgram.step action device) ∧
        Accounted (OnlineProgram.step action device) := by
  refine step_preserves_unswitched
    (fun device => SettledInUid device ∧ RequestsStarted msgId device ∧
      Accounted device) ?_ ?_ ?_ device action (stays.unswitched keeps) holds
    (conforms.and meets)
  · rintro sends before after step ⟨inUid, requests, accounted⟩
    exact ⟨inUid.change step, requests.change step, change step accounted⟩
  · rintro response answers device ⟨inUid, requests, accounted⟩ - ⟨once, fresh⟩
    exact ⟨inUid.handleResponse response answers,
      requests.handleResponse valid response answers,
      received accounted requests once fresh⟩
  · rintro ret before after move ⟨inUid, requests, accounted⟩ - -
    exact ⟨inUid.statusMove move _, requests.statusMove move _ _ _,
      updated move inUid accounted⟩

/-- What holds at the start and is kept without `sw3` by every step that meets
the condition holds in every state of such a run. -/
theorem everyState_stayingInUid (Inv : Device → Prop) {P : Device → Prop}
    {Meets : Device → Action → Prop}
    (keepsInv : ∀ {device action}, StaysInUid device → action.KeepsMode →
      Meets device action → Inv device → Inv (step action device))
    (implies : ∀ device, Inv device → P device) {mac : Bytes}
    {presses : List Button} {actions : List Action}
    (start : Inv (startState mac presses)) (unpressed : .sw3 ∉ presses)
    (keeps : ∀ action ∈ actions, action.KeepsMode)
    (meets : EveryStep step Meets actions (startState mac presses)) :
    EveryState step P actions (startState mac presses) := by
  have steps := (everyStep_of_forall_mem keeps _).and meets
  refine everyState_of_conforming
    (fun device => StaysInUid device ∧ Inv device) ?_ ?_
    ⟨StaysInUid.startState mac unpressed, start⟩ steps
  · rintro device action ⟨stays, holds⟩ ⟨keepsMode, meets⟩
    exact ⟨stays.step keepsMode, keepsInv stays keepsMode meets holds⟩
  · exact fun device holds => implies device holds.2

/-! ### Calls and accepted requests -/

namespace Event

def isUidRequested : Event → Bool
  | .uidRequested => true
  | _ => false

end Event

/-- The calls of `programUID`. -/
def uidCalls (past : List Event) : Nat :=
  past.countP Event.isUidCall

/-- The `sw2` releases that were accepted as UID requests. -/
def acceptedUidRequests (past : List Event) : Nat :=
  past.countP Event.isUidRequested

/-- The device takes a UID from the message. -/
def deliversUid (response : Response) : Bool :=
  response.deliveredUid.isSome

/-- A UID answer to a request that has had one does not arrive while
`UIDavailableFlag` is false. -/
def NoLateUid : Device → Action → Prop :=
  StepMeets (fun response answers device =>
    deliversUid response → device.eventFlags.uidAvailableFlag = false →
      ¬ AnswersAgain .getUid deliversUid answers device.log) (fun _ => True)

instance (device : Device) : DecidablePred (NoLateUid device) :=
  inferInstanceAs (DecidablePred (StepMeets _ _ device))

theorem uidCalls_cons (event : Event) (past : List Event) :
    uidCalls (event :: past) =
      uidCalls past + if event.isUidCall then 1 else 0 :=
  List.countP_cons ..

theorem acceptedUidRequests_cons (event : Event) (past : List Event) :
    acceptedUidRequests (event :: past) =
      acceptedUidRequests past + if event.isUidRequested then 1 else 0 :=
  List.countP_cons ..

/-- The requests whose UID has arrived. -/
def deliveredRequests (past : List Event) : Finset Nat :=
  (answeredRequests .getUid deliversUid past).toFinset

theorem deliveredRequests_cons {event : Event} (past : List Event)
    (notReceived : event.answeredTime = none) :
    deliveredRequests (event :: past) = deliveredRequests past := by
  unfold deliveredRequests
  rw [answeredRequests_cons _ _ past notReceived]

/-- Every call, present or to come, belongs to a request of its own, which the
operator has made. -/
structure UidAccounted (device : Device) : Prop where
  numbered : ∀ number ∈ deliveredRequests device.log,
    1 ≤ number ∧ number ≤ startedRequests .getUid device.log
  delivered : uidCalls device.log +
      (decide (device.devStatus = .programing)).toNat +
      device.eventFlags.uidAvailableFlag.toNat ≤
    (deliveredRequests device.log).card
  accepted : startedRequests .getUid device.log +
      device.networkEvent.uidReqFlag.toNat ≤
    acceptedUidRequests device.log

namespace UidAccounted

theorem uidCalls_le {device : Device} (accounted : UidAccounted device) :
    uidCalls device.log ≤ acceptedUidRequests device.log := by
  have numbers : deliveredRequests device.log ⊆
      Finset.Icc 1 (startedRequests .getUid device.log) := by
    intro number member
    exact Finset.mem_Icc.mpr (accounted.numbered number member)
  have bounded := Finset.card_le_card numbers
  rw [Nat.card_Icc] at bounded
  have delivered := accounted.delivered
  have accepted := accounted.accepted
  omega

theorem of_quiet {before after : Device} (event : Event)
    (accounted : UidAccounted before)
    (status : after.devStatus = .programing → before.devStatus = .programing)
    (available : after.eventFlags.uidAvailableFlag = true →
      before.eventFlags.uidAvailableFlag = true)
    (requested : after.networkEvent.uidReqFlag = true →
      before.networkEvent.uidReqFlag = true)
    (log : after.log = event :: before.log)
    (noStart : event.isRequestStarted .getUid = false)
    (noCall : event.isUidCall = false)
    (notReceived : event.answeredTime = none) : UidAccounted after := by
  obtain ⟨numbered, delivered, accepted⟩ := accounted
  have statusLe : (decide (after.devStatus = .programing)).toNat ≤
      (decide (before.devStatus = .programing)).toNat :=
    Bool.toNat_le_toNat fun now => decide_eq_true (status (of_decide_eq_true now))
  have availableLe := Bool.toNat_le_toNat available
  have requestedLe := Bool.toNat_le_toNat requested
  have started : startedRequests .getUid after.log =
      startedRequests .getUid before.log := by
    simp [log, noStart]
  have calls : uidCalls after.log = uidCalls before.log := by
    rw [log, uidCalls_cons, noCall]
    rfl
  have acceptedLe : acceptedUidRequests before.log ≤
      acceptedUidRequests after.log := by
    rw [log, acceptedUidRequests_cons]
    omega
  have same : deliveredRequests after.log = deliveredRequests before.log := by
    rw [log, deliveredRequests_cons _ notReceived]
  refine ⟨?_, ?_, ?_⟩
  · rw [same, started]
    exact numbered
  · rw [same, calls]
    omega
  · rw [started]
    omega

theorem change {sends : Prop} {before after : Device}
    (change : Change sends False before after)
    (accounted : UidAccounted before) : UidAccounted after := by
  cases change with
  | silent | resetRequested | boardDetected | heartbeatLost =>
      exact ⟨accounted.numbered, accounted.delivered, accounted.accepted⟩
  | modeSwitched allowed => exact allowed.elim
  | uidModeEntered allowed => exact allowed.elim
  | codeModeEntered allowed => exact allowed.elim
  | startRequested | binDetected | connected | heartbeatSent | transmitted =>
      exact accounted.of_quiet _ id id id rfl rfl rfl rfl
  | uidRequested =>
      obtain ⟨numbered, delivered, accepted⟩ := accounted
      refine ⟨numbered, delivered, ?_⟩
      have waiting := before.networkEvent.uidReqFlag.toNat_le
      rw [startedRequests_cons, acceptedUidRequests_cons]
      simp only [Event.isRequestStarted, Event.isUidRequested, Bool.toNat_true,
        if_true, Bool.false_eq_true, if_false]
      omega
  | requestStarted _ msgId _ free next =>
      cases msgId with
      | getUid =>
          have waiting := Device.uidReqFlag_of_nextRequest next
          obtain ⟨numbered, delivered, accepted⟩ := accounted
          rw [waiting] at accepted
          have started : startedRequests .getUid
              (.requestStarted .getUid :: before.log) =
                startedRequests .getUid before.log + 1 :=
            startedRequests_cons ..
          refine ⟨fun number member => ?_, delivered, ?_⟩
          · have bounds := numbered number member
            rw [started]
            omega
          · rw [started]
            exact accepted
      | auth | notify | invalid =>
          exact accounted.of_quiet _ id id id rfl rfl rfl rfl

theorem handleResponse {device : Device} {response : Response}
    {answers : Option Nat} (accounted : UidAccounted device)
    (requests : RequestsStarted .getUid device)
    (once : AnswersOnce response answers device.log)
    (fresh : deliversUid response → device.eventFlags.uidAvailableFlag = false →
      ¬ AnswersAgain .getUid deliversUid answers device.log) :
    UidAccounted (device.handleResponse response answers) := by
  obtain ⟨numbered, delivered, accepted⟩ := accounted
  rw [Device.handleResponse_eq]
  cases delivers : deliversUid response with
  | false =>
      have same : deliveredRequests (.received response answers :: device.log) =
          deliveredRequests device.log := by
        cases answers with
        | none => rfl
        | some time => simp [deliveredRequests, answeredRequests_received, delivers]
      have noUid : response.deliveredUid.isSome = false := delivers
      refine ⟨?_, ?_, accepted⟩
      · rw [same]
        exact numbered
      · rw [same, noUid, Bool.or_false]
        exact delivered
  | true =>
      have someUid : response.deliveredUid.isSome = true := delivers
      have kind : response.msgId = some .getUid := by
        by_contra other
        have notSuccess : ¬ response.Succeeds .getUid := fun success => other success.1
        simp [Response.deliveredUid, notSuccess] at someUid
      obtain ⟨time, event, rfl, found, sent⟩ := once.transmitted kind
      have first := requests.2.eventAt found sent
      have last := requestNumber_le .getUid device.log time
      have insert : deliveredRequests
          (.received response (some time) :: device.log) =
            Insert.insert (requestNumber .getUid device.log time)
              (deliveredRequests device.log) := by
        simp [deliveredRequests, answeredRequests_received, delivers]
      refine ⟨?_, ?_, accepted⟩
      · rw [insert]
        intro number member
        rcases Finset.mem_insert.mp member with rfl | earlier
        · exact ⟨first, last⟩
        · exact numbered number earlier
      · rw [insert, someUid, Bool.or_true]
        cases available : device.eventFlags.uidAvailableFlag with
        | true =>
            rw [available] at delivered
            have grows := Finset.card_le_card (Finset.subset_insert
              (requestNumber .getUid device.log time)
              (deliveredRequests device.log))
            exact delivered.trans grows
        | false =>
            rw [available] at delivered
            have newNumber : requestNumber .getUid device.log time ∉
                deliveredRequests device.log := by
              intro member
              exact fresh delivers available
                ⟨time, rfl, List.mem_toFinset.mp member⟩
            rw [Finset.card_insert_of_notMem newNumber]
            exact Nat.add_le_add_right delivered 1

theorem statusMove {ret : Int} {before after : Device}
    (move : Device.StatusMove ret before after) (inUid : SettledInUid before)
    (accounted : UidAccounted before) (board : Bool) (first second : DevStatus) :
    UidAccounted (after.emit (.statusUpdated board first second)) := by
  have moved : UidAccounted after := by
    obtain ⟨numbered, delivered, accepted⟩ := accounted
    cases move with
    | unchanged => exact ⟨numbered, delivered, accepted⟩
    | startTaken _ _ started => simp [inUid.unstarted] at started
    | codeProgrammed _ code => simp [inUid.mode] at code
    | uidTaken status _ available =>
        rw [status, available] at delivered
        exact ⟨numbered, delivered, accepted⟩
    | uidProgrammed status =>
        rw [status] at delivered
        have calls : uidCalls (.programUIDCalled before.uid ret :: before.log) =
            uidCalls before.log + 1 := uidCalls_cons ..
        have elsewhere : (if ret = 0 then DevStatus.programSuccess
            else .programFail) ≠ .programing := by
          split <;> simp
        refine ⟨numbered, ?_, accepted⟩
        rw [calls, decide_eq_false elsewhere]
        exact delivered
    | binFound | boardLost | binLost | boardFound | binMissing | confirmedCode
    | confirmedUid =>
        refine ⟨numbered, le_trans (Nat.add_le_add_right ?_ _) delivered, accepted⟩
        simp
  exact moved.of_quiet _ id id id rfl rfl rfl rfl

theorem startState (mac : Bytes) : UidAccounted (startState mac []) :=
  ⟨fun _ member => absurd member (Finset.notMem_empty _), le_refl 0, le_refl 0⟩

end UidAccounted

/-- The invariant behind the accounts of the calls. -/
def UidInvariant (device : Device) : Prop :=
  SettledInUid device ∧ RequestsStarted .getUid device ∧ UidAccounted device

theorem UidInvariant.step {device : Device} {action : Action}
    (stays : StaysInUid device) (keeps : action.KeepsMode)
    (conforms : ServerConforms device action)
    (fresh : NoLateUid device action) (holds : UidInvariant device) :
    UidInvariant (step action device) := by
  refine stays.accounted_step (by simp) UidAccounted UidAccounted.change ?_ ?_
    keeps conforms fresh holds
  · exact fun accounted requests once fresh =>
      accounted.handleResponse requests once fresh
  · exact fun move inUid accounted => accounted.statusMove move inUid _ _ _

/-- In every run in `MODE_PROGRAM_UID` with a server that answers each
transmission at most once, the calls of `programUID` never outnumber the
accepted releases of `sw2`, provided no late UID answer raises a lowered
`UIDavailableFlag`. -/
theorem uidCalls_le_accepted (mac : Bytes) {presses : List Button}
    {actions : List Action} (unpressed : .sw3 ∉ presses)
    (keeps : ∀ action ∈ actions, action.KeepsMode)
    (conforms : EveryStep step ServerConforms actions (startState mac presses))
    (fresh : EveryStep step NoLateUid actions (startState mac presses)) :
    EveryState step
      (fun device => uidCalls device.log ≤ acceptedUidRequests device.log)
      actions (startState mac presses) := by
  refine everyState_stayingInUid UidInvariant ?_ ?_ ?_ unpressed keeps
    (conforms.and fresh)
  · exact fun stays keeps meets holds => holds.step stays keeps meets.1 meets.2
  · exact fun device holds => holds.2.2.uidCalls_le
  · have stays := StaysInUid.startState mac unpressed
    refine ⟨stays.inUid, RequestsStarted.startState (by simp) mac presses, ?_⟩
    rw [startState_of_unswitched mac unpressed]
    exact UidAccounted.startState mac

/-- One UID is requested, delivered and programmed. -/
def programmedTurns : List Action :=
  authorisedTurns ++ .press .sw2 :: quietTurn ++
    answeredTurn apiIdGetUid (some (ascii "A1")) 8 ++ quietTurn

theorem uidCalls_le_accepted_once :
    uidCalls (runFrom [] [] programmedTurns).log = 1 ∧
      EveryState step
        (fun device => uidCalls device.log ≤ acceptedUidRequests device.log)
        programmedTurns (startState [] []) :=
  ⟨by decide +kernel,
    uidCalls_le_accepted [] (by decide) (by decide +kernel) (by decide +kernel)
      (by decide +kernel)⟩

/-- The second answer to a resent `GET_UID` request arrives when its UID has
been programmed, reported and confirmed, and is programmed again. -/
theorem uid_programmed_twice :
    let actions :=
      authorisedTurns ++ .press .sw2 :: quietTurn ++ List.replicate 5 .tick ++
        answeredTurn apiIdGetUid (some (ascii "A1")) 8 ++ quietTurn ++
        answeredTurn apiIdNotifyProgramUidResult none 16 ++
        .press .sw2 :: quietTurn ++
        answeredTurn apiIdGetUid (some (ascii "A1")) 10 ++ quietTurn
    (∀ action ∈ actions, action.KeepsMode) ∧
      EveryStep step ServerConforms actions (startState [] []) ∧
        ¬ EveryState step
          (fun device => uidCalls device.log ≤ acceptedUidRequests device.log)
          actions (startState [] []) := by
  decide +kernel

end OnlineProgram
