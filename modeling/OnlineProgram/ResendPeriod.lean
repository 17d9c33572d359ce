import OnlineProgram.Transmissions

/-!
# The resend period

A pending request is sent again when the unsigned difference of `systemTimer` and
`sendMsgTime` has reached the period.  The difference is taken modulo `2 ^ 32`,
so it says little about the time that has passed; but as long as fewer ticks than
the period have passed since the last transmission, it is their number.
-/

namespace OnlineProgram

open TransitionRuns

/-- A request is pending. -/
def Pending (device : Device) : Prop :=
  device.msgHandle.msgSendId ≠ .invalid

instance : DecidablePred Pending :=
  fun _ => inferInstanceAs (Decidable (_ ≠ _))

/-- A pending request is due only when its period has elapsed by the timers, and
nothing else is due then. -/
theorem Pending.due {device : Device} (pending : Pending device) {msgId : MsgId}
    (due : device.dueRequest = some msgId) :
    msgId = device.msgHandle.msgSendId ∧
      msgResendPeriodS ≤ device.systemTimer - device.sendMsgTime := by
  have occupied : device.msgHandle.msgSendId ≠ .invalid := pending
  unfold Device.dueRequest at due
  rw [if_pos occupied] at due
  split at due
  · next elapsed => exact ⟨(Option.some.inj due).symm, elapsed⟩
  · simp at due

/-- After `elapsed` ticks since the last transmission: the period is over, or the
difference of the timers is the number of ticks. -/
def TimersAgree (elapsed : Nat) (device : Device) : Prop :=
  elapsed < msgResendPeriodS.toNat →
    device.systemTimer - device.sendMsgTime = UInt32.ofNat elapsed

/-- The period is over when a pending request is transmitted again. -/
theorem TimersAgree.elapsed_of_sends {elapsed : Nat} {device : Device} {action : Action}
    {msgId : MsgId} (agree : TimersAgree elapsed device) (pending : Pending device)
    (sends : SendsDue msgId device action) : msgResendPeriodS.toNat ≤ elapsed := by
  by_contra early
  obtain ⟨io, -, -, -, due, -⟩ := sends
  have late := (pending.due due).2
  rw [agree (Nat.not_le.mp early), UInt32.le_iff_toNat_le, UInt32.toNat_ofNat'] at late
  exact early (late.trans (Nat.mod_le _ _))

/-- The timers agree after a transmission. -/
theorem TimersAgree.of_sends {device : Device} {action : Action} {msgId : MsgId}
    (sends : SendsDue msgId device action) : TimersAgree 0 (step action device) := by
  intro _
  have noTick : action.isTick = false := by
    obtain ⟨io, rfl, -⟩ := sends
    rfl
  rw [step_systemTimer, sends.stamps, noTick]
  simp

/-- A step with a request pending keeps them in agreement. -/
theorem TimersAgree.step {elapsed : Nat} {device : Device} (agree : TimersAgree elapsed device)
    (pending : Pending device) (action : Action) :
    TimersAgree (elapsed + ticks [action]) (step action device) := by
  intro early
  have before := agree (by omega)
  rcases step_sendMsgTime action device with stamp | ⟨msgId, sends⟩
  · rw [stamp, step_systemTimer]
    cases tick : action.isTick with
    | false =>
        have none : ticks [action] = 0 := by simp [ticks, tick]
        rw [none]
        simpa using before
    | true =>
        have one : ticks [action] = 1 := by simp [ticks, tick]
        have advanced : device.systemTimer + 1 - device.sendMsgTime =
            device.systemTimer - device.sendMsgTime + 1 := by
          rw [UInt32.sub_eq_add_neg, UInt32.sub_eq_add_neg, UInt32.add_assoc,
            UInt32.add_comm 1, UInt32.add_assoc]
        rw [one, UInt32.ofNat_add, ← before, if_pos rfl, advanced]
        rfl
  · have late := agree.elapsed_of_sends pending sends
    omega

/-- The same for a run in which the request stays pending. -/
theorem TimersAgree.run {actions : List Action} {elapsed : Nat} {device : Device}
    (agree : TimersAgree elapsed device)
    (pending : EveryState OnlineProgram.step Pending actions device) :
    TimersAgree (elapsed + ticks actions) (TransitionRuns.run OnlineProgram.step actions device) ∧
      Pending (TransitionRuns.run OnlineProgram.step actions device) := by
  induction actions generalizing elapsed device with
  | nil => exact ⟨agree, pending⟩
  | cons action actions ih =>
      obtain ⟨here, later⟩ := pending
      have split : elapsed + ticks (action :: actions) =
          elapsed + ticks [action] + ticks actions := by
        unfold ticks
        rw [← List.singleton_append, List.countP_append, Nat.add_assoc]
      rw [split]
      exact ih (agree.step here action) later

/-- In every run: between two transmissions of a request that stays pending there
are at least as many ticks as the period has seconds, and while a request is
pending no other is transmitted. -/
theorem resend_spacing (device : Device) :
    (∀ (msgId : MsgId) (send resend : Action) (between : List Action),
        msgId ∈ transmittedBy device send →
        EveryState step Pending between (step send device) →
        msgId ∈ transmittedBy (run step between (step send device)) resend →
          msgResendPeriodS.toNat ≤ ticks between) ∧
      ∀ (actions : List Action) (action : Action) (msgId : MsgId),
        Pending (run step actions device) →
        msgId ∈ transmittedBy (run step actions device) action →
          msgId = (run step actions device).msgHandle.msgSendId := by
  constructor
  · intro msgId send resend between first pending again
    have sent := TimersAgree.of_sends (mem_transmittedBy_iff.mp first)
    obtain ⟨agree, stillPending⟩ := sent.run pending
    have elapsed := agree.elapsed_of_sends stillPending (mem_transmittedBy_iff.mp again)
    rwa [Nat.zero_add] at elapsed
  · intro actions action msgId pending sent
    obtain ⟨io, -, -, -, due, -⟩ := mem_transmittedBy_iff.mp sent
    exact (pending.due due).1

/-- One stage of the main loop in which everything succeeds and nothing
arrives. -/
def quietStage : Action :=
  .main (.succeeding none none)

/-- The device before its first call of `msgTransceiverHandle`, with `AUTH` to
send. -/
def authDueDevice : Device :=
  runFrom [] [] (List.replicate 4 quietStage)

/-- The actions from there to the call five ticks later. -/
def untilResend : List Action :=
  quietStage :: List.replicate 5 .tick ++ List.replicate 4 quietStage

theorem resend_spacing_auth :
    msgResendPeriodS.toNat ≤ ticks untilResend ∧
      .auth = (run step untilResend (step quietStage authDueDevice)).msgHandle.msgSendId :=
  ⟨(resend_spacing authDueDevice).1 .auth quietStage quietStage untilResend (by decide +kernel)
      (by decide +kernel) (by decide +kernel),
    (resend_spacing (step quietStage authDueDevice)).2 untilResend quietStage .auth
      (by decide +kernel) (by decide +kernel)⟩

end OnlineProgram
