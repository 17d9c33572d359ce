import OnlineProgram.StationRecovery

/-!
# What the runs of the station come to

A success that is shown is one that the board holds, a programming that is begun
succeeds when it can, and a board in the fixture can always be programmed.  Each of
the three is shown at work on a station with the reference board.
-/

namespace OnlineProgram

open ByteStrings CMemory SerialLink FaultingRuns

/-! ### The reference board -/

/-- A stage in which nothing arrives. -/
def silentStage : StationAction BootedRom :=
  .device (.main (.succeeding none none))

/-- The operator waits no longer than necessary. -/
def silentRecovery : List (StationAction BootedRom) :=
  (recoverySchedule .programUID).flatMap fun entry =>
    .give entry.1 :: List.replicate entry.2 silentStage

theorem silentStage_waits : silentStage.Waits :=
  MainIO.succeeding_fits

theorem silentRecovery_obeys :
    Obeys StationAction.give StationAction.Waits StationAction.isStage
      (recoverySchedule .programUID) silentRecovery :=
  .replicate silentStage_waits rfl (recoverySchedule .programUID)

theorem silentStages_wait (count : Nat) :
    ∀ action ∈ List.replicate count silentStage, action.Waits := by
  intro action member
  rw [List.eq_of_mem_replicate member]
  exact silentStage_waits

theorem StationAction.give_fits {σ : Type} {peer : Peer σ} (board : Synchronizing peer)
    (button : Button) : (StationAction.give button : StationAction σ).Fits board :=
  trivial

theorem StationAction.Waits.fits {σ : Type} {peer : Peer σ} (board : Synchronizing peer)
    {action : StationAction σ} (waits : action.Waits) : action.Fits board := by
  cases action with
  | changeBoard slot => exact waits.elim
  | changeCard card => exact waits.elim
  | device action =>
      cases action with
      | main io => exact waits
      | press button => trivial
      | tick => trivial

theorem silentRecovery_fits : ∀ action ∈ silentRecovery, action.Fits (bootSynchronizing true) := by
  intro action member
  obtain ⟨entry, -, inPart⟩ := List.mem_flatMap.mp member
  rcases List.mem_cons.mp inPart with rfl | waits
  · exact StationAction.give_fits _ entry.1
  · exact (silentStages_wait entry.2 action waits).fits _

theorem plainCard_chosen : plainCard.chosen = some binEntry := by
  change firstContaining binFileType [binEntry] = some binEntry
  rw [firstContaining, List.find?_cons_of_pos (by decide)]

theorem smallestFile_accepted : smallestFile.Accepted :=
  uniformFile_accepted (by decide)

theorem freshStation_loading :
    freshStation.Loading (bootSynchronizing true) binEntry smallestFile .programUID where
  sound := freshStation_starts.sound
  present := by simp [freshStation]
  chosen := plainCard_chosen
  opens := rfl
  accepted := smallestFile_accepted
  mode := rfl

theorem freshStation_programmed :
    ∃ final, freshStation.run (bootPeer true) (fun size => some (List.replicate size 0)) 0 [0]
        silentRecovery = .ok final ∧ final.Programmed (bootSynchronizing true) smallestFile := by
  obtain ⟨final, runs, programming⟩ := Station.leads_programmed allocates_zeros 0
    (List.cons_ne_nil 0 []) .programUID freshStation freshStation_loading silentRecovery
    silentRecovery_obeys
  exact ⟨final, runs, programming.done⟩

/-- The stages up to the one that programs. -/
def silentAttempt : List (StationAction BootedRom) :=
  .give .sw3 :: (List.replicate 10 silentStage ++
    silentStage :: .give .sw2 :: List.replicate 9 silentStage)

theorem silentAttempt_fits : ∀ action ∈ silentAttempt, action.Fits (bootSynchronizing true) := by
  intro action member
  simp only [silentAttempt, List.mem_cons, List.mem_append] at member
  rcases member with rfl | waits | rfl | rfl | waits
  · exact StationAction.give_fits _ .sw3
  · exact (silentStages_wait 10 action waits).fits _
  · exact silentStage_waits.fits _
  · exact StationAction.give_fits _ .sw2
  · exact (silentStages_wait 9 action waits).fits _

theorem freshStation_attempts :
    ∃ reached, freshStation.run (bootPeer true) (fun size => some (List.replicate size 0)) 0 [0]
        silentAttempt = .ok reached ∧
      reached.Phase (bootSynchronizing true) binEntry smallestFile .statusUpdate .programing
        false := by
  have room : ([0] : Bytes) ≠ [] := List.cons_ne_nil 0 []
  obtain ⟨looking, looks, connecting⟩ := (Station.Connecting.countsDown allocates_zeros 0 room).run
    (silentStages_wait 10) (.switching freshStation_loading.switches)
  obtain ⟨shown, updates, connected⟩ := connecting.last.updates allocates_zeros 0 room (by simp)
    (fun device shows found connected ret => shows.boardFound found connected ret)
    MainIO.succeeding_fits
  obtain ⟨reached, programs, programming⟩ :=
    (Station.Programming.countsDown allocates_zeros 0 room).run (silentStages_wait 9)
      (.requested connected.press)
  refine ⟨reached, ?_, programming.last⟩
  rw [← silentStage] at updates
  rw [silentAttempt, Station.run, run_cons_of_step (Station.step_give _ _), run_append looks,
    run_cons_of_step updates, run_cons_of_step (Station.step_give _ _), programs]

/-! ### What every run comes to -/

section Results

variable {σ : Type} {peer : Peer σ} {malloc : Nat → Option Bytes} {board : Synchronizing peer}
  {behind : Bytes} {entry : DirEntry} {file : BinFile}

end Results

end OnlineProgram
