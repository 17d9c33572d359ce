import Mathlib.Algebra.Group.Int.Defs

/-!
# Runs that hold resources

A computation works on a state and may fail.  Beside its work it opens and
closes files, and takes and gives back blocks of memory.  The world of such a
run is the state with what is held counted.  Every request for memory has a
number, so that an allocator may refuse any of them.
-/

namespace OnlineProgram.ResourceRuns

variable {ε τ α β : Type}

/-- A state, the requests for memory made so far, and what is held. -/
structure World (τ : Type) where
  state : τ
  requests : Nat
  openFiles : Int
  liveBlocks : Int

abbrev Run (ε τ α : Type) := StateT (World τ) (Except ε) α

namespace World

/-- Nothing is held yet. -/
def fresh (state : τ) : World τ :=
  { state, requests := 0, openFiles := 0, liveBlocks := 0 }

def hold (world : World τ) (files blocks : Int) : World τ :=
  { world with
    openFiles := world.openFiles + files
    liveBlocks := world.liveBlocks + blocks }

def countRequest (world : World τ) : World τ :=
  { world with requests := world.requests + 1 }

theorem hold_zero (world : World τ) : world.hold 0 0 = world := by
  simp [hold]

theorem hold_hold (world : World τ) (files blocks files' blocks' : Int) :
    (world.hold files blocks).hold files' blocks' =
      world.hold (files + files') (blocks + blocks') := by
  simp [hold, Int.add_assoc]

end World

/-! ### Operations -/

/-- Work on the state alone. -/
def onState (step : τ → Except ε (α × τ)) : Run ε τ α := fun world =>
  (step world.state).map fun (result, state) => (result, { world with state := state })

/-- Work on nothing but what is given. -/
def attempt (result : Except ε α) : Run ε τ α :=
  onState fun state => result.map fun value => (value, state)

def openFile : Run ε τ Unit := fun world => .ok ((), world.hold 1 0)

def closeFile : Run ε τ Unit := fun world => .ok ((), world.hold (-1) 0)

/-- Become the owner of blocks. -/
def own (blocks : Nat) : Run ε τ Unit := fun world => .ok ((), world.hold 0 blocks)

def free : Run ε τ Unit := fun world => .ok ((), world.hold 0 (-1))

/-- Ask for a block, where `answer` gives the outcome of each request. -/
def request (answer : Nat → Option β) : Run ε τ (Option β) := fun world =>
  match answer world.requests with
  | none => .ok (none, world.countRequest)
  | some block => .ok (some block, world.countRequest.hold 0 1)

theorem own_bind (blocks : Nat) (next : Unit → Run ε τ β) (world : World τ) :
    (own blocks >>= next) world = next () (world.hold 0 blocks) :=
  rfl

theorem attempt_bind_ok (value : α) (next : α → Run ε τ β) (world : World τ) :
    (attempt (.ok value) >>= next) world = next value world :=
  rfl

/-- A run of two parts returns when both do. -/
theorem bind_eq_ok {first : Run ε τ α} {next : α → Run ε τ β} {world : World τ}
    {result : β × World τ} :
    (first >>= next) world = .ok result ↔
      ∃ value between, first world = .ok (value, between) ∧ next value between = .ok result := by
  change (first world).bind (fun made => next made.1 made.2) = .ok result ↔ _
  cases first world with
  | error fault => simp [Except.bind]
  | ok made =>
      constructor
      · intro ends
        exact ⟨made.1, made.2, rfl, ends⟩
      · rintro ⟨value, between, begins, ends⟩
        obtain rfl := Except.ok.inj begins
        exact ends

theorem bind_of_ok {first : Run ε τ α} {world between : World τ} {value : α}
    (begins : first world = .ok (value, between)) (next : α → Run ε τ β) :
    (first >>= next) world = next value between := by
  change (first world).bind _ = _
  rw [begins]
  rfl

theorem request_bind_none {answer : Nat → Option β} (world : World τ)
    (refused : answer world.requests = none) (next : Option β → Run ε τ α) :
    (request answer >>= next) world = next none world.countRequest := by
  have asked : (request answer : Run ε τ (Option β)) world = .ok (none, world.countRequest) := by
    rw [request, refused]
  exact bind_of_ok asked next

theorem request_bind_some {answer : Nat → Option β} {block : β} (world : World τ)
    (given : answer world.requests = some block) (next : Option β → Run ε τ α) :
    (request answer >>= next) world = next (some block) (world.countRequest.hold 0 1) := by
  have asked : (request answer : Run ε τ (Option β)) world =
      .ok (some block, world.countRequest.hold 0 1) := by
    rw [request, given]
  exact bind_of_ok asked next

theorem onState_eq_ok {step : τ → Except ε (α × τ)} {world after : World τ} {value : α} :
    onState step world = .ok (value, after) ↔
      ∃ state, step world.state = .ok (value, state) ∧ after = { world with state := state } := by
  unfold onState
  cases step world.state with
  | error fault => simp [Except.map]
  | ok made =>
      constructor
      · intro returns
        obtain ⟨rfl, rfl⟩ := Prod.mk.inj (Except.ok.inj returns)
        exact ⟨made.2, rfl, rfl⟩
      · rintro ⟨state, steps, rfl⟩
        obtain rfl := Except.ok.inj steps
        rfl

theorem onState_of_ok {step : τ → Except ε (α × τ)} {world : World τ} {value : α} {state : τ}
    (steps : step world.state = .ok (value, state)) :
    onState step world = .ok (value, { world with state := state }) :=
  onState_eq_ok.mpr ⟨state, steps, rfl⟩

theorem attempt_eq_ok {result : Except ε α} {world after : World τ} {value : α} :
    attempt result world = .ok (value, after) ↔ result = .ok value ∧ after = world := by
  cases result with
  | error fault => simp [attempt, onState, Except.map]
  | ok made =>
      constructor
      · intro returns
        obtain ⟨rfl, rfl⟩ := Prod.mk.inj (Except.ok.inj returns)
        exact ⟨rfl, rfl⟩
      · rintro ⟨made, rfl⟩
        obtain rfl := Except.ok.inj made
        rfl

/-! ### What a run adds to what is held -/

/-- However the run ends, it holds so much more than before. -/
def Adds (run : Run ε τ α) (files blocks : Int) : Prop :=
  ∀ ⦃world result after⦄, run world = .ok (result, after) →
    after.openFiles = world.openFiles + files ∧ after.liveBlocks = world.liveBlocks + blocks

theorem adds_pure (value : α) : Adds (pure value : Run ε τ α) 0 0 := by
  intro world result after returns
  obtain ⟨rfl, rfl⟩ := Prod.mk.inj (Except.ok.inj returns)
  simp

theorem adds_onState (step : τ → Except ε (α × τ)) : Adds (onState step) 0 0 := by
  intro world result after returns
  obtain ⟨state, -, rfl⟩ := onState_eq_ok.mp returns
  simp

theorem adds_attempt (result : Except ε α) : Adds (attempt result : Run ε τ α) 0 0 :=
  adds_onState _

theorem adds_hold (files blocks : Int) :
    Adds (fun world => .ok ((), world.hold files blocks) : Run ε τ Unit) files blocks := by
  intro world result after returns
  obtain ⟨rfl, rfl⟩ := Prod.mk.inj (Except.ok.inj returns)
  exact ⟨rfl, rfl⟩

theorem adds_free : Adds (free : Run ε τ Unit) 0 (-1) :=
  adds_hold 0 (-1)

theorem Adds.bind {first : Run ε τ α} {next : α → Run ε τ β} {files files' blocks blocks' : Int}
    (firstAdds : Adds first files blocks)
    (nextAdds : ∀ value, Adds (next value) files' blocks') :
    Adds (first >>= next) (files + files') (blocks + blocks') := by
  intro world result after returns
  obtain ⟨value, between, begins, ends⟩ := bind_eq_ok.mp returns
  have early := firstAdds begins
  have late := nextAdds value ends
  constructor
  · rw [late.1, early.1, Int.add_assoc]
  · rw [late.2, early.2, Int.add_assoc]

/-- A first part that gives back what it takes. -/
theorem Adds.zero_bind {first : Run ε τ α} {next : α → Run ε τ β} {files blocks : Int}
    (firstAdds : Adds first 0 0) (nextAdds : ∀ value, Adds (next value) files blocks) :
    Adds (first >>= next) files blocks := by
  simpa using firstAdds.bind nextAdds

theorem Adds.bind_zero {first : Run ε τ α} {next : α → Run ε τ β} {files blocks : Int}
    (firstAdds : Adds first files blocks) (nextAdds : ∀ value, Adds (next value) 0 0) :
    Adds (first >>= next) files blocks := by
  simpa using firstAdds.bind nextAdds

/-- A block that is given back before the end. -/
theorem adds_request_bind {answer : Nat → Option β} {next : Option β → Run ε τ α}
    (refused : Adds (next none) 0 0) (given : ∀ block, Adds (next (some block)) 0 (-1)) :
    Adds (request answer >>= next) 0 0 := by
  intro world result after returns
  obtain ⟨value, between, asked, ends⟩ := bind_eq_ok.mp returns
  unfold request at asked
  cases outcome : answer world.requests with
  | none =>
      rw [outcome] at asked
      obtain ⟨rfl, rfl⟩ := Prod.mk.inj (Except.ok.inj asked)
      exact @refused world.countRequest _ _ ends
  | some block =>
      rw [outcome] at asked
      obtain ⟨rfl, rfl⟩ := Prod.mk.inj (Except.ok.inj asked)
      have late := given block ends
      simp only [World.hold, World.countRequest] at late
      omega

/-! ### What is held where a run ends -/

/-- From this world the run returns, with so much more held than before. -/
def Gains (run : Run ε τ α) (world : World τ) (files blocks : Int) : Prop :=
  ∃ result after, run world = .ok (result, after) ∧
    after.openFiles = world.openFiles + files ∧ after.liveBlocks = world.liveBlocks + blocks

/-- The run returns and leaves both counters as it found them. -/
def GivesBack (run : Run ε τ α) (world : World τ) : Prop :=
  ∃ result after, run world = .ok (result, after) ∧
    after.openFiles = world.openFiles ∧ after.liveBlocks = world.liveBlocks

theorem givesBack_iff_gains {run : Run ε τ α} {world : World τ} :
    GivesBack run world ↔ Gains run world 0 0 := by
  simp [GivesBack, Gains]

theorem gains_pure_iff {value : α} {world : World τ} {files blocks : Int} :
    Gains (pure value : Run ε τ α) world files blocks ↔ files = 0 ∧ blocks = 0 := by
  constructor
  · rintro ⟨result, after, returns, filesAfter, blocksAfter⟩
    obtain ⟨rfl, rfl⟩ := Prod.mk.inj (Except.ok.inj returns)
    omega
  · rintro ⟨rfl, rfl⟩
    exact ⟨value, world, rfl, by simp, by simp⟩

theorem gains_hold_iff {run : Run ε τ α} {world : World τ} {held heldBlocks files blocks : Int} :
    (∃ result after, run (world.hold held heldBlocks) = .ok (result, after) ∧
        after.openFiles = world.openFiles + files ∧
        after.liveBlocks = world.liveBlocks + blocks) ↔
      Gains run (world.hold held heldBlocks) (files - held) (blocks - heldBlocks) := by
  unfold Gains
  simp only [World.hold]
  constructor
  · rintro ⟨result, after, returns, filesAfter, blocksAfter⟩
    exact ⟨result, after, returns, by omega, by omega⟩
  · rintro ⟨result, after, returns, filesAfter, blocksAfter⟩
    exact ⟨result, after, returns, by omega, by omega⟩

theorem gains_openFile_bind_iff {next : Unit → Run ε τ β} {world : World τ}
    {files blocks : Int} :
    Gains (openFile >>= next) world files blocks ↔
      Gains (next ()) (world.hold 1 0) (files - 1) (blocks - 0) :=
  gains_hold_iff

theorem gains_closeFile_bind_iff {next : Unit → Run ε τ β} {world : World τ}
    {files blocks : Int} :
    Gains (closeFile >>= next) world files blocks ↔
      Gains (next ()) (world.hold (-1) 0) (files - -1) (blocks - 0) :=
  gains_hold_iff

theorem gains_own_bind_iff {next : Unit → Run ε τ β} {world : World τ} {count : Nat}
    {files blocks : Int} :
    Gains (own count >>= next) world files blocks ↔
      Gains (next ()) (world.hold 0 count) (files - 0) (blocks - count) :=
  gains_hold_iff

theorem gains_free_bind_iff {next : Unit → Run ε τ β} {world : World τ} {files blocks : Int} :
    Gains (free >>= next) world files blocks ↔
      Gains (next ()) (world.hold 0 (-1)) (files - 0) (blocks - -1) :=
  gains_hold_iff

/-- What the first part adds is not left for the second. -/
theorem Adds.gains_bind_iff {first : Run ε τ α} {next : α → Run ε τ β} {files blocks : Int}
    (adds : Adds first files blocks) {world : World τ} {total totalBlocks : Int} :
    Gains (first >>= next) world total totalBlocks ↔
      ∃ value between, first world = .ok (value, between) ∧
        Gains (next value) between (total - files) (totalBlocks - blocks) := by
  constructor
  · rintro ⟨result, after, returns, filesAfter, blocksAfter⟩
    obtain ⟨value, between, begins, ends⟩ := bind_eq_ok.mp returns
    have early := adds begins
    exact ⟨value, between, begins, result, after, ends, by omega, by omega⟩
  · rintro ⟨value, between, begins, result, after, ends, filesAfter, blocksAfter⟩
    have early := adds begins
    exact ⟨result, after, bind_eq_ok.mpr ⟨value, between, begins, ends⟩, by omega, by omega⟩

theorem gains_request_bind_none {answer : Nat → Option β} {next : Option β → Run ε τ α}
    {world : World τ} {files blocks : Int} (refused : answer world.requests = none) :
    Gains (request answer >>= next) world files blocks ↔
      Gains (next none) world.countRequest files blocks := by
  unfold Gains
  rw [request_bind_none world refused]
  rfl

theorem gains_request_bind_some {answer : Nat → Option β} {next : Option β → Run ε τ α}
    {world : World τ} {block : β} {files blocks : Int}
    (given : answer world.requests = some block) :
    Gains (request answer >>= next) world files blocks ↔
      Gains (next (some block)) (world.countRequest.hold 0 1) (files - 0) (blocks - 1) := by
  rw [← gains_hold_iff]
  unfold Gains
  rw [request_bind_some world given]
  rfl

/-! ### Forgetting what is held -/

section Projections

variable {γ δ : Type} {world : World τ} {view : α × τ → γ} {plain : Except ε δ}
  {plainNext : δ → Except ε γ}

/-- From this world, the result and the state of the run are those of a plain
computation. -/
def Projects (run : Run ε τ α) (view : α × τ → γ) (world : World τ) (plain : Except ε γ) : Prop :=
  (run world).map (fun made => view (made.1, made.2.state)) = plain

theorem projects_pure (value : α) :
    Projects (pure value : Run ε τ α) view world (.ok (view (value, world.state))) :=
  rfl

theorem projects_onState (step : τ → Except ε (α × τ)) :
    Projects (onState step) (fun made => made) world (step world.state) := by
  unfold Projects onState
  cases step world.state with
  | error fault => rfl
  | ok made => rfl

theorem Projects.openFile_bind {next : Unit → Run ε τ α} {result : Except ε γ}
    (ends : Projects (next ()) view (world.hold 1 0) result) :
    Projects (openFile >>= next) view world result :=
  ends

theorem Projects.closeFile_bind {next : Unit → Run ε τ α} {result : Except ε γ}
    (ends : Projects (next ()) view (world.hold (-1) 0) result) :
    Projects (closeFile >>= next) view world result :=
  ends

theorem Projects.free_bind {next : Unit → Run ε τ α} {result : Except ε γ}
    (ends : Projects (next ()) view (world.hold 0 (-1)) result) :
    Projects (free >>= next) view world result :=
  ends

theorem Projects.bind {first : Run ε τ β} {firstView : β × τ → δ} {next : β → Run ε τ α}
    (begins : Projects first firstView world plain)
    (ends : ∀ value between, first world = .ok (value, between) →
      Projects (next value) view between (plainNext (firstView (value, between.state)))) :
    Projects (first >>= next) view world (plain >>= plainNext) := by
  unfold Projects at begins ⊢
  change ((first world).bind fun made => next made.1 made.2).map _ = _
  cases made : first world with
  | error fault =>
      rw [made] at begins
      rw [← begins]
      rfl
  | ok result =>
      rw [made] at begins
      rw [← begins]
      exact ends result.1 result.2 made

theorem Projects.onState_bind {step : τ → Except ε (β × τ)} {next : β → Run ε τ α}
    {plainNext : β × τ → Except ε γ}
    (ends : ∀ value state, step world.state = .ok (value, state) →
      Projects (next value) view { world with state := state } (plainNext (value, state))) :
    Projects (onState step >>= next) view world (step world.state >>= plainNext) := by
  unfold Projects
  change (((step world.state).map _).bind _).map _ = _
  cases stepped : step world.state with
  | error fault => rfl
  | ok made => exact ends made.1 made.2 stepped

/-- A step whose result is taken apart. -/
theorem Projects.onState_map_bind {step : τ → Except ε δ} {split : δ → β × τ}
    {next : β → Run ε τ α}
    (ends : ∀ made, step world.state = .ok made →
      Projects (next (split made).1) view { world with state := (split made).2 }
        (plainNext made)) :
    Projects ((onState fun state => (step state).map split) >>= next) view world
      (step world.state >>= plainNext) := by
  unfold Projects
  change ((((step world.state).map split).map _).bind _).map _ = _
  cases stepped : step world.state with
  | error fault => rfl
  | ok made => exact ends made stepped

theorem Projects.attempt_bind {result : Except ε δ} {next : δ → Run ε τ α}
    (ends : ∀ value, result = .ok value → Projects (next value) view world (plainNext value)) :
    Projects (attempt result >>= next) view world (result >>= plainNext) := by
  cases result with
  | error fault => rfl
  | ok value => exact ends value rfl

theorem Projects.request_bind {answer : Nat → Option β} {next : Option β → Run ε τ α}
    {result : Except ε γ}
    (refused : answer world.requests = none → Projects (next none) view world.countRequest result)
    (given : ∀ block, answer world.requests = some block →
      Projects (next (some block)) view (world.countRequest.hold 0 1) result) :
    Projects (request answer >>= next) view world result := by
  unfold Projects
  cases outcome : answer world.requests with
  | none =>
      rw [request_bind_none world outcome]
      exact refused outcome
  | some block =>
      rw [request_bind_some world outcome]
      exact given block outcome

end Projections

end OnlineProgram.ResourceRuns
