import OnlineProgram.FallibleScans
import OnlineProgram.ResourceRuns

/-!
# Runs that scan

A run that does the work of a scan asks for memory on its way, and so may give
up where the scan would not.  It works on an object that exists already: what it
has made so far hangs on that object, also where it gives up.
-/

namespace OnlineProgram.ResourceRuns

variable {ε τ α β γ δ π : Type}

/-- A scan without requests, and what follows where it has not rejected. -/
def tryScan (scan : Scan ε α) (failed : γ) (next : α → Run ε τ γ) : Run ε τ γ := do
  match ← attempt scan.run with
  | none => pure failed
  | some value => next value

/-- What follows where a pointer is not null. -/
def unlessNull (first : Run ε τ (γ × Option π)) (failed : γ → δ)
    (next : γ → π → Run ε τ (δ × Option π)) : Run ε τ (δ × Option π) := do
  let (object, place) ← first
  match place with
  | none => pure (failed object, none)
  | some place => next object place

/-- What a run owes to the scan that it follows: what it ends with where the
scan yields a value, what it may end with otherwise, how many blocks a result
holds more than there were, and whether a request may be refused. -/
structure Duty (γ β : Type) where
  made : β → γ
  gaveUp : γ → Prop
  holds : γ → Int
  refusals : Prop

namespace Duty

/-- The duty that is left when so many blocks are there. -/
def less (duty : Duty γ β) (blocks : Int) : Duty γ β :=
  { duty with holds := fun result => duty.holds result - blocks }

/-- An object with a place behind it, which is null where the run gives up. -/
def placed (object : α → γ) (held : γ → Int) (refusals : Prop) :
    Duty (γ × Option π) (α × π) where
  made := fun value => (object value.1, some value.2)
  gaveUp := fun result => result.2 = none
  holds := fun result => held result.1
  refusals := refusals

theorem less_placed (object : α → γ) (held : γ → Int) (refusals : Prop) (blocks : Int) :
    (placed object held refusals : Duty (γ × Option π) (α × π)).less blocks =
      placed object (fun result => held result - blocks) refusals :=
  rfl

end Duty

/-- The run ends as the scan does, or gives up because the scan rejects or a
request is refused; either way its result says what it holds.  It makes no
faulty access but those of the scan. -/
def Follows (duty : Duty γ β) (run : Run ε τ γ) (scan : Scan ε β) : Prop :=
  ∀ world : World τ, (∃ cause, run world = .error cause ∧ scan.run = .error cause) ∨
    ∃ result after, run world = .ok (result, after) ∧
      after.openFiles = world.openFiles ∧
      after.liveBlocks = world.liveBlocks + duty.holds result ∧
      ((∃ value, scan.Yields value ∧ result = duty.made value) ∨
        duty.gaveUp result ∧ (scan.Rejects ∨ duty.refusals))

variable {duty : Duty γ β}

theorem follows_pure {value : β} {result : γ} (made : result = duty.made value)
    (nothing : duty.holds result = 0) :
    Follows duty (pure result : Run ε τ γ) (pure value) := by
  intro world
  exact .inr ⟨result, world, rfl, rfl, by rw [nothing, Int.add_zero], .inl ⟨value, rfl, made⟩⟩

theorem follows_reject {result : γ} (gaveUp : duty.gaveUp result)
    (nothing : duty.holds result = 0) :
    Follows duty (pure result : Run ε τ γ) .reject := by
  intro world
  exact .inr ⟨result, world, rfl, rfl, by rw [nothing, Int.add_zero], .inr ⟨gaveUp, .inl rfl⟩⟩

theorem follows_refused {result : γ} (gaveUp : duty.gaveUp result)
    (nothing : duty.holds result = 0) (refused : duty.refusals) (scan : Scan ε β) :
    Follows duty (pure result : Run ε τ γ) scan := by
  intro world
  exact .inr ⟨result, world, rfl, rfl, by rw [nothing, Int.add_zero],
    .inr ⟨gaveUp, .inr refused⟩⟩

theorem follows_fault (cause : ε) :
    Follows duty (attempt (.error cause) : Run ε τ γ) (.fault cause) := by
  intro world
  exact .inl ⟨cause, rfl, rfl⟩

theorem Follows.tryScan {scan : Scan ε α} {failed : γ} {next : α → Run ε τ γ}
    {plainNext : α → Scan ε β} (gaveUp : duty.gaveUp failed) (nothing : duty.holds failed = 0)
    (follows : ∀ value, Follows duty (next value) (plainNext value)) :
    Follows duty (tryScan scan failed next) (scan >>= plainNext) := by
  intro world
  cases ends : scan.run with
  | error cause =>
      refine .inl ⟨cause, ?_, ?_⟩
      · change ((attempt scan.run >>= _ : Run ε τ γ)) world = _
        rw [ends]
        rfl
      · change scan.run >>= _ = _
        rw [ends]
        rfl
  | ok outcome =>
      cases outcome with
      | none =>
          have rejects : (scan >>= plainNext).Rejects := by
            change scan.run >>= _ = _
            rw [ends]
            rfl
          refine .inr ⟨failed, world, ?_, rfl, by rw [nothing, Int.add_zero],
            .inr ⟨gaveUp, .inl rejects⟩⟩
          change ((attempt scan.run >>= _ : Run ε τ γ)) world = _
          rw [ends]
          rfl
      | some value =>
          have yields : scan.Yields value := ends
          have continues : ResourceRuns.tryScan scan failed next world = next value world := by
            change ((attempt scan.run >>= _ : Run ε τ γ)) world = _
            rw [ends]
            rfl
          rw [yields.bind_eq, continues]
          exact follows value world

/-- A first part of its own duty, whose object the rest works on. -/
theorem Follows.unlessNull {first : Run ε τ (γ × Option π)} {failed : γ → δ}
    {next : γ → π → Run ε τ (δ × Option π)} {scan : Scan ε (α × π)}
    {plainNext : α × π → Scan ε (β × π)} {object : α → γ} {whole : β → δ} {held : γ → Int}
    {total : δ → Int} {refusals : Prop} (begins : Follows (.placed object held refusals) first scan)
    (holds : ∀ part, total (failed part) = held part)
    (ends : ∀ value place, scan.Yields (value, place) →
      Follows (.placed whole (fun result => total result - held (object value)) refusals)
        (next (object value) place) (plainNext (value, place))) :
    Follows (.placed whole total refusals) (unlessNull first failed next) (scan >>= plainNext) := by
  intro world
  obtain ⟨cause, faults, plainFaults⟩ | ⟨⟨part, place⟩, between, returns, files, blocks, how⟩ :=
    begins world
  · refine .inl ⟨cause, ?_, ?_⟩
    · change (first world).bind _ = _
      rw [faults]
      rfl
    · change scan.run >>= _ = _
      rw [plainFaults]
      rfl
  obtain ⟨⟨value, place'⟩, yields, same⟩ | ⟨null, why⟩ := how
  · obtain ⟨rfl, rfl⟩ := Prod.mk.inj same
    have continues : ResourceRuns.unlessNull first failed next world =
        next (object value) place' between := bind_of_ok returns _
    rw [yields.bind_eq, continues]
    obtain faults | ⟨result, after, returns', files', blocks', how'⟩ :=
      ends value place' yields between
    · exact .inl faults
    refine .inr ⟨result, after, returns', files'.trans files, ?_, how'⟩
    dsimp only [Duty.placed] at blocks blocks'
    change _ = world.liveBlocks + total result.1
    omega
  · obtain rfl : place = none := null
    refine .inr ⟨(failed part, none), between, bind_of_ok returns _, files, ?_, .inr ⟨rfl, ?_⟩⟩
    · change _ = world.liveBlocks + total (failed part)
      rw [holds]
      exact blocks
    obtain rejects | refused := why
    · left
      change scan.run >>= _ = _
      rw [show scan.run = .ok none from rejects]
      rfl
    · exact .inr refused

theorem Follows.request {answer : Nat → Option α} {next : Option α → Run ε τ γ} {scan : Scan ε β}
    (refused : ∀ number, answer number = none → Follows duty (next none) scan)
    (given : ∀ block, Follows (duty.less 1) (next (some block)) scan) :
    Follows duty (request answer >>= next) scan := by
  intro world
  cases outcome : answer world.requests with
  | none =>
      rw [request_bind_none world outcome]
      exact refused _ outcome world.countRequest
  | some block =>
      rw [request_bind_some world outcome]
      obtain faults | ⟨result, after, returns, files, blocks, how⟩ :=
        given block (world.countRequest.hold 0 1)
      · exact .inl faults
      refine .inr ⟨result, after, returns, ?_, ?_, how⟩
      · rw [files]
        exact Int.add_zero _
      · rw [blocks]
        change world.liveBlocks + 1 + (duty.holds result - 1) = _
        omega

/-- What the scan makes of its value is left to the run's object. -/
theorem Follows.map_placed {run : Run ε τ (γ × Option π)} {scan : Scan ε (α × π)}
    {object : β → γ} {held : γ → Int} {refusals : Prop} (view : α → β)
    (follows : Follows (.placed (fun value => object (view value)) held refusals) run scan) :
    Follows (.placed object held refusals) run
      (scan >>= fun made => pure (view made.1, made.2)) := by
  intro world
  obtain ⟨cause, faults, plainFaults⟩ | ⟨result, after, returns, files, blocks, how⟩ :=
    follows world
  · refine .inl ⟨cause, faults, ?_⟩
    change scan.run >>= _ = _
    rw [plainFaults]
    rfl
  refine .inr ⟨result, after, returns, files, blocks, ?_⟩
  obtain ⟨value, yields, same⟩ | ⟨null, rejects | refused⟩ := how
  · exact .inl ⟨(view value.1, value.2), yields.bind rfl, same⟩
  · refine .inr ⟨null, .inl ?_⟩
    change scan.run >>= _ = _
    rw [show scan.run = .ok none from rejects]
    rfl
  · exact .inr ⟨null, .inr refused⟩

theorem Follows.congr_placed {run : Run ε τ (γ × Option π)} {scan : Scan ε (α × π)}
    {object object' : α → γ} {held held' : γ → Int} {refusals : Prop}
    (follows : Follows (.placed object held refusals) run scan)
    (objects : ∀ value place, scan.Yields (value, place) → object value = object' value)
    (holds : ∀ part, held part = held' part) :
    Follows (.placed object' held' refusals) run scan := by
  intro world
  obtain faults | ⟨result, after, returns, files, blocks, how⟩ := follows world
  · exact .inl faults
  refine .inr ⟨result, after, returns, files, ?_, ?_⟩
  · rw [blocks]
    exact congrArg (world.liveBlocks + ·) (holds result.1)
  obtain ⟨value, yields, same⟩ | gaveUp := how
  · refine .inl ⟨value, yields, ?_⟩
    rw [same]
    exact congrArg (·, some value.2) (objects value.1 value.2 yields)
  · exact .inr gaveUp

end OnlineProgram.ResourceRuns
