import Mathlib.Logic.Basic

/-!
# Scans that may reject or fault

A scan of a text has three outcomes: it yields a value, it rejects the text, or
it makes an access that is a fault.  A rejection ends the scan as an early
return of a null pointer does, a fault ends the program.
-/

namespace OnlineProgram

abbrev Scan (ε α : Type) := OptionT (Except ε) α

namespace Scan

variable {ε α β : Type}

def fault (cause : ε) : Scan ε α :=
  OptionT.mk (.error cause)

def reject : Scan ε α :=
  OptionT.mk (.ok none)

/-- An access that yields what it reads. -/
def access (result : Except ε α) : Scan ε α :=
  OptionT.mk (result.map some)

def Yields (scan : Scan ε α) (value : α) : Prop :=
  scan.run = .ok (some value)

def Rejects (scan : Scan ε α) : Prop :=
  scan.run = .ok none

/-- The scan makes no access that is a fault. -/
def Safe (scan : Scan ε α) : Prop :=
  ∃ outcome, scan.run = .ok outcome

@[simp]
theorem yields_pure_iff {value result : α} :
    Yields (pure value : Scan ε α) result ↔ value = result := by
  constructor
  · intro yields
    exact Option.some.inj (Except.ok.inj yields)
  · rintro rfl
    rfl

@[simp]
theorem not_yields_reject {result : α} : ¬ Yields (reject : Scan ε α) result := by
  intro yields
  cases Except.ok.inj yields

@[simp]
theorem not_yields_fault {cause : ε} {result : α} :
    ¬ Yields (fault cause : Scan ε α) result := by
  intro yields
  cases yields

@[simp]
theorem yields_access_iff {read : Except ε α} {result : α} :
    Yields (access read) result ↔ read = .ok result := by
  cases read with
  | error cause => exact iff_of_false nofun nofun
  | ok value =>
      constructor
      · intro yields
        rw [Option.some.inj (Except.ok.inj yields)]
      · intro same
        cases same
        rfl

/-- A scan of two parts yields what the second makes of the value of the
first. -/
theorem yields_bind_iff {first : Scan ε α} {next : α → Scan ε β} {result : β} :
    Yields (first >>= next) result ↔
      ∃ value, Yields first value ∧ Yields (next value) result := by
  change (first.run >>= fun outcome => match outcome with
    | some value => (next value).run
    | none => pure none) = .ok (some result) ↔ _
  unfold Yields
  cases first.run with
  | error cause => exact iff_of_false nofun fun ⟨_, same, _⟩ => nomatch same
  | ok outcome =>
      cases outcome with
      | none =>
          constructor
          · intro yields
            cases Except.ok.inj yields
          · rintro ⟨value, same, -⟩
            cases Except.ok.inj same
      | some value =>
          constructor
          · intro yields
            exact ⟨value, rfl, yields⟩
          · rintro ⟨value', same, yields⟩
            obtain rfl := Option.some.inj (Except.ok.inj same)
            exact yields

theorem Yields.bind {first : Scan ε α} {next : α → Scan ε β} {value : α} {result : β}
    (begins : first.Yields value) (ends : (next value).Yields result) :
    (first >>= next).Yields result :=
  yields_bind_iff.mpr ⟨value, begins, ends⟩

theorem Yields.unique {scan : Scan ε α} {first second : α} (one : scan.Yields first)
    (other : scan.Yields second) : first = second :=
  Option.some.inj (Except.ok.inj (one.symm.trans other))

theorem Yields.bind_eq {scan : Scan ε α} {value : α} (yields : scan.Yields value)
    (next : α → Scan ε β) : scan >>= next = next value := by
  apply OptionT.ext
  change (scan.run >>= _) = _
  rw [yields]
  rfl

/-! ### What a scan ensures -/

/-- The scan is safe, and what it yields is as described. -/
structure Ensures (scan : Scan ε α) (post : α → Prop) : Prop where
  safe : scan.Safe
  holds : ∀ value, scan.Yields value → post value

variable {post post' : α → Prop} {goal : β → Prop}

theorem Ensures.pure {value : α} (holds : post value) :
    Ensures (Pure.pure value : Scan ε α) post where
  safe := ⟨some value, rfl⟩
  holds := by
    intro result yields
    rw [← yields_pure_iff.mp yields]
    exact holds

theorem Ensures.reject : Ensures (reject : Scan ε α) post where
  safe := ⟨none, rfl⟩
  holds := fun _ yields => absurd yields not_yields_reject

theorem Yields.ensures {scan : Scan ε α} {value : α} (yields : scan.Yields value)
    (holds : post value) : Ensures scan post where
  safe := ⟨some value, yields⟩
  holds := fun _ other => other.unique yields ▸ holds

theorem Ensures.mono {scan : Scan ε α} (ensures : Ensures scan post)
    (weaker : ∀ value, post value → post' value) : Ensures scan post' where
  safe := ensures.safe
  holds := fun value yields => weaker value (ensures.holds value yields)

theorem Ensures.and {scan : Scan ε α} (first : Ensures scan post) (second : Ensures scan post') :
    Ensures scan fun value => post value ∧ post' value where
  safe := first.safe
  holds := fun value yields => ⟨first.holds value yields, second.holds value yields⟩

/-- A scan of two parts ensures what the second does, whatever the first
yields. -/
theorem Ensures.bind {first : Scan ε α} {next : α → Scan ε β} (begins : Ensures first post)
    (ends : ∀ value, post value → Ensures (next value) goal) : Ensures (first >>= next) goal where
  safe := by
    obtain ⟨outcome, runs⟩ := begins.safe
    cases outcome with
    | none =>
        refine ⟨none, ?_⟩
        change (first.run >>= _) = _
        rw [runs]
        rfl
    | some value =>
        obtain ⟨later, runs'⟩ := (ends value (begins.holds value runs)).safe
        refine ⟨later, ?_⟩
        change (first.run >>= _) = _
        rw [runs]
        exact runs'
  holds := by
    intro result yields
    obtain ⟨value, early, late⟩ := yields_bind_iff.mp yields
    exact (ends value (begins.holds value early)).holds result late

end Scan

end OnlineProgram
