import Mathlib.Data.List.Basic

/-!
# Cuttings of a stream

A stream of messages reaches its reader in chunks whose boundaries mean
nothing.  A reader without memory looks at each chunk by itself and takes the
value at its head, so what it sees of a cutting is the list of these values.
-/

namespace OnlineProgram.StreamCuttings

variable {α β σ : Type*}

/-- A way of cutting a stream into nonempty chunks of bounded length. -/
structure IsCutting (bound : Nat) (stream : List α) (chunks : List (List α)) :
    Prop where
  joined : chunks.flatten = stream
  nonempty : ∀ chunk ∈ chunks, chunk ≠ []
  bounded : ∀ chunk ∈ chunks, chunk.length ≤ bound

/-- The reader takes a value from the text, whatever follows, and fails on any
part of it. -/
structure ReadsFirst (read : List α → Option β) (text : List α) (value : β) :
    Prop where
  whole : ∀ rest, read (text ++ rest) = some value
  incomplete : ∀ part, part <+: text → part ≠ text → read part = none

/-- Where each step looks at its chunk by itself, what is seen of the state
after a run is the run over the heads. -/
theorem foldl_heads {ρ : Type*} {read : List α → Option β} {handle : σ → β → σ}
    {step : ρ → List α → ρ} {view : ρ → σ} (Inv : ρ → Prop) {chunks : List (List α)}
    (keeps : ∀ state, ∀ chunk ∈ chunks, Inv state → Inv (step state chunk))
    (steps : ∀ state, ∀ chunk ∈ chunks, Inv state →
      view (step state chunk) =
        ((read chunk).map (handle (view state))).getD (view state))
    {state : ρ} (start : Inv state) :
    view (chunks.foldl step state) =
      (chunks.filterMap read).foldl handle (view state) := by
  induction chunks generalizing state with
  | nil => rfl
  | cons chunk chunks ih =>
      have first := steps state chunk (by simp) start
      have rest := ih (fun state other member => keeps state other (by simp [member]))
        (fun state other member => steps state other (by simp [member]))
        (keeps state chunk (by simp) start)
      rw [List.foldl_cons, rest, first]
      cases value : read chunk with
      | none => simp [value]
      | some value' => simp [value]

/-- Messages of which each chunk holds one or more give the first ones. -/
theorem filterMap_groups {read : List α → Option β}
    (groups : List ((List α × β) × List (List α × β)))
    (reads : ∀ group ∈ groups, ReadsFirst read group.1.1 group.1.2) :
    (groups.map fun group => group.1.1 ++ (group.2.map Prod.fst).flatten).filterMap read =
      groups.map fun group => group.1.2 := by
  induction groups with
  | nil => rfl
  | cons group groups ih =>
      have first := (reads group (by simp)).whole (group.2.map Prod.fst).flatten
      have rest := ih fun other member => reads other (by simp [member])
      rw [List.map_cons, List.filterMap_cons, first, List.map_cons, rest]

/-- The reader that knows finitely many texts. -/
def readKnown [DecidableEq α] (known : List (List α × β)) (text : List α) : Option β :=
  (known.find? fun entry => entry.1 <+: text).map Prod.snd

/-- Different texts of one length are told apart. -/
theorem readKnown_readsFirst [DecidableEq α] {known : List (List α × β)} {width : Nat}
    (widths : ∀ entry ∈ known, entry.1.length = width)
    (distinct : ∀ entry ∈ known, ∀ other ∈ known, entry.1 = other.1 → entry = other)
    {entry : List α × β} (member : entry ∈ known) :
    ReadsFirst (readKnown known) entry.1 entry.2 where
  whole := by
    intro rest
    unfold readKnown
    cases found : known.find? fun other => other.1 <+: entry.1 ++ rest with
    | none =>
        have missed := List.find?_eq_none.mp found entry member
        simp at missed
    | some other =>
        have otherMember := List.mem_of_find?_eq_some found
        have isPrefix : other.1 <+: entry.1 ++ rest := by
          simpa using List.find?_some found
        have sameLength : other.1.length = entry.1.length := by
          rw [widths other otherMember, widths entry member]
        have sameText : other.1 = entry.1 :=
          List.append_inj_left (isPrefix.choose_spec) sameLength
        rw [distinct other otherMember entry member sameText]
        rfl
  incomplete := by
    intro part isPart shorter
    unfold readKnown
    have partLength : part.length < width := by
      rw [← widths entry member]
      exact Nat.lt_of_le_of_ne isPart.length_le fun same => shorter (isPart.eq_of_length same)
    have missed : known.find? (fun other => other.1 <+: part) = none := by
      apply List.find?_eq_none.mpr
      intro other otherMember isPrefix
      have length := (of_decide_eq_true isPrefix).length_le
      rw [widths other otherMember] at length
      omega
    rw [missed]
    rfl

end OnlineProgram.StreamCuttings
