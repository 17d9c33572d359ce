import OnlineProgram.ServerMessages

/-!
# Cut texts

What the scanners make of a text that ends too early.  The buffer is cleared
behind the text, so they meet zeros there.  What they read before the zeros, and
not up to their edge, they read as well when more of the text follows.
-/

namespace OnlineProgram

open ByteStrings CMemory

namespace CJsonParser

/-- What stands behind a text in a cleared buffer. -/
def cleared (beyond : Bytes) : Bytes :=
  0 :: 0 :: beyond

variable {beyond : Bytes}

/-- A byte that is neither a zero nor a point comes next. -/
def Stops (rest : Bytes) : Prop :=
  ∃ byte behind, rest = byte :: behind ∧ byte ≠ 0 ∧ byte ≠ 46

/-- What is left of a part has the zeros behind it, and where it is acceptable, the
same is left with other bytes there. -/
def Inside (beyond part rest extra : Bytes) (accepts again : Bytes → Prop) : Prop :=
  ∃ taken left, part = taken ++ left ∧ rest = left ++ cleared beyond ∧
    (accepts left → again (left ++ extra))

/-- Nothing of the part is taken. -/
theorem Inside.all {part extra : Bytes} {accepts again : Bytes → Prop}
    (reads : accepts part → again (part ++ extra)) :
    Inside beyond part (part ++ cleared beyond) extra accepts again :=
  ⟨[], part, rfl, rfl, reads⟩

/-- All of the part is taken. -/
theorem Inside.nothing {part extra : Bytes} {accepts again : Bytes → Prop}
    (rejects : ¬ accepts []) : Inside beyond part (cleared beyond) extra accepts again :=
  ⟨part, [], (List.append_nil part).symm, rfl, fun accepted => absurd accepted rejects⟩

theorem Inside.cons {byte : UInt8} {part rest extra : Bytes} {accepts again again' : Bytes → Prop}
    (inside : Inside beyond part rest extra accepts again)
    (more : ∀ behind, again behind → again' behind) :
    Inside beyond (byte :: part) rest extra accepts again' := by
  obtain ⟨taken, left, rfl, isLeft, reads⟩ := inside
  exact ⟨byte :: taken, left, rfl, isLeft, fun accepted => more _ (reads accepted)⟩

theorem stops_append {left : Bytes} (stops : Stops (left ++ cleared beyond)) :
    ∃ byte behind, left = byte :: behind ∧ byte ≠ 0 ∧ byte ≠ 46 := by
  obtain ⟨byte, behind, same, nonzero, notPoint⟩ := stops
  cases left with
  | nil => exact absurd (List.cons.inj same).1.symm nonzero
  | cons head left =>
      obtain ⟨rfl, -⟩ := List.cons.inj same
      exact ⟨head, left, rfl, nonzero, notPoint⟩

theorem peek_inside {left : Bytes} {byte : UInt8}
    (peeks : (peek (left ++ cleared beyond)).Yields byte) (nonzero : byte ≠ 0) :
    ∃ behind, left = byte :: behind := by
  obtain ⟨rest, same⟩ := peek_yields_iff.mp peeks
  cases left with
  | nil => exact absurd (List.cons.inj same).1.symm nonzero
  | cons head left => exact ⟨left, by rw [(List.cons.inj same).1]⟩

theorem skip_inside (extra : Bytes) {part rest : Bytes}
    (skips : (skip (part ++ cleared beyond)).Yields rest) :
    Inside beyond part rest extra (· ≠ []) fun behind => (skip (part ++ extra)).Yields behind := by
  induction part with
  | nil =>
      obtain rfl := Scan.yields_pure_iff.mp skips
      exact .nothing (not_not.mpr rfl)
  | cons byte part ih =>
      rw [List.cons_append, skip] at skips
      rw [List.cons_append, skip]
      split_ifs at skips ⊢ with isBlank
      · exact (ih skips).cons fun _ again => again
      · obtain rfl := Scan.yields_pure_iff.mp skips
        exact .all fun _ => Scan.yields_pure_iff.mpr rfl

theorem skip_suffix {ptr rest : Bytes} (skips : (skip ptr).Yields rest) : rest <:+ ptr := by
  induction ptr with
  | nil => exact absurd skips Scan.not_yields_fault
  | cons byte ptr ih =>
      rw [skip] at skips
      split_ifs at skips with isBlank
      · exact (ih skips).trans (List.suffix_cons _ _)
      · obtain rfl := Scan.yields_pure_iff.mp skips
        exact List.suffix_rfl

/-- A blank, or what comes behind the blanks. -/
theorem stops_of_skip {rest behind : Bytes} {byte : UInt8} (skips : (skip rest).Yields behind)
    (peeks : (peek behind).Yields byte) (nonzero : byte ≠ 0) (notPoint : byte ≠ 46) :
    Stops rest := by
  cases rest with
  | nil => exact absurd skips Scan.not_yields_fault
  | cons head rest =>
      rw [skip] at skips
      split_ifs at skips with isBlank
      · refine ⟨head, rest, rfl, isBlank.1, ?_⟩
        rintro rfl
        exact absurd isBlank.2 (by decide)
      · obtain rfl := Scan.yields_pure_iff.mp skips
        obtain ⟨behind, same⟩ := peek_yields_iff.mp peeks
        obtain ⟨rfl, rfl⟩ := List.cons.inj same
        exact ⟨head, rest, rfl, nonzero, notPoint⟩

/-! ### Numbers -/

section Numbers

variable {D : Type} [DoubleArithmetic D]

theorem numberDigits_inside (extra : Bytes) {n : D} {part : Bytes} {made : D × Nat × Bytes}
    (reads : (numberDigits n (part ++ cleared beyond)).Yields made) :
    Inside beyond part made.2.2 extra (· ≠ []) fun behind =>
      (numberDigits n (part ++ extra)).Yields (made.1, made.2.1, behind) := by
  induction part generalizing n made with
  | nil =>
      obtain rfl := Scan.yields_pure_iff.mp reads
      exact .nothing (not_not.mpr rfl)
  | cons byte part ih =>
      rw [List.cons_append, numberDigits] at reads
      rw [List.cons_append, numberDigits]
      split_ifs at reads ⊢ with digit
      · obtain ⟨inner, yields, same⟩ := Scan.yields_bind_iff.mp reads
        obtain rfl := Scan.yields_pure_iff.mp same
        exact (ih yields).cons fun behind again => again.bind (Scan.yields_pure_iff.mpr rfl)
      · obtain rfl := Scan.yields_pure_iff.mp reads
        exact .all fun _ => Scan.yields_pure_iff.mpr rfl

theorem exponentDigits_inside (extra : Bytes) {subscale : Int} {part : Bytes} {made : Int × Bytes}
    (reads : (exponentDigits subscale (part ++ cleared beyond)).Yields made) :
    Inside beyond part made.2 extra (· ≠ []) fun behind =>
      (exponentDigits subscale (part ++ extra)).Yields (made.1, behind) := by
  induction part generalizing subscale made with
  | nil =>
      obtain rfl := Scan.yields_pure_iff.mp reads
      exact .nothing (not_not.mpr rfl)
  | cons byte part ih =>
      rw [List.cons_append, exponentDigits] at reads
      rw [List.cons_append, exponentDigits]
      split_ifs at reads ⊢ with digit
      · exact (ih reads).cons fun _ again => again
      · obtain rfl := Scan.yields_pure_iff.mp reads
        exact .all fun _ => Scan.yields_pure_iff.mpr rfl

theorem numberInteger_inside (extra : Bytes) {part : Bytes} {made : D × Bytes}
    (reads : (numberInteger (part ++ cleared beyond)).Yields made) :
    Inside beyond part made.2 extra (· ≠ []) fun behind =>
      (numberInteger (part ++ extra)).Yields (made.1, behind) := by
  cases part with
  | nil =>
      obtain rfl := Scan.yields_pure_iff.mp reads
      exact .nothing (not_not.mpr rfl)
  | cons byte part =>
      rw [numberInteger, List.cons_append, (peek_cons _ _).bind_eq] at reads
      rw [numberInteger, List.cons_append, (peek_cons _ _).bind_eq]
      split_ifs at reads ⊢ with leads
      · obtain ⟨inner, yields, same⟩ := Scan.yields_bind_iff.mp reads
        obtain rfl := Scan.yields_pure_iff.mp same
        rw [← List.cons_append] at yields
        obtain ⟨taken, left, split, isLeft, again⟩ := numberDigits_inside extra yields
        exact ⟨taken, left, split, isLeft, fun nonempty =>
          (again nonempty).bind (Scan.yields_pure_iff.mpr rfl)⟩
      · obtain rfl := Scan.yields_pure_iff.mp reads
        exact .all fun _ => Scan.yields_pure_iff.mpr rfl

/-- A point at the end of the part may be the point of a fraction. -/
theorem numberFraction_inside (extra : Bytes) {n : D} {part : Bytes} {made : D × Int × Bytes}
    (reads : (numberFraction n (part ++ cleared beyond)).Yields made) :
    Inside beyond part made.2.2 extra (fun left => left ≠ [] ∧ left.head? ≠ some 46) fun behind =>
      (numberFraction n (part ++ extra)).Yields (made.1, made.2.1, behind) := by
  cases part with
  | nil =>
      obtain rfl := Scan.yields_pure_iff.mp reads
      exact .nothing fun accepted => accepted.1 rfl
  | cons byte part =>
      rw [numberFraction, List.cons_append, (peek_cons _ _).bind_eq] at reads
      rw [numberFraction, List.cons_append, (peek_cons _ _).bind_eq]
      split_ifs at reads ⊢ with isPoint
      · obtain rfl := isPoint
        rw [List.drop_succ_cons, List.drop_zero] at reads ⊢
        obtain ⟨first, peeks, reads⟩ := Scan.yields_bind_iff.mp reads
        split_ifs at reads with digit
        · obtain ⟨behind, rfl⟩ := peek_inside peeks (isDigit_nonzero digit)
          obtain ⟨inner, yields, same⟩ := Scan.yields_bind_iff.mp reads
          obtain rfl := Scan.yields_pure_iff.mp same
          obtain ⟨taken, left, split, isLeft, again⟩ := numberDigits_inside extra yields
          refine ⟨46 :: taken, left, by rw [split]; rfl, isLeft, fun accepted => ?_⟩
          rw [List.cons_append, (peek_cons _ _).bind_eq, if_pos digit, ← List.cons_append]
          exact (again accepted.1).bind (Scan.yields_pure_iff.mpr rfl)
        · obtain rfl := Scan.yields_pure_iff.mp reads
          exact .all fun accepted => absurd rfl accepted.2
      · obtain rfl := Scan.yields_pure_iff.mp reads
        exact .all fun _ => Scan.yields_pure_iff.mpr rfl

theorem numberExponent_inside (extra : Bytes) {part : Bytes} {made : Int × Bytes}
    (reads : (numberExponent (part ++ cleared beyond)).Yields made) :
    Inside beyond part made.2 extra (· ≠ []) (fun behind =>
      (numberExponent (part ++ extra)).Yields (made.1, behind)) ∧
      (part.head? = some 46 → made.2 = part ++ cleared beyond) := by
  cases part with
  | nil =>
      obtain rfl := Scan.yields_pure_iff.mp reads
      exact ⟨.nothing (not_not.mpr rfl), nofun⟩
  | cons byte part =>
      rw [numberExponent, List.cons_append, (peek_cons _ _).bind_eq] at reads
      rw [numberExponent, List.cons_append, (peek_cons _ _).bind_eq]
      split_ifs at reads ⊢ with isExponent
      · refine ⟨?_, fun isPoint => ?_⟩
        · rw [List.drop_succ_cons, List.drop_zero] at reads ⊢
          cases part with
          | nil =>
              obtain rfl := Scan.yields_pure_iff.mp reads
              exact .nothing (not_not.mpr rfl)
          | cons sign part =>
              rw [List.cons_append, (peek_cons _ _).bind_eq] at reads
              rw [List.cons_append, (peek_cons _ _).bind_eq]
              split_ifs at reads ⊢ with isPlus isMinus
              · exact ((exponentDigits_inside extra reads).cons fun _ again => again).cons
                  fun _ again => again
              · obtain ⟨inner, yields, same⟩ := Scan.yields_bind_iff.mp reads
                obtain rfl := Scan.yields_pure_iff.mp same
                exact ((exponentDigits_inside extra yields).cons fun _ again => again).cons
                  fun _ again => again.bind (Scan.yields_pure_iff.mpr rfl)
              · rw [← List.cons_append] at reads
                exact (exponentDigits_inside extra reads).cons fun _ again => again
        · obtain rfl := Option.some.inj isPoint
          exact absurd isExponent (by decide)
      · obtain rfl := Scan.yields_pure_iff.mp reads
        exact ⟨.all fun _ => Scan.yields_pure_iff.mpr rfl, fun _ => rfl⟩

theorem scaledNumber_inside (extra : Bytes) {sign : Int} {part : Bytes} {made : D × Bytes}
    (reads : (scaledNumber sign (part ++ cleared beyond)).Yields made) :
    Inside beyond part made.2 extra (fun left => left ≠ [] ∧ left.head? ≠ some 46) fun behind =>
      (scaledNumber sign (part ++ extra)).Yields (made.1, behind) := by
  unfold scaledNumber at reads ⊢
  obtain ⟨⟨whole, rest⟩, isWhole, reads⟩ := Scan.yields_bind_iff.mp reads
  obtain ⟨taken, left, rfl, rfl, wholeAgain⟩ := numberInteger_inside extra isWhole
  obtain ⟨⟨n, scale, rest⟩, isFraction, reads⟩ := Scan.yields_bind_iff.mp reads
  obtain ⟨taken', left', rfl, rfl, fractionAgain⟩ := numberFraction_inside extra isFraction
  obtain ⟨⟨power, rest⟩, isPower, same⟩ := Scan.yields_bind_iff.mp reads
  obtain rfl := Scan.yields_pure_iff.mp same
  obtain ⟨⟨taken'', left'', rfl, isLeft'', powerAgain⟩, point⟩ :=
    numberExponent_inside extra isPower
  refine ⟨taken ++ taken' ++ taken'', left'', by simp, isLeft'', fun ⟨nonempty, notPoint⟩ => ?_⟩
  have someLeft : taken'' ++ left'' ≠ [] := List.append_ne_nil_of_right_ne_nil _ nonempty
  have noPoint : (taken'' ++ left'').head? ≠ some 46 := by
    intro isPoint
    have unread : left'' ++ cleared beyond = taken'' ++ left'' ++ cleared beyond :=
      isLeft''.symm.trans (point isPoint)
    rw [← List.append_cancel_right unread] at isPoint
    exact notPoint isPoint
  refine (wholeAgain (List.append_ne_nil_of_right_ne_nil _ someLeft)).bind ?_
  dsimp only
  refine (fractionAgain ⟨someLeft, noPoint⟩).bind ?_
  dsimp only
  exact (powerAgain nonempty).bind (Scan.yields_pure_iff.mpr rfl)

theorem zero_inside (extra : Bytes) {sign : Int} {part : Bytes} {made : D × Bytes}
    (reads : (peek (part ++ cleared beyond) >>= fun zero => scaledNumber sign
      (if zero = 48 then (part ++ cleared beyond).drop 1 else part ++ cleared beyond)).Yields
        made) :
    Inside beyond part made.2 extra (fun left => left ≠ [] ∧ left.head? ≠ some 46) fun behind =>
      (peek (part ++ extra) >>= fun zero => scaledNumber sign
        (if zero = 48 then (part ++ extra).drop 1 else part ++ extra)).Yields (made.1, behind) := by
  cases part with
  | nil =>
      have reads' : (scaledNumber sign ([] ++ cleared beyond)).Yields made := reads
      obtain ⟨taken, left, split, isLeft, -⟩ := scaledNumber_inside extra reads'
      obtain ⟨rfl, rfl⟩ := List.append_eq_nil_iff.mp split.symm
      exact ⟨[], [], rfl, isLeft, fun accepted => absurd rfl accepted.1⟩
  | cons byte part =>
      rw [List.cons_append, (peek_cons _ _).bind_eq] at reads
      rw [List.cons_append, (peek_cons _ _).bind_eq]
      split_ifs at reads ⊢ with isZero
      · exact (scaledNumber_inside extra reads).cons fun _ again => again
      · rw [← List.cons_append] at reads
        exact scaledNumber_inside extra reads

/-- A number that does not reach the end of the part. -/
theorem parseNumber_inside (extra : Bytes) {part : Bytes} {made : D × Bytes}
    (reads : (parseNumber (part ++ cleared beyond)).Yields made) :
    Inside beyond part made.2 extra (fun left => left ≠ [] ∧ left.head? ≠ some 46) fun behind =>
      (parseNumber (part ++ extra)).Yields (made.1, behind) := by
  cases part with
  | nil =>
      have reads' : (peek ([] ++ cleared beyond) >>= fun zero => scaledNumber 1
          (if zero = 48 then ([] ++ cleared beyond).drop 1 else [] ++ cleared beyond)).Yields
            made := reads
      obtain ⟨taken, left, split, isLeft, -⟩ := zero_inside extra reads'
      obtain ⟨rfl, rfl⟩ := List.append_eq_nil_iff.mp split.symm
      exact ⟨[], [], rfl, isLeft, fun accepted => absurd rfl accepted.1⟩
  | cons byte part =>
      rw [parseNumber, List.cons_append, (peek_cons _ _).bind_eq] at reads
      rw [parseNumber, List.cons_append, (peek_cons _ _).bind_eq]
      dsimp only at reads ⊢
      by_cases isSign : byte = 45
      · simp only [if_pos isSign, List.drop_succ_cons, List.drop_zero] at reads ⊢
        exact (zero_inside extra reads).cons fun _ again => again
      · simp only [if_neg isSign] at reads ⊢
        rw [← List.cons_append] at reads
        exact zero_inside extra reads

end Numbers

/-! ### Strings -/

/-- A byte that ends a string. -/
def Ends (stop : UInt8) : Prop :=
  stop = quote ∨ stop = 0

theorem Ends.not_hex {stop : UInt8} (ends : Ends stop) : hexValue stop = none := by
  rcases ends with rfl | rfl
  · rfl
  · rfl

/-- What the first loop has passed, and the byte where it stops.  Nothing behind
that byte matters. -/
theorem stringEnd_split {ptr : Bytes} {distance len : Nat}
    (ends : (stringEnd ptr).Yields (distance, len)) :
    ∃ front stop behind, ptr = front ++ stop :: behind ∧ front.length = distance ∧ Ends stop ∧
      ∀ other, (stringEnd (front ++ stop :: other)).Yields (distance, len) := by
  induction ptr using stringEnd.induct generalizing distance len with
  | case1 => exact absurd ends Scan.not_yields_fault
  | case2 byte rest stops =>
      obtain ⟨rfl, rfl⟩ := Prod.mk.inj ((stringEnd_stop stops rest).unique ends)
      exact ⟨[], byte, rest, rfl, rfl, stops, stringEnd_stop stops⟩
  | case3 => exact absurd ends Scan.not_yields_fault
  | case4 code rest _ ih =>
      obtain ⟨d, l, later, rfl, rfl⟩ := stringEnd_escape.mp ends
      obtain ⟨front, stop, behind, rfl, length, stops, others⟩ := ih later
      refine ⟨backslash :: code :: front, stop, behind, rfl, by simp [length], stops, ?_⟩
      intro other
      exact stringEnd_escape.mpr ⟨d, l, others other, rfl, rfl⟩
  | case5 byte rest stops notEscape ih =>
      obtain ⟨notQuote, nonzero⟩ := not_or.mp stops
      obtain ⟨d, l, later, rfl, rfl⟩ := (stringEnd_cons notQuote nonzero notEscape).mp ends
      obtain ⟨front, stop, behind, rfl, length, stops, others⟩ := ih later
      refine ⟨byte :: front, stop, behind, rfl, by simp [length], stops, ?_⟩
      intro other
      exact (stringEnd_cons notQuote nonzero notEscape).mpr ⟨d, l, others other, rfl, rfl⟩

theorem hexDigits_stopped (count h : Nat) (front : Bytes) {stop : UInt8} (stops : Ends stop)
    (behind other : Bytes) :
    hexDigits count h (front ++ stop :: behind) = hexDigits count h (front ++ stop :: other) := by
  induction count generalizing h front with
  | zero => rfl
  | succ count ih =>
      cases front with
      | nil =>
          rw [List.nil_append, List.nil_append, hexDigits, hexDigits, stops.not_hex]
      | cons byte front =>
          rw [List.cons_append, List.cons_append, hexDigits, hexDigits]
          cases hexValue byte with
          | none => rfl
          | some digit => exact ih _ _

theorem startsWith_stopped {literal : Bytes} (front : Bytes) {stop : UInt8}
    (absent : stop ∉ literal) (behind other : Bytes) :
    startsWith (front ++ stop :: behind) literal = startsWith (front ++ stop :: other) literal := by
  induction literal generalizing front with
  | nil => cases front <;> rfl
  | cons first literal ih =>
      obtain ⟨notFirst, later⟩ : ¬ stop = first ∧ stop ∉ literal := by simpa using absent
      cases front with
      | nil =>
          rw [List.nil_append, List.nil_append, startsWith, startsWith, if_neg notFirst,
            if_neg notFirst]
      | cons byte front =>
          rw [List.cons_append, List.cons_append, startsWith, startsWith, ih _ later]

/-- The digits of an escape are looked for up to the end of the string. -/
theorem unicodeEscape_stopped (front : Bytes) {stop : UInt8} (stops : Ends stop)
    (behind other : Bytes) :
    unicodeEscape (front ++ stop :: behind) (front.length + 1) =
      unicodeEscape (front ++ stop :: other) (front.length + 1) := by
  have absent : stop ∉ [backslash, 117] := by
    rcases stops with rfl | rfl
    · decide
    · decide
  unfold unicodeEscape parseHex4
  rw [hexDigits_stopped 4 0 front stops behind other]
  congr 1
  funext uc
  split_ifs with short invalid high shortPair
  · rfl
  · rfl
  · rfl
  · have drops (count : Nat) (fits : count ≤ front.length) (rest : Bytes) :
        (front ++ stop :: rest).drop count = front.drop count ++ stop :: rest :=
      List.drop_append_of_le_length fits
    rw [drops 4 (by omega), drops 4 (by omega), drops 6 (by omega), drops 6 (by omega),
      startsWith_stopped _ absent behind other, hexDigits_stopped 4 0 _ stops behind other]
  · rfl

/-- The digits of an escape stand before the end of the string. -/
theorem unicodeEscape_splits {front behind : Bytes} {stop : UInt8} {more uc taken : Nat}
    (stops : Ends stop) (terminated : Terminated (front ++ stop :: behind))
    (ends : (stringEnd (front ++ stop :: behind)).Yields (front.length, more))
    (escapes : (unicodeEscape (front ++ stop :: behind) (front.length + 1)).Yields (uc, taken)) :
    ∃ digits left more', front = digits ++ left ∧ digits.length = taken ∧
      Terminated (left ++ stop :: behind) ∧
      (stringEnd (left ++ stop :: behind)).Yields (left.length, more') ∧
      ∀ other, (unicodeEscape (front ++ stop :: other) (front.length + 1)).Yields (uc, taken) := by
  obtain ⟨digits, rest, split, isTaken, nonzero, d, l, later, counted, -⟩ :=
    (unicodeEscape_spec terminated ends).holds _ escapes
  dsimp only at isTaken counted
  have isFront : digits <+: front := List.prefix_of_prefix_length_le ⟨rest, split.symm⟩
    (List.prefix_append front _) (by omega)
  obtain ⟨left, rfl⟩ := isFront
  have isRest : rest = left ++ stop :: behind := by
    rw [List.append_assoc] at split
    exact (List.append_cancel_left split).symm
  have isLeft : left.length = d := by
    rw [List.length_append] at counted
    omega
  subst isRest isLeft
  refine ⟨digits, left, l, rfl, isTaken, terminated.drop_of_nonzero split nonzero, later, ?_⟩
  intro other
  rw [unicodeEscape_stopped _ stops other behind]
  exact escapes

/-- The second loop stops where the first has stopped, and does not depend on
what stands behind. -/
theorem copyString_stopped {capacity steps more : Nat} {front behind out : Bytes} {stop : UInt8}
    {made : Bytes × Bytes} (stops : Ends stop)
    (terminated : Terminated (front ++ stop :: behind))
    (ends : (stringEnd (front ++ stop :: behind)).Yields (front.length, more))
    (copies : (copyString capacity steps front.length (front ++ stop :: behind) out).Yields made)
    (other : Bytes) :
    made.2 = stop :: behind ∧
      (copyString capacity steps front.length (front ++ stop :: other) out).Yields
        (made.1, stop :: other) := by
  induction steps generalizing front more out with
  | zero => exact absurd copies Scan.not_yields_fault
  | succ steps ih =>
      cases front with
      | nil =>
          obtain rfl := Scan.yields_pure_iff.mp copies
          exact ⟨rfl, Scan.yields_pure_iff.mpr rfl⟩
      | cons byte front =>
          have goesOn : ¬ (byte = quote ∨ byte = 0) := fun stopped => by
            have same := (stringEnd_stop stopped _).unique ends
            cases (Prod.mk.inj same).1
          obtain ⟨notQuote, nonzero⟩ := not_or.mp goesOn
          have someLeft : (byte :: front).length ≠ 0 := Nat.succ_ne_zero _
          rw [List.cons_append] at terminated ends copies
          rw [List.cons_append]
          unfold copyString at copies ⊢
          rw [if_neg someLeft] at copies ⊢
          dsimp only at copies ⊢
          by_cases notEscape : byte ≠ backslash
          · rw [if_pos notEscape] at copies ⊢
            obtain ⟨d, l, later, isDistance, rfl⟩ :=
              (stringEnd_cons notQuote nonzero notEscape).mp ends
            obtain rfl := Nat.succ.inj isDistance
            obtain ⟨out', puts, copies⟩ := Scan.yields_bind_iff.mp copies
            obtain ⟨rest, again⟩ := ih (terminated.tail nonzero) later copies
            exact ⟨rest, puts.bind again⟩
          · rw [if_neg notEscape] at copies ⊢
            obtain rfl : byte = backslash := not_not.mp notEscape
            cases front with
            | nil =>
                obtain ⟨d, l, -, isDistance, -⟩ := stringEnd_escape.mp ends
                cases Nat.succ.inj isDistance
            | cons code front =>
                rw [List.cons_append] at terminated ends copies ⊢
                obtain ⟨d, l, later, isDistance, rfl⟩ := stringEnd_escape.mp ends
                obtain rfl := Nat.succ.inj (Nat.succ.inj isDistance)
                have inside := terminated.behind_escape
                dsimp only at copies ⊢
                by_cases isUnicode : code = 117
                · rw [if_pos isUnicode] at copies ⊢
                  obtain ⟨⟨uc, taken⟩, escapes, copies⟩ := Scan.yields_bind_iff.mp copies
                  obtain ⟨out', puts, copies⟩ := Scan.yields_bind_iff.mp copies
                  have isBound : (backslash :: code :: front).length - 1 = front.length + 1 := rfl
                  rw [isBound] at escapes ⊢
                  obtain ⟨digits, left, l', rfl, rfl, inside, last, escapesAgain⟩ :=
                    unicodeEscape_splits stops inside later escapes
                  have rounds : (backslash :: code :: (digits ++ left)).length - 2 - digits.length =
                      left.length := by
                    simp
                  dsimp only at copies
                  rw [rounds, List.append_assoc, List.drop_left] at copies
                  obtain ⟨isStop, again⟩ := ih inside last copies
                  refine ⟨isStop, (escapesAgain other).bind (puts.bind ?_)⟩
                  dsimp only
                  rw [rounds, List.append_assoc, List.drop_left]
                  exact again
                · rw [if_neg isUnicode] at copies ⊢
                  obtain ⟨out', puts, copies⟩ := Scan.yields_bind_iff.mp copies
                  obtain ⟨rest, again⟩ := ih inside later copies
                  exact ⟨rest, puts.bind again⟩

theorem terminated_cleared {part : Bytes} (nonzero : (0 : UInt8) ∉ part) :
    Terminated (part ++ cleared beyond) :=
  terminated_append nonzero fun _ => rfl

/-- The first loop passes one of the zeros at most. -/
theorem stringEnd_cleared {part : Bytes} {distance len : Nat}
    (ends : (stringEnd (part ++ cleared beyond)).Yields (distance, len)) :
    distance ≤ part.length + 1 := by
  induction part using stringEnd.induct generalizing distance len with
  | case1 =>
      have same := (stringEnd_stop (.inr rfl) _).unique ends
      rw [← (Prod.mk.inj same).1]
      exact Nat.zero_le _
  | case2 byte rest stops =>
      have same := (stringEnd_stop stops _).unique ends
      rw [← (Prod.mk.inj same).1]
      exact Nat.zero_le _
  | case3 =>
      obtain ⟨d, l, later, rfl, -⟩ := stringEnd_escape.mp ends
      have same := (stringEnd_stop (.inr rfl) _).unique later
      rw [← (Prod.mk.inj same).1]
      exact Nat.le_refl _
  | case4 code rest _ ih =>
      obtain ⟨d, l, later, rfl, -⟩ := stringEnd_escape.mp ends
      exact Nat.add_le_add_right (ih later) 2
  | case5 byte rest stops notEscape ih =>
      obtain ⟨notQuote, nonzero⟩ := not_or.mp stops
      obtain ⟨d, l, later, rfl, -⟩ := (stringEnd_cons notQuote nonzero notEscape).mp ends
      exact Nat.add_le_add_right (ih later) 1

/-- A byte other than zero that stands before the end of the zeros stands in the
part. -/
theorem split_of_nonzero {part front behind : Bytes} {byte : UInt8} (nonzero : byte ≠ 0)
    (early : front.length ≤ part.length + 1)
    (split : part ++ cleared beyond = front ++ byte :: behind) :
    ∃ left, part = front ++ byte :: left ∧ behind = left ++ cleared beyond := by
  rcases List.append_eq_append_iff.mp split with ⟨gap, rfl, isCleared⟩ | ⟨gap, rfl, isBehind⟩
  · match gap with
    | [] => exact absurd (List.cons.inj isCleared).1.symm nonzero
    | [_] => exact absurd (List.cons.inj (List.cons.inj isCleared).2).1.symm nonzero
    | _ :: _ :: _ =>
        rw [List.length_append, List.length_cons, List.length_cons] at early
        omega
  · cases gap with
    | nil => exact absurd (List.cons.inj isBehind).1 nonzero
    | cons head left =>
        obtain ⟨rfl, rfl⟩ := List.cons.inj isBehind
        exact ⟨left, rfl, rfl⟩

/-- A string that is closed in the part, or one that goes on to its end. -/
theorem parseString_inside (extra : Bytes) {part : Bytes} {made : Bytes × Bytes}
    (nonzero : (0 : UInt8) ∉ part) (reads : (parseString (part ++ cleared beyond)).Yields made) :
    Inside beyond part made.2 extra (fun _ => True) (fun behind =>
      (parseString (part ++ extra)).Yields (made.1, behind)) ∨ made.2.head? = some 0 := by
  cases part with
  | nil => exact absurd reads Scan.not_yields_reject
  | cons byte str =>
      have strNonzero : (0 : UInt8) ∉ str := fun member => nonzero (List.mem_cons_of_mem _ member)
      rw [List.cons_append] at reads ⊢
      unfold parseString at reads ⊢
      dsimp only at reads ⊢
      by_cases notQuote : byte ≠ quote
      · rw [if_pos notQuote] at reads
        exact absurd reads Scan.not_yields_reject
      rw [if_neg notQuote] at reads ⊢
      obtain ⟨⟨distance, len⟩, ends, reads⟩ := Scan.yields_bind_iff.mp reads
      obtain ⟨⟨out, ptr⟩, copies, reads⟩ := Scan.yields_bind_iff.mp reads
      obtain ⟨out', puts, reads⟩ := Scan.yields_bind_iff.mp reads
      obtain ⟨byte', peeks, same⟩ := Scan.yields_bind_iff.mp reads
      obtain rfl := Scan.yields_pure_iff.mp same
      have early := stringEnd_cleared ends
      obtain ⟨front, stop, behind, split, rfl, stops, endsAgain⟩ := stringEnd_split ends
      have terminated : Terminated (str ++ cleared beyond) := terminated_cleared strNonzero
      dsimp only at copies peeks
      rw [split] at ends copies terminated
      have copied := copyString_stopped stops terminated ends copies
      obtain rfl : ptr = stop :: behind := (copied []).1
      obtain rfl : stop = byte' := (peek_cons stop behind).unique peeks
      rcases stops with rfl | rfl
      · left
        obtain ⟨left, rfl, rfl⟩ := split_of_nonzero (by decide) early split
        refine ⟨byte :: front ++ [quote], left, by simp, rfl, fun _ => ?_⟩
        rw [List.append_assoc, List.cons_append]
        refine (endsAgain _).bind ?_
        dsimp only
        refine (copied _).2.bind (puts.bind ((peek_cons _ _).bind ?_))
        exact Scan.yields_pure_iff.mpr rfl
      · right
        rfl

end CJsonParser

end OnlineProgram
