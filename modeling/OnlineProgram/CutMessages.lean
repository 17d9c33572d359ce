import OnlineProgram.CutTexts

/-!
# Cut messages

The values of a text that ends too early.  An item of a chain has a comma or a
bracket behind it, so what the parser reads of a part it reads of the whole as
well, and it reads no array and no object before the closing bracket.  So the
parser takes a message of the server from the front of a buffer and takes
nothing from a part of it.
-/

namespace OnlineProgram

open ByteStrings CMemory Utf8Text StreamCuttings

namespace CJsonParser

variable {beyond : Bytes}

/-! ### Values -/

section Chains

variable {α : Type} {accepts : Bytes → Prop}

/-- What one scan reads in a part, where what is left is acceptable, the other
reads with more behind the part. -/
def Carries (accepts : Bytes → Prop) (scan again : Bytes → Scan Fault (α × Bytes))
    (beyond extra : Bytes) : Prop :=
  ∀ part made, (0 : UInt8) ∉ part → (scan (part ++ cleared beyond)).Yields made → accepts made.2 →
    part ≠ [] ∧ ∃ taken left, part = taken ++ left ∧ made.2 = left ++ cleared beyond ∧
      (again (part ++ extra)).Yields (made.1, left ++ extra)

theorem zero_not_mem_right {taken left : Bytes} (nonzero : (0 : UInt8) ∉ taken ++ left) :
    (0 : UInt8) ∉ left :=
  fun member => nonzero (List.mem_append_right _ member)

/-- What a chain is made of. -/
theorem parseChain_yields_iff {item : Bytes → Scan Fault (α × Bytes)} {closing : UInt8}
    {steps : Nat} {value : Bytes} {made : List α × Bytes} :
    (parseChain item closing (steps + 1) value).Yields made ↔
      ∃ first child behind byte, (skip value).Yields first ∧ (item first).Yields child ∧
        (skip child.2).Yields behind ∧ (peek behind).Yields byte ∧
        ((byte = 44 ∧ ∃ others, (parseChain item closing steps (behind.drop 1)).Yields others ∧
            made = (child.1 :: others.1, others.2)) ∨
          (byte ≠ 44 ∧ byte = closing ∧ made = ([child.1], behind.drop 1))) := by
  rw [parseChain]
  simp only [Scan.yields_bind_iff]
  constructor
  · rintro ⟨first, skips, child, isItem, behind, skipsBehind, byte, peeks, reads⟩
    refine ⟨first, child, behind, byte, skips, isItem, skipsBehind, peeks, ?_⟩
    split_ifs at reads with isComma isClosing
    · obtain ⟨others, isChain, same⟩ := Scan.yields_bind_iff.mp reads
      exact .inl ⟨isComma, others, isChain, (Scan.yields_pure_iff.mp same).symm⟩
    · exact .inr ⟨isComma, isClosing, (Scan.yields_pure_iff.mp reads).symm⟩
    · exact absurd reads Scan.not_yields_reject
  · rintro ⟨first, child, behind, byte, skips, isItem, skipsBehind, peeks, reads⟩
    refine ⟨first, skips, child, isItem, behind, skipsBehind, byte, peeks, ?_⟩
    rcases reads with ⟨isComma, others, isChain, rfl⟩ | ⟨notComma, isClosing, rfl⟩
    · rw [if_pos isComma]
      exact isChain.bind (Scan.yields_pure_iff.mpr rfl)
    · rw [if_neg notComma, if_pos isClosing]
      exact Scan.yields_pure_iff.mpr rfl

/-- Every item of a chain has a comma or the closing bracket behind it. -/
theorem parseChain_carries {item again : Bytes → Scan Fault (α × Bytes)} {closing : UInt8}
    {extra : Bytes} {steps more : Nat} (items : Carries Stops item again beyond extra)
    (closes : closing ≠ 0 ∧ closing ≠ 46) (enough : steps ≤ more) :
    Carries (fun _ => True) (parseChain item closing steps) (parseChain again closing more)
      beyond extra := by
  induction steps generalizing more with
  | zero =>
      intro part made _ reads
      exact absurd reads Scan.not_yields_fault
  | succ steps ih =>
      obtain ⟨more, rfl⟩ : ∃ fewer, more = fewer + 1 := ⟨more - 1, by omega⟩
      intro part made nonzero reads _
      obtain ⟨first, ⟨child, rest⟩, behind, byte, skips, isItem, skipsBehind, peeks, goesOn⟩ :=
        parseChain_yields_iff.mp reads
      have byteStops : byte ≠ 0 ∧ byte ≠ 46 := by
        rcases goesOn with ⟨rfl, -⟩ | ⟨-, isClosing, -⟩
        · decide
        · exact isClosing ▸ closes
      obtain ⟨taken, left, rfl, rfl, skipsAgain⟩ := skip_inside extra skips
      have stops : Stops rest := stops_of_skip skipsBehind peeks byteStops.1 byteStops.2
      obtain ⟨-, taken', left', rfl, rfl, itemAgain⟩ :=
        items _ _ (zero_not_mem_right nonzero) isItem stops
      obtain ⟨taken'', left'', rfl, rfl, skipsBehindAgain⟩ := skip_inside extra skipsBehind
      obtain ⟨tail, rfl⟩ := peek_inside peeks byteStops.1
      have someLeft : taken'' ++ byte :: tail ≠ [] :=
        List.append_ne_nil_of_right_ne_nil _ (List.cons_ne_nil _ _)
      have begins := skipsAgain (List.append_ne_nil_of_right_ne_nil taken' someLeft)
      have passes := skipsBehindAgain (List.cons_ne_nil _ _)
      rcases goesOn with ⟨rfl, ⟨others, rest⟩, isChain, rfl⟩ | ⟨notComma, isClosing, rfl⟩
      · have tailNonzero : (0 : UInt8) ∉ tail := fun member => nonzero (by simp [member])
        obtain ⟨-, taken3, left3, rfl, rfl, chainAgain⟩ :=
          ih (Nat.le_of_succ_le_succ enough) _ _ tailNonzero isChain trivial
        refine ⟨by simp, taken ++ (taken' ++ (taken'' ++ 44 :: taken3)), left3, by simp, rfl, ?_⟩
        exact parseChain_yields_iff.mpr ⟨_, _, _, 44, begins, itemAgain, passes, peek_cons _ _,
          .inl ⟨rfl, _, chainAgain, rfl⟩⟩
      · refine ⟨by simp, taken ++ (taken' ++ (taken'' ++ [byte])), tail, by simp, rfl, ?_⟩
        exact parseChain_yields_iff.mpr ⟨_, _, _, byte, begins, itemAgain, passes, peek_cons _ _,
          .inr ⟨notComma, isClosing, rfl⟩⟩

theorem parseChildren_carries {item again : Bytes → Scan Fault (α × Bytes)} {closing : UInt8}
    {extra : Bytes} (items : Carries Stops item again beyond extra)
    (closes : closing ≠ 0 ∧ closing ≠ 46) (longer : (cleared beyond).length ≤ extra.length) :
    Carries (fun _ => True) (parseChildren item closing) (parseChildren again closing) beyond
      extra := by
  intro part made nonzero reads _
  unfold parseChildren at reads ⊢
  obtain ⟨first, skips, reads⟩ := Scan.yields_bind_iff.mp reads
  obtain ⟨byte, peeks, reads'⟩ := Scan.yields_bind_iff.mp reads
  obtain ⟨taken, left, rfl, rfl, skipsAgain⟩ := skip_inside extra skips
  split_ifs at reads' with isClosing
  · obtain ⟨tail, rfl⟩ := peek_inside peeks (isClosing ▸ closes.1)
    obtain rfl := Scan.yields_pure_iff.mp reads'
    refine ⟨by simp, taken ++ [byte], tail, by simp, rfl, ?_⟩
    refine (skipsAgain (List.cons_ne_nil _ _)).bind ((peek_cons _ _).bind ?_)
    rw [if_pos isClosing]
    exact Scan.yields_pure_iff.mpr rfl
  · have enough : (left ++ cleared beyond).length + 1 ≤ (left ++ extra).length + 1 := by
      rw [List.length_append, List.length_append]
      exact Nat.add_le_add_right (Nat.add_le_add_left longer _) 1
    obtain ⟨someLeft, taken', left', rfl, isLeft, chainAgain⟩ := parseChain_carries items closes
      enough _ _ (zero_not_mem_right nonzero) reads' trivial
    refine ⟨List.append_ne_nil_of_right_ne_nil _ someLeft, taken ++ taken', left', by simp,
      isLeft, ?_⟩
    obtain ⟨tail, isHead⟩ : ∃ tail, taken' ++ left' = byte :: tail := by
      obtain ⟨head, tail, same⟩ := List.exists_cons_of_ne_nil someLeft
      rw [same] at peeks
      obtain rfl := (peek_cons _ _).unique peeks
      exact ⟨tail, same⟩
    have peeksAgain : (peek (taken' ++ left' ++ extra)).Yields byte := by
      rw [isHead]
      exact peek_cons _ _
    refine (skipsAgain someLeft).bind (peeksAgain.bind ?_)
    rw [if_neg isClosing]
    exact chainAgain

end Chains

section Values

variable {D : Type}

theorem parseMember_carries {value again : Bytes → Scan Fault (CJsonItem D × Bytes)}
    {extra : Bytes} (values : Carries Stops value again beyond extra) :
    Carries Stops (parseMember value) (parseMember again) beyond extra := by
  intro part made nonzero reads stops
  unfold parseMember at reads ⊢
  obtain ⟨⟨string, rest⟩, isString, reads'⟩ := Scan.yields_bind_iff.mp reads
  obtain ⟨behind, skips, reads'⟩ := Scan.yields_bind_iff.mp reads'
  obtain ⟨byte, peeks, reads'⟩ := Scan.yields_bind_iff.mp reads'
  split_ifs at reads' with isColon
  · obtain ⟨first, skipsFirst, reads'⟩ := Scan.yields_bind_iff.mp reads'
    obtain ⟨⟨child, last⟩, isValue, same⟩ := Scan.yields_bind_iff.mp reads'
    obtain rfl := Scan.yields_pure_iff.mp same
    subst isColon
    rcases parseString_inside extra nonzero isString with inside | unclosed
    · obtain ⟨taken, left, rfl, rfl, stringAgain⟩ := inside
      obtain ⟨taken', left', rfl, rfl, skipsAgain⟩ := skip_inside extra skips
      obtain ⟨tail, rfl⟩ := peek_inside peeks (by decide)
      obtain ⟨taken'', left'', rfl, rfl, skipsFirstAgain⟩ := skip_inside extra skipsFirst
      have lastNonzero : (0 : UInt8) ∉ left'' := fun member => nonzero (by simp [member])
      obtain ⟨someLeft, taken3, left3, rfl, isLeft, valueAgain⟩ :=
        values _ _ lastNonzero isValue stops
      refine ⟨by simp, taken ++ (taken' ++ 58 :: (taken'' ++ taken3)), left3, by simp, isLeft, ?_⟩
      refine (stringAgain trivial).bind ((skipsAgain (List.cons_ne_nil _ _)).bind
        ((peek_cons _ _).bind ?_))
      rw [if_pos rfl]
      refine (skipsFirstAgain someLeft).bind (valueAgain.bind ?_)
      exact Scan.yields_pure_iff.mpr rfl
    · obtain ⟨more, rfl⟩ := List.head?_eq_some_iff.mp unclosed
      obtain rfl := Scan.yields_pure_iff.mp skips
      cases (peek_cons _ _).unique peeks
  · exact absurd reads' Scan.not_yields_reject

theorem literal_inside {part literal : Bytes} (nonzero : (0 : UInt8) ∉ literal)
    (starts : (startsWith (part ++ cleared beyond) literal).Yields true) :
    ∃ left, part = literal ++ left := by
  induction literal generalizing part with
  | nil => exact ⟨part, rfl⟩
  | cons first literal ih =>
      obtain ⟨firstNonzero, later⟩ : ¬ 0 = first ∧ (0 : UInt8) ∉ literal := by simpa using nonzero
      cases part with
      | nil =>
          have isZero : (startsWith ([] ++ cleared beyond) (first :: literal)).Yields false :=
            startsWith_other firstNonzero _ _
          cases starts.unique isZero
      | cons byte part =>
          rw [List.cons_append, startsWith] at starts
          split_ifs at starts with same
          · obtain ⟨left, rfl⟩ := ih later starts
            exact ⟨left, by rw [same]; rfl⟩
          · cases Scan.yields_pure_iff.mp starts

variable [DoubleArithmetic D]

/-- The literals, with their items. -/
def literalItems : List (Bytes × CJsonItem D) :=
  [(ascii "null", nullItem), (ascii "false", falseItem), (ascii "true", trueItem)]

theorem parseValue_literal {literal : Bytes} {item : CJsonItem D}
    (member : (literal, item) ∈ literalItems) (steps : Nat) (rest : Bytes) :
    (parseValue (steps + 1) (literal ++ rest)).Yields (item, rest) := by
  have notFalse (rest : Bytes) : (startsWith (ascii "false" ++ rest) (ascii "null")).Yields false :=
    startsWith_other (by decide) _ _
  simp only [literalItems, List.mem_cons, Prod.mk.injEq, List.not_mem_nil, or_false] at member
  rcases member with ⟨rfl, rfl⟩ | ⟨rfl, rfl⟩ | ⟨rfl, rfl⟩
  · rw [parseValue, (startsWith_append _ _).bind_eq, if_pos rfl]
    exact Scan.yields_pure_iff.mpr rfl
  · have notNull : (startsWith (ascii "false" ++ rest) (ascii "null")).Yields false :=
      startsWith_other (by decide) _ _
    rw [parseValue, notNull.bind_eq, if_neg Bool.false_ne_true, (startsWith_append _ _).bind_eq,
      if_pos rfl]
    exact Scan.yields_pure_iff.mpr rfl
  · have notNull : (startsWith (ascii "true" ++ rest) (ascii "null")).Yields false :=
      startsWith_other (by decide) _ _
    have notFalse : (startsWith (ascii "true" ++ rest) (ascii "false")).Yields false :=
      startsWith_other (by decide) _ _
    rw [parseValue, notNull.bind_eq, if_neg Bool.false_ne_true, notFalse.bind_eq,
      if_neg Bool.false_ne_true, (startsWith_append _ _).bind_eq, if_pos rfl]
    exact Scan.yields_pure_iff.mpr rfl

/-- A value that begins like a literal is one. -/
theorem parseValue_letter {steps : Nat} {byte : UInt8} {value : Bytes}
    {made : CJsonItem D × Bytes} (letter : byte ∈ [110, 102, 116])
    (reads : (parseValue (steps + 1) (byte :: value)).Yields made) :
    ∃ literal item, (literal, item) ∈ literalItems (D := D) ∧
      (startsWith (byte :: value) literal).Yields true := by
  unfold parseValue at reads
  obtain ⟨isNull, startsNull, reads⟩ := Scan.yields_bind_iff.mp reads
  split at reads
  · exact ⟨_, nullItem, by simp [literalItems], ‹isNull = true› ▸ startsNull⟩
  obtain ⟨isFalse, startsFalse, reads⟩ := Scan.yields_bind_iff.mp reads
  split at reads
  · exact ⟨_, falseItem, by simp [literalItems], ‹isFalse = true› ▸ startsFalse⟩
  obtain ⟨isTrue, startsTrue, reads⟩ := Scan.yields_bind_iff.mp reads
  split at reads
  · exact ⟨_, trueItem, by simp [literalItems], ‹isTrue = true› ▸ startsTrue⟩
  rw [(peek_cons _ _).bind_eq] at reads
  simp only [List.mem_cons, List.not_mem_nil, or_false] at letter
  rcases letter with rfl | rfl | rfl
  · exact absurd reads Scan.not_yields_reject
  · exact absurd reads Scan.not_yields_reject
  · exact absurd reads Scan.not_yields_reject

/-- An array or an object ends with its bracket, so nothing needs to stand behind
it. -/
theorem brackets_carry {extra : Bytes} {steps more : Nat} {byte : UInt8}
    {part : Bytes} {made : CJsonItem D × Bytes}
    (values : Carries Stops (parseValue (D := D) steps) (parseValue more) beyond extra)
    (opens : byte = 91 ∨ byte = 123) (longer : (cleared beyond).length ≤ extra.length)
    (nonzero : (0 : UInt8) ∉ part)
    (reads : (parseValue (steps + 1) (byte :: part ++ cleared beyond)).Yields made) :
    ∃ taken left, part = taken ++ left ∧ made.2 = left ++ cleared beyond ∧
      (parseValue (more + 1) (byte :: part ++ extra)).Yields (made.1, left ++ extra) := by
  rw [List.cons_append] at reads ⊢
  rcases opens with rfl | rfl
  · rw [parseValue_eq steps (by decide), if_neg (by decide), if_neg (by decide),
      if_pos rfl] at reads
    obtain ⟨child, isChildren, same⟩ := Scan.yields_bind_iff.mp reads
    obtain rfl := Scan.yields_pure_iff.mp same
    obtain ⟨-, taken, left, rfl, isLeft, again⟩ :=
      parseChildren_carries values (by decide) longer _ _ nonzero isChildren trivial
    refine ⟨taken, left, rfl, isLeft, ?_⟩
    rw [parseValue_eq more (by decide), if_neg (by decide), if_neg (by decide), if_pos rfl]
    exact again.bind (Scan.yields_pure_iff.mpr rfl)
  · rw [parseValue_eq steps (by decide), if_neg (by decide), if_neg (by decide),
      if_neg (by decide), if_pos rfl] at reads
    obtain ⟨child, isChildren, same⟩ := Scan.yields_bind_iff.mp reads
    obtain rfl := Scan.yields_pure_iff.mp same
    obtain ⟨-, taken, left, rfl, isLeft, again⟩ := parseChildren_carries
      (parseMember_carries values) (by decide) longer _ _ nonzero isChildren trivial
    refine ⟨taken, left, rfl, isLeft, ?_⟩
    rw [parseValue_eq more (by decide), if_neg (by decide), if_neg (by decide),
      if_neg (by decide), if_pos rfl]
    exact again.bind (Scan.yields_pure_iff.mpr rfl)

/-- A value that the parser reads before the zeros, and that is not at their
edge, is read there as well when more follows. -/
theorem parseValue_carries {extra : Bytes} {steps more : Nat} (enough : steps ≤ more)
    (longer : (cleared beyond).length ≤ extra.length) :
    Carries Stops (parseValue (D := D) steps) (parseValue more) beyond extra := by
  induction steps generalizing more with
  | zero =>
      intro part made _ reads
      exact absurd reads Scan.not_yields_fault
  | succ steps ih =>
      obtain ⟨more, rfl⟩ : ∃ fewer, more = fewer + 1 := ⟨more - 1, by omega⟩
      have values : Carries Stops (parseValue (D := D) steps) (parseValue more) beyond extra :=
        ih (Nat.le_of_succ_le_succ enough)
      intro part made nonzero reads stops
      cases part with
      | nil =>
          rw [List.nil_append, cleared, parseValue_eq steps (by decide)] at reads
          exact absurd reads Scan.not_yields_reject
      | cons byte part =>
          refine ⟨List.cons_ne_nil _ _, ?_⟩
          have partNonzero : (0 : UInt8) ∉ part := fun member =>
            nonzero (List.mem_cons_of_mem _ member)
          by_cases letter : byte ∈ [110, 102, 116]
          · rw [List.cons_append] at reads ⊢
            obtain ⟨literal, item, member, starts⟩ := parseValue_letter letter reads
            have literalNonzero : (0 : UInt8) ∉ literal := by
              simp only [literalItems, List.mem_cons, Prod.mk.injEq, List.not_mem_nil,
                or_false] at member
              rcases member with ⟨rfl, -⟩ | ⟨rfl, -⟩ | ⟨rfl, -⟩ <;> decide
            rw [← List.cons_append] at reads starts ⊢
            obtain ⟨left, same⟩ := literal_inside literalNonzero starts
            rw [same, List.append_assoc] at reads ⊢
            obtain rfl := (parseValue_literal member steps _).unique reads
            exact ⟨literal, left, rfl, rfl, parseValue_literal member more _⟩
          by_cases opens : byte = 91 ∨ byte = 123
          · obtain ⟨taken, left, rfl, isLeft, again⟩ :=
              brackets_carry values opens longer partNonzero reads
            exact ⟨byte :: taken, left, rfl, isLeft, again⟩
          obtain ⟨noArray, noObject⟩ := not_or.mp opens
          rw [List.cons_append, parseValue_eq steps letter] at reads
          rw [List.cons_append, parseValue_eq more letter]
          split_ifs at reads ⊢ with isQuote isNumber
          · obtain ⟨text, isString, same⟩ := Scan.yields_bind_iff.mp reads
            obtain rfl := Scan.yields_pure_iff.mp same
            rw [← List.cons_append] at isString
            rcases parseString_inside extra nonzero isString with inside | unclosed
            · obtain ⟨taken, left, split, isLeft, again⟩ := inside
              exact ⟨taken, left, split, isLeft,
                (again trivial).bind (Scan.yields_pure_iff.mpr rfl)⟩
            · obtain ⟨head, behind, same, headNonzero, -⟩ := stops
              dsimp only at same
              rw [same] at unclosed
              exact absurd (Option.some.inj unclosed) headNonzero
          · obtain ⟨n, isNumber, same⟩ := Scan.yields_bind_iff.mp reads
            obtain rfl := Scan.yields_pure_iff.mp same
            rw [← List.cons_append] at isNumber
            obtain ⟨taken, left, split, isLeft, again⟩ := parseNumber_inside extra isNumber
            dsimp only at stops
            obtain ⟨head, behind, rfl, -, notPoint⟩ := stops_append (isLeft ▸ stops)
            refine ⟨taken, head :: behind, split, isLeft, (again ⟨List.cons_ne_nil _ _, ?_⟩).bind
              (Scan.yields_pure_iff.mpr rfl)⟩
            exact fun isPoint => notPoint (Option.some.inj isPoint)
          · exact absurd reads Scan.not_yields_reject

/-! ### Whole texts -/

/-- The value is written in brackets. -/
def Bracketed : JsonText.Json → Prop
  | .array _ => True
  | .object _ => True
  | _ => False

theorem value_opens {depth : Nat} {text rest : List Char} {json : JsonText.Json}
    (read : JsonText.value depth text = some (json, rest)) (bracketed : Bracketed json) :
    ∃ byte tail, encode text = byte :: tail ∧ (byte = 91 ∨ byte = 123) := by
  cases depth with
  | zero => cases read
  | succ depth =>
      cases text with
      | nil => cases read
      | cons char text =>
          simp only [JsonText.value] at read
          split_ifs at read with isQuote isObject isArray
          · obtain ⟨made, -, same⟩ := Option.map_eq_some_iff.mp read
            obtain ⟨rfl, -⟩ := Prod.mk.inj same
            exact bracketed.elim
          · rw [isObject, encode_ascii (by decide)]
            exact ⟨_, _, rfl, .inr rfl⟩
          · rw [isArray, encode_ascii (by decide)]
            exact ⟨_, _, rfl, .inl rfl⟩
          · rcases Option.or_eq_some_iff.mp read with isLiteral | ⟨-, isNumber⟩
            · obtain ⟨word, member, -⟩ := literal_eq_some isLiteral
              simp only [JsonText.literals, List.mem_cons, List.not_mem_nil, or_false,
                Prod.mk.injEq] at member
              rcases member with ⟨-, rfl⟩ | ⟨-, rfl⟩ | ⟨-, rfl⟩
              · exact bracketed.elim
              · exact bracketed.elim
              · exact bracketed.elim
            · obtain ⟨number, -, same⟩ := Option.map_eq_some_iff.mp isNumber
              obtain ⟨rfl, -⟩ := Prod.mk.inj same
              exact bracketed.elim

theorem blanks_small {text : List Char} (blank : JsonText.skipBlanks text = []) {byte : UInt8}
    (member : byte ∈ encode text) : byte ≤ 32 := by
  induction text with
  | nil => cases member
  | cons char text ih =>
      rcases skipBlanks_cases char text with ⟨isBlank, same⟩ | ⟨-, same⟩
      · obtain ⟨small, -, isByte⟩ := blank_byte isBlank
        rw [encode_ascii small] at member
        rcases List.mem_cons.mp member with rfl | later
        · exact isByte
        · exact ih (same ▸ blank) later
      · rw [same] at blank
        cases blank

/-- A text in brackets stands between blanks, and the parser reads up to the
closing bracket. -/
theorem brackets_stand (exact : ExactIntegers D) {text : Bytes} {json : JsonText.Json}
    (parses : JsonText.parse text = some json) (ordinary : JsonText.Ordinary json)
    (bracketed : Bracketed json) :
    ∃ byte tail behind, (byte = 91 ∨ byte = 123) ∧ (∀ blank ∈ behind, blank ≤ 32) ∧
      ∀ memory, (skip (text ++ memory)).Yields (byte :: tail ++ memory) ∧
        ∀ steps, (byte :: tail).length < steps →
          ∃ item : CJsonItem D, (parseValue steps (byte :: tail ++ memory)).Yields
            (item, behind ++ memory) ∧ StandsFor item json := by
  obtain ⟨chars, decoded, parsed⟩ := Option.bind_eq_some_iff.mp parses
  obtain rfl := decode_eq_some_iff.mp decoded
  unfold JsonText.parseText at parsed
  simp only [Option.bind_eq_bind, Option.bind_eq_some_iff, Prod.exists] at parsed
  obtain ⟨read, rest, isValue, parsed⟩ := parsed
  split_ifs at parsed with blank
  obtain rfl := Option.some.inj parsed
  obtain ⟨head, others, begins, visible⟩ := value_starts isValue
  rw [begins] at isValue
  obtain ⟨byte, tail, encoded, opens⟩ := value_opens isValue bracketed
  refine ⟨byte, tail, encode rest, opens, fun _ member => blanks_small blank member, ?_⟩
  intro memory
  rw [← encoded]
  refine ⟨skip_blanks visible begins memory, fun steps enough => ?_⟩
  have longer := length_le_encode (head :: others)
  have noNumber : (∃ digits, read = .number digits) → Delimited (encode rest ++ memory) := by
    rintro ⟨digits, rfl⟩
    exact bracketed.elim
  exact (value_reads exact (Nat.lt_of_le_of_lt longer enough) isValue ordinary noNumber).2

theorem cJsonParse_eq_some_iff {memory : Bytes} {item : CJsonItem D} :
    cJsonParse D memory = .ok (some item) ↔
      ∃ value rest, (skip memory).Yields value ∧
        (parseValue (value.length + 1) value).Yields (item, rest) := by
  change Scan.Yields (skip memory >>= fun value =>
      parseValue (D := D) (value.length + 1) value >>= fun made =>
        (pure made.1 : Scan Fault (CJsonItem D))) item ↔ _
  rw [Scan.yields_bind_iff]
  constructor
  · rintro ⟨value, skips, reads⟩
    obtain ⟨⟨made, rest⟩, isValue, same⟩ := Scan.yields_bind_iff.mp reads
    obtain rfl := Scan.yields_pure_iff.mp same
    exact ⟨value, rest, skips, isValue⟩
  · rintro ⟨value, rest, skips, isValue⟩
    exact ⟨value, skips, isValue.bind (Scan.yields_pure_iff.mpr rfl)⟩

/-- A text in brackets has the same tree whatever stands behind it. -/
theorem cJsonParse_same (exact : ExactIntegers D) {text : Bytes} {json : JsonText.Json}
    (parses : JsonText.parse text = some json) (ordinary : JsonText.Ordinary json)
    (bracketed : Bracketed json) (nonzero : (0 : UInt8) ∉ text) :
    ∃ item, Represents item.toCJson json.toValue ∧
      ∀ memory, 2 ≤ memory.length → cJsonParse D (text ++ memory) = .ok (some item) := by
  obtain ⟨byte, tail, behind, opens, -, stands⟩ := brackets_stand exact parses ordinary bracketed
  obtain ⟨item, reads, -, represents⟩ :=
    (stands (cleared [])).2 _ (Nat.lt_succ_self (byte :: tail).length)
  refine ⟨item, represents, fun memory longer => ?_⟩
  have skips := (stands memory).1
  have enough : (byte :: tail).length ≤ (byte :: tail ++ memory).length := by simp
  have tailNonzero : (0 : UInt8) ∉ tail := by
    intro member
    have isSuffix := skip_suffix (stands []).1
    rw [List.append_nil, List.append_nil] at isSuffix
    exact nonzero (isSuffix.subset (List.mem_cons_of_mem _ member))
  have fits : (cleared []).length ≤ memory.length := longer
  obtain ⟨taken, left, -, -, again⟩ := brackets_carry (parseValue_carries enough fits) opens
    fits tailNonzero reads
  exact cJsonParse_eq_some_iff.mpr ⟨_, _, skips, again⟩

/-- No part of a text in brackets is read that leaves out more than blanks. -/
theorem cJsonParse_cut (exact : ExactIntegers D) {part suffix : Bytes} {json : JsonText.Json}
    (parses : JsonText.parse (part ++ suffix) = some json) (ordinary : JsonText.Ordinary json)
    (bracketed : Bracketed json) (nonzero : (0 : UInt8) ∉ part)
    (needed : ∃ byte ∈ suffix, 32 < byte) (beyond : Bytes) :
    cJsonParse D (part ++ cleared beyond) = .ok none := by
  obtain ⟨result, returns⟩ := cJsonParse_returns (D := D) (terminated_cleared nonzero)
  cases result with
  | none => exact returns
  | some item =>
      exfalso
      obtain ⟨value, rest, skips, reads⟩ := cJsonParse_eq_some_iff.mp returns
      obtain ⟨byte, tail, behind, opens, small, stands⟩ :=
        brackets_stand exact parses ordinary bracketed
      obtain ⟨taken, left, rfl, rfl, skipsAgain⟩ := skip_inside (suffix ++ cleared beyond) skips
      cases left with
      | nil =>
          rw [List.nil_append, cleared, List.length_cons, parseValue_eq _ (by decide)] at reads
          exact absurd reads Scan.not_yields_reject
      | cons head left =>
          have first := (stands (cleared beyond)).1
          rw [List.append_assoc _ suffix] at first
          have same := (skipsAgain (List.cons_ne_nil _ _)).unique first
          rw [← List.append_assoc] at same
          obtain ⟨rfl, rfl⟩ := List.cons.inj (List.append_cancel_right same)
          have leftNonzero : (0 : UInt8) ∉ left := fun member => nonzero (by simp [member])
          have longer : (cleared beyond).length ≤ (suffix ++ cleared beyond).length := by simp
          have enough : (head :: left ++ cleared beyond).length ≤
              (head :: (left ++ suffix) ++ cleared beyond).length := by simp
          obtain ⟨taken', left', -, -, again⟩ := brackets_carry
            (parseValue_carries enough longer) opens longer leftNonzero reads
          obtain ⟨item', whole, -⟩ := (stands (cleared beyond)).2
            ((head :: (left ++ suffix) ++ cleared beyond).length + 1) (by simp)
          have shifted : head :: left ++ (suffix ++ cleared beyond) =
              head :: (left ++ suffix) ++ cleared beyond := by simp
          rw [shifted] at again
          have ends : left' ++ (suffix ++ cleared beyond) = behind ++ cleared beyond :=
            (Prod.mk.inj (again.unique whole)).2
          have isBehind : left' ++ suffix = behind := by
            rw [← List.append_assoc] at ends
            exact List.append_cancel_right ends
          obtain ⟨byte, member, shows⟩ := needed
          have isBlank := small byte (isBehind ▸ List.mem_append_right _ member)
          exact absurd shows (UInt8.not_lt.mpr isBlank)

end Values

/-- An object in an object, of which only blanks can be spared. -/
def nestedText : Bytes × Bytes :=
  (ascii "\x7b\"a\":[1,\x7b\x7d] ", ascii "\x7d ")

theorem cJsonParse_cut_nested :
    cJsonParse ℚ (nestedText.1 ++ cleared [7]) = .ok none := by
  have parses : JsonText.parse (nestedText.1 ++ nestedText.2) =
      some (.object [("a".toList, .array [.number "1".toList, .object []])]) := by
    have decoded : decode (nestedText.1 ++ nestedText.2) =
        some "\x7b\"a\":[1,\x7b\x7d] \x7d ".toList :=
      decode_eq_some_iff.mpr (by decide +kernel)
    rw [JsonText.parse, decoded]
    rfl
  have ordinary : JsonText.Ordinary
      (.object [("a".toList, .array [.number "1".toList, .object []])]) := by
    refine .object (by decide) ?_
    simp only [List.forall_mem_cons]
    refine ⟨.array ?_, List.forall_mem_nil _⟩
    simp only [List.forall_mem_cons]
    exact ⟨.number fun _ _ _ _ => by decide +kernel,
      .object (List.forall_mem_nil _) (List.forall_mem_nil _), List.forall_mem_nil _⟩
  exact cJsonParse_cut exactIntegers_rational parses ordinary trivial (by decide +kernel)
    ⟨125, by decide +kernel, by decide⟩ [7]

end CJsonParser

open CJsonParser

section Messages

variable {D : Type} [DoubleArithmetic D]

/-- The parser of the program takes a message from the front of its buffer, and
nothing from a part of it, as long as another zero follows in the buffer. -/
theorem ServerMessage.carriesResponse (exact : ExactIntegers D) (nullText behind : Bytes)
    {text : Bytes} {response : Response} (message : ServerMessage text response)
    (closed : text.getLast? = some 125) :
    CarriesResponse nullText (cjsonRead D (0 :: behind)) text response where
  nonzero := message.nonzero
  read := by
    obtain ⟨item, represents, reads⟩ :=
      cJsonParse_same exact message.parses message.ordinary trivial message.nonzero
    refine ⟨item.toCJson, ⟨fun rest => ?_, fun part isPart shorter => ?_⟩,
      message.readResponse represents nullText⟩
    · rw [cjsonRead, List.append_assoc, reads _ (by simp; omega)]
    · obtain ⟨suffix, rfl⟩ := isPart
      have partNonzero : (0 : UInt8) ∉ part := fun member =>
        message.nonzero (List.mem_append_left _ member)
      have someLeft : suffix ≠ [] := by
        rintro rfl
        exact shorter (List.append_nil part).symm
      have needed : ∃ byte ∈ suffix, 32 < byte := by
        rw [List.getLast?_append_of_ne_nil _ someLeft] at closed
        exact ⟨125, List.mem_of_getLast? closed, by decide⟩
      have cut := cJsonParse_cut exact message.parses message.ordinary trivial partNonzero
        needed behind
      rw [cjsonRead, show part ++ 0 :: 0 :: behind = part ++ cleared behind from rfl, cut]

theorem ServerMessage.carriesResponse_uid :
    CarriesResponse [] (cjsonRead ℚ [0]) (ascii uidText) uidResponse :=
  uidMessage.carriesResponse exactIntegers_rational [] [] (by decide +kernel)

end Messages

end OnlineProgram
