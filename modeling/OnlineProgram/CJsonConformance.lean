import OnlineProgram.CJsonNumbers

/-!
# The parser reads JSON

Every JSON text is read, and its tree stands for its value, as long as the value
is one that a C program can hold.  The induction is on the depth at which the
strict parser reads the text; in each of its productions the parser of
`cJSON.cpp` leaves its pointer where the strict one does.
-/

namespace OnlineProgram

open ByteStrings CMemory Utf8Text

namespace CJsonParser

/-! ### Blanks -/

/-- A character of ASCII that shows. -/
def Visible (char : Char) : Prop :=
  32 < char.toNat ∧ char.toNat < 128

theorem skip_visible {char : Char} (visible : Visible char) (rest : List Char) (memory : Bytes) :
    (skip (encode (char :: rest) ++ memory)).Yields (encode (char :: rest) ++ memory) := by
  have code : char.toNat.toUInt8.toNat = char.toNat := by
    have small := visible.2
    rw [Nat.toUInt8, UInt8.toNat_ofNat', Nat.mod_eq_of_lt (by omega)]
  have shows : ¬ (char.toNat.toUInt8 ≠ 0 ∧ char.toNat.toUInt8 ≤ 32) := by
    rintro ⟨-, isBlank⟩
    rw [UInt8.le_iff_toNat_le, code] at isBlank
    exact absurd isBlank (Nat.not_le.mpr visible.1)
  rw [encode_ascii visible.2, List.cons_append, skip, if_neg shows]
  exact Scan.yields_pure_iff.mpr rfl

theorem skipBlanks_cases (char : Char) (text : List Char) :
    char ∈ [' ', '\t', '\n', '\r'] ∧
        JsonText.skipBlanks (char :: text) = JsonText.skipBlanks text ∨
      char ∉ [' ', '\t', '\n', '\r'] ∧ JsonText.skipBlanks (char :: text) = char :: text := by
  unfold JsonText.skipBlanks
  rw [List.dropWhile_cons]
  by_cases isBlank : char ∈ [' ', '\t', '\n', '\r']
  · rw [if_pos (List.contains_iff_mem.mpr isBlank)]
    exact .inl ⟨isBlank, rfl⟩
  · rw [if_neg (by rwa [List.contains_iff_mem])]
    exact .inr ⟨isBlank, rfl⟩

theorem blank_byte {char : Char} (isBlank : char ∈ [' ', '\t', '\n', '\r']) :
    char.toNat < 128 ∧ char.toNat.toUInt8 ≠ 0 ∧ char.toNat.toUInt8 ≤ 32 := by
  simp only [List.mem_cons, List.not_mem_nil, or_false] at isBlank
  rcases isBlank with rfl | rfl | rfl | rfl <;> decide

theorem skip_blanks {text rest : List Char} {char : Char} (visible : Visible char)
    (skips : JsonText.skipBlanks text = char :: rest) (memory : Bytes) :
    (skip (encode text ++ memory)).Yields (encode (char :: rest) ++ memory) := by
  induction text with
  | nil => cases skips
  | cons head text ih =>
      rcases skipBlanks_cases head text with ⟨isBlank, same⟩ | ⟨-, same⟩
      · rw [same] at skips
        obtain ⟨small, isByte⟩ := blank_byte isBlank
        rw [encode_ascii small, List.cons_append, skip, if_pos isByte]
        exact ih skips
      · rw [same] at skips
        rw [skips]
        exact skip_visible visible rest memory

theorem skipBlanks_visible {char : Char} (visible : Visible char) (text : List Char) :
    JsonText.skipBlanks (char :: text) = char :: text := by
  rcases skipBlanks_cases char text with ⟨isBlank, -⟩ | ⟨-, same⟩
  · simp only [List.mem_cons, List.not_mem_nil, or_false] at isBlank
    have shows := visible.1
    rcases isBlank with rfl | rfl | rfl | rfl <;> exact absurd shows (by decide)
  · exact same

theorem skipBlanks_length (text : List Char) :
    (JsonText.skipBlanks text).length ≤ text.length :=
  List.length_dropWhile_le ..

theorem toUInt8_inj {first second : Char} (firstSmall : first.toNat < 128)
    (secondSmall : second.toNat < 128) (same : first.toNat.toUInt8 = second.toNat.toUInt8) :
    first = second := by
  have bytes := congrArg UInt8.toNat same
  simp only [Nat.toUInt8, UInt8.toNat_ofNat'] at bytes
  have codes : first.toNat = second.toNat := by omega
  rw [← Char.ofNat_toNat first, ← Char.ofNat_toNat second, codes]

theorem length_le_encode (text : List Char) : text.length ≤ (encode text).length := by
  induction text with
  | nil => exact Nat.le_refl _
  | cons char text ih =>
      have positive := List.length_pos_of_ne_nil (String.utf8EncodeChar_ne_nil (c := char))
      rw [encode_cons, List.length_append, List.length_cons]
      omega

/-- A comma or a bracket ends what stands before it. -/
def Closes (char : Char) : Prop :=
  char = ',' ∨ char = ']' ∨ char = '\x7d'

theorem Closes.visible {char : Char} (closes : Closes char) : Visible char := by
  rcases closes with rfl | rfl | rfl <;> exact ⟨by decide, by decide⟩

theorem Closes.delimited {char : Char} (closes : Closes char) {text rest : List Char}
    (skips : JsonText.skipBlanks text = char :: rest) (memory : Bytes) :
    Delimited (encode text ++ memory) := by
  cases text with
  | nil => cases skips
  | cons head text =>
      rcases skipBlanks_cases head text with ⟨isBlank, -⟩ | ⟨-, same⟩
      · obtain ⟨small, -, isByte⟩ := blank_byte isBlank
        rw [encode_ascii small, List.cons_append]
        exact .blank _ isByte
      · rw [same] at skips
        obtain ⟨rfl, rfl⟩ := List.cons.inj skips
        rcases closes with rfl | rfl | rfl
        · rw [encode_ascii (by decide)]
          exact .comma _
        · rw [encode_ascii (by decide)]
          exact .bracket _
        · rw [encode_ascii (by decide)]
          exact .brace _

/-! ### Chains -/

section Chains

variable {α β : Type} {item : List Char → Option (α × List Char)}
  {plainItem : Bytes → Scan Fault (β × Bytes)} {relates : β → α → Prop} {fine : α → Prop}
  {closing : Char} {bound : Nat} {memory : Bytes}

/-- An item of a text that is not too long is read where a delimiter follows. -/
def ReadsItems (item : List Char → Option (α × List Char))
    (plainItem : Bytes → Scan Fault (β × Bytes)) (relates : β → α → Prop) (fine : α → Prop)
    (bound : Nat) (memory : Bytes) : Prop :=
  ∀ ⦃text value rest⦄, item text = some (value, rest) → text.length ≤ bound → fine value →
    Delimited (encode rest ++ memory) →
    rest.length < text.length ∧
      ∃ made, (plainItem (encode text ++ memory)).Yields (made, encode rest ++ memory) ∧
        relates made value

/-- Where the next character shows, a scan that skips and peeks meets it. -/
theorem skip_peek {text rest : List Char} {char : Char} (visible : Visible char)
    (skips : JsonText.skipBlanks text = char :: rest) (memory : Bytes) :
    (skip (encode text ++ memory)).Yields (char.toNat.toUInt8 :: (encode rest ++ memory)) := by
  have met := skip_blanks visible skips memory
  rw [encode_ascii visible.2, List.cons_append] at met
  exact met

theorem separated_reads (reads : ReadsItems item plainItem relates fine bound memory)
    (starts : ∀ text made, item text = some made → ∃ char rest, text = char :: rest ∧ Visible char)
    (closes : Closes closing) (notComma : closing.toNat.toUInt8 ≠ 44) {steps more : Nat}
    (enough : steps ≤ more) {text rest : List Char} (short : text.length ≤ bound)
    {values : List α}
    (read : JsonText.separated item closing steps (JsonText.skipBlanks text) = some (values, rest))
    (all : ∀ value ∈ values, fine value) :
    rest.length ≤ text.length ∧
      ∃ made, (parseChain plainItem closing.toNat.toUInt8 more (encode text ++ memory)).Yields
        (made, encode rest ++ memory) ∧ List.Forall₂ relates made values := by
  induction steps generalizing more text values with
  | zero => cases read
  | succ steps ih =>
      obtain ⟨more, rfl⟩ : ∃ fewer, more = fewer + 1 := ⟨more - 1, by omega⟩
      simp only [JsonText.separated, Option.bind_eq_bind, Option.bind_eq_some_iff,
        Prod.exists] at read
      obtain ⟨first, behind, isFirst, read⟩ := read
      obtain ⟨head, tail, begins, headVisible⟩ := starts _ _ isFirst
      have skipped := skip_blanks headVisible begins memory
      have fewer := skipBlanks_length text
      rw [begins] at isFirst fewer
      have behindFewer := skipBlanks_length behind
      cases blanks : JsonText.skipBlanks behind with
      | nil => simp [blanks] at read
      | cons char after =>
          simp only [blanks] at read
          split_ifs at read with isComma isClosing
          · obtain rfl := isComma
            simp only [Option.bind_eq_some_iff, Prod.exists] at read
            obtain ⟨others, rest, later, same⟩ := read
            obtain ⟨rfl, rfl⟩ := Prod.mk.inj (Option.some.inj same)
            have comma : Closes ',' := .inl rfl
            obtain ⟨shorter, made, yields, related⟩ := reads isFirst (Nat.le_trans fewer short)
              (all first (by simp)) (comma.delimited blanks memory)
            rw [blanks, List.length_cons] at behindFewer
            obtain ⟨shortest, madeOthers, yieldsOthers, relatedOthers⟩ :=
              ih (Nat.le_of_succ_le_succ enough) (by omega) later
                fun value member => all value (by simp [member])
            refine ⟨by omega, made :: madeOthers, ?_, .cons related relatedOthers⟩
            rw [parseChain, skipped.bind_eq, yields.bind_eq]
            dsimp only
            rw [(skip_peek comma.visible blanks memory).bind_eq, (peek_cons _ _).bind_eq,
              if_pos (by decide), List.drop_succ_cons, List.drop_zero, yieldsOthers.bind_eq]
            exact Scan.yields_pure_iff.mpr rfl
          · obtain rfl := isClosing
            obtain ⟨rfl, rfl⟩ := Prod.mk.inj (Option.some.inj read)
            obtain ⟨shorter, made, yields, related⟩ := reads isFirst (Nat.le_trans fewer short)
              (all first (by simp)) (closes.delimited blanks memory)
            rw [blanks, List.length_cons] at behindFewer
            refine ⟨by omega, [made], ?_, .cons related .nil⟩
            rw [parseChain, skipped.bind_eq, yields.bind_eq]
            dsimp only
            rw [(skip_peek closes.visible blanks memory).bind_eq, (peek_cons _ _).bind_eq,
              if_neg notComma, if_pos rfl, List.drop_succ_cons, List.drop_zero]
            exact Scan.yields_pure_iff.mpr rfl

/-- What stands behind an opening bracket is read to the closing one. -/
theorem bracketed_reads (reads : ReadsItems item plainItem relates fine bound memory)
    (starts : ∀ text made, item text = some made → ∃ char rest, text = char :: rest ∧ Visible char)
    (closes : Closes closing) (notComma : closing.toNat.toUInt8 ≠ 44) {text rest : List Char}
    (short : text.length ≤ bound) {values : List α}
    (read : JsonText.bracketed item closing text = some (values, rest))
    (all : ∀ value ∈ values, fine value) :
    rest.length ≤ text.length ∧
      ∃ made, (parseChildren plainItem closing.toNat.toUInt8 (encode text ++ memory)).Yields
        (made, encode rest ++ memory) ∧ List.Forall₂ relates made values := by
  unfold JsonText.bracketed at read
  have fewer := skipBlanks_length text
  cases blanks : JsonText.skipBlanks text with
  | nil => simp [blanks] at read
  | cons char after =>
      simp only [blanks] at read
      split_ifs at read with isClosing
      · obtain rfl := isClosing
        obtain ⟨rfl, rfl⟩ := Prod.mk.inj (Option.some.inj read)
        rw [blanks, List.length_cons] at fewer
        refine ⟨by omega, [], ?_, .nil⟩
        rw [parseChildren, (skip_peek closes.visible blanks memory).bind_eq,
          (peek_cons _ _).bind_eq, if_pos rfl]
        exact Scan.yields_pure_iff.mpr rfl
      · obtain ⟨visible, different⟩ :
            Visible char ∧ char.toNat.toUInt8 ≠ closing.toNat.toUInt8 := by
          simp only [List.length_cons, JsonText.separated, Option.bind_eq_bind,
            Option.bind_eq_some_iff, Prod.exists] at read
          obtain ⟨first, behind, isFirst, -⟩ := read
          obtain ⟨head, tail, same, headVisible⟩ := starts _ _ isFirst
          obtain ⟨rfl, rfl⟩ := List.cons.inj same
          exact ⟨headVisible, fun same =>
            isClosing (toUInt8_inj headVisible.2 closes.visible.2 same)⟩
        have met := skip_blanks visible blanks memory
        have again : JsonText.separated item closing (char :: after).length
            (JsonText.skipBlanks (char :: after)) = some (values, rest) := by
          rw [skipBlanks_visible visible]
          exact read
        have longer := length_le_encode (char :: after)
        have enough : (char :: after).length ≤ (encode (char :: after) ++ memory).length + 1 := by
          rw [List.length_append]
          omega
        rw [blanks] at fewer
        obtain ⟨shorter, made, yields, related⟩ := separated_reads reads starts closes notComma
          enough (Nat.le_trans fewer short) again all
        refine ⟨Nat.le_trans shorter fewer, made, ?_, related⟩
        have peeks : (peek (encode (char :: after) ++ memory)).Yields char.toNat.toUInt8 := by
          rw [encode_ascii visible.2]
          exact peek_cons _ _
        rw [parseChildren, met.bind_eq, peeks.bind_eq, if_neg different]
        exact yields

end Chains

/-! ### Values -/

section Values

variable {D : Type}

@[simp]
theorem toCJson_string (item : CJsonItem D) : item.toCJson.string = item.string := by
  cases item
  rfl

/-- An item stands for the same value under any name. -/
theorem represents_named {item : CJsonItem D} {value : JsonValue} (string : Option Bytes)
    (represents : Represents item.toCJson value) :
    Represents ({ item with string } : CJsonItem D).toCJson value := by
  cases item with
  | mk child type valuestring valueint valuedouble name =>
      rw [CJsonItem.toCJson] at represents ⊢
      cases represents with
      | null noString leaf => exact .null noString leaf
      | bool value noString leaf => exact .bool value noString leaf
      | number noString leaf rounds => exact .number noString leaf rounds
      | string isString nonzero leaf => exact .string isString nonzero leaf
      | array noString unnamed children => exact .array noString unnamed children
      | object noString names children => exact .object noString names children

/-- An element of an array, which has no name. -/
def StandsFor (item : CJsonItem D) (json : JsonText.Json) : Prop :=
  item.string = none ∧ Represents item.toCJson json.toValue

/-- A member of an object. -/
def StandsForMember (item : CJsonItem D) (entry : List Char × JsonText.Json) : Prop :=
  item.string = some (encode entry.1) ∧ Represents item.toCJson entry.2.toValue

theorem standsFor_children {items : List (CJsonItem D)} {values : List JsonText.Json}
    (children : List.Forall₂ StandsFor items values) :
    (∀ item ∈ CJsonItem.toCJsons items, item.string = none) ∧
      List.Forall₂ Represents (CJsonItem.toCJsons items) (JsonText.Json.toValues values) := by
  induction children with
  | nil => exact ⟨nofun, .nil⟩
  | @cons item value items values child children ih =>
      refine ⟨?_, .cons child.2 ih.2⟩
      intro other member
      rcases List.mem_cons.mp member with rfl | later
      · rw [toCJson_string]
        exact child.1
      · exact ih.1 other later

theorem standsFor_members {items : List (CJsonItem D)}
    {members : List (List Char × JsonText.Json)}
    (children : List.Forall₂ StandsForMember items members) :
    (CJsonItem.toCJsons items).map CJson.string =
        (JsonText.Json.toMembers members).map (fun entry => some entry.1) ∧
      List.Forall₂ Represents (CJsonItem.toCJsons items)
        ((JsonText.Json.toMembers members).map Prod.snd) := by
  induction children with
  | nil => exact ⟨rfl, .nil⟩
  | @cons item entry items members child children ih =>
      refine ⟨?_, .cons child.2 ih.2⟩
      rw [CJsonItem.toCJsons, List.map_cons, ih.1, toCJson_string, child.1]
      rfl

theorem startsWith_other {byte first : UInt8} (different : byte ≠ first) (rest literal : Bytes) :
    (startsWith (byte :: rest) (first :: literal)).Yields false := by
  rw [startsWith, if_neg different]
  exact Scan.yields_pure_iff.mpr rfl

theorem startsWith_append (literal rest : Bytes) :
    (startsWith (literal ++ rest) literal).Yields true := by
  induction literal with
  | nil =>
      unfold startsWith
      exact Scan.yields_pure_iff.mpr rfl
  | cons byte literal ih =>
      rw [List.cons_append, startsWith, if_pos rfl]
      exact ih

theorem number_starts {char : Char} {rest : List Char} {made : List Char × List Char}
    (read : JsonText.number (char :: rest) = some made) : char = '-' ∨ char.isDigit = true := by
  by_cases minus : char = '-'
  · exact .inl minus
  right
  have unsigned : JsonText.sign ['-'] (char :: rest) = ([], char :: rest) := by
    simp [JsonText.sign, minus]
  unfold JsonText.number at read
  rw [unsigned] at read
  simp only [Option.bind_eq_bind, Option.bind_eq_some_iff, Prod.exists] at read
  obtain ⟨whole, behind, isWhole, -⟩ := read
  simp only [JsonText.integer] at isWhole
  split_ifs at isWhole with isZero
  · rw [isZero]
    rfl
  · obtain ⟨split, ⟨first, others, rfl⟩, all⟩ := digits_eq_some isWhole
    obtain ⟨rfl, -⟩ := List.cons.inj split
    exact all char (by simp)

theorem eq_append_of_isPrefixOf? {word text rest : List Char}
    (split : word.isPrefixOf? text = some rest) : text = word ++ rest := by
  induction word generalizing text with
  | nil => exact Option.some.inj split
  | cons char word ih =>
      cases text with
      | nil => cases split
      | cons head text =>
          simp only [List.isPrefixOf?] at split
          split_ifs at split with same
          rw [ih split, beq_iff_eq.mp same]
          rfl

theorem literal_eq_some {text rest : List Char} {json : JsonText.Json}
    (read : JsonText.literal text = some (json, rest)) :
    ∃ word, (word, json) ∈ JsonText.literals ∧ text = word ++ rest := by
  obtain ⟨entry, member, found⟩ := List.exists_of_findSome?_eq_some read
  obtain ⟨behind, isPrefix, same⟩ := Option.map_eq_some_iff.mp found
  obtain ⟨rfl, rfl⟩ := Prod.mk.inj same
  exact ⟨entry.1, member, eq_append_of_isPrefixOf? isPrefix⟩

theorem value_starts {depth : Nat} {text : List Char} {made : JsonText.Json × List Char}
    (read : JsonText.value depth text = some made) :
    ∃ char rest, text = char :: rest ∧ Visible char := by
  cases depth with
  | zero => cases read
  | succ depth =>
      cases text with
      | nil => cases read
      | cons char rest =>
          refine ⟨char, rest, rfl, ?_⟩
          simp only [JsonText.value] at read
          split_ifs at read with isQuote isObject isArray
          · rw [isQuote]
            exact ⟨by decide, by decide⟩
          · rw [isObject]
            exact ⟨by decide, by decide⟩
          · rw [isArray]
            exact ⟨by decide, by decide⟩
          · rcases Option.or_eq_some_iff.mp read with isLiteral | ⟨-, isNumber⟩
            · have isWord : JsonText.literal (char :: rest) = some (made.1, made.2) := isLiteral
              obtain ⟨word, member, split⟩ := literal_eq_some isWord
              have every : ∀ entry ∈ JsonText.literals, ∃ head tail, entry.1 = head :: tail ∧
                  32 < head.toNat ∧ head.toNat < 128 := by
                simp [JsonText.literals]
              obtain ⟨head, tail, rfl, visible⟩ : ∃ head tail, word = head :: tail ∧
                  32 < head.toNat ∧ head.toNat < 128 := every _ member
              rw [(List.cons.inj split).1]
              exact visible
            · obtain ⟨number, isNumber, -⟩ := Option.map_eq_some_iff.mp isNumber
              rcases number_starts isNumber with rfl | digit
              · exact ⟨by decide, by decide⟩
              · obtain ⟨above, below⟩ := Char.isDigit_iff_toNat.mp digit
                exact ⟨Nat.lt_of_lt_of_le (by decide) above, Nat.lt_of_le_of_lt below (by decide)⟩

theorem member_starts {value : List Char → Option (JsonText.Json × List Char)} {text : List Char}
    {made : (List Char × JsonText.Json) × List Char}
    (read : JsonText.member value text = some made) :
    ∃ char rest, text = char :: rest ∧ Visible char := by
  simp only [JsonText.member, Option.bind_eq_bind, Option.bind_eq_some_iff, Prod.exists] at read
  obtain ⟨name, behind, isName, -⟩ := read
  cases text with
  | nil => cases isName
  | cons char rest =>
      rw [JsonText.string] at isName
      split_ifs at isName with isQuote
      refine ⟨char, rest, rfl, ?_⟩
      rw [isQuote]
      exact ⟨by decide, by decide⟩

theorem stringBody_length {steps : Nat} {text content rest : List Char}
    (scanned : JsonText.stringBody steps text = some (content, rest)) :
    rest.length < text.length := by
  induction steps generalizing text content with
  | zero => cases scanned
  | succ steps ih =>
      cases text with
      | nil => cases scanned
      | cons char text =>
          by_cases isQuote : char = JsonText.quote
          · rw [JsonText.stringBody, if_pos isQuote] at scanned
            obtain ⟨-, rfl⟩ := Prod.mk.inj (Option.some.inj scanned)
            exact Nat.lt_succ_self _
          · obtain ⟨read, behind, others, isRead, later, -⟩ :=
              JsonText.stringBody_cons isQuote scanned
            have shorter := ih later
            rcases JsonText.character_consumes isRead with ⟨-, same⟩ | ⟨raw, -, same, -⟩
            · rw [same, List.length_cons]
              omega
            · rw [same, List.length_cons, List.length_append]
              omega

theorem string_length {text content rest : List Char}
    (read : JsonText.string text = some (content, rest)) : rest.length < text.length := by
  cases text with
  | nil => cases read
  | cons char text =>
      rw [JsonText.string] at read
      split_ifs at read
      exact Nat.lt_succ_of_lt (stringBody_length read)

theorem digits_length {text digits rest : List Char}
    (read : JsonText.digits text = some (digits, rest)) : rest.length < text.length := by
  obtain ⟨rfl, ⟨first, others, rfl⟩, -⟩ := digits_eq_some read
  simp

theorem sign_length (signs text : List Char) :
    (JsonText.sign signs text).2.length ≤ text.length := by
  cases text with
  | nil => exact Nat.le_refl _
  | cons char text =>
      rw [JsonText.sign]
      split_ifs
      · exact Nat.le_succ _
      · exact Nat.le_refl _

theorem integer_length {text whole rest : List Char}
    (read : JsonText.integer text = some (whole, rest)) : rest.length < text.length := by
  cases text with
  | nil => cases read
  | cons char text =>
      simp only [JsonText.integer] at read
      split_ifs at read
      · obtain ⟨-, rfl⟩ := Prod.mk.inj (Option.some.inj read)
        exact Nat.lt_succ_self _
      · exact digits_length read

theorem fraction_length {text part rest : List Char}
    (read : JsonText.fraction text = some (part, rest)) : rest.length ≤ text.length := by
  cases text with
  | nil => exact (Prod.mk.inj (Option.some.inj read)).2 ▸ Nat.le_refl _
  | cons char text =>
      simp only [JsonText.fraction] at read
      split_ifs at read
      · obtain ⟨⟨digits, behind⟩, isDigits, same⟩ := Option.map_eq_some_iff.mp read
        obtain ⟨-, rfl⟩ := Prod.mk.inj same
        exact Nat.le_succ_of_le (Nat.le_of_lt (digits_length isDigits))
      · exact (Prod.mk.inj (Option.some.inj read)).2 ▸ Nat.le_refl _

theorem exponent_length {text power rest : List Char}
    (read : JsonText.exponent text = some (power, rest)) : rest.length ≤ text.length := by
  cases text with
  | nil => exact (Prod.mk.inj (Option.some.inj read)).2 ▸ Nat.le_refl _
  | cons char text =>
      simp only [JsonText.exponent] at read
      split_ifs at read
      · obtain ⟨⟨digits, behind⟩, isDigits, same⟩ := Option.map_eq_some_iff.mp read
        obtain ⟨-, rfl⟩ := Prod.mk.inj same
        exact Nat.le_succ_of_le (Nat.le_trans (Nat.le_of_lt (digits_length isDigits))
          (sign_length _ _))
      · exact (Prod.mk.inj (Option.some.inj read)).2 ▸ Nat.le_refl _

theorem number_length {text digits rest : List Char}
    (read : JsonText.number text = some (digits, rest)) : rest.length < text.length := by
  unfold JsonText.number at read
  simp only [Option.bind_eq_bind, Option.bind_eq_some_iff, Prod.exists] at read
  obtain ⟨whole, behindWhole, isWhole, part, behindPart, isPart, power, behind, isPower, same⟩ :=
    read
  obtain ⟨-, rfl⟩ := Prod.mk.inj (Option.some.inj same)
  have signed := sign_length ['-'] text
  have first := integer_length isWhole
  have second := fraction_length isPart
  have third := exponent_length isPower
  omega

/-- The name of a member may be any text without a zero. -/
theorem member_reads {value : List Char → Option (JsonText.Json × List Char)}
    {plainValue : Bytes → Scan Fault (CJsonItem D × Bytes)} {bound : Nat} {memory : Bytes}
    (starts : ∀ text made, value text = some made → ∃ char rest, text = char :: rest ∧ Visible char)
    (reads : ReadsItems value plainValue StandsFor JsonText.Ordinary bound memory) :
    ReadsItems (JsonText.member value) (parseMember plainValue) StandsForMember
      (fun entry => '\x00' ∉ entry.1 ∧ JsonText.Ordinary entry.2) bound memory := by
  rintro text ⟨name, json⟩ rest read short ⟨nonzero, ordinary⟩ delimited
  simp only [JsonText.member, Option.bind_eq_bind, Option.bind_eq_some_iff, Prod.exists] at read
  obtain ⟨name', behind, isName, read⟩ := read
  cases blanks : JsonText.skipBlanks behind with
  | nil => simp [blanks] at read
  | cons char after =>
      simp only [blanks] at read
      split_ifs at read with isColon
      obtain rfl := isColon
      simp only [Option.bind_eq_some_iff, Prod.exists] at read
      obtain ⟨json', rest', isValue, same⟩ := read
      obtain ⟨⟨rfl, rfl⟩, rfl⟩ : (name' = name ∧ json' = json) ∧ rest' = rest := by
        simpa using same
      have colon : Visible ':' := ⟨by decide, by decide⟩
      obtain ⟨head, tail, begins, headVisible⟩ := starts _ _ isValue
      have nameShorter := string_length isName
      have behindFewer := skipBlanks_length behind
      have afterFewer := skipBlanks_length after
      rw [blanks, List.length_cons] at behindFewer
      rw [begins] at isValue afterFewer
      obtain ⟨shorter, item, yields, -, stands⟩ :=
        reads isValue (by omega) ordinary delimited
      refine ⟨by omega, { item with string := some (encode name') }, ?_, rfl,
        represents_named _ stands⟩
      rw [parseMember, (parseString_reads isName nonzero memory).bind_eq]
      dsimp only
      rw [(skip_peek colon blanks memory).bind_eq, (peek_cons _ _).bind_eq, if_pos (by decide),
        List.drop_succ_cons, List.drop_zero, (skip_blanks headVisible begins memory).bind_eq,
        yields.bind_eq]
      exact Scan.yields_pure_iff.mpr rfl

variable [DoubleArithmetic D]

/-- What does not begin a literal is told apart by its first byte. -/
theorem parseValue_eq (steps : Nat) {byte : UInt8} (notLiteral : byte ∉ [110, 102, 116])
    (value : Bytes) :
    (parseValue (steps + 1) (byte :: value) : Scan Fault (CJsonItem D × Bytes)) =
      if byte = quote then do
        let (text, value) ← parseString (byte :: value)
        pure (stringItem text, value)
      else if byte = 45 ∨ isDigit byte then do
        let (n, value) ← parseNumber (byte :: value)
        pure (numberItem n, value)
      else if byte = 91 then parseArray (parseValue steps) value
      else if byte = 123 then parseObject (parseValue steps) value
      else .reject := by
  simp only [List.mem_cons, List.not_mem_nil, or_false, not_or] at notLiteral
  obtain ⟨notNull, notFalse, notTrue⟩ := notLiteral
  have isNull : (startsWith (byte :: value) (ascii "null")).Yields false :=
    startsWith_other notNull _ _
  have isFalse : (startsWith (byte :: value) (ascii "false")).Yields false :=
    startsWith_other notFalse _ _
  have isTrue : (startsWith (byte :: value) (ascii "true")).Yields false :=
    startsWith_other notTrue _ _
  rw [parseValue, isNull.bind_eq, if_neg Bool.false_ne_true, isFalse.bind_eq,
    if_neg Bool.false_ne_true, isTrue.bind_eq, if_neg Bool.false_ne_true, (peek_cons _ _).bind_eq]
  rfl

theorem literal_reads (steps : Nat) {word : List Char} {json : JsonText.Json}
    (member : (word, json) ∈ JsonText.literals) (rest : List Char) (memory : Bytes) :
    ∃ item : CJsonItem D, (parseValue (steps + 1) (encode (word ++ rest) ++ memory)).Yields
        (item, encode rest ++ memory) ∧ StandsFor item json := by
  rw [encode_append, List.append_assoc]
  simp only [JsonText.literals, List.mem_cons, List.not_mem_nil, or_false, Prod.mk.injEq] at member
  rcases member with ⟨rfl, rfl⟩ | ⟨rfl, rfl⟩ | ⟨rfl, rfl⟩
  · have isWord : encode "true".toList = ascii "true" := by decide +kernel
    rw [isWord]
    refine ⟨trueItem, ?_, rfl, .bool true rfl rfl⟩
    have notNull : (startsWith (ascii "true" ++ (encode rest ++ memory))
        (ascii "null")).Yields false := startsWith_other (by decide) _ _
    have notFalse : (startsWith (ascii "true" ++ (encode rest ++ memory))
        (ascii "false")).Yields false := startsWith_other (by decide) _ _
    rw [parseValue, notNull.bind_eq, if_neg Bool.false_ne_true, notFalse.bind_eq,
      if_neg Bool.false_ne_true, (startsWith_append _ _).bind_eq, if_pos rfl]
    exact Scan.yields_pure_iff.mpr rfl
  · have isWord : encode "false".toList = ascii "false" := by decide +kernel
    rw [isWord]
    refine ⟨falseItem, ?_, rfl, .bool false rfl rfl⟩
    have notNull : (startsWith (ascii "false" ++ (encode rest ++ memory))
        (ascii "null")).Yields false := startsWith_other (by decide) _ _
    rw [parseValue, notNull.bind_eq, if_neg Bool.false_ne_true, (startsWith_append _ _).bind_eq,
      if_pos rfl]
    exact Scan.yields_pure_iff.mpr rfl
  · have isWord : encode "null".toList = ascii "null" := by decide +kernel
    rw [isWord]
    refine ⟨nullItem, ?_, rfl, .null rfl rfl⟩
    rw [parseValue, (startsWith_append _ _).bind_eq, if_pos rfl]
    exact Scan.yields_pure_iff.mpr rfl

theorem digit_not_literal {byte : UInt8} (digit : isDigit byte) :
    byte ∉ ([110, 102, 116] : Bytes) := by
  have every : ∀ byte : UInt8, isDigit byte → byte ∉ ([110, 102, 116] : Bytes) :=
    forall_byte (by decide +kernel)
  exact every byte digit

/-- A value of JSON is read to its end, and its tree stands for it.  Only a number
needs a delimiter behind it. -/
theorem value_reads (exact : ExactIntegers D) {depth steps : Nat} {text rest : List Char}
    (enough : text.length < steps) {json : JsonText.Json} {memory : Bytes}
    (read : JsonText.value depth text = some (json, rest)) (ordinary : JsonText.Ordinary json)
    (delimited : (∃ digits, json = .number digits) → Delimited (encode rest ++ memory)) :
    rest.length < text.length ∧
      ∃ item : CJsonItem D, (parseValue steps (encode text ++ memory)).Yields
        (item, encode rest ++ memory) ∧ StandsFor item json := by
  induction depth generalizing steps text rest json with
  | zero => cases read
  | succ depth ih =>
      obtain ⟨steps, rfl⟩ : ∃ fewer, steps = fewer + 1 := ⟨steps - 1, by omega⟩
      cases text with
      | nil => cases read
      | cons char text =>
          rw [List.length_cons] at enough ⊢
          have items : ReadsItems (JsonText.value depth) (parseValue (D := D) steps) StandsFor
              JsonText.Ordinary text.length memory :=
            fun inner json rest read short ordinary delimited =>
              ih (by omega) read ordinary fun _ => delimited
          simp only [JsonText.value] at read
          split_ifs at read with isQuote isObject isArray
          · obtain rfl := isQuote
            obtain ⟨⟨content, behind⟩, isString, same⟩ := Option.map_eq_some_iff.mp read
            obtain ⟨rfl, rfl⟩ := Prod.mk.inj same
            cases ordinary with
            | string nonzero =>
                have yields := parseString_reads isString nonzero memory
                rw [encode_ascii (by decide), List.cons_append] at yields ⊢
                refine ⟨Nat.lt_succ_of_lt (stringBody_length isString),
                  stringItem (encode content), ?_, rfl,
                  .string rfl (zero_not_mem_encode nonzero) rfl⟩
                rw [parseValue_eq steps (by decide), if_pos (by decide), yields.bind_eq]
                exact Scan.yields_pure_iff.mpr rfl
          · obtain rfl := isObject
            obtain ⟨⟨members, behind⟩, isBracketed, same⟩ := Option.map_eq_some_iff.mp read
            obtain ⟨rfl, rfl⟩ := Prod.mk.inj same
            cases ordinary with
            | object names values =>
                obtain ⟨shorter, children, yields, stand⟩ := bracketed_reads
                  (member_reads (fun _ _ => value_starts) items) (fun _ _ => member_starts)
                  (.inr (.inr rfl)) (by decide) (Nat.le_refl _) isBracketed
                  fun entry member => ⟨names entry member, values entry member⟩
                obtain ⟨named, represent⟩ := standsFor_members stand
                rw [encode_ascii (by decide), List.cons_append]
                refine ⟨Nat.lt_succ_of_le shorter, objectItem children, ?_, rfl,
                  .object rfl named represent⟩
                rw [parseValue_eq steps (by decide), if_neg (by decide), if_neg (by decide),
                  if_neg (by decide), if_pos (by decide), parseObject]
                exact (Scan.Yields.bind yields (Scan.yields_pure_iff.mpr rfl))
          · obtain rfl := isArray
            obtain ⟨⟨elements, behind⟩, isBracketed, same⟩ := Option.map_eq_some_iff.mp read
            obtain ⟨rfl, rfl⟩ := Prod.mk.inj same
            cases ordinary with
            | array values =>
                obtain ⟨shorter, children, yields, stand⟩ := bracketed_reads items
                  (fun _ _ => value_starts) (.inr (.inl rfl)) (by decide) (Nat.le_refl _)
                  isBracketed values
                obtain ⟨unnamed, represent⟩ := standsFor_children stand
                rw [encode_ascii (by decide), List.cons_append]
                refine ⟨Nat.lt_succ_of_le shorter, arrayItem children, ?_, rfl,
                  .array rfl unnamed represent⟩
                rw [parseValue_eq steps (by decide), if_neg (by decide), if_neg (by decide),
                  if_pos (by decide), parseArray]
                exact (Scan.Yields.bind yields (Scan.yields_pure_iff.mpr rfl))
          · rcases Option.or_eq_some_iff.mp read with isLiteral | ⟨-, isNumber⟩
            · obtain ⟨word, member, split⟩ := literal_eq_some isLiteral
              refine ⟨?_, ?_⟩
              · have lengths := congrArg List.length split
                have every : ∀ entry ∈ JsonText.literals, 0 < entry.1.length := by decide
                have positive := every _ member
                rw [List.length_cons, List.length_append] at lengths
                dsimp only at positive
                omega
              · rw [split]
                exact literal_reads steps member rest memory
            · obtain ⟨⟨digits, behind⟩, isDigits, same⟩ := Option.map_eq_some_iff.mp isNumber
              obtain ⟨rfl, rfl⟩ := Prod.mk.inj same
              cases ordinary with
              | number whole =>
                  obtain ⟨first, n, peeks, begins, yields, exactly⟩ :=
                    parseNumber_reads (D := D) isDigits (delimited ⟨_, rfl⟩)
                  obtain ⟨behind, opened⟩ := peek_yields_iff.mp peeks
                  rw [opened] at yields ⊢
                  have notLiteral : first ∉ ([110, 102, 116] : Bytes) := by
                    rcases begins with rfl | digit
                    · decide
                    · exact digit_not_literal digit
                  have notQuote : first ≠ quote := by
                    rcases begins with rfl | digit
                    · decide
                    · rintro rfl
                      exact absurd digit (by decide)
                  refine ⟨by simpa using number_length isDigits, numberItem n, ?_, rfl,
                    .number rfl rfl fun integer same above below => ?_⟩
                  · rw [parseValue_eq steps notLiteral, if_neg notQuote, if_pos begins,
                      yields.bind_eq]
                    exact Scan.yields_pure_iff.mpr rfl
                  · exact exactly exact (whole integer same above below) integer same above below

theorem delimited_of_blanks {text : List Char} (blank : JsonText.skipBlanks text = [])
    {memory : Bytes} (delimited : Delimited memory) : Delimited (encode text ++ memory) := by
  cases text with
  | nil => exact delimited
  | cons char text =>
      rcases skipBlanks_cases char text with ⟨isBlank, -⟩ | ⟨-, same⟩
      · obtain ⟨small, -, isByte⟩ := blank_byte isBlank
        rw [encode_ascii small, List.cons_append]
        exact .blank _ isByte
      · rw [same] at blank
        cases blank

/-- A JSON text is read, whatever stands behind it in memory; only a number
needs an end. -/
theorem cJsonParse_reads (exact : ExactIntegers D) {text : Bytes} {json : JsonText.Json}
    (parses : JsonText.parse text = some json) (ordinary : JsonText.Ordinary json) {memory : Bytes}
    (delimited : (∃ digits, json = .number digits) → Delimited memory) :
    ∃ item, cJsonParse D (text ++ memory) = .ok (some item) ∧
      Represents item.toCJson json.toValue := by
  obtain ⟨chars, decoded, parsed⟩ := Option.bind_eq_some_iff.mp parses
  obtain rfl := decode_eq_some_iff.mp decoded
  unfold JsonText.parseText at parsed
  simp only [Option.bind_eq_bind, Option.bind_eq_some_iff, Prod.exists] at parsed
  obtain ⟨read, rest, isValue, parsed⟩ := parsed
  split_ifs at parsed with blank
  obtain rfl := Option.some.inj parsed
  obtain ⟨head, tail, begins, visible⟩ := value_starts isValue
  rw [begins] at isValue
  have skipped := skip_blanks visible begins memory
  have longer := length_le_encode (head :: tail)
  have enough : (head :: tail).length < (encode (head :: tail) ++ memory).length + 1 := by
    rw [List.length_append]
    omega
  have ends (isNumber : ∃ digits, read = .number digits) : Delimited (encode rest ++ memory) :=
    delimited_of_blanks blank (delimited isNumber)
  obtain ⟨-, item, yields, -, represents⟩ := value_reads exact enough isValue ordinary ends
  refine ⟨item, ?_, represents⟩
  have whole : (skip (encode chars ++ memory) >>= fun value =>
      parseValue (D := D) (value.length + 1) value >>= fun made =>
        (pure made.1 : Scan Fault (CJsonItem D))).Yields item := by
    rw [skipped.bind_eq]
    exact Scan.Yields.bind yields (Scan.yields_pure_iff.mpr rfl)
  exact whole

/-- A surrogate pair and a negative number. -/
def pairText : String :=
  "[ \"\\ud83d\\uDE00\" ,-12 ] "

theorem cJsonParse_reads_pair :
    ∃ item, cJsonParse ℚ (ascii pairText ++ [0]) = .ok (some item) ∧
      Represents item.toCJson
        (JsonText.Json.array [.string [Char.ofNat 0x1F600], .number "-12".toList]).toValue := by
  have parses : JsonText.parse (ascii pairText) =
      some (.array [.string [Char.ofNat 0x1F600], .number "-12".toList]) := by
    have decoded : decode (ascii pairText) = some pairText.toList :=
      decode_eq_some_iff.mpr (by decide +kernel)
    rw [JsonText.parse, decoded]
    rfl
  have ordinary : JsonText.Ordinary
      (.array [.string [Char.ofNat 0x1F600], .number "-12".toList]) := by
    refine .array ?_
    simp only [List.forall_mem_cons]
    exact ⟨.string (by decide), .number fun _ _ _ _ => by decide +kernel, nofun⟩
  exact cJsonParse_reads exactIntegers_rational parses ordinary fun _ => .blank _ (by decide)

end Values

end CJsonParser

end OnlineProgram
