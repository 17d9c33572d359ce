import OnlineProgram.JsonText
import OnlineProgram.ParserSafety

/-!
# Strings that the parser reads

A string of a JSON text, with its escapes, reaches the tree as the UTF-8 of its
characters.  The only character that the parser refuses is the zero, which ends
a C string.
-/

namespace OnlineProgram

open ByteStrings CMemory Utf8Text

namespace CJsonParser

/-! ### Characters -/

theorem continuation_eq (code : Nat) :
    ((code ||| 0x80) &&& 0xBF).toUInt8 = UInt8.ofNat (code % 64 + 128) := by
  have every : ∀ byte : UInt8, (byte ||| 128) &&& 191 = UInt8.ofNat (byte.toNat % 64 + 128) :=
    forall_byte (by decide +kernel)
  have reduced : code % 256 % 64 = code % 64 := by omega
  rw [Nat.toUInt8, UInt8.ofNat_and, UInt8.ofNat_or]
  refine (every (UInt8.ofNat code)).trans ?_
  rw [UInt8.toNat_ofNat', reduced]

/-- The first byte of a longer code: its mark is above the bits of the
character. -/
theorem leading_eq (width : Nat) {mark code : Nat} (fits : code < width)
    (marks : (width, mark) ∈ [(32, 0xC0), (16, 0xE0), (8, 0xF0)]) :
    (code ||| mark).toUInt8 = UInt8.ofNat (code % width + mark) := by
  have every : ∀ entry ∈ [(32, 0xC0), (16, 0xE0), (8, 0xF0)], ∀ value < entry.1,
      (value ||| entry.2).toUInt8 = UInt8.ofNat (value % entry.1 + entry.2) := by
    decide +kernel
  exact every _ marks code fits

/-- The bytes that the parser writes for a character are its UTF-8. -/
theorem utf8Bytes_eq (char : Char) : utf8Bytes char.toNat = String.utf8EncodeChar char := by
  have valid : char.toNat < 0x110000 := by
    rcases char.valid with low | high
    · exact Nat.lt_trans low (by decide)
    · exact high.2
  have once : char.toNat >>> 6 = char.toNat / 64 := Nat.shiftRight_eq_div_pow ..
  have twice : char.toNat >>> 6 >>> 6 = char.toNat / 4096 := by
    rw [← Nat.shiftRight_add, Nat.shiftRight_eq_div_pow]
  have thrice : char.toNat >>> 6 >>> 6 >>> 6 = char.toNat / 262144 := by
    rw [← Nat.shiftRight_add, ← Nat.shiftRight_add, Nat.shiftRight_eq_div_pow]
  unfold String.utf8EncodeChar
  simp only [show char.val.toNat = char.toNat from rfl]
  by_cases one : char.toNat < 0x80
  · have length : utf8Length char.toNat = 1 := by
      rw [utf8Length, if_pos one]
    rw [if_pos (by omega), utf8Bytes, length]
    change [(char.toNat ||| 0).toUInt8] = _
    rw [Nat.or_zero]
  rw [if_neg (by omega)]
  by_cases two : char.toNat < 0x800
  · have length : utf8Length char.toNat = 2 := by
      rw [utf8Length, if_neg one, if_pos two]
    rw [if_pos (by omega), utf8Bytes, length]
    change [((char.toNat >>> 6) ||| 0xC0).toUInt8, ((char.toNat ||| 0x80) &&& 0xBF).toUInt8] = _
    rw [once, continuation_eq, leading_eq 32 (by omega) (by decide)]
  rw [if_neg (by omega)]
  by_cases three : char.toNat < 0x10000
  · have length : utf8Length char.toNat = 3 := by
      rw [utf8Length, if_neg one, if_neg two, if_pos three]
    rw [if_pos (by omega), utf8Bytes, length]
    change [((char.toNat >>> 6 >>> 6) ||| 0xE0).toUInt8,
      ((char.toNat >>> 6 ||| 0x80) &&& 0xBF).toUInt8,
      ((char.toNat ||| 0x80) &&& 0xBF).toUInt8] = _
    rw [twice, once, continuation_eq, continuation_eq,
      leading_eq 16 (by omega) (by decide)]
  · have length : utf8Length char.toNat = 4 := by
      rw [utf8Length, if_neg one, if_neg two, if_neg three]
    rw [if_neg (by omega), utf8Bytes, length]
    change [((char.toNat >>> 6 >>> 6 >>> 6) ||| 0xF0).toUInt8,
      ((char.toNat >>> 6 >>> 6 ||| 0x80) &&& 0xBF).toUInt8,
      ((char.toNat >>> 6 ||| 0x80) &&& 0xBF).toUInt8,
      ((char.toNat ||| 0x80) &&& 0xBF).toUInt8] = _
    rw [thrice, twice, once, continuation_eq, continuation_eq, continuation_eq,
      leading_eq 8 (by omega) (by decide)]

theorem toNat_ofNat_of_isValidChar {code : Nat} (valid : code.isValidChar) :
    (Char.ofNat code).toNat = code := by
  rw [Char.ofNat, dif_pos valid]
  rfl

theorem encode_ascii {char : Char} (small : char.toNat < 128) (text : List Char) :
    encode (char :: text) = char.toNat.toUInt8 :: encode text := by
  rw [encode_cons, utf8EncodeChar_of_lt small]
  rfl

/-- The code of a character has none of the bytes that stand for another. -/
theorem utf8EncodeChar_plain {char : Char} (notQuote : char ≠ JsonText.quote)
    (notEscape : char ≠ JsonText.backslash) (nonzero : char ≠ '\x00') :
    ∀ byte ∈ String.utf8EncodeChar char, byte ≠ 0 ∧ byte ≠ quote ∧ byte ≠ backslash := by
  intro byte member
  have differs (other : Char) (small : other.toNat.toUInt8 < 128)
      (own : Char.ofNat other.toNat.toUInt8.toNat = other) (different : char ≠ other) :
      byte ≠ other.toNat.toUInt8 := by
    rintro rfl
    have whole := utf8EncodeChar_of_mem small member
    exact different ((eq_ofNat_of_utf8EncodeChar whole).trans own)
  exact ⟨differs '\x00' (by decide) (by decide) nonzero,
    differs JsonText.quote (by decide) (by decide) notQuote,
    differs JsonText.backslash (by decide) (by decide) notEscape⟩

/-! ### Hexadecimal digits -/

theorem hexDigit_reads {char : Char} {digit : Nat} (read : JsonText.hexDigit char = some digit) :
    char.toNat < 128 ∧ hexValue char.toNat.toUInt8 = some digit := by
  have small : char.toNat < 128 := by
    unfold JsonText.hexDigit at read
    split_ifs at read with decimal lower upper
    · exact Nat.lt_of_le_of_lt decimal.2 (by decide)
    · exact Nat.lt_of_le_of_lt lower.2 (by decide)
    · exact Nat.lt_of_le_of_lt upper.2 (by decide)
  have every : ∀ code < 128, hexValue code.toUInt8 = JsonText.hexDigit (Char.ofNat code) := by
    decide +kernel
  refine ⟨small, ?_⟩
  rw [every _ small, Char.ofNat_toNat, read]

/-- Four digits are the same bytes, wherever they stand. -/
theorem hex4_reads {text rest : List Char} {code : Nat}
    (read : JsonText.hex4 text = some (code, rest)) :
    ∃ digits : Bytes, encode text = digits ++ encode rest ∧ digits.length = 4 ∧
      (∀ byte ∈ digits, byte ≠ 0 ∧ byte ≠ quote ∧ byte ≠ backslash) ∧ code < 0x10000 ∧
      ∀ memory, (parseHex4 (digits ++ memory)).Yields code := by
  unfold JsonText.hex4 at read
  split at read
  · next one two three four rest =>
    simp only [Option.bind_eq_bind, Option.bind_eq_some_iff, Option.some.injEq,
      Prod.mk.injEq] at read
    obtain ⟨high, isHigh, upper, isUpper, lower, isLower, low, isLow, rfl, rfl⟩ := read
    obtain ⟨firstSmall, first⟩ := hexDigit_reads isHigh
    obtain ⟨secondSmall, second⟩ := hexDigit_reads isUpper
    obtain ⟨thirdSmall, third⟩ := hexDigit_reads isLower
    obtain ⟨fourthSmall, fourth⟩ := hexDigit_reads isLow
    refine ⟨[one.toNat.toUInt8, two.toNat.toUInt8, three.toNat.toUInt8, four.toNat.toUInt8],
      ?_, rfl, ?_, ?_, ?_⟩
    · rw [encode_ascii firstSmall, encode_ascii secondSmall, encode_ascii thirdSmall,
        encode_ascii fourthSmall]
      rfl
    · intro byte member
      simp only [List.mem_cons, List.not_mem_nil, or_false] at member
      rcases member with rfl | rfl | rfl | rfl
      · exact ⟨(hexValue_nonzero first).1, (hexValue_nonzero first).2.1,
          (hexValue_nonzero first).2.2.1⟩
      · exact ⟨(hexValue_nonzero second).1, (hexValue_nonzero second).2.1,
          (hexValue_nonzero second).2.2.1⟩
      · exact ⟨(hexValue_nonzero third).1, (hexValue_nonzero third).2.1,
          (hexValue_nonzero third).2.2.1⟩
      · exact ⟨(hexValue_nonzero fourth).1, (hexValue_nonzero fourth).2.1,
          (hexValue_nonzero fourth).2.2.1⟩
    · have a := (hexValue_nonzero first).2.2.2
      have b := (hexValue_nonzero second).2.2.2
      have c := (hexValue_nonzero third).2.2.2
      have d := (hexValue_nonzero fourth).2.2.2
      omega
    · intro memory
      simp only [parseHex4, List.cons_append, hexDigits, first, second, third, fourth]
      exact Scan.yields_pure_iff.mpr (by ring)
  · cases read

/-! ### One character -/

/-- The bytes of a character in a string: how many of them the first loop
counts, and in how many steps the second copies it. -/
structure ReadsCharacter (char : Char) (front : Bytes) (used count : Nat) : Prop where
  used_le : used ≤ front.length
  fits : (String.utf8EncodeChar char).length ≤ count
  measured : ∀ ⦃memory d l⦄, (stringEnd memory).Yields (d, l) →
    (stringEnd (front ++ memory)).Yields (d + front.length, l + count)
  copied : ∀ ⦃memory capacity steps left out made⦄, out.length + count ≤ capacity →
    (copyString capacity steps left memory (out ++ String.utf8EncodeChar char)).Yields made →
    (copyString capacity (steps + used) (left + front.length) (front ++ memory) out).Yields made

theorem copyString_plain {digits : Bytes}
    (plain : ∀ byte ∈ digits, byte ≠ 0 ∧ byte ≠ quote ∧ byte ≠ backslash)
    {memory out : Bytes} {capacity steps left : Nat} {made : Bytes × Bytes}
    (room : out.length + digits.length ≤ capacity)
    (copies : (copyString capacity steps left memory (out ++ digits)).Yields made) :
    (copyString capacity (steps + digits.length) (left + digits.length) (digits ++ memory)
      out).Yields made := by
  induction digits generalizing out with
  | nil => simpa using copies
  | cons byte digits ih =>
      rw [List.length_cons] at room ⊢
      have later : (copyString capacity (steps + digits.length) (left + digits.length)
          (digits ++ memory) (out ++ [byte])).Yields made := by
        apply ih fun other member => plain other (by simp [member])
        · rw [List.length_append, List.length_singleton]
          omega
        · simpa using copies
      rw [← Nat.add_assoc, ← Nat.add_assoc, List.cons_append, copyString.eq_def]
      dsimp only
      rw [if_neg (by omega), if_pos (plain byte (by simp)).2.2,
        (put_yields (by simp; omega)).bind_eq]
      exact later

theorem readsCharacter_plain {char : Char} (notQuote : char ≠ JsonText.quote)
    (notEscape : char ≠ JsonText.backslash) (nonzero : char ≠ '\x00') :
    ReadsCharacter char (String.utf8EncodeChar char) (String.utf8EncodeChar char).length
      (String.utf8EncodeChar char).length := by
  have plain := utf8EncodeChar_plain notQuote notEscape nonzero
  constructor
  · exact Nat.le_refl _
  · exact Nat.le_refl _
  · intro memory d l ends
    exact (stringEnd_plain plain).mpr ⟨d, l, ends, rfl, rfl⟩
  · intro memory capacity steps left out made room copies
    exact copyString_plain plain room copies

theorem readsCharacter_escape {code : UInt8} {char : Char} (notUnicode : code ≠ 117)
    (means : String.utf8EncodeChar char = [escaped code]) :
    ReadsCharacter char [backslash, code] 1 1 := by
  constructor
  · exact Nat.le_succ 1
  · rw [means]
    rfl
  · intro memory d l ends
    exact stringEnd_escape.mpr ⟨d, l, ends, rfl, rfl⟩
  · intro memory capacity steps left out made room copies
    rw [means] at copies
    change (copyString capacity (steps + 1) (left + 2) (backslash :: code :: memory) out).Yields
      made
    rw [copyString.eq_def]
    dsimp only
    rw [if_neg (by omega), if_neg (by simp), if_neg notUnicode,
      (put_yields (by simpa using room)).bind_eq]
    exact copies

theorem readsCharacter_unicode {char : Char} {digits : Bytes} (count : Nat)
    (fits : (String.utf8EncodeChar char).length ≤ count + 1)
    (measured : ∀ ⦃memory d l⦄, (stringEnd memory).Yields (d, l) →
      (stringEnd (digits ++ memory)).Yields (d + digits.length, l + count))
    (reads : ∀ memory left, digits.length < left →
      (unicodeEscape (digits ++ memory) left).Yields (char.toNat, digits.length)) :
    ReadsCharacter char (backslash :: 117 :: digits) 1 (count + 1) := by
  constructor
  · simp
  · exact fits
  · intro memory d l ends
    exact stringEnd_escape.mpr ⟨_, _, measured ends, rfl, rfl⟩
  · intro memory capacity steps left out made room copies
    rw [List.cons_append, List.cons_append, List.length_cons, List.length_cons,
      copyString.eq_def]
    dsimp only
    rw [if_neg (by omega), if_neg (by simp), if_pos rfl, (reads memory _ (by omega)).bind_eq]
    dsimp only
    rw [utf8Bytes_eq, (put_yields (by omega)).bind_eq, List.drop_left]
    have behind : left + (digits.length + 1 + 1) - 2 - digits.length = left := by omega
    rw [behind]
    exact copies

/-- The characters beyond the first plane come as two escapes. -/
theorem surrogates_eq {high low : Nat} (isHigh : 0xD800 ≤ high ∧ high < 0xDC00)
    (isLow : 0xDC00 ≤ low ∧ low < 0xE000) :
    0x10000 + (((high &&& 0x3FF) <<< 10) ||| (low &&& 0x3FF)) =
      0x10000 + (high - 0xD800) * 0x400 + (low - 0xDC00) := by
  have highBits : high &&& 0x3FF = high - 0xD800 := by
    rw [show 0x3FF = 2 ^ 10 - 1 from rfl, Nat.and_two_pow_sub_one_eq_mod]
    omega
  have lowBits : low &&& 0x3FF = low - 0xDC00 := by
    rw [show 0x3FF = 2 ^ 10 - 1 from rfl, Nat.and_two_pow_sub_one_eq_mod]
    omega
  rw [highBits, lowBits, ← Nat.shiftLeft_add_eq_or_of_lt (by omega), Nat.shiftLeft_eq]
  omega

theorem lowSurrogate_reads {text rest : List Char} {low : Nat}
    (read : JsonText.lowSurrogate text = some (low, rest)) :
    ∃ digits : Bytes, encode text = backslash :: 117 :: (digits ++ encode rest) ∧
      digits.length = 4 ∧ (∀ byte ∈ digits, byte ≠ 0 ∧ byte ≠ quote ∧ byte ≠ backslash) ∧
      low < 0x400 ∧ ∀ memory, (parseHex4 (digits ++ memory)).Yields (low + 0xDC00) := by
  unfold JsonText.lowSurrogate at read
  split at read
  · next first second text =>
    simp only [Option.bind_eq_bind, Option.bind_eq_some_iff] at read
    obtain ⟨⟨code, behind⟩, isCode, read⟩ := read
    dsimp only at read
    split_ifs at read with pair
    obtain ⟨rfl, rfl, above, below⟩ := pair
    obtain ⟨rfl, rfl⟩ := Prod.mk.inj (Option.some.inj read)
    obtain ⟨digits, encoded, length, plain, -, reads⟩ := hex4_reads isCode
    refine ⟨digits, ?_, length, plain, by omega, fun memory => ?_⟩
    · rw [encode_ascii (by decide), encode_ascii (by decide), encoded]
      rfl
    · rw [show code - 0xDC00 + 0xDC00 = code by omega]
      exact reads memory
  · cases read

theorem unicode_reads {text behind : List Char} {char : Char}
    (read : JsonText.unicode text = some (char, behind)) (nonzero : char ≠ '\x00') :
    ∃ digits count, encode text = digits ++ encode behind ∧
      ReadsCharacter char (backslash :: 117 :: digits) 1 count := by
  unfold JsonText.unicode at read
  simp only [Option.bind_eq_bind, Option.bind_eq_some_iff] at read
  obtain ⟨⟨code, rest⟩, isCode, read⟩ := read
  obtain ⟨digits, encoded, length, plain, small, reads⟩ := hex4_reads isCode
  dsimp only at read
  split_ifs at read with single pair
  · obtain ⟨rfl, rfl⟩ := Prod.mk.inj (Option.some.inj read)
    have valid : code.isValidChar := by
      rcases single with low | high
      · exact .inl low
      · exact .inr ⟨by omega, by omega⟩
    have codeNonzero : code ≠ 0 := by
      rintro rfl
      exact nonzero rfl
    refine ⟨digits, _, encoded, readsCharacter_unicode digits.length ?_ ?_ ?_⟩
    · rw [← utf8Bytes_eq, utf8Bytes_length, toNat_ofNat_of_isValidChar valid, length]
      exact Nat.le_trans ((utf8Length_le _).2 small) (by decide)
    · intro memory d l ends
      exact (stringEnd_plain plain).mpr ⟨d, l, ends, rfl, rfl⟩
    · intro memory left enough
      rw [unicodeEscape, (reads memory).bind_eq, toNat_ofNat_of_isValidChar valid,
        if_neg (by omega), if_neg (by omega), if_neg (by omega), length]
      exact Scan.yields_pure_iff.mpr rfl
  · simp only [Option.bind_eq_some_iff] at read
    obtain ⟨⟨low, last⟩, isLow, read⟩ := read
    obtain ⟨rfl, rfl⟩ := Prod.mk.inj (Option.some.inj read)
    obtain ⟨others, lowEncoded, lowLength, lowPlain, lowSmall, lowReads⟩ := lowSurrogate_reads isLow
    have valid : (0x10000 + (code - 0xD800) * 0x400 + low).isValidChar :=
      .inr ⟨by omega, by omega⟩
    refine ⟨digits ++ backslash :: 117 :: others, _, ?_,
      readsCharacter_unicode 9 ?_ ?_ ?_⟩
    · rw [encoded, lowEncoded]
      simp
    · rw [← utf8Bytes_eq, utf8Bytes_length]
      exact Nat.le_trans (utf8Length_le _).1 (by decide)
    · intro memory d l ends
      rw [List.append_assoc]
      refine (stringEnd_plain plain).mpr ⟨d + others.length + 2, l + others.length + 1, ?_, ?_, ?_⟩
      · exact stringEnd_escape.mpr
          ⟨_, _, (stringEnd_plain lowPlain).mpr ⟨d, l, ends, rfl, rfl⟩, rfl, rfl⟩
      · simp only [List.length_append, List.length_cons]
        omega
      · omega
    · intro memory left enough
      rw [List.length_append, List.length_cons, List.length_cons, length, lowLength] at enough ⊢
      have behindFirst : (digits ++ backslash :: 117 :: others ++ memory).drop 4 =
          backslash :: 117 :: (others ++ memory) := by
        rw [List.append_assoc]
        exact List.drop_left' length
      have behindPair : (digits ++ backslash :: 117 :: others ++ memory).drop 6 =
          others ++ memory := by
        rw [show 6 = 4 + 2 from rfl, ← List.drop_drop, behindFirst]
        rfl
      have isPair : (startsWith (backslash :: 117 :: (others ++ memory))
          [backslash, 117]).Yields true := by
        simp only [startsWith, if_true]
        exact Scan.yields_pure_iff.mpr rfl
      have firstReads : (parseHex4 (digits ++ backslash :: 117 :: others ++ memory)).Yields
          code := by
        rw [List.append_assoc]
        exact reads _
      rw [unicodeEscape, firstReads.bind_eq, behindFirst, behindPair, isPair.bind_eq,
        (lowReads memory).bind_eq, if_neg (by omega), if_neg (by omega), if_pos (by omega),
        if_neg (by omega), if_pos rfl, if_neg (by omega), toNat_ofNat_of_isValidChar valid,
        surrogates_eq (by omega) (by omega)]
      exact Scan.yields_pure_iff.mpr (by simp)

theorem namedEscape_reads {char meant : Char}
    (named : JsonText.namedEscapes.lookup char = some meant) :
    char.toNat < 128 ∧
      ReadsCharacter meant [backslash, char.toNat.toUInt8] 1 1 := by
  have every : ∀ entry ∈ JsonText.namedEscapes, entry.1.toNat < 128 ∧
      entry.1.toNat.toUInt8 ≠ 117 ∧
      String.utf8EncodeChar entry.2 = [escaped entry.1.toNat.toUInt8] := by
    decide +kernel
  obtain ⟨before, after, split, -⟩ := List.lookup_eq_some_iff.mp named
  have member : (char, meant) ∈ JsonText.namedEscapes := by
    rw [split]
    simp
  obtain ⟨small, notUnicode, means⟩ := every _ member
  exact ⟨small, readsCharacter_escape notUnicode means⟩

theorem character_reads {text behind : List Char} {char : Char}
    (read : JsonText.character text = some (char, behind))
    (notQuote : text.head? ≠ some JsonText.quote) (nonzero : char ≠ '\x00') :
    ∃ front used count, encode text = front ++ encode behind ∧
      ReadsCharacter char front used count := by
  cases text with
  | nil => cases read
  | cons head text =>
      simp only [JsonText.character] at read
      split_ifs at read with isBackslash unescaped
      · obtain rfl := isBackslash
        rw [encode_ascii (by decide)]
        cases text with
        | nil => cases read
        | cons code text =>
            simp only [JsonText.escape] at read
            split_ifs at read with isUnicode
            · obtain rfl := isUnicode
              obtain ⟨digits, count, encoded, reads⟩ := unicode_reads read nonzero
              refine ⟨_, _, _, ?_, reads⟩
              rw [encode_ascii (by decide), encoded]
              rfl
            · obtain ⟨meant, named, same⟩ := Option.map_eq_some_iff.mp read
              cases same
              obtain ⟨small, reads⟩ := namedEscape_reads named
              refine ⟨_, _, _, ?_, reads⟩
              rw [encode_ascii small]
              rfl
      · cases read
        refine ⟨_, _, _, encode_cons .., readsCharacter_plain ?_ isBackslash nonzero⟩
        rintro rfl
        exact notQuote rfl

/-! ### Strings -/

/-- The two loops over the rest of a string: the first finds its end and makes
the block long enough, the second copies its characters. -/
theorem stringBody_reads {steps : Nat} {text content rest : List Char}
    (scanned : JsonText.stringBody steps text = some (content, rest))
    (nonzero : '\x00' ∉ content) (memory : Bytes) :
    ∃ distance len, (stringEnd (encode text ++ memory)).Yields (distance, len) ∧
      (encode content).length ≤ len ∧
      ∀ ⦃capacity more out⦄, out.length + len ≤ capacity → distance < more →
        (copyString capacity more distance (encode text ++ memory) out).Yields
          (out ++ encode content, quote :: (encode rest ++ memory)) := by
  induction steps generalizing text content with
  | zero => cases scanned
  | succ steps ih =>
      cases text with
      | nil => cases scanned
      | cons head text =>
          by_cases isQuote : head = JsonText.quote
          · obtain rfl := isQuote
            rw [JsonText.stringBody, if_pos rfl] at scanned
            obtain ⟨rfl, rfl⟩ := Prod.mk.inj (Option.some.inj scanned)
            have opened : encode (JsonText.quote :: text) ++ memory =
                quote :: (encode text ++ memory) := by
              rw [encode_ascii (by decide)]
              rfl
            rw [opened]
            refine ⟨0, 0, stringEnd_stop (.inl rfl) _, Nat.le_refl _,
              fun capacity more out room enough => ?_⟩
            obtain ⟨fewer, rfl⟩ : ∃ fewer, more = fewer + 1 := ⟨more - 1, by omega⟩
            rw [copyString.eq_def]
            dsimp only
            rw [if_pos rfl]
            exact Scan.yields_pure_iff.mpr (by simp)
          · obtain ⟨char, behind, others, isChar, later, rfl⟩ :=
              JsonText.stringBody_cons isQuote scanned
            obtain ⟨charNonzero, othersNonzero⟩ : ¬ '\x00' = char ∧ '\x00' ∉ others := by
              simpa using nonzero
            obtain ⟨front, used, count, encoded, reads⟩ :=
              character_reads isChar (by simpa using isQuote) (Ne.symm charNonzero)
            obtain ⟨distance, len, ends, shorter, copies⟩ := ih later othersNonzero
            have usedLe := reads.used_le
            have fits := reads.fits
            rw [encoded, List.append_assoc, encode_cons]
            refine ⟨distance + front.length, len + count, reads.measured ends, ?_,
              fun capacity more out room enough => ?_⟩
            · rw [List.length_append]
              omega
            obtain ⟨fewer, rfl⟩ : ∃ fewer, more = fewer + used := ⟨more - used, by omega⟩
            rw [← List.append_assoc out]
            apply reads.copied (by omega)
            apply copies
            · rw [List.length_append]
              omega
            · omega

theorem zero_not_mem_encode {text : List Char} (nonzero : '\x00' ∉ text) :
    (0 : UInt8) ∉ encode text := by
  intro member
  obtain ⟨char, inText, inChar⟩ := List.mem_flatMap.mp member
  have whole := utf8EncodeChar_of_mem (by decide) inChar
  obtain rfl : char = '\x00' := eq_ofNat_of_utf8EncodeChar whole
  exact nonzero inText

theorem blockString_zero {content : Bytes} (nonzero : (0 : UInt8) ∉ content) :
    blockString (content ++ [0]) = content := by
  unfold blockString
  rw [List.takeWhile_append_of_pos]
  · simp
  · intro byte member
    simp only [ne_eq, decide_eq_true_eq]
    rintro rfl
    exact nonzero member

/-- A string of a JSON text is read as the UTF-8 of its characters. -/
theorem parseString_reads {text content rest : List Char}
    (read : JsonText.string text = some (content, rest)) (nonzero : '\x00' ∉ content)
    (memory : Bytes) :
    (parseString (encode text ++ memory)).Yields (encode content, encode rest ++ memory) := by
  cases text with
  | nil => cases read
  | cons head text =>
      rw [JsonText.string] at read
      split_ifs at read with isQuote
      obtain rfl := isQuote
      obtain ⟨distance, len, ends, shorter, copies⟩ := stringBody_reads read nonzero memory
      have fills : (copyString (len + 1) (distance + 1) distance (encode text ++ memory) []).Yields
          (encode content, quote :: (encode rest ++ memory)) :=
        copies (by simp) (Nat.lt_succ_self distance)
      have opened : encode (JsonText.quote :: text) ++ memory =
          quote :: (encode text ++ memory) := by
        rw [encode_ascii (by decide)]
        rfl
      rw [opened]
      unfold parseString
      dsimp only
      rw [if_neg (by simp), ends.bind_eq]
      dsimp only
      rw [fills.bind_eq]
      dsimp only
      rw [(put_yields (by simpa using shorter)).bind_eq,
        blockString_zero (zero_not_mem_encode nonzero), (peek_cons _ _).bind_eq, if_pos rfl]
      exact Scan.yields_pure_iff.mpr rfl

end CJsonParser

end OnlineProgram
