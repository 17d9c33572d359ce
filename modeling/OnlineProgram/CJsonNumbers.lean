import OnlineProgram.CJsonStrings
import OnlineProgram.JsonMeaning

/-!
# Numbers that the parser reads

A number of a JSON text is read to its end.  An integer of 32 bits that is
written in plain digits comes out exactly, as `double` holds every integer on
the way.
-/

namespace OnlineProgram

open ByteStrings CMemory Utf8Text

namespace CJsonParser

/-- The integers of 32 bits are exact in `double`: the steps by which digits are
read, and the scaling by ten to the zero. -/
structure ExactIntegers (D : Type) [DoubleArithmetic D] : Prop where
  appends : ∀ n digit : Nat, digit < 10 → n * 10 + digit ≤ 2 ^ 31 →
    DoubleArithmetic.add (DoubleArithmetic.mul (DoubleArithmetic.ofInt n : D)
      (DoubleArithmetic.ofInt 10)) (DoubleArithmetic.ofInt digit) =
      DoubleArithmetic.ofInt (n * 10 + digit)
  scales : ∀ (sign : Int) (n : Nat), sign = 1 ∨ sign = -1 → -2 ^ 31 ≤ sign * n →
    sign * n < 2 ^ 31 →
    DoubleArithmetic.toInt (DoubleArithmetic.mul (DoubleArithmetic.mul
      (DoubleArithmetic.ofInt sign : D) (DoubleArithmetic.ofInt n))
      (DoubleArithmetic.pow10 0)) = sign * n

/-- Arithmetic without rounding. -/
instance rationalArithmetic : DoubleArithmetic ℚ where
  ofInt := fun n => n
  add := (· + ·)
  mul := (· * ·)
  pow10 := fun exponent => 10 ^ exponent
  toInt := fun value => value.num.tdiv value.den

theorem exactIntegers_rational : ExactIntegers ℚ where
  appends := by
    intro n digit _ _
    change (n : ℚ) * 10 + digit = ((n * 10 + digit : Int) : ℚ)
    push_cast
    rfl
  scales := by
    intro sign n _ _ _
    change ((sign : ℚ) * n * 10 ^ (0 : Int)).num.tdiv ((sign : ℚ) * n * 10 ^ (0 : Int)).den = _
    have whole : (sign : ℚ) * n * 10 ^ (0 : Int) = ((sign * n : Int) : ℚ) := by
      push_cast
      ring
    rw [whole, Rat.num_intCast, Rat.den_intCast]
    exact Int.tdiv_one _

/-- What may stand behind a number of a JSON text: a blank, or a character that
ends a value. -/
inductive Delimited : Bytes → Prop
  | blank {byte : UInt8} (rest : Bytes) (isBlank : byte ≤ 32) : Delimited (byte :: rest)
  | comma (rest : Bytes) : Delimited (44 :: rest)
  | bracket (rest : Bytes) : Delimited (93 :: rest)
  | brace (rest : Bytes) : Delimited (125 :: rest)

theorem Delimited.exists_cons {behind : Bytes} (delimited : Delimited behind) :
    ∃ byte rest, behind = byte :: rest ∧ ¬ isDigit byte ∧ byte ≠ 46 ∧ byte ≠ 101 ∧ byte ≠ 69 := by
  cases delimited with
  | @blank byte rest isBlank =>
      have every : ∀ byte : UInt8, byte ≤ 32 →
          ¬ isDigit byte ∧ byte ≠ 46 ∧ byte ≠ 101 ∧ byte ≠ 69 := forall_byte (by decide +kernel)
      exact ⟨byte, rest, rfl, every byte isBlank⟩
  | comma rest => exact ⟨44, rest, rfl, by decide⟩
  | bracket rest => exact ⟨93, rest, rfl, by decide⟩
  | brace rest => exact ⟨125, rest, rfl, by decide⟩

/-! ### Digits -/

theorem digit_reads {char : Char} (digit : char.isDigit) :
    char.toNat < 128 ∧ isDigit char.toNat.toUInt8 ∧
      (char.toNat.toUInt8.toNat : Int) - 48 = (char.toNat - 48 : Nat) ∧ char.toNat - 48 < 10 := by
  obtain ⟨above, below⟩ := Char.isDigit_iff_toNat.mp digit
  have low : 48 ≤ char.toNat := above
  have high : char.toNat ≤ 57 := below
  have small : char.toNat.toUInt8.toNat = char.toNat := by
    rw [Nat.toUInt8, UInt8.toNat_ofNat']
    omega
  refine ⟨by omega, ⟨?_, ?_⟩, by omega, by omega⟩
  · rw [UInt8.le_iff_toNat_le, small]
    exact low
  · rw [UInt8.le_iff_toNat_le, small]
    exact high

theorem encode_digits {char : Char} {digits : List Char}
    (all : ∀ other ∈ char :: digits, other.isDigit = true) (behind : Bytes) :
    encode (char :: digits) ++ behind = char.toNat.toUInt8 :: (encode digits ++ behind) := by
  rw [encode_ascii (digit_reads (all char (by simp))).1]
  rfl

/-- Some byte that is not a digit. -/
def NoDigit (behind : Bytes) : Prop :=
  ∃ byte rest, behind = byte :: rest ∧ ¬ isDigit byte

section Digits

variable {D : Type} [DoubleArithmetic D]

open DoubleArithmetic

/-- The loop over the digits of a number. -/
def appendDigits (n : D) (digits : List Char) : D :=
  digits.foldl (fun n char => add (mul n (ofInt 10)) (ofInt (char.toNat - 48 : Nat))) n

theorem numberDigits_reads {digits : List Char} (all : ∀ char ∈ digits, char.isDigit = true)
    {behind : Bytes} (stops : NoDigit behind) (n : D) :
    (numberDigits n (encode digits ++ behind)).Yields
      (appendDigits n digits, digits.length, behind) := by
  induction digits generalizing n with
  | nil =>
      obtain ⟨byte, rest, rfl, other⟩ := stops
      change (numberDigits n (byte :: rest)).Yields _
      rw [numberDigits, if_neg other]
      exact Scan.yields_pure_iff.mpr rfl
  | cons char digits ih =>
      obtain ⟨-, digit, value, -⟩ := digit_reads (all char (by simp))
      rw [encode_digits all, numberDigits, if_pos digit, value]
      refine (ih (fun other member => all other (by simp [member])) _).bind ?_
      exact Scan.yields_pure_iff.mpr rfl

theorem exponentDigits_reads {digits : List Char} (all : ∀ char ∈ digits, char.isDigit = true)
    {behind : Bytes} (stops : NoDigit behind) (subscale : Int) :
    ∃ power, (exponentDigits subscale (encode digits ++ behind)).Yields (power, behind) := by
  induction digits generalizing subscale with
  | nil =>
      obtain ⟨byte, rest, rfl, other⟩ := stops
      refine ⟨subscale, ?_⟩
      change (exponentDigits subscale (byte :: rest)).Yields _
      rw [exponentDigits, if_neg other]
      exact Scan.yields_pure_iff.mpr rfl
  | cons char digits ih =>
      rw [encode_digits all, exponentDigits, if_pos (digit_reads (all char (by simp))).2.1]
      exact ih (fun other member => all other (by simp [member])) _

theorem ofDigitChars_ge (digits : List Char) (n : Nat) : n ≤ Nat.ofDigitChars 10 digits n := by
  induction digits generalizing n with
  | nil => simp
  | cons char digits ih =>
      rw [Nat.ofDigitChars_cons]
      exact Nat.le_trans (by omega) (ih _)

theorem appendDigits_exact (exact : ExactIntegers D) {digits : List Char}
    (all : ∀ char ∈ digits, char.isDigit = true) (n : Nat)
    (small : Nat.ofDigitChars 10 digits n ≤ 2 ^ 31) :
    appendDigits (ofInt n : D) digits = ofInt (Nat.ofDigitChars 10 digits n) := by
  induction digits generalizing n with
  | nil => simp [appendDigits]
  | cons char digits ih =>
      rw [Nat.ofDigitChars_cons] at small ⊢
      have next : n * 10 + (char.toNat - 48) = 10 * n + (char.toNat - '0'.toNat) := by
        rw [Nat.mul_comm]
        rfl
      have bounded := Nat.le_trans (ofDigitChars_ge digits _) small
      have step := exact.appends n (char.toNat - 48) (digit_reads (all char (by simp))).2.2.2
        (by omega)
      rw [← ih (fun other member => all other (by simp [member])) _ small, ← next]
      unfold appendDigits
      rw [List.foldl_cons, step]
      push_cast
      rfl

/-! ### Numbers -/

theorem digits_eq_some {text digits rest : List Char}
    (read : JsonText.digits text = some (digits, rest)) :
    text = digits ++ rest ∧ (∃ first others, digits = first :: others) ∧
      ∀ char ∈ digits, char.isDigit = true := by
  unfold JsonText.digits at read
  split_ifs at read with empty
  obtain ⟨rfl, rfl⟩ := Prod.mk.inj (Option.some.inj read)
  refine ⟨(List.takeWhile_append_dropWhile ..).symm, ?_, fun char member => ?_⟩
  · obtain ⟨first, others, same⟩ := List.exists_cons_of_ne_nil empty
    exact ⟨first, others, same⟩
  · exact List.mem_takeWhile_imp member

theorem numberExponent_plus {mark : UInt8} (marks : mark = 101 ∨ mark = 69) {num behind : Bytes}
    {power : Int} (reads : (exponentDigits 0 num).Yields (power, behind)) :
    (numberExponent (mark :: 43 :: num)).Yields (power, behind) := by
  rw [numberExponent, (peek_cons _ _).bind_eq, if_pos marks, List.drop_succ_cons, List.drop_zero,
    (peek_cons _ _).bind_eq, if_pos rfl]
  exact reads

theorem numberExponent_minus {mark : UInt8} (marks : mark = 101 ∨ mark = 69) {num behind : Bytes}
    {power : Int} (reads : (exponentDigits 0 num).Yields (power, behind)) :
    (numberExponent (mark :: 45 :: num)).Yields (-power, behind) := by
  rw [numberExponent, (peek_cons _ _).bind_eq, if_pos marks, List.drop_succ_cons, List.drop_zero,
    (peek_cons _ _).bind_eq, if_neg (by decide), if_pos rfl, List.drop_succ_cons, List.drop_zero,
    reads.bind_eq]
  exact Scan.yields_pure_iff.mpr rfl

theorem numberExponent_unsigned {mark first : UInt8} (marks : mark = 101 ∨ mark = 69)
    (digit : isDigit first) {num behind : Bytes} {power : Int}
    (reads : (exponentDigits 0 (first :: num)).Yields (power, behind)) :
    (numberExponent (mark :: first :: num)).Yields (power, behind) := by
  have notSign : ∀ byte : UInt8, isDigit byte → byte ≠ 43 ∧ byte ≠ 45 :=
    forall_byte (by decide +kernel)
  obtain ⟨notPlus, notMinus⟩ := notSign first digit
  rw [numberExponent, (peek_cons _ _).bind_eq, if_pos marks, List.drop_succ_cons, List.drop_zero,
    (peek_cons _ _).bind_eq, if_neg notPlus, if_neg notMinus]
  exact reads

theorem exponent_reads {text power rest : List Char} {memory : Bytes}
    (read : JsonText.exponent text = some (power, rest))
    (delimited : Delimited (encode rest ++ memory)) :
    ∃ subscale, (numberExponent (encode text ++ memory)).Yields (subscale, encode rest ++ memory) ∧
      (power = [] → subscale = 0) := by
  obtain ⟨stop, after, isBehind, noDigit, -, notLower, notUpper⟩ := delimited.exists_cons
  have stops : NoDigit (encode rest ++ memory) := ⟨stop, after, isBehind, noDigit⟩
  have nothing : (numberExponent (encode rest ++ memory)).Yields (0, encode rest ++ memory) := by
    rw [isBehind, numberExponent, (peek_cons _ _).bind_eq, if_neg (by simp [notLower, notUpper])]
    exact Scan.yields_pure_iff.mpr rfl
  cases text with
  | nil =>
      obtain ⟨rfl, rfl⟩ := Prod.mk.inj (Option.some.inj read)
      exact ⟨0, nothing, fun _ => rfl⟩
  | cons char text =>
      simp only [JsonText.exponent] at read
      split_ifs at read with isExponent
      · obtain ⟨⟨digits, behind⟩, isDigits, same⟩ := Option.map_eq_some_iff.mp read
        obtain ⟨rfl, rfl⟩ : _ = power ∧ behind = rest := Prod.mk.inj same
        obtain ⟨split, ⟨first, others, begins⟩, all⟩ := digits_eq_some isDigits
        have small : char.toNat < 128 := by
          rcases isExponent with rfl | rfl <;> decide
        have marks : char.toNat.toUInt8 = 101 ∨ char.toNat.toUInt8 = 69 := by
          rcases isExponent with rfl | rfl <;> decide
        obtain ⟨unsigned, reads⟩ := exponentDigits_reads all stops 0
        rw [← List.append_assoc, ← encode_append] at reads
        rw [encode_ascii small]
        cases text with
        | nil =>
            rw [begins] at split
            cases split
        | cons mark text =>
            by_cases isPlus : mark = '+'
            · obtain rfl := isPlus
              obtain rfl : text = digits ++ behind := split
              rw [encode_ascii (by decide)]
              exact ⟨unsigned, numberExponent_plus marks reads,
                fun empty => absurd empty (List.cons_ne_nil _ _)⟩
            by_cases isMinus : mark = '-'
            · obtain rfl := isMinus
              obtain rfl : text = digits ++ behind := split
              rw [encode_ascii (by decide)]
              exact ⟨-unsigned, numberExponent_minus marks reads,
                fun empty => absurd empty (List.cons_ne_nil _ _)⟩
            · have unmarked : JsonText.sign ['+', '-'] (mark :: text) = ([], mark :: text) := by
                simp [JsonText.sign, isPlus, isMinus]
              rw [unmarked] at split
              obtain rfl : mark = first := by
                rw [begins] at split
                exact (List.cons.inj split).1
              have digit := digit_reads (all mark (by simp [begins]))
              rw [← show mark :: text = digits ++ behind from split, encode_ascii digit.1] at reads
              rw [encode_ascii digit.1]
              exact ⟨unsigned, numberExponent_unsigned marks digit.2.1 reads,
                fun empty => absurd empty (List.cons_ne_nil _ _)⟩
      · obtain ⟨rfl, rfl⟩ := Prod.mk.inj (Option.some.inj read)
        exact ⟨0, nothing, fun _ => rfl⟩

/-- Before an exponent, or what delimits a number, stands no digit and no
point. -/
theorem exponent_head {text power rest : List Char} {memory : Bytes}
    (read : JsonText.exponent text = some (power, rest))
    (delimited : Delimited (encode rest ++ memory)) :
    ∃ byte tail, encode text ++ memory = byte :: tail ∧ ¬ isDigit byte ∧ byte ≠ 46 := by
  obtain ⟨stop, after, isBehind, noDigit, notPoint, -, -⟩ := delimited.exists_cons
  cases text with
  | nil =>
      obtain ⟨rfl, rfl⟩ := Prod.mk.inj (Option.some.inj read)
      exact ⟨stop, after, isBehind, noDigit, notPoint⟩
  | cons char text =>
      simp only [JsonText.exponent] at read
      split_ifs at read with isExponent
      · rcases isExponent with rfl | rfl
        · rw [encode_ascii (by decide)]
          exact ⟨_, _, rfl, by decide, by decide⟩
        · rw [encode_ascii (by decide)]
          exact ⟨_, _, rfl, by decide, by decide⟩
      · obtain ⟨rfl, rfl⟩ := Prod.mk.inj (Option.some.inj read)
        exact ⟨stop, after, isBehind, noDigit, notPoint⟩

theorem fraction_reads {text part rest : List Char} {memory : Bytes}
    (read : JsonText.fraction text = some (part, rest)) {stop : UInt8} {after : Bytes}
    (isBehind : encode rest ++ memory = stop :: after) (noDigit : ¬ isDigit stop)
    (notPoint : stop ≠ 46) (n : D) :
    ∃ n' scale, (numberFraction n (encode text ++ memory)).Yields
        (n', scale, encode rest ++ memory) ∧ (part = [] → n' = n ∧ scale = 0) ∧
      NoDigit (encode text ++ memory) := by
  have stops : NoDigit (encode rest ++ memory) := ⟨stop, after, isBehind, noDigit⟩
  have nothing : (numberFraction n (encode rest ++ memory)).Yields
      (n, 0, encode rest ++ memory) := by
    rw [isBehind, numberFraction, (peek_cons _ _).bind_eq, if_neg notPoint]
    exact Scan.yields_pure_iff.mpr rfl
  cases text with
  | nil =>
      obtain ⟨rfl, rfl⟩ := Prod.mk.inj (Option.some.inj read)
      exact ⟨n, 0, nothing, fun _ => ⟨rfl, rfl⟩, stops⟩
  | cons char text =>
      simp only [JsonText.fraction] at read
      split_ifs at read with isPoint
      · obtain rfl := isPoint
        obtain ⟨⟨digits, behind⟩, isDigits, same⟩ := Option.map_eq_some_iff.mp read
        obtain ⟨rfl, rfl⟩ : _ = part ∧ behind = rest := Prod.mk.inj same
        obtain ⟨rfl, ⟨first, others, rfl⟩, all⟩ := digits_eq_some isDigits
        have digit := digit_reads (all first (by simp))
        have reads := numberDigits_reads all stops n
        rw [encode_ascii (by decide), encode_append, List.cons_append, List.append_assoc]
        refine ⟨appendDigits n (first :: others), -((first :: others).length : Int), ?_,
          fun empty => absurd empty (List.cons_ne_nil _ _), _, _, rfl, by decide⟩
        rw [numberFraction, (peek_cons _ _).bind_eq, if_pos (by decide), List.drop_succ_cons,
          List.drop_zero]
        have peeks : (peek (encode (first :: others) ++ (encode behind ++ memory))).Yields
            first.toNat.toUInt8 := by
          rw [encode_digits all]
          exact peek_cons _ _
        rw [peeks.bind_eq, if_pos digit.2.1, reads.bind_eq]
        exact Scan.yields_pure_iff.mpr rfl
      · obtain ⟨rfl, rfl⟩ := Prod.mk.inj (Option.some.inj read)
        exact ⟨n, 0, nothing, fun _ => ⟨rfl, rfl⟩, stops⟩

/-- The digits before the point, of which a leading zero is skipped. -/
theorem integer_reads {text whole rest : List Char} {memory : Bytes}
    (read : JsonText.integer text = some (whole, rest)) (stops : NoDigit (encode rest ++ memory)) :
    ∃ (first : UInt8) (n : D), (peek (encode text ++ memory)).Yields first ∧ isDigit first ∧
      (numberInteger (if first = 48 then (encode text ++ memory).drop 1
        else encode text ++ memory)).Yields (n, encode rest ++ memory) ∧
      whole ≠ [] ∧ (∀ char ∈ whole, char.isDigit = true) ∧
      (ExactIntegers D → Nat.ofDigitChars 10 whole 0 ≤ 2 ^ 31 →
        n = ofInt (Nat.ofDigitChars 10 whole 0)) := by
  cases text with
  | nil => cases read
  | cons char text =>
      simp only [JsonText.integer] at read
      split_ifs at read with isZero
      · obtain rfl := isZero
        obtain ⟨rfl, rfl⟩ := Prod.mk.inj (Option.some.inj read)
        obtain ⟨stop, after, isBehind, noDigit⟩ := stops
        have notLeading : ¬ (49 ≤ stop ∧ stop ≤ 57) := fun ⟨above, below⟩ =>
          noDigit ⟨UInt8.le_trans (by decide) above, below⟩
        rw [encode_ascii (by decide), List.cons_append]
        refine ⟨48, ofInt 0, peek_cons _ _, by decide, ?_, by simp, by simp, fun _ _ => ?_⟩
        · rw [if_pos rfl, List.drop_succ_cons, List.drop_zero, isBehind, numberInteger,
            (peek_cons _ _).bind_eq, if_neg notLeading]
          exact Scan.yields_pure_iff.mpr rfl
        · rw [Nat.ofDigitChars_cons, Nat.ofDigitChars_nil]
          rfl
      · obtain ⟨split, ⟨first, others, rfl⟩, all⟩ := digits_eq_some read
        obtain ⟨rfl, rfl⟩ : char = first ∧ text = others ++ rest := List.cons.inj split
        have digit := digit_reads (all char (by simp))
        have reads := numberDigits_reads all stops (ofInt 0 : D)
        have notZero : char.toNat.toUInt8 ≠ 48 := by
          intro same
          have code := congrArg UInt8.toNat same
          rw [Nat.toUInt8, UInt8.toNat_ofNat', Nat.mod_eq_of_lt (by omega)] at code
          apply isZero
          rw [← Char.ofNat_toNat char, code]
          rfl
        have leading : 49 ≤ char.toNat.toUInt8 ∧ char.toNat.toUInt8 ≤ 57 :=
          ⟨UInt8.lt_of_le_of_ne digit.2.1.1 (Ne.symm notZero), digit.2.1.2⟩
        have opened : encode (char :: (others ++ rest)) ++ memory =
            encode (char :: others) ++ (encode rest ++ memory) := by
          rw [← List.cons_append, encode_append, List.append_assoc]
        rw [opened, encode_digits all] at *
        refine ⟨_, appendDigits (ofInt 0) (char :: others), peek_cons _ _, digit.2.1, ?_,
          by simp, all, fun exact small => ?_⟩
        · rw [if_neg notZero, numberInteger, (peek_cons _ _).bind_eq, if_pos leading,
            reads.bind_eq]
          exact Scan.yields_pure_iff.mpr rfl
        · exact appendDigits_exact exact all 0 small

theorem fraction_part {text part rest : List Char}
    (read : JsonText.fraction text = some (part, rest)) :
    part = [] ∨ ∃ digits, part = '.' :: digits := by
  cases text with
  | nil => exact .inl (Prod.mk.inj (Option.some.inj read)).1.symm
  | cons char text =>
      simp only [JsonText.fraction] at read
      split_ifs at read with isPoint
      · obtain ⟨made, -, same⟩ := Option.map_eq_some_iff.mp read
        exact .inr ⟨made.1, by rw [← (Prod.mk.inj same).1, isPoint]⟩
      · exact .inl (Prod.mk.inj (Option.some.inj read)).1.symm

theorem exponent_power {text power rest : List Char}
    (read : JsonText.exponent text = some (power, rest)) :
    power = [] ∨ ∃ mark digits, power = mark :: digits ∧ mark.isDigit = false := by
  cases text with
  | nil => exact .inl (Prod.mk.inj (Option.some.inj read)).1.symm
  | cons char text =>
      simp only [JsonText.exponent] at read
      split_ifs at read with isExponent
      · obtain ⟨made, -, same⟩ := Option.map_eq_some_iff.mp read
        refine .inr ⟨char, _, (Prod.mk.inj same).1.symm, ?_⟩
        rcases isExponent with rfl | rfl <;> decide
      · exact .inl (Prod.mk.inj (Option.some.inj read)).1.symm

/-- A number in plain digits has neither a point nor an exponent. -/
theorem parts_of_all {whole part power behindWhole behindPart rest : List Char}
    (isPart : JsonText.fraction behindWhole = some (part, behindPart))
    (isPower : JsonText.exponent behindPart = some (power, rest))
    (all : (whole ++ part ++ power).all Char.isDigit) : part = [] ∧ power = [] := by
  rw [List.all_append, List.all_append, Bool.and_eq_true, Bool.and_eq_true] at all
  constructor
  · rcases fraction_part isPart with empty | ⟨digits, rfl⟩
    · exact empty
    · exact absurd all.1.2 (by simp)
  · rcases exponent_power isPower with empty | ⟨mark, digits, rfl, other⟩
    · exact empty
    · exact absurd all.2 (by simp [other])

/-- A number is read to its end. -/
theorem parseNumber_reads {text digits rest : List Char} {memory : Bytes}
    (read : JsonText.number text = some (digits, rest))
    (delimited : Delimited (encode rest ++ memory)) :
    ∃ (first : UInt8) (n : D), (peek (encode text ++ memory)).Yields first ∧
      (first = 45 ∨ isDigit first) ∧
      (parseNumber (encode text ++ memory)).Yields (n, encode rest ++ memory) ∧
      (ExactIntegers D → JsonText.IsWhole digits → ∀ integer : Int,
        (JsonText.numeral digits).value = integer → -2 ^ 31 ≤ integer → integer < 2 ^ 31 →
        toInt n = integer) := by
  unfold JsonText.number at read
  simp only [Option.bind_eq_bind, Option.bind_eq_some_iff, Prod.exists] at read
  obtain ⟨whole, behindWhole, isWhole, part, behindPart, isPart, power, rest, isPower, same⟩ := read
  obtain ⟨rfl, rfl⟩ := Prod.mk.inj (Option.some.inj same)
  obtain ⟨subscale, exponentReads, noPower⟩ := exponent_reads isPower delimited
  obtain ⟨stop, after, isBehind, noDigit, notPoint⟩ := exponent_head isPower delimited
  obtain ⟨-, -, -, -, stops⟩ := fraction_reads isPart isBehind noDigit notPoint (ofInt 0 : D)
  obtain ⟨first, n, peeks, digit, integerReads, nonempty, all, exactly⟩ :=
    integer_reads (D := D) isWhole stops
  obtain ⟨n', scale, fractionReads, noPart, -⟩ :=
    fraction_reads isPart isBehind noDigit notPoint n
  have ends (sign : Int) : (scaledNumber sign (if first = 48
      then (encode (JsonText.sign ['-'] text).2 ++ memory).drop 1
      else encode (JsonText.sign ['-'] text).2 ++ memory)).Yields
      (mul (mul (ofInt sign) n') (pow10 (scale + subscale)), encode rest ++ memory) := by
    rw [scaledNumber, integerReads.bind_eq]
    dsimp only
    rw [fractionReads.bind_eq]
    dsimp only
    rw [exponentReads.bind_eq]
    exact Scan.yields_pure_iff.mpr rfl
  have value (exact : ExactIntegers D) (sign : Int) (isSign : sign = 1 ∨ sign = -1)
      (plain : (whole ++ part ++ power).all Char.isDigit) (integer : Int)
      (same : integer = sign * (Nat.ofDigitChars 10 (whole ++ part ++ power) 0 : Nat))
      (above : -2 ^ 31 ≤ integer) (below : integer < 2 ^ 31) :
      toInt (mul (mul (ofInt sign : D) n') (pow10 (scale + subscale))) = integer := by
    obtain ⟨rfl, rfl⟩ := parts_of_all isPart isPower plain
    obtain ⟨rfl, rfl⟩ := noPart rfl
    obtain rfl := noPower rfl
    rw [List.append_nil, List.append_nil] at same
    have small : Nat.ofDigitChars 10 whole 0 ≤ 2 ^ 31 := by
      rcases isSign with rfl | rfl <;> omega
    rw [exactly exact small, same]
    exact exact.scales sign _ isSign (same ▸ above) (same ▸ below)
  cases text with
  | nil => cases isWhole
  | cons char text =>
      by_cases minus : char = '-'
      · obtain rfl := minus
        have signed : JsonText.sign ['-'] ('-' :: text) = (['-'], text) := rfl
        rw [signed] at peeks ends
        rw [encode_ascii (by decide), List.cons_append]
        refine ⟨45, mul (mul (ofInt (-1)) n') (pow10 (scale + subscale)), peek_cons _ _, .inl rfl,
          ?_, ?_⟩
        · rw [parseNumber, (peek_cons _ _).bind_eq]
          dsimp only
          rw [if_pos (by decide), List.drop_succ_cons, List.drop_zero, peeks.bind_eq,
            if_pos (by decide)]
          exact ends (-1)
        · intro exact isWhole integer same above below
          refine value exact (-1) (.inr rfl) isWhole integer ?_ above below
          exact_mod_cast same.symm.trans (JsonText.numeral_value_of_isWhole isWhole)
      · have unsigned : JsonText.sign ['-'] (char :: text) = ([], char :: text) := by
          simp [JsonText.sign, minus]
        have notMinus : first ≠ 45 := by
          rintro rfl
          exact absurd digit (by decide)
        rw [unsigned] at peeks ends ⊢
        refine ⟨first, mul (mul (ofInt 1) n') (pow10 (scale + subscale)), peeks, .inr digit,
          ?_, ?_⟩
        · rw [parseNumber, peeks.bind_eq]
          dsimp only
          rw [if_neg notMinus, peeks.bind_eq, if_neg notMinus]
          exact ends 1
        · intro exact plain integer same above below
          have leads : JsonText.sign ['-'] (whole ++ part ++ power) =
              ([], whole ++ part ++ power) := by
            obtain ⟨other, others, rfl⟩ := List.exists_cons_of_ne_nil nonempty
            have isDigit := all other (by simp)
            have notSign : other ≠ '-' := by
              rintro rfl
              exact absurd isDigit (by decide)
            simp [JsonText.sign, notSign]
          have isPlain : (whole ++ part ++ power).all Char.isDigit := by
            rw [List.nil_append, JsonText.IsWhole, leads] at plain
            exact plain
          refine value exact 1 (.inl rfl) isPlain integer ?_ above below
          have known := same.symm.trans (JsonText.numeral_value_of_isWhole plain)
          rw [List.nil_append, leads] at known
          exact_mod_cast known

end Digits

end CJsonParser

end OnlineProgram
