import OnlineProgram.CJsonParser

/-!
# The parser stays inside the text

The parser reads up to the zero that ends its text and no further, with one
exception: in a string that is not closed it skips the byte behind a backslash,
even the final zero.  This file follows the pointer through the parser, and
relates the two loops over a string, of which the first measures the block that
the second fills.
-/

namespace OnlineProgram

open ByteStrings CMemory

namespace CJsonParser

/-- Memory from a pointer on in which a zero comes, also where the byte behind a
backslash is skipped. -/
inductive Terminated : Bytes → Prop
  | zero (rest : Bytes) : Terminated (0 :: rest)
  | plain {byte : UInt8} {rest : Bytes} (notEscape : byte ≠ backslash)
      (next : Terminated rest) : Terminated (byte :: rest)
  | escape {code : UInt8} {rest : Bytes} (next : Terminated (code :: rest))
      (behind : Terminated rest) : Terminated (backslash :: code :: rest)

namespace Terminated

theorem tail {byte : UInt8} {rest : Bytes} (terminated : Terminated (byte :: rest))
    (nonzero : byte ≠ 0) : Terminated rest := by
  cases terminated with
  | zero => exact absurd rfl nonzero
  | plain _ next => exact next
  | escape next _ => exact next

theorem behind_escape {code : UInt8} {rest : Bytes}
    (terminated : Terminated (backslash :: code :: rest)) : Terminated rest := by
  cases terminated with
  | plain notEscape _ => exact absurd rfl notEscape
  | escape _ behind => exact behind

theorem exists_cons {ptr : Bytes} (terminated : Terminated ptr) :
    ∃ byte rest, ptr = byte :: rest := by
  cases terminated with
  | zero rest => exact ⟨0, rest, rfl⟩
  | plain _ _ => exact ⟨_, _, rfl⟩
  | escape _ _ => exact ⟨_, _, rfl⟩

theorem drop_of_nonzero {ptr : Bytes} (terminated : Terminated ptr) {front rest : Bytes}
    (same : ptr = front ++ rest) (nonzero : (0 : UInt8) ∉ front) : Terminated rest := by
  induction front generalizing ptr with
  | nil =>
      obtain rfl : ptr = rest := same
      exact terminated
  | cons byte front ih =>
      obtain ⟨byteNonzero, frontNonzero⟩ : ¬ 0 = byte ∧ (0 : UInt8) ∉ front := by
        simpa using nonzero
      subst same
      exact ih (terminated.tail (Ne.symm byteNonzero)) rfl frontNonzero

end Terminated

/-- A text with its final zero, which is doubled where the text ends in a
backslash. -/
theorem terminated_append {text rest : Bytes} (nonzero : (0 : UInt8) ∉ text)
    (doubled : text.getLast? = some backslash → rest.head? = some 0) :
    Terminated (text ++ 0 :: rest) := by
  induction text with
  | nil => exact .zero rest
  | cons byte text ih =>
      obtain ⟨byteNonzero, textNonzero⟩ : ¬ 0 = byte ∧ (0 : UInt8) ∉ text := by
        simpa using nonzero
      cases text with
      | nil =>
          by_cases isEscape : byte = backslash
          · subst isEscape
            obtain ⟨more, rfl⟩ := List.head?_eq_some_iff.mp (doubled rfl)
            exact .escape (.zero _) (.zero more)
          · exact .plain isEscape (.zero rest)
      | cons code text =>
          have next : Terminated (code :: text ++ 0 :: rest) :=
            ih textNonzero (by simpa using doubled)
          have codeNonzero : code ≠ 0 := fun zero => textNonzero (by simp [zero])
          by_cases isEscape : byte = backslash
          · subst isEscape
            exact .escape next (next.tail codeNonzero)
          · exact .plain isEscape next

/-! ### Characters -/

theorem peek_cons (byte : UInt8) (rest : Bytes) : (peek (byte :: rest)).Yields byte :=
  Scan.yields_access_iff.mpr rfl

theorem peek_yields_iff {ptr : Bytes} {byte : UInt8} :
    (peek ptr).Yields byte ↔ ∃ rest, ptr = byte :: rest := by
  cases ptr with
  | nil =>
      unfold peek loadByte
      simp
  | cons head rest =>
      unfold peek loadByte
      simp [eq_comm]

theorem Terminated.peek {ptr : Bytes} (terminated : Terminated ptr) :
    ∃ byte rest, ptr = byte :: rest ∧ (peek ptr).Yields byte := by
  obtain ⟨byte, rest, rfl⟩ := terminated.exists_cons
  exact ⟨byte, rest, rfl, peek_cons byte rest⟩

/-- A scan that is safe and leaves its pointer inside, below a bound. -/
def Stays {α : Type} (scan : Scan Fault (α × Bytes)) (bound : Nat) : Prop :=
  scan.Ensures fun made => Terminated made.2 ∧ made.2.length < bound

namespace Stays

variable {α β : Type}

theorem pure {value : α} {rest : Bytes} {bound : Nat} (inside : Terminated rest)
    (shorter : rest.length < bound) :
    Stays (Pure.pure (value, rest) : Scan Fault (α × Bytes)) bound :=
  Scan.Ensures.pure ⟨inside, shorter⟩

theorem reject (bound : Nat) : Stays (.reject : Scan Fault (α × Bytes)) bound :=
  Scan.Ensures.reject

theorem bind {first : Scan Fault (β × Bytes)} {next : β × Bytes → Scan Fault (α × Bytes)}
    {between bound : Nat} (begins : Stays first between)
    (ends : ∀ value rest, Terminated rest → rest.length < between →
      Stays (next (value, rest)) bound) : Stays (first >>= next) bound :=
  Scan.Ensures.bind begins fun made inside => ends made.1 made.2 inside.1 inside.2

theorem mono {scan : Scan Fault (α × Bytes)} {bound more : Nat} (stays : Stays scan bound)
    (le : bound ≤ more) : Stays scan more :=
  Scan.Ensures.mono stays fun _ inside => ⟨inside.1, Nat.lt_of_lt_of_le inside.2 le⟩

end Stays

theorem skip_spec {ptr : Bytes} (terminated : Terminated ptr) :
    ∃ rest, (skip ptr).Yields rest ∧ Terminated rest ∧ rest.length ≤ ptr.length := by
  induction ptr with
  | nil => cases terminated
  | cons byte rest ih =>
      unfold skip
      by_cases blank : byte ≠ 0 ∧ byte ≤ 32
      · obtain ⟨later, skips, inside, shorter⟩ := ih (terminated.tail blank.1)
        rw [if_pos blank]
        exact ⟨later, skips, inside, Nat.le_succ_of_le shorter⟩
      · rw [if_neg blank]
        exact ⟨_, Scan.yields_pure_iff.mpr rfl, terminated, Nat.le_refl _⟩

/-- Skip blanks and go on. -/
theorem Stays.skip {α : Type} {ptr : Bytes} {next : Bytes → Scan Fault (α × Bytes)}
    {bound : Nat} (terminated : Terminated ptr)
    (ends : ∀ rest, Terminated rest → rest.length ≤ ptr.length → Stays (next rest) bound) :
    Stays (CJsonParser.skip ptr >>= next) bound := by
  obtain ⟨rest, skips, inside, shorter⟩ := skip_spec terminated
  rw [skips.bind_eq]
  exact ends rest inside shorter

theorem Stays.peek {α : Type} {ptr : Bytes} {next : UInt8 → Scan Fault (α × Bytes)}
    {bound : Nat} (terminated : Terminated ptr)
    (ends : ∀ byte rest, ptr = byte :: rest → Stays (next byte) bound) :
    Stays (CJsonParser.peek ptr >>= next) bound := by
  obtain ⟨byte, rest, same, peeks⟩ := terminated.peek
  rw [peeks.bind_eq]
  exact ends byte rest same

theorem startsWith_spec {ptr literal : Bytes} (terminated : Terminated ptr)
    (nonzero : (0 : UInt8) ∉ literal) :
    (startsWith ptr literal).Yields (decide (literal <+: ptr)) := by
  induction literal generalizing ptr with
  | nil => cases ptr <;> simp [startsWith]
  | cons first literal ih =>
      obtain ⟨firstNonzero, literalNonzero⟩ : ¬ 0 = first ∧ (0 : UInt8) ∉ literal := by
        simpa using nonzero
      obtain ⟨byte, rest, rfl⟩ := terminated.exists_cons
      unfold startsWith
      by_cases same : byte = first
      · have byteNonzero : byte ≠ 0 := by
          rw [same]
          exact Ne.symm firstNonzero
        rw [if_pos same]
        simpa [same] using ih (terminated.tail byteNonzero) literalNonzero
      · have differs : ¬ first :: literal <+: byte :: rest := fun isPrefix =>
          same (List.cons_prefix_cons.mp isPrefix).1.symm
        simp [same, differs]

/-- Look for a literal and go on. -/
theorem Stays.startsWith {α : Type} {ptr literal : Bytes}
    {next : Bool → Scan Fault (α × Bytes)} {bound : Nat} (terminated : Terminated ptr)
    (nonzero : (0 : UInt8) ∉ literal)
    (found : ∀ rest, ptr = literal ++ rest → Terminated rest → Stays (next true) bound)
    (missed : Stays (next false) bound) :
    Stays (CJsonParser.startsWith ptr literal >>= next) bound := by
  rw [(startsWith_spec terminated nonzero).bind_eq]
  by_cases isPrefix : literal <+: ptr
  · obtain ⟨rest, same⟩ := isPrefix
    rw [decide_eq_true ⟨rest, same⟩]
    exact found rest same.symm (terminated.drop_of_nonzero same.symm nonzero)
  · rw [decide_eq_false isPrefix]
    exact missed

/-! ### Strings -/

theorem hexValue_nonzero {byte : UInt8} {digit : Nat} (isDigit : hexValue byte = some digit) :
    byte ≠ 0 ∧ byte ≠ quote ∧ byte ≠ backslash ∧ digit < 16 := by
  have every : ∀ byte, ∀ digit ∈ hexValue byte,
      byte ≠ 0 ∧ byte ≠ quote ∧ byte ≠ backslash ∧ digit < 16 :=
    forall_byte (by decide +kernel)
  exact every byte digit isDigit

theorem hexDigits_spec (count h : Nat) {ptr : Bytes} (terminated : Terminated ptr) :
    ∃ uc, (hexDigits count h ptr).Yields uc := by
  induction count generalizing h ptr with
  | zero => exact ⟨h, Scan.yields_pure_iff.mpr rfl⟩
  | succ count ih =>
      obtain ⟨byte, rest, rfl⟩ := terminated.exists_cons
      unfold hexDigits
      cases isDigit : hexValue byte with
      | none => exact ⟨0, Scan.yields_pure_iff.mpr rfl⟩
      | some digit => exact ih _ (terminated.tail (hexValue_nonzero isDigit).1)

/-- What is not zero has been read from hexadecimal digits. -/
theorem hexDigits_digits {count h uc : Nat} {ptr : Bytes} (terminated : Terminated ptr)
    (reads : (hexDigits count h ptr).Yields uc) (nonzero : uc ≠ 0) :
    ∃ digits rest, ptr = digits ++ rest ∧ digits.length = count ∧
      ∀ byte ∈ digits, byte ≠ 0 ∧ byte ≠ quote ∧ byte ≠ backslash := by
  induction count generalizing h ptr with
  | zero => exact ⟨[], ptr, rfl, rfl, by simp⟩
  | succ count ih =>
      obtain ⟨byte, rest, rfl⟩ := terminated.exists_cons
      unfold hexDigits at reads
      cases isDigit : hexValue byte with
      | none =>
          rw [isDigit] at reads
          exact absurd (Scan.yields_pure_iff.mp reads).symm nonzero
      | some digit =>
          rw [isDigit] at reads
          obtain ⟨byteNonzero, notQuote, notEscape, -⟩ := hexValue_nonzero isDigit
          obtain ⟨digits, rest, rfl, length, plain⟩ :=
            ih (terminated.tail byteNonzero) reads
          refine ⟨byte :: digits, rest, rfl, by simp [length], ?_⟩
          intro other member
          rcases List.mem_cons.mp member with rfl | later
          · exact ⟨byteNonzero, notQuote, notEscape⟩
          · exact plain other later

theorem hexDigits_lt {count h uc : Nat} {ptr : Bytes}
    (reads : (hexDigits count h ptr).Yields uc) : uc < (h + 1) * 16 ^ count := by
  induction count generalizing h ptr with
  | zero =>
      obtain rfl := Scan.yields_pure_iff.mp reads
      omega
  | succ count ih =>
      cases ptr with
      | nil => exact absurd reads Scan.not_yields_fault
      | cons byte rest =>
          unfold hexDigits at reads
          cases isDigit : hexValue byte with
          | none =>
              rw [isDigit] at reads
              obtain rfl := Scan.yields_pure_iff.mp reads
              positivity
          | some digit =>
              rw [isDigit] at reads
              have small := (hexValue_nonzero isDigit).2.2.2
              calc
                uc < (h * 16 + digit + 1) * 16 ^ count := ih reads
                _ ≤ ((h + 1) * 16) * 16 ^ count := Nat.mul_le_mul_right _ (by omega)
                _ = (h + 1) * 16 ^ (count + 1) := by ring

theorem transcode_length (mark more uc : Nat) (behind : Bytes) :
    (transcode mark more uc behind).length = more + 1 + behind.length := by
  induction more generalizing uc behind with
  | zero => simp [transcode, Nat.add_comm]
  | succ more ih =>
      rw [transcode, ih, List.length_cons]
      omega

theorem utf8Bytes_length (uc : Nat) : (utf8Bytes uc).length = utf8Length uc := by
  have positive : 0 < utf8Length uc := by
    unfold utf8Length
    split_ifs <;> decide
  rw [utf8Bytes, transcode_length, List.length_nil]
  omega

theorem utf8Length_le (uc : Nat) : utf8Length uc ≤ 4 ∧ (uc < 0x10000 → utf8Length uc ≤ 3) := by
  unfold utf8Length
  split_ifs <;> omega

/-! #### The two loops over a string -/

theorem stringEnd_cons {byte : UInt8} {rest : Bytes} {distance len : Nat}
    (notQuote : byte ≠ quote) (nonzero : byte ≠ 0) (notEscape : byte ≠ backslash) :
    (stringEnd (byte :: rest)).Yields (distance, len) ↔
      ∃ d l, (stringEnd rest).Yields (d, l) ∧ distance = d + 1 ∧ len = l + 1 := by
  rw [stringEnd.eq_def]
  dsimp only
  rw [if_neg (by simp [notQuote, nonzero]), if_neg notEscape, Scan.yields_bind_iff]
  constructor
  · rintro ⟨⟨d, l⟩, yields, same⟩
    obtain ⟨rfl, rfl⟩ := Prod.mk.inj (Scan.yields_pure_iff.mp same)
    exact ⟨d, l, yields, rfl, rfl⟩
  · rintro ⟨d, l, yields, rfl, rfl⟩
    exact ⟨(d, l), yields, Scan.yields_pure_iff.mpr rfl⟩

theorem stringEnd_escape {code : UInt8} {rest : Bytes} {distance len : Nat} :
    (stringEnd (backslash :: code :: rest)).Yields (distance, len) ↔
      ∃ d l, (stringEnd rest).Yields (d, l) ∧ distance = d + 2 ∧ len = l + 1 := by
  rw [stringEnd.eq_def]
  dsimp only
  rw [if_neg (by decide), if_pos rfl, Scan.yields_bind_iff]
  constructor
  · rintro ⟨⟨d, l⟩, yields, same⟩
    obtain ⟨rfl, rfl⟩ := Prod.mk.inj (Scan.yields_pure_iff.mp same)
    exact ⟨d, l, yields, rfl, rfl⟩
  · rintro ⟨d, l, yields, rfl, rfl⟩
    exact ⟨(d, l), yields, Scan.yields_pure_iff.mpr rfl⟩

theorem stringEnd_stop {byte : UInt8} (stops : byte = quote ∨ byte = 0) (rest : Bytes) :
    (stringEnd (byte :: rest)).Yields (0, 0) := by
  rw [stringEnd.eq_def]
  dsimp only
  rw [if_pos stops]
  exact Scan.yields_pure_iff.mpr rfl

/-- Plain bytes are counted one by one. -/
theorem stringEnd_plain {digits rest : Bytes} {distance len : Nat}
    (plain : ∀ byte ∈ digits, byte ≠ 0 ∧ byte ≠ quote ∧ byte ≠ backslash) :
    (stringEnd (digits ++ rest)).Yields (distance, len) ↔
      ∃ d l, (stringEnd rest).Yields (d, l) ∧ distance = d + digits.length ∧
        len = l + digits.length := by
  induction digits generalizing distance len with
  | nil =>
      constructor
      · intro ends
        exact ⟨distance, len, ends, rfl, rfl⟩
      · rintro ⟨d, l, ends, rfl, rfl⟩
        exact ends
  | cons byte digits ih =>
      obtain ⟨nonzero, notQuote, notEscape⟩ := plain byte (by simp)
      rw [List.cons_append, stringEnd_cons notQuote nonzero notEscape, List.length_cons]
      constructor
      · rintro ⟨d, l, later, rfl, rfl⟩
        obtain ⟨d, l, last, rfl, rfl⟩ :=
          (ih fun other member => plain other (by simp [member])).mp later
        exact ⟨d, l, last, rfl, rfl⟩
      · rintro ⟨d, l, last, rfl, rfl⟩
        exact ⟨_, _, (ih fun other member => plain other (by simp [member])).mpr
          ⟨d, l, last, rfl, rfl⟩, rfl, rfl⟩

theorem stringEnd_spec {ptr : Bytes} (terminated : Terminated ptr) :
    ∃ distance len, (stringEnd ptr).Yields (distance, len) ∧ distance ≤ ptr.length := by
  induction ptr using stringEnd.induct with
  | case1 => cases terminated
  | case2 byte rest stops => exact ⟨0, 0, stringEnd_stop stops rest, Nat.zero_le _⟩
  | case3 =>
      cases terminated with
      | plain _ next => cases next
  | case4 code rest _ ih =>
      obtain ⟨distance, len, yields, short⟩ := ih terminated.behind_escape
      exact ⟨distance + 2, len + 1, stringEnd_escape.mpr ⟨distance, len, yields, rfl, rfl⟩,
        by simp [short]⟩
  | case5 byte rest stops notEscape ih =>
      obtain ⟨notQuote, nonzero⟩ := not_or.mp stops
      obtain ⟨distance, len, yields, short⟩ := ih (terminated.tail nonzero)
      exact ⟨distance + 1, len + 1,
        (stringEnd_cons notQuote nonzero notEscape).mpr ⟨distance, len, yields, rfl, rfl⟩,
        by simp [short]⟩

/-- What an escape of a character takes, and what the first loop has counted for
it. -/
structure Takes (digits : Bytes) (distance len uc taken : Nat) (front rest : Bytes) : Prop where
  split : digits = front ++ rest
  length : front.length = taken
  nonzero : (0 : UInt8) ∉ front
  counted : ∃ d l, (stringEnd rest).Yields (d, l) ∧ distance = d + taken ∧
    l + utf8Length uc ≤ len + 1

theorem not_mem_of_plain {digits : Bytes}
    (plain : ∀ byte ∈ digits, byte ≠ 0 ∧ byte ≠ quote ∧ byte ≠ backslash) :
    (0 : UInt8) ∉ digits :=
  fun member => (plain 0 member).1 rfl

theorem unicodeEscape_spec {digits : Bytes} {left distance len : Nat}
    (terminated : Terminated digits) (ends : (stringEnd digits).Yields (distance, len)) :
    (unicodeEscape digits left).Ensures fun made =>
      ∃ front rest, Takes digits distance len made.1 made.2 front rest := by
  obtain ⟨first, reads⟩ := hexDigits_spec 4 0 terminated
  have firstReads : (parseHex4 digits).Yields first := reads
  rw [unicodeEscape, firstReads.bind_eq]
  split_ifs with short invalid high shortPair
  · exact .reject
  · exact .reject
  · exact .reject
  all_goals
    have firstNonzero : first ≠ 0 := fun zero => invalid (.inr zero)
    obtain ⟨front, rest, rfl, frontLength, plain⟩ :=
      hexDigits_digits terminated reads firstNonzero
    have frontNonzero := not_mem_of_plain plain
    have inside := terminated.drop_of_nonzero rfl frontNonzero
    obtain ⟨d, l, later, rfl, rfl⟩ := (stringEnd_plain plain).mp ends
  · rw [List.drop_left' frontLength, (startsWith_spec inside (by decide)).bind_eq]
    by_cases isPair : [backslash, 117] <+: rest
    · obtain ⟨behind, rfl⟩ := isPair
      have behindInside : Terminated behind := inside.behind_escape
      have dropped : (front ++ ([backslash, 117] ++ behind)).drop 6 = behind := by
        rw [← List.append_assoc]
        exact List.drop_left' (by simp [frontLength])
      obtain ⟨second, secondReads⟩ := hexDigits_spec 4 0 behindInside
      have yieldsSecond : (parseHex4 behind).Yields second := secondReads
      rw [decide_eq_true ⟨behind, rfl⟩, if_pos rfl, dropped, yieldsSecond.bind_eq]
      split_ifs with unpaired
      · exact .reject
      · obtain ⟨d, l, last, rfl, rfl⟩ := stringEnd_escape.mp later
        obtain ⟨others, rest, rfl, othersLength, othersPlain⟩ :=
          hexDigits_digits behindInside secondReads (by omega)
        obtain ⟨d, l, final, rfl, rfl⟩ := (stringEnd_plain othersPlain).mp last
        have fits := (utf8Length_le (0x10000 +
          (((first &&& 0x3FF) <<< 10) ||| (second &&& 0x3FF)))).1
        refine .pure ⟨front ++ [backslash, 117] ++ others, rest, by simp,
          by simp [frontLength, othersLength], ?_, d, l, final, ?_, ?_⟩
        · simp [frontNonzero, not_mem_of_plain othersPlain, backslash]
        · dsimp only
          omega
        · dsimp only
          omega
    · rw [decide_eq_false isPair]
      exact .reject
  · have small := hexDigits_lt reads
    have fits := (utf8Length_le first).2 (by omega)
    refine .pure ⟨front, rest, rfl, frontLength, frontNonzero, d, l, later, ?_, ?_⟩
    · dsimp only
      omega
    · dsimp only
      omega

theorem put_yields {capacity : Nat} {out bytes : Bytes}
    (fits : out.length + bytes.length ≤ capacity) :
    (put capacity out bytes).Yields (out ++ bytes) := by
  rw [put, if_pos fits]
  exact Scan.yields_pure_iff.mpr rfl

/-- The block has room for all that the first loop has counted. -/
theorem copyString_spec {len steps left more : Nat} {ptr out : Bytes}
    (terminated : Terminated ptr) (ends : (stringEnd ptr).Yields (left, more))
    (room : out.length + more ≤ len) (enough : left < steps) :
    (copyString (len + 1) steps left ptr out).Ensures fun made =>
      Terminated made.2 ∧ made.2.length ≤ ptr.length ∧ made.1.length ≤ len := by
  induction steps generalizing left more ptr out with
  | zero => omega
  | succ steps ih =>
      unfold copyString
      by_cases done : left = 0
      · rw [if_pos done]
        exact .pure ⟨terminated, Nat.le_refl _, Nat.le_trans (Nat.le_add_right _ _) room⟩
      rw [if_neg done]
      obtain ⟨byte, rest, rfl⟩ := terminated.exists_cons
      have goesOn : ¬ (byte = quote ∨ byte = 0) := fun stops => by
        have same := (stringEnd_stop stops rest).unique ends
        exact done (Prod.mk.inj same).1.symm
      obtain ⟨notQuote, nonzero⟩ := not_or.mp goesOn
      dsimp only
      by_cases notEscape : byte ≠ backslash
      · rw [if_pos notEscape]
        obtain ⟨d, l, later, rfl, rfl⟩ := (stringEnd_cons notQuote nonzero notEscape).mp ends
        rw [(put_yields (by simp; omega)).bind_eq]
        have fits : (out ++ [byte]).length + l ≤ len := by
          rw [List.length_append, List.length_singleton]
          omega
        have copied := ih (terminated.tail nonzero) later fits (by omega)
        exact copied.mono fun made ⟨inside, shorter, fits⟩ =>
          ⟨inside, Nat.le_succ_of_le shorter, fits⟩
      · rw [if_neg notEscape]
        obtain rfl : byte = backslash := not_not.mp notEscape
        obtain ⟨code, rest, rfl⟩ := (terminated.tail nonzero).exists_cons
        obtain ⟨d, l, later, rfl, rfl⟩ := stringEnd_escape.mp ends
        have inside := terminated.behind_escape
        dsimp only
        split_ifs with isUnicode
        · refine (unicodeEscape_spec inside later).bind ?_
          rintro ⟨uc, taken⟩ ⟨front, behind, rfl, rfl, frontNonzero, d', l', last, rfl, counted⟩
          dsimp only at counted ⊢
          rw [(put_yields (by rw [utf8Bytes_length]; omega)).bind_eq, List.drop_left]
          have rounds : d' + front.length + 2 - 2 - front.length = d' := by omega
          have fits : (out ++ utf8Bytes uc).length + l' ≤ len := by
            rw [List.length_append, utf8Bytes_length]
            omega
          have copied := ih (inside.drop_of_nonzero rfl frontNonzero) last fits (by omega)
          rw [rounds]
          refine copied.mono fun made ⟨inside, shorter, fits⟩ => ⟨inside, ?_, fits⟩
          simp only [List.length_cons, List.length_append]
          omega
        · rw [(put_yields (by simp; omega)).bind_eq]
          have fits : (out ++ [escaped code]).length + l ≤ len := by
            rw [List.length_append, List.length_singleton]
            omega
          have copied := ih inside later fits (by omega)
          refine copied.mono fun made ⟨inside, shorter, fits⟩ => ⟨inside, ?_, fits⟩
          simp only [List.length_cons]
          omega

theorem parseString_stays {ptr : Bytes} (terminated : Terminated ptr) :
    Stays (parseString ptr) ptr.length := by
  obtain ⟨byte, str, rfl⟩ := terminated.exists_cons
  unfold parseString
  dsimp only
  split_ifs with notQuote
  · exact .reject _
  obtain rfl : byte = quote := not_not.mp notQuote
  have inside := terminated.tail (by decide)
  obtain ⟨distance, len, ends, -⟩ := stringEnd_spec inside
  rw [ends.bind_eq]
  have empty : ([] : Bytes).length + len ≤ len := Nat.le_of_eq (Nat.zero_add len)
  refine (copyString_spec inside ends empty (Nat.lt_succ_self distance)).bind ?_
  rintro ⟨out, rest⟩ ⟨restInside, short, fits⟩
  dsimp only at restInside short fits ⊢
  rw [(put_yields (by simp; omega)).bind_eq]
  refine Stays.peek restInside fun byte behind same => ?_
  subst same
  rw [List.length_cons] at short ⊢
  split_ifs with closed
  · refine Stays.pure (restInside.tail (by rw [closed]; decide)) ?_
    rw [List.drop_succ_cons, List.drop_zero]
    omega
  · refine Stays.pure restInside ?_
    rw [List.length_cons]
    omega

/-! ### Numbers -/

section Numbers

variable {D : Type} [DoubleArithmetic D]

theorem isDigit_nonzero {byte : UInt8} (digit : isDigit byte) : byte ≠ 0 := by
  rintro rfl
  exact absurd digit (by decide)

theorem numberDigits_spec {n : D} {num : Bytes} (terminated : Terminated num) :
    (numberDigits n num).Ensures fun made =>
      Terminated made.2.2 ∧ made.2.2.length ≤ num.length := by
  induction num generalizing n with
  | nil => cases terminated
  | cons byte num ih =>
      unfold numberDigits
      split_ifs with digit
      · refine (ih (terminated.tail (isDigit_nonzero digit))).bind ?_
        rintro ⟨n, count, rest⟩ ⟨inside, shorter⟩
        exact .pure ⟨inside, Nat.le_succ_of_le shorter⟩
      · exact .pure ⟨terminated, Nat.le_refl _⟩

theorem exponentDigits_spec {subscale : Int} {num : Bytes} (terminated : Terminated num) :
    Stays (exponentDigits subscale num) (num.length + 1) := by
  induction num generalizing subscale with
  | nil => cases terminated
  | cons byte num ih =>
      unfold exponentDigits
      split_ifs with digit
      · exact (ih (terminated.tail (isDigit_nonzero digit))).mono (by simp)
      · exact .pure terminated (Nat.lt_succ_self _)

theorem numberFraction_spec {n : D} {num : Bytes} (terminated : Terminated num) :
    (numberFraction n num).Ensures fun made =>
      Terminated made.2.2 ∧ made.2.2.length ≤ num.length := by
  obtain ⟨byte, rest, rfl, peeks⟩ := terminated.peek
  rw [numberFraction, peeks.bind_eq]
  split_ifs with isPoint
  · have inside := terminated.tail (by rw [isPoint]; decide)
    obtain ⟨first, behind, rfl, peeksFirst⟩ := inside.peek
    rw [List.drop_succ_cons, List.drop_zero, peeksFirst.bind_eq]
    split_ifs with digit
    · refine (numberDigits_spec inside).bind ?_
      rintro ⟨n, count, rest⟩ ⟨restInside, shorter⟩
      exact .pure ⟨restInside, Nat.le_succ_of_le shorter⟩
    · exact .pure ⟨terminated, Nat.le_refl _⟩
  · exact .pure ⟨terminated, Nat.le_refl _⟩

theorem numberExponent_stays {num : Bytes} (terminated : Terminated num) :
    Stays (numberExponent num) (num.length + 1) := by
  unfold numberExponent
  refine .peek terminated fun byte rest same => ?_
  subst same
  split_ifs with isExponent
  · have inside : Terminated rest := terminated.tail (by
      rcases isExponent with rfl | rfl <;> decide)
    rw [List.drop_succ_cons, List.drop_zero]
    refine .peek inside fun sign behind same => ?_
    subst same
    have shorter : behind.length + 1 ≤ (byte :: sign :: behind).length + 1 := by simp
    split_ifs with isPlus isMinus
    · exact (exponentDigits_spec (inside.tail (by rw [isPlus]; decide))).mono shorter
    · refine (exponentDigits_spec (inside.tail (by rw [isMinus]; decide))).bind ?_
      exact fun subscale rest restInside short =>
        .pure restInside (Nat.lt_of_lt_of_le short shorter)
    · exact (exponentDigits_spec inside).mono (by simp)
  · exact .pure terminated (Nat.lt_succ_self _)

theorem numberInteger_stays {byte : UInt8} {rest : Bytes}
    (terminated : Terminated (byte :: rest)) :
    Stays (numberInteger (byte :: rest) : Scan Fault (D × Bytes))
      (if isDigit byte ∧ byte ≠ 48 then rest.length + 1 else rest.length + 2) := by
  rw [numberInteger, (peek_cons byte rest).bind_eq]
  by_cases leads : 49 ≤ byte ∧ byte ≤ 57
  · have digit : isDigit byte := ⟨UInt8.le_trans (by decide) leads.1, leads.2⟩
    have notZero : byte ≠ 48 := by
      rintro rfl
      exact absurd leads.1 (by decide)
    have reads (n : D) : (numberDigits n (byte :: rest)).Ensures fun made =>
        Terminated made.2.2 ∧ made.2.2.length ≤ rest.length := by
      rw [numberDigits, if_pos digit]
      refine (numberDigits_spec (terminated.tail (isDigit_nonzero digit))).bind ?_
      rintro ⟨n, count, rest⟩ inside
      exact .pure inside
    rw [if_pos leads, if_pos ⟨digit, notZero⟩]
    refine (reads _).bind ?_
    rintro ⟨n, count, rest⟩ ⟨inside, shorter⟩
    exact Stays.pure inside (Nat.lt_succ_of_le shorter)
  · have other : ¬ (isDigit byte ∧ byte ≠ 48) := fun ⟨digit, notZero⟩ =>
      leads ⟨UInt8.lt_of_le_of_ne digit.1 (Ne.symm notZero), digit.2⟩
    rw [if_neg leads, if_neg other]
    exact Stays.pure terminated (Nat.lt_succ_self _)

theorem scaledNumber_stays {sign : Int} {num : Bytes} {bound : Nat}
    (integer : Stays (numberInteger num : Scan Fault (D × Bytes)) bound) :
    Stays (scaledNumber sign num : Scan Fault (D × Bytes)) bound := by
  refine integer.bind fun n num numInside short => ?_
  refine (numberFraction_spec numInside).bind ?_
  rintro ⟨n, scale, num⟩ ⟨numInside, shorter⟩
  refine (numberExponent_stays numInside).bind fun subscale num numInside shortest => ?_
  dsimp only at shorter shortest
  exact .pure numInside (by omega)

/-- A number that begins with a sign or a digit takes at least that. -/
theorem parseNumber_stays {byte : UInt8} {rest : Bytes} (begins : byte = 45 ∨ isDigit byte)
    (terminated : Terminated (byte :: rest)) :
    Stays (parseNumber (byte :: rest) : Scan Fault (D × Bytes)) (rest.length + 1) := by
  have inside : Terminated rest := terminated.tail (by
    rcases begins with rfl | digit
    · decide
    · exact isDigit_nonzero digit)
  rw [parseNumber, (peek_cons byte rest).bind_eq]
  by_cases isSign : byte = 45
  · rw [if_pos isSign, List.drop_succ_cons, List.drop_zero]
    refine .peek inside fun zero behind same => ?_
    subst same
    by_cases isZero : zero = 48
    · rw [if_pos isZero, List.drop_succ_cons, List.drop_zero]
      obtain ⟨first, later, rfl⟩ := (inside.tail (by rw [isZero]; decide)).exists_cons
      refine scaledNumber_stays
        ((numberInteger_stays (inside.tail (by rw [isZero]; decide))).mono ?_)
      split_ifs <;> simp
    · rw [if_neg isZero]
      refine scaledNumber_stays ((numberInteger_stays inside).mono ?_)
      split_ifs <;> simp
  · have digit : isDigit byte := begins.resolve_left isSign
    rw [if_neg isSign, (peek_cons byte rest).bind_eq]
    by_cases isZero : byte = 48
    · rw [if_pos isZero, List.drop_succ_cons, List.drop_zero]
      obtain ⟨first, later, rfl⟩ := inside.exists_cons
      refine scaledNumber_stays ((numberInteger_stays inside).mono ?_)
      split_ifs <;> simp
    · rw [if_neg isZero]
      refine scaledNumber_stays ((numberInteger_stays terminated).mono ?_)
      rw [if_pos ⟨digit, isZero⟩]

end Numbers

/-! ### Values -/

theorem parseChain_stays {α : Type} {item : Bytes → Scan Fault (α × Bytes)} {closing : UInt8}
    {steps limit : Nat} {value : Bytes}
    (items : ∀ ptr, Terminated ptr → ptr.length ≤ limit → Stays (item ptr) ptr.length)
    (nonzero : closing ≠ 0) (terminated : Terminated value) (below : value.length ≤ limit)
    (enough : value.length < steps) :
    Stays (parseChain item closing steps value) value.length := by
  induction steps generalizing value with
  | zero => omega
  | succ steps ih =>
      unfold parseChain
      refine .skip terminated fun first firstInside firstShort => ?_
      refine (items first firstInside (by omega)).bind fun child rest inside short => ?_
      refine .skip inside fun rest inside restShort => ?_
      refine .peek inside fun byte behind same => ?_
      subst same
      rw [List.length_cons] at restShort
      rw [List.drop_succ_cons, List.drop_zero]
      split_ifs with isComma isClosing
      · have later := ih (inside.tail (by rw [isComma]; decide)) (by omega) (by omega)
        refine later.bind fun others rest inside short => ?_
        exact .pure inside (by omega)
      · exact .pure (inside.tail (isClosing ▸ nonzero)) (by omega)
      · exact .reject _

theorem parseChildren_stays {α : Type} {item : Bytes → Scan Fault (α × Bytes)}
    {closing : UInt8} {value : Bytes}
    (items : ∀ ptr, Terminated ptr → ptr.length ≤ value.length → Stays (item ptr) ptr.length)
    (nonzero : closing ≠ 0) (terminated : Terminated value) :
    Stays (parseChildren item closing value) value.length := by
  unfold parseChildren
  refine .skip terminated fun first inside short => ?_
  refine .peek inside fun byte behind same => ?_
  subst same
  split_ifs with isClosing
  · rw [List.drop_succ_cons, List.drop_zero]
    exact .pure (inside.tail (isClosing ▸ nonzero)) short
  · exact (parseChain_stays items nonzero inside short (Nat.lt_succ_self _)).mono short

theorem parseMember_stays {D : Type} {parseValue : Bytes → Scan Fault (CJsonItem D × Bytes)}
    {ptr : Bytes}
    (values : ∀ value, Terminated value → value.length ≤ ptr.length →
      Stays (parseValue value) value.length)
    (terminated : Terminated ptr) : Stays (parseMember parseValue ptr) ptr.length := by
  unfold parseMember
  refine (parseString_stays terminated).bind fun string value inside short => ?_
  refine .skip inside fun value inside shorter => ?_
  refine .peek inside fun byte behind same => ?_
  subst same
  rw [List.length_cons] at shorter
  split_ifs with isColon
  · rw [List.drop_succ_cons, List.drop_zero]
    refine .skip (inside.tail (by rw [isColon]; decide)) fun value inside shortest => ?_
    refine (values value inside (by omega)).bind fun child rest inside last => ?_
    exact .pure inside (by omega)
  · exact .reject _

section Values

variable {D : Type} [DoubleArithmetic D]

/-- The parser makes no access outside, takes at least a byte, and has steps
enough. -/
theorem parseValue_stays {steps : Nat} {value : Bytes} (terminated : Terminated value)
    (enough : value.length < steps) :
    Stays (parseValue steps value : Scan Fault (CJsonItem D × Bytes)) value.length := by
  induction steps generalizing value with
  | zero => omega
  | succ steps ih =>
      have items (ptr : Bytes) (inside : Terminated ptr) (short : ptr.length + 1 ≤ value.length) :
          Stays (parseValue steps ptr : Scan Fault (CJsonItem D × Bytes)) ptr.length :=
        ih inside (by omega)
      unfold parseValue
      refine .startsWith terminated (by decide) (fun rest same inside => ?_) ?_
      · subst same
        exact .pure inside (by simp [ascii]; omega)
      refine .startsWith terminated (by decide) (fun rest same inside => ?_) ?_
      · subst same
        exact .pure inside (by simp [ascii]; omega)
      refine .startsWith terminated (by decide) (fun rest same inside => ?_) ?_
      · subst same
        exact .pure inside (by simp [ascii]; omega)
      refine .peek terminated fun byte rest same => ?_
      subst same
      have behind (nonzero : byte ≠ 0) : Terminated rest := terminated.tail nonzero
      rw [List.drop_succ_cons, List.drop_zero]
      split_ifs with isQuote isNumber isArray isObject
      · refine (parseString_stays terminated).bind fun text rest inside short => ?_
        exact .pure inside short
      · refine (parseNumber_stays isNumber terminated).bind fun n rest inside short => ?_
        exact .pure inside short
      · have inside := behind (by rw [isArray]; decide)
        refine ((parseChildren_stays
          (fun ptr inside short => items ptr inside (by simpa using short)) (by decide)
          inside).bind fun child value inside short => ?_).mono (Nat.le_succ _)
        exact .pure inside short
      · have inside := behind (by rw [isObject]; decide)
        refine ((parseChildren_stays (fun ptr inside short => parseMember_stays
          (fun value inside shorter => items value inside
            (by rw [List.length_cons]; omega)) inside) (by decide) inside).bind
          fun child value inside short => ?_).mono (Nat.le_succ _)
        exact .pure inside short
      · exact .reject _

/-- Only a member of an object has a name. -/
theorem parseValue_string {steps : Nat} {value rest : Bytes} {item : CJsonItem D}
    (yields : (parseValue steps value).Yields (item, rest)) : item.string = none := by
  cases steps with
  | zero => exact absurd yields Scan.not_yields_fault
  | succ steps =>
      unfold parseValue parseArray parseObject at yields
      obtain ⟨isNull, -, yields⟩ := Scan.yields_bind_iff.mp yields
      split at yields
      · cases Scan.yields_pure_iff.mp yields
        rfl
      obtain ⟨isFalse, -, yields⟩ := Scan.yields_bind_iff.mp yields
      split at yields
      · cases Scan.yields_pure_iff.mp yields
        rfl
      obtain ⟨isTrue, -, yields⟩ := Scan.yields_bind_iff.mp yields
      split at yields
      · cases Scan.yields_pure_iff.mp yields
        rfl
      obtain ⟨byte, -, yields⟩ := Scan.yields_bind_iff.mp yields
      split_ifs at yields
      · obtain ⟨made, -, yields⟩ := Scan.yields_bind_iff.mp yields
        cases Scan.yields_pure_iff.mp yields
        rfl
      · obtain ⟨made, -, yields⟩ := Scan.yields_bind_iff.mp yields
        cases Scan.yields_pure_iff.mp yields
        rfl
      · obtain ⟨made, -, yields⟩ := Scan.yields_bind_iff.mp yields
        cases Scan.yields_pure_iff.mp yields
        rfl
      · obtain ⟨made, -, yields⟩ := Scan.yields_bind_iff.mp yields
        cases Scan.yields_pure_iff.mp yields
        rfl
      · exact absurd yields Scan.not_yields_reject

/-- `cJSON_Parse` on a terminated text comes to an end without a fault. -/
theorem cJsonParse_returns {memory : Bytes} (terminated : Terminated memory) :
    ∃ result, cJsonParse D memory = .ok result := by
  obtain ⟨rest, skips, inside, -⟩ := skip_spec terminated
  have parses := parseValue_stays (D := D) inside (Nat.lt_succ_self rest.length)
  have whole : (skip memory >>= fun value =>
      parseValue (D := D) (value.length + 1) value >>= fun made =>
        (pure made.1 : Scan Fault (CJsonItem D))).Safe := by
    rw [skips.bind_eq]
    exact (Scan.Ensures.bind parses fun made _ =>
      (.pure trivial : Scan.Ensures _ fun _ => True)).safe
  exact whole

end Values

end CJsonParser

end OnlineProgram
