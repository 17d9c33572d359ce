import Mathlib.Data.List.Basic
import OnlineProgram.Utf8Text

/-!
# JSON texts

A parser for JSON texts, which takes what the grammar of JSON allows and nothing
else: a string has no control characters, and a text is UTF-8.  A text that is
pasted between quotes without escapes is read back as itself exactly when it has
no character that needs one.
-/

namespace OnlineProgram.JsonText

/-- The value of a JSON text.  A number is known by its digits, and an object
keeps its members in order. -/
inductive Json where
  | null
  | bool (value : Bool)
  | number (digits : List Char)
  | string (text : List Char)
  | array (items : List Json)
  | object (members : List (List Char × Json))

def quote : Char := '\x22'

def backslash : Char := '\x5c'

/-- `ws` -/
def skipBlanks (text : List Char) : List Char :=
  text.dropWhile fun char => [' ', '\t', '\n', '\r'].contains char

/-! ### Strings -/

def hexDigit (char : Char) : Option Nat :=
  if '0' ≤ char ∧ char ≤ '9' then some (char.toNat - 48)
  else if 'a' ≤ char ∧ char ≤ 'f' then some (char.toNat - 87)
  else if 'A' ≤ char ∧ char ≤ 'F' then some (char.toNat - 55)
  else none

def hex4 : List Char → Option (Nat × List Char)
  | first :: second :: third :: fourth :: rest => do
      let high ← hexDigit first
      let upper ← hexDigit second
      let lower ← hexDigit third
      let low ← hexDigit fourth
      some (((high * 16 + upper) * 16 + lower) * 16 + low, rest)
  | _ => none

/-- The second half of a surrogate pair. -/
def lowSurrogate : List Char → Option (Nat × List Char)
  | first :: second :: text => do
      let (code, rest) ← hex4 text
      if first = backslash ∧ second = 'u' ∧ 0xDC00 ≤ code ∧ code < 0xE000 then
        some (code - 0xDC00, rest)
      else none
  | _ => none

/-- The character behind `\u`. -/
def unicode (text : List Char) : Option (Char × List Char) := do
  let (code, rest) ← hex4 text
  if code < 0xD800 ∨ 0xE000 ≤ code then some (Char.ofNat code, rest)
  else if code < 0xDC00 then
    let (low, rest) ← lowSurrogate rest
    some (Char.ofNat (0x10000 + (code - 0xD800) * 0x400 + low), rest)
  else none

def namedEscapes : List (Char × Char) :=
  [(quote, quote), (backslash, backslash), ('/', '/'), ('b', '\x08'), ('f', '\x0c'),
    ('n', '\n'), ('r', '\r'), ('t', '\t')]

/-- The character behind a backslash. -/
def escape : List Char → Option (Char × List Char)
  | [] => none
  | char :: rest =>
      if char = 'u' then unicode rest
      else (namedEscapes.lookup char).map fun meant => (meant, rest)

/-- `unescaped` -/
def IsUnescaped (char : Char) : Prop :=
  32 ≤ char.toNat ∧ char ≠ quote ∧ char ≠ backslash

instance : DecidablePred IsUnescaped :=
  fun _ => inferInstanceAs (Decidable (_ ∧ _))

theorem isUnescaped_of_all {text : List Char} (all : text.all fun char => IsUnescaped char) :
    ∀ char ∈ text, IsUnescaped char := by
  simpa using all

/-- `char` -/
def character : List Char → Option (Char × List Char)
  | [] => none
  | char :: rest =>
      if char = backslash then escape rest
      else if IsUnescaped char then some (char, rest)
      else none

/-- The text of a string up to its closing quote, and what follows.  Every
character takes a step. -/
def stringBody : Nat → List Char → Option (List Char × List Char)
  | 0, _ => none
  | _ + 1, [] => none
  | steps + 1, char :: rest =>
      if char = quote then some ([], rest)
      else do
        let (read, text) ← character (char :: rest)
        let (content, text) ← stringBody steps text
        some (read :: content, text)

def string : List Char → Option (List Char × List Char)
  | [] => none
  | char :: rest => if char = quote then stringBody (rest.length + 1) rest else none

/-! ### Numbers -/

/-- One or more digits. -/
def digits (text : List Char) : Option (List Char × List Char) :=
  if text.takeWhile Char.isDigit = [] then none
  else some (text.takeWhile Char.isDigit, text.dropWhile Char.isDigit)

/-- `int` -/
def integer : List Char → Option (List Char × List Char)
  | [] => none
  | char :: rest => if char = '0' then some ([char], rest) else digits (char :: rest)

/-- A sign, if there is one of these. -/
def sign (signs : List Char) : List Char → List Char × List Char
  | [] => ([], [])
  | char :: rest => if signs.contains char then ([char], rest) else ([], char :: rest)

/-- `[ frac ]` -/
def fraction : List Char → Option (List Char × List Char)
  | [] => some ([], [])
  | char :: rest =>
      if char = '.' then (digits rest).map fun read => (char :: read.1, read.2)
      else some ([], char :: rest)

/-- `[ exp ]` -/
def exponent : List Char → Option (List Char × List Char)
  | [] => some ([], [])
  | char :: rest =>
      if char = 'e' ∨ char = 'E' then
        let signed := sign ['+', '-'] rest
        (digits signed.2).map fun read => (char :: (signed.1 ++ read.1), read.2)
      else some ([], char :: rest)

def number (text : List Char) : Option (List Char × List Char) := do
  let signed := sign ['-'] text
  let (whole, text) ← integer signed.2
  let (part, text) ← fraction text
  let (power, text) ← exponent text
  some (signed.1 ++ whole ++ part ++ power, text)

/-! ### Values -/

def literals : List (List Char × Json) :=
  [("true".toList, .bool true), ("false".toList, .bool false), ("null".toList, .null)]

def literal (text : List Char) : Option (Json × List Char) :=
  literals.findSome? fun word => (word.1.isPrefixOf? text).map fun rest => (word.2, rest)

section Sequences

variable {α : Type} (item : List Char → Option (α × List Char)) (closing : Char)

/-- One or more items with commas between them, and the closing bracket.  Every
item takes a step. -/
def separated : Nat → List Char → Option (List α × List Char)
  | 0, _ => none
  | steps + 1, text => do
      let (first, text) ← item text
      match skipBlanks text with
      | [] => none
      | char :: rest =>
          if char = ',' then do
            let (others, text) ← separated steps (skipBlanks rest)
            some (first :: others, text)
          else if char = closing then some ([first], rest)
          else none

/-- What stands between two brackets, behind the opening one. -/
def bracketed (text : List Char) : Option (List α × List Char) :=
  match skipBlanks text with
  | [] => none
  | char :: rest =>
      if char = closing then some ([], rest)
      else separated item closing (char :: rest).length (char :: rest)

end Sequences

def member (value : List Char → Option (Json × List Char)) (text : List Char) :
    Option ((List Char × Json) × List Char) := do
  let (name, text) ← string text
  match skipBlanks text with
  | [] => none
  | char :: rest =>
      if char = ':' then do
        let (read, text) ← value (skipBlanks rest)
        some ((name, read), text)
      else none

/-- A value of at most the given depth. -/
def value : Nat → List Char → Option (Json × List Char)
  | 0, _ => none
  | _ + 1, [] => none
  | depth + 1, char :: rest =>
      if char = quote then
        (string (char :: rest)).map fun read => (.string read.1, read.2)
      else if char = '\x7b' then
        (bracketed (member (value depth)) '\x7d' rest).map fun read => (.object read.1, read.2)
      else if char = '[' then
        (bracketed (value depth) ']' rest).map fun read => (.array read.1, read.2)
      else
        (literal (char :: rest)).or
          ((number (char :: rest)).map fun read => (.number read.1, read.2))

/-- `JSON-text` -/
def parseText (text : List Char) : Option Json := do
  let (read, rest) ← value (text.length + 1) (skipBlanks text)
  if skipBlanks rest = [] then some read else none

def parse (bytes : Bytes) : Option Json :=
  (Utf8Text.decode bytes).bind parseText

/-! ### Pasted strings -/

theorem hexDigit_ne_quote {char : Char} {digit : Nat} (isDigit : hexDigit char = some digit) :
    char ≠ quote := by
  rintro rfl
  exact absurd isDigit (by simp [hexDigit, quote])

/-- Four hexadecimal digits contain no quote. -/
theorem hex4_consumes {text rest : List Char} {code : Nat} (read : hex4 text = some (code, rest)) :
    ∃ raw, text = raw ++ rest ∧ quote ∉ raw := by
  unfold hex4 at read
  split at read
  · next first second third fourth rest =>
    simp only [Option.bind_eq_bind, Option.bind_eq_some_iff, Option.some.injEq,
      Prod.mk.injEq] at read
    obtain ⟨_, isFirst, _, isSecond, _, isThird, _, isFourth, -, rfl⟩ := read
    refine ⟨[first, second, third, fourth], rfl, fun isQuote => ?_⟩
    simp only [List.mem_cons, List.not_mem_nil, or_false] at isQuote
    rcases isQuote with same | same | same | same
    · exact hexDigit_ne_quote isFirst same.symm
    · exact hexDigit_ne_quote isSecond same.symm
    · exact hexDigit_ne_quote isThird same.symm
    · exact hexDigit_ne_quote isFourth same.symm
  · cases read

theorem lowSurrogate_consumes {text rest : List Char} {low : Nat}
    (read : lowSurrogate text = some (low, rest)) : ∃ raw, text = raw ++ rest ∧ quote ∉ raw := by
  unfold lowSurrogate at read
  split at read
  · next first second text =>
    simp only [Option.bind_eq_bind, Option.bind_eq_some_iff] at read
    obtain ⟨⟨code, behind⟩, digits, read⟩ := read
    dsimp only at read
    split_ifs at read with pair
    obtain ⟨isBackslash, isUnicode, -⟩ := pair
    obtain ⟨-, rfl⟩ : _ ∧ behind = rest := by simpa using read
    obtain ⟨raw, rfl, noQuote⟩ := hex4_consumes digits
    refine ⟨first :: second :: raw, rfl, ?_⟩
    rw [isBackslash, isUnicode, List.mem_cons, List.mem_cons, not_or, not_or]
    exact ⟨by decide, by decide, noQuote⟩
  · cases read

theorem unicode_consumes {text rest : List Char} {char : Char}
    (read : unicode text = some (char, rest)) : ∃ raw, text = raw ++ rest ∧ quote ∉ raw := by
  unfold unicode at read
  simp only [Option.bind_eq_bind, Option.bind_eq_some_iff] at read
  obtain ⟨⟨code, behind⟩, digits, read⟩ := read
  obtain ⟨raw, rfl, noQuote⟩ := hex4_consumes digits
  dsimp only at read
  split_ifs at read with single pair
  · cases read
    exact ⟨raw, rfl, noQuote⟩
  · simp only [Option.bind_eq_some_iff] at read
    obtain ⟨⟨low, behind⟩, second, read⟩ := read
    obtain ⟨other, rfl, otherNoQuote⟩ := lowSurrogate_consumes second
    cases read
    exact ⟨raw ++ other, by simp, by simp [noQuote, otherNoQuote]⟩

/-- A character is itself or an escape, and the only escape with a quote is the
one for it. -/
theorem character_consumes {text rest : List Char} {char : Char}
    (read : character text = some (char, rest)) :
    IsUnescaped char ∧ text = char :: rest ∨
      ∃ raw, raw ≠ [] ∧ text = backslash :: (raw ++ rest) ∧ (quote ∈ raw → raw = [quote]) := by
  cases text with
  | nil => cases read
  | cons head text =>
      simp only [character] at read
      split_ifs at read with isBackslash unescaped
      · obtain rfl := isBackslash
        right
        cases text with
        | nil => cases read
        | cons head text =>
            simp only [escape] at read
            split_ifs at read with isUnicode
            · obtain rfl := isUnicode
              obtain ⟨raw, rfl, noQuote⟩ := unicode_consumes read
              refine ⟨'u' :: raw, by simp, rfl, fun isQuote => ?_⟩
              rcases List.mem_cons.mp isQuote with isU | inRaw
              · exact absurd isU (by decide)
              · exact absurd inRaw noQuote
            · obtain ⟨meant, -, same⟩ := Option.map_eq_some_iff.mp read
              cases same
              refine ⟨[head], by simp, rfl, fun isQuote => ?_⟩
              rw [List.mem_singleton.mp isQuote]
      · cases read
        exact .inl ⟨unescaped, rfl⟩

theorem character_of_isUnescaped {char : Char} (unescaped : IsUnescaped char)
    (rest : List Char) : character (char :: rest) = some (char, rest) := by
  simp only [character]
  rw [if_neg unescaped.2.2, if_pos unescaped]

/-- A text without special characters is read as itself. -/
theorem stringBody_of_isUnescaped {text : List Char} {steps : Nat} (rest : List Char)
    (unescaped : ∀ char ∈ text, IsUnescaped char) (enough : text.length < steps) :
    stringBody steps (text ++ quote :: rest) = some (text, rest) := by
  induction text generalizing steps with
  | nil =>
      obtain ⟨fewer, rfl⟩ : ∃ fewer, steps = fewer + 1 := ⟨steps - 1, by omega⟩
      rfl
  | cons char text ih =>
      rw [List.length_cons] at enough
      obtain ⟨fewer, rfl⟩ : ∃ fewer, steps = fewer + 1 := ⟨steps - 1, by omega⟩
      have isUnescaped := unescaped char (by simp)
      have later : stringBody fewer (text ++ quote :: rest) = some (text, rest) :=
        ih (fun other member => unescaped other (by simp [member])) (by omega)
      rw [List.cons_append, stringBody, if_neg isUnescaped.2.1,
        character_of_isUnescaped isUnescaped]
      simp [later]

theorem stringBody_cons {steps : Nat} {char : Char} {text content rest : List Char}
    (notQuote : char ≠ quote)
    (scanned : stringBody (steps + 1) (char :: text) = some (content, rest)) :
    ∃ read behind others, character (char :: text) = some (read, behind) ∧
      stringBody steps behind = some (others, rest) ∧ content = read :: others := by
  rw [stringBody, if_neg notQuote] at scanned
  simp only [Option.bind_eq_bind, Option.bind_eq_some_iff, Prod.exists] at scanned
  obtain ⟨read, behind, isRead, others, rest, scanned, same⟩ := scanned
  cases same
  exact ⟨read, behind, others, isRead, scanned, rfl⟩

/-- Where an escape ends in view of the quote behind the text: inside the text,
or it takes the quote in. -/
theorem escape_ends {raw text after behind : List Char} (isEscape : quote ∈ raw → raw = [quote])
    (same : text ++ quote :: after = raw ++ behind) :
    (∃ tail, text = raw ++ tail ∧ behind = tail ++ quote :: after) ∨ behind = after := by
  rcases List.append_eq_append_iff.mp same with
    ⟨beyond, isRaw, isAfter⟩ | ⟨tail, isText, isBehind⟩
  · cases beyond with
    | nil => exact .inl ⟨[], by simpa using isRaw.symm, by simpa using isAfter.symm⟩
    | cons first beyond =>
        obtain ⟨rfl, rfl⟩ := List.cons.inj isAfter
        have single := isEscape (by simp [isRaw])
        have lengths := congrArg List.length (isRaw.symm.trans single)
        simp only [List.length_append, List.length_cons, List.length_nil] at lengths
        obtain rfl : beyond = [] := List.length_eq_zero_iff.mp (by omega)
        exact .inr rfl
  · exact .inl ⟨tail, isText, isBehind⟩

/-- What a text that stands before a quote is read as: something shorter, or
itself where no character of it is special, unless it ends in a backslash and
takes the quote in. -/
theorem stringBody_pasted {text content after rest : List Char} {steps : Nat}
    (scanned : stringBody steps (text ++ quote :: after) = some (content, rest)) :
    content.length < text.length ∨
      (content = text ∧ (∀ char ∈ text, IsUnescaped char) ∧ rest = after) ∨
        ∃ fewer others, stringBody fewer after = some (others, rest) := by
  induction steps generalizing text content with
  | zero => cases scanned
  | succ steps ih =>
      cases text with
      | nil =>
          cases scanned
          exact .inr (.inl ⟨rfl, by simp, rfl⟩)
      | cons head text =>
          rw [List.cons_append] at scanned
          by_cases isQuote : head = quote
          · rw [stringBody, if_pos isQuote] at scanned
            cases scanned
            exact .inl (by simp)
          · obtain ⟨read, behind, others, isRead, later, rfl⟩ := stringBody_cons isQuote scanned
            rcases character_consumes isRead with
              ⟨unescaped, same⟩ | ⟨raw, nonempty, same, isEscape⟩
            · obtain ⟨rfl, rfl⟩ := List.cons.inj same
              rcases ih later with shorter | ⟨rfl, plain, rfl⟩ | taken
              · exact .inl (by simpa using shorter)
              · exact .inr (.inl ⟨rfl, by simpa [unescaped] using plain, rfl⟩)
              · exact .inr (.inr taken)
            · rcases escape_ends isEscape (List.cons.inj same).2 with ⟨tail, rfl, rfl⟩ | rfl
              · have positive : 0 < raw.length := List.length_pos_of_ne_nil nonempty
                simp only [List.length_cons, List.length_append]
                rcases ih later with shorter | ⟨rfl, -, -⟩ | taken
                · exact .inl (by omega)
                · exact .inl (by omega)
                · exact .inr (.inr taken)
              · exact .inr (.inr ⟨steps, others, later⟩)

/-! ### Objects -/

/-- A list of items begins with one, and a comma or the bracket is next. -/
theorem separated_eq_some {α : Type} {item : List Char → Option (α × List Char)} {closing : Char}
    {steps : Nat} {text rest : List Char} {items : List α}
    (read : separated item closing steps text = some (items, rest)) :
    ∃ first behind char after others, item text = some (first, behind) ∧
      skipBlanks behind = char :: after ∧ items = first :: others ∧
        (char = ',' ∧ (∃ fewer, separated item closing fewer (skipBlanks after) =
            some (others, rest)) ∨
          char ≠ ',' ∧ char = closing ∧ others = [] ∧ after = rest) := by
  cases steps with
  | zero => cases read
  | succ steps =>
      simp only [separated, Option.bind_eq_bind, Option.bind_eq_some_iff, Prod.exists] at read
      obtain ⟨first, behind, isFirst, read⟩ := read
      cases blanks : skipBlanks behind with
      | nil => simp [blanks] at read
      | cons char after =>
          simp only [blanks] at read
          split_ifs at read with isComma isClosing
          · simp only [Option.bind_eq_some_iff, Prod.exists] at read
            obtain ⟨others, rest, later, same⟩ := read
            cases same
            exact ⟨first, behind, char, after, others, isFirst, blanks, rfl,
              .inl ⟨isComma, steps, later⟩⟩
          · cases read
            exact ⟨first, behind, char, _, [], isFirst, blanks, rfl,
              .inr ⟨isComma, isClosing, rfl, rfl⟩⟩

theorem separated_of_comma {α : Type} {item : List Char → Option (α × List Char)}
    {closing : Char} {steps : Nat} {text rest : List Char} {first : α}
    (read : item text = some (first, ',' :: rest)) :
    separated item closing (steps + 1) text =
      (separated item closing steps (skipBlanks rest)).map fun others =>
        (first :: others.1, others.2) := by
  have noBlank : skipBlanks (',' :: rest) = ',' :: rest := rfl
  simp only [separated, read, Option.bind_eq_bind, Option.bind_some, noBlank, if_true]
  cases separated item closing steps (skipBlanks rest) with
  | none => rfl
  | some others => rfl

theorem member_named (value : List Char → Option (Json × List Char)) {name : List Char}
    (unescaped : ∀ char ∈ name, IsUnescaped char) (rest : List Char) :
    member value (quote :: (name ++ quote :: ':' :: rest)) =
      (value (skipBlanks rest)).map fun read => ((name, read.1), read.2) := by
  have noBlank : skipBlanks (':' :: rest) = ':' :: rest := rfl
  have isName : string (quote :: (name ++ quote :: ':' :: rest)) =
      some (name, ':' :: rest) := by
    rw [string, if_pos rfl]
    exact stringBody_of_isUnescaped _ unescaped (by simp)
  simp only [member, isName, Option.bind_eq_bind, Option.bind_some, noBlank, if_true]
  cases value (skipBlanks rest) with
  | none => rfl
  | some read => rfl

theorem value_string (depth : Nat) (rest : List Char) :
    value (depth + 1) (quote :: rest) =
      (stringBody (rest.length + 1) rest).map fun read => (.string read.1, read.2) :=
  rfl

theorem value_object (depth : Nat) (rest : List Char) :
    value (depth + 1) ('\x7b' :: quote :: rest) =
      (separated (member (value depth)) '\x7d' (rest.length + 1) (quote :: rest)).map
        fun read => (.object read.1, read.2) :=
  rfl

theorem parseText_object (rest : List Char) :
    parseText ('\x7b' :: quote :: rest) =
      (separated (member (value (rest.length + 2))) '\x7d' (rest.length + 1)
        (quote :: rest)).bind fun read =>
          if skipBlanks read.2 = [] then some (.object read.1) else none := by
  change (value (rest.length + 2 + 1) ('\x7b' :: quote :: rest)).bind _ = _
  rw [value_object, Option.bind_map]
  rfl

end OnlineProgram.JsonText
