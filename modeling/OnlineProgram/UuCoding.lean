import OnlineProgram.ByteStrings

/-!
# Uuencoding

Three bytes are regrouped into four sextets, and a sextet is written as a
printable character.  A line is a length character, the characters of its
groups, and CR LF; the bytes that complete the last group are free.  Zero may
be written as a space or as a grave accent, so a text is described by a
relation, and `encode` is the coder that uses the grave accent.
-/

namespace OnlineProgram.UuCoding

/-- The sextet that a character stands for. -/
def value (character : UInt8) : Nat :=
  (character.toNat + 32) % 64

/-- The three bytes of four characters. -/
def decodeGroup (first second third fourth : UInt8) : Bytes :=
  let bits := ((value first * 64 + value second) * 64 + value third) * 64 +
    value fourth
  [(bits / 65536).toUInt8, (bits / 256).toUInt8, bits.toUInt8]

def decode : Bytes → Bytes
  | first :: second :: third :: fourth :: rest =>
      decodeGroup first second third fourth ++ decode rest
  | _ => []

/-- The character of a sextet, with the grave accent for zero. -/
def character (sextet : Nat) : UInt8 :=
  if sextet = 0 then 0x60 else (sextet + 32).toUInt8

/-- The four characters of three bytes. -/
def encodeGroup (first second third : UInt8) : Bytes :=
  let bits := (first.toNat * 256 + second.toNat) * 256 + third.toNat
  [character (bits / 262144), character (bits / 4096 % 64),
    character (bits / 64 % 64), character (bits % 64)]

def encode : Bytes → Bytes
  | first :: second :: third :: rest =>
      encodeGroup first second third ++ encode rest
  | _ => []

/-- The number of groups that hold `length` bytes. -/
def groups (length : Nat) : Nat :=
  (length + 2) / 3

theorem character_toNat {sextet : Nat} (small : sextet < 64) :
    (character sextet).toNat = if sextet = 0 then 96 else sextet + 32 := by
  unfold character
  split
  · rfl
  · simp [Nat.toUInt8]
    omega

theorem value_character {sextet : Nat} (small : sextet < 64) :
    value (character sextet) = sextet := by
  have code := character_toNat small
  unfold value
  split at code <;> omega

/-- The coder writes printable characters other than the space. -/
theorem character_range {sextet : Nat} (small : sextet < 64) :
    0x21 ≤ character sextet ∧ character sextet ≤ 0x60 := by
  have code := character_toNat small
  rw [UInt8.le_iff_toNat_le, UInt8.le_iff_toNat_le]
  split at code <;> simp <;> omega

theorem decodeGroup_encodeGroup (first second third : UInt8) :
    ∃ one two three four,
      encodeGroup first second third = [one, two, three, four] ∧
        decodeGroup one two three four = [first, second, third] := by
  have firstSmall := first.toNat_lt
  have secondSmall := second.toNat_lt
  have thirdSmall := third.toNat_lt
  refine ⟨_, _, _, _, rfl, ?_⟩
  unfold decodeGroup
  rw [value_character (by omega), value_character (by omega),
    value_character (by omega), value_character (by omega)]
  simp only [List.cons.injEq, and_true]
  refine ⟨?_, ?_, ?_⟩ <;>
  · apply UInt8.toNat_inj.mp
    simp [Nat.toUInt8]
    omega

theorem encodeGroup_range {first second third byte : UInt8}
    (member : byte ∈ encodeGroup first second third) :
    0x21 ≤ byte ∧ byte ≤ 0x60 := by
  have firstSmall := first.toNat_lt
  have secondSmall := second.toNat_lt
  have thirdSmall := third.toNat_lt
  simp only [encodeGroup, List.mem_cons, List.not_mem_nil, or_false] at member
  rcases member with rfl | rfl | rfl | rfl <;> exact character_range (by omega)

theorem encode_range {bytes : Bytes} {byte : UInt8} (member : byte ∈ encode bytes) :
    0x21 ≤ byte ∧ byte ≤ 0x60 := by
  fun_induction encode bytes with
  | case1 first second third rest ih =>
      rcases List.mem_append.mp member with inGroup | inRest
      · exact encodeGroup_range inGroup
      · exact ih inRest
  | case2 => simp at member

theorem exists_three_cons {bytes : Bytes} {count : Nat}
    (length : bytes.length = 3 * (count + 1)) :
    ∃ first second third rest,
      bytes = first :: second :: third :: rest ∧ rest.length = 3 * count := by
  rcases bytes with _ | ⟨first, _ | ⟨second, _ | ⟨third, rest⟩⟩⟩
  · simp at length
  · simp at length
    omega
  · simp at length
    omega
  · simp only [List.length_cons] at length
    exact ⟨first, second, third, rest, rfl, by omega⟩

theorem exists_four_cons {characters : Bytes} {count : Nat}
    (length : characters.length = 4 * (count + 1)) :
    ∃ first second third fourth rest,
      characters = first :: second :: third :: fourth :: rest ∧
        rest.length = 4 * count := by
  rcases characters with _ | ⟨first, tail⟩
  · simp at length
  · have tailLength : tail.length = 4 * count + 3 := by
      simp only [List.length_cons] at length
      omega
    rcases tail with _ | ⟨second, _ | ⟨third, _ | ⟨fourth, rest⟩⟩⟩ <;>
      simp only [List.length_nil, List.length_cons] at tailLength
    · omega
    · omega
    · omega
    · exact ⟨first, second, third, fourth, rest, rfl, by omega⟩

theorem encode_length {bytes : Bytes} {count : Nat} (length : bytes.length = 3 * count) :
    (encode bytes).length = 4 * count := by
  induction count generalizing bytes with
  | zero =>
      obtain rfl : bytes = [] := List.eq_nil_of_length_eq_zero length
      rfl
  | succ count ih =>
      obtain ⟨first, second, third, rest, rfl, restLength⟩ := exists_three_cons length
      simp [encode, encodeGroup, ih restLength]
      omega

/-- Decoding undoes encoding on whole groups. -/
theorem decode_encode {bytes : Bytes} {count : Nat} (length : bytes.length = 3 * count) :
    decode (encode bytes) = bytes := by
  induction count generalizing bytes with
  | zero =>
      obtain rfl : bytes = [] := List.eq_nil_of_length_eq_zero length
      rfl
  | succ count ih =>
      obtain ⟨first, second, third, rest, rfl, restLength⟩ := exists_three_cons length
      obtain ⟨one, two, three, four, encoded, decoded⟩ :=
        decodeGroup_encodeGroup first second third
      simp [encode, encoded, decode, decoded, ih restLength]

/-- Decoding goes group by group. -/
theorem decode_append {first second : Bytes} {count : Nat}
    (length : first.length = 4 * count) :
    decode (first ++ second) = decode first ++ decode second := by
  induction count generalizing first with
  | zero =>
      obtain rfl : first = [] := List.eq_nil_of_length_eq_zero length
      rfl
  | succ count ih =>
      obtain ⟨one, two, three, four, rest, rfl, restLength⟩ := exists_four_cons length
      simp [decode, ih restLength]

theorem decode_length {characters : Bytes} {count : Nat}
    (length : characters.length = 4 * count) :
    (decode characters).length = 3 * count := by
  induction count generalizing characters with
  | zero =>
      obtain rfl : characters = [] := List.eq_nil_of_length_eq_zero length
      rfl
  | succ count ih =>
      obtain ⟨one, two, three, four, rest, rfl, restLength⟩ := exists_four_cons length
      simp [decode, decodeGroup, ih restLength]
      omega

/-- A line that carries `bytes`. -/
structure IsLine (bytes line : Bytes) : Prop where
  nonempty : 0 < bytes.length
  short : bytes.length ≤ 45
  framed : ∃ characters,
    line = (32 + bytes.length).toUInt8 :: (characters ++ [13, 10]) ∧
      characters.length = 4 * groups bytes.length ∧
      (∀ byte ∈ characters, 0x20 ≤ byte ∧ byte ≤ 0x60) ∧
      (decode characters).take bytes.length = bytes

/-- Lines that carry `bytes` between them. -/
inductive IsText : Bytes → List Bytes → Prop
  | nil : IsText [] []
  | cons {chunk line rest lines} :
      IsLine chunk line → IsText rest lines →
        IsText (chunk ++ rest) (line :: lines)

/-- Lines that carry `bytes`, each but the last with 45 of them. -/
inductive IsFullText : Bytes → List Bytes → Prop
  | last {bytes line} : IsLine bytes line → IsFullText bytes [line]
  | next {chunk line rest lines} :
      IsLine chunk line → chunk.length = 45 → IsFullText rest lines →
        IsFullText (chunk ++ rest) (line :: lines)

theorem IsFullText.isText {bytes : Bytes} {lines : List Bytes}
    (full : IsFullText bytes lines) : IsText bytes lines := by
  induction full with
  | last isLine => simpa using IsText.cons isLine .nil
  | next isLine _ _ ih => exact .cons isLine ih

theorem IsFullText.lines_length {bytes : Bytes} {lines : List Bytes}
    (full : IsFullText bytes lines) :
    lines.length = (bytes.length + 44) / 45 := by
  induction full with
  | last isLine =>
      have nonempty := isLine.nonempty
      have short := isLine.short
      simp
      omega
  | next isLine chunkLength _ ih =>
      simp [ih, chunkLength]
      omega

theorem lengthCharacter_toNat {length : Nat} (short : length ≤ 45) :
    (32 + length).toUInt8.toNat = 32 + length := by
  simp [Nat.toUInt8]
  omega

theorem IsLine.length {bytes line : Bytes} (isLine : IsLine bytes line) :
    line.length = 4 * groups bytes.length + 3 := by
  obtain ⟨characters, rfl, length, -, -⟩ := isLine.framed
  simp [length]

/-- A line is printable up to its CR LF. -/
theorem IsLine.ends {bytes line : Bytes} (isLine : IsLine bytes line) :
    ∃ body, line = body ++ [13, 10] ∧ ∀ byte ∈ body, 0x20 ≤ byte := by
  obtain ⟨characters, lineEq, -, range, -⟩ := isLine.framed
  refine ⟨(32 + bytes.length).toUInt8 :: characters, by simpa using lineEq, ?_⟩
  intro byte member
  rcases List.mem_cons.mp member with rfl | inCharacters
  · rw [UInt8.le_iff_toNat_le, lengthCharacter_toNat isLine.short]
    exact Nat.le_add_right 32 _
  · exact (range byte inCharacters).1

theorem IsLine.zero_not_mem {bytes line : Bytes} (isLine : IsLine bytes line) :
    (0 : UInt8) ∉ line := by
  obtain ⟨body, rfl, printable⟩ := isLine.ends
  intro member
  rcases List.mem_append.mp member with inBody | inEnding
  · exact absurd (printable 0 inBody) (by decide)
  · exact absurd inEnding (by decide)

/-- The last line of a text carries what the lines before it leave. -/
theorem IsFullText.last_chunk {bytes : Bytes} {lines : List Bytes}
    (full : IsFullText bytes lines) :
    ∃ front chunk line, lines.flatten = front ++ line ∧
      front.length = 63 * (lines.length - 1) ∧ IsLine chunk line ∧
      bytes.length = 45 * (lines.length - 1) + chunk.length := by
  induction full with
  | @last bytes line isLine => exact ⟨[], bytes, line, by simp, by simp, isLine, by simp⟩
  | @next chunk line rest lines isLine chunkLength restFull ih =>
      obtain ⟨front, last, lastLine, flatten, frontLength, lastIsLine, restLength⟩ := ih
      have lineLength := isLine.length
      have restNonempty : 0 < lines.length := by
        cases restFull <;> simp
      rw [chunkLength] at lineLength
      refine ⟨line ++ front, last, lastLine, by simp [flatten], ?_, lastIsLine, ?_⟩
      · simp [lineLength, frontLength, groups]
        omega
      · simp [chunkLength, restLength]
        omega

/-- Where the last line of a text stands. -/
theorem IsFullText.last_line {bytes : Bytes} {lines : List Bytes}
    (full : IsFullText bytes lines) :
    ∃ front body, lines.flatten = front ++ (body ++ [13, 10]) ∧
      front.length = 63 * (lines.length - 1) ∧ ∀ byte ∈ body, 0x20 ≤ byte := by
  obtain ⟨front, chunk, line, flatten, frontLength, isLine, -⟩ := full.last_chunk
  obtain ⟨body, rfl, printable⟩ := isLine.ends
  exact ⟨front, body, flatten, frontLength, printable⟩

theorem IsFullText.flatten_length_le {bytes : Bytes} {lines : List Bytes}
    (full : IsFullText bytes lines) : lines.flatten.length ≤ 63 * lines.length := by
  induction full with
  | last isLine =>
      have lineLength := isLine.length
      have short := isLine.short
      simp [lineLength, groups]
      omega
  | next isLine _ _ ih =>
      have lineLength := isLine.length
      have short := isLine.short
      simp only [List.flatten_cons, List.length_append, List.length_cons, lineLength, groups]
      omega

/-- The coder's line, where `filling` completes the last group. -/
theorem isLine_encode {bytes filling : Bytes} (nonempty : 0 < bytes.length)
    (short : bytes.length ≤ 45)
    (filled : (bytes ++ filling).length = 3 * groups bytes.length) :
    IsLine bytes ((32 + bytes.length).toUInt8 ::
      (encode (bytes ++ filling) ++ [13, 10])) where
  nonempty := nonempty
  short := short
  framed := by
    refine ⟨encode (bytes ++ filling), rfl, encode_length filled, ?_, ?_⟩
    · intro byte member
      obtain ⟨lower, upper⟩ := encode_range member
      exact ⟨UInt8.le_trans (by decide) lower, upper⟩
    · rw [decode_encode filled]
      simp

/-- What a line carries, read by its length character. -/
def decodeLine : Bytes → Bytes
  | [] => []
  | length :: characters => (decode characters).take (length.toNat - 32)

theorem IsLine.decodeLine {bytes line : Bytes} (isLine : IsLine bytes line) :
    decodeLine line = bytes := by
  obtain ⟨characters, rfl, length, -, carries⟩ := isLine.framed
  have lengthByte : (32 + bytes.length).toUInt8.toNat - 32 = bytes.length := by
    rw [lengthCharacter_toNat isLine.short, Nat.add_sub_cancel_left]
  have ending : decode (characters ++ [13, 10]) = decode characters := by
    rw [decode_append length]
    simp [decode]
  simp only [UuCoding.decodeLine, lengthByte, ending, carries]

theorem IsText.append {first second : Bytes} {firstLines secondLines : List Bytes}
    (firstText : IsText first firstLines) (secondText : IsText second secondLines) :
    IsText (first ++ second) (firstLines ++ secondLines) := by
  induction firstText with
  | nil => exact secondText
  | cons isLine _ ih =>
      rw [List.append_assoc, List.cons_append]
      exact .cons isLine ih

/-- Lines are told apart by their length characters, so a stream of lines
carries one text. -/
theorem IsText.bytes_unique {first second : Bytes} {firstLines secondLines : List Bytes}
    (firstText : IsText first firstLines) (secondText : IsText second secondLines)
    (same : firstLines.flatten = secondLines.flatten) : first = second := by
  induction firstText generalizing second secondLines with
  | nil =>
      cases secondText with
      | nil => rfl
      | cons isLine _ =>
          have length := isLine.length
          have empty := congrArg List.length same
          simp only [List.flatten_nil, List.flatten_cons, List.length_append,
            List.length_nil] at empty
          omega
  | @cons chunk line rest lines isLine _ ih =>
      cases secondText with
      | nil =>
          have length := isLine.length
          have empty := congrArg List.length same
          simp only [List.flatten_nil, List.flatten_cons, List.length_append,
            List.length_nil] at empty
          omega
      | @cons otherChunk otherLine otherRest otherLines otherIsLine otherText =>
          rw [List.flatten_cons, List.flatten_cons] at same
          obtain ⟨characters, lineEq, -⟩ := isLine.framed
          obtain ⟨otherCharacters, otherLineEq, -⟩ := otherIsLine.framed
          have sameCharacter :
              (32 + chunk.length).toUInt8 = (32 + otherChunk.length).toUInt8 := by
            rw [lineEq, otherLineEq, List.cons_append, List.cons_append] at same
            exact (List.cons.inj same).1
          have sameLength : chunk.length = otherChunk.length := by
            have code := congrArg UInt8.toNat sameCharacter
            rw [lengthCharacter_toNat isLine.short,
              lengthCharacter_toNat otherIsLine.short] at code
            omega
          have lineLength : line.length = otherLine.length := by
            rw [isLine.length, otherIsLine.length, sameLength]
          obtain ⟨sameLine, sameRest⟩ := List.append_inj same lineLength
          have sameChunk : chunk = otherChunk := by
            rw [← isLine.decodeLine, ← otherIsLine.decodeLine, sameLine]
          rw [sameChunk, ih otherText sameRest]

/-- The line of the coder, with the last group completed by zeros. -/
def encodeLine (bytes : Bytes) : Bytes :=
  (32 + bytes.length).toUInt8 ::
    (encode (bytes ++ List.replicate (3 * groups bytes.length - bytes.length) 0) ++
      [13, 10])

/-- The first `count` lines of a text. -/
def encodeLines : Nat → Bytes → List Bytes
  | 0, _ => []
  | count + 1, bytes => encodeLine (bytes.take 45) :: encodeLines count (bytes.drop 45)

theorem isLine_encodeLine {bytes : Bytes} (nonempty : 0 < bytes.length)
    (short : bytes.length ≤ 45) : IsLine bytes (encodeLine bytes) := by
  apply isLine_encode nonempty short
  have enough : bytes.length ≤ 3 * groups bytes.length := by
    unfold groups
    omega
  simp only [List.length_append, List.length_replicate]
  omega

/-- Enough lines make a text. -/
theorem isFullText_encodeLines {count : Nat} {bytes : Bytes}
    (atLeast : 45 * count < bytes.length) (atMost : bytes.length ≤ 45 * (count + 1)) :
    IsFullText bytes (encodeLines (count + 1) bytes) := by
  induction count generalizing bytes with
  | zero =>
      have whole : bytes.take 45 = bytes := List.take_of_length_le (by omega)
      simp only [encodeLines, whole]
      exact .last (isLine_encodeLine (by omega) (by omega))
  | succ count ih =>
      have headLength : (bytes.take 45).length = 45 := List.length_take_of_le (by omega)
      have head : IsLine (bytes.take 45) (encodeLine (bytes.take 45)) :=
        isLine_encodeLine (by omega) (by omega)
      have rest : IsFullText (bytes.drop 45) (encodeLines (count + 1) (bytes.drop 45)) :=
        ih (by simp; omega) (by simp; omega)
      have full := IsFullText.next head headLength rest
      rw [List.take_append_drop] at full
      exact full

end OnlineProgram.UuCoding
