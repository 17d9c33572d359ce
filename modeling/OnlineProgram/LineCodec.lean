import OnlineProgram.DecodedLines
import OnlineProgram.SentText

/-!
# The line codec

What the encoder writes for bytes, the decoder turns back into them.  The
encoder has a branch that pads a short last group, but the round that needs it
takes the other one, so the line of a short last group is made of what follows
the bytes in memory.
-/

namespace OnlineProgram

open ByteStrings CMemory UuCoding

/-- The codec on a line: the encoder writes the length, printable characters and
CR LF as a C string of at most 64 bytes, and the decoder gives the bytes back. -/
theorem uuDecodeLine_uuEncodeLine (memory bytes after output decoded : Bytes) (input : Nat)
    (len : UInt8) (nonzero : len ≠ 0) (short : len ≤ 45) (length : bytes.length = len.toNat)
    (pointed : memory.drop input = bytes ++ after)
    (readable : 3 * groups bytes.length ≤ bytes.length + after.length)
    (room : 64 ≤ output.length) (groupsFit : 3 * groups bytes.length ≤ decoded.length)
    (terminatorFits : bytes.length < decoded.length) :
    ∃ characters line, line = (len + 0x20) :: (characters ++ [13, 10, 0]) ∧
      uuEncodeLine memory input output len = .ok (1, splice output 0 line) ∧
      line.length ≤ 64 ∧
      characters.length = 4 * groups bytes.length ∧
      (∀ byte ∈ (len + 0x20) :: characters, 0x21 ≤ byte ∧ byte ≤ 0x60) ∧
      ∃ final, uuDecodeLine (splice output 0 line) 0 decoded 0 = .ok final ∧
        final.length = decoded.length ∧ final.take bytes.length = bytes := by
  have lenNonzero : len.toNat ≠ 0 := fun isZero => nonzero (UInt8.toNat_inj.mp isZero)
  have lenShort : len.toNat ≤ 45 := UInt8.le_iff_toNat_le.mp short
  have groupsSmall := groups_le lenShort
  have pointedLength := congrArg List.length pointed
  rw [List.length_drop, List.length_append] at pointedLength
  have inside : input + 3 * groups len.toNat ≤ memory.length := by
    rw [← length]
    unfold groups at readable ⊢
    omega
  have isLine : IsLine bytes (encodedLine memory input len) :=
    isLine_encodedLine length (by omega) (by omega) pointed readable
  obtain ⟨whole, wholeEq⟩ :
      ∃ whole, whole = (memory.drop input).take (3 * groups len.toNat) := ⟨_, rfl⟩
  have filled : whole.length = 3 * groups len.toNat := by
    rw [wholeEq, List.length_take, List.length_drop]
    omega
  have lineEq : encodedLine memory input len ++ [0] =
      (len + 0x20) :: (encode whole ++ [13, 10, 0]) := by
    unfold encodedLine
    rw [← wholeEq]
    simp
  have charactersLength := encode_length filled
  have lengthByte : (len + 0x20).toNat = 32 + len.toNat := by
    rw [lengthByte_eq short, lengthCharacter_toNat lenShort]
  refine ⟨encode whole, _, lineEq, uuEncodeLine_eq nonzero short inside (by omega), ?size,
    by rw [length, charactersLength], ?range, ?decodes⟩
  case size =>
    rw [lineEq]
    simp only [List.length_cons, List.length_append, charactersLength, List.length_nil]
    omega
  case range =>
    intro byte member
    rcases List.mem_cons.mp member with rfl | inCharacters
    · rw [UInt8.le_iff_toNat_le, UInt8.le_iff_toNat_le, lengthByte]
      simp
      omega
    · exact encode_range inCharacters
  case decodes =>
    have written : (splice output 0 (encodedLine memory input len ++ [0])).drop 0 =
        encodedLine memory input len ++
          ([0] ++ output.drop (0 + (encodedLine memory input len ++ [0]).length)) := by
      simp [splice]
    have decoding : ∃ final,
        uuDecodeLine (splice output 0 (encodedLine memory input len ++ [0])) 0 decoded 0 =
          .ok final ∧ final.length = decoded.length ∧
        final.take (0 + bytes.length) = decoded.take 0 ++ bytes :=
      uuDecodeLine_spec isLine written (by omega) (by omega)
    rw [Nat.zero_add] at decoding
    exact decoding

/-- The letter A, encoded at the end of an object of three bytes. -/
theorem uuDecodeLine_uuEncodeLine_letter :
    ∃ characters line, line = ((1 : UInt8) + 0x20) :: (characters ++ [13, 10, 0]) ∧
      uuEncodeLine [65, 7, 9] 0 (List.replicate 64 0) 1 =
        .ok (1, splice (List.replicate 64 0) 0 line) ∧
      line.length ≤ 64 ∧
      characters.length = 4 * groups ([65] : Bytes).length ∧
      (∀ byte ∈ ((1 : UInt8) + 0x20) :: characters, 0x21 ≤ byte ∧ byte ≤ 0x60) ∧
      ∃ final, uuDecodeLine (splice (List.replicate 64 0) 0 line) 0 [0, 0, 0] 0 = .ok final ∧
        final.length = ([0, 0, 0] : Bytes).length ∧ final.take ([65] : Bytes).length = [65] :=
  uuDecodeLine_uuEncodeLine [65, 7, 9] [65] [7, 9] (List.replicate 64 0) [0, 0, 0] 0 1
    (by decide) (by decide) rfl rfl (by decide) (by rw [List.length_replicate]) (by decide)
    (by decide)

/-- Two buffers start with the same `len` bytes. -/
def Agree (first second : Bytes) (len : UInt8) : Prop :=
  len.toNat ≤ first.length ∧ len.toNat ≤ second.length ∧
    first.take len.toNat = second.take len.toNat

/-- The encoder returns 1 with the same line for both buffers. -/
def SameLine (first second : Bytes) (len : UInt8) : Prop :=
  ∀ output : Bytes, 64 ≤ output.length → ∃ written,
    uuEncodeLine first 0 output len = .ok (1, written) ∧
      uuEncodeLine second 0 output len = .ok (1, written)

/-- The bytes behind the input that complete its last group can be read, and are
the same in both buffers. -/
def SameFilling (first second : Bytes) (len : UInt8) : Prop :=
  3 * groups len.toNat ≤ first.length ∧ 3 * groups len.toNat ≤ second.length ∧
    (first.drop len.toNat).take (3 * groups len.toNat - len.toNat) =
      (second.drop len.toNat).take (3 * groups len.toNat - len.toNat)

section

variable {first second : Bytes} {len : UInt8}

/-- The bytes of the whole groups are the input and what completes it. -/
theorem take_groups (buffer : Bytes) (len : UInt8) :
    buffer.take (3 * groups len.toNat) =
      buffer.take len.toNat ++
        (buffer.drop len.toNat).take (3 * groups len.toNat - len.toNat) := by
  have enough := length_le_groups len.toNat
  rw [← List.take_add]
  congr 1
  omega

/-- A write to the start of an object shows what was written. -/
theorem splice_zero_inj {output first second : Bytes} (sameLength : first.length = second.length)
    (same : splice output 0 first = splice output 0 second) : first = second := by
  simp only [splice, List.take_zero, List.nil_append] at same
  exact List.append_inj_left same sameLength

theorem sameLine_of_sameFilling (nonzero : len ≠ 0) (short : len ≤ 45)
    (agree : Agree first second len) (filling : SameFilling first second len) :
    SameLine first second len := by
  obtain ⟨-, -, same⟩ := agree
  obtain ⟨firstReadable, secondReadable, sameFilling⟩ := filling
  have groupsSmall := groups_le (UInt8.le_iff_toNat_le.mp short)
  have sameGroups : first.take (3 * groups len.toNat) = second.take (3 * groups len.toNat) := by
    rw [take_groups, take_groups, same, sameFilling]
  intro output room
  refine ⟨_, uuEncodeLine_eq nonzero short (by omega) (by omega), ?_⟩
  rw [uuEncodeLine_eq nonzero short (by omega) (by omega)]
  unfold encodedLine
  rw [List.drop_zero, List.drop_zero, sameGroups]

theorem sameFilling_of_sameLine (nonzero : len ≠ 0) (short : len ≤ 45)
    (line : SameLine first second len) : SameFilling first second len := by
  have groupsSmall := groups_le (UInt8.le_iff_toNat_le.mp short)
  obtain ⟨output, outputLength⟩ : ∃ output : Bytes, output.length = 64 :=
    ⟨List.replicate 64 0, List.length_replicate⟩
  obtain ⟨written, firstLine, secondLine⟩ := line output (by omega)
  have firstReadable := uuEncodeLine_readable nonzero short firstLine
  have secondReadable := uuEncodeLine_readable nonzero short secondLine
  rw [uuEncodeLine_eq nonzero short firstReadable (by omega)] at firstLine
  rw [uuEncodeLine_eq nonzero short secondReadable (by omega)] at secondLine
  rw [Nat.zero_add] at firstReadable secondReadable
  have firstLength := encode_length (List.length_take_of_le firstReadable)
  have secondLength := encode_length (List.length_take_of_le secondReadable)
  have sameWritten : splice output 0 (encodedLine first 0 len ++ [0]) =
      splice output 0 (encodedLine second 0 len ++ [0]) := by
    have results := firstLine.trans secondLine.symm
    simpa using results
  have sameCharacters : encode (first.take (3 * groups len.toNat)) =
      encode (second.take (3 * groups len.toNat)) := by
    have lines : encodedLine first 0 len ++ [0] = encodedLine second 0 len ++ [0] := by
      apply splice_zero_inj _ sameWritten
      simp [encodedLine, firstLength, secondLength]
    have framed := (List.cons.inj (List.append_cancel_right lines)).2
    exact List.append_cancel_right framed
  have sameGroups : first.take (3 * groups len.toNat) = second.take (3 * groups len.toNat) := by
    have decoded := congrArg decode sameCharacters
    rwa [decode_encode (List.length_take_of_le firstReadable),
      decode_encode (List.length_take_of_le secondReadable)] at decoded
  refine ⟨firstReadable, secondReadable, ?_⟩
  have tails := congrArg (List.drop len.toNat) sameGroups
  rwa [List.drop_take, List.drop_take] at tails

end

/-- When the line depends on the input alone: for two buffers that agree, when
the bytes that complete the last group are the same behind both; for every two,
when the last group is complete. -/
theorem sameLine_iff (len : UInt8) (nonzero : len ≠ 0) (short : len ≤ 45) :
    (∀ first second, Agree first second len →
        (SameLine first second len ↔ SameFilling first second len)) ∧
      ((∀ first second, Agree first second len → SameLine first second len) ↔
        len.toNat % 3 = 0) := by
  refine ⟨fun first second agree => ⟨sameFilling_of_sameLine nonzero short,
    sameLine_of_sameFilling nonzero short agree⟩, ?_, ?_⟩
  · intro always
    have alone : Agree (List.replicate len.toNat 0) (List.replicate len.toNat 0) len := by
      simp [Agree]
    obtain ⟨readable, -, -⟩ := sameFilling_of_sameLine nonzero short (always _ _ alone)
    rw [List.length_replicate] at readable
    unfold groups at readable
    omega
  · intro complete first second agree
    have whole : 3 * groups len.toNat = len.toNat := by
      unfold groups
      omega
    apply sameLine_of_sameFilling nonzero short agree
    obtain ⟨firstLength, secondLength, -⟩ := agree
    unfold SameFilling
    rw [whole]
    exact ⟨firstLength, secondLength, by simp⟩

theorem sameLine_iff_three :
    (∀ first second, Agree first second 3 →
        (SameLine first second 3 ↔ SameFilling first second 3)) ∧
      ((∀ first second, Agree first second 3 → SameLine first second 3) ↔
        (3 : UInt8).toNat % 3 = 0) :=
  sameLine_iff 3 (by decide) (by decide)

/-- A single letter is encoded with the byte behind it. -/
theorem not_sameLine_letter :
    Agree [65, 0, 0] [65, 1, 0] 1 ∧ ¬ SameLine [65, 0, 0] [65, 1, 0] 1 := by
  refine ⟨by unfold Agree; decide, fun line => ?_⟩
  have filling := sameFilling_of_sameLine (by decide) (by decide) line
  unfold SameFilling at filling
  exact absurd filling (by decide)

end OnlineProgram
