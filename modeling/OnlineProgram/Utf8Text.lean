import OnlineProgram.ByteStrings

/-!
# UTF-8

The characters of a text and the bytes that carry them.  A byte below 128 is a
character of its own wherever it stands, so a text can be cut at one.
-/

namespace OnlineProgram.Utf8Text

def encode (text : List Char) : Bytes :=
  text.flatMap String.utf8EncodeChar

def decode (bytes : Bytes) : Option (List Char) :=
  bytes.toByteArray.utf8Decode?.map Array.toList

@[simp]
theorem encode_nil : encode [] = [] :=
  rfl

@[simp]
theorem encode_cons (char : Char) (text : List Char) :
    encode (char :: text) = String.utf8EncodeChar char ++ encode text :=
  List.flatMap_cons

@[simp]
theorem encode_append (first second : List Char) :
    encode (first ++ second) = encode first ++ encode second :=
  List.flatMap_append

@[simp]
theorem decode_encode (text : List Char) : decode (encode text) = some text := by
  have decoded : text.utf8Encode.utf8Decode? = some text.toArray := List.utf8Decode?_utf8Encode
  change text.utf8Encode.utf8Decode?.map Array.toList = some text
  rw [decoded]
  simp

theorem decode_eq_some_iff {bytes : Bytes} {text : List Char} :
    decode bytes = some text ↔ encode text = bytes := by
  constructor
  · intro decoded
    have valid : bytes.toByteArray.utf8Decode?.isSome = true := by
      cases result : bytes.toByteArray.utf8Decode? with
      | none => simp [decode, result] at decoded
      | some chars => rfl
    obtain ⟨chars, encoded⟩ := ByteArray.isSome_utf8Decode?_iff.mp valid
    have same : bytes = encode chars := by
      have contents : bytes.toByteArray = (encode chars).toByteArray := encoded
      simpa using congrArg ByteArray.data contents
    rw [same, decode_encode] at decoded
    cases decoded
    exact same.symm
  · rintro rfl
    exact decode_encode text

theorem encode_injective : Function.Injective encode := by
  intro first second same
  have decoded := decode_encode first
  rw [same, decode_encode] at decoded
  exact (Option.some.inj decoded).symm

theorem utf8EncodeChar_of_lt {char : Char} (small : char.toNat < 128) :
    String.utf8EncodeChar char = [char.toNat.toUInt8] := by
  have inRange : char.val.toNat ≤ 127 := Nat.le_of_lt_succ small
  unfold String.utf8EncodeChar
  exact if_pos inRange

/-- A byte below 128 is a whole character. -/
theorem utf8EncodeChar_of_mem {char : Char} {byte : UInt8} (small : byte < 128)
    (member : byte ∈ String.utf8EncodeChar char) :
    String.utf8EncodeChar char = [byte] := by
  have isLow : byte.toNat < 128 := small
  have high {value marker width : Nat} (positive : 0 < width) (marked : 128 ≤ marker)
      (fits : marker + width ≤ 256) : ¬ byte = UInt8.ofNat (value % width + marker) := by
    rintro rfl
    have remainder : value % width < width := Nat.mod_lt value positive
    simp at isLow
    omega
  unfold String.utf8EncodeChar at member ⊢
  dsimp only at member ⊢
  split_ifs at member ⊢ with one two three
  · simpa [eq_comm] using member
  all_goals
    simp only [List.mem_cons, List.not_mem_nil, or_false] at member
  · rcases member with same | same <;>
      exact absurd same (high (by decide) (by decide) (by decide))
  · rcases member with same | same | same <;>
      exact absurd same (high (by decide) (by decide) (by decide))
  · rcases member with same | same | same | same <;>
      exact absurd same (high (by decide) (by decide) (by decide))

/-- The code of a single byte is its number. -/
theorem eq_ofNat_of_utf8EncodeChar {char : Char} {byte : UInt8}
    (encoded : String.utf8EncodeChar char = [byte]) : char = Char.ofNat byte.toNat := by
  have single : char.utf8Size = 1 := by
    rw [← String.length_utf8EncodeChar, encoded]
    rfl
  have small : char.toNat < 128 := Nat.lt_succ_of_le (Char.utf8Size_eq_one_iff.mp single)
  rw [utf8EncodeChar_of_lt small] at encoded
  have code : char.toNat = byte.toNat := by
    rw [← (List.cons.inj encoded).1, Nat.toUInt8, UInt8.toNat_ofNat']
    omega
  rw [← code, Char.ofNat_toNat]

/-- A text is cut at a byte below 128 where its bytes are. -/
theorem encode_eq_append {text : List Char} {before after : Bytes} {byte : UInt8}
    (small : byte < 128) (encoded : encode text = before ++ byte :: after) :
    ∃ first second, text = first ++ Char.ofNat byte.toNat :: second ∧
      encode first = before ∧ encode second = after := by
  induction text generalizing before with
  | nil => simp at encoded
  | cons char text ih =>
      rw [encode_cons] at encoded
      rcases List.append_eq_append_iff.mp encoded with
        ⟨rest, rfl, later⟩ | ⟨rest, isChar, later⟩
      · obtain ⟨first, second, rfl, rfl, rfl⟩ := ih later
        exact ⟨char :: first, second, rfl, rfl, rfl⟩
      · cases rest with
        | nil =>
            have atFront : encode text = [] ++ byte :: after := later.symm
            obtain ⟨first, second, rfl, isFirst, rfl⟩ := ih atFront
            refine ⟨char :: first, second, rfl, ?_, rfl⟩
            rw [encode_cons, isFirst, isChar, List.append_nil, List.append_nil]
        | cons other rest =>
            obtain ⟨rfl, rfl⟩ := List.cons.inj later
            have whole : String.utf8EncodeChar char = [byte] :=
              utf8EncodeChar_of_mem small (by simp [isChar])
            rw [whole] at isChar
            obtain ⟨rfl, rfl⟩ : before = [] ∧ rest = [] := by
              have lengths := congrArg List.length isChar
              simp only [List.length_append, List.length_cons, List.length_nil] at lengths
              exact ⟨List.length_eq_zero_iff.mp (by omega), List.length_eq_zero_iff.mp (by omega)⟩
            refine ⟨[], text, ?_, rfl, rfl⟩
            rw [eq_ofNat_of_utf8EncodeChar whole]
            rfl

end OnlineProgram.Utf8Text
