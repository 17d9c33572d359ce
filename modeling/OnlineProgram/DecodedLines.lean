import OnlineProgram.BufferWrites
import OnlineProgram.IspCommands

/-!
# What decoding writes

`UUdecodeLine` trusts the length character of a line, and reads and writes the
groups that it announces, whatever is there.  This file describes a line, and
the lines of a response, as the writes that they make, and says when a read or a
write leaves its buffer.
-/

namespace OnlineProgram

open ByteStrings CMemory UuCoding

/-- The length that a line announces, or 0 where it is turned away. -/
def announcedLength (line : Bytes) : Nat :=
  if 32 < (line.headD 0).toNat ∧ (line.headD 0).toNat ≤ 77 then (line.headD 0).toNat - 32 else 0

theorem announcedLength_le (line : Bytes) : announcedLength line ≤ 45 := by
  unfold announcedLength
  split <;> omega

/-- The line and the groups that it announces can be read. -/
def Readable (line : Bytes) : Prop :=
  4 * groups (announcedLength line) < line.length

instance (line : Bytes) : Decidable (Readable line) :=
  inferInstanceAs (Decidable (_ < _))

/-- The characters of the announced groups. -/
def announcedCharacters (line : Bytes) : Bytes :=
  (line.drop 1).take (4 * groups (announcedLength line))

/-- The writes of a line that is decoded to an offset. -/
def lineWrites (line : Bytes) (position : Nat) : Writes :=
  if announcedLength line = 0 then []
  else [(position, decode (announcedCharacters line)), (position + announcedLength line, [0])]

section Loop

variable {memory output : Bytes} {input position : Nat}

/-- The loop overflows at a byte whose characters can be read. -/
theorem uuDecodeLoop_overflow_iff {remaining i : Nat} :
    uuDecodeLoop memory input position remaining i output = .error .bufferOverflow ↔
      ∃ group byte, i ≤ group ∧ group < i + remaining ∧ byte < 3 ∧
        input + (4 * group + byte + 2) < memory.length ∧
        output.length ≤ position + (3 * group + byte) := by
  induction remaining generalizing i output with
  | zero =>
      simp only [uuDecodeLoop, Nat.add_zero, reduceCtorEq, false_iff]
      rintro ⟨group, byte, atLeast, below, -⟩
      omega
  | succ remaining ih =>
      unfold uuDecodeLoop
      cases decodes : uuDecodeBase memory (input + (4 * i + 1)) output (position + 3 * i) with
      | error fault =>
          have overflows : fault = .bufferOverflow ↔ ∃ byte < 3,
              input + (4 * i + 1) + byte + 1 < memory.length ∧
                output.length ≤ position + 3 * i + byte := by
            rw [← uuDecodeBase_overflow_iff, decodes, Except.error.injEq]
          simp only [bind, Except.bind, Except.error.injEq]
          constructor
          · intro overflow
            obtain ⟨byte, below, read, tooMany⟩ := overflows.mp overflow
            exact ⟨i, byte, Nat.le_refl i, by omega, below, by omega, by omega⟩
          · rintro ⟨group, byte, atLeast, -, below, read, tooMany⟩
            rcases Nat.eq_or_lt_of_le atLeast with rfl | later
            · exact overflows.mpr ⟨byte, below, by omega, by omega⟩
            · rw [uuDecodeBase_of_readable (by omega)] at decodes
              split_ifs at decodes
              exact (Except.error.inj decodes).symm
      | ok decoded =>
          obtain ⟨readable, room, rfl⟩ := uuDecodeBase_returns decodes
          have groupLength := decodedGroup_length (show input + (4 * i + 4) < memory.length by
            omega)
          change uuDecodeLoop memory input position remaining (i + 1) _ = _ ↔ _
          rw [ih, splice_length (by omega)]
          constructor
          · rintro ⟨group, byte, atLeast, below, rest⟩
            exact ⟨group, byte, by omega, by omega, rest⟩
          · rintro ⟨group, byte, atLeast, below, small, read, tooMany⟩
            exact ⟨group, byte, by omega, by omega, small, read, tooMany⟩

/-- The loop returns when every group can be read and written. -/
theorem uuDecodeLoop_returns {remaining i : Nat} {final : Bytes}
    (returned : uuDecodeLoop memory input position (remaining + 1) i output = .ok final) :
    input + 4 * (i + remaining + 1) < memory.length ∧
      position + 3 * (i + remaining + 1) ≤ output.length := by
  induction remaining generalizing i output with
  | zero =>
      obtain ⟨decoded, decodes, -⟩ := FaultingRuns.steps_of_bind_eq_ok returned
      have bounds := uuDecodeBase_returns decodes
      omega
  | succ remaining ih =>
      obtain ⟨decoded, decodes, rest⟩ := FaultingRuns.steps_of_bind_eq_ok returned
      obtain ⟨readable, room, rfl⟩ := uuDecodeBase_returns decodes
      have bounds := ih rest
      rw [splice_length (by rw [decodedGroup_length (by omega)]; omega)] at bounds
      omega

end Loop

section Line

variable {memory output : Bytes} {input position : Nat}

/-- Decoding a line, by the length that it announces. -/
theorem uuDecodeLine_eq (memory : Bytes) (input : Nat) (output : Bytes) (position : Nat) :
    uuDecodeLine memory input output position =
      if memory.drop input = [] then .error .outOfBounds
      else if announcedLength (memory.drop input) = 0 then .ok output
      else
        (uuDecodeLoop memory input position (groups (announcedLength (memory.drop input))) 0
          output).bind fun decoded =>
            store decoded (position + announcedLength (memory.drop input)) [0] := by
  have loaded : loadByte memory input = loadByte (memory.drop input) 0 := by
    rw [← loadByte_add, Nat.add_zero]
  unfold uuDecodeLine
  rw [loaded]
  cases line : memory.drop input with
  | nil => rfl
  | cons first rest =>
      have first_lt := first.toNat_lt
      have loadedFirst : loadByte (first :: rest) 0 = .ok first := rfl
      rw [loadedFirst, if_neg (List.cons_ne_nil first rest)]
      simp only [bind, Except.bind]
      by_cases valid : 32 < first.toNat ∧ first.toNat ≤ 77
      · have announced : announcedLength (first :: rest) = first.toNat - 32 := by
          unfold announcedLength
          exact if_pos valid
        have accepted : ¬ ((first.toNat : Int) - 32 ≤ 0 ∨ 45 < (first.toNat : Int) - 32) := by
          omega
        have lengthInt : ((first.toNat : Int) - 32).toNat = first.toNat - 32 := by omega
        have nonzero : ¬ first.toNat - 32 = 0 := by omega
        rw [announced, if_neg accepted, if_neg nonzero, lengthInt, roundedGroups_eq]
      · have announced : announcedLength (first :: rest) = 0 := by
          unfold announcedLength
          exact if_neg valid
        have refused : (first.toNat : Int) - 32 ≤ 0 ∨ 45 < (first.toNat : Int) - 32 := by
          omega
        rw [announced, if_pos refused, if_pos rfl]

theorem groups_pos {length : Nat} (positive : 0 < length) : 0 < groups length := by
  unfold groups
  omega

/-- A readable line has its announced characters. -/
theorem announcedCharacters_length {line : Bytes} (readable : Readable line) :
    (announcedCharacters line).length = 4 * groups (announcedLength line) := by
  unfold Readable at readable
  unfold announcedCharacters
  rw [List.length_take, List.length_drop]
  omega

theorem fit_lineWrites {line : Bytes} (position : Nat) (readable : Readable line)
    (length : Nat) :
    (lineWrites line position).Fit length ↔
      announcedLength line = 0 ∨
        position + 3 * groups (announcedLength line) ≤ length ∧
          position + announcedLength line + 1 ≤ length := by
  have decodedLength := decode_length (announcedCharacters_length readable)
  unfold lineWrites
  split
  · next nothing => simp [Writes.Fit, nothing]
  · next something => simp [Writes.Fit, something, decodedLength]

/-- The bytes that a line touches. -/
theorem touch_lineWrites {line : Bytes} (position : Nat) (readable : Readable line)
    (index : Nat) :
    (lineWrites line position).Touch index ↔
      0 < announcedLength line ∧ position ≤ index ∧
        (index < position + 3 * groups (announcedLength line) ∨
          index = position + announcedLength line) := by
  have decodedLength := decode_length (announcedCharacters_length readable)
  have enough : announcedLength line ≤ 3 * groups (announcedLength line) := by
    unfold groups
    omega
  unfold lineWrites
  split
  · next nothing => simp [Writes.Touch, nothing]
  · next something =>
      simp only [Writes.Touch, List.mem_cons, List.not_mem_nil, or_false, exists_eq_or_imp,
        exists_eq_left, decodedLength, List.length_singleton]
      omega

/-- A line that can be read is decoded if its writes fit. -/
theorem uuDecodeLine_of_readable (output : Bytes) (position : Nat)
    (readable : Readable (memory.drop input)) :
    uuDecodeLine memory input output position =
      if (lineWrites (memory.drop input) position).Fit output.length then
        .ok (replay (lineWrites (memory.drop input) position) output)
      else .error .bufferOverflow := by
  have inside : 4 * groups (announcedLength (memory.drop input)) <
      (memory.drop input).length := readable
  have nonempty : memory.drop input ≠ [] := by
    intro empty
    rw [empty] at inside
    exact absurd inside (Nat.not_lt_zero _)
  have fit := fit_lineWrites position readable output.length
  rw [uuDecodeLine_eq, if_neg nonempty]
  by_cases nothing : announcedLength (memory.drop input) = 0
  · rw [if_pos nothing, if_pos (fit.mpr (.inl nothing))]
    unfold lineWrites
    rw [if_pos nothing]
    rfl
  · rw [if_neg nothing]
    have charactersLength := announcedCharacters_length readable
    have positive := groups_pos (Nat.pos_of_ne_zero nothing)
    by_cases room : position + 3 * groups (announcedLength (memory.drop input)) ≤ output.length
    · have pointed : memory.drop (input + (4 * 0 + 1)) =
          announcedCharacters (memory.drop input) ++
            ((memory.drop input).drop 1).drop
              (4 * groups (announcedLength (memory.drop input))) := by
        rw [← List.drop_drop]
        exact (List.take_append_drop _ _).symm
      have loop : uuDecodeLoop memory input position
          (groups (announcedLength (memory.drop input))) 0 output =
            .ok (splice output (position + 3 * 0)
              (decode (announcedCharacters (memory.drop input)))) :=
        uuDecodeLoop_of_drop charactersLength pointed room
      have written : (splice output position
          (decode (announcedCharacters (memory.drop input)))).length = output.length := by
        apply splice_length
        rw [decode_length charactersLength]
        exact room
      rw [loop]
      simp only [Except.bind, Nat.mul_zero, Nat.add_zero]
      have terminatorLength : ([0] : Bytes).length = 1 := rfl
      unfold store
      rw [written, terminatorLength]
      by_cases terminator : position + announcedLength (memory.drop input) + 1 ≤ output.length
      · rw [if_pos terminator, if_pos (fit.mpr (.inr ⟨room, terminator⟩))]
        unfold lineWrites
        rw [if_neg nothing]
        rfl
      · rw [if_neg terminator, if_neg fun fits => ?_]
        exact terminator ((fit.mp fits).resolve_left nothing).2
    · have overflow : uuDecodeLoop memory input position
          (groups (announcedLength (memory.drop input))) 0 output = .error .bufferOverflow := by
        rw [List.length_drop] at inside
        exact uuDecodeLoop_overflow_iff.mpr
          ⟨groups (announcedLength (memory.drop input)) - 1, 2, by omega, by omega, by omega,
            by omega, by omega⟩
      rw [overflow, if_neg fun fits => ?_]
      · rfl
      · exact room ((fit.mp fits).resolve_left nothing).1

theorem announcedLength_of_isLine {bytes line : Bytes} (isLine : IsLine bytes line)
    (after : Bytes) : announcedLength (line ++ after) = bytes.length := by
  obtain ⟨characters, rfl, -, -, -⟩ := isLine.framed
  have nonempty := isLine.nonempty
  have short := isLine.short
  have head : ((((32 + bytes.length).toUInt8 :: (characters ++ [13, 10])) ++ after).headD
      0).toNat = 32 + bytes.length :=
    lengthCharacter_toNat short
  unfold announcedLength
  split <;> omega

/-- The decoder puts the bytes of a line behind those already stored.  What
follows them in the buffer is not kept. -/
theorem uuDecodeLine_spec {bytes line after : Bytes} (isLine : IsLine bytes line)
    (pointed : memory.drop input = line ++ after)
    (groupsFit : position + 3 * groups bytes.length ≤ output.length)
    (terminatorFits : position + bytes.length < output.length) :
    ∃ decoded, uuDecodeLine memory input output position = .ok decoded ∧
      decoded.length = output.length ∧
      decoded.take (position + bytes.length) = output.take position ++ bytes := by
  obtain ⟨characters, lineEq, charactersLength, -, carries⟩ := isLine.framed
  have announced : announcedLength (memory.drop input) = bytes.length := by
    rw [pointed, announcedLength_of_isLine isLine]
  have nonzero : ¬ bytes.length = 0 := Nat.ne_of_gt isLine.nonempty
  have readable : Readable (memory.drop input) := by
    unfold Readable
    rw [announced, pointed, List.length_append, isLine.length]
    omega
  have written : announcedCharacters (memory.drop input) = characters := by
    unfold announcedCharacters
    rw [announced, pointed, lineEq]
    simp [← charactersLength]
  have fit : (lineWrites (memory.drop input) position).Fit output.length := by
    rw [fit_lineWrites position readable, announced]
    exact .inr ⟨groupsFit, terminatorFits⟩
  have decodedLength := decode_length charactersLength
  have enough : bytes.length ≤ (decode characters).length := by
    rw [decodedLength]
    unfold groups
    omega
  have replayed : replay (lineWrites (memory.drop input) position) output =
      splice (splice output position (decode characters)) (position + bytes.length) [0] := by
    unfold lineWrites
    rw [announced, if_neg nonzero, written]
    rfl
  have storedLength : (splice output position (decode characters)).length = output.length :=
    splice_length (by omega)
  refine ⟨_, (uuDecodeLine_of_readable output position readable).trans (if_pos fit),
    replay_length fit, ?_⟩
  have kept : (splice (splice output position (decode characters))
      (position + bytes.length) [0]).take (position + bytes.length + 0) =
        (splice output position (decode characters)).take (position + bytes.length) ++
          ([0] : Bytes).take 0 :=
    splice_take (by omega) (by simp)
  rw [Nat.add_zero, List.take_zero, List.append_nil] at kept
  rw [replayed, kept, splice_take (by omega) enough, carries]

/-- The loop returns only when the line can be read. -/
theorem readable_of_loop {decoded : Bytes} (something : 0 < announcedLength (memory.drop input))
    (loop : uuDecodeLoop memory input position (groups (announcedLength (memory.drop input))) 0
      output = .ok decoded) : Readable (memory.drop input) := by
  obtain ⟨remaining, rounds⟩ := Nat.exists_eq_add_one_of_ne_zero (groups_pos something).ne'
  rw [rounds] at loop
  have bounds := uuDecodeLoop_returns loop
  unfold Readable
  rw [rounds, List.length_drop]
  omega

/-- Decoding returns only when the line can be read. -/
theorem uuDecodeLine_returns {final : Bytes}
    (returned : uuDecodeLine memory input output position = .ok final) :
    Readable (memory.drop input) := by
  rw [uuDecodeLine_eq] at returned
  split_ifs at returned with empty nothing
  · unfold Readable
    rw [nothing]
    exact List.length_pos_of_ne_nil empty
  · cases loop : uuDecodeLoop memory input position
        (groups (announcedLength (memory.drop input))) 0 output with
    | error fault => simp [loop, Except.bind] at returned
    | ok decoded => exact readable_of_loop (Nat.pos_of_ne_zero nothing) loop

/-- Decoding overflows at a byte whose characters can be read, or at the
terminating zero. -/
theorem uuDecodeLine_overflow_iff :
    uuDecodeLine memory input output position = .error .bufferOverflow ↔
      0 < announcedLength (memory.drop input) ∧
        ((∃ group < groups (announcedLength (memory.drop input)), ∃ byte < 3,
            4 * group + byte + 2 < (memory.drop input).length ∧
              output.length ≤ position + (3 * group + byte)) ∨
          (Readable (memory.drop input) ∧
            output.length ≤ position + announcedLength (memory.drop input))) := by
  by_cases readable : Readable (memory.drop input)
  · have inside : 4 * groups (announcedLength (memory.drop input)) <
        (memory.drop input).length := readable
    have fit := fit_lineWrites position readable output.length
    have overflows : uuDecodeLine memory input output position = .error .bufferOverflow ↔
        ¬ (lineWrites (memory.drop input) position).Fit output.length := by
      rw [uuDecodeLine_of_readable output position readable]
      split <;> simp_all
    rw [overflows, fit]
    constructor
    · intro misses
      have something : 0 < announcedLength (memory.drop input) := by omega
      have positive := groups_pos something
      refine ⟨something, ?_⟩
      rcases Nat.lt_or_ge output.length
        (position + 3 * groups (announcedLength (memory.drop input))) with tooMany | room
      · exact .inl ⟨groups (announcedLength (memory.drop input)) - 1, by omega, 2, by omega,
          by omega, by omega⟩
      · exact .inr ⟨readable, by omega⟩
    · rintro ⟨something, ⟨group, below, byte, small, -, tooMany⟩ | ⟨-, noRoom⟩⟩ fits <;> omega
  · rw [uuDecodeLine_eq]
    split_ifs with empty nothing
    · have nothing : announcedLength (memory.drop input) = 0 := by rw [empty]; rfl
      simp [nothing]
    · simp [nothing]
    · have something := Nat.pos_of_ne_zero nothing
      have loops : (∃ group < groups (announcedLength (memory.drop input)), ∃ byte < 3,
          4 * group + byte + 2 < (memory.drop input).length ∧
            output.length ≤ position + (3 * group + byte)) ↔
          uuDecodeLoop memory input position
            (groups (announcedLength (memory.drop input))) 0 output =
              .error .bufferOverflow := by
        rw [uuDecodeLoop_overflow_iff, List.length_drop]
        constructor
        · rintro ⟨group, below, byte, small, read, overflow⟩
          exact ⟨group, byte, Nat.zero_le _, by omega, small, by omega, overflow⟩
        · rintro ⟨group, byte, -, below, small, read, overflow⟩
          exact ⟨group, by omega, byte, small, by omega, overflow⟩
      rw [loops]
      cases loop : uuDecodeLoop memory input position
          (groups (announcedLength (memory.drop input))) 0 output with
      | error fault => simp [Except.bind, something, readable]
      | ok decoded => exact absurd (readable_of_loop something loop) readable

end Line

section Text

variable {buf payload data : Bytes} {p : Nat}

/-- The writes of the lines that stand in a response from line `i` on. -/
def textWrites (payload : Bytes) : Nat → Nat → Writes
  | 0, _ => []
  | remaining + 1, i =>
      lineWrites (payload.drop (63 * i)) (45 * i) ++ textWrites payload remaining (i + 1)

theorem textWrites_succ (payload : Bytes) (count i : Nat) :
    textWrites payload (count + 1) i =
      textWrites payload count i ++
        lineWrites (payload.drop (63 * (i + count))) (45 * (i + count)) := by
  induction count generalizing i with
  | zero => simp [textWrites]
  | succ count ih =>
      have position : i + 1 + count = i + (count + 1) := by omega
      rw [textWrites, ih (i + 1), position, ← List.append_assoc]
      rfl

theorem ispDecodeLines_succ (buf : Bytes) (p count i : Nat) (data : Bytes) :
    ispDecodeLines buf p (count + 1) i data =
      (ispDecodeLines buf p count i data).bind fun decoded =>
        uuDecodeLine buf (p + 63 * (i + count)) decoded (45 * (i + count)) := by
  induction count generalizing i data with
  | zero =>
      cases decodes : uuDecodeLine buf (p + 63 * i) data (45 * i) <;>
        simp [ispDecodeLines, decodes, bind, Except.bind]
  | succ count ih =>
      have position : i + 1 + count = i + (count + 1) := by omega
      unfold ispDecodeLines
      cases decodes : uuDecodeLine buf (p + 63 * i) data (45 * i) with
      | error fault => rfl
      | ok decoded =>
          simp only [bind, Except.bind]
          have rest := ih (i + 1) decoded
          rw [position] at rest
          exact rest

/-- Lines that can be read are decoded if their writes fit. -/
theorem ispDecodeLines_of_readable {remaining i : Nat} (pointed : buf.drop p = payload)
    (readable : ∀ j < remaining, Readable (payload.drop (63 * (i + j)))) :
    ispDecodeLines buf p remaining i data =
      if (textWrites payload remaining i).Fit data.length then
        .ok (replay (textWrites payload remaining i) data)
      else .error .bufferOverflow := by
  induction remaining generalizing i data with
  | zero => simp [ispDecodeLines, textWrites, Writes.Fit, replay]
  | succ remaining ih =>
      have here : buf.drop (p + 63 * i) = payload.drop (63 * i) := by
        rw [← List.drop_drop, pointed]
      have first : Readable (buf.drop (p + 63 * i)) := by
        rw [here]
        exact readable 0 (Nat.zero_lt_succ _)
      have others : ∀ j < remaining, Readable (payload.drop (63 * (i + 1 + j))) := by
        intro j below
        have position : i + 1 + j = i + (j + 1) := by omega
        rw [position]
        exact readable (j + 1) (by omega)
      unfold ispDecodeLines textWrites
      rw [uuDecodeLine_of_readable data (45 * i) first, here]
      simp only [fit_append]
      by_cases fits : (lineWrites (payload.drop (63 * i)) (45 * i)).Fit data.length
      · rw [if_pos fits]
        simp only [bind, Except.bind, fits, true_and]
        rw [ih others, replay_length fits, replay_append]
      · rw [if_neg fits, if_neg fun both => fits both.1]
        rfl

/-- Lines that are decoded can be read. -/
theorem ispDecodeLines_returns {remaining i : Nat} {final : Bytes}
    (pointed : buf.drop p = payload)
    (returned : ispDecodeLines buf p remaining i data = .ok final) :
    ∀ j < remaining, Readable (payload.drop (63 * (i + j))) := by
  induction remaining generalizing i data with
  | zero =>
      intro j below
      exact absurd below (Nat.not_lt_zero j)
  | succ remaining ih =>
      unfold ispDecodeLines at returned
      cases decodes : uuDecodeLine buf (p + 63 * i) data (45 * i) with
      | error fault => simp [decodes, bind, Except.bind] at returned
      | ok decoded =>
          simp only [decodes, bind, Except.bind] at returned
          have first := uuDecodeLine_returns decodes
          rw [← List.drop_drop, pointed] at first
          intro j below
          cases j with
          | zero => exact first
          | succ j =>
              have position : i + (j + 1) = i + 1 + j := by omega
              rw [position]
              exact ih returned j (by omega)

/-- Where the last line begins inside the response, the lines before it can be
read. -/
theorem readable_inner {count i : Nat} (begins : 63 * count < payload.length)
    (inner : i < count) : Readable (payload.drop (63 * i)) := by
  have short := announcedLength_le (payload.drop (63 * i))
  unfold Readable groups
  rw [List.length_drop]
  omega

theorem readable_begins {count : Nat} (readable : Readable (payload.drop (63 * count))) :
    63 * count < payload.length := by
  unfold Readable at readable
  rw [List.length_drop] at readable
  omega

/-- No line writes below its place. -/
theorem le_of_touch_textWrites {remaining i index : Nat}
    (touched : (textWrites payload remaining i).Touch index) : 45 * i ≤ index := by
  induction remaining generalizing i with
  | zero => exact absurd touched (by simp [textWrites, Writes.Touch])
  | succ remaining ih =>
      obtain ⟨write, member, atLeast, below⟩ := touched
      unfold textWrites at member
      rcases List.mem_append.mp member with inLine | inRest
      · unfold lineWrites at inLine
        split at inLine
        · exact absurd inLine (List.not_mem_nil)
        · rcases List.mem_pair.mp inLine with rfl | rfl <;> omega
      · have rest := ih ⟨write, inRest, atLeast, below⟩
        omega

theorem touch_append {first second : Writes} {index : Nat} :
    Writes.Touch (first ++ second) index ↔ first.Touch index ∨ second.Touch index := by
  simp only [Writes.Touch, List.mem_append, or_and_right, exists_or]

/-- Only the first line touches the bytes in its place. -/
theorem touch_first_iff {count index : Nat} (below : index < 45) :
    (textWrites payload (count + 1) 0).Touch index ↔ (lineWrites payload 0).Touch index := by
  unfold textWrites
  rw [touch_append, List.drop_zero]
  refine or_iff_left fun later => ?_
  have atLeast := le_of_touch_textWrites later
  omega

/-- The lines before the last write below it. -/
theorem fit_inner {count length : Nat} (room : 45 * count < length)
    (begins : 63 * count < payload.length) : (textWrites payload count 0).Fit length := by
  have upTo : ∀ inner ≤ count, (textWrites payload inner 0).Fit length := by
    intro inner
    induction inner with
    | zero => intro _ write member; simp [textWrites] at member
    | succ inner ih =>
        intro bounded
        have short := announcedLength_le (payload.drop (63 * (0 + inner)))
        have line : Readable (payload.drop (63 * (0 + inner))) :=
          readable_inner begins (by omega)
        rw [textWrites_succ, fit_append, fit_lineWrites _ line]
        refine ⟨ih (by omega), .inr ?_⟩
        unfold groups
        omega
  exact upTo count (Nat.le_refl count)

/-- The lines of a response are decoded exactly when the last of them can be
read and its writes fit. -/
theorem ispDecodeLines_eq {count : Nat} (pointed : buf.drop p = payload)
    (room : 45 * count < data.length) (readable : Readable (payload.drop (63 * count))) :
    ispDecodeLines buf p (count + 1) 0 data =
      if (lineWrites (payload.drop (63 * count)) (45 * count)).Fit data.length then
        .ok (replay (textWrites payload (count + 1) 0) data)
      else .error .bufferOverflow := by
  have begins := readable_begins readable
  have all : ∀ j < count + 1, Readable (payload.drop (63 * (0 + j))) := by
    intro j below
    rw [Nat.zero_add]
    rcases Nat.lt_or_eq_of_le (Nat.lt_succ_iff.mp below) with inner | rfl
    · exact readable_inner begins inner
    · exact readable
  have whole : (textWrites payload (count + 1) 0).Fit data.length ↔
      (lineWrites (payload.drop (63 * count)) (45 * count)).Fit data.length := by
    rw [textWrites_succ, fit_append, Nat.zero_add]
    exact and_iff_right (fit_inner room begins)
  rw [ispDecodeLines_of_readable pointed all]
  simp only [whole]

/-- The lines before the last never write too far, and keep the length. -/
theorem ispDecodeLines_inner (buf : Bytes) (p : Nat) {count : Nat}
    (room : 45 * count < data.length) :
    ispDecodeLines buf p count 0 data ≠ .error .bufferOverflow ∧
      ∀ decoded, ispDecodeLines buf p count 0 data = .ok decoded →
        decoded.length = data.length := by
  induction count with
  | zero => simp [ispDecodeLines]
  | succ count ih =>
      obtain ⟨innerSafe, innerLength⟩ := ih (by omega)
      rw [ispDecodeLines_succ, Nat.zero_add]
      cases inner : ispDecodeLines buf p count 0 data with
      | error fault =>
          rw [inner] at innerSafe
          exact ⟨innerSafe, by simp [Except.bind]⟩
      | ok decoded =>
          have length := innerLength decoded inner
          have short := announcedLength_le (buf.drop (p + 63 * count))
          have lineSafe : uuDecodeLine buf (p + 63 * count) decoded (45 * count) ≠
              .error .bufferOverflow := by
            intro overflow
            obtain ⟨-, ⟨group, below, byte, small, -, tooMany⟩ | ⟨-, noRoom⟩⟩ :=
              uuDecodeLine_overflow_iff.mp overflow
            · unfold groups at below
              omega
            · omega
          refine ⟨lineSafe, fun final decodes => ?_⟩
          have decodesLine : uuDecodeLine buf (p + 63 * count) decoded (45 * count) =
            .ok final := decodes
          rw [uuDecodeLine_of_readable _ _ (uuDecodeLine_returns decodesLine)] at decodesLine
          split_ifs at decodesLine with fits
          obtain rfl := Except.ok.inj decodesLine
          rw [replay_length fits, length]

/-- The lines of a response write too far exactly when the last of them does. -/
theorem ispDecodeLines_overflow_iff {count : Nat} (pointed : buf.drop p = payload)
    (room : 45 * count < data.length) :
    ispDecodeLines buf p (count + 1) 0 data = .error .bufferOverflow ↔
      0 < announcedLength (payload.drop (63 * count)) ∧
        ((∃ group < groups (announcedLength (payload.drop (63 * count))), ∃ byte < 3,
            4 * group + byte + 2 < (payload.drop (63 * count)).length ∧
              data.length ≤ 45 * count + (3 * group + byte)) ∨
          (Readable (payload.drop (63 * count)) ∧
            data.length ≤ 45 * count + announcedLength (payload.drop (63 * count)))) := by
  obtain ⟨innerSafe, innerLength⟩ := ispDecodeLines_inner buf p room
  have last : buf.drop (p + 63 * count) = payload.drop (63 * count) := by
    rw [← List.drop_drop, pointed]
  rw [ispDecodeLines_succ, Nat.zero_add]
  rcases Nat.lt_or_ge (63 * count) payload.length with begins | absent
  · have inner : ∀ j < count, Readable (payload.drop (63 * (0 + j))) := by
      intro j below
      rw [Nat.zero_add]
      exact readable_inner begins below
    have fits := fit_inner room begins
    rw [ispDecodeLines_of_readable pointed inner, if_pos fits]
    simp only [Except.bind]
    rw [uuDecodeLine_overflow_iff, last, replay_length fits]
  · have empty : payload.drop (63 * count) = [] := List.drop_eq_nil_of_le absent
    have nothing : announcedLength ([] : Bytes) = 0 := rfl
    rw [empty, nothing]
    simp only [Nat.lt_irrefl, false_and, iff_false]
    cases decodes : ispDecodeLines buf p count 0 data with
    | error fault =>
        rw [decodes] at innerSafe
        exact innerSafe
    | ok decoded =>
        simp only [Except.bind]
        rw [uuDecodeLine_eq, last, empty, if_pos rfl]
        simp

end Text

end OnlineProgram
