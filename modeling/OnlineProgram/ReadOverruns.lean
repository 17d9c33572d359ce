import OnlineProgram.ReadResponses
import OnlineProgram.ResultCodes

/-!
# Writes behind the data

`ISP_readMemory` is given an object of the size that it is asked for.  The
decoder writes whole groups and a zero behind every line: inner lines write over
the place of the next line, but behind the last line is the end of the object.
This file says which responses make it write there.
-/

namespace OnlineProgram

open ByteStrings CMemory SerialLink UuCoding

/-- The bytes of the line whose two characters can be read, and the zero behind
them where the whole line can be read, keep within `room` bytes. -/
def KeepsWithin (line : Bytes) (room : Nat) : Prop :=
  0 < announcedLength line →
    (∀ group < groups (announcedLength line), ∀ byte < 3,
      4 * group + byte + 2 < line.length → 3 * group + byte < room) ∧
    (Readable line → announcedLength line < room)

instance (line : Bytes) (room : Nat) : Decidable (KeepsWithin line room) :=
  inferInstanceAs (Decidable (_ → _))

/-- Decoding keeps inside an object of the size that is read exactly when the
last line does. -/
theorem parsePayload_keeps_iff {payload data : Bytes} {size : Nat} (positive : 0 < size)
    (sized : data.length = size) :
    parsePayload payload size data ≠ .error .bufferOverflow ↔
      KeepsWithin (payload.drop (63 * lastLine size)) (size - 45 * lastLine size) := by
  have bounds := lastLine_bounds positive
  rw [Ne, parsePayload_overflow_iff,
    ispDecodeLines_overflow_iff (List.drop_zero) (by omega), sized]
  unfold KeepsWithin
  constructor
  · intro keeps something
    refine ⟨fun group below byte small read => ?_, fun readable => ?_⟩
    · by_contra tooMany
      exact keeps ⟨something, .inl ⟨group, below, byte, small, read, by omega⟩⟩
    · by_contra noRoom
      exact keeps ⟨something, .inr ⟨readable, by omega⟩⟩
  · rintro keeps ⟨something, ⟨group, below, byte, small, read, tooMany⟩ | ⟨readable, noRoom⟩⟩
    · have inside := (keeps something).1 group below byte small read
      omega
    · have inside := (keeps something).2 readable
      omega

/-- For every accepted call and every response: a write leaves an object of the
size that is read only if the response overflows the receive buffer, exactly
when in every other response the last expected line keeps within what is left
of the object. -/
theorem ispReadMemory_keeps_iff {σ : Type} {peer : Peer σ} {addr size : UInt32}
    {data : Bytes} {isp : Isp σ} (accepted : ReadAccepted addr size)
    (sized : data.length = size.toNat) :
    (ispReadMemory peer addr size data isp = .error .bufferOverflow →
        ispRecvBufSize < (readAnswer peer addr size isp).length) ↔
      ((readAnswer peer addr size isp).length ≤ ispRecvBufSize →
        ∀ payload,
          FollowsFirst cmdSuccessRespStr (received (readAnswer peer addr size isp)) payload →
          KeepsWithin (payload.drop (63 * lastLine size.toNat))
            (size.toNat - 45 * lastLine size.toNat)) := by
  have positive := accepted.2.2.1
  constructor
  · intro keeps fits payload follows
    rw [← parsePayload_keeps_iff positive sized]
    intro overflow
    have call := ispReadMemory_of_payload data accepted fits follows
    rw [overflow] at call
    exact absurd (keeps call) (Nat.not_lt.mpr fits)
  · intro keeps overflow
    by_contra fits
    have fits : (readAnswer peer addr size isp).length ≤ ispRecvBufSize := Nat.not_lt.mp fits
    by_cases answered : ∃ payload,
        FollowsFirst cmdSuccessRespStr (received (readAnswer peer addr size isp)) payload
    · obtain ⟨payload, follows⟩ := answered
      have within := keeps fits payload follows
      rw [← parsePayload_keeps_iff positive sized] at within
      rw [ispReadMemory_of_payload data accepted fits follows] at overflow
      exact within (map_eq_error_iff.mp overflow)
    · rcases ispReadMemory_of_no_payload peer data isp accepted fits
        (not_exists.mp answered) with ⟨ret, final, -, call⟩ | ⟨-, call⟩
      · simp [call] at overflow
      · simp [call] at overflow

/-- A line of three bytes, sent in answer to a read of four, keeps within the
data. -/
theorem ispReadMemory_keeps_iff_short :
    ispReadMemory (replyPeer (ascii "0\r\n#ABCD\r\n0\r\n")) 0 4 [0, 0, 0, 0] quietIsp ≠
      .error .bufferOverflow := by
  have search : strstr (received (readAnswer
      (replyPeer (ascii "0\r\n#ABCD\r\n0\r\n")) 0 4 quietIsp)) 0 cmdSuccessRespStr =
        .ok (some 0) := by
    decide +kernel
  have short : ¬ ispRecvBufSize <
      (readAnswer (replyPeer (ascii "0\r\n#ABCD\r\n0\r\n")) 0 4 quietIsp).length := by
    decide +kernel
  have accepted : ReadAccepted 0 4 := by decide
  refine fun overflow => short ((ispReadMemory_keeps_iff accepted rfl).mpr ?_ overflow)
  intro _ payload follows
  rw [follows.unique (by decide) (follows_of_strstr (by decide) search)]
  decide +kernel

/-- A conforming answer to a read of four bytes makes the decoder write behind
them. -/
theorem ispReadMemory_overruns_four :
    ispReadMemory (replyPeer (ascii "0\r\n$````````\r\n0\r\n")) 0 4 [0, 0, 0, 0] quietIsp =
        .error .bufferOverflow ∧
      ¬ ispRecvBufSize <
        (readAnswer (replyPeer (ascii "0\r\n$````````\r\n0\r\n")) 0 4 quietIsp).length := by
  refine ⟨?_, by decide +kernel⟩
  have faults : Prod.fst <$> ispReadMemory (replyPeer (ascii "0\r\n$````````\r\n0\r\n")) 0 4
      [0, 0, 0, 0] quietIsp = .error .bufferOverflow := by
    decide +kernel
  exact map_eq_error_iff.mp faults

end OnlineProgram
