import OnlineProgram.ByteSums
import OnlineProgram.ReadResponses
import OnlineProgram.ResultCodes

/-!
# What a response determines

A line of a response may announce fewer bytes than its place holds, and a line
that announces no valid length writes nothing.  The bytes that no line writes
stay as the caller had them, and are summed with the rest.  This file says for
which responses the data that is read is known all the same.
-/

namespace OnlineProgram

open ByteStrings CMemory SerialLink UuCoding

/-- A call that hears `response` succeeds, and turns `data` into `stored`. -/
def ReadsAs (addr size : UInt32) (response data stored : Bytes) : Prop :=
  ∃ (σ : Type) (peer : Peer σ) (isp final : Isp σ),
    readAnswer peer addr size isp = response ∧
      ispReadMemory peer addr size data isp = .ok (.success, stored, final)

section Determined

variable {addr size : UInt32} {response payload data stored : Bytes}

/-- A call succeeds when what it hears can be received and parsed, and the sum is
right. -/
theorem readsAs_iff (accepted : ReadAccepted addr size) :
    ReadsAs addr size response data stored ↔
      response.length ≤ ispRecvBufSize ∧
        ∃ payload, FollowsFirst cmdSuccessRespStr (received response) payload ∧
          parsePayload payload size.toNat data = .ok (.success, stored) := by
  constructor
  · rintro ⟨σ, peer, isp, final, rfl, returned⟩
    by_cases fits : (readAnswer peer addr size isp).length ≤ ispRecvBufSize
    · refine ⟨fits, ?_⟩
      by_cases answered : ∃ payload,
          FollowsFirst cmdSuccessRespStr (received (readAnswer peer addr size isp)) payload
      · obtain ⟨payload, follows⟩ := answered
        exact ⟨payload, follows, parsePayload_of_returned accepted fits follows returned⟩
      · rcases ispReadMemory_of_no_payload peer data isp accepted fits
          (not_exists.mp answered) with ⟨ret, after, failed, call⟩ | ⟨-, call⟩
        · rw [call] at returned
          exact absurd (Prod.mk.inj (Except.ok.inj returned)).1 failed
        · simp [call] at returned
    · rw [ispReadMemory_receives accepted, if_neg fits] at returned
      simp at returned
  · rintro ⟨fits, payload, follows, parse⟩
    have answer := readAnswer_pending addr size response
    refine ⟨Unit, silentPeer, pendingIsp response,
      afterRead silentPeer addr size (pendingIsp response) .success, answer, ?_⟩
    rw [← answer] at fits follows
    rw [ispReadMemory_of_payload data accepted fits follows, parse]
    rfl

/-- The offsets below `size` that no line of a payload writes. -/
def leftAlone (payload : Bytes) (size : Nat) : List Nat :=
  (textWrites payload (lastLine size + 1) 0).untouched size

/-- What the checksum leaves for the bytes that no line writes. -/
def sumLeft (payload : Bytes) (size room : Nat) (checksum : Int) : Int :=
  checksum - byteSum ((decodedData payload size (List.replicate room 0)).take size)

/-- The bytes that no line writes are known from their sum. -/
def LeavesOneFilling (payload : Bytes) (size room : Nat) (checksum : Int) : Prop :=
  (leftAlone payload size).length ≤ 1 ∨ sumLeft payload size room checksum ≤ 0 ∨
    255 * ((leftAlone payload size).length : Int) ≤ sumLeft payload size room checksum

/-- What was left alone has to have the sum that the checksum leaves for it. -/
theorem Parsed.success_iff {size : Nat} {after : Bytes} {checksum : Int}
    (parsed : Parsed payload size data.length after checksum) (positive : 0 < size)
    (large : size ≤ data.length) :
    OnlineProgram.parsePayload payload size data = .ok (.success, stored) ↔
      decodedData payload size data = stored ∧
        (byteSum ((textWrites payload (lastLine size + 1) 0).kept size data) : Int) =
          sumLeft payload size data.length checksum := by
  have sum : byteSum ((decodedData payload size data).take size) =
      byteSum ((decodedData payload size (List.replicate data.length 0)).take size) +
        byteSum ((textWrites payload (lastLine size + 1) 0).kept size data) :=
    byteSum_replay (parsed.fit_textWrites positive large) size
  rw [parsed.parsePayload positive large]
  unfold sumLeft
  rw [Except.ok.injEq, Prod.mk.injEq, sum]
  constructor
  · rintro ⟨success, rfl⟩
    refine ⟨rfl, ?_⟩
    split_ifs at success with right
    omega
  · rintro ⟨rfl, right⟩
    exact ⟨if_pos (by omega), rfl⟩

/-- A payload that parses determines the data exactly when it leaves one filling
of the bytes that it does not write. -/
theorem Parsed.determines_iff {size room : Nat} {after : Bytes} {checksum : Int}
    (parsed : Parsed payload size room after checksum) (positive : 0 < size)
    (large : size ≤ room) :
    (∀ first second firstStored secondStored : Bytes,
        first.length = room → second.length = room →
        OnlineProgram.parsePayload payload size first = .ok (.success, firstStored) →
        OnlineProgram.parsePayload payload size second = .ok (.success, secondStored) →
        firstStored.take size = secondStored.take size) ↔
      LeavesOneFilling payload size room checksum := by
  have fitsIn {memory : Bytes} (length : memory.length = room) :
      (textWrites payload (lastLine size + 1) 0).Fit memory.length := by
    rw [length]
    exact parsed.fit_textWrites positive large
  constructor
  · intro determined
    unfold LeavesOneFilling
    rcases Int.lt_or_le (sumLeft payload size room checksum) 0 with negative | reachable
    · exact .inr (.inl (Int.le_of_lt negative))
    have few : (leftAlone payload size).length ≤ 1 ∨
        (sumLeft payload size room checksum).toNat = 0 ∨
          255 * (leftAlone payload size).length ≤
            (sumLeft payload size room checksum).toNat := by
      refine byteSum_determines_iff.mp ?_
      intro first second firstLength secondLength firstSum secondSum
      obtain ⟨firstData, firstRoom, rfl⟩ := exists_kept large firstLength
      obtain ⟨secondData, secondRoom, rfl⟩ := exists_kept large secondLength
      have reads {memory : Bytes} (length : memory.length = room)
          (sum : byteSum ((textWrites payload (lastLine size + 1) 0).kept size memory) =
            (sumLeft payload size room checksum).toNat) :
          OnlineProgram.parsePayload payload size memory =
            .ok (.success, decodedData payload size memory) := by
        subst length
        exact (parsed.success_iff positive large).mpr ⟨rfl, by omega⟩
      have same := determined firstData secondData _ _ firstRoom secondRoom
        (reads firstRoom firstSum) (reads secondRoom secondSum)
      exact (replay_take_eq_iff (firstRoom.trans secondRoom.symm) (fitsIn firstRoom)).mp same
    omega
  · intro single first second firstStored secondStored firstRoom secondRoom firstReads secondReads
    have sums {memory stored : Bytes} (length : memory.length = room)
        (reads : OnlineProgram.parsePayload payload size memory = .ok (.success, stored)) :
        decodedData payload size memory = stored ∧
          (byteSum ((textWrites payload (lastLine size + 1) 0).kept size memory) : Int) =
            sumLeft payload size room checksum := by
      subst length
      exact (parsed.success_iff positive large).mp reads
    obtain ⟨rfl, firstSum⟩ := sums firstRoom firstReads
    obtain ⟨rfl, secondSum⟩ := sums secondRoom secondReads
    refine (replay_take_eq_iff (firstRoom.trans secondRoom.symm) (fitsIn firstRoom)).mpr ?_
    have few : (leftAlone payload size).length ≤ 1 ∨
        (sumLeft payload size room checksum).toNat = 0 ∨
          255 * (leftAlone payload size).length ≤
            (sumLeft payload size room checksum).toNat := by
      unfold LeavesOneFilling at single
      omega
    exact byteSum_determines_iff.mpr few _ _ (Writes.kept_length ..) (Writes.kept_length ..)
      (by omega) (by omega)

/-- For every accepted call and every response: two calls that hear it and
succeed read the same data, whatever was there before, exactly when the response
does not fit in the receive buffer, or does not parse, or leaves one filling of
the bytes that it does not write. -/
theorem readsAs_determined_iff {room : Nat} (accepted : ReadAccepted addr size)
    (large : size.toNat ≤ room) :
    (∀ first second firstStored secondStored : Bytes,
        first.length = room → second.length = room →
        ReadsAs addr size response first firstStored →
        ReadsAs addr size response second secondStored →
        firstStored.take size.toNat = secondStored.take size.toNat) ↔
      (response.length ≤ ispRecvBufSize → ∀ payload,
        FollowsFirst cmdSuccessRespStr (received response) payload →
        ∀ after checksum, Parsed payload size.toNat room after checksum →
          LeavesOneFilling payload size.toNat room checksum) := by
  have positive := accepted.2.2.1
  constructor
  · intro determined fits payload follows after checksum parsed
    refine (parsed.determines_iff positive large).mp ?_
    intro first second firstStored secondStored firstRoom secondRoom firstParse secondParse
    exact determined first second firstStored secondStored firstRoom secondRoom
      ((readsAs_iff accepted).mpr ⟨fits, payload, follows, firstParse⟩)
      ((readsAs_iff accepted).mpr ⟨fits, payload, follows, secondParse⟩)
  · intro single first second firstStored secondStored firstRoom secondRoom firstReads secondReads
    obtain ⟨fits, payload, follows, firstParse⟩ := (readsAs_iff accepted).mp firstReads
    obtain ⟨-, other, otherFollows, secondParse⟩ := (readsAs_iff accepted).mp secondReads
    obtain rfl := otherFollows.unique (by decide) follows
    have parses : ∃ after checksum, Parsed other size.toNat room after checksum := by
      subst firstRoom
      exact exists_parsed positive large firstParse
    obtain ⟨after, checksum, parsed⟩ := parses
    exact (parsed.determines_iff positive large).mpr
      (single fits other follows after checksum parsed) first second firstStored secondStored
      firstRoom secondRoom firstParse secondParse

/-- A line of four bytes leaves nothing of what was there before. -/
theorem readsAs_determined_iff_line :
    ∃ firstStored secondStored,
      ReadsAs 0 4 (ascii "0\r\n$````````\r\n0\r\n") [1, 1, 1, 1, 1, 1] firstStored ∧
      ReadsAs 0 4 (ascii "0\r\n$````````\r\n0\r\n") [2, 2, 2, 2, 2, 2] secondStored ∧
      firstStored.take 4 = secondStored.take 4 := by
  have accepted : ReadAccepted 0 4 := by decide
  have search : strstr (received (ascii "0\r\n$````````\r\n0\r\n")) 0 cmdSuccessRespStr =
      .ok (some 0) := by
    decide +kernel
  have reads (data : Bytes)
      (parse : parsePayload ((received (ascii "0\r\n$````````\r\n0\r\n")).drop 3) 4 data =
        .ok (.success, [0, 0, 0, 0, 0, 0])) :
      ReadsAs 0 4 (ascii "0\r\n$````````\r\n0\r\n") data [0, 0, 0, 0, 0, 0] :=
    (readsAs_iff accepted).mpr
      ⟨by decide, _, follows_of_strstr (by decide) search, parse⟩
  have first := reads [1, 1, 1, 1, 1, 1] (by decide +kernel)
  have second := reads [2, 2, 2, 2, 2, 2] (by decide +kernel)
  refine ⟨_, _, first, second, (readsAs_determined_iff accepted (by decide)).mpr ?_
    [1, 1, 1, 1, 1, 1] [2, 2, 2, 2, 2, 2] _ _ rfl rfl first second⟩
  intro _ payload follows after checksum _
  rw [follows.unique (by decide) (follows_of_strstr (by decide) search)]
  exact .inl (by decide +kernel)

/-- Where the line announces no bytes, what was there before is read. -/
theorem readsAs_oldData :
    ¬ ∀ first second firstStored secondStored : Bytes,
      first.length = 4 → second.length = 4 →
      ReadsAs 0 4 (ascii "0\r\n \r\n1\r\n") first firstStored →
      ReadsAs 0 4 (ascii "0\r\n \r\n1\r\n") second secondStored →
      firstStored.take 4 = secondStored.take 4 := by
  intro determined
  have search : strstr (received (ascii "0\r\n \r\n1\r\n")) 0 cmdSuccessRespStr =
      .ok (some 0) := by
    decide +kernel
  have reads (data : Bytes)
      (parse : parsePayload ((received (ascii "0\r\n \r\n1\r\n")).drop 3) 4 data =
        .ok (.success, data)) : ReadsAs 0 4 (ascii "0\r\n \r\n1\r\n") data data :=
    (readsAs_iff (by decide)).mpr
      ⟨by decide, _, follows_of_strstr (by decide) search, parse⟩
  exact absurd (determined [1, 0, 0, 0] [0, 1, 0, 0] _ _ rfl rfl
    (reads _ (by decide +kernel)) (reads _ (by decide +kernel))) (by decide)

end Determined

end OnlineProgram
