import OnlineProgram.ReceiveBuffer

/-!
# Reading the part identifier

`ISP_getPartID` copies what follows the line of success up to a carriage return,
and afterwards turns away what was longer than ten characters.  The loop goes on
once the index is above ten, so that test is never reached: this file says what
the call does for an identifier that ends in time, and that it does nothing of
the kind for any other.
-/

namespace OnlineProgram

open ByteStrings CMemory SerialLink

/-- A carriage return stands within the first eleven characters. -/
def ReturnsInTime (payload : Bytes) : Prop :=
  ∃ offset ≤ 10, payload[offset]? = some 13

/-- A text with a carriage return starts with the characters before the first. -/
theorem exists_before_return {text : Bytes} {offset : Nat} (ended : text[offset]? = some 13) :
    ∃ identifier rest, text = identifier ++ 13 :: rest ∧ (13 : UInt8) ∉ identifier ∧
      identifier.length ≤ offset := by
  induction text generalizing offset with
  | nil => simp at ended
  | cons byte text ih =>
      by_cases isReturn : byte = 13
      · exact ⟨[], text, by rw [isReturn]; rfl, by simp, Nat.zero_le offset⟩
      · cases offset with
        | zero => exact absurd (by simpa using ended) isReturn
        | succ offset =>
            obtain ⟨identifier, rest, split, noReturn, short⟩ := ih (by simpa using ended)
            refine ⟨byte :: identifier, rest, by rw [split]; rfl, ?_, Nat.succ_le_succ short⟩
            simpa [noReturn] using Ne.symm isReturn

/-- The loop copies the characters before the first carriage return. -/
theorem partIdLoop_of_return {identifier rest partId : Bytes} {i : Nat}
    (noReturn : (13 : UInt8) ∉ identifier) (inTime : i + identifier.length ≤ 10)
    (room : i + identifier.length ≤ partId.length) :
    partIdLoop (identifier ++ 13 :: rest) i partId =
      .ok (i + identifier.length, splice partId i identifier) := by
  induction identifier generalizing i partId with
  | nil =>
      have ended : ¬ ((13 : UInt8) ≠ 13 ∨ 10 < i) :=
        not_or.mpr ⟨not_not.mpr rfl, Nat.not_lt.mpr inTime⟩
      rw [List.nil_append, partIdLoop_cons, if_neg ended, splice_nil]
      rfl
  | cons byte identifier ih =>
      obtain ⟨notReturn, noReturn⟩ : ¬ 13 = byte ∧ (13 : UInt8) ∉ identifier := by
        simpa using noReturn
      rw [List.length_cons] at inTime room
      have written : (splice partId i [byte]).length = partId.length :=
        splice_length (by simp; omega)
      have joined : splice (splice partId i [byte]) (i + 1) identifier =
          splice partId i (byte :: identifier) :=
        splice_splice (by simp; omega)
      rw [List.cons_append, partIdLoop_cons, if_pos (.inl (Ne.symm notReturn)),
        if_pos (by omega), ih noReturn (by omega) (by omega), joined, List.length_cons]
      congr 2
      omega

section

variable {σ : Type} (peer : Peer σ) (partId : Bytes) (isp : Isp σ)

/-- What follows the line of success in the answer to the call. -/
def IsPartId (payload : Bytes) : Prop :=
  FollowsFirst cmdSuccessRespStr (received (partIdAnswer peer isp)) payload

/-- The call returns, with nothing written behind the first eleven characters of
the object.  It succeeds for an identifier that ends in time and for nothing else,
and it turns away an identifier that does not. -/
def ReadsPartId : Prop :=
  ∃ ret written final, ispGetPartID peer partId isp = .ok (ret, written, final) ∧
    written.length = partId.length ∧ written.drop 11 = partId.drop 11 ∧
    (ret = .success ↔ ∃ payload, IsPartId peer isp payload ∧ ReturnsInTime payload) ∧
    ∀ payload, IsPartId peer isp payload → ¬ ReturnsInTime payload → ret = .error

variable {peer partId isp}

/-- The call reads an identifier that ends in time. -/
theorem ispGetPartID_of_return {payload : Bytes} (room : 11 ≤ partId.length)
    (ends : SearchEnds cmdSuccessRespStr (partIdAnswer peer isp))
    (follows : IsPartId peer isp payload) (inTime : ReturnsInTime payload) :
    ∃ written, ispGetPartID peer partId isp =
        .ok (.success, written, heardPartId peer isp) ∧
      written.length = partId.length ∧ written.drop 11 = partId.drop 11 := by
  obtain ⟨offset, early, ended⟩ := inTime
  obtain ⟨identifier, rest, split, noReturn, short⟩ := exists_before_return ended
  have answered : partIdAnswer peer isp ≠ [] := by
    intro silent
    unfold IsPartId at follows
    rw [silent] at follows
    exact not_follows_silence (by decide) (by decide) payload follows
  obtain ⟨skip, search, pointed⟩ := follows.search (by decide : cmdSuccessRespStr ≠ []) 0
  have found : strstr (received (partIdAnswer peer isp)) 0 cmdSuccessRespStr =
      .ok (some skip) := by
    rw [Nat.zero_add] at search
    exact search
  refine ⟨splice partId 0 identifier, ?_, splice_length (by omega), ?_⟩
  · have loop : partIdLoop payload 0 partId =
        .ok (identifier.length, splice partId 0 identifier) := by
      rw [split, partIdLoop_of_return noReturn (by omega) (by omega), Nat.zero_add]
    have accepted : ¬ 10 < identifier.length := by omega
    rw [ispGetPartID_eq, if_pos ends.1, if_neg answered, found]
    simp only [Except.bind]
    rw [pointed, loop]
    simp [Except.map, accepted]
  · apply List.ext_getElem?
    intro index
    rw [List.getElem?_drop, List.getElem?_drop, splice_getElem? _ (by omega),
      if_neg (by omega)]

/-- Without a line of success the call fails, and writes nothing. -/
theorem ispGetPartID_of_absent (ends : SearchEnds cmdSuccessRespStr (partIdAnswer peer isp))
    (absent : ∀ payload, ¬ IsPartId peer isp payload) :
    ∃ ret, ispGetPartID peer partId isp = .ok (ret, partId, heardPartId peer isp) ∧
      ret ≠ .success := by
  by_cases silent : partIdAnswer peer isp = []
  · refine ⟨.respTimeout, ?_, by decide⟩
    rw [ispGetPartID_eq, if_pos ends.1, if_pos silent]
  · refine ⟨.error, ?_, by decide⟩
    obtain ⟨found, search⟩ := (strstr_returns_iff (by decide) ends.1).mpr ends
    cases found with
    | none =>
        rw [ispGetPartID_eq, if_pos ends.1, if_neg silent, search]
        rfl
    | some p => exact absurd (follows_of_strstr (by decide) search) (absent _)

/-- A call that returns has found its end, and read an identifier that ends in
time if any. -/
theorem ends_of_ispGetPartID {result : RetCode × Bytes × Isp σ}
    (returned : ispGetPartID peer partId isp = .ok result) :
    SearchEnds cmdSuccessRespStr (partIdAnswer peer isp) ∧
      ∀ payload, IsPartId peer isp payload → ReturnsInTime payload := by
  rw [ispGetPartID_eq] at returned
  split_ifs at returned with fits silent
  · refine ⟨⟨fits, .inl (by rw [silent]; decide)⟩, ?_⟩
    intro payload follows
    unfold IsPartId at follows
    rw [silent] at follows
    exact absurd follows (not_follows_silence (by decide) (by decide) payload)
  · have searches := strstr_returns_iff (by decide : cmdSuccessRespStr ≠ []) fits
    cases search : strstr (received (partIdAnswer peer isp)) 0 cmdSuccessRespStr with
    | error fault => simp [search, Except.bind] at returned
    | ok found =>
        refine ⟨searches.mp ⟨found, search⟩, ?_⟩
        intro payload follows
        cases found with
        | none => exact absurd follows (not_follows_of_strstr (by decide) search payload)
        | some p =>
            have same := follows.unique (by decide) (follows_of_strstr (by decide) search)
            simp only [search, Except.bind, ← same] at returned
            cases loop : partIdLoop payload 0 partId with
            | error fault => simp [loop, Except.map] at returned
            | ok read =>
                obtain ⟨offset, inTime, ended⟩ := partIdLoop_returns loop
                exact ⟨offset, by omega, ended⟩

/-- The call does what it is for when the answer fits, the search for the line of
success ends, and what follows the line has a carriage return in time. -/
theorem readsPartId_iff (room : 11 ≤ partId.length) :
    ReadsPartId peer partId isp ↔
      SearchEnds cmdSuccessRespStr (partIdAnswer peer isp) ∧
        ∀ payload, IsPartId peer isp payload → ReturnsInTime payload := by
  constructor
  · rintro ⟨ret, written, final, returned, -⟩
    exact ends_of_ispGetPartID returned
  · rintro ⟨ends, inTime⟩
    by_cases present : ∃ payload, IsPartId peer isp payload
    · obtain ⟨payload, follows⟩ := present
      obtain ⟨written, returned, length, kept⟩ :=
        ispGetPartID_of_return room ends follows (inTime payload follows)
      refine ⟨_, written, _, returned, length, kept, ?_, ?_⟩
      · exact iff_of_true rfl ⟨payload, follows, inTime payload follows⟩
      · exact fun other otherFollows late => absurd (inTime other otherFollows) late
    · have absent := not_exists.mp present
      have failing : ∃ ret, ispGetPartID peer partId isp =
          .ok (ret, partId, heardPartId peer isp) ∧ ret ≠ .success :=
        ispGetPartID_of_absent ends absent
      obtain ⟨ret, returned, fails⟩ := failing
      refine ⟨ret, partId, _, returned, rfl, rfl, ?_, ?_⟩
      · exact iff_of_false fails fun found => absent _ found.choose_spec.1
      · exact fun other otherFollows _ => absurd otherFollows (absent other)

end

/-- An answer that starts with the line of success. -/
theorem isPartId_start {rest : Bytes}
    (answer : partIdAnswer (replyPeer (cmdSuccessRespStr ++ rest)) quietIsp =
      cmdSuccessRespStr ++ rest) :
    ∃ zeros, IsPartId (replyPeer (cmdSuccessRespStr ++ rest)) quietIsp (rest ++ zeros) := by
  refine ⟨List.replicate (ispRecvBufSize - (cmdSuccessRespStr ++ rest).length) 0, [], ?_, ?_, ?_⟩
  · rw [answer]
    simp [received]
  · simp
  · intro earlier later split laterNonempty
    exact absurd (List.append_eq_nil_iff.mp split).2 laterNonempty

/-- The identifier of the target in the default configuration. -/
theorem readsPartId_iff_lpc1125 :
    ReadsPartId (replyPeer (cmdSuccessRespStr ++ ascii "LPC1125\r\n")) (List.replicate 11 0)
      quietIsp := by
  have answer : partIdAnswer (replyPeer (cmdSuccessRespStr ++ ascii "LPC1125\r\n")) quietIsp =
      cmdSuccessRespStr ++ ascii "LPC1125\r\n" := by decide +kernel
  obtain ⟨zeros, follows⟩ := isPartId_start answer
  refine (readsPartId_iff (by simp)).mpr ⟨?_, fun payload otherFollows => ?_⟩
  · rw [answer]
    exact ⟨by decide, .inl (by decide)⟩
  · rw [otherFollows.unique (by decide) follows]
    exact ⟨7, by decide, rfl⟩

/-- An identifier of eleven characters runs the loop out of the buffer. -/
theorem not_readsPartId_eleven :
    ¬ ReadsPartId (replyPeer (cmdSuccessRespStr ++ ascii "LPC11U35401\r\n"))
      (List.replicate 32 0) quietIsp := by
  have answer : partIdAnswer (replyPeer (cmdSuccessRespStr ++ ascii "LPC11U35401\r\n"))
      quietIsp = cmdSuccessRespStr ++ ascii "LPC11U35401\r\n" := by decide +kernel
  obtain ⟨zeros, follows⟩ := isPartId_start answer
  rintro ⟨ret, written, final, returned, -⟩
  obtain ⟨offset, early, ended⟩ := (ends_of_ispGetPartID returned).2 _ follows
  rw [List.getElem?_append_left (by
    have length : (ascii "LPC11U35401\r\n").length = 13 := rfl
    omega)] at ended
  exact absurd ⟨offset, early, ended⟩
    (by decide : ¬ ∃ offset ≤ 10, (ascii "LPC11U35401\r\n")[offset]? = some 13)

end OnlineProgram
