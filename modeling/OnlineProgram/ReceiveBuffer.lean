import OnlineProgram.ReadResponses
import OnlineProgram.ResultCodes

/-!
# Inside the receive buffer

Nothing in the commands looks at how much has been received: the buffer is
filled as long as bytes come, searched until a zero, and read at a fixed stride.
This file says for which streams of bytes every access stays inside the buffer,
and no pointer of a failed search is used.
-/

namespace OnlineProgram

open ByteStrings CMemory SerialLink UuCoding

/-- A call that hears `answer` faults, if at all, at an object of its caller. -/
def InsideBuffer {α : Type} (answer : Bytes) (result : Except Fault α) : Prop :=
  ∀ fault, result = .error fault →
    fault = .bufferOverflow ∧ answer.length ≤ ispRecvBufSize

/-- The response fits, and the search for `needle` ends in it. -/
def SearchEnds (needle response : Bytes) : Prop :=
  response.length ≤ ispRecvBufSize ∧
    (response.length < ispRecvBufSize ∨ (0 : UInt8) ∈ response ∨ needle <:+: response)

theorem strstr_returns_iff {needle response : Bytes} (needleNonempty : needle ≠ [])
    (fits : response.length ≤ ispRecvBufSize) :
    (∃ found, strstr (received response) 0 needle = .ok found) ↔
      SearchEnds needle response := by
  have faults := strstr_received_error_iff needleNonempty fits
  unfold SearchEnds
  cases search : strstr (received response) 0 needle with
  | error fault =>
      rw [search] at faults
      obtain ⟨full, noZero, absent⟩ := faults.mp ⟨fault, rfl⟩
      simp [full, noZero, absent]
  | ok found =>
      have ends : ¬ (response.length = ispRecvBufSize ∧ (0 : UInt8) ∉ response ∧
          ¬ needle <:+: response) := by
        rw [← faults, search]
        simp
      simp only [Except.ok.injEq, exists_eq', true_iff]
      refine ⟨fits, ?_⟩
      by_contra runsOff
      obtain ⟨notShort, noZero, absent⟩ : ¬ response.length < ispRecvBufSize ∧
          (0 : UInt8) ∉ response ∧ ¬ needle <:+: response := by
        simpa only [not_or] using runsOff
      exact ends ⟨by omega, noZero, absent⟩

theorem insideBuffer_map {α β : Type} {answer : Bytes} {result : Except Fault α}
    (function : α → β) :
    InsideBuffer answer (result.map function) ↔ InsideBuffer answer result := by
  cases result <;> simp [InsideBuffer, Except.map]

/-- A cleared buffer holds nothing to be found. -/
theorem not_follows_silence {needle : Bytes} (needleNonempty : needle ≠ [])
    (needleNonzero : (0 : UInt8) ∉ needle) (payload : Bytes) :
    ¬ FollowsFirst needle (received []) payload := by
  rintro ⟨before, split, -⟩
  obtain ⟨head, tail, rfl⟩ := List.exists_cons_of_ne_nil needleNonempty
  have member : head ∈ received [] := by simp [split]
  have zero : head = 0 := List.eq_of_mem_replicate member
  exact needleNonzero (by simp [zero])

/-- A family of calls that hear `answer` and parse what follows `needle` in it
stays inside the buffer when the answer fits, the search ends, and the parser
stays inside. -/
theorem insideBuffer_search_iff {α ι : Type} [Nonempty ι] {needle answer : Bytes}
    (calls : ι → Except Fault α) (silent missed : ι → α)
    (parse : ι → Bytes → Except Fault α)
    (needleNonempty : needle ≠ []) (needleNonzero : (0 : UInt8) ∉ needle)
    (calls_eq : ∀ call, calls call =
      if answer.length ≤ ispRecvBufSize then
        if answer = [] then .ok (silent call)
        else
          (strstr (received answer) 0 needle).bind fun found =>
            match found with
            | none => .ok (missed call)
            | some p => parse call ((received answer).drop (p + needle.length))
      else .error .bufferOverflow) :
    (∀ call, InsideBuffer answer (calls call)) ↔
      SearchEnds needle answer ∧ ∀ payload, FollowsFirst needle (received answer) payload →
        ∀ call, InsideBuffer answer (parse call payload) := by
  obtain ⟨anyCall⟩ := ‹Nonempty ι›
  have returns (result : α) : InsideBuffer answer (.ok result) := by simp [InsideBuffer]
  by_cases fits : answer.length ≤ ispRecvBufSize
  · by_cases answered : answer = []
    · have ends : SearchEnds needle answer := ⟨fits, .inl (by rw [answered]; decide)⟩
      have absent : ∀ payload, ¬ FollowsFirst needle (received answer) payload := by
        rw [answered]
        exact not_follows_silence needleNonempty needleNonzero
      simp only [calls_eq, if_pos fits, if_pos answered, returns, implies_true, ends,
        absent, false_implies, and_self]
    · simp only [calls_eq, if_pos fits, if_neg answered]
      have searches := strstr_returns_iff needleNonempty fits
      cases search : strstr (received answer) 0 needle with
      | error fault =>
          rw [search] at searches
          have runsOff : ¬ SearchEnds needle answer := by
            rw [← searches]
            simp
          obtain rfl := searchFrom_fault search
          simp only [Except.bind, runsOff, false_and, iff_false]
          intro inside
          exact absurd (inside anyCall _ rfl).1 (by decide)
      | ok found =>
          have ends : SearchEnds needle answer := searches.mp ⟨found, search⟩
          cases found with
          | none =>
              have absent := not_follows_of_strstr needleNonempty search
              simp only [Except.bind, returns, implies_true, ends, absent, false_implies,
                and_self]
          | some p =>
              have follows := follows_of_strstr needleNonempty search
              simp only [Except.bind, ends, true_and]
              constructor
              · intro inside payload otherFollows
                rw [otherFollows.unique needleNonempty follows]
                exact inside
              · intro inside
                exact inside _ follows
  · have overflows : ¬ SearchEnds needle answer := fun ends => fits ends.1
    simp only [calls_eq, if_neg fits, overflows, false_and, iff_false]
    intro inside
    exact fits (inside anyCall _ rfl).2

variable {σ : Type} {peer : Peer σ} {isp : Isp σ}

section Receive

theorem ispGetResp_returns_iff (timeoutUs : Nat) (isp : Isp σ) :
    (∃ result, ispGetResp timeoutUs isp.clearRecvBuf = .ok result) ↔
      (burst timeoutUs isp.incoming).length ≤ ispRecvBufSize := by
  rw [ispGetResp_cleared]
  split_ifs with fits
  · simp [fits]
  · simp [fits]

end Receive

section Synchronize

/-- The text whose search decides whether a round stays inside the buffer. -/
def syncNeedle : SyncStatus → Bytes
  | .setupSync => baudrateSyncRecvStr
  | .respSync => okStr
  | .sendFreq => okStr
  | _ => []

/-- What a round hears. -/
def syncAnswer (peer : Peer σ) (status : SyncStatus) (isp : Isp σ) : Bytes :=
  burst ispUartRecvTimeoutUs (syncSend peer status isp).incoming

/-- The rounds of a run. -/
inductive SyncReaches (peer : Peer σ) : SyncStatus → Isp σ → SyncStatus → Isp σ → Prop
  | here {status isp} : SyncReaches peer status isp status isp
  | round {status isp next after reached final} :
      0 < syncRank status → syncRound peer status isp = .ok (next, after) →
      SyncReaches peer next after reached final →
      SyncReaches peer status isp reached final

theorem syncSend_clearRecvBuf (peer : Peer σ) (status : SyncStatus) (isp : Isp σ) :
    syncSend peer status isp.clearRecvBuf = (syncSend peer status isp).clearRecvBuf := by
  cases status <;> rfl

theorem syncJudge_returns_iff {status : SyncStatus} {response : Bytes}
    (unfinished : 0 < syncRank status) (fits : response.length ≤ ispRecvBufSize) :
    (∃ next, syncJudge status (received response) = .ok next) ↔
      SearchEnds (syncNeedle status) response := by
  have one {needle : Bytes} (choose : Option Nat → SyncStatus) (nonempty : needle ≠ []) :
      (∃ next, (do
          let p ← strstr (received response) 0 needle
          .ok (choose p)) = Except.ok next) ↔ SearchEnds needle response := by
    rw [← strstr_returns_iff nonempty fits]
    cases strstr (received response) 0 needle <;> simp [bind, Except.bind]
  cases status with
  | setupSync =>
      have ends := strstr_returns_iff (by decide : baudrateSyncRecvStr ≠ []) fits
      unfold syncJudge syncNeedle
      rw [← ends]
      cases search : strstr (received response) 0 baudrateSyncRecvStr with
      | error fault => simp [bind, Except.bind]
      | ok found =>
          cases found with
          | some p => simp [bind, Except.bind]
          | none =>
              have zero : (0 : UInt8) ∈ received response := searchFrom_none search
              have again := (one (fun p => if p ≠ none then .exitSync else .syncError)
                (by decide : baudrateSyncSendStr ≠ [])).mpr
                ⟨fits, ((zero_mem_received fits).mp zero).imp_right .inl⟩
              simp only [Except.ok.injEq, exists_eq', iff_true]
              exact again
  | respSync => exact one _ (by decide)
  | sendFreq => exact one _ (by decide)
  | exitSync =>
      have first : ∃ byte, loadByte (received response) 0 = .ok byte := by
        have length := received_length fits
        unfold loadByte
        rw [List.getElem?_eq_getElem (by rw [length]; decide)]
        exact ⟨_, rfl⟩
      obtain ⟨byte, load⟩ := first
      have returns : ∃ next, syncJudge .exitSync (received response) = .ok next := by
        unfold syncJudge
        rw [load]
        exact ⟨_, rfl⟩
      simp only [returns, true_iff]
      exact ⟨fits, .inr (.inr (List.nil_infix))⟩
  | syncDone => exact absurd unfinished (Nat.lt_irrefl 0)
  | syncTimeout => exact absurd unfinished (Nat.lt_irrefl 0)
  | syncError => exact absurd unfinished (Nat.lt_irrefl 0)

/-- A round stays inside the buffer when what it hears fits and its search
ends. -/
theorem syncRound_returns_iff {status : SyncStatus} (peer : Peer σ) (isp : Isp σ)
    (unfinished : 0 < syncRank status) :
    (∃ result, syncRound peer status isp = .ok result) ↔
      SearchEnds (syncNeedle status) (syncAnswer peer status isp) := by
  have receives : ispGetResp ispUartRecvTimeoutUs (syncSend peer status isp.clearRecvBuf) =
      if (syncAnswer peer status isp).length ≤ ispRecvBufSize then
        .ok ((syncAnswer peer status isp).length,
          (syncSend peer status isp).hear ispUartRecvTimeoutUs)
      else .error .bufferOverflow := by
    rw [syncSend_clearRecvBuf, ispGetResp_cleared]
    rfl
  unfold syncRound
  rw [receives]
  by_cases fits : (syncAnswer peer status isp).length ≤ ispRecvBufSize
  · rw [if_pos fits, ← syncJudge_returns_iff unfinished fits]
    simp only [bind, Except.bind]
    by_cases silent : (syncAnswer peer status isp).length ≤ 0
    · have returns := (syncJudge_returns_iff unfinished fits).mpr
        ⟨fits, .inl (by unfold ispRecvBufSize; omega)⟩
      rw [if_pos silent]
      simp [returns]
    · have buffer : ((syncSend peer status isp).hear ispUartRecvTimeoutUs).ispRecvBuf =
          received (syncAnswer peer status isp) := rfl
      rw [if_neg silent, buffer]
      cases syncJudge status (received (syncAnswer peer status isp)) <;> simp
  · have overflows : ¬ SearchEnds (syncNeedle status) (syncAnswer peer status isp) :=
      fun ends => fits ends.1
    rw [if_neg fits]
    simp [bind, Except.bind, overflows]

theorem syncLoop_unfinished {status : SyncStatus} (unfinished : 0 < syncRank status) :
    syncLoop peer status isp =
      (syncRound peer status isp).bind fun next => syncLoop peer next.1 next.2 := by
  rw [syncLoop, dif_pos unfinished]
  split
  · next fault failed => rw [failed]; rfl
  · next next after round => rw [round]; rfl

theorem syncLoop_finished {status : SyncStatus} (peer : Peer σ) (isp : Isp σ)
    (finished : ¬ 0 < syncRank status) :
    ∃ ret, syncLoop peer status isp = .ok (ret, isp) := by
  rw [syncLoop, dif_neg finished]
  split <;> exact ⟨_, rfl⟩

/-- A run stays inside the buffer when all its rounds do. -/
theorem syncLoop_returns_iff {status : SyncStatus} :
    (∃ result, syncLoop peer status isp = .ok result) ↔
      ∀ reached final, SyncReaches peer status isp reached final → 0 < syncRank reached →
        SearchEnds (syncNeedle reached) (syncAnswer peer reached final) := by
  induction rank : syncRank status using Nat.strong_induction_on generalizing status isp with
  | h rank ih =>
      subst rank
      by_cases unfinished : 0 < syncRank status
      · rw [syncLoop_unfinished unfinished]
        have inside := syncRound_returns_iff peer isp unfinished
        cases round : syncRound peer status isp with
        | error fault =>
            rw [round] at inside
            have outside : ¬ SearchEnds (syncNeedle status) (syncAnswer peer status isp) := by
              rw [← inside]
              simp
            simp only [Except.bind, reduceCtorEq, exists_false, false_iff]
            exact fun all => outside (all status isp .here unfinished)
        | ok next =>
            obtain ⟨next, after⟩ := next
            rw [round] at inside
            have here := inside.mp ⟨_, rfl⟩
            simp only [Except.bind]
            rw [ih (syncRank next) (syncRound_rank peer unfinished round) rfl]
            constructor
            · intro later reached final reaches
              cases reaches with
              | here => exact fun _ => here
              | round _ same rest =>
                  obtain ⟨rfl, rfl⟩ := Prod.mk.inj (Except.ok.inj (round.symm.trans same))
                  exact later reached final rest
            · intro all reached final reaches
              exact all reached final (.round unfinished round reaches)
      · obtain ⟨ret, returned⟩ := syncLoop_finished peer isp unfinished
        simp only [returned, Except.ok.injEq, exists_eq', true_iff]
        intro reached final reaches more
        cases reaches with
        | here => exact absurd more unfinished
        | round here _ _ => exact absurd here unfinished

end Synchronize

section PartId

/-- What `ISP_getPartID` hears. -/
def partIdAnswer (peer : Peer σ) (isp : Isp σ) : Bytes :=
  burst ispUartRecvTimeoutUs ((isp.puts peer [ispCmdReadPartId]).puts peer endcodeStr).incoming

/-- The state after `ISP_getPartID` has heard it. -/
def heardPartId (peer : Peer σ) (isp : Isp σ) : Isp σ :=
  ((isp.puts peer [ispCmdReadPartId]).puts peer endcodeStr).hear ispUartRecvTimeoutUs

theorem partIdLoop_cons (byte : UInt8) (text : Bytes) (i : Nat) (partId : Bytes) :
    partIdLoop (byte :: text) i partId =
      if byte ≠ 13 ∨ 10 < i then
        if i + 1 ≤ partId.length then partIdLoop text (i + 1) (splice partId i [byte])
        else .error .bufferOverflow
      else .ok (i, partId) := by
  conv_lhs => unfold partIdLoop
  unfold store
  simp only [List.length_singleton]
  split_ifs <;> rfl

/-- The loop stays inside the text when a carriage return ends it in time. -/
theorem partIdLoop_inside {text : Bytes} {i offset : Nat} {partId : Bytes} {fault : Fault}
    (inTime : i + offset ≤ 10) (ended : text[offset]? = some 13)
    (faults : partIdLoop text i partId = .error fault) : fault = .bufferOverflow := by
  induction text generalizing i offset partId with
  | nil => simp at ended
  | cons byte text ih =>
      rw [partIdLoop_cons] at faults
      split_ifs at faults with more room
      · cases offset with
        | zero =>
            have isReturn : byte = 13 := by simpa using ended
            exact more.elim (absurd isReturn) fun late => absurd inTime (by omega)
        | succ offset =>
            have later : i + 1 + offset ≤ 10 := by omega
            exact ih later (by simpa using ended) faults
      · exact (Except.error.inj faults).symm

/-- Only a carriage return in time ends the loop. -/
theorem partIdLoop_returns {text : Bytes} {i : Nat} {partId : Bytes} {result : Nat × Bytes}
    (returned : partIdLoop text i partId = .ok result) :
    ∃ offset, i + offset ≤ 10 ∧ text[offset]? = some 13 := by
  induction text generalizing i partId with
  | nil => simp [partIdLoop] at returned
  | cons byte text ih =>
      rw [partIdLoop_cons] at returned
      split_ifs at returned with more room
      · obtain ⟨offset, inTime, ended⟩ := ih returned
        exact ⟨offset + 1, by omega, by simpa using ended⟩
      · obtain ⟨isReturn, inTime⟩ := not_or.mp more
        exact ⟨0, by omega, by simpa using isReturn⟩

theorem partIdLoop_room {text : Bytes} {i : Nat} {partId : Bytes}
    (room : i + text.length ≤ partId.length) :
    partIdLoop text i partId ≠ .error .bufferOverflow := by
  induction text generalizing i partId with
  | nil => simp [partIdLoop]
  | cons byte text ih =>
      rw [List.length_cons] at room
      rw [partIdLoop_cons]
      split_ifs with more here
      · exact ih (by rw [splice_length (by simpa using here)]; omega)
      · omega
      · simp

/-- The identifier is read inside the buffer when a carriage return stands within
eleven bytes of the success line. -/
theorem partIdLoop_inside_iff {answer text : Bytes} (fits : answer.length ≤ ispRecvBufSize) :
    (∀ partId, InsideBuffer answer (partIdLoop text 0 partId)) ↔
      ∃ offset ≤ 10, text[offset]? = some 13 := by
  constructor
  · intro inside
    have room : 0 + text.length ≤ (List.replicate text.length (0 : UInt8)).length := by simp
    cases loop : partIdLoop text 0 (List.replicate text.length 0) with
    | error fault =>
        obtain ⟨rfl, -⟩ := inside _ fault loop
        exact absurd loop (partIdLoop_room room)
    | ok result =>
        obtain ⟨offset, inTime, ended⟩ := partIdLoop_returns loop
        exact ⟨offset, by omega, ended⟩
  · rintro ⟨offset, inTime, ended⟩ partId fault faults
    exact ⟨partIdLoop_inside (by omega) ended faults, fits⟩

theorem ispGetPartID_eq (peer : Peer σ) (isp : Isp σ) (partId : Bytes) :
    ispGetPartID peer partId isp =
      if (partIdAnswer peer isp).length ≤ ispRecvBufSize then
        if partIdAnswer peer isp = [] then
          .ok (.respTimeout, partId, heardPartId peer isp)
        else
          (strstr (received (partIdAnswer peer isp)) 0 cmdSuccessRespStr).bind fun found =>
            match found with
            | none => .ok (.error, partId, heardPartId peer isp)
            | some p =>
                (partIdLoop ((received (partIdAnswer peer isp)).drop
                  (p + cmdSuccessRespStr.length)) 0 partId).map fun result =>
                    (if 10 < result.1 then .error else .success, result.2,
                      heardPartId peer isp)
      else .error .bufferOverflow := by
  have receives : ispGetResp ispUartRecvTimeoutUs
      ((isp.clearRecvBuf.puts peer [ispCmdReadPartId]).puts peer endcodeStr) =
        if (partIdAnswer peer isp).length ≤ ispRecvBufSize then
          .ok ((partIdAnswer peer isp).length, heardPartId peer isp)
        else .error .bufferOverflow := by
    rw [← clearRecvBuf_puts, ← clearRecvBuf_puts, ispGetResp_cleared]
    rfl
  have buffer : (heardPartId peer isp).ispRecvBuf = received (partIdAnswer peer isp) := rfl
  unfold ispGetPartID
  rw [receives]
  by_cases fits : (partIdAnswer peer isp).length ≤ ispRecvBufSize
  · rw [if_pos fits, if_pos fits]
    simp only [bind, Except.bind, buffer]
    by_cases silent : partIdAnswer peer isp = []
    · rw [if_pos silent, if_pos (by simp [silent])]
    · have answered := List.length_pos_of_ne_nil silent
      rw [if_neg silent, if_neg (by omega)]
      cases strstr (received (partIdAnswer peer isp)) 0 cmdSuccessRespStr with
      | error fault => rfl
      | ok found =>
          cases found with
          | none => rfl
          | some p => rfl
  · rw [if_neg fits, if_neg fits]
    rfl

theorem ispGetPartID_inside_iff :
    (∀ partId, InsideBuffer (partIdAnswer peer isp) (ispGetPartID peer partId isp)) ↔
      SearchEnds cmdSuccessRespStr (partIdAnswer peer isp) ∧
        ∀ payload,
          FollowsFirst cmdSuccessRespStr (received (partIdAnswer peer isp)) payload →
          ∃ offset ≤ 10, payload[offset]? = some 13 := by
  have search := insideBuffer_search_iff (fun partId => ispGetPartID peer partId isp)
    (fun partId => (RetCode.respTimeout, partId, heardPartId peer isp))
    (fun partId => (RetCode.error, partId, heardPartId peer isp))
    (fun partId payload => (partIdLoop payload 0 partId).map fun result =>
      (if 10 < result.1 then RetCode.error else .success, result.2, heardPartId peer isp))
    (by decide) (by decide) (ispGetPartID_eq peer isp)
  rw [search]
  refine and_congr_right fun ends => forall_congr' fun payload => imp_congr_right fun _ => ?_
  simp only [insideBuffer_map]
  exact partIdLoop_inside_iff ends.1

end PartId

section ReadMemory

variable {addr size : UInt32}

/-- Where a payload can be read: its last line, the end behind that, and the
number behind the end. -/
def PayloadEnds (payload : Bytes) (size : Nat) : Prop :=
  Readable (payload.drop (63 * lastLine size)) ∧
    ∃ after, FollowsFirst endcodeStr (payload.drop (63 * lastLine size)) after ∧ ¬ Unended after

theorem parsePayload_inside_iff {answer payload : Bytes} {size : Nat} (positive : 0 < size)
    (fits : answer.length ≤ ispRecvBufSize) :
    (∀ data : { data : Bytes // size ≤ data.length },
        InsideBuffer answer (parsePayload payload size data)) ↔ PayloadEnds payload size := by
  have bounds := lastLine_bounds positive
  constructor
  · intro inside
    have room : size ≤ (List.replicate (size + 46) (0 : UInt8)).length := by simp
    cases parse : parsePayload payload size (List.replicate (size + 46) 0) with
    | error fault =>
        obtain ⟨rfl, -⟩ := inside ⟨_, room⟩ fault parse
        have short := announcedLength_le (payload.drop (63 * lastLine size))
        rw [parsePayload_overflow_iff,
          ispDecodeLines_overflow_iff (List.drop_zero) (by simp; omega)] at parse
        obtain ⟨-, ⟨group, below, byte, small, -, tooMany⟩ | ⟨-, noRoom⟩⟩ := parse
        · rw [List.length_replicate] at tooMany
          unfold groups at below
          omega
        · rw [List.length_replicate] at noRoom
          omega
    | ok result =>
        obtain ⟨after, checksum, parsed⟩ := exists_parsed positive room parse
        refine ⟨parsed.readable, after, parsed.ended, fun unended => ?_⟩
        have faults := atoi_error_iff.mpr ⟨rfl, unended⟩
        rw [parsed.announced] at faults
        simp at faults
  · rintro ⟨readable, after, ended, ends⟩ ⟨data, large⟩ fault faults
    refine ⟨?_, fits⟩
    obtain ⟨checksum, announced⟩ : ∃ checksum, atoi after = .ok checksum := by
      cases number : atoi after with
      | error stop => exact absurd (atoi_error_iff.mp number).2 ends
      | ok checksum => exact ⟨checksum, rfl⟩
    by_cases fit : (lineWrites (payload.drop (63 * lastLine size))
        (45 * lastLine size)).Fit data.length
    · have parsed : Parsed payload size data.length after checksum :=
        ⟨readable, fit, ended, announced⟩
      rw [parsed.parsePayload positive large] at faults
      simp at faults
    · have overflows : parsePayload payload size data = .error .bufferOverflow := by
        rw [parsePayload_overflow_iff,
          ispDecodeLines_eq (List.drop_zero) (by omega) readable, if_neg fit]
      rw [overflows] at faults
      exact (Except.error.inj faults).symm

theorem ispReadMemory_inside_iff (accepted : ReadAccepted addr size) :
    (∀ data : { data : Bytes // size.toNat ≤ data.length },
        InsideBuffer (readAnswer peer addr size isp) (ispReadMemory peer addr size data isp)) ↔
      SearchEnds cmdSuccessRespStr (readAnswer peer addr size isp) ∧
        ∀ payload,
          FollowsFirst cmdSuccessRespStr (received (readAnswer peer addr size isp)) payload →
          PayloadEnds payload size.toNat := by
  have anyData : Nonempty { data : Bytes // size.toNat ≤ data.length } :=
    ⟨List.replicate size.toNat 0, by simp⟩
  have search := insideBuffer_search_iff
    (fun data : { data : Bytes // size.toNat ≤ data.length } =>
      ispReadMemory peer addr size data.1 isp)
    (fun data => (RetCode.respTimeout, data.1, heardRead peer addr size isp))
    (fun data => (RetCode.error, data.1, heardRead peer addr size isp))
    (fun data payload => (parsePayload payload size.toNat data).map fun result =>
      (result.1, result.2, afterRead peer addr size isp result.1))
    (by decide : cmdSuccessRespStr ≠ []) (by decide) (fun _ => ispReadMemory_receives accepted)
  rw [search]
  refine and_congr_right fun ends => forall_congr' fun payload => imp_congr_right fun _ => ?_
  simp only [insideBuffer_map]
  exact parsePayload_inside_iff accepted.2.2.1 ends.1

/-- For every stream of bytes and every timing: when the accesses of
`ISP_getResp`, `ISP_syncBaudRate`, `ISP_getPartID` and `ISP_readMemory` to the
receive buffer stay inside it, and no pointer of a failed search is used. -/
theorem ispRecvBuf_safe_iff (peer : Peer σ) (isp : Isp σ) (timeoutUs : Nat)
    (accepted : ReadAccepted addr size) :
    ((∃ result, ispGetResp timeoutUs isp.clearRecvBuf = .ok result) ↔
        (burst timeoutUs isp.incoming).length ≤ ispRecvBufSize) ∧
      ((∃ result, ispSyncBaudRate peer isp = .ok result) ↔
        ∀ reached final, SyncReaches peer .setupSync isp reached final →
          0 < syncRank reached →
          SearchEnds (syncNeedle reached) (syncAnswer peer reached final)) ∧
      ((∀ partId, InsideBuffer (partIdAnswer peer isp) (ispGetPartID peer partId isp)) ↔
        SearchEnds cmdSuccessRespStr (partIdAnswer peer isp) ∧
          ∀ payload,
            FollowsFirst cmdSuccessRespStr (received (partIdAnswer peer isp)) payload →
            ∃ offset ≤ 10, payload[offset]? = some 13) ∧
      ((∀ data : Bytes, size.toNat ≤ data.length →
          InsideBuffer (readAnswer peer addr size isp)
            (ispReadMemory peer addr size data isp)) ↔
        SearchEnds cmdSuccessRespStr (readAnswer peer addr size isp) ∧
          ∀ payload,
            FollowsFirst cmdSuccessRespStr (received (readAnswer peer addr size isp)) payload →
            PayloadEnds payload size.toNat) := by
  refine ⟨ispGetResp_returns_iff timeoutUs isp, syncLoop_returns_iff, ispGetPartID_inside_iff, ?_⟩
  rw [← ispReadMemory_inside_iff accepted]
  exact ⟨fun inside data => inside data.1 data.2, fun inside data large => inside ⟨data, large⟩⟩

/-- A whole response to a read of four bytes. -/
theorem ispRecvBuf_safe_iff_short :
    InsideBuffer (readAnswer (replyPeer (ascii "0\r\n#ABCD\r\n0\r\n")) 0 4 quietIsp)
      (ispReadMemory (replyPeer (ascii "0\r\n#ABCD\r\n0\r\n")) 0 4 [0, 0, 0, 0] quietIsp) := by
  have search : strstr (received (readAnswer
      (replyPeer (ascii "0\r\n#ABCD\r\n0\r\n")) 0 4 quietIsp)) 0 cmdSuccessRespStr =
        .ok (some 0) := by
    decide +kernel
  have accepted : ReadAccepted 0 4 := by decide
  refine (ispRecvBuf_safe_iff (replyPeer (ascii "0\r\n#ABCD\r\n0\r\n")) quietIsp 500
    accepted).2.2.2.mpr ⟨⟨by decide +kernel, .inl (by decide +kernel)⟩, ?_⟩ [0, 0, 0, 0]
    (by decide)
  intro payload follows
  rw [follows.unique (by decide) (follows_of_strstr (by decide) search)]
  have ended : strstr (((received (readAnswer (replyPeer (ascii "0\r\n#ABCD\r\n0\r\n")) 0 4
      quietIsp)).drop 3).drop 0) 0 endcodeStr = .ok (some 5) := by
    decide +kernel
  refine ⟨by decide +kernel, _, follows_of_strstr (by decide) ended, fun unended => ?_⟩
  have number : atoi ((((received (readAnswer (replyPeer (ascii "0\r\n#ABCD\r\n0\r\n")) 0 4
      quietIsp)).drop 3).drop 0).drop (5 + 2)) = .ok 0 := by
    decide +kernel
  exact absurd (number.symm.trans (atoi_error_iff.mpr ⟨rfl, unended⟩)) (by decide)

/-- Behind a truncated response the search for the checksum fails, and its result
is used. -/
theorem ispReadMemory_null_truncated :
    Prod.fst <$> ispReadMemory (replyPeer (ascii "0\r\n")) 0 4 [0, 0, 0, 0, 0, 0] quietIsp =
      .error .nullPointer := by
  decide +kernel

end ReadMemory

end OnlineProgram
