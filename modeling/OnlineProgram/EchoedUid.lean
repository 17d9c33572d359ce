import OnlineProgram.JsonText
import OnlineProgram.NetworkMemory

/-!
# The UID in the report

The UID of an answer has gone through a JSON parser, which has resolved its
escapes.  `sendMsgHandle` pastes it into its report as it is.  So the server
reads the same UID in the report exactly when nothing in it needs an escape.
-/

namespace OnlineProgram

open ByteStrings JsonText

/-- A JSON text with the bytes of the given string as its only UID. -/
def EchoesUid (text uid : Bytes) : Prop :=
  ∃ members content, parse text = some (.object members) ∧
    members.filter (fun member => member.1 = "UID".toList) =
      [("UID".toList, .string content)] ∧
    Utf8Text.encode content = uid

/-- UTF-8 without quotes, backslashes and control characters. -/
def NeedsNoEscape (uid : Bytes) : Prop :=
  ∃ content, Utf8Text.encode content = uid ∧ ∀ char ∈ content, IsUnescaped char

/-- The report up to the UID, without its opening quote. -/
def notifyHead : List Char :=
  "\x7b\"apiId\":20,\"UID\":".toList

/-- The report behind the UID and its closing quote. -/
def notifyTail (result : Bool) : List Char :=
  ",\"result\":".toList ++ [if result then '1' else '0', '\x7d']

theorem reqNotifyResult_eq (uid : Bytes) (result : Bool) :
    reqNotifyResult apiIdNotifyProgramUidResult uid result =
      Utf8Text.encode notifyHead ++ 34 :: (uid ++ 34 :: Utf8Text.encode (notifyTail result)) := by
  have head : ascii "\x7b\"apiId\":" ++ formatD apiIdNotifyProgramUidResult ++
      ascii ",\"UID\":\"" = Utf8Text.encode notifyHead ++ [34] := by decide +kernel
  have tail : ascii "\",\"result\":" ++ formatBool result ++ ascii "\x7d" =
      34 :: Utf8Text.encode (notifyTail result) := by
    cases result
    · decide +kernel
    · decide +kernel
  unfold reqNotifyResult
  rw [head, List.append_assoc, List.append_assoc, ← List.append_assoc (ascii _), tail]
  simp

/-- The characters of a report are those of the UID between the fixed ones. -/
theorem decode_reqNotifyResult {uid : Bytes} {result : Bool} {text : List Char}
    (decoded : Utf8Text.decode (reqNotifyResult apiIdNotifyProgramUidResult uid result) =
      some text) :
    ∃ content, Utf8Text.encode content = uid ∧
      text = notifyHead ++ quote :: (content ++ quote :: notifyTail result) := by
  rw [Utf8Text.decode_eq_some_iff, reqNotifyResult_eq] at decoded
  obtain ⟨first, second, rfl, isHead, behind⟩ := Utf8Text.encode_eq_append (by decide) decoded
  obtain ⟨content, third, rfl, isUid, isTail⟩ := Utf8Text.encode_eq_append (by decide) behind
  refine ⟨content, isUid, ?_⟩
  rw [Utf8Text.encode_injective isHead, Utf8Text.encode_injective isTail]
  rfl

section Report

variable (depth steps : Nat) (text : List Char)

/-- The first member of a report is its id, whatever the UID does behind it. -/
theorem separated_apiId :
    separated (member (value (depth + 1))) '\x7d' (steps + 1)
        (quote :: ("apiId".toList ++ quote :: ':' :: '2' :: '0' :: ',' :: quote :: text)) =
      (separated (member (value (depth + 1))) '\x7d' steps (quote :: text)).map fun others =>
        (("apiId".toList, .number ['2', '0']) :: others.1, others.2) := by
  have isFirst : member (value (depth + 1))
      (quote :: ("apiId".toList ++ quote :: ':' :: '2' :: '0' :: ',' :: quote :: text)) =
        some (("apiId".toList, .number ['2', '0']), ',' :: quote :: text) := by
    rw [member_named _ (isUnescaped_of_all (by decide))]
    rfl
  rw [separated_of_comma isFirst]
  rfl

theorem member_uid :
    member (value (depth + 1)) (quote :: ("UID".toList ++ quote :: ':' :: quote :: text)) =
      (stringBody (text.length + 1) text).map fun read =>
        (("UID".toList, .string read.1), read.2) := by
  rw [member_named _ (isUnescaped_of_all (by decide))]
  change (value (depth + 1) (quote :: text)).map _ = _
  rw [value_string, Option.map_map]
  rfl

/-- The last member of a report is its result. -/
theorem separated_result (result : Bool) :
    separated (member (value (depth + 1))) '\x7d' (steps + 1) (notifyTail result).tail =
      some ([("result".toList, .number [if result then '1' else '0'])], []) := by
  have isLast : member (value (depth + 1)) (notifyTail result).tail =
      some (("result".toList, .number [if result then '1' else '0']), ['\x7d']) := by
    change member _ (quote :: ("result".toList ++ quote :: ':' ::
      [if result then '1' else '0', '\x7d'])) = _
    rw [member_named _ (isUnescaped_of_all (by decide))]
    cases result
    · rfl
    · rfl
  rw [separated, isLast]
  rfl

/-- A report is an object if its UID and what follows are members of one. -/
theorem parseText_report :
    ∃ depth steps, parseText (notifyHead ++ quote :: text) =
      (separated (member (value (depth + 1))) '\x7d' (steps + 2)
        (quote :: ("UID".toList ++ quote :: ':' :: quote :: text))).bind fun read =>
          if skipBlanks read.2 = [] then
            some (.object (("apiId".toList, .number ['2', '0']) :: read.1))
          else none := by
  refine ⟨text.length + 18, text.length + 15, ?_⟩
  have spelled : notifyHead ++ quote :: text =
      '\x7b' :: quote :: ("apiId".toList ++ quote :: ':' :: '2' :: '0' :: ',' :: quote ::
        ("UID".toList ++ quote :: ':' :: quote :: text)) := rfl
  have separate := separated_apiId (text.length + 18) (text.length + 17)
    ("UID".toList ++ quote :: ':' :: quote :: text)
  rw [spelled, parseText_object]
  change (separated (member (value (text.length + 18 + 1))) _ (text.length + 17 + 1) _).bind _ = _
  rw [separate, Option.bind_map]
  rfl

end Report

/-- A string that takes its closing quote in ends at the next one, in front of
the name of the last member. -/
theorem behind_of_taken {result : Bool} {steps : Nat} {content behind : List Char}
    (taken : stringBody steps (notifyTail result) = some (content, behind)) :
    ∃ after, skipBlanks behind = 'r' :: after := by
  cases steps with
  | zero => cases taken
  | succ steps =>
      obtain ⟨read, rest, others, isComma, taken, -⟩ := stringBody_cons (by decide) taken
      cases isComma
      cases steps with
      | zero => cases taken
      | succ steps =>
          cases taken
          exact ⟨_, rfl⟩

/-- A UID without escapes is read in the report as it was delivered. -/
theorem echoesUid_of_needsNoEscape {uid : Bytes} (result : Bool) (plain : NeedsNoEscape uid) :
    EchoesUid (reqNotifyResult apiIdNotifyProgramUidResult uid result) uid := by
  obtain ⟨content, rfl, unescaped⟩ := plain
  obtain ⟨depth, steps, parses⟩ := parseText_report (content ++ quote :: notifyTail result)
  have decoded : Utf8Text.decode (reqNotifyResult apiIdNotifyProgramUidResult
      (Utf8Text.encode content) result) =
        some (notifyHead ++ quote :: (content ++ quote :: notifyTail result)) := by
    rw [Utf8Text.decode_eq_some_iff, reqNotifyResult_eq]
    simp only [Utf8Text.encode_append, Utf8Text.encode_cons]
    rfl
  have scanned : stringBody ((content ++ quote :: notifyTail result).length + 1)
      (content ++ quote :: notifyTail result) = some (content, notifyTail result) :=
    stringBody_of_isUnescaped _ unescaped (by simp)
  have isUid : member (value (depth + 1)) (quote :: ("UID".toList ++ quote :: ':' :: quote ::
      (content ++ quote :: notifyTail result))) =
        some (("UID".toList, .string content), ',' :: (notifyTail result).tail) := by
    rw [member_uid, scanned]
    rfl
  have noBlank : skipBlanks (notifyTail result).tail = (notifyTail result).tail := rfl
  rw [separated_of_comma isUid, noBlank, separated_result] at parses
  refine ⟨[("apiId".toList, .number ['2', '0']), ("UID".toList, .string content),
    ("result".toList, .number [if result then '1' else '0'])], content, ?_, rfl, rfl⟩
  rw [parse, decoded]
  exact parses

/-- Where the report has the UID as its only UID, the string in the report is
the UID and no character in it is special. -/
theorem needsNoEscape_of_echoesUid {uid : Bytes} {result : Bool}
    (echoes : EchoesUid (reqNotifyResult apiIdNotifyProgramUidResult uid result) uid) :
    NeedsNoEscape uid := by
  obtain ⟨members, content, parsed, isUid, encoded⟩ := echoes
  obtain ⟨text, decoded, parsed⟩ := Option.bind_eq_some_iff.mp parsed
  obtain ⟨same, sameEncoded, rfl⟩ := decode_reqNotifyResult decoded
  obtain rfl : content = same := Utf8Text.encode_injective (encoded.trans sameEncoded.symm)
  obtain ⟨depth, steps, parses⟩ := parseText_report (content ++ quote :: notifyTail result)
  rw [parses] at parsed
  obtain ⟨⟨others, rest⟩, separates, ends⟩ := Option.bind_eq_some_iff.mp parsed
  obtain ⟨first, behind, char, after, more, isFirst, next, rfl, goesOn⟩ :=
    separated_eq_some separates
  rw [member_uid] at isFirst
  obtain ⟨⟨read, behind⟩, scanned, same⟩ := Option.map_eq_some_iff.mp isFirst
  cases same
  have isContent : read = content := by
    dsimp only at ends
    split_ifs at ends
    cases ends
    rw [List.filter_cons_of_neg (by decide), List.filter_cons_of_pos (by simp)] at isUid
    have same := (List.cons.inj isUid).1
    cases same
    rfl
  rw [isContent] at scanned
  rcases stringBody_pasted scanned with shorter | ⟨-, plain, -⟩ | ⟨fewer, taken, swallowed⟩
  · exact absurd shorter (lt_irrefl _)
  · exact ⟨content, encoded, plain⟩
  · obtain ⟨last, isName⟩ := behind_of_taken swallowed
    rw [isName] at next
    obtain ⟨rfl, rfl⟩ := List.cons.inj next
    rcases goesOn with ⟨isComma, -⟩ | ⟨-, isClosing, -⟩
    · exact absurd isComma (by decide)
    · exact absurd isClosing (by decide)

/-- Whenever a UID has been accepted from an answer and the device still has it,
the server reads it in the report if and only if it needs no escape. -/
theorem sendMsgHandle_echoesUid_iff (nullText : Bytes) (json : CJson) (answers : Option Nat)
    (device later : Device) (io : SocketIO) {uid : Bytes}
    (accepted : (Device.readResponse nullText json).bind Response.deliveredUid = some uid)
    (kept : later.uid = (device.parseRecvMsgInfo nullText (some json) answers).uid) :
    EchoesUid (later.sendMsgHandle .notify io).outBuffer uid ↔ NeedsNoEscape uid := by
  have isUid : later.uid = uid := by
    rw [kept, NetworkMemory.parseRecvMsgInfo_uid, Option.bind_some, accepted]
    rfl
  have report : (later.sendMsgHandle .notify io).outBuffer =
      reqNotifyResult apiIdNotifyProgramUidResult uid later.eventFlags.uidProgramSuccessFlag := by
    simp only [Device.sendMsgHandle, Device.requestText, isUid]
    split
    · rfl
    · rfl
  rw [report]
  exact ⟨needsNoEscape_of_echoesUid, echoesUid_of_needsNoEscape _⟩

/-- The device after it has connected and received the given UID. -/
def uidDevice (uid : Bytes) : Device :=
  connectedDevice.parseRecvMsgInfo [] (some (answerJson apiIdGetUid respCodeSuccess (some uid)))
    none

theorem sendMsgHandle_echoesUid_iff_digits :
    EchoesUid ((uidDevice (ascii "0123")).sendMsgHandle .notify .quiet).outBuffer
        (ascii "0123") ↔
      NeedsNoEscape (ascii "0123") :=
  sendMsgHandle_echoesUid_iff [] (answerJson apiIdGetUid respCodeSuccess (some (ascii "0123"))) none
    connectedDevice (uidDevice (ascii "0123")) .quiet (by decide +kernel) rfl

/-- A quote in the UID ends the string in the report. -/
theorem uid_with_quote_not_echoed :
    (Device.readResponse [] (answerJson apiIdGetUid respCodeSuccess (some [97, 34, 98]))).bind
        Response.deliveredUid = some [97, 34, 98] ∧
      ¬ EchoesUid ((uidDevice [97, 34, 98]).sendMsgHandle .notify .quiet).outBuffer
        [97, 34, 98] := by
  refine ⟨by decide +kernel, fun echoes => ?_⟩
  have report : ((uidDevice [97, 34, 98]).sendMsgHandle .notify .quiet).outBuffer =
      reqNotifyResult apiIdNotifyProgramUidResult [97, 34, 98] false := by decide +kernel
  rw [report] at echoes
  obtain ⟨content, encoded, plain⟩ := needsNoEscape_of_echoesUid echoes
  obtain rfl : content = ['a', quote, 'b'] := Utf8Text.encode_injective encoded
  exact absurd (plain quote (by simp)) (by decide)

end OnlineProgram
