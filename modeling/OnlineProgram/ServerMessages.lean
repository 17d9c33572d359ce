import OnlineProgram.CJsonConformance
import OnlineProgram.ReceivedChunks

/-!
# Messages of the server

The way of a response from the text on the wire to the fields of the device,
with the parser that the program has.  A message may be written in any way that
JSON allows, with blanks, escapes, further members and any order, and it does
what its members say.
-/

namespace OnlineProgram

open ByteStrings CMemory CJsonParser StreamCuttings

/-- `cJSON_Parse` on a text in a buffer, with the zero behind it and whatever
else the buffer holds. -/
def cjsonRead (D : Type) [DoubleArithmetic D] (behind text : Bytes) : Option CJson :=
  match cJsonParse D (text ++ 0 :: behind) with
  | .ok (some item) => some item.toCJson
  | _ => none

/-- A JSON object that carries a response.  A member is found by its name, where
case does not matter. -/
structure ServerMessage (text : Bytes) (response : Response) where
  members : List (List Char × JsonText.Json)
  nonzero : (0 : UInt8) ∉ text
  parses : JsonText.parse text = some (.object members)
  ordinary : JsonText.Ordinary (.object members)
  respCode : (JsonText.Json.object members).toValue.member (ascii "respCode") =
    some (.number response.respCode)
  respCodeInt : -2 ^ 31 ≤ response.respCode ∧ response.respCode < 2 ^ 31
  apiId : (JsonText.Json.object members).toValue.member (ascii "apiId") =
    some (.number response.apiId)
  apiIdInt : -2 ^ 31 ≤ response.apiId ∧ response.apiId < 2 ^ 31
  uid : (JsonText.Json.object members).toValue.member (ascii "UID") =
    response.uid.map JsonValue.string

theorem member_number {item : CJson} {value : JsonValue} (represents : Represents item value)
    {name : Bytes} {number : Int} (member : value.member name = some (.number number))
    (range : -2 ^ 31 ≤ number ∧ number < 2 ^ 31) :
    ∃ child, cjsonGetObjectItem item name = some child ∧ child.valueint = number := by
  have related := represents.member name
  rw [member] at related
  generalize cjsonGetObjectItem item name = found at related
  cases related with
  | some isNumber =>
      cases isNumber with
      | number _ _ rounds => exact ⟨_, rfl, rounds number rfl range.1 range.2⟩

theorem member_string {item : CJson} {value : JsonValue} (represents : Represents item value)
    {name : Bytes} {text : Option Bytes} (member : value.member name = text.map JsonValue.string)
    (nullText : Bytes) :
    (cjsonGetObjectItem item name).map (fun child => formatS nullText child.valuestring) =
      text := by
  have related := represents.member name
  rw [member] at related
  generalize cjsonGetObjectItem item name = found at related
  cases text with
  | none =>
      cases related
      rfl
  | some text =>
      cases related with
      | some isString =>
          cases isString with
          | string same _ _ =>
              rw [Option.map_some, same]
              rfl

theorem ServerMessage.text_ne_nil {text : Bytes} {response : Response}
    (message : ServerMessage text response) : text ≠ [] := by
  rintro rfl
  have parses := message.parses
  rw [JsonText.parse, show Utf8Text.decode [] = some [] from Utf8Text.decode_encode []] at parses
  cases parses

/-- The response is what the tree says. -/
theorem ServerMessage.readResponse {text : Bytes} {response : Response}
    (message : ServerMessage text response) {item : CJson}
    (represents : Represents item (JsonText.Json.object message.members).toValue)
    (nullText : Bytes) : Device.readResponse nullText item = some response := by
  obtain ⟨respCode, foundCode, isCode⟩ :=
    member_number represents message.respCode message.respCodeInt
  obtain ⟨apiId, foundId, isId⟩ := member_number represents message.apiId message.apiIdInt
  have uid := member_string represents message.uid nullText
  rw [Device.readResponse, foundCode, foundId]
  dsimp only
  rw [isCode, isId, uid]

section Runs

variable {D : Type} [DoubleArithmetic D]

/-- A message is read where it stands, whatever follows in the chunk. -/
theorem cjsonRead_message (exact : ExactIntegers D) (behind : Bytes) {text : Bytes}
    {response : Response} (message : ServerMessage text response) (more : Bytes) :
    ∃ json, cjsonRead D behind (text ++ more) = some json ∧
      ∀ nullText, Device.readResponse nullText json = some response := by
  have noNumber : (∃ digits, JsonText.Json.object message.members = .number digits) →
      Delimited (more ++ 0 :: behind) := nofun
  obtain ⟨item, parses, represents⟩ :=
    cJsonParse_reads exact message.parses message.ordinary noNumber
  refine ⟨item.toCJson, ?_, message.readResponse represents⟩
  rw [cjsonRead, List.append_assoc, parses]

theorem responseAtHead_message (exact : ExactIntegers D) (nullText behind : Bytes)
    {text : Bytes} {response : Response} (message : ServerMessage text response) (more : Bytes) :
    responseAtHead nullText (cjsonRead D behind) (text ++ more) = some response := by
  obtain ⟨json, reads, isResponse⟩ :=
    cjsonRead_message exact behind message (inBufferText more)
  rw [responseAtHead, inBufferText_append more message.nonzero, reads]
  exact isResponse nullText

/-- A chunk that begins with a message, and the response in it. -/
structure MessageChunk where
  text : Bytes
  more : Bytes
  response : Response
  message : ServerMessage text response

/-- What the device keeps after a run of chunks is made of the responses at
their heads, one after the other. -/
theorem receiveChunks_messages (exact : ExactIntegers D) (nullText behind : Bytes)
    {device : Device} (receives : device.tcpSock.Receives) (chunks : List MessageChunk) :
    (receiveChunks nullText (cjsonRead D behind)
        (chunks.map fun chunk => chunk.text ++ chunk.more) device).serverFields =
      (chunks.map MessageChunk.response).foldl ServerFields.receive device.serverFields := by
  have nonempty : ∀ chunk ∈ chunks.map (fun chunk => chunk.text ++ chunk.more), chunk ≠ [] := by
    intro chunk member
    obtain ⟨origin, -, rfl⟩ := List.mem_map.mp member
    exact List.append_ne_nil_of_left_ne_nil origin.message.text_ne_nil _
  have heads : (chunks.map fun chunk => chunk.text ++ chunk.more).filterMap
      (responseAtHead nullText (cjsonRead D behind)) = chunks.map MessageChunk.response := by
    rw [List.filterMap_map, ← List.filterMap_eq_map]
    apply List.filterMap_congr
    intro chunk _
    exact responseAtHead_message exact nullText behind chunk.message chunk.more
  rw [serverFields_receiveChunks nullText _ receives nonempty, heads]

/-- An answer with blanks, an escape and a member that nobody reads. -/
def uidText : String :=
  "\x7b \"UID\" : \"A\\u0042\", \"extra\": [true, null], \"respcode\":100, \"apiId\":10 \x7d"

def uidResponse : Response :=
  { respCode := respCodeSuccess, apiId := apiIdGetUid, uid := some (ascii "AB") }

theorem numeral_success : (JsonText.numeral "100".toList).value = (respCodeSuccess : ℚ) := by
  have digits : Nat.ofDigitChars 10 "100".toList 0 = 100 := by decide +kernel
  rw [JsonText.numeral_value_of_digits (by decide) (by decide), digits]
  rfl

theorem numeral_getUid : (JsonText.numeral "10".toList).value = (apiIdGetUid : ℚ) := by
  have digits : Nat.ofDigitChars 10 "10".toList 0 = 10 := by decide +kernel
  rw [JsonText.numeral_value_of_digits (by decide) (by decide), digits]
  rfl

def uidMembers : List (List Char × JsonText.Json) :=
  [("UID".toList, .string "AB".toList), ("extra".toList, .array [.bool true, .null]),
    ("respcode".toList, .number "100".toList), ("apiId".toList, .number "10".toList)]

theorem uidText_nonzero : (0 : UInt8) ∉ ascii uidText := by
  decide +kernel

theorem uidText_parses : JsonText.parse (ascii uidText) = some (.object uidMembers) := by
  have decoded : Utf8Text.decode (ascii uidText) = some uidText.toList :=
    Utf8Text.decode_eq_some_iff.mpr (by decide +kernel)
  rw [JsonText.parse, decoded]
  rfl

theorem uidMembers_ordinary : JsonText.Ordinary (.object uidMembers) := by
  refine .object (by decide) ?_
  simp only [uidMembers, List.forall_mem_cons]
  refine ⟨.string (by decide), .array ?_, .number fun _ _ _ _ => by decide +kernel,
    .number fun _ _ _ _ => by decide +kernel, List.forall_mem_nil _⟩
  simp only [List.forall_mem_cons]
  exact ⟨.bool true, .null, List.forall_mem_nil _⟩

theorem encode_uid : Utf8Text.encode "AB".toList = ascii "AB" := by
  decide +kernel

theorem apiIds_small : (-2 ^ 31 ≤ respCodeSuccess ∧ respCodeSuccess < 2 ^ 31) ∧
    (-2 ^ 31 ≤ apiIdGetUid ∧ apiIdGetUid < 2 ^ 31) := by
  decide

def uidMessage : ServerMessage (ascii uidText) uidResponse where
  members := uidMembers
  nonzero := uidText_nonzero
  parses := uidText_parses
  ordinary := uidMembers_ordinary
  respCode := congrArg (fun value => some (JsonValue.number value)) numeral_success
  respCodeInt := apiIds_small.1
  apiId := congrArg (fun value => some (JsonValue.number value)) numeral_getUid
  apiIdInt := apiIds_small.2
  uid := congrArg (fun text => some (JsonValue.string text)) encode_uid

/-- The UID reaches the device without its escape. -/
theorem receiveChunks_messages_uid :
    (receiveChunks [] (cjsonRead ℚ []) [ascii uidText ++ ascii "\x7b"]
        connectedDevice).serverFields =
      connectedDevice.serverFields.receive uidResponse :=
  receiveChunks_messages exactIntegers_rational [] [] connectedDevice_receives
    [⟨ascii uidText, ascii "\x7b", uidResponse, uidMessage⟩]

end Runs

end OnlineProgram
