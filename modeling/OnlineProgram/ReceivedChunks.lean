import OnlineProgram.StageEffects
import OnlineProgram.StreamCuttings

/-!
# Responses in chunks

TCP hands the responses of the server over in chunks.  `msgRecvHandle` clears
its buffer before every receive and parses each chunk by itself, so a response
that is cut is lost, and so is one behind another in the same chunk.  What the
device knows afterwards depends on the cutting only through the responses that
stand at the heads of the chunks.
-/

namespace OnlineProgram

open ByteStrings StreamCuttings

/-- `SOCKET_IN_BUFFER_SIZE` -/
def socketInBufferSize : Nat := 512

/-- The C string in `inBuffer` when a chunk has been received into it. -/
def inBufferText (chunk : Bytes) : Bytes :=
  chunk.takeWhile (· ≠ 0)

/-- The chunk has been received. -/
def SocketIO.receiving (nullText chunk : Bytes) : SocketIO :=
  { SocketIO.arriving with lwipRecv := chunk.length, nullText := nullText }

/-- `msgRecvHandle`, where `tcpSock.receive` returns the chunk. -/
def receiveChunk (nullText : Bytes) (cjsonParse : Bytes → Option CJson)
    (device : Device) (chunk : Bytes) : Device :=
  device.msgRecvHandle (.receiving nullText chunk) (cjsonParse (inBufferText chunk))
    none

def receiveChunks (nullText : Bytes) (cjsonParse : Bytes → Option CJson)
    (chunks : List Bytes) (device : Device) : Device :=
  chunks.foldl (receiveChunk nullText cjsonParse) device

/-- The response that `parseRecvMsgInfo` finds in a chunk. -/
def responseAtHead (nullText : Bytes) (cjsonParse : Bytes → Option CJson)
    (chunk : Bytes) : Option Response :=
  (cjsonParse (inBufferText chunk)).bind (Device.readResponse nullText)

/-- What the device keeps of the responses of the server. -/
structure ServerFields where
  msgHandle : MsgHandle
  authorizePassFlag : Bool
  uidAvailableFlag : Bool
  uid : Bytes
  notifyDoneFlag : Bool
deriving DecidableEq

def Device.serverFields (device : Device) : ServerFields :=
  { msgHandle := device.msgHandle
    authorizePassFlag := device.networkEvent.authorizePassFlag
    uidAvailableFlag := device.eventFlags.uidAvailableFlag
    uid := device.uid
    notifyDoneFlag := device.eventFlags.notifyDoneFlag }

/-- The effect of one response. -/
def ServerFields.receive (fields : ServerFields) (response : Response) :
    ServerFields :=
  { msgHandle := fields.msgHandle.receive response
    authorizePassFlag := fields.authorizePassFlag || response.Succeeds .auth
    uidAvailableFlag := fields.uidAvailableFlag || response.deliveredUid.isSome
    uid := response.deliveredUid.getD fields.uid
    notifyDoneFlag := fields.notifyDoneFlag || response.Succeeds .notify }

/-- The socket returns what has arrived. -/
def TCPSocketConnection.Receives (sock : TCPSocketConnection) : Prop :=
  0 ≤ sock.sockFd ∧ sock.isConnected = true

theorem TCPSocketConnection.Receives.receive {sock : TCPSocketConnection}
    (receives : sock.Receives) (nullText : Bytes) {chunk : Bytes}
    (nonempty : chunk ≠ []) :
    sock.receive (.receiving nullText chunk) = ((chunk.length : Int), sock) := by
  obtain ⟨opened, connected⟩ := receives
  have refused : ¬ (sock.sockFd < 0 ∨ sock.isConnected = false) := by
    simp [connected]
    omega
  have readable : ¬ ( SocketIO.receiving nullText chunk).waitReadable ≠ 0 := not_not.mpr rfl
  have stays : ((chunk.length : Int) != 0) = sock.isConnected := by
    simp [nonempty, connected]
  unfold TCPSocketConnection.receive
  rw [if_neg refused, if_neg readable]
  exact congrArg (fun connected => ((chunk.length : Int),
    { sock with isConnected := connected })) stays

/-- One receive, by the response that the chunk holds. -/
theorem receiveChunk_eq (nullText : Bytes)
    (cjsonParse : Bytes → Option CJson) {device : Device}
    (receives : device.tcpSock.Receives) {chunk : Bytes} (nonempty : chunk ≠ []) :
    receiveChunk nullText cjsonParse device chunk =
      ((responseAtHead nullText cjsonParse chunk).map
        (device.handleResponse · none)).getD device := by
  have length : 0 < (chunk.length : Int) := by
    have positive := List.length_pos_of_ne_nil nonempty
    omega
  have sameSock : { device with tcpSock := device.tcpSock } = device := rfl
  unfold receiveChunk
  cases head : responseAtHead nullText cjsonParse chunk with
  | none =>
      have nothing : device.receivedResponse
          (.receiving nullText chunk) (cjsonParse (inBufferText chunk)) = none := by
        unfold Device.receivedResponse
        rw [receives.receive nullText nonempty, if_pos length]
        exact head
      rw [Device.msgRecvHandle_of_none none nothing, receives.receive nullText nonempty]
      rfl
  | some response =>
      have message : device.receivedResponse
          (.receiving nullText chunk) (cjsonParse (inBufferText chunk)) = some response := by
        unfold Device.receivedResponse
        rw [receives.receive nullText nonempty, if_pos length]
        exact head
      rw [Device.msgRecvHandle_of_some none message, receives.receive nullText nonempty]
      rfl

theorem serverFields_handleResponse (response : Response) (answers : Option Nat)
    (device : Device) :
    (device.handleResponse response answers).serverFields =
      device.serverFields.receive response := by
  rw [Device.handleResponse_eq]
  rfl

/-- What the device keeps after a run, by the responses at the heads. -/
theorem serverFields_receiveChunks (nullText : Bytes)
    (cjsonParse : Bytes → Option CJson)
    {chunks : List Bytes} {device : Device} (receives : device.tcpSock.Receives)
    (nonempty : ∀ chunk ∈ chunks, chunk ≠ []) :
    (receiveChunks nullText cjsonParse chunks device).serverFields =
      (chunks.filterMap (responseAtHead nullText cjsonParse)).foldl ServerFields.receive
        device.serverFields := by
  apply foldl_heads (fun device : Device => device.tcpSock.Receives) _ _ receives
  · intro device chunk member receives
    rw [receiveChunk_eq nullText cjsonParse receives (nonempty chunk member)]
    cases responseAtHead nullText cjsonParse chunk with
    | none => exact receives
    | some response =>
        simp only [Option.map_some, Option.getD_some, Device.handleResponse_eq]
        exact receives
  · intro device chunk member receives
    rw [receiveChunk_eq nullText cjsonParse receives (nonempty chunk member)]
    cases responseAtHead nullText cjsonParse chunk with
    | none => rfl
    | some response => exact serverFields_handleResponse response none device

/-- A text in which `cJSON_Parse` reads the given response, whatever follows
it, and of which it reads no part. -/
structure CarriesResponse (nullText : Bytes) (cjsonParse : Bytes → Option CJson)
    (text : Bytes) (response : Response) : Prop where
  nonzero : (0 : UInt8) ∉ text
  read : ∃ json, ReadsFirst cjsonParse text json ∧
    Device.readResponse nullText json = some response

theorem inBufferText_append {text : Bytes} (rest : Bytes) (nonzero : (0 : UInt8) ∉ text) :
    inBufferText (text ++ rest) = text ++ inBufferText rest := by
  unfold inBufferText
  apply List.takeWhile_append_of_pos
  intro byte member
  simp only [ne_eq, decide_eq_true_eq]
  rintro rfl
  exact nonzero member

theorem CarriesResponse.readsFirst {nullText : Bytes}
    {cjsonParse : Bytes → Option CJson} {text : Bytes} {response : Response}
    (carries : CarriesResponse nullText cjsonParse text response) :
    ReadsFirst (responseAtHead nullText cjsonParse) text response := by
  obtain ⟨json, reads, members⟩ := carries.read
  constructor
  · intro rest
    unfold responseAtHead
    rw [inBufferText_append rest carries.nonzero, reads.whole]
    exact members
  · intro part isPart shorter
    have partNonzero : (0 : UInt8) ∉ part := fun member =>
      carries.nonzero (isPart.subset member)
    have partText : inBufferText part = part := by
      simpa [inBufferText] using inBufferText_append [] partNonzero
    unfold responseAtHead
    rw [partText, reads.incomplete part isPart shorter]
    rfl

/-- Two cuttings of the stream of the responses with the same responses at the
heads of their chunks leave the device with the same fields.  A cutting between
responses leaves it with those that the first responses of the chunks make, so
that one response for each chunk is the cutting that loses nothing. -/
theorem receiveChunks_sameHeads (nullText : Bytes)
    (cjsonParse : Bytes → Option CJson) {device : Device}
    (receives : device.tcpSock.Receives) {messages : List (Bytes × Response)}
    (carried : ∀ message ∈ messages,
      CarriesResponse nullText cjsonParse message.1 message.2) :
    (∀ first second,
      IsCutting socketInBufferSize (messages.map Prod.fst).flatten first →
      IsCutting socketInBufferSize (messages.map Prod.fst).flatten second →
      first.filterMap (responseAtHead nullText cjsonParse) =
        second.filterMap (responseAtHead nullText cjsonParse) →
      (receiveChunks nullText cjsonParse first device).serverFields =
        (receiveChunks nullText cjsonParse second device).serverFields) ∧
    ∀ groups : List ((Bytes × Response) × List (Bytes × Response)),
      groups.flatMap (fun group => group.1 :: group.2) = messages →
      IsCutting socketInBufferSize (messages.map Prod.fst).flatten
        (groups.map fun group => group.1.1 ++ (group.2.map Prod.fst).flatten) →
      (receiveChunks nullText cjsonParse
          (groups.map fun group => group.1.1 ++ (group.2.map Prod.fst).flatten)
          device).serverFields =
        (groups.map fun group => group.1.2).foldl ServerFields.receive
          device.serverFields := by
  constructor
  · intro first second firstCuts secondCuts sameHeads
    rw [serverFields_receiveChunks nullText cjsonParse receives firstCuts.nonempty,
      serverFields_receiveChunks nullText cjsonParse receives secondCuts.nonempty, sameHeads]
  · rintro groups rfl cuts
    have heads := filterMap_groups groups fun group member => (carried group.1
      (List.mem_flatMap.mpr ⟨group, member, by simp⟩)).readsFirst
    rw [serverFields_receiveChunks nullText cjsonParse receives cuts.nonempty, heads]

/-- The success answers to a heartbeat and to `AUTH`. -/
def answers : List (Bytes × Response) :=
  [(ascii "\x7b\"apiId\":2,\"respCode\":100\x7d",
      { apiId := apiIdHeartbeat, respCode := respCodeSuccess, uid := none }),
    (ascii "\x7b\"apiId\":1,\"respCode\":100\x7d",
      { apiId := apiIdAuth, respCode := respCodeSuccess, uid := none })]

/-- `cJSON_Parse` on the two answers. -/
def parseAnswers : Bytes → Option CJson :=
  readKnown (answers.map fun answer =>
    (answer.1, answerJson answer.2.apiId answer.2.respCode answer.2.uid))

theorem carriesResponse_answers :
    ∀ answer ∈ answers, CarriesResponse [] parseAnswers answer.1 answer.2 := by
  intro answer member
  have nonzero : ∀ answer ∈ answers, (0 : UInt8) ∉ answer.1 := by decide +kernel
  have members : ∀ answer ∈ answers, Device.readResponse []
      (answerJson answer.2.apiId answer.2.respCode answer.2.uid) = some answer.2 := by
    decide +kernel
  have widths : ∀ answer ∈ answers, answer.1.length = 26 := by decide +kernel
  have distinct : ∀ answer ∈ answers, ∀ other ∈ answers, answer.1 = other.1 →
      answer = other := by decide +kernel
  have known : (answer.1, answerJson answer.2.apiId answer.2.respCode answer.2.uid) ∈
      answers.map fun answer =>
        (answer.1, answerJson answer.2.apiId answer.2.respCode answer.2.uid) :=
    List.mem_map.mpr ⟨answer, member, rfl⟩
  have knownWidths : ∀ entry ∈ answers.map (fun answer =>
      (answer.1, answerJson answer.2.apiId answer.2.respCode answer.2.uid)),
      entry.1.length = 26 := by
    intro entry entryMember
    obtain ⟨origin, originMember, rfl⟩ := List.mem_map.mp entryMember
    exact widths origin originMember
  refine ⟨nonzero answer member, _, readKnown_readsFirst knownWidths ?_ known,
    members answer member⟩
  intro entry entryMember other otherMember same
  obtain ⟨first, firstMember, rfl⟩ := List.mem_map.mp entryMember
  obtain ⟨second, secondMember, rfl⟩ := List.mem_map.mp otherMember
  rw [distinct first firstMember second secondMember same]

/-- The device after the turn in which it connects. -/
def connectedDevice : Device :=
  runFrom [] [] quietTurn

theorem connectedDevice_receives : connectedDevice.tcpSock.Receives :=
  ⟨by decide +kernel, by decide +kernel⟩

theorem receiveChunks_sameHeads_split :
    let joined := (answers.map Prod.fst).flatten
    (receiveChunks [] parseAnswers [joined] connectedDevice).serverFields =
        (receiveChunks [] parseAnswers [joined.take 30, joined.drop 30]
          connectedDevice).serverFields ∧
      (receiveChunks [] parseAnswers (answers.map Prod.fst) connectedDevice).serverFields =
        (answers.map Prod.snd).foldl ServerFields.receive connectedDevice.serverFields := by
  have heads := receiveChunks_sameHeads [] parseAnswers connectedDevice_receives
    carriesResponse_answers
  refine ⟨heads.1 _ _ ⟨by decide +kernel, by decide +kernel, by decide +kernel⟩
    ⟨by decide +kernel, by decide +kernel, by decide +kernel⟩ (by decide +kernel), ?_⟩
  exact heads.2 (answers.map fun answer => (answer, [])) (by decide +kernel)
    ⟨by decide +kernel, by decide +kernel, by decide +kernel⟩

/-- Received in one chunk, the answer to `AUTH` behind another answer is
lost. -/
theorem receiveChunks_coalesced :
    let joined := (answers.map Prod.fst).flatten
    connectedDevice.tcpSock.Receives ∧
      (∀ answer ∈ answers, CarriesResponse [] parseAnswers answer.1 answer.2) ∧
      IsCutting socketInBufferSize joined [joined] ∧
      IsCutting socketInBufferSize joined (answers.map Prod.fst) ∧
      (receiveChunks [] parseAnswers [joined] connectedDevice).serverFields ≠
        (receiveChunks [] parseAnswers (answers.map Prod.fst) connectedDevice).serverFields :=
  ⟨connectedDevice_receives, carriesResponse_answers,
    ⟨by decide +kernel, by decide +kernel, by decide +kernel⟩,
    ⟨by decide +kernel, by decide +kernel, by decide +kernel⟩, by decide +kernel⟩

end OnlineProgram
