import OnlineProgram.CMemory
import OnlineProgram.ReceivedChunks

/-!
# The arrays behind the network layer

`msgRecvHandle` terminates what it has received, and `parseRecvMsgInfo` copies
the UID of an answer.  Both write into arrays of fixed size at places that the
server chooses.  This file has the two functions as accesses to these arrays: a
returned result has stayed inside them and is what `Device.msgRecvHandle` says.
-/

namespace OnlineProgram

open ByteStrings CMemory

/-- The size of the array `uid`. -/
def uidSize : Nat := 36

/-- `socketInfo.inBuffer` and `uid`. -/
structure NetworkMemory where
  inBuffer : CArray socketInBufferSize
  uid : CArray uidSize

/-- What one call of `tcpSock.receive` may bring: the bytes that it stores and
the results of its socket calls, which count them. -/
structure Arrival where
  io : SocketIO
  chunk : Bytes
  counted : 0 < io.lwipRecv → io.lwipRecv = chunk.length
  requested : chunk.length ≤ socketInBufferSize

namespace Arrival

/-- The bytes of the chunk have been received. -/
def Received (arrival : Arrival) (sock : TCPSocketConnection) : Prop :=
  0 < (sock.receive arrival.io).1

instance (arrival : Arrival) (sock : TCPSocketConnection) : Decidable (arrival.Received sock) :=
  inferInstanceAs (Decidable (_ < _))

theorem Received.length {arrival : Arrival} {sock : TCPSocketConnection}
    (received : arrival.Received sock) :
    (sock.receive arrival.io).1 = arrival.chunk.length := by
  unfold Received at received
  unfold TCPSocketConnection.receive at received ⊢
  split_ifs at received ⊢ with refused unreadable
  · simp at received
  · simp at received
  · exact arrival.counted received

end Arrival

/-- Use a pointer as a string. -/
def derefString : Option Bytes → Except Fault Bytes
  | some text => .ok text
  | none => .error .nullPointer

namespace NetworkMemory

/-- `parseRecvMsgInfo`, where `json` is the result of `cJSON_Parse`; `sprintf`
stores the UID with its terminating zero. -/
def parseRecvMsgInfo (json : Option CJson) (memory : NetworkMemory) :
    Except Fault NetworkMemory :=
  match json with
  | none => .ok memory
  | some json =>
      match cjsonGetObjectItem json (ascii "respCode"),
          cjsonGetObjectItem json (ascii "apiId") with
      | some respCode, some apiId =>
          if enumByte apiId.valueint = enumByte apiIdGetUid ∧
              enumByte respCode.valueint = enumByte respCodeSuccess then
            match cjsonGetObjectItem json (ascii "UID") with
            | some item => do
                let valuestring ← derefString item.valuestring
                let uid ← memory.uid.write 0 (valuestring ++ [0])
                .ok { memory with uid := uid }
            | none => .ok memory
          else .ok memory
      | _, _ => .ok memory

/-- `msgRecvHandle` -/
def msgRecvHandle (cjsonParse : Bytes → Option CJson) (sock : TCPSocketConnection)
    (arrival : Arrival) (memory : NetworkMemory) : Except Fault NetworkMemory := do
  let cleared ← memory.inBuffer.write 0 (List.replicate socketInBufferSize 0)
  let n := (sock.receive arrival.io).1
  if 0 < n then
    let filled ← cleared.write 0 arrival.chunk
    let terminated ← filled.write n.toNat [0]
    let text ← cString terminated.bytes
    parseRecvMsgInfo (cjsonParse text) { memory with inBuffer := terminated }
  else .ok { memory with inBuffer := cleared }

/-- The item whose string `parseRecvMsgInfo` copies: the UID of a message that
is taken for a `GET_UID` success answer. -/
def deliveredItem (json : CJson) : Option CJson :=
  match cjsonGetObjectItem json (ascii "respCode"),
      cjsonGetObjectItem json (ascii "apiId") with
  | some respCode, some apiId =>
      if enumByte apiId.valueint = enumByte apiIdGetUid ∧
          enumByte respCode.valueint = enumByte respCodeSuccess then
        cjsonGetObjectItem json (ascii "UID")
      else none
  | _, _ => none

/-- The copied item is a string of less than 36 bytes. -/
def UidFits (json : CJson) : Prop :=
  ∀ item ∈ deliveredItem json, ∃ text, item.valuestring = some text ∧ text.length < uidSize

theorem parseRecvMsgInfo_some (json : CJson) (memory : NetworkMemory) :
    parseRecvMsgInfo (some json) memory =
      (match deliveredItem json with
      | none => .ok memory
      | some item => do
          let valuestring ← derefString item.valuestring
          let uid ← memory.uid.write 0 (valuestring ++ [0])
          .ok { memory with uid := uid }) := by
  simp only [parseRecvMsgInfo, deliveredItem]
  cases cjsonGetObjectItem json (ascii "respCode") with
  | none => rfl
  | some respCode =>
      cases cjsonGetObjectItem json (ascii "apiId") with
      | none => rfl
      | some apiId =>
          by_cases succeeds : enumByte apiId.valueint = enumByte apiIdGetUid ∧
              enumByte respCode.valueint = enumByte respCodeSuccess
          · simp only [if_pos succeeds]
            cases cjsonGetObjectItem json (ascii "UID") with
            | none => rfl
            | some item => rfl
          · simp only [if_neg succeeds]

theorem parseRecvMsgInfo_returns_iff (json : Option CJson) (memory : NetworkMemory) :
    (∃ after, parseRecvMsgInfo json memory = .ok after) ↔ ∀ value ∈ json, UidFits value := by
  have stored (written : Except Fault (CArray uidSize)) :
      (∃ after, (do let uid ← written; .ok { memory with uid := uid }) =
        (.ok after : Except Fault NetworkMemory)) ↔ ∃ uid, written = .ok uid := by
    cases written with
    | error fault => simp [bind, Except.bind]
    | ok uid => simp [bind, Except.bind]
  cases json with
  | none => simp [parseRecvMsgInfo]
  | some json =>
      rw [parseRecvMsgInfo_some]
      simp only [UidFits, Option.mem_def, Option.some.injEq, forall_eq']
      cases deliveredItem json with
      | none => simp
      | some item =>
          cases valuestring : item.valuestring with
          | none => simp [derefString, valuestring, bind, Except.bind]
          | some text =>
              have room : (∃ after, memory.uid.write 0 (text ++ [0]) = .ok after) ↔
                  text.length < uidSize := by
                rw [CArray.write_isOk_iff, List.length_append, Nat.zero_add]
                rfl
              simp only [Option.some.injEq, forall_eq', valuestring, exists_eq_left', ← room]
              exact stored _

section Receive

variable (cjsonParse : Bytes → Option CJson) {sock : TCPSocketConnection} {arrival : Arrival}
  (memory : NetworkMemory)

/-- The two writes before the terminator are inside the buffer. -/
theorem inBuffer_filled (arrival : Arrival) :
    ∃ cleared filled,
      memory.inBuffer.write 0 (List.replicate socketInBufferSize 0) = .ok cleared ∧
        cleared.write 0 arrival.chunk = .ok filled := by
  obtain ⟨cleared, clears⟩ : ∃ cleared,
      memory.inBuffer.write 0 (List.replicate socketInBufferSize 0) = .ok cleared :=
    CArray.write_isOk_iff.mpr (by simp)
  obtain ⟨filled, fills⟩ : ∃ filled, cleared.write 0 arrival.chunk = .ok filled :=
    CArray.write_isOk_iff.mpr (by simpa using arrival.requested)
  exact ⟨cleared, filled, clears, fills⟩

theorem msgRecvHandle_of_nothing (nothing : ¬ arrival.Received sock) :
    ∃ cleared, msgRecvHandle cjsonParse sock arrival memory =
      .ok { memory with inBuffer := cleared } := by
  obtain ⟨cleared, -, clears, -⟩ := memory.inBuffer_filled arrival
  refine ⟨cleared, ?_⟩
  unfold msgRecvHandle
  rw [clears]
  exact if_neg nothing

/-- A full buffer has no room for the terminator. -/
theorem msgRecvHandle_of_full (received : arrival.Received sock)
    (full : ¬ arrival.chunk.length < socketInBufferSize) :
    msgRecvHandle cjsonParse sock arrival memory = .error .bufferOverflow := by
  have arrived : 0 < (sock.receive arrival.io).1 := received
  obtain ⟨cleared, filled, clears, fills⟩ := memory.inBuffer_filled arrival
  have overflows : filled.write (sock.receive arrival.io).1.toNat [0] =
      .error .bufferOverflow := by
    apply CArray.write_of_overflow
    rw [received.length, Int.toNat_natCast]
    exact full
  unfold msgRecvHandle
  simp only [clears, bind, Except.bind]
  rw [if_pos arrived]
  simp only [fills, overflows]

/-- What has been received and terminated is parsed as a C string. -/
theorem msgRecvHandle_of_room (received : arrival.Received sock)
    (room : arrival.chunk.length < socketInBufferSize) :
    ∃ terminated, msgRecvHandle cjsonParse sock arrival memory =
      parseRecvMsgInfo (cjsonParse (inBufferText arrival.chunk))
        { memory with inBuffer := terminated } := by
  have arrived : 0 < (sock.receive arrival.io).1 := received
  obtain ⟨cleared, filled, clears, fills⟩ := memory.inBuffer_filled arrival
  obtain ⟨terminated, terminates⟩ : ∃ terminated,
      filled.write (sock.receive arrival.io).1.toNat [0] = .ok terminated := by
    rw [CArray.write_isOk_iff, received.length, Int.toNat_natCast]
    exact room
  have text : cString terminated.bytes = .ok (inBufferText arrival.chunk) := by
    obtain ⟨fits, filledEq⟩ := CArray.write_contents fills
    obtain ⟨-, terminatedEq⟩ := CArray.write_contents terminates
    have inside : 0 + arrival.chunk.length ≤ cleared.bytes.length := cleared.length_eq.symm ▸ fits
    have sideBySide : splice (splice cleared.bytes 0 arrival.chunk) (0 + arrival.chunk.length) [0] =
        splice cleared.bytes 0 (arrival.chunk ++ [0]) := splice_splice inside
    rw [received.length, Int.toNat_natCast] at terminatedEq
    rw [Nat.zero_add] at sideBySide
    rw [terminatedEq, filledEq, sideBySide]
    simp [splice, inBufferText, cString_zero]
  refine ⟨terminated, ?_⟩
  unfold msgRecvHandle
  simp only [clears, bind, Except.bind]
  rw [if_pos arrived]
  simp only [fills, terminates, text]

end Receive

/-- A call stays inside the two arrays, and uses no missing string, if and only
if what it receives leaves room for the terminator and has a UID that fits. -/
theorem msgRecvHandle_returns_iff (cjsonParse : Bytes → Option CJson)
    (sock : TCPSocketConnection) (arrival : Arrival) (memory : NetworkMemory) :
    (∃ after, msgRecvHandle cjsonParse sock arrival memory = .ok after) ↔
      (arrival.Received sock → arrival.chunk.length < socketInBufferSize ∧
        ∀ json ∈ cjsonParse (inBufferText arrival.chunk), UidFits json) := by
  by_cases received : arrival.Received sock
  · by_cases room : arrival.chunk.length < socketInBufferSize
    · obtain ⟨terminated, parses⟩ := msgRecvHandle_of_room cjsonParse memory received room
      rw [parses, parseRecvMsgInfo_returns_iff]
      exact ⟨fun fits _ => ⟨room, fits⟩, fun safe => (safe received).2⟩
    · rw [msgRecvHandle_of_full cjsonParse memory received room]
      exact iff_of_false (by simp) fun safe => room (safe received).1
  · obtain ⟨cleared, returned⟩ := msgRecvHandle_of_nothing cjsonParse memory received
    exact iff_of_true ⟨_, returned⟩ fun isReceived => absurd isReceived received

/-! ### The device behind the arrays -/

/-- `uid` has the string that the device knows. -/
def HoldsUid (memory : NetworkMemory) (device : Device) : Prop :=
  cString memory.uid.bytes = .ok device.uid

theorem deliveredUid_eq (nullText : Bytes) (json : CJson) :
    (Device.readResponse nullText json).bind Response.deliveredUid =
      (deliveredItem json).map fun item => formatS nullText item.valuestring := by
  unfold Device.readResponse deliveredItem
  cases cjsonGetObjectItem json (ascii "respCode") with
  | none => rfl
  | some respCode =>
      cases cjsonGetObjectItem json (ascii "apiId") with
      | none => rfl
      | some apiId =>
          simp only [Option.bind_some, Response.deliveredUid, Response.Succeeds,
            Response.msgId_eq_getUid_iff]
          split
          · rfl
          · rfl

theorem parseRecvMsgInfo_uid (nullText : Bytes) (json : Option CJson) (answers : Option Nat)
    (device : Device) :
    (device.parseRecvMsgInfo nullText json answers).uid =
      ((json.bind (Device.readResponse nullText)).bind Response.deliveredUid).getD device.uid := by
  unfold Device.parseRecvMsgInfo
  cases json.bind (Device.readResponse nullText) with
  | none => rfl
  | some response =>
      simp only [Device.handleResponse_eq]
      rfl

variable {memory after : NetworkMemory} {device : Device}

/-- The copy of the UID is the UID that the device then has. -/
theorem HoldsUid.parseRecvMsgInfo {json : Option CJson} (holds : memory.HoldsUid device)
    (strings : ∀ value ∈ json, ∀ item ∈ deliveredItem value,
      ∀ text ∈ item.valuestring, (0 : UInt8) ∉ text)
    (returned : NetworkMemory.parseRecvMsgInfo json memory = .ok after)
    (nullText : Bytes) (answers : Option Nat) :
    after.HoldsUid (device.parseRecvMsgInfo nullText json answers) := by
  unfold HoldsUid
  rw [parseRecvMsgInfo_uid]
  cases json with
  | none =>
      cases returned
      exact holds
  | some json =>
      rw [Option.bind_some, deliveredUid_eq]
      rw [parseRecvMsgInfo_some] at returned
      cases delivered : deliveredItem json with
      | none =>
          rw [delivered] at returned
          cases returned
          exact holds
      | some item =>
          rw [delivered] at returned
          cases valuestring : item.valuestring with
          | none => simp [valuestring, derefString, bind, Except.bind] at returned
          | some text =>
              cases written : memory.uid.write 0 (text ++ [0]) with
              | error fault =>
                  simp [valuestring, derefString, bind, Except.bind, written] at returned
              | ok uid =>
                  have nonzero := strings json rfl item delivered text valuestring
                  obtain ⟨-, contents⟩ := CArray.write_contents written
                  have copied : cString uid.bytes = .ok text := by
                    rw [contents]
                    simp [splice, cString_append, nonzero]
                  simp only [valuestring, derefString, bind, Except.bind, written] at returned
                  cases returned
                  simpa [valuestring, formatS] using copied

theorem HoldsUid.msgRecvHandle {cjsonParse : Bytes → Option CJson} {arrival : Arrival}
    (holds : memory.HoldsUid device)
    (strings : ∀ json ∈ cjsonParse (inBufferText arrival.chunk),
      ∀ item ∈ deliveredItem json, ∀ text ∈ item.valuestring, (0 : UInt8) ∉ text)
    (returned :
      NetworkMemory.msgRecvHandle cjsonParse device.tcpSock arrival memory = .ok after)
    (answers : Option Nat) :
    after.HoldsUid (device.msgRecvHandle arrival.io (cjsonParse (inBufferText arrival.chunk))
      answers) := by
  unfold Device.msgRecvHandle
  by_cases received : arrival.Received device.tcpSock
  · have arrived : 0 < (device.tcpSock.receive arrival.io).1 := received
    rw [if_pos arrived]
    by_cases room : arrival.chunk.length < socketInBufferSize
    · obtain ⟨terminated, parses⟩ := msgRecvHandle_of_room cjsonParse memory received room
      rw [parses] at returned
      have sameUid : HoldsUid { memory with inBuffer := terminated }
          { device with tcpSock := (device.tcpSock.receive arrival.io).2 } := holds
      exact sameUid.parseRecvMsgInfo strings returned _ answers
    · rw [msgRecvHandle_of_full cjsonParse memory received room] at returned
      cases returned
  · obtain ⟨cleared, nothing⟩ := msgRecvHandle_of_nothing cjsonParse memory received
    rw [nothing] at returned
    cases returned
    have notArrived : ¬ 0 < (device.tcpSock.receive arrival.io).1 := received
    rw [if_neg notArrived]
    exact holds

end NetworkMemory

/-- A chunk that fills the buffer. -/
def fullArrival : Arrival where
  io := { SocketIO.arriving with lwipRecv := 512 }
  chunk := List.replicate 512 32
  counted := fun _ => congrArg Int.ofNat List.length_replicate.symm
  requested := List.length_replicate.le

/-- A success answer to `GET_UID` with the given item for the UID. -/
def uidAnswer (valueint : Int) (valuestring : Option Bytes) : CJson :=
  let answer := answerJson apiIdGetUid respCodeSuccess none
  let item : CJson :=
    { string := some (ascii "UID"), valueint := valueint, valuestring := valuestring, child := [] }
  { answer with child := answer.child ++ [item] }

theorem deliveredItem_uidAnswer (valueint : Int) (valuestring : Option Bytes) :
    ∃ item ∈ NetworkMemory.deliveredItem (uidAnswer valueint valuestring),
      item.valuestring = valuestring :=
  ⟨_, rfl, rfl⟩

/-- The terminator of a full buffer, a UID of 36 bytes and a UID that is a
number each end outside the arrays or at a missing string. -/
theorem fullArrival_overflows :
    let memory : NetworkMemory := { inBuffer := .zeroed _, uid := .zeroed _ }
    (¬ ∃ after, NetworkMemory.msgRecvHandle (fun _ => none) connectedDevice.tcpSock fullArrival
        memory = .ok after) ∧
      (¬ ∃ after, NetworkMemory.parseRecvMsgInfo
        (some (uidAnswer 0 (some (List.replicate 36 48)))) memory = .ok after) ∧
      ¬ ∃ after, NetworkMemory.parseRecvMsgInfo (some (uidAnswer 5 none)) memory = .ok after := by
  refine ⟨?_, ?_, ?_⟩
  · have received : fullArrival.Received connectedDevice.tcpSock := by decide +kernel
    rw [NetworkMemory.msgRecvHandle_of_full _ _ received List.length_replicate.not_lt]
    simp
  · rw [NetworkMemory.parseRecvMsgInfo_returns_iff]
    intro fits
    obtain ⟨item, delivered, valuestring⟩ :=
      deliveredItem_uidAnswer 0 (some (List.replicate 36 48))
    obtain ⟨text, isText, short⟩ := fits _ rfl item delivered
    obtain rfl : List.replicate 36 48 = text := Option.some.inj (valuestring.symm.trans isText)
    exact absurd short (by decide)
  · rw [NetworkMemory.parseRecvMsgInfo_returns_iff]
    intro fits
    obtain ⟨item, delivered, valuestring⟩ := deliveredItem_uidAnswer 5 none
    obtain ⟨text, isText, -⟩ := fits _ rfl item delivered
    rw [valuestring] at isText
    cases isText

end OnlineProgram
