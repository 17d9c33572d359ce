import OnlineProgram.ConformingTarget

/-!
# A reference target

A small in-system programming ROM that keeps every promise of a conforming
target.  It gathers bytes into lines, reads a command line by its letter and
its decimal arguments, and answers at once.
-/

namespace OnlineProgram

open ByteStrings CMemory SerialLink UuCoding

inductive RomPhase where
  | command
  | data (start size : Nat) (received : Bytes)
  | acknowledge

structure Rom where
  phase : RomPhase
  line : Bytes
  unlocked : Bool
  prepared : Nat → Bool
  memory : ChipMemory

/-- The arguments read so far, the last of them first. -/
def argumentStep (arguments : List Nat) (byte : UInt8) : List Nat :=
  if byte = 32 then 0 :: arguments
  else if 48 ≤ byte ∧ byte ≤ 57 then
    match arguments with
    | current :: rest => (10 * current + (byte.toNat - 48)) :: rest
    | [] => []
  else arguments

def readArguments (text : Bytes) : List Nat :=
  (text.foldl argumentStep []).reverse

/-- `ISP_INVALID_COMMAND`, for everything the ROM does not carry out. -/
def failureLine : Bytes := ascii "1\r\n"

instance (memory : ChipMemory) (address size : Nat) :
    Decidable (memory.Erased address size) :=
  inferInstanceAs (Decidable (∀ offset < size, _))

/-- Every sector of a range is prepared. -/
def Rom.RangePrepared (rom : Rom) (first last : Nat) : Prop :=
  ∀ sector < sectorNum, first ≤ sector → sector ≤ last → rom.prepared sector = true

instance (rom : Rom) (first last : Nat) : Decidable (rom.RangePrepared first last) :=
  inferInstanceAs (Decidable (∀ sector < sectorNum, _))

/-- The sectors of a range get the same mark. -/
def Rom.mark (rom : Rom) (first last : Nat) (mark : Bool) : Rom :=
  { rom with
    prepared := fun sector =>
      if first ≤ sector ∧ sector ≤ last then mark else rom.prepared sector }

def Rom.command (rom : Rom) (letter : UInt8) (arguments : List Nat) : Rom × Bytes :=
  match letter.toNat, arguments with
  | 85, [code] =>
      if code = 23130 then ({ rom with unlocked := true }, successLine)
      else (rom, failureLine)
  | 80, [first, last] =>
      if first ≤ last ∧ last < sectorNum then (rom.mark first last true, successLine)
      else (rom, failureLine)
  | 69, [first, last] =>
      if rom.unlocked ∧ first ≤ last ∧ last < sectorNum ∧ rom.RangePrepared first last then
        ({ rom.mark first last false with memory := rom.memory.eraseSectors first last },
          successLine)
      else (rom, failureLine)
  | 87, [start, size] =>
      if rom.unlocked ∧ ChipMemory.InRam start size ∧ start % 4 = 0 ∧ size % 4 = 0 ∧
          0 < size then
        ({ rom with phase := .data start size [] }, successLine)
      else (rom, failureLine)
  | 67, [dst, src, size] =>
      if rom.unlocked ∧ ChipMemory.InFlash dst size ∧ ChipMemory.InRam src size ∧
          dst % 256 = 0 ∧ src % 4 = 0 ∧ size ∈ [256, 512, 1024, 4096] ∧
          rom.RangePrepared (dst / sectorSize) ((dst + size - 1) / sectorSize) ∧
          rom.memory.Erased dst size then
        ({ rom.mark (dst / sectorSize) ((dst + size - 1) / sectorSize) false with
            memory := rom.memory.copyToFlash dst src size }, successLine)
      else (rom, failureLine)
  | 82, [address, size] =>
      if rom.unlocked ∧ (ChipMemory.InFlash address size ∨ ChipMemory.InRam address size) ∧
          address % 4 = 0 ∧ size % 4 = 0 ∧ 0 < size ∧ size ≤ 20 * 45 then
        ({ rom with phase := .acknowledge },
          successLine ++
            ((encodeLines ((size - 1) / 45 + 1) (rom.memory.read address size)).flatten ++
              checksumLine (rom.memory.read address size)))
      else (rom, failureLine)
  | _, _ => (rom, failureLine)

/-- What the ROM does with a complete line. -/
def Rom.complete (echo : Bool) (rom : Rom) (line : Bytes) : Rom × Bytes :=
  match rom.phase with
  | .command =>
      let answered := rom.command (line.headD 0) (readArguments line.tail)
      (answered.1, (if echo then line else []) ++ answered.2)
  | .data start size received =>
      if received.length < size then
        ({ rom with phase := .data start size (received ++ decodeLine line) }, [])
      else if line = checksumLine received then
        ({ rom with
            phase := .command
            memory := rom.memory.writeRam start received }, okLine)
      else ({ rom with phase := .data start size [] }, ascii "RESEND\r\n")
  | .acknowledge => ({ rom with phase := .command }, [])

def romPeer (echo : Bool) : Peer Rom where
  accept byte rom :=
    if byte = 10 then
      let completed := Rom.complete echo { rom with line := [] } (rom.line ++ [10])
      (completed.1, completed.2.map fun sent => (0, sent))
    else ({ rom with line := rom.line ++ [byte] }, [])

section Lines

theorem foldl_argumentStep_digits (digits : List Nat)
    (small : ∀ digit ∈ digits, digit < 10) (value : Nat) (rest : List Nat) :
    (digits.map digitByte).foldl argumentStep (value :: rest) =
      digits.foldl (fun total digit => 10 * total + digit) value :: rest := by
  induction digits generalizing value with
  | nil => rfl
  | cons digit digits ih =>
      have digitSmall : digit < 10 := small digit (by simp)
      have byteValue := digitByte_toNat digitSmall
      have notBlank : digitByte digit ≠ 32 := by
        intro isBlank
        rw [isBlank] at byteValue
        simp at byteValue
        omega
      have isDigit : 48 ≤ digitByte digit ∧ digitByte digit ≤ 57 := by
        rw [UInt8.le_iff_toNat_le, UInt8.le_iff_toNat_le, byteValue]
        simp
        omega
      have step : argumentStep (value :: rest) (digitByte digit) =
          (10 * value + digit) :: rest := by
        unfold argumentStep
        rw [if_neg notBlank, if_pos isDigit, byteValue, Nat.add_sub_cancel_left]
      rw [List.map_cons, List.foldl_cons, List.foldl_cons, step]
      exact ih (fun other member => small other (by simp [member])) _

theorem foldl_argumentStep_decimal (number : Nat) (rest : List Nat) :
    (decimal number).foldl argumentStep (0 :: rest) = number :: rest := by
  unfold decimal
  split
  · next zero =>
      subst zero
      exact foldl_argumentStep_digits [0] (by simp) 0 rest
  · rw [foldl_argumentStep_digits, foldl_digits_reverse]
    intro digit member
    exact Nat.digits_lt_base (by decide) (List.mem_reverse.mp member)

theorem foldl_argumentStep_arguments (arguments before : List Nat) :
    (arguments.flatMap fun argument => 32 :: decimal argument).foldl argumentStep before =
      arguments.reverse ++ before := by
  induction arguments generalizing before with
  | nil => rfl
  | cons argument arguments ih =>
      have blank : argumentStep before 32 = 0 :: before := by simp [argumentStep]
      rw [List.flatMap_cons, List.foldl_append, List.foldl_cons, blank,
        foldl_argumentStep_decimal, ih]
      simp

/-- The ROM reads the arguments that a command line carries. -/
theorem readArguments_requestLine (letter : Char) (arguments : List Nat) :
    readArguments (requestLine letter arguments).tail = arguments := by
  have ending (numbers : List Nat) : [13, 10].foldl argumentStep numbers = numbers := by
    simp [argumentStep]
  unfold readArguments requestLine
  rw [List.tail_cons, List.foldl_append, foldl_argumentStep_arguments, ending]
  simp

theorem receive_line (echo : Bool) {body : Bytes} (rom : Rom) (noFeed : (10 : UInt8) ∉ body) :
    (romPeer echo).receive (body ++ [10]) rom =
      ((Rom.complete echo { rom with line := [] } (rom.line ++ (body ++ [10]))).1,
        (Rom.complete echo { rom with line := [] } (rom.line ++ (body ++ [10]))).2.map
          fun sent => (0, sent)) := by
  induction body generalizing rom with
  | nil => simp [Peer.receive, romPeer]
  | cons byte body ih =>
      obtain ⟨byteNotFeed, bodyNoFeed⟩ : ¬ 10 = byte ∧ (10 : UInt8) ∉ body := by
        simpa using noFeed
      have gathered : (romPeer echo).accept byte rom =
          ({ rom with line := rom.line ++ [byte] }, []) := by
        simp [romPeer, Ne.symm byteNotFeed]
      have rest := ih { rom with line := rom.line ++ [byte] } bodyNoFeed
      simp only [List.cons_append, Peer.receive, gathered, rest]
      simp

/-- A complete line is answered at once. -/
theorem romPeer_replies {echo : Bool} {body reply : Bytes} {rom final : Rom} {timeoutUs : Nat}
    (noFeed : (10 : UInt8) ∉ body) (blank : rom.line = [])
    (completes : rom.complete echo (body ++ [10]) = (final, reply)) (patient : 0 < timeoutUs) :
    (romPeer echo).Replies (body ++ [10]) timeoutUs reply rom final := by
  have same : { rom with line := [] } = rom := by
    rw [← blank]
  have receives := receive_line echo rom noFeed
  rw [same, blank, List.nil_append, completes] at receives
  refine ⟨_, receives, ?_, ?_⟩
  · simp
  · intro sent member
    obtain ⟨byte, -, rfl⟩ := List.mem_map.mp member
    exact patient

theorem requestLine_eq_append (letter : Char) (arguments : List Nat)
    (notFeed : letter.toNat.toUInt8 ≠ 10) :
    ∃ body, requestLine letter arguments = body ++ [10] ∧ (10 : UInt8) ∉ body := by
  refine ⟨letter.toNat.toUInt8 ::
    (arguments.flatMap (fun argument => 32 :: decimal argument) ++ [13]),
    by simp [requestLine], ?_⟩
  intro member
  simp only [List.mem_cons, List.mem_append, List.mem_flatMap, List.not_mem_nil,
    or_false] at member
  rcases member with isLetter | ⟨argument, -, isBlank | isDigit⟩ | isReturn
  · exact notFeed isLetter.symm
  · exact absurd isBlank (by decide)
  · exact absurd (decimal_isDigit isDigit).1 (by decide)
  · exact absurd isReturn (by decide)

/-- A command line is answered by the command. -/
theorem romPeer_replies_command (echo : Bool) {letter : Char} {arguments : List Nat}
    {rom final : Rom} {reply : Bytes} {timeoutUs : Nat}
    (notFeed : letter.toNat.toUInt8 ≠ 10) (blank : rom.line = [])
    (waits : rom.phase = .command) (patient : 0 < timeoutUs)
    (answers : rom.command letter.toNat.toUInt8 arguments = (final, reply)) :
    (romPeer echo).Replies (requestLine letter arguments) timeoutUs
      ((if echo then requestLine letter arguments else []) ++ reply) rom final := by
  obtain ⟨body, lineEq, noFeed⟩ := requestLine_eq_append letter arguments notFeed
  have completes : rom.complete echo (requestLine letter arguments) =
      (final, (if echo then requestLine letter arguments else []) ++ reply) := by
    have head : (requestLine letter arguments).headD 0 = letter.toNat.toUInt8 := rfl
    unfold Rom.complete
    simp only [waits, head, readArguments_requestLine, answers]
  rw [lineEq] at completes ⊢
  exact romPeer_replies noFeed blank completes patient

end Lines

section Promises

variable {echo : Bool}

theorem isLine_eq_append {bytes line : Bytes} (isLine : IsLine bytes line) :
    ∃ body, line = body ++ [10] ∧ (10 : UInt8) ∉ body := by
  obtain ⟨body, lineEq, printable⟩ := isLine.ends
  refine ⟨body ++ [13], by simp [lineEq], ?_⟩
  intro member
  rcases List.mem_append.mp member with inBody | inEnding
  · exact absurd (printable 10 inBody) (by decide)
  · exact absurd inEnding (by decide)

/-- Lines of data are gathered in silence. -/
theorem receive_data {data : Bytes} {lines : List Bytes} (isText : IsText data lines)
    (rom : Rom) {start size : Nat} {received : Bytes} (blank : rom.line = [])
    (waits : rom.phase = .data start size received)
    (room : received.length + data.length ≤ size) :
    (romPeer echo).receive lines.flatten rom =
      ({ rom with phase := .data start size (received ++ data) }, []) := by
  induction isText generalizing rom received with
  | nil =>
      rw [List.append_nil, ← waits]
      rfl
  | @cons chunk line rest lines isLine restText ih =>
      obtain ⟨body, lineEq, noFeed⟩ := isLine_eq_append isLine
      have nonempty := isLine.nonempty
      rw [List.length_append] at room
      have completes : rom.complete echo line =
          ({ rom with phase := .data start size (received ++ chunk) }, []) := by
        unfold Rom.complete
        simp only [waits, isLine.decodeLine]
        rw [if_pos (by omega)]
      have same : { rom with line := [] } = rom := by
        rw [← blank]
      have taken := receive_line echo rom noFeed
      rw [same, blank, List.nil_append, ← lineEq, completes] at taken
      have restTaken := ih { rom with phase := .data start size (received ++ chunk) }
        blank rfl (by rw [List.length_append]; omega)
      rw [List.flatten_cons, Peer.receive_append, taken, restTaken, List.append_assoc]
      rfl

theorem checksumLine_eq_append (data : Bytes) :
    ∃ body, checksumLine data = body ++ [10] ∧ (10 : UInt8) ∉ body := by
  refine ⟨decimal (byteSum data) ++ [13], by simp [checksumLine], ?_⟩
  intro member
  rcases List.mem_append.mp member with inSum | inEnding
  · exact absurd (decimal_isDigit inSum).1 (by decide)
  · exact absurd inEnding (by decide)

/-- A block of data with its checksum goes to RAM. -/
theorem romPeer_replies_data {data : Bytes} {lines : List Bytes} (isText : IsText data lines)
    {rom : Rom} {start : Nat} (blank : rom.line = [])
    (waits : rom.phase = .data start data.length []) {timeoutUs : Nat}
    (patient : 0 < timeoutUs) :
    (romPeer echo).Replies (lines.flatten ++ checksumLine data) timeoutUs okLine rom
      { rom with phase := .command, memory := rom.memory.writeRam start data } := by
  obtain ⟨body, checksumEq, noFeed⟩ := checksumLine_eq_append data
  have gathered : (romPeer echo).receive lines.flatten rom =
      ({ rom with phase := .data start data.length ([] ++ data) }, []) :=
    receive_data isText rom blank waits (by simp)
  have completes :
      Rom.complete echo { rom with phase := .data start data.length ([] ++ data) }
        (checksumLine data) =
      ({ rom with phase := .command, memory := rom.memory.writeRam start data }, okLine) := by
    simp [Rom.complete]
  rw [checksumEq] at completes
  obtain ⟨timeline, receives, sent, inTime⟩ :=
    romPeer_replies noFeed (by exact blank) completes patient
  refine ⟨timeline, ?_, sent, inTime⟩
  rw [checksumEq, Peer.receive_append, gathered, receives]
  rfl

theorem Rom.rangePrepared_of_forall {rom : Rom} {first last : Nat}
    (prepared : ∀ sector, first ≤ sector → sector ≤ last → rom.prepared sector = true) :
    rom.RangePrepared first last := by
  intro sector _ lower upper
  exact prepared sector lower upper

/-- The reference target is a conforming target, with or without echo. -/
def romConforming (echo : Bool) : Conforming (romPeer echo) where
  echo := echo
  idle rom := rom.phase = .command ∧ rom.line = []
  unlocked rom := rom.unlocked = true
  prepared rom sector := rom.prepared sector = true
  memory rom := rom.memory
  unlock := by
    rintro rom ⟨waits, blank⟩
    refine ⟨_, romPeer_replies_command echo (by decide) blank waits (by decide) rfl,
      ⟨waits, blank⟩, rfl, rfl⟩
  prepare := by
    rintro rom first last ⟨waits, blank⟩ unlocked ordered inRange
    have answers : rom.command 'P'.toNat.toUInt8 [first, last] =
        (rom.mark first last true, successLine) :=
      if_pos ⟨ordered, inRange⟩
    refine ⟨_, romPeer_replies_command echo (by decide) blank waits (by decide) answers,
      ⟨waits, blank⟩, unlocked, rfl, ?_⟩
    intro sector lower upper
    exact if_pos ⟨lower, upper⟩
  erase := by
    rintro rom first last ⟨waits, blank⟩ unlocked ordered inRange prepared
    have answers : rom.command 'E'.toNat.toUInt8 [first, last] =
        ({ rom.mark first last false with memory := rom.memory.eraseSectors first last },
          successLine) :=
      if_pos ⟨unlocked, ordered, inRange, Rom.rangePrepared_of_forall prepared⟩
    exact ⟨_, romPeer_replies_command echo (by decide) blank waits (by decide) answers,
      ⟨waits, blank⟩, unlocked, rfl⟩
  write := by
    rintro rom start size ⟨waits, blank⟩ unlocked inRam aligned words positive
    have answers : rom.command 'W'.toNat.toUInt8 [start, size] =
        ({ rom with phase := .data start size [] }, successLine) :=
      if_pos ⟨unlocked, inRam, aligned, words, positive⟩
    refine ⟨_, romPeer_replies_command echo (by decide) blank waits (by decide) answers, ?_⟩
    rintro data lines isText rfl -
    exact ⟨_, romPeer_replies_data isText (by exact blank) rfl (by decide),
      ⟨rfl, blank⟩, unlocked, rfl⟩
  copy := by
    rintro rom dst src size ⟨waits, blank⟩ unlocked inFlash inRam dstAligned srcAligned
      sizes prepared erased
    have answers : rom.command 'C'.toNat.toUInt8 [dst, src, size] =
        ({ rom.mark (dst / sectorSize) ((dst + size - 1) / sectorSize) false with
            memory := rom.memory.copyToFlash dst src size }, successLine) :=
      if_pos ⟨unlocked, inFlash, inRam, dstAligned, srcAligned, sizes,
        Rom.rangePrepared_of_forall prepared, erased⟩
    refine ⟨_, romPeer_replies_command echo (by decide) blank waits (by decide) answers,
      ⟨waits, blank⟩, unlocked, ?_, rfl⟩
    intro sector lower upper isPrepared
    simp [Rom.mark, lower, upper] at isPrepared
  read := by
    rintro rom address size ⟨waits, blank⟩ unlocked mapped aligned words positive short
    have answers : rom.command 'R'.toNat.toUInt8 [address, size] =
        ({ rom with phase := .acknowledge },
          successLine ++
            ((encodeLines ((size - 1) / 45 + 1) (rom.memory.read address size)).flatten ++
              checksumLine (rom.memory.read address size))) :=
      if_pos ⟨unlocked, mapped, aligned, words, positive, short⟩
    have length : (rom.memory.read address size).length = size := by
      simp [ChipMemory.read]
    have full : IsFullText (rom.memory.read address size)
        (encodeLines ((size - 1) / 45 + 1) (rom.memory.read address size)) :=
      isFullText_encodeLines (by omega) (by omega)
    have replies := romPeer_replies_command echo (by decide) blank waits
      (by decide : 0 < ispUartRecvTimeoutUs) answers
    rw [← List.append_assoc] at replies
    have acknowledged : okLine = ascii "OK\r" ++ [10] := by decide
    refine ⟨_, _, { rom with phase := .command }, full, replies, ?_, ⟨rfl, blank⟩,
      unlocked, rfl⟩
    rw [acknowledged]
    exact romPeer_replies (by decide) blank rfl (by decide)

end Promises

end OnlineProgram
