import OnlineProgram.BoardSync
import OnlineProgram.ReferenceTarget

/-!
# A reference board

The reference target behind the handshake with which a reset board finds its
baud rate.  While it waits for a command it echoes a question mark at once, and
an escape takes the question mark back.
-/

namespace OnlineProgram

open ByteStrings CMemory SerialLink UuCoding

inductive BootStage where
  | waiting
  | greeted
  | agreed
  | commands

structure BootedRom where
  stage : BootStage
  rom : Rom

def Rom.Commands (rom : Rom) : Prop :=
  rom.phase = .command

instance (rom : Rom) : Decidable rom.Commands :=
  match phase : rom.phase with
  | .command => isTrue phase
  | .data _ _ _ => isFalse fun commands => nomatch phase.symm.trans commands
  | .acknowledge => isFalse fun commands => nomatch phase.symm.trans commands

/-- A reply that is sent at once. -/
def atOnce (reply : Bytes) : Timeline :=
  reply.map fun sent => (0, sent)

def Rom.gather (byte : UInt8) (rom : Rom) : Rom :=
  { rom with line := rom.line ++ [byte] }

def Rom.blank (rom : Rom) : Rom :=
  { rom with line := [] }

/-- The question mark is echoed where a command begins, the escape behind it. -/
def Rom.Intercepts (rom : Rom) (byte : UInt8) : Prop :=
  rom.Commands ∧ (byte = 63 ∨ byte = 27)

instance (rom : Rom) (byte : UInt8) : Decidable (rom.Intercepts byte) :=
  inferInstanceAs (Decidable (_ ∧ _))

def bootPeer (echo : Bool) : Peer BootedRom where
  accept byte board :=
    match board.stage with
    | .waiting =>
        if byte = 63 then
          ({ board with stage := .greeted }, atOnce (baudrateSyncRecvStr ++ endcodeStr))
        else (board, [])
    | .greeted =>
        if byte = 10 then
          if board.rom.line ++ [10] = baudrateSyncRecvStr ++ endcodeStr then
            ({ stage := .agreed, rom := board.rom.blank },
              atOnce (board.rom.line ++ [10] ++ okLine))
          else ({ stage := .waiting, rom := board.rom.blank }, [])
        else ({ board with rom := board.rom.gather byte }, [])
    | .agreed =>
        if byte = 10 then
          ({ stage := .commands, rom := board.rom.blank },
            atOnce (board.rom.line ++ [10] ++ okLine))
        else ({ board with rom := board.rom.gather byte }, [])
    | .commands =>
        if board.rom.Intercepts byte then
          ({ board with rom := if byte = 63 then board.rom.gather 63 else board.rom.blank },
            atOnce [byte])
        else
          ({ board with rom := ((romPeer echo).accept byte board.rom).1 },
            ((romPeer echo).accept byte board.rom).2)

/-- A board that has agreed on a baud rate. -/
def Rom.booted (rom : Rom) : BootedRom :=
  { stage := .commands, rom }

section Lines

variable {echo : Bool}

theorem bootPeer_accept {rom : Rom} {byte : UInt8} (open_ : ¬ rom.Intercepts byte) :
    (bootPeer echo).accept byte rom.booted =
      (((romPeer echo).accept byte rom).1.booted, ((romPeer echo).accept byte rom).2) := by
  unfold bootPeer Rom.booted
  dsimp only
  rw [if_neg open_]

/-- A line goes through where nothing is echoed by itself. -/
theorem bootPeer_receive_line {body : Bytes} (rom : Rom) (noFeed : (10 : UInt8) ∉ body)
    (open_ : ∀ byte ∈ body, ¬ rom.Intercepts byte) :
    (bootPeer echo).receive (body ++ [10]) rom.booted =
      (((romPeer echo).receive (body ++ [10]) rom).1.booted,
        ((romPeer echo).receive (body ++ [10]) rom).2) := by
  induction body generalizing rom with
  | nil =>
      have closing : ¬ rom.Intercepts 10 := fun intercepts =>
        absurd intercepts.2 (by decide)
      simp only [List.nil_append, Peer.receive, bootPeer_accept closing]
  | cons byte body ih =>
      obtain ⟨byteNotFeed, bodyNoFeed⟩ : ¬ 10 = byte ∧ (10 : UInt8) ∉ body := by
        simpa using noFeed
      have gathered : (romPeer echo).accept byte rom = (rom.gather byte, []) := by
        simp [romPeer, Rom.gather, Ne.symm byteNotFeed]
      have rest := ih (rom.gather byte) bodyNoFeed fun other member intercepts =>
        open_ other (by simp [member]) intercepts
      simp only [List.cons_append, Peer.receive, bootPeer_accept (open_ byte (by simp)), gathered,
        rest]

theorem not_intercepts_of_data {rom : Rom} {start size : Nat} {received : Bytes}
    (waits : rom.phase = .data start size received) (byte : UInt8) : ¬ rom.Intercepts byte := by
  rintro ⟨commands, -⟩
  cases waits.symm.trans commands

/-- The answer to a line that goes through. -/
theorem bootPeer_replies {body reply : Bytes} {timeoutUs : Nat} {rom final : Rom}
    (noFeed : (10 : UInt8) ∉ body) (open_ : ∀ byte ∈ body, ¬ rom.Intercepts byte)
    (replies : (romPeer echo).Replies (body ++ [10]) timeoutUs reply rom final) :
    (bootPeer echo).Replies (body ++ [10]) timeoutUs reply rom.booted final.booted := by
  obtain ⟨timeline, receives, isReply, inTime⟩ := replies
  exact ⟨timeline, by rw [bootPeer_receive_line _ noFeed open_, receives], isReply, inTime⟩

theorem bootPeer_replies_command {letter : Char} {arguments : List Nat} {reply : Bytes}
    {timeoutUs : Nat} {rom final : Rom}
    (plain : letter.toNat.toUInt8 ≠ 10 ∧ 63 ≠ letter.toNat.toUInt8 ∧ 27 ≠ letter.toNat.toUInt8)
    (replies : (romPeer echo).Replies (requestLine letter arguments) timeoutUs reply rom final) :
    (bootPeer echo).Replies (requestLine letter arguments) timeoutUs reply rom.booted
      final.booted := by
  have question := not_mem_requestLine letter arguments plain.2.1 (by decide) (by decide)
  have escape := not_mem_requestLine letter arguments plain.2.2 (by decide) (by decide)
  obtain ⟨body, lineEq, noFeed⟩ := requestLine_eq_append letter arguments plain.1
  rw [lineEq] at replies question escape ⊢
  refine bootPeer_replies noFeed (fun byte member intercepts => ?_) replies
  rcases intercepts.2 with rfl | rfl
  · exact question (by simp [member])
  · exact escape (by simp [member])

/-- Lines of data go through. -/
theorem bootPeer_receive_data {data : Bytes} {lines : List Bytes} (isText : IsText data lines)
    (rom : Rom) {start size : Nat} {received : Bytes} (blank : rom.line = [])
    (waits : rom.phase = .data start size received)
    (room : received.length + data.length ≤ size) :
    (bootPeer echo).receive lines.flatten rom.booted =
      (Rom.booted { rom with phase := .data start size (received ++ data) }, []) := by
  induction isText generalizing rom received with
  | nil =>
      rw [List.append_nil, ← waits]
      rfl
  | @cons chunk line rest lines isLine restText ih =>
      obtain ⟨body, lineEq, noFeed⟩ := isLine_eq_append isLine
      rw [List.length_append] at room
      have taken : (romPeer echo).receive line rom =
          ({ rom with phase := .data start size (received ++ chunk) }, []) := by
        rw [← List.append_nil chunk, ← List.append_nil line]
        exact receive_data (.cons isLine .nil) rom blank waits
          (by rw [List.append_nil]; omega)
      rw [lineEq] at taken
      have restTaken := ih { rom with phase := .data start size (received ++ chunk) }
        blank rfl (by rw [List.length_append]; omega)
      rw [List.flatten_cons, Peer.receive_append, lineEq,
        bootPeer_receive_line _ noFeed fun byte _ => not_intercepts_of_data waits byte, taken]
      dsimp only
      rw [restTaken, List.append_assoc]
      rfl

/-- A block of data with its checksum goes through. -/
theorem bootPeer_replies_data {data : Bytes} {lines : List Bytes} (isText : IsText data lines)
    {rom : Rom} {start : Nat} (blank : rom.line = [])
    (waits : rom.phase = .data start data.length []) {timeoutUs : Nat}
    (patient : 0 < timeoutUs) :
    (bootPeer echo).Replies (lines.flatten ++ checksumLine data) timeoutUs okLine rom.booted
      (Rom.booted { rom with phase := .command, memory := rom.memory.writeRam start data }) := by
  obtain ⟨body, checksumEq, noFeed⟩ := checksumLine_eq_append data
  obtain ⟨timeline, receives, isReply, inTime⟩ :=
    (romPeer_replies_data isText blank waits patient : (romPeer echo).Replies _ _ _ _ _)
  have gathered : (bootPeer echo).receive lines.flatten rom.booted = _ :=
    bootPeer_receive_data isText rom blank waits (by simp)
  rw [Peer.receive_append, receive_data isText rom blank waits (by simp)] at receives
  rw [checksumEq] at receives
  refine ⟨timeline, ?_, isReply, inTime⟩
  rw [checksumEq, Peer.receive_append, gathered]
  dsimp only at receives ⊢
  rw [bootPeer_receive_line _ noFeed fun byte _ => not_intercepts_of_data rfl byte]
  rw [List.nil_append] at receives ⊢
  obtain ⟨final, isTimeline⟩ := Prod.mk.inj receives
  rw [final, isTimeline]

end Lines

section Promises

variable {echo : Bool}

/-- Where a board agrees on a baud rate, and where it waits for a command. -/
def BootedRom.At (stage : BootStage) (board : BootedRom) : Prop :=
  board.stage = stage ∧ board.rom.phase = .command ∧ board.rom.line = []

theorem BootedRom.At.exists_rom (echo : Bool) {board : BootedRom} (commands : board.At .commands) :
    ∃ rom : Rom, board = rom.booted ∧ (romConforming echo).idle rom := by
  obtain ⟨stage, rom⟩ := board
  obtain ⟨rfl, idle⟩ := commands
  exact ⟨rom, rfl, idle⟩

theorem romConforming_idle {rom : Rom} (idle : (romConforming echo).idle rom) :
    rom.booted.At .commands :=
  ⟨rfl, idle⟩

theorem replies_atOnce {text reply : Bytes} {timeoutUs : Nat} {board final : BootedRom}
    (receives : (bootPeer echo).receive text board = (final, atOnce reply))
    (patient : 0 < timeoutUs) :
    (bootPeer echo).Replies text timeoutUs reply board final := by
  refine ⟨_, receives, by simp [atOnce], ?_⟩
  intro sent member
  obtain ⟨byte, -, rfl⟩ := List.mem_map.mp member
  exact patient

/-- During the handshake the board gathers a line in silence. -/
theorem bootPeer_gathers {stage : BootStage} (handshake : stage = .greeted ∨ stage = .agreed)
    {body : Bytes} (noFeed : (10 : UInt8) ∉ body) (rom : Rom) :
    (bootPeer echo).receive body { stage, rom } =
      ({ stage, rom := { rom with line := rom.line ++ body } }, []) := by
  induction body generalizing rom with
  | nil => simp [Peer.receive]
  | cons byte body ih =>
      obtain ⟨byteNotFeed, bodyNoFeed⟩ : ¬ 10 = byte ∧ (10 : UInt8) ∉ body := by
        simpa using noFeed
      have gathered : (bootPeer echo).accept byte { stage, rom } =
          ({ stage, rom := rom.gather byte }, []) := by
        rcases handshake with rfl | rfl
        · simp [bootPeer, Ne.symm byteNotFeed]
        · simp [bootPeer, Ne.symm byteNotFeed]
      simp only [Peer.receive, gathered, ih bodyNoFeed, Rom.gather, List.append_assoc,
        List.singleton_append, List.nil_append]

/-- The greeting, line by line. -/
theorem bootPeer_greets (echo : Bool) {board : BootedRom} (waits : board.At .waiting) :
    (bootPeer echo).Replies baudrateSyncSendStr ispUartRecvTimeoutUs
        (baudrateSyncRecvStr ++ endcodeStr) board { stage := .greeted, rom := board.rom } ∧
      (bootPeer echo).Replies (baudrateSyncRecvStr ++ endcodeStr) ispUartRecvTimeoutUs
        (baudrateSyncRecvStr ++ endcodeStr ++ okLine) { stage := .greeted, rom := board.rom }
        { stage := .agreed, rom := board.rom } ∧
      (bootPeer echo).Replies freqStr ispUartRecvTimeoutUs (freqStr ++ okLine)
        { stage := .agreed, rom := board.rom } board.rom.booted := by
  obtain ⟨stage, rom⟩ := board
  obtain ⟨rfl, -, blank⟩ := waits
  have same : { rom with line := [] } = rom := by
    rw [← blank]
  have greeting : baudrateSyncRecvStr ++ endcodeStr = (baudrateSyncRecvStr ++ [13]) ++ [10] := by
    decide
  have clock : freqStr = ascii "0\r" ++ [10] := by decide
  refine ⟨replies_atOnce rfl (by decide), replies_atOnce ?_ (by decide),
    replies_atOnce ?_ (by decide)⟩
  · rw [greeting, Peer.receive_append, bootPeer_gathers (.inl rfl) (by decide), blank]
    simp only [Peer.receive, bootPeer, List.nil_append, if_pos, greeting, Rom.blank, same,
      List.append_nil]
  · rw [clock, Peer.receive_append, bootPeer_gathers (.inr rfl) (by decide), blank]
    simp only [Peer.receive, bootPeer, List.nil_append, if_pos, Rom.blank, same, Rom.booted,
      List.append_nil]

/-- A question mark that is taken back. -/
theorem bootPeer_cancels {rom : Rom} (idle : (romConforming echo).idle rom) :
    (bootPeer echo).Replies baudrateSyncSendStr ispUartRecvTimeoutUs baudrateSyncSendStr
        rom.booted (rom.gather 63).booted ∧
      (bootPeer echo).Replies escapeStr ispUartRecvTimeoutUs escapeStr (rom.gather 63).booted
        rom.booted := by
  obtain ⟨waits, blank⟩ := idle
  have same : { rom with line := [] } = rom := by
    rw [← blank]
  have question : rom.Intercepts 63 := ⟨waits, .inl rfl⟩
  have escape : (rom.gather 63).Intercepts 27 := ⟨waits, .inr rfl⟩
  have cleared : (rom.gather 63).blank = rom := same
  have mark : baudrateSyncSendStr = [63] := by decide
  have other : ¬ (27 : UInt8) = 63 := by decide
  refine ⟨replies_atOnce ?_ (by decide), replies_atOnce ?_ (by decide)⟩
  · rw [mark]
    simp only [Peer.receive, bootPeer, Rom.booted, if_pos question, ↓reduceIte, List.append_nil]
  · simp only [escapeStr, Peer.receive, bootPeer, Rom.booted, if_pos escape, if_neg other, cleared,
      List.append_nil]

/-- A board that waits hears only a question mark. -/
theorem bootPeer_deaf {board : BootedRom} (waits : board.stage = .waiting) {text : Bytes}
    (plain : 63 ∉ text) : (bootPeer echo).receive text board = (board, []) := by
  obtain ⟨stage, rom⟩ := board
  obtain rfl : stage = .waiting := waits
  induction text with
  | nil => rfl
  | cons byte text ih =>
      obtain ⟨other, rest⟩ : byte ≠ 63 ∧ 63 ∉ text := by
        simpa [eq_comm] using plain
      have ignored : (bootPeer echo).accept byte { stage := .waiting, rom } =
          ({ stage := .waiting, rom }, []) := by
        simp [bootPeer, other]
      simp only [Peer.receive, ignored, ih rest, List.nil_append]

/-- The reference board keeps every promise. -/
def bootSynchronizing (echo : Bool) : Synchronizing (bootPeer echo) where
  echo := echo
  idle board := board.At .commands
  unlocked board := board.rom.unlocked = true
  prepared board sector := board.rom.prepared sector = true
  memory board := board.rom.memory
  unlock := by
    rintro _ commands
    obtain ⟨rom, rfl, idle⟩ := commands.exists_rom echo
    obtain ⟨final, replies, finalIdle, held⟩ := (romConforming echo).unlock rom idle
    exact ⟨final.booted, bootPeer_replies_command (by decide) replies,
      romConforming_idle finalIdle, held⟩
  prepare := by
    rintro _ first last commands unlocked ordered inRange
    obtain ⟨rom, rfl, idle⟩ := commands.exists_rom echo
    obtain ⟨final, replies, finalIdle, held⟩ :=
      (romConforming echo).prepare rom first last idle unlocked ordered inRange
    exact ⟨final.booted, bootPeer_replies_command (by decide) replies,
      romConforming_idle finalIdle, held⟩
  erase := by
    rintro _ first last commands unlocked ordered inRange prepared
    obtain ⟨rom, rfl, idle⟩ := commands.exists_rom echo
    obtain ⟨final, replies, finalIdle, held⟩ :=
      (romConforming echo).erase rom first last idle unlocked ordered inRange prepared
    exact ⟨final.booted, bootPeer_replies_command (by decide) replies,
      romConforming_idle finalIdle, held⟩
  write := by
    rintro _ start size commands unlocked inRam aligned words positive
    obtain ⟨rom, rfl, waits, blank⟩ := commands.exists_rom echo
    have answers : rom.command 'W'.toNat.toUInt8 [start, size] =
        ({ rom with phase := .data start size [] }, successLine) :=
      if_pos ⟨unlocked, inRam, aligned, words, positive⟩
    refine ⟨_, bootPeer_replies_command (by decide) (romPeer_replies_command echo (by decide)
      blank waits (by decide) answers), ?_⟩
    rintro data lines isText rfl -
    exact ⟨_, bootPeer_replies_data isText (by exact blank) rfl (by decide), ⟨rfl, rfl, blank⟩,
      unlocked, rfl⟩
  copy := by
    rintro _ dst src size commands unlocked inFlash inRam dstAligned srcAligned sizes prepared
      erased
    obtain ⟨rom, rfl, idle⟩ := commands.exists_rom echo
    obtain ⟨final, replies, finalIdle, held⟩ := (romConforming echo).copy rom dst src size idle
      unlocked inFlash inRam dstAligned srcAligned sizes prepared erased
    exact ⟨final.booted, bootPeer_replies_command (by decide) replies,
      romConforming_idle finalIdle, held⟩
  read := by
    rintro _ address size commands unlocked mapped aligned words positive short
    obtain ⟨rom, rfl, idle⟩ := commands.exists_rom echo
    obtain ⟨lines, waiting, final, full, replies, acknowledged, finalIdle, held⟩ :=
      (romConforming echo).read rom address size idle unlocked mapped aligned words positive short
    have line : okLine = ascii "OK\r" ++ [10] := by decide
    refine ⟨lines, waiting.booted, final.booted, full,
      bootPeer_replies_command (by decide) replies, ?_, romConforming_idle finalIdle, held⟩
    rw [line] at acknowledged ⊢
    refine bootPeer_replies (by decide) ?_ acknowledged
    rintro byte member ⟨-, special⟩
    rcases special with rfl | rfl
    · exact absurd member (by decide)
    · exact absurd member (by decide)
  waiting board := board.At .waiting
  greets := by
    rintro board waits
    obtain ⟨greeted, answered, told⟩ := bootPeer_greets echo waits
    exact ⟨_, _, board.rom.booted, greeted, answered, told, ⟨rfl, waits.2⟩, rfl⟩
  cancels := by
    rintro _ commands
    obtain ⟨rom, rfl, idle⟩ := commands.exists_rom echo
    obtain ⟨echoed, cancelled⟩ := bootPeer_cancels idle
    exact ⟨_, rom.booted, echoed, cancelled, romConforming_idle idle, rfl⟩
  deaf := by
    rintro board text waits plain
    exact ⟨board, bootPeer_deaf waits.1 plain, waits, rfl⟩

end Promises

end OnlineProgram
