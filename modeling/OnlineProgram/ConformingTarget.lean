import OnlineProgram.IspCommands

/-!
# Conforming targets

What the in-system programming ROM of a target board promises.  The ROM is not
part of the repository, so it is an arbitrary machine on the serial line
together with a reading of its states: whether it waits for a command, what its
memory holds, which sectors are prepared.  Every command other than `U` is only
promised to an unlocked target.
-/

namespace OnlineProgram

open ByteStrings SerialLink UuCoding

/-- The two memory regions of the chip, by address. -/
structure ChipMemory where
  flash : Nat → UInt8
  ram : Nat → UInt8

namespace ChipMemory

def InFlash (address size : Nat) : Prop :=
  address + size ≤ flashSize

def InRam (address size : Nat) : Prop :=
  ramStartAddress ≤ address ∧ address + size ≤ ramStartAddress + ramSize

instance (address size : Nat) : Decidable (InFlash address size) :=
  inferInstanceAs (Decidable (_ ≤ _))

instance (address size : Nat) : Decidable (InRam address size) :=
  inferInstanceAs (Decidable (_ ∧ _))

/-- The byte that a read of an address returns. -/
def contents (memory : ChipMemory) (address : Nat) : UInt8 :=
  if address < flashSize then memory.flash address else memory.ram address

def read (memory : ChipMemory) (address size : Nat) : Bytes :=
  (List.range size).map fun offset => memory.contents (address + offset)

def eraseSectors (memory : ChipMemory) (first last : Nat) : ChipMemory :=
  { memory with
    flash := fun address =>
      if first ≤ address / sectorSize ∧ address / sectorSize ≤ last then 0xFF
      else memory.flash address }

def writeRam (memory : ChipMemory) (start : Nat) (bytes : Bytes) : ChipMemory :=
  { memory with
    ram := fun address =>
      if start ≤ address then bytes.getD (address - start) (memory.ram address)
      else memory.ram address }

def copyToFlash (memory : ChipMemory) (dst src size : Nat) : ChipMemory :=
  { memory with
    flash := fun address =>
      if dst ≤ address ∧ address < dst + size then memory.ram (src + (address - dst))
      else memory.flash address }

/-- The flash range holds what an erased cell holds. -/
def Erased (memory : ChipMemory) (address size : Nat) : Prop :=
  ∀ offset < size, memory.flash (address + offset) = 0xFF

end ChipMemory

/-- A command of the ROM: its letter, its arguments in decimal, CR LF. -/
def requestLine (letter : Char) (arguments : List Nat) : Bytes :=
  letter.toNat.toUInt8 ::
    (arguments.flatMap (fun argument => 32 :: decimal argument) ++ [13, 10])

/-- The return code of a command that succeeds. -/
def successLine : Bytes := ascii "0\r\n"

/-- The line with which the ROM and its host acknowledge data. -/
def okLine : Bytes := ascii "OK\r\n"

/-- The checksum line that follows the lines of a block of data. -/
def checksumLine (data : Bytes) : Bytes :=
  decimal (byteSum data) ++ [13, 10]

/-- A reading of a machine's states under which it is a conforming target. -/
structure Conforming {σ : Type} (peer : Peer σ) where
  /-- Whether command lines are echoed. -/
  echo : Bool
  idle : σ → Prop
  unlocked : σ → Prop
  prepared : σ → Nat → Prop
  memory : σ → ChipMemory
  unlock : ∀ state, idle state → ∃ final,
    peer.Replies (requestLine 'U' [23130]) ispUartRecvTimeoutUs
      ((if echo then requestLine 'U' [23130] else []) ++ successLine) state final ∧
      idle final ∧ unlocked final ∧ memory final = memory state
  prepare : ∀ state first last, idle state → unlocked state →
    first ≤ last → last < sectorNum → ∃ final,
    peer.Replies (requestLine 'P' [first, last]) ispUartRecvTimeoutUs
      ((if echo then requestLine 'P' [first, last] else []) ++ successLine)
      state final ∧
      idle final ∧ unlocked final ∧ memory final = memory state ∧
      ∀ sector, first ≤ sector → sector ≤ last → prepared final sector
  erase : ∀ state first last, idle state → unlocked state →
    first ≤ last → last < sectorNum →
    (∀ sector, first ≤ sector → sector ≤ last → prepared state sector) → ∃ final,
    peer.Replies (requestLine 'E' [first, last]) ispEraseWaitTimeoutUs
      ((if echo then requestLine 'E' [first, last] else []) ++ successLine)
      state final ∧
      idle final ∧ unlocked final ∧
      memory final = (memory state).eraseSectors first last
  /-- The data that follows the command line is not echoed. -/
  write : ∀ state start size, idle state → unlocked state →
    ChipMemory.InRam start size → start % 4 = 0 → size % 4 = 0 → 0 < size →
    ∃ waiting,
    peer.Replies (requestLine 'W' [start, size]) ispUartRecvTimeoutUs
      ((if echo then requestLine 'W' [start, size] else []) ++ successLine)
      state waiting ∧
      ∀ data lines, IsText data lines → data.length = size → lines.length ≤ 20 →
        ∃ final,
        peer.Replies (lines.flatten ++ checksumLine data) 1000 okLine
          waiting final ∧
          idle final ∧ unlocked final ∧
          memory final = (memory state).writeRam start data
  copy : ∀ state dst src size, idle state → unlocked state →
    ChipMemory.InFlash dst size → ChipMemory.InRam src size →
    dst % 256 = 0 → src % 4 = 0 → size ∈ [256, 512, 1024, 4096] →
    (∀ sector, dst / sectorSize ≤ sector → sector ≤ (dst + size - 1) / sectorSize →
      prepared state sector) →
    (memory state).Erased dst size → ∃ final,
    peer.Replies (requestLine 'C' [dst, src, size]) 10000
      ((if echo then requestLine 'C' [dst, src, size] else []) ++ successLine)
      state final ∧
      idle final ∧ unlocked final ∧
      (∀ sector, dst / sectorSize ≤ sector →
        sector ≤ (dst + size - 1) / sectorSize → ¬ prepared final sector) ∧
      memory final = (memory state).copyToFlash dst src size
  /-- A block of at most twenty lines has one checksum. -/
  read : ∀ state address size, idle state → unlocked state →
    ChipMemory.InFlash address size ∨ ChipMemory.InRam address size →
    address % 4 = 0 → size % 4 = 0 → 0 < size → size ≤ 20 * 45 →
    ∃ lines waiting final,
    IsFullText ((memory state).read address size) lines ∧
      peer.Replies (requestLine 'R' [address, size]) ispUartRecvTimeoutUs
        ((if echo then requestLine 'R' [address, size] else []) ++ successLine ++
          (lines.flatten ++ checksumLine ((memory state).read address size)))
        state waiting ∧
      peer.Replies okLine ispUartRecvTimeoutUs [] waiting final ∧
      idle final ∧ unlocked final ∧ memory final = memory state

end OnlineProgram
