/-
  DosMcp.Dos.Machine — what the DOS agents see of the machine: the BIOS data area, video
  memory, ports and the keyboard ring, and the configuration an agent was started with.

  Memory is addressed by segment and offset (`MK_FP`). The window at A000h shows the
  plane selected in graphics-controller register 4, which is read and written through
  ports 3CEh and 3CFh.
-/

import DosMcp.Dos.Proto
import DosMcp.Lib.Memory

namespace DosMcp.Dos

open Lib

/-- What the packet driver, the interrupt entries and the stack guard count, as
    `build_diagnostics` reads it. -/
structure Counters where
  ownsInt08 : Bool
  ownsInt1c : Bool
  ownsInt28 : Bool
  ownsInt2f : Bool
  int08Entries : UInt16
  int1cEntries : UInt16
  int28Entries : UInt16
  workerRuns : UInt16
  fallbackRuns : UInt16
  busySkips : UInt16
  receiveAllocations : UInt16
  receiveCompletions : UInt16
  receiveDrops : UInt16
  sendAttempts : UInt16
  sendFailures : UInt16
  receiveLastBiosTick : UInt16
  receiveLength : UInt16
  stackCapacity : UInt16
  stackUsed : UInt16
  stackGuardOk : Bool
  residentParagraphs : UInt16

structure Machine where
  memory : Memory
  /-- The A000h window under each value of the read-map register. -/
  window : UInt8 → Nat → UInt8
  gcIndex : UInt8
  gcRegisters : UInt8 → UInt8
  ports : UInt16 → UInt8
  clock : UInt32
  /-- `INT 21h AH=30h`: major and minor version. -/
  dosVersion : UInt8 × UInt8
  /-- `INT 10h AX=1A00h`: the display code, where the function is supported. -/
  displayCode : Option UInt8
  /-- What `dm_net_send` returns. -/
  sendResult : UInt16
  counters : Counters

/-- The parameters of an installed agent. -/
structure Config where
  baseKey : Bytes
  sandboxRoot : Bytes
  agentName : Bytes
  allowFileRead : Bool
  allowFileWrite : Bool
  unrestrictedFilesystem : Bool
  discoveryOpenMode : Bool
  advertisedPort : UInt16
  /-- `dm_net_address()`. -/
  address : Bytes
  cachedDosMajor : UInt8
  cachedDosMinor : UInt8
  cachedAdapter : UInt8
  agentStartTicks : UInt32
  /-- The effect of `system(command)` on the machine. -/
  system : Bytes → Machine → Machine

namespace Machine

/-- The byte at `segment:offset`. -/
def peek (m : Machine) (segment offset : UInt16) : UInt8 :=
  if segment = 0xA000 then m.window (m.gcRegisters 4) offset.toNat else m.memory (16 * segment.toNat + offset.toNat)

def peek16 (m : Machine) (segment offset : UInt16) : UInt16 :=
  (m.peek segment offset).toUInt16 ||| ((m.peek segment (offset + 1)).toUInt16 <<< 8)

def peek32 (m : Machine) (segment offset : UInt16) : UInt32 :=
  (m.peek16 segment offset).toUInt32 ||| ((m.peek16 segment (offset + 2)).toUInt32 <<< 16)

def poke16 (m : Machine) (segment offset value : UInt16) : Machine :=
  { m with memory := m.memory.store (16 * segment.toNat + offset.toNat) (dmPutU16 value) }

def inp (m : Machine) (port : UInt16) : UInt8 :=
  if port = 0x3CE then m.gcIndex else if port = 0x3CF then m.gcRegisters m.gcIndex else m.ports port

def outp (m : Machine) (port : UInt16) (value : UInt8) : Machine :=
  if port = 0x3CE then { m with gcIndex := value }
  else if port = 0x3CF then { m with gcRegisters := Function.update m.gcRegisters m.gcIndex value }
  else m

def readBiosTicks (m : Machine) : UInt32 := m.peek32 0x40 0x6C

def videoMode (m : Machine) : UInt8 := m.peek 0x40 0x49

def makeNonce (m : Machine) : UInt32 := m.readBiosTicks ^^^ (m.clock <<< 16) ^^^ 0xD05A9E37

/-- `ADAPTER_MDA` = 1, `ADAPTER_CGA` = 2, `ADAPTER_EGA` = 3, `ADAPTER_VGA` = 4. -/
def detectAdapter (m : Machine) (videoMode : UInt8) : UInt8 :=
  let byMode := if videoMode = 7 then 1 else 2
  match m.displayCode with
  | none => byMode
  | some code =>
    if code = 1 then 1
    else if code = 2 ∨ code = 3 then 2
    else if code = 4 ∨ code = 5 then 3
    else if code = 7 ∨ code = 8 then 4
    else byMode

/-! ## The keyboard ring at 40:1Eh -/

def ringPointerBad (value : UInt16) : Bool := value < 0x1E ∨ value ≥ 0x3E ∨ value &&& 1 ≠ 0

def ringNext (value : UInt16) : UInt16 := if value + 2 ≥ 0x3E then 0x1E else value + 2

/-- `bios_queue_word`; the resident build's assembly routine does the same. -/
def biosQueueWord (m : Machine) (word : UInt16) : Option Machine :=
  let tail := m.peek16 0x40 0x1C
  let head := m.peek16 0x40 0x1A
  if ringPointerBad tail ∨ ringPointerBad head then none
  else if ringNext tail = head then none
  else some ((m.poke16 0x40 tail word).poke16 0x40 0x1C (ringNext tail))

/-- `_bios_keybrd(_KEYBRD_READY)`: the key at the head of the ring, zero when there is none. -/
def keybrdReady (m : Machine) : UInt16 :=
  let head := m.peek16 0x40 0x1A
  if head = m.peek16 0x40 0x1C then 0 else m.peek16 0x40 head

/-- `_bios_keybrd(_KEYBRD_READ)` with a key ready. -/
def keybrdRead (m : Machine) : UInt16 × Machine :=
  let head := m.peek16 0x40 0x1A
  (m.peek16 0x40 head, m.poke16 0x40 0x1A (ringNext head))

def keybrdShiftStatus (m : Machine) : UInt8 := m.peek 0x40 0x17

end Machine

end DosMcp.Dos
