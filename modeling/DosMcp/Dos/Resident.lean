/-
  DosMcp.Dos.Resident — RA-TSR as a program in memory: `main` of the core (`ragent.c`), what
  its INT 2Fh handler answers (`ratsr_hooks.asm`), and the unload of the loader
  (`ratsr_loader.c`).

  An interrupt vector is followed by what its handler chains to: `chains n` are the handlers an
  INT n goes through, the one in the vector first. A handler above RA-TSR's on INT 2Fh passes
  AX=D05Ah on, one below leaves it alone, as the multiplex convention has it.
-/

import DosMcp.Dos.Driver
import DosMcp.Dos.Install

namespace DosMcp.Dos

open Lib

structure Far where
  segment : UInt16
  offset : UInt16
  deriving DecidableEq, Repr

def Far.null : Far := ⟨0, 0⟩

/-- The interrupts that RA-TSR hooks. -/
inductive Hooked where
  | timer
  | idle
  | dosIdle
  | multiplex
  deriving DecidableEq, Repr

def Hooked.number : Hooked → UInt8
  | .timer => 0x08
  | .idle => 0x1C
  | .dosIdle => 0x28
  | .multiplex => 0x2F

/-! ## The private stack -/

/-- `RATSR_STACK_SIZE`. -/
def ratsrStackSize : Nat := 32768

/-- `RATSR_STACK_FILL`. -/
def ratsrStackFill : UInt8 := 0xA5

/-- `rep stosb` over the stack. -/
def ratsrPrimeStack (stack : Nat → UInt8) (i : Nat) : UInt8 := if i < ratsrStackSize then ratsrStackFill else stack i

/-- `repe scasb` from `di` on, with the count in CX: what is left of it, and ZF. -/
def repeScasb (value : UInt8) (stack : Nat → UInt8) : (cx : Nat) → (di : Nat) → Nat × Bool
  | 0, _ => (0, true)
  | cx + 1, di => if stack di = value then repeScasb value stack cx (di + 1) else (cx, false)

def ratsrStackUsed (stack : Nat → UInt8) : Nat :=
  match repeScasb ratsrStackFill stack ratsrStackSize 0 with
  | (_, true) => 0
  | (cx, false) => cx + 1

def ratsrStackGuardOk (stack : Nat → UInt8) : Nat :=
  match repeScasb ratsrStackFill stack 32 0 with
  | (_, true) => 1
  | (_, false) => 0

/-! ## The resident program -/

/-- The statics of the program in memory, but for those of the packet driver. -/
structure Resident where
  psp : UInt16
  segment : UInt16
  /-- Where the handlers are in the segment. -/
  offset : Hooked → UInt16
  /-- `ratsr_old_int08`, `ratsr_old_int1c`, `ratsr_old_int28` and `ratsr_old_int2f`. -/
  old : Hooked → Far
  config : Config
  state : State
  paragraphs : UInt16
  stack : Nat → UInt8

def Resident.handler (r : Resident) (v : Hooked) : Far := ⟨r.segment, r.offset v⟩

structure Regs where
  ax : UInt16
  bx : UInt16
  cx : UInt16
  dx : UInt16
  si : UInt16
  di : UInt16
  deriving DecidableEq, Repr

/-- `RATSR_MULTIPLEX`. -/
def ratsrMultiplex : UInt16 := 0xD05A

/-- `RATSR_REPLY`. -/
def ratsrReply : UInt16 := 0x5A5A

def ratsrPrepareUnload (r : Resident) : Resident := { r with state := { r.state with enabled := false } }

def wordOfFlag (b : Bool) : UInt16 := if b then 1 else 0

/-- `ratsr_multiplex_handler_`, with the counters and ports of `m`; none where it chains. -/
def ratsrMultiplexHandler (m : Machine) (link : PacketLink) (r : Resident) (regs : Regs) : Option (Regs × Resident) :=
  if regs.ax ≠ ratsrMultiplex then none
  else
    let regs := { regs with ax := ratsrReply }
    let n := m.counters
    some (match regs.bx.toNat with
    | 0 => ({ regs with bx := r.psp, cx := r.offset .idle, dx := r.segment, si := r.offset .multiplex, di := r.segment }, r)
    | 1 =>
      if r.state.files.transfer.kind ≠ .none then ({ regs with ax := 0, bx := 1 }, r)
      else
        let r := ratsrPrepareUnload r
        ({ regs with bx := r.psp, cx := (r.old .idle).offset, dx := (r.old .idle).segment,
                     si := (r.old .multiplex).offset, di := (r.old .multiplex).segment }, r)
    | 2 => ({ regs with bx := r.state.ticks, cx := wordOfFlag r.state.slot.isSome, dx := n.receiveLength,
                        si := .ofNat (r.state.lastProtocolResult % 0x10000).toNat, di := r.state.lastSendResult }, r)
    | 3 => ({ regs with si := (r.old .dosIdle).offset, di := (r.old .dosIdle).segment, cx := r.offset .dosIdle,
                        dx := r.segment }, r)
    | 4 => ({ regs with bx := link.ipHandle, cx := link.arpHandle, dx := link.interrupt.toUInt16 }, r)
    | 5 => ({ regs with si := (r.old .timer).offset, di := (r.old .timer).segment, cx := r.offset .timer,
                        dx := r.segment }, r)
    | 6 => ({ regs with bx := n.int08Entries, cx := n.int1cEntries, dx := n.int28Entries, si := n.workerRuns,
                        di := n.fallbackRuns }, r)
    | 7 => ({ regs with bx := n.busySkips, cx := n.receiveAllocations, dx := n.receiveCompletions, si := n.receiveDrops,
                        di := n.sendAttempts }, r)
    | 8 => ({ regs with bx := n.sendFailures, cx := n.receiveLastBiosTick, dx := r.state.lastWorkerBiosTick,
                        si := (m.inp 0x21).toUInt16 ||| ((m.inp 0xA1).toUInt16 <<< 8), di := n.receiveLength }, r)
    | 9 => ({ regs with cx := .ofNat (ratsrStackUsed r.stack), bx := .ofNat ratsrStackSize, dx := r.paragraphs,
                        si := .ofNat (ratsrStackGuardOk r.stack), di := .ofNat requestBufferSize }, r)
    | _ => ({ regs with ax := 0 }, r))

/-! ## The machine around it -/

structure World where
  /-- The handlers of each interrupt, the one in the vector first. -/
  chains : UInt8 → List Far
  /-- The program that the vectors may reach. -/
  resident : Option Resident
  /-- The statics of its `dmpacket.c`, and the packet driver. -/
  link : PacketLink
  /-- The PSPs of the memory blocks that stay allocated. -/
  blocks : List UInt16

namespace World

def getvect (w : World) (number : UInt8) : Far := (w.chains number).head?.getD .null

/-- `_dos_setvect`: a handler that is in the chain is first again, with what it chains to; a new
    one chains to what was in the vector. -/
def setvect (w : World) (number : UInt8) (handler : Far) : World :=
  let chain := w.chains number
  let chain := if handler ∈ chain then chain.dropWhile (· ≠ handler) else if handler = .null then [] else handler :: chain
  { w with chains := Function.update w.chains number chain }

/-- INT 2Fh from a program. -/
def int2f (w : World) (m : Machine) (regs : Regs) : Regs × World :=
  match w.resident with
  | none => (regs, w)
  | some r =>
    if r.handler .multiplex ∈ w.chains 0x2F then
      match ratsrMultiplexHandler m w.link r regs with
      | none => (regs, w)
      | some (regs, r) => (regs, { w with resident := some r })
    else (regs, w)

end World

/-! ## Installation -/

/-- `psp` to the end of the stack in paragraphs, or zero where they do not fit the block. -/
def residentParagraphCount (psp allocationEnd stackSegment stackTop : UInt16) : UInt16 :=
  if stackSegment < psp ∨ allocationEnd ≤ psp then 0
  else
    let paragraphs := stackSegment - psp + (stackTop >>> 4)
    let paragraphs := if stackTop &&& 15 ≠ 0 then paragraphs + 1 else paragraphs
    if paragraphs = 0 ∨ paragraphs > allocationEnd - psp then 0 else paragraphs

/-- What DOS gives the core as it starts. -/
structure Installation where
  environment : List (List Char)
  psp : UInt16
  segment : UInt16
  offset : Hooked → UInt16
  allocationEnd : UInt16
  stackSegment : UInt16
  stackTop : UInt16
  buffer : Memory
  stack : Nat → UInt8
  machine : Machine
  store : Store

def residentConfig (c : RatsrInstallConfig) (m : Machine) (address : Bytes) : Config where
  baseKey := c.key.val
  sandboxRoot := cString c.root.val
  agentName := cString c.name.val
  allowFileRead := c.flags &&& ratsrInstallRead ≠ 0
  allowFileWrite := c.flags &&& ratsrInstallWrite ≠ 0
  unrestrictedFilesystem := c.flags &&& ratsrInstallAllDrives ≠ 0
  discoveryOpenMode := c.flags &&& ratsrInstallOpenMode ≠ 0
  advertisedPort := c.port
  address := address
  cachedDosMajor := m.dosVersion.1
  cachedDosMinor := m.dosVersion.2
  cachedAdapter := m.detectAdapter m.videoMode
  agentStartTicks := m.readBiosTicks
  system := fun _ m => m

/-- `main` of the core with its configuration. -/
def residentInstall (configuration : RatsrInstallConfig) (i : Installation) (w : World) : Int × World :=
  let (output, w) := w.int2f i.machine ⟨ratsrMultiplex, 0, 0, 0, 0, 0⟩
  if output.ax = ratsrReply then (11, w)
  else
    let (result, link) := dmPacketOpen configuration.packetInterrupt (.start i.buffer w.link.driver)
    if result ≠ 0 then (20 - result, { w with link := link })
    else
      let old := fun v : Hooked => w.getvect v.number
      let paragraphs := residentParagraphCount i.psp i.allocationEnd i.stackSegment i.stackTop
      if paragraphs = 0 then (30, { w with link := dmPacketClose link })
      else
        let resident : Resident := {
          psp := i.psp, segment := i.segment, offset := i.offset, old := old
          config := residentConfig configuration i.machine link.hardwareAddress
          state := .start i.machine i.store, paragraphs := paragraphs, stack := ratsrPrimeStack i.stack }
        let w := { w with resident := some resident, link := link, blocks := i.psp :: w.blocks }
        let w := w.setvect 0x1C (resident.handler .idle)
        let w := w.setvect 0x08 (resident.handler .timer)
        let w := w.setvect 0x28 (resident.handler .dosIdle)
        (0, w.setvect 0x2F (resident.handler .multiplex))

/-- `main` of the core: its exit code, zero where it stays resident. -/
def residentMain (i : Installation) (w : World) : Int × World :=
  match loadInstallConfig i.environment with
  | none => (10, w)
  | some configuration => residentInstall configuration i w

/-! ## Unloading -/

/-- `uninstall_tsr` behind its checks: the packet driver is released, the vectors restored and
    the memory freed; `frees` is what DOS makes of the last. -/
def releaseResident (frees : Bool) (psp : UInt16) (ipHandle arpHandle : UInt16) (old : Hooked → Far) (w : World) : Nat × World :=
  let (result, driver) := dmPacketReleaseHandles w.link.driver ipHandle arpHandle
  let w := { w with link := { w.link with driver := driver } }
  if result ≠ 0 then (3, w)
  else
    let w := w.setvect 0x08 (old .timer)
    let w := w.setvect 0x1C (old .idle)
    let w := w.setvect 0x28 (old .dosIdle)
    let w := w.setvect 0x2F (old .multiplex)
    let w := { w with resident := none }
    if frees then (0, { w with blocks := w.blocks.erase psp }) else (4, w)

def uninstallTsr (m : Machine) (frees : Bool) (w : World) : Nat × World :=
  let (regs, w) := w.int2f m ⟨ratsrMultiplex, 0, 0, 0, 0, 0⟩
  if regs.ax ≠ ratsrReply then (1, w)
  else
    let psp := regs.bx
    let current08 := w.getvect 0x08
    let current1c := w.getvect 0x1C
    let current28 := w.getvect 0x28
    let current2f := w.getvect 0x2F
    if current1c ≠ ⟨regs.dx, regs.cx⟩ ∨ current2f ≠ ⟨regs.di, regs.si⟩ then (2, w)
    else
      let (regs, w) := w.int2f m { regs with ax := ratsrMultiplex, bx := 5 }
      if regs.ax ≠ ratsrReply ∨ current08 ≠ ⟨regs.dx, regs.cx⟩ then (2, w)
      else
        let old08 : Far := ⟨regs.di, regs.si⟩
        let (regs, w) := w.int2f m { regs with ax := ratsrMultiplex, bx := 3 }
        if regs.ax ≠ ratsrReply ∨ current28 ≠ ⟨regs.dx, regs.cx⟩ then (2, w)
        else
          let old28 : Far := ⟨regs.di, regs.si⟩
          let (regs, w) := w.int2f m { regs with ax := ratsrMultiplex, bx := 4 }
          if regs.ax ≠ ratsrReply then (3, w)
          else
            let ipHandle := regs.bx
            let arpHandle := regs.cx
            let (regs, w) := w.int2f m { regs with ax := ratsrMultiplex, bx := 1 }
            if regs.ax ≠ ratsrReply then (3, w)
            else
              let old := fun v : Hooked => match v with
                | .timer => old08
                | .idle => ⟨regs.dx, regs.cx⟩
                | .dosIdle => old28
                | .multiplex => ⟨regs.di, regs.si⟩
              releaseResident frees psp ipHandle arpHandle old w

end DosMcp.Dos
