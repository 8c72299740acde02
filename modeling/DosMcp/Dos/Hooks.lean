/-
  DosMcp.Dos.Hooks — the resident interrupt handlers of `ratsr_hooks.asm`: `INT 08h`,
  `INT 1Ch` and `INT 28h`, instruction by instruction.

  A state is the processor with the variables the handlers use, and the nest of what is
  running: the interrupted program at the bottom and, above it, each activation of a
  handler, the C worker it called, or other code (the previous owner of a vector). An entry
  may come between any two instructions while interrupts are enabled, and other code may
  enter a handler whenever it likes. Of other code it is taken that it leaves the variables
  of this file that are not public alone, that the worker returns with `SS:SP` and `DS` as
  they were, and that a previous handler returns by `IRET` with the registers and the stack
  it was entered with.

  A word on the stack is kept with its address: a pop that does not meet the last push
  there, or data addressed through another `DS`, does not execute.
-/

import DosMcp.Lib.Nest
import Mathlib.Logic.Function.Basic

namespace DosMcp.Dos.Hooks

abbrev Word := UInt16

inductive Reg where
  | ax | bx | cx | dx | si | di | bp | ds | es | ss | sp
  deriving DecidableEq, Repr

/-- The variables of `ratsr_hooks.asm` and its counters in `ragent.c`. -/
inductive Var where
  | int08Entries
  | int1cEntries
  | int28Entries
  | workerRuns
  | fallbackRuns
  | busySkips
  | savedSs
  | savedSp
  | idleActive
  | int08Int1cBefore
  deriving DecidableEq, Repr

/-- `saved_ss`, `saved_sp`, `idle_active` and `int08_int1c_before` are not public. -/
def Var.isPrivate : Var → Bool
  | .savedSs | .savedSp | .idleActive | .int08Int1cBefore => true
  | _ => false

/-- `int08_int1c_before` lies in the code segment. -/
def Var.inCode : Var → Bool
  | .int08Int1cBefore => true
  | _ => false

inductive Hook where
  | int08
  | int1c
  | int28
  deriving DecidableEq, Repr

inductive Imm where
  | value (w : Word)
  | dgroup
  | residentTop
  deriving DecidableEq, Repr

inductive Instr where
  | push (r : Reg)
  | pop (r : Reg)
  | movImm (r : Reg) (i : Imm)
  | mov (dst src : Reg)
  | load (r : Reg) (v : Var)
  | store (v : Var) (r : Reg)
  | set (v : Var) (w : Word)
  | inc (v : Var)
  | cmp (r : Reg) (v : Var)
  | cmpZero (v : Var)
  | jne (target : Nat)
  | jmp (target : Nat)
  /-- `xor r,r`. -/
  | clear (r : Reg)
  | cli
  | sti
  | cld
  | pushf
  /-- `call dword ptr cs:[chain_int08]`. -/
  | callOld
  /-- `call ratsr_idle_worker_`. -/
  | callWorker
  /-- `jmp dword ptr cs:[chain_...]`. -/
  | jmpOld
  | iret
  deriving DecidableEq, Repr

/-! ## The code -/

/-- `ratsr_timer_handler_`. -/
def ratsrTimerHandler : List Instr := [
  .push .ax,
  .push .ds,
  .movImm .ax .dgroup,
  .mov .ds .ax,
  .inc .int08Entries,
  .load .ax .int1cEntries,
  .store .int08Int1cBefore .ax,
  .pop .ds,
  .pop .ax,
  .pushf,
  .callOld,
  .push .ax,
  .push .bx,
  .push .cx,
  .push .dx,
  .push .si,
  .push .di,
  .push .bp,
  .push .ds,
  .push .es,
  .movImm .ax .dgroup,
  .mov .ds .ax,
  .load .bx .int1cEntries,
  .cmp .bx .int08Int1cBefore,
  .jne 46,
  .cmpZero .idleActive,
  .jne 45,
  .set .idleActive 1,
  .inc .workerRuns,
  .inc .fallbackRuns,
  .store .savedSs .ss,
  .store .savedSp .sp,
  .cli,
  .mov .ss .ax,
  .movImm .sp .residentTop,
  .cld,
  .sti,
  .clear .ax,
  .callWorker,
  .cli,
  .load .ax .savedSs,
  .mov .ss .ax,
  .load .sp .savedSp,
  .set .idleActive 0,
  .jmp 46,
  -- timer_busy
  .inc .busySkips,
  -- timer_done
  .pop .es,
  .pop .ds,
  .pop .bp,
  .pop .di,
  .pop .si,
  .pop .dx,
  .pop .cx,
  .pop .bx,
  .pop .ax,
  .iret]

/-- The text that `ratsr_idle_handler_` and `ratsr_dos_idle_handler_` share: the counter of
    entries and the worker's argument are their own. -/
def idleHandler (entries : Var) (argument : Instr) : List Instr := [
  .push .ax,
  .push .bx,
  .push .cx,
  .push .dx,
  .push .si,
  .push .di,
  .push .bp,
  .push .ds,
  .push .es,
  .movImm .ax .dgroup,
  .mov .ds .ax,
  .inc entries,
  .cmpZero .idleActive,
  .jne 31,
  .set .idleActive 1,
  .inc .workerRuns,
  .store .savedSs .ss,
  .store .savedSp .sp,
  .cli,
  .mov .ss .ax,
  .movImm .sp .residentTop,
  .cld,
  .sti,
  argument,
  .callWorker,
  .cli,
  .load .ax .savedSs,
  .mov .ss .ax,
  .load .sp .savedSp,
  .set .idleActive 0,
  .jmp 32,
  -- idle_busy
  .inc .busySkips,
  -- idle_chain
  .pop .es,
  .pop .ds,
  .pop .bp,
  .pop .di,
  .pop .si,
  .pop .dx,
  .pop .cx,
  .pop .bx,
  .pop .ax,
  .jmpOld]

def ratsrIdleHandler : List Instr := idleHandler .int1cEntries (.clear .ax)

def ratsrDosIdleHandler : List Instr := idleHandler .int28Entries (.movImm .ax (.value 1))

def code : Hook → List Instr
  | .int08 => ratsrTimerHandler
  | .int1c => ratsrIdleHandler
  | .int28 => ratsrDosIdleHandler

/-! ## The machine -/

/-- The two link-time constants. -/
structure Segments where
  dgroup : Word
  residentTop : Word

def Segments.imm (m : Segments) : Imm → Word
  | .value w => w
  | .dgroup => m.dgroup
  | .residentTop => m.residentTop

/-- The interrupt and zero flags. -/
structure Flags where
  interrupts : Bool
  zero : Bool
  deriving DecidableEq, Repr

structure Cpu where
  regs : Reg → Word
  flags : Flags
  vars : Var → Word

/-- `r := w`. -/
def Cpu.reg (c : Cpu) (r : Reg) (w : Word) : Cpu := { c with regs := Function.update c.regs r w }

def Cpu.var (c : Cpu) (v : Var) (w : Word) : Cpu := { c with vars := Function.update c.vars v w }

def Cpu.zero (c : Cpu) (z : Bool) : Cpu := { c with flags := { c.flags with zero := z } }

def Cpu.interrupts (c : Cpu) (i : Bool) : Cpu := { c with flags := { c.flags with interrupts := i } }

/-- Data is addressed through `DS`, the code segment's through `CS`. -/
def Cpu.reaches (c : Cpu) (m : Segments) (v : Var) : Bool := v.inCode || c.regs .ds = m.dgroup

inductive Cell where
  | word (w : Word)
  | flags (f : Flags)
  deriving DecidableEq, Repr

/-- A word on the stack, at `ss:sp`. -/
structure Slot where
  ss : Word
  sp : Word
  cell : Cell
  deriving DecidableEq, Repr

/-- An activation of a handler: what it pushed, and the registers and flags it was entered
    with (the flags lie at `SS:SP`, above the return address). -/
structure Frame where
  hook : Hook
  pc : Nat
  stack : List Slot
  entered : Reg → Word
  flags : Flags

inductive Context where
  | handler (f : Frame)
  /-- `ratsr_idle_worker(dosIdle)`, called with these registers. -/
  | worker (dosIdle : Word) (called : Reg → Word)
  /-- Other code that was entered as an interrupt handler and will resume with these
      registers and flags. -/
  | chained (resume : Reg → Word) (flags : Flags)
  /-- The interrupted program. -/
  | program

structure State where
  cpu : Cpu
  nest : List Context

def Frame.next (f : Frame) : Option Instr := (code f.hook)[f.pc]?

def Frame.step (f : Frame) : Frame := { f with pc := f.pc + 1 }

def Frame.pushed (f : Frame) (c : Cpu) (cell : Cell) : Frame :=
  { f with stack := ⟨c.regs .ss, c.regs .sp - 2, cell⟩ :: f.stack }

def Context.isHandler : Context → Bool
  | .handler _ => true
  | _ => false

def Context.isWorker : Context → Bool
  | .worker _ _ => true
  | _ => false

/-- An instruction that stays in the handler. -/
def exec (m : Segments) (c : Cpu) (f : Frame) : Instr → Option (Cpu × Frame)
  | .push r => some (c.reg .sp (c.regs .sp - 2), (f.pushed c (.word (c.regs r))).step)
  | .pop r => match f.stack with
    | ⟨ss, sp, .word w⟩ :: stack =>
      if ss = c.regs .ss ∧ sp = c.regs .sp then some ((c.reg .sp (sp + 2)).reg r w, { f with stack }.step) else none
    | _ => none
  | .movImm r i => some (c.reg r (m.imm i), f.step)
  | .mov dst src => some (c.reg dst (c.regs src), f.step)
  | .load r v => if c.reaches m v then some (c.reg r (c.vars v), f.step) else none
  | .store v r => if c.reaches m v then some (c.var v (c.regs r), f.step) else none
  | .set v w => if c.reaches m v then some (c.var v w, f.step) else none
  | .inc v => if c.reaches m v then some ((c.var v (c.vars v + 1)).zero (c.vars v + 1 = 0), f.step) else none
  | .cmp r v => if c.reaches m v then some (c.zero (c.regs r = c.vars v), f.step) else none
  | .cmpZero v => if c.reaches m v then some (c.zero (c.vars v = 0), f.step) else none
  | .jne target => some (c, if c.flags.zero then f.step else { f with pc := target })
  | .jmp target => some (c, { f with pc := target })
  | .clear r => some ((c.reg r 0).zero true, f.step)
  | .cli => some (c.interrupts false, f.step)
  | .sti => some (c.interrupts true, f.step)
  | .cld => some (c, f.step)
  | .pushf => some (c.reg .sp (c.regs .sp - 2), (f.pushed c (.flags c.flags)).step)
  | .callOld | .callWorker | .jmpOld | .iret => none

/-- `SS:SP` is where the handler was entered: the return address and the flags lie there. -/
def Frame.atEntry (f : Frame) (c : Cpu) : Prop := c.regs .ss = f.entered .ss ∧ c.regs .sp = f.entered .sp

instance (f : Frame) (c : Cpu) : Decidable (f.atEntry c) :=
  inferInstanceAs (Decidable (c.regs .ss = f.entered .ss ∧ c.regs .sp = f.entered .sp))

/-- The registers with `n` more bytes popped. -/
def popped (regs : Reg → Word) (n : Word) : Reg → Word := Function.update regs .sp (regs .sp + n)

inductive Step (m : Segments) : State → State → Prop
  | exec {c c' : Cpu} {f f' : Frame} {i : Instr} (below : List Context) :
      f.next = some i → exec m c f i = some (c', f') → Step m ⟨c, .handler f :: below⟩ ⟨c', .handler f' :: below⟩
  /-- The flags pushed before the far call are what its `IRET` will pop. -/
  | callOld {c : Cpu} {f : Frame} {flags : Flags} {stack : List Slot} (below : List Context) :
      f.next = some .callOld → f.stack = ⟨c.regs .ss, c.regs .sp, .flags flags⟩ :: stack →
      Step m ⟨c, .handler f :: below⟩
        ⟨c.reg .sp (c.regs .sp - 4), .chained (popped c.regs 2) flags :: .handler { f with stack }.step :: below⟩
  | callWorker {c : Cpu} {f : Frame} (below : List Context) : f.next = some .callWorker →
      Step m ⟨c, .handler f :: below⟩
        ⟨c.reg .sp (c.regs .sp - 2), .worker (c.regs .ax) c.regs :: .handler f.step :: below⟩
  | jmpOld {c : Cpu} {f : Frame} (below : List Context) : f.next = some .jmpOld → f.atEntry c →
      Step m ⟨c, .handler f :: below⟩ ⟨c, .chained (popped c.regs 6) f.flags :: below⟩
  | iret {c : Cpu} {f : Frame} (below : List Context) : f.next = some .iret → f.atEntry c →
      Step m ⟨c, .handler f :: below⟩ ⟨⟨popped c.regs 6, f.flags, c.vars⟩, below⟩
  /-- An interrupt, which clears the interrupt flag, or an entry by other code. -/
  | enter {c : Cpu} {d : Context} (h : Hook) (i : Bool) (below : List Context) :
      (c.flags.interrupts = true ∧ i = false) ∨ d.isHandler = false →
      Step m ⟨c, d :: below⟩
        ⟨(c.reg .sp (c.regs .sp - 6)).interrupts i,
          .handler ⟨h, 0, [], Function.update c.regs .sp (c.regs .sp - 6), c.flags⟩ :: d :: below⟩
  | other {c c' : Cpu} {d : Context} (below : List Context) : d.isHandler = false →
      (∀ v, v.isPrivate → c'.vars v = c.vars v) → Step m ⟨c, d :: below⟩ ⟨c', d :: below⟩
  | workerReturn {c : Cpu} {dosIdle : Word} {called regs : Reg → Word} (flags : Flags) (below : List Context) :
      regs .ss = called .ss → regs .sp = called .sp → regs .ds = called .ds →
      Step m ⟨c, .worker dosIdle called :: below⟩ ⟨⟨regs, flags, c.vars⟩, below⟩
  | chainedReturn {c : Cpu} {resume : Reg → Word} {flags : Flags} (below : List Context) :
      Step m ⟨c, .chained resume flags :: below⟩ ⟨⟨resume, flags, c.vars⟩, below⟩

/-- The program is interrupted for the first time with `idle_active` as the loader left it. -/
inductive Reachable (m : Segments) : State → Prop
  | start {c : Cpu} : c.vars .idleActive = 0 → Reachable m ⟨c, [.program]⟩
  | step {s s' : State} : Reachable m s → Step m s s' → Reachable m s'

/-- The step of a running handler. -/
def advance (m : Segments) (s : State) : Option State :=
  match s.nest with
  | .handler f :: below => match f.next, f.stack with
    | some .callOld, ⟨ss, sp, .flags flags⟩ :: stack =>
      if ss = s.cpu.regs .ss ∧ sp = s.cpu.regs .sp then
        some ⟨s.cpu.reg .sp (s.cpu.regs .sp - 4),
          .chained (popped s.cpu.regs 2) flags :: .handler { f with stack }.step :: below⟩
      else none
    | some .callWorker, _ =>
      some ⟨s.cpu.reg .sp (s.cpu.regs .sp - 2), .worker (s.cpu.regs .ax) s.cpu.regs :: .handler f.step :: below⟩
    | some .jmpOld, _ =>
      if f.atEntry s.cpu then some ⟨s.cpu, .chained (popped s.cpu.regs 6) f.flags :: below⟩ else none
    | some .iret, _ =>
      if f.atEntry s.cpu then some ⟨⟨popped s.cpu.regs 6, f.flags, s.cpu.vars⟩, below⟩ else none
    | some i, _ => (exec m s.cpu f i).map fun r => ⟨r.1, .handler r.2 :: below⟩
    | none, _ => none
  | _ => none

/-- An interrupt by hook `h`. -/
def interrupted (h : Hook) (s : State) : State :=
  ⟨(s.cpu.reg .sp (s.cpu.regs .sp - 6)).interrupts false,
    .handler ⟨h, 0, [], Function.update s.cpu.regs .sp (s.cpu.regs .sp - 6), s.cpu.flags⟩ :: s.nest⟩

/-- `n` steps of the running handler. -/
def advances (m : Segments) : Nat → State → State
  | 0, s => s
  | n + 1, s => advances m n ((advance m s).getD s)

end DosMcp.Dos.Hooks
