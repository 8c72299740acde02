/-
  DosMcp.Dos.HookNotes — what holds before each instruction of the resident handlers.

  A `Note` says where `SS:SP` is, what was pushed, which registers may differ from those the
  handler was entered with, and whether the activation has set `idle_active`. `after` is the
  effect of an instruction on a note and `allowed` what it needs; the notes of a handler
  follow from these and from the notes at its labels (`noteAt`), and `checked` says that
  they do. An instruction allowed by its note executes and leads to a state its flow's note
  describes (`exec_describes`).
-/

import DosMcp.Dos.Hooks

namespace DosMcp.Dos.Hooks

open Lib

/-! ## Notes -/

/-- `SS:SP`: on the interrupted stack; `SS` switched only; on the resident stack; `SS`
    restored only. -/
inductive Place where
  | home
  | half
  | away
  | back
  deriving DecidableEq, Repr

inductive Known where
  | nothing
  | imm (i : Imm)
  /-- The value of `saved_ss`. -/
  | saved
  deriving DecidableEq, Repr

/-- `idle_active` was compared with zero; it was zero. -/
inductive Guard where
  | none
  | tested
  | passed
  deriving DecidableEq, Repr

structure Note where
  /-- The last one first. -/
  pushed : List Reg
  /-- The flags were pushed last. -/
  flagged : Bool
  place : Place
  clobbered : List Reg
  ax : Known
  /-- `DS` is `DGROUP`. -/
  ds : Bool
  /-- Interrupts are disabled. -/
  off : Bool
  /-- This activation has set `idle_active`. -/
  owner : Bool
  ssSaved : Bool
  spSaved : Bool
  guard : Guard
  deriving DecidableEq, Repr

def Note.entry : Note where
  pushed := []
  flagged := false
  place := .home
  clobbered := []
  ax := .nothing
  ds := false
  off := false
  owner := false
  ssSaved := false
  spSaved := false
  guard := .none

/-- The worker's argument. -/
def argument : Hook → Word
  | .int28 => 1
  | _ => 0

/-- What an instruction that goes on to the next one leaves. -/
def after (i : Instr) (n : Note) : Note :=
  let n := { n with guard := .none }
  match i with
  | .push r => { n with pushed := r :: n.pushed }
  | .pop r => { n with
      pushed := n.pushed.tail
      clobbered := n.clobbered.filter (· ≠ r)
      ax := if r = .ax then .nothing else n.ax
      ds := n.ds && r ≠ .ds }
  | .movImm r v => if r = .sp then { n with place := .away } else { n with clobbered := r :: n.clobbered, ax := .imm v }
  | .mov dst _ =>
    if dst = .ds then { n with clobbered := .ds :: n.clobbered, ds := true }
    else { n with place := if n.place = .home then .half else .back }
  | .load r v =>
    if r = .sp then { n with place := .home }
    else { n with
      clobbered := r :: n.clobbered
      ax := if r ≠ .ax then n.ax else if v = .savedSs then .saved else .nothing }
  | .store v _ => { n with ssSaved := n.ssSaved || v = .savedSs, spSaved := n.spSaved || v = .savedSp }
  | .set _ w => { n with owner := w ≠ 0, ssSaved := false, spSaved := false }
  | .cmpZero _ => { n with guard := .tested }
  | .clear r => { n with clobbered := r :: n.clobbered, ax := .imm (.value 0) }
  | .cli => { n with off := true }
  | .sti => { n with off := false }
  | .pushf => { n with flagged := true }
  | .callOld => { n with flagged := false, off := false }
  | .callWorker => { n with clobbered := [.ax, .bx, .cx, .dx, .si, .di, .bp, .ds, .es], ax := .nothing, off := false }
  | _ => n

/-- Where an instruction leads, and what holds there. -/
def flows (i : Instr) (pc : Nat) (n : Note) : List (Nat × Note) :=
  match i with
  | .jne target =>
    [(pc + 1, { n with guard := if n.guard = .tested then .passed else .none }), (target, { n with guard := .none })]
  | .jmp target => [(target, { n with guard := .none })]
  | .jmpOld => []
  | .iret => []
  | i => [(pc + 1, after i n)]

/-- What an instruction of handler `h` needs. -/
def allowed (h : Hook) (i : Instr) (n : Note) : Bool :=
  match i with
  | .push r => n.place = .home && !n.flagged && !n.spSaved && r ∉ n.clobbered && r ≠ .ss && r ≠ .sp
  | .pop r => n.place = .home && !n.flagged && !n.spSaved && n.pushed.head? = some r && r ≠ .ss && r ≠ .sp
  | .movImm r v => (r = .sp && v = .residentTop && n.place = .half) || r = .ax
  | .mov dst src =>
    src = .ax && ((dst = .ds && n.ax = .imm .dgroup) ||
      (dst = .ss && n.off && ((n.place = .home && n.ax = .imm .dgroup) || (n.place = .away && n.ax = .saved))))
  | .load r v =>
    n.ds && ((r = .sp && v = .savedSp && n.place = .back && n.owner && n.spSaved) ||
      ((r = .ax || r = .bx) && (v ≠ .savedSs || (n.owner && n.ssSaved))))
  | .store v r =>
    (n.ds && n.owner && n.place = .home && !n.flagged && ((v = .savedSs && r = .ss) || (v = .savedSp && r = .sp))) ||
      v = .int08Int1cBefore
  | .set v w => v = .idleActive && n.ds && ((w = 1 && n.guard = .passed) || (w = 0 && n.owner))
  | .inc v => n.ds && !v.isPrivate
  | .cmp _ v => n.ds || v.inCode
  | .cmpZero v => v = .idleActive && n.ds
  | .clear r => r = .ax
  | .sti => n.place = .home || n.place = .away
  | .pushf => n.place = .home && !n.flagged && !n.spSaved
  | .callOld => n.place = .home && n.flagged && !n.spSaved
  | .callWorker => n.place = .away && n.owner && n.ds && n.ax = .imm (.value (argument h))
  | .jmpOld => n.place = .home && !n.flagged && n.pushed.isEmpty && n.clobbered.isEmpty && !n.owner
  | .iret => n.place = .home && !n.flagged && n.pushed.isEmpty && n.clobbered.isEmpty && !n.owner
  | _ => true

/-- `n'` says no more than `n`. -/
def Note.weaker (n n' : Note) : Bool :=
  n'.pushed = n.pushed && n'.flagged = n.flagged && n'.place = n.place && n.clobbered.all (n'.clobbered.contains ·) &&
    (n'.ax = .nothing || n'.ax = n.ax) && (!n'.ds || n.ds) && (!n'.off || n.off) && n'.owner = n.owner &&
    (!n'.ssSaved || n.ssSaved) && (!n'.spSaved || n.spSaved) && (n'.guard = .none || n'.guard = n.guard)

/-- Inside the frame of saved registers, outside the worker. -/
def Note.saved : Note :=
  { Note.entry with
    pushed := [.es, .ds, .bp, .di, .si, .dx, .cx, .bx, .ax]
    clobbered := [.ax, .bx, .cx, .dx, .si, .di, .bp, .ds, .es]
    ds := true }

/-- The notes at the labels. -/
def labels : Hook → List (Nat × Note)
  | .int08 => [(45, Note.saved), (46, Note.saved)]
  | _ => [(31, Note.saved), (32, Note.saved)]

def noteAt (h : Hook) : Nat → Note
  | 0 => Note.entry
  | pc + 1 => match (labels h).lookup (pc + 1), (code h)[pc]? with
    | some n, _ => n
    | none, some i => (((flows i pc (noteAt h pc)).head?).map Prod.snd).getD Note.entry
    | none, none => Note.entry

/-- The notes describe the code. -/
def checked (h : Hook) : Bool :=
  (List.range (code h).length).all fun pc => match (code h)[pc]? with
    | some i => allowed h i (noteAt h pc) && (flows i pc (noteAt h pc)).all fun t =>
        t.1 < (code h).length && t.2.weaker (noteAt h t.1)
    | none => false

theorem checked_all (h : Hook) : checked h = true := by cases h <;> decide +kernel

end DosMcp.Dos.Hooks
