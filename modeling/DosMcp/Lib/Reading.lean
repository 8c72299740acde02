/-
  DosMcp.Lib.Reading — programs that read a memory one byte at a time, so that something
  else may run between two reads.

  `eval` runs a program at once. A program of which some reads are done is the program that
  is left (`rest`), and over a memory that has not changed it still comes to the same
  (`eval_byte`).
-/

import DosMcp.Lib.Memory

namespace DosMcp.Lib

inductive Reading (α : Type) where
  | done (value : α)
  | byte (address : Nat) (rest : UInt8 → Reading α)

namespace Reading

variable {α β : Type}

def eval (m : Memory) : Reading α → α
  | done value => value
  | byte address rest => (rest (m address)).eval m

def bind : Reading α → (α → Reading β) → Reading β
  | done value, next => next value
  | byte address rest, next => byte address fun b => (rest b).bind next

instance : Monad Reading where
  pure := done
  bind := bind

def read (address : Nat) : Reading UInt8 := byte address done

/-- `n` bytes from address `a` on. -/
def load (a : Nat) : Nat → Reading Bytes
  | 0 => pure []
  | n + 1 => do
    let b ← read a
    let bs ← load (a + 1) n
    pure (b :: bs)

variable (m : Memory)

@[simp] theorem eval_pure (value : α) : (pure value : Reading α).eval m = value := rfl

@[simp] theorem eval_done (value : α) : (done value).eval m = value := rfl

theorem eval_byte (address : Nat) (rest : UInt8 → Reading α) :
    (byte address rest).eval m = (rest (m address)).eval m := rfl

@[simp] theorem eval_read (address : Nat) : (read address).eval m = m address := (rfl)

@[simp] theorem eval_bind (p : Reading α) (next : α → Reading β) : (p >>= next).eval m = (next (p.eval m)).eval m := by
  show (p.bind next).eval m = _
  induction p with
  | done value => rfl
  | byte address rest ih => exact ih (m address)

@[simp] theorem eval_ite (c : Prop) [Decidable c] (p q : Reading α) :
    (if c then p else q).eval m = if c then p.eval m else q.eval m :=
  apply_ite (eval m) c p q

@[simp] theorem eval_load (a n : Nat) : (load a n).eval m = m.load a n := by
  induction n generalizing a with
  | zero => rfl
  | succ n ih =>
    rw [Nat.add_comm n 1, Memory.load_append, Nat.add_comm 1 n]
    simp [load, ih, Memory.load, List.range_succ]

end Reading

end DosMcp.Lib
