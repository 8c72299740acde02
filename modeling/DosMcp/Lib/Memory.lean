/-
  DosMcp.Lib.Memory — byte-addressed memory: loads and stores of byte strings.
-/

import DosMcp.Lib.Bytes

namespace DosMcp.Lib

def Memory := Nat → UInt8

namespace Memory

/-- The `n` bytes from address `a` on. -/
def load (m : Memory) (a n : Nat) : Bytes := (List.range n).map fun i => m (a + i)

def store (m : Memory) (a : Nat) (bs : Bytes) : Memory := fun i =>
  if a ≤ i ∧ i < a + bs.length then byteAt bs (i - a) else m i

@[simp] theorem load_length (m : Memory) (a n : Nat) : (m.load a n).length = n := by
  simp [load]

@[simp] theorem load_zero (m : Memory) (a : Nat) : m.load a 0 = [] := rfl

theorem load_append (m : Memory) (a n k : Nat) : m.load a (n + k) = m.load a n ++ m.load (a + n) k := by
  simp [load, List.range_add, Nat.add_assoc, Function.comp_def]

/-- A slice of what was loaded. -/
theorem slice_load (m : Memory) (a n i k : Nat) : slice (m.load a n) i k = m.load (a + i) (min (n - i) k) := by
  apply List.ext_getElem
  · simp [slice_length, Nat.min_comm]
  · intro j h1 h2
    simp [slice, load, Nat.add_assoc]

theorem load_store_same (m : Memory) (a : Nat) (bs : Bytes) : (m.store a bs).load a bs.length = bs := by
  apply List.ext_getElem (by simp)
  intro i hi hbs
  simp [load, store, byteAt, hbs]

theorem load_store_disjoint (m : Memory) {a b n : Nat} {bs : Bytes} (h : a + n ≤ b ∨ b + bs.length ≤ a) :
    (m.store b bs).load a n = m.load a n := by
  refine List.map_congr_left fun i hi => ?_
  have hin : i < n := List.mem_range.mp hi
  exact if_neg (by omega)

/-- The memory has `bs` from address `a` on. -/
def Holds (m : Memory) (a : Nat) (bs : Bytes) : Prop := m.load a bs.length = bs

section

variable {m : Memory} {a : Nat}

theorem holds_nil : m.Holds a [] := rfl

theorem holds_append {xs ys : Bytes} : m.Holds a (xs ++ ys) ↔ m.Holds a xs ∧ m.Holds (a + xs.length) ys := by
  rw [Holds, List.length_append, load_append]
  constructor
  · intro h
    exact List.append_inj h (load_length m a xs.length)
  · rintro ⟨hxs, hys⟩
    rw [hxs, hys]

theorem holds_cons {b : UInt8} {bs : Bytes} : m.Holds a (b :: bs) ↔ m a = b ∧ m.Holds (a + 1) bs := by
  have hone : m.load a 1 = [m a] := rfl
  rw [← List.singleton_append, holds_append, Holds, List.length_singleton, hone, List.singleton_inj]

/-- A byte string as a memory. -/
theorem holds_bytes (bs : Bytes) : Holds (fun i => byteAt bs i) 0 bs := by
  apply List.ext_getElem (load_length _ _ _)
  intro i hi hbs
  simp [load, byteAt, hbs]

end

end Memory

end DosMcp.Lib
