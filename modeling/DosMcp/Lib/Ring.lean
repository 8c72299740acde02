/-
  DosMcp.Lib.Ring — circular buffers: a head, a tail, and one slot that is never filled.

  - `Ring.push_unread`: what is pushed is read last, and nothing that is unread is lost.
  - `Ring.push_eq_none_iff`: a push is refused exactly when one slot is left.
  - `Ring.Grown`: what producers have done to a ring that nobody reads from.
  - `Ring.Grown.of_full`: a ring without room takes nothing from then on.
-/

import Mathlib.Algebra.Group.Fin.Basic
import Mathlib.Algebra.GroupWithZero.Nat
import Mathlib.Logic.Function.Basic

namespace DosMcp.Lib

structure Ring (α : Type) (n : Nat) where
  slots : Fin n → α
  head : Fin n
  tail : Fin n

namespace Ring

variable {α : Type} {n : Nat}

/-- The items between head and tail. -/
def count (r : Ring α n) : Nat := (r.tail - r.head).val

theorem count_lt (r : Ring α n) : r.count < n := (r.tail - r.head).isLt

variable [NeZero n]

/-- The items that wait, the oldest first. -/
def unread (r : Ring α n) : List α := (List.range r.count).map fun k => r.slots (r.head + Fin.ofNat n k)

def full (r : Ring α n) : Prop := r.tail + 1 = r.head

instance decidableFull (r : Ring α n) : Decidable r.full := inferInstanceAs (Decidable (_ = _))

/-- The item goes to the slot of the tail, and the tail to the next slot. -/
def push (r : Ring α n) (a : α) : Option (Ring α n) :=
  if r.full then none else some { r with slots := Function.update r.slots r.tail a, tail := r.tail + 1 }

theorem unread_length (r : Ring α n) : r.unread.length = r.count := by
  rw [unread, List.length_map, List.length_range]

theorem full_iff (r : Ring α n) : r.full ↔ r.count + 1 = n := by
  have hval : (r.tail - r.head + 1).val = (r.count + 1) % n := by
    rw [Fin.val_add, count, Fin.val_one', Nat.add_mod_mod]
  have hlt := r.count_lt
  have hzero : r.full ↔ r.tail - r.head + 1 = 0 := by
    rw [full, sub_add_eq_add_sub, sub_eq_zero]
  rw [hzero, ← Fin.val_inj, hval, Fin.val_zero]
  constructor
  · intro hmod
    by_contra hne
    rw [Nat.mod_eq_of_lt (by omega)] at hmod
    cases hmod
  · intro heq
    rw [heq, Nat.mod_self]

theorem push_eq_none_iff {r : Ring α n} {a : α} : r.push a = none ↔ r.full := by
  unfold push
  split <;> simp [*]

theorem full_push {r : Ring α n} (h : r.full) (a : α) : r.push a = none := push_eq_none_iff.mpr h

variable {r r' : Ring α n} {a : α}

theorem push_head (h : r.push a = some r') : r'.head = r.head := by
  unfold push at h
  split at h
  · cases h
  · cases h
    rfl

theorem push_unread (h : r.push a = some r') : r'.unread = r.unread ++ [a] := by
  have hfull : ¬ r.full := by
    intro hfull
    rw [full_push hfull] at h
    cases h
  rw [push, if_neg hfull] at h
  cases h
  have hlt := r.count_lt
  have hroom : r.count + 1 < n := by
    rw [full_iff] at hfull
    omega
  have hcount : count { r with slots := Function.update r.slots r.tail a, tail := r.tail + 1 } = r.count + 1 := by
    show (r.tail + 1 - r.head).val = r.count + 1
    rw [add_sub_right_comm, Fin.val_add, Fin.val_one', Nat.add_mod_mod]
    exact Nat.mod_eq_of_lt hroom
  have htail : r.head + Fin.ofNat n r.count = r.tail := by
    have hdistance : Fin.ofNat n r.count = r.tail - r.head := Fin.ext (Nat.mod_eq_of_lt hlt)
    rw [hdistance, add_sub_cancel]
  rw [unread, hcount, List.range_succ, List.map_append, List.map_singleton]
  dsimp only
  rw [htail, Function.update_self]
  congr 1
  apply List.map_congr_left
  intro k hk
  have hbefore : k < r.count := List.mem_range.mp hk
  -- the slot of an unread item is not that of the tail
  refine Function.update_of_ne ?_ _ _
  intro hslot
  rw [← htail, add_left_cancel_iff] at hslot
  have hsame := congrArg Fin.val hslot
  simp only [Fin.val_ofNat] at hsame
  rw [Nat.mod_eq_of_lt (hbefore.trans hlt), Nat.mod_eq_of_lt hlt] at hsame
  omega

/-! ## A reader -/

/-- The item at the head is taken. -/
def pop (r : Ring α n) : Ring α n := { r with head := r.head + 1 }

theorem unread_eq_nil_iff {r : Ring α n} : r.unread = [] ↔ r.head = r.tail := by
  rw [← List.length_eq_zero_iff, unread_length, count, Fin.val_eq_zero_iff, sub_eq_zero, eq_comm]

/-- The reader gets the oldest item, and the others stay. -/
theorem unread_pop {rest : List α} (h : r.unread = a :: rest) : r.slots r.head = a ∧ r.pop.unread = rest := by
  have hlt := r.count_lt
  have hlength := congrArg List.length h
  rw [unread_length, List.length_cons] at hlength
  have hpop : r.pop.count = rest.length := by
    show (r.tail - (r.head + 1)).val = rest.length
    have hstep : r.tail - r.head = r.tail - (r.head + 1) + 1 := by rw [sub_add_eq_sub_sub, sub_add_cancel]
    have hval : r.count = ((r.tail - (r.head + 1)).val + 1) % n := by
      rw [count, hstep, Fin.val_add, Fin.val_one', Nat.add_mod_mod]
    have hbound := (r.tail - (r.head + 1)).isLt
    rcases Nat.lt_or_ge ((r.tail - (r.head + 1)).val + 1) n with hsmall | hlarge
    · rw [Nat.mod_eq_of_lt hsmall] at hval
      omega
    · rw [show (r.tail - (r.head + 1)).val + 1 = n by omega, Nat.mod_self] at hval
      omega
  rw [unread, hlength, List.range_succ_eq_map, List.map_cons, List.map_map] at h
  obtain ⟨hhead, hrest⟩ := List.cons.inj h
  constructor
  · rwa [Fin.ofNat_zero, add_zero] at hhead
  · rw [unread, hpop, ← hrest, List.length_map, List.length_range]
    refine List.map_congr_left fun k _ => ?_
    have hsucc : Fin.ofNat n (k + 1) = 1 + Fin.ofNat n k := by
      apply Fin.ext
      rw [Fin.val_add, Fin.val_one', Fin.val_ofNat, Fin.val_ofNat, Nat.add_mod_mod, Nat.mod_add_mod, Nat.add_comm]
    show r.slots (r.head + 1 + Fin.ofNat n k) = r.slots (r.head + Fin.ofNat n (k + 1))
    rw [hsucc, add_assoc]

/-! ## Producers without a reader -/

/-- `items` were appended to `r`, in this order. -/
structure Grown (r r' : Ring α n) (items : List α) : Prop where
  head_eq : r'.head = r.head
  unread_eq : r'.unread = r.unread ++ items

namespace Grown

theorem refl (r : Ring α n) : Grown r r [] := ⟨rfl, (List.append_nil _).symm⟩

theorem trans {r'' : Ring α n} {items items' : List α} (h : Grown r r' items) (h' : Grown r' r'' items') :
    Grown r r'' (items ++ items') := by
  refine ⟨h'.head_eq.trans h.head_eq, ?_⟩
  rw [h'.unread_eq, h.unread_eq, List.append_assoc]

theorem of_push (h : r.push a = some r') : Grown r r' [a] := ⟨push_head h, push_unread h⟩

theorem count_eq {items : List α} (h : Grown r r' items) : r'.count = r.count + items.length := by
  rw [← unread_length, h.unread_eq, List.length_append, unread_length]

theorem of_full {items : List α} (h : Grown r r' items) (hfull : r.full) : items = [] ∧ r'.full := by
  have hcount := h.count_eq
  have hlt := r'.count_lt
  rw [full_iff] at hfull ⊢
  constructor
  · apply List.eq_nil_of_length_eq_zero
    omega
  · omega

end Grown

end Ring

end DosMcp.Lib
