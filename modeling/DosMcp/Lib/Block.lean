/-
  DosMcp.Lib.Block — memory of a fixed size, and strings that differ in one place of it.
-/

import DosMcp.Lib.Bytes

namespace DosMcp.Lib

/-- An array of `n` bytes. -/
abbrev Block (n : Nat) := { bs : Bytes // bs.length = n }

namespace Block

variable {n m : Nat}

theorem put_length (b : Block n) (bs : Bytes) : ((bs ++ b.val.drop bs.length).take n).length = n := by
  rw [List.length_take, List.length_append, List.length_drop, b.property]
  omega

theorem cons_length (x : UInt8) (b : Block n) : (x :: b.val).length = n + 1 := congrArg (· + 1) b.property

theorem set_length (b : Block n) (i : Nat) (x : UInt8) : (b.val.set i x).length = n := List.length_set.trans b.property

theorem part_length (b : Block n) {i : Nat} (h : i + m ≤ n) : (slice b.val i m).length = m :=
  slice_length_of_le (by rw [b.property]; exact h)

def zero (n : Nat) : Block n := ⟨List.replicate n 0, List.length_replicate⟩

def cons (x : UInt8) (b : Block n) : Block (n + 1) := ⟨x :: b.val, cons_length x b⟩

/-- `bs` copied to the front of the array. -/
def put (b : Block n) (bs : Bytes) : Block n := ⟨(bs ++ b.val.drop bs.length).take n, put_length b bs⟩

def set (b : Block n) (i : Nat) (x : UInt8) : Block n := ⟨b.val.set i x, set_length b i x⟩

def part (b : Block n) (i m : Nat) (h : i + m ≤ n) : Block m := ⟨slice b.val i m, part_length b h⟩

theorem byteAt_put {b : Block n} {bs : Bytes} (h : bs.length ≤ n) (i : Nat) :
    byteAt (b.put bs).val i = if i < bs.length then byteAt bs i else byteAt b.val i := by
  simp only [put, byteAt, List.getD_eq_getElem?_getD, List.getElem?_take]
  by_cases hi : i < bs.length
  · rw [if_pos (by omega), if_pos hi, List.getElem?_append_left hi]
  · rw [if_neg hi]
    by_cases hn : i < n
    · rw [if_pos hn, List.getElem?_append_right (by omega), List.getElem?_drop, Nat.add_sub_cancel' (by omega)]
    · rw [if_neg hn, List.getElem?_eq_none (by rw [b.property]; omega)]

theorem byteAt_set {b : Block n} {i : Nat} (h : i < n) (x : UInt8) (j : Nat) :
    byteAt (b.set i x).val j = if j = i then x else byteAt b.val j := by
  simp only [set, byteAt, List.getD_eq_getElem?_getD]
  by_cases hj : j = i
  · subst hj
    rw [if_pos rfl, List.getElem?_set_self (by rwa [b.property]), Option.getD_some]
  · rw [if_neg hj, List.getElem?_set_ne (Ne.symm hj)]

@[simp] theorem byteAt_zero (n i : Nat) : byteAt (zero n).val i = 0 := by
  simp [zero, byteAt, List.getD_eq_getElem?_getD, List.getElem?_replicate]
  split <;> rfl

end Block

/-! ## Damage -/

variable {α : Type} {i n : Nat} {as bs : List α}

theorem Damaged.of_take_drop (hlength : as.length = bs.length) (hdiffer : as ≠ bs) (htake : as.take i = bs.take i)
    (hdrop : as.drop (i + n) = bs.drop (i + n)) : Damaged i n as bs := by
  refine ⟨hlength, hdiffer, fun j hj => ?_⟩
  rcases hj with hj | hj
  · have := congrArg (·[j]?) htake
    simpa only [List.getElem?_take, if_pos hj] using this
  · have := congrArg (·[j - (i + n)]?) hdrop
    simpa only [List.getElem?_drop, Nat.add_sub_cancel' hj] using this

/-- The damage stays where a part that it spares is replaced. -/
theorem Damaged.replace (h : Damaged i n as bs) {j m : Nat} (hj : j + m ≤ i ∨ i + n ≤ j) {zs : List α} (hzs : zs.length = m)
    (hfits : j + m ≤ as.length) :
    Damaged i n (as.take j ++ zs ++ as.drop (j + m)) (bs.take j ++ zs ++ bs.drop (j + m)) := by
  have hlength := h.length_eq
  have hget : ∀ (cs : List α) (k : Nat), j + m ≤ cs.length →
      (cs.take j ++ zs ++ cs.drop (j + m))[k]? = if k < j ∨ j + m ≤ k then cs[k]? else zs[k - j]? := by
    intro cs k hcs
    have htake : (cs.take j).length = j := by rw [List.length_take]; omega
    rw [List.append_assoc]
    by_cases hk : k < j
    · rw [if_pos (Or.inl hk), List.getElem?_append_left (by omega), List.getElem?_take, if_pos hk]
    · rw [List.getElem?_append_right (by omega), htake]
      by_cases hkm : j + m ≤ k
      · rw [if_pos (Or.inr hkm), List.getElem?_append_right (by omega), List.getElem?_drop, hzs]
        congr 1
        omega
      · rw [if_neg (by omega), List.getElem?_append_left (by omega)]
  refine ⟨?_, ?_, ?_⟩
  · simp only [List.length_append, List.length_take, List.length_drop, hlength]
  · intro heq
    apply h.differ
    apply List.ext_getElem?
    intro k
    by_cases hk : k < j ∨ j + m ≤ k
    · have hat := congrArg (·[k]?) heq
      simpa only [hget as k hfits, hget bs k (by omega), if_pos hk] using hat
    · exact h.same k (by omega)
  · intro k hk
    rw [hget as k hfits, hget bs k (by omega), h.same k hk]

end DosMcp.Lib
