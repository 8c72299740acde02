/-
  DosMcp.Lib.OnesComplement — sums with end-around carry in base `b`.

  A sum is folded by adding what is carried out of its low digit back in, until it is a digit.
  Zero stays zero; any other sum ends at its remainder modulo `b - 1`, with `b - 1` for a
  multiple of it (`residue`).

  - `residue_round`: one fold keeps the residue.
  - `residue_complement`: a sum and the complement of its residue come to `b - 1`, the other zero.
-/

import Mathlib.Data.Nat.ModEq

namespace DosMcp.Lib

/-- The digit that the folds of `n` end at. -/
def residue (b n : Nat) : Nat := if n = 0 then 0 else (n - 1) % (b - 1) + 1

variable {b n : Nat}

@[simp] theorem residue_zero (b : Nat) : residue b 0 = 0 := rfl

theorem residue_of_pos (h : 0 < n) : residue b n = (n - 1) % (b - 1) + 1 := if_neg (Nat.ne_of_gt h)

theorem residue_lt (hb : 2 ≤ b) (n : Nat) : residue b n < b := by
  rcases Nat.eq_zero_or_pos n with rfl | hn
  · rw [residue_zero]
    omega
  · have hmod := Nat.mod_lt (n - 1) (show b - 1 > 0 by omega)
    rw [residue_of_pos hn]
    omega

/-- A digit is its own residue. -/
theorem residue_of_lt (h : n < b) : residue b n = n := by
  rcases Nat.eq_zero_or_pos n with rfl | hn
  · rfl
  · rw [residue_of_pos hn, Nat.mod_eq_of_lt (by omega)]
    omega

theorem residue_modEq (b n : Nat) : residue b n ≡ n [MOD b - 1] := by
  rcases Nat.eq_zero_or_pos n with rfl | hn
  · rfl
  · have hmod := (Nat.mod_modEq (n - 1) (b - 1)).add_right 1
    rw [Nat.sub_add_cancel hn] at hmod
    rw [residue_of_pos hn]
    exact hmod

/-- Positive numbers that are congruent have the same residue. -/
theorem residue_congr {m : Nat} (hm : 0 < m) (hn : 0 < n) (h : m ≡ n [MOD b - 1]) : residue b m = residue b n := by
  have hpred : m - 1 ≡ n - 1 [MOD b - 1] := by
    apply Nat.ModEq.add_right_cancel' 1
    rw [Nat.sub_add_cancel hm, Nat.sub_add_cancel hn]
    exact h
  rw [residue_of_pos hm, residue_of_pos hn, hpred]

theorem base_modEq_one (hb : 1 ≤ b) : b ≡ 1 [MOD b - 1] := by
  have hself : 1 + (b - 1) ≡ 1 [MOD b - 1] := Nat.add_modEq_right
  rwa [Nat.add_sub_cancel' hb] at hself

theorem residue_round (hb : 1 ≤ b) (n : Nat) : residue b (n % b + n / b) = residue b n := by
  rcases Nat.eq_zero_or_pos n with rfl | hn
  · rw [Nat.zero_mod, Nat.zero_div]
  have hdivide := Nat.mod_add_div n b
  have hpos : 0 < n % b + n / b := by
    by_contra hzero
    obtain ⟨hmod, hdiv⟩ := Nat.add_eq_zero_iff.mp (Nat.eq_zero_of_not_pos hzero)
    rw [hmod, hdiv, Nat.mul_zero] at hdivide
    omega
  apply residue_congr hpos hn
  calc n % b + n / b = n % b + 1 * (n / b) := by rw [Nat.one_mul]
    _ ≡ n % b + b * (n / b) [MOD b - 1] := ((base_modEq_one hb).symm.mul_right _).add_left _
    _ = n := hdivide

theorem residue_complement (hb : 2 ≤ b) (n : Nat) : residue b (n + (b - 1 - residue b n)) = b - 1 := by
  have hlt := residue_lt hb n
  have hpos : 0 < n + (b - 1 - residue b n) := by
    rcases Nat.eq_zero_or_pos n with rfl | hn
    · rw [residue_zero]
      omega
    · omega
  have hmod : n + (b - 1 - residue b n) ≡ b - 1 [MOD b - 1] := by
    calc n + (b - 1 - residue b n) ≡ residue b n + (b - 1 - residue b n) [MOD b - 1] := (residue_modEq b n).symm.add_right _
      _ = b - 1 := by omega
  rw [residue_congr hpos (by omega) hmod]
  exact residue_of_lt (by omega)

end DosMcp.Lib
