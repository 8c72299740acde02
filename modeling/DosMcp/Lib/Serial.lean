/-
  DosMcp.Lib.Serial — serial numbers that skip zero.

  A counter over `0 .. m - 1` advances by `next`, which passes from `m - 1` to `1`; two
  numbers are compared by `newer`, the half-window test on their difference modulo `m`.
  `stamp m b k` is the `k`-th number of a counter that starts at `b + 1`: numbers less
  than half a window apart compare as their positions do (`newer_stamp`), so within such
  a window the counter never repeats (`stamp_inj`).

  `Guarded` is the replay guard of a receiver that keeps the last number it executed and
  executes only newer ones: what it has executed stands in the order of the counter
  (`Guarded.execute`), so nothing is executed twice (`Guarded.nodup`).
-/

import Mathlib.Data.List.Nodup
import Mathlib.Tactic.Ring
import Mathlib.Data.Int.ModEq

namespace DosMcp.Lib.Serial

def next (m x : Nat) : Nat := if (x + 1) % m = 0 then 1 else (x + 1) % m

def newer (m candidate previous : Nat) : Bool :=
  let distance := ((candidate : Int) - previous) % m
  0 < distance ∧ 2 * distance < m

def stamp (m b k : Nat) : Nat := 1 + (b + k) % (m - 1)

section

variable {m : Nat} (hm : 2 ≤ m) (b : Nat)
include hm

theorem stamp_lt (k : Nat) : stamp m b k < m := by
  have := Nat.mod_lt (b + k) (show 0 < m - 1 by omega)
  unfold stamp
  omega

theorem next_stamp (k : Nat) : next m (stamp m b k) = stamp m b (k + 1) := by
  have hlt := Nat.mod_lt (b + k) (show 0 < m - 1 by omega)
  have hstep : (b + (k + 1)) % (m - 1) = ((b + k) % (m - 1) + 1) % (m - 1) := by
    rw [← Nat.add_assoc, Nat.mod_add_mod]
  unfold next stamp
  rw [hstep]
  by_cases hw : (b + k) % (m - 1) + 1 = m - 1
  · rw [hw, Nat.mod_self, show 1 + (b + k) % (m - 1) + 1 = m by omega, Nat.mod_self, if_pos rfl]
  · rw [Nat.mod_eq_of_lt (show (b + k) % (m - 1) + 1 < m - 1 by omega),
      Nat.mod_eq_of_lt (show 1 + (b + k) % (m - 1) + 1 < m by omega), if_neg (by omega)]
    omega

/-- `δ` positions further the number is `δ` larger, or, past the wrap, `δ + 1 - m`. -/
theorem stamp_add (k : Nat) {δ : Nat} (hδ : 2 * (δ + 1) < m) :
    stamp m b (k + δ) = stamp m b k + δ ∨ (0 < δ ∧ stamp m b (k + δ) + m = stamp m b k + δ + 1) := by
  have hlt := Nat.mod_lt (b + k) (show 0 < m - 1 by omega)
  have hstep : (b + (k + δ)) % (m - 1) = ((b + k) % (m - 1) + δ) % (m - 1) := by
    rw [← Nat.add_assoc, Nat.mod_add_mod]
  unfold stamp
  rw [hstep]
  by_cases hw : (b + k) % (m - 1) + δ < m - 1
  · left
    rw [Nat.mod_eq_of_lt hw]
    omega
  · right
    rw [Nat.mod_eq_sub_mod (Nat.not_lt.mp hw), Nat.mod_eq_of_lt (by omega)]
    omega

/-- Within half a window, newer means later. -/
theorem newer_stamp {i j : Nat} (hij : 2 * (j - i + 1) < m) (hji : 2 * (i - j + 1) < m) :
    newer m (stamp m b j) (stamp m b i) = decide (i < j) := by
  unfold newer
  rcases Nat.le_total i j with h | h
  · obtain ⟨δ, rfl⟩ := Nat.exists_eq_add_of_le h
    have hδ : 2 * (δ + 1) < m := by omega
    rcases stamp_add hm b i hδ with e | ⟨hpos, e⟩
    · have hd : ((stamp m b (i + δ) : Int) - stamp m b i) % m = δ := by
        rw [show (stamp m b (i + δ) : Int) - stamp m b i = δ by omega]
        exact Int.emod_eq_of_lt (by omega) (by omega)
      rw [hd, decide_eq_decide]
      omega
    · have hd : ((stamp m b (i + δ) : Int) - stamp m b i) % m = δ + 1 := by
        rw [show (stamp m b (i + δ) : Int) - stamp m b i = (δ + 1) - m by omega, Int.sub_emod_right]
        exact Int.emod_eq_of_lt (by omega) (by omega)
      rw [hd, decide_eq_decide]
      omega
  · obtain ⟨δ, rfl⟩ := Nat.exists_eq_add_of_le h
    have hδ : 2 * (δ + 1) < m := by omega
    rcases stamp_add hm b j hδ with e | ⟨hpos, e⟩
    · rcases Nat.eq_zero_or_pos δ with rfl | hpos
      · simp
      · have hd : ((stamp m b j : Int) - stamp m b (j + δ)) % m = m - δ := by
          rw [show (stamp m b j : Int) - stamp m b (j + δ) = (m - δ) - m by omega, Int.sub_emod_right]
          exact Int.emod_eq_of_lt (by omega) (by omega)
        rw [hd, decide_eq_decide]
        omega
    · have hd : ((stamp m b j : Int) - stamp m b (j + δ)) % m = m - (δ + 1) := by
        rw [show (stamp m b j : Int) - stamp m b (j + δ) = m - (δ + 1) by omega]
        exact Int.emod_eq_of_lt (by omega) (by omega)
      rw [hd, decide_eq_decide]
      omega

theorem stamp_inj {i j : Nat} (hij : 2 * (j - i + 1) < m) (hji : 2 * (i - j + 1) < m)
    (h : stamp m b i = stamp m b j) : i = j := by
  have h1 := newer_stamp hm b hij hji
  have h2 := newer_stamp hm b hji hij
  rw [h] at h1 h2
  have h3 : newer m (stamp m b j) (stamp m b j) = false := by simp [newer]
  rw [h3] at h1 h2
  have h4 := of_decide_eq_false h1.symm
  have h5 := of_decide_eq_false h2.symm
  omega

/-- The counter takes a whole period before it repeats. -/
theorem stamp_inj_period {i j : Nat} (hi : 1 ≤ i ∧ i < m) (hj : 1 ≤ j ∧ j < m) (h : stamp m b i = stamp m b j) : i = j := by
  have hmod : i ≡ j [MOD m - 1] := Nat.ModEq.add_left_cancel' b (Nat.add_left_cancel h)
  rcases Nat.le_total i j with hij | hij
  · have hdvd := (Nat.modEq_iff_dvd' hij).mp hmod
    have := Nat.eq_zero_of_dvd_of_lt hdvd (by omega)
    omega
  · have hdvd := (Nat.modEq_iff_dvd' hij).mp hmod.symm
    have := Nat.eq_zero_of_dvd_of_lt hdvd (by omega)
    omega

end

/-! ## Replay guards -/

/-- After `issued` numbers, a guard with last executed number `last` has executed `log`:
    the numbers at strictly increasing positions, none beyond that of `last`. -/
def Guarded (m b issued : Nat) (last : Option Nat) (log : List Nat) : Prop :=
  ∃ ks : List Nat, log = ks.map (stamp m b) ∧ ks.Pairwise (· < ·) ∧ (∀ k ∈ ks, 1 ≤ k ∧ k ≤ issued) ∧
    match last with
    | none => ks = []
    | some l => ∃ k, 1 ≤ k ∧ k ≤ issued ∧ l = stamp m b k ∧ ∀ j ∈ ks, j ≤ k

section

variable {m b issued : Nat} {last : Option Nat} {log : List Nat}

theorem guarded_nil (m b issued : Nat) : Guarded m b issued none [] :=
  ⟨[], rfl, List.Pairwise.nil, fun _ h => absurd h List.not_mem_nil, rfl⟩

theorem Guarded.issue (h : Guarded m b issued last log) : Guarded m b (issued + 1) last log := by
  obtain ⟨ks, hlog, hord, hks, hlast⟩ := h
  refine ⟨ks, hlog, hord, fun k hk => ?_, ?_⟩
  · have := hks k hk
    omega
  · cases last with
    | none => exact hlast
    | some l =>
      obtain ⟨k, h1, h2, h3, h4⟩ := hlast
      exact ⟨k, h1, by omega, h3, h4⟩

/-- Executing an issued number that is newer than the last one keeps the guard's order. -/
theorem Guarded.execute (hm : 2 ≤ m) (hwin : 2 * issued < m) (h : Guarded m b issued last log) {k : Nat}
    (hk : 1 ≤ k ∧ k ≤ issued) (hnew : ∀ l, last = some l → newer m (stamp m b k) l = true) :
    Guarded m b issued (some (stamp m b k)) (log ++ [stamp m b k]) := by
  obtain ⟨ks, rfl, hord, hks, hlast⟩ := h
  have hbefore : ∀ j ∈ ks, j < k := by
    intro j hj
    cases last with
    | none => rw [hlast] at hj; cases hj
    | some l =>
      obtain ⟨k0, h1, h2, rfl, h4⟩ := hlast
      have hn := hnew _ rfl
      rw [newer_stamp hm b (by omega) (by omega)] at hn
      have := of_decide_eq_true hn
      have := h4 j hj
      omega
  refine ⟨ks ++ [k], by simp, ?_, ?_, k, hk.1, hk.2, rfl, ?_⟩
  · rw [List.pairwise_append]
    exact ⟨hord, List.pairwise_singleton _ _, fun j hj i hi => by
      rw [List.mem_singleton] at hi
      exact hi ▸ hbefore j hj⟩
  · intro j hj
    rcases List.mem_append.mp hj with hj | hj
    · exact hks j hj
    · rw [List.mem_singleton] at hj
      exact hj ▸ hk
  · intro j hj
    rcases List.mem_append.mp hj with hj | hj
    · exact Nat.le_of_lt (hbefore j hj)
    · rw [List.mem_singleton] at hj
      omega

/-- What was executed is not newer than the last number. -/
theorem Guarded.not_newer (hm : 2 ≤ m) (hwin : 2 * issued < m) (h : Guarded m b issued last log) {x : Nat} (hx : x ∈ log) :
    ∃ l, last = some l ∧ newer m x l = false := by
  obtain ⟨ks, rfl, -, hks, hlast⟩ := h
  obtain ⟨j, hj, rfl⟩ := List.mem_map.mp hx
  cases last with
  | none => rw [hlast] at hj; cases hj
  | some l =>
    obtain ⟨k, h1, h2, rfl, h4⟩ := hlast
    have hjk := h4 j hj
    have hj1 := hks j hj
    refine ⟨_, rfl, ?_⟩
    rw [newer_stamp hm b (by omega) (by omega)]
    exact decide_eq_false (by omega)

theorem Guarded.nodup (hm : 2 ≤ m) (hwin : 2 * issued < m) (h : Guarded m b issued last log) : log.Nodup := by
  obtain ⟨ks, rfl, hord, hks, -⟩ := h
  refine List.Nodup.map_on ?_ (hord.imp fun hlt => Nat.ne_of_lt hlt)
  intro i hi j hj e
  have h1 := hks i hi
  have h2 := hks j hj
  exact stamp_inj hm b (by omega) (by omega) e

/-- Nothing is executed after the number issued last. -/
theorem Guarded.nothing_after (hm : 2 ≤ m) (hwin : 2 * issued < m) (h : Guarded m b issued last log) {before after : List Nat}
    (hlog : log = before ++ stamp m b issued :: after) : after = [] := by
  obtain ⟨ks, rfl, hord, hks, -⟩ := h
  obtain ⟨ka, kr, rfl, -, hrest⟩ := List.map_eq_append_iff.mp hlog
  obtain ⟨k, kc, rfl, hk, rfl⟩ := List.map_eq_cons_iff.mp hrest
  have hrange := hks k (List.mem_append_right _ List.mem_cons_self)
  obtain rfl := stamp_inj hm b (by omega) (by omega) hk
  have hlater := (List.pairwise_cons.mp (List.pairwise_append.mp hord).2.1).1
  rw [List.map_eq_nil_iff, List.eq_nil_iff_forall_not_mem]
  intro j hj
  have := hks j (List.mem_append_right _ (List.mem_cons_of_mem _ hj))
  have := hlater j hj
  omega

/-- Nothing is executed between two numbers issued one after the other. -/
theorem Guarded.nothing_between (hm : 2 ≤ m) (hwin : 2 * issued < m) (h : Guarded m b issued last log) {i : Nat}
    (hi : 1 ≤ i ∧ i + 1 ≤ issued) (before between after : List Nat)
    (hlog : log = before ++ stamp m b i :: (between ++ stamp m b (i + 1) :: after)) : between = [] := by
  obtain ⟨ks, rfl, hord, hks, -⟩ := h
  obtain ⟨ka, kr, rfl, -, hrest⟩ := List.map_eq_append_iff.mp hlog
  obtain ⟨k, kc, rfl, hk, hkc⟩ := List.map_eq_cons_iff.mp hrest
  obtain ⟨kb, ke, rfl, rfl, hend⟩ := List.map_eq_append_iff.mp hkc
  obtain ⟨k', kf, rfl, hk', -⟩ := List.map_eq_cons_iff.mp hend
  have hrange := hks k (by simp)
  have hrange' := hks k' (by simp)
  obtain rfl := stamp_inj hm b (by omega) (by omega) hk
  obtain rfl := stamp_inj hm b (by omega) (by omega) hk'
  have htail := List.pairwise_cons.mp (List.pairwise_append.mp hord).2.1
  have hbefore := (List.pairwise_append.mp htail.2).2.2
  rw [List.map_eq_nil_iff, List.eq_nil_iff_forall_not_mem]
  intro j hj
  have := htail.1 j (List.mem_append_left _ hj)
  have := hbefore j hj _ List.mem_cons_self
  omega

end

end DosMcp.Lib.Serial
