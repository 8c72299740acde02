/-
  DosMcp.Lib.Crc — cyclic redundancy checks as remainders of polynomials.

  A message is a list of coefficients, the highest first; its check is the remainder of the
  message, moved up by the degree of the generator, with the start value in front of it.

  - `checksum_append`: a check is continued over what follows.
  - `checksum_burst`: a generator with a constant term tells apart any two messages that differ
    within as many places as its degree.
  - `shiftHigh_spec` / `shiftLow_spec`: the shift registers of a program, highest power in the
    highest bit or in the lowest, multiply by X.
  - `feedHigh_spec` / `feedLow_spec`: a register that takes the message byte by byte continues
    the check.
  - `crc32_isCrc32`: `Lib.Crc32` is the standard CRC-32.
-/

import DosMcp.Lib.Bytes
import DosMcp.Lib.Crc32
import Mathlib

namespace DosMcp.Lib

open Polynomial

section

variable {R : Type} [CommRing R]

/-! ## Messages as polynomials -/

/-- The polynomial with these coefficients, the first one for the highest power. -/
noncomputable def ofCoeffs (as : List R) : R[X] := as.foldl (fun p a => X * p + C a) 0

@[simp] theorem ofCoeffs_nil : ofCoeffs ([] : List R) = 0 := rfl

theorem ofCoeffs_snoc (as : List R) (a : R) : ofCoeffs (as ++ [a]) = X * ofCoeffs as + C a := by
  rw [ofCoeffs, List.foldl_append]
  rfl

theorem ofCoeffs_append (as bs : List R) : ofCoeffs (as ++ bs) = ofCoeffs as * X ^ bs.length + ofCoeffs bs := by
  induction bs using List.reverseRecOn with
  | nil => simp
  | append_singleton bs b ih =>
    rw [← List.append_assoc, ofCoeffs_snoc, ofCoeffs_snoc, ih, List.length_append, List.length_singleton, pow_succ]
    ring

theorem coeff_ofCoeffs (as : List R) (i : Nat) : (ofCoeffs as).coeff i = as.reverse.getD i 0 := by
  induction as using List.reverseRecOn generalizing i with
  | nil => simp
  | append_singleton as a ih =>
    rw [ofCoeffs_snoc, List.reverse_append, coeff_add]
    cases i with
    | zero => simp
    | succ i => simp [ih]

theorem degree_ofCoeffs_lt (as : List R) : (ofCoeffs as).degree < as.length := by
  rw [degree_lt_iff_coeff_zero]
  intro i hi
  rw [coeff_ofCoeffs]
  exact List.getD_eq_default _ _ (by rwa [List.length_reverse])

/-- Messages of one length have different polynomials. -/
theorem ofCoeffs_inj {as bs : List R} (hlength : as.length = bs.length) (h : ofCoeffs as = ofCoeffs bs) : as = bs := by
  have hcoeff : ∀ i, as.reverse.getD i 0 = bs.reverse.getD i 0 := by
    intro i
    rw [← coeff_ofCoeffs, ← coeff_ofCoeffs, h]
  apply List.reverse_injective
  apply List.ext_getElem (by simpa using hlength)
  intro i ha hb
  have hi := hcoeff i
  rwa [List.getD_eq_getElem _ _ ha, List.getD_eq_getElem _ _ hb] at hi

/-! ## The check -/

/-- The check of a message with generator `g`, continued from the check `r`. -/
noncomputable def checksum (g r : R[X]) (as : List R) : R[X] := (r * X ^ as.length + ofCoeffs as * X ^ g.natDegree) %ₘ g

variable {g r : R[X]}

theorem dvd_checksum_sub (g r : R[X]) (as : List R) :
    g ∣ r * X ^ as.length + ofCoeffs as * X ^ g.natDegree - checksum g r as := by
  rw [← dvd_neg, neg_sub]
  exact dvd_modByMonic_sub _ _

theorem checksum_append (hg : g.Monic) (as bs : List R) : checksum g r (as ++ bs) = checksum g (checksum g r as) bs := by
  refine modByMonic_eq_of_dvd_sub hg ?_
  have hsplit : r * X ^ (as.length + bs.length) + (ofCoeffs as * X ^ bs.length + ofCoeffs bs) * X ^ g.natDegree -
      (checksum g r as * X ^ bs.length + ofCoeffs bs * X ^ g.natDegree) =
        (r * X ^ as.length + ofCoeffs as * X ^ g.natDegree - checksum g r as) * X ^ bs.length := by
    rw [pow_add]
    ring
  rw [ofCoeffs_append, List.length_append, hsplit]
  exact (dvd_checksum_sub g r as).mul_right _

theorem isCoprime_X_of_coeff_zero (h : IsUnit (g.coeff 0)) : IsCoprime g X := by
  obtain ⟨u, hu⟩ := h
  refine ⟨C (↑u⁻¹ : R), -(C (↑u⁻¹ : R) * divX g), ?_⟩
  have hg := divX_mul_X_add g
  calc C (↑u⁻¹ : R) * g + -(C (↑u⁻¹ : R) * divX g) * X
      = C (↑u⁻¹ : R) * (divX g * X + C (g.coeff 0)) - C (↑u⁻¹ : R) * divX g * X := by rw [hg]; ring
    _ = C (↑u⁻¹ : R) * C (g.coeff 0) := by ring
    _ = 1 := by rw [← hu, ← C_mul, Units.inv_mul, C_1]

/-- Two messages that differ within a window no longer than the degree of the generator have
    different checks. -/
theorem checksum_burst [Nontrivial R] (hg : g.Monic) (hzero : IsUnit (g.coeff 0)) (front back : List R) {as bs : List R}
    (hlength : as.length = bs.length) (hwindow : as.length ≤ g.natDegree) (hne : as ≠ bs) :
    checksum g r (front ++ as ++ back) ≠ checksum g r (front ++ bs ++ back) := by
  intro heq
  apply hne
  apply ofCoeffs_inj hlength
  have hdiff : g ∣ (ofCoeffs as - ofCoeffs bs) * X ^ (back.length + g.natDegree) := by
    have hzeroMod := sub_eq_zero.mpr heq
    rw [checksum, checksum, ← sub_modByMonic, modByMonic_eq_zero_iff_dvd hg] at hzeroMod
    convert hzeroMod using 1
    simp only [ofCoeffs_append, List.length_append, hlength, pow_add]
    ring
  have hdvd : g ∣ ofCoeffs as - ofCoeffs bs := ((isCoprime_X_of_coeff_zero hzero).pow_right).dvd_of_dvd_mul_right hdiff
  have hdegree : (ofCoeffs as - ofCoeffs bs).degree < g.degree := by
    rw [degree_eq_natDegree hg.ne_zero]
    have hasDegree : (ofCoeffs as).degree < g.natDegree := (degree_ofCoeffs_lt as).trans_le (by exact_mod_cast hwindow)
    have hbsDegree : (ofCoeffs bs).degree < g.natDegree := (degree_ofCoeffs_lt bs).trans_le (by exact_mod_cast hlength ▸ hwindow)
    exact (degree_sub_le _ _).trans_lt (max_lt hasDegree hbsDegree)
  by_contra hneq
  exact hg.not_dvd_of_degree_lt (sub_ne_zero.mpr hneq) hdegree hdvd

/-- A polynomial below the generator is moved up by one power. -/
theorem X_mul_modByMonic [Nontrivial R] (hg : g.Monic) {n : Nat} (hdegree : g.natDegree = n + 1) {p : R[X]}
    (hp : p.degree < (n + 1 : Nat)) : X * p %ₘ g = X * p - C (p.coeff n) * g := by
  refine (div_modByMonic_unique (C (p.coeff n)) _ hg ⟨by ring, ?_⟩).2
  rw [degree_eq_natDegree hg.ne_zero, hdegree, degree_lt_iff_coeff_zero]
  rw [degree_lt_iff_coeff_zero] at hp
  intro i hi
  obtain ⟨j, rfl⟩ : ∃ j, i = j + 1 := ⟨i - 1, by omega⟩
  rw [coeff_sub, coeff_X_mul, coeff_C_mul]
  by_cases htop : j = n
  · subst htop
    have hlead : g.coeff (j + 1) = 1 := hdegree ▸ hg.coeff_natDegree
    rw [hlead, mul_one, sub_self]
  · have hj : n + 1 ≤ j := by omega
    have htail : g.coeff (j + 1) = 0 := coeff_eq_zero_of_natDegree_lt (by omega)
    rw [hp j hj, htail, mul_zero, sub_zero]

theorem checksum_nil [Nontrivial R] (hg : g.Monic) (hr : r.degree < g.degree) : checksum g r [] = r := by
  rw [checksum, List.length_nil, pow_zero, mul_one, ofCoeffs_nil, zero_mul, add_zero]
  exact (modByMonic_eq_self_iff hg).mpr hr

theorem X_pow_mul_modByMonic (hg : g.Monic) (n : Nat) (p : R[X]) :
    X ^ n * (X * p %ₘ g) %ₘ g = X ^ (n + 1) * p %ₘ g := by
  refine modByMonic_eq_of_dvd_sub hg ?_
  have hfactor : X ^ n * (X * p %ₘ g) - X ^ (n + 1) * p = X ^ n * (X * p %ₘ g - X * p) := by ring
  rw [hfactor]
  exact (dvd_modByMonic_sub _ _).mul_left _

/-! ## Programs

`poly` is the polynomial of a state, and `P` what the state keeps. -/

variable {σ β : Type} {poly : σ → R[X]} {P : σ → Prop}

theorem iterate_modByMonic (hg : g.Monic) {f : σ → σ} (hP : ∀ s, P s → P (f s)) (hf : ∀ s, P s → poly (f s) = X * poly s %ₘ g)
    (n : Nat) {s : σ} (hs : P s) : poly (f^[n + 1] s) = X ^ (n + 1) * poly s %ₘ g := by
  induction n generalizing s with
  | zero =>
    rw [pow_one]
    exact hf s hs
  | succ n ih => rw [Function.iterate_succ_apply, ih (hP s hs), hf s hs, X_pow_mul_modByMonic hg]

/-- A state that each item continues the check of has the check of the whole message. -/
theorem foldl_checksum [Nontrivial R] (hg : g.Monic) {f : σ → β → σ} {coeffs : β → List R} (hP : ∀ s b, P s → P (f s b))
    (hf : ∀ s b, P s → poly (f s b) = checksum g (poly s) (coeffs b)) (hdegree : ∀ s, (poly s).degree < g.degree)
    (message : List β) {s : σ} (hs : P s) : poly (message.foldl f s) = checksum g (poly s) (message.flatMap coeffs) := by
  induction message generalizing s with
  | nil => exact (checksum_nil hg (hdegree s)).symm
  | cons b message ih => rw [List.foldl_cons, ih (hP s b hs), hf s b hs, ← checksum_append hg, List.flatMap_cons]

end

/-! ## Registers -/

/-- A bit as a coefficient. -/
def bit (b : Bool) : ZMod 2 := if b then 1 else 0

/-- The bits of a word, the lowest first. -/
def lowBits (w n : Nat) : List (ZMod 2) := (List.range w).map fun i => bit (n.testBit i)

/-- The bits of a word, the highest first. -/
def highBits (w n : Nat) : List (ZMod 2) := (lowBits w n).reverse

theorem bit_xor (a b : Bool) : bit (a ^^ b) = bit a + bit b := by
  cases a <;> cases b <;> decide

theorem bit_injective : Function.Injective bit := by decide

@[simp] theorem lowBits_length (w n : Nat) : (lowBits w n).length = w := by simp [lowBits]

@[simp] theorem highBits_length (w n : Nat) : (highBits w n).length = w := by simp [highBits]

theorem lowBits_getD (w n i : Nat) : (lowBits w n).getD i 0 = if i < w then bit (n.testBit i) else 0 := by
  by_cases hi : i < w
  · rw [if_pos hi, List.getD_eq_getElem _ _ (by simpa using hi)]
    simp [lowBits]
  · rw [if_neg hi, List.getD_eq_default _ _ (by simpa using hi)]

/-- The polynomial of a register with its highest power in the highest bit. -/
noncomputable def highPoly (w n : Nat) : (ZMod 2)[X] := ofCoeffs (highBits w n)

/-- The polynomial of a register with its highest power in the lowest bit. -/
noncomputable def lowPoly (w n : Nat) : (ZMod 2)[X] := ofCoeffs (lowBits w n)

theorem coeff_highPoly (w n i : Nat) : (highPoly w n).coeff i = if i < w then bit (n.testBit i) else 0 := by
  rw [highPoly, coeff_ofCoeffs, highBits, List.reverse_reverse, lowBits_getD]

theorem coeff_lowPoly (w n i : Nat) : (lowPoly w n).coeff i = if i < w then bit (n.testBit (w - 1 - i)) else 0 := by
  rw [lowPoly, coeff_ofCoeffs]
  by_cases hi : i < w
  · rw [if_pos hi, List.getD_eq_getElem _ _ (by simpa using hi), List.getElem_reverse]
    simp [lowBits]
  · rw [if_neg hi, List.getD_eq_default _ _ (by simpa using hi)]

theorem degree_highPoly_lt (w n : Nat) : (highPoly w n).degree < w := by
  have h := degree_ofCoeffs_lt (highBits w n)
  rwa [highBits_length] at h

theorem degree_lowPoly_lt (w n : Nat) : (lowPoly w n).degree < w := by
  have h := degree_ofCoeffs_lt (lowBits w n)
  rwa [lowBits_length] at h

theorem highPoly_xor (w m n : Nat) : highPoly w (m ^^^ n) = highPoly w m + highPoly w n := by
  ext i
  rw [coeff_add, coeff_highPoly, coeff_highPoly, coeff_highPoly, Nat.testBit_xor, bit_xor]
  split
  · rfl
  · rw [add_zero]

theorem lowPoly_xor (w m n : Nat) : lowPoly w (m ^^^ n) = lowPoly w m + lowPoly w n := by
  ext i
  rw [coeff_add, coeff_lowPoly, coeff_lowPoly, coeff_lowPoly, Nat.testBit_xor, bit_xor]
  split
  · rfl
  · rw [add_zero]

/-- The generator of a register of `w` bits with the given lower coefficients. -/
noncomputable def generator (w : Nat) (tail : (ZMod 2)[X]) : (ZMod 2)[X] := X ^ w + tail

section

variable {w : Nat} {tail : (ZMod 2)[X]}

theorem generator_monic (h : tail.degree < w) : (generator w tail).Monic := monic_X_pow_add h

theorem generator_natDegree (h : tail.degree < w) : (generator w tail).natDegree = w := by
  rw [generator, natDegree_add_eq_left_of_degree_lt (by rwa [degree_X_pow]), natDegree_X_pow]

theorem generator_degree (h : tail.degree < w) : (generator w tail).degree = w := by
  rw [degree_eq_natDegree (generator_monic h).ne_zero, generator_natDegree h]

theorem bit_shift (p top t : Bool) : bit (p ^^ (top && t)) = bit p - bit top * bit t := by
  cases p <;> cases top <;> cases t <;> decide

/-- What a shift does to the coefficients, the tail of the generator added when one drops out. -/
theorem eq_X_mul_modByMonic {k : Nat} {p s : (ZMod 2)[X]} (htail : tail.degree < (k + 1 : Nat)) (hp : p.degree < (k + 1 : Nat))
    (hs : s.degree < (k + 1 : Nat)) (hzero : s.coeff 0 = 0 - p.coeff k * tail.coeff 0)
    (hsucc : ∀ j < k, s.coeff (j + 1) = p.coeff j - p.coeff k * tail.coeff (j + 1)) :
    s = X * p %ₘ generator (k + 1) tail := by
  rw [X_mul_modByMonic (generator_monic htail) (generator_natDegree htail) hp]
  rw [degree_lt_iff_coeff_zero] at htail hp hs
  ext i
  rw [coeff_sub, coeff_C_mul, generator, coeff_add, coeff_X_pow]
  cases i with
  | zero => rw [hzero, coeff_X_mul_zero, if_neg (by omega), zero_add]
  | succ j =>
    rw [coeff_X_mul]
    rcases Nat.lt_trichotomy j k with hlt | rfl | hgt
    · rw [hsucc j hlt, if_neg (by omega), zero_add]
    · rw [hs (j + 1) (Nat.le_refl _), htail (j + 1) (Nat.le_refl _), if_pos rfl, add_zero, mul_one, sub_self]
    · rw [hs (j + 1) (by omega), hp j (by omega), htail (j + 1) (by omega), if_neg (by omega), add_zero, mul_zero, sub_zero]

end

/-- One shift of a register with its highest power in the highest bit. -/
def shiftHigh (w tail n : Nat) : Nat := if n.testBit (w - 1) then (n <<< 1 ^^^ tail) % 2 ^ w else (n <<< 1) % 2 ^ w

/-- One shift of a register with its highest power in the lowest bit. -/
def shiftLow (tail n : Nat) : Nat := if n.testBit 0 then n >>> 1 ^^^ tail else n >>> 1

theorem and_bit_ne_zero (n i : Nat) : n &&& 2 ^ i ≠ 0 ↔ n.testBit i = true := by
  rw [Nat.and_two_pow, Ne, Nat.mul_eq_zero, not_or]
  constructor
  · intro h
    by_contra hbit
    rw [Bool.not_eq_true] at hbit
    exact h.1 (by rw [hbit]; rfl)
  · intro hbit
    rw [hbit]
    exact ⟨by decide, (Nat.two_pow_pos i).ne'⟩

theorem shiftHigh_testBit (w tail n i : Nat) : (shiftHigh w tail n).testBit i =
    (decide (i < w) && ((decide (1 ≤ i) && n.testBit (i - 1)) ^^ (n.testBit (w - 1) && tail.testBit i))) := by
  unfold shiftHigh
  split
  · rename_i htop
    simp [Nat.testBit_mod_two_pow, Nat.testBit_xor, Nat.testBit_shiftLeft, htop]
  · rename_i htop
    simp [Nat.testBit_mod_two_pow, Nat.testBit_shiftLeft, htop]

theorem shiftLow_testBit (tail n i : Nat) : (shiftLow tail n).testBit i =
    (n.testBit (i + 1) ^^ (n.testBit 0 && tail.testBit i)) := by
  unfold shiftLow
  split
  · rename_i htop
    simp only [Nat.testBit_xor, Nat.testBit_shiftRight, htop, Bool.true_and, Nat.add_comm 1]
  · rename_i htop
    simp only [Nat.testBit_shiftRight, Bool.eq_false_of_not_eq_true htop, Bool.false_and, Bool.xor_false, Nat.add_comm 1]

theorem shiftHigh_spec {w : Nat} (hw : 0 < w) (tail n : Nat) :
    highPoly w (shiftHigh w tail n) = X * highPoly w n %ₘ generator w (highPoly w tail) := by
  obtain ⟨k, rfl⟩ : ∃ k, w = k + 1 := ⟨w - 1, by omega⟩
  refine eq_X_mul_modByMonic (degree_highPoly_lt _ _) (degree_highPoly_lt _ _) (degree_highPoly_lt _ _) ?_ ?_
  · simp only [coeff_highPoly, shiftHigh_testBit, Nat.add_sub_cancel, if_pos (Nat.succ_pos k), if_pos (Nat.lt_succ_self k)]
    exact bit_shift false _ _
  · intro j hj
    have hj' : j + 1 < k + 1 := Nat.succ_lt_succ hj
    simp only [coeff_highPoly, shiftHigh_testBit, Nat.add_sub_cancel, if_pos hj', if_pos (Nat.lt_succ_of_lt hj),
      if_pos (Nat.lt_succ_self k), decide_eq_true hj', Bool.true_and, decide_eq_true (Nat.le_add_left 1 j)]
    exact bit_shift _ _ _

theorem shiftLow_spec {w : Nat} (hw : 0 < w) (tail : Nat) {n : Nat} (hn : n < 2 ^ w) :
    lowPoly w (shiftLow tail n) = X * lowPoly w n %ₘ generator w (lowPoly w tail) := by
  obtain ⟨k, rfl⟩ : ∃ k, w = k + 1 := ⟨w - 1, by omega⟩
  refine eq_X_mul_modByMonic (degree_lowPoly_lt _ _) (degree_lowPoly_lt _ _) (degree_lowPoly_lt _ _) ?_ ?_
  · have hout : n.testBit (k + 1) = false := Nat.testBit_lt_two_pow hn
    simp only [coeff_lowPoly, shiftLow_testBit, Nat.add_sub_cancel, if_pos (Nat.succ_pos k), if_pos (Nat.lt_succ_self k),
      Nat.sub_zero, Nat.sub_self, hout]
    exact bit_shift false _ _
  · intro j hj
    have hnext : k - (j + 1) + 1 = k - j := by omega
    simp only [coeff_lowPoly, shiftLow_testBit, Nat.add_sub_cancel, if_pos (Nat.succ_lt_succ hj), if_pos (Nat.lt_succ_of_lt hj),
      if_pos (Nat.lt_succ_self k), Nat.sub_self, hnext]
    exact bit_shift _ _ _

/-! ## Bytes -/

/-- The message of a byte string, each byte the highest bit first. -/
def highMessage (data : Bytes) : List (ZMod 2) := data.flatMap fun b => highBits 8 b.toNat

/-- The message of a byte string, each byte the lowest bit first. -/
def lowMessage (data : Bytes) : List (ZMod 2) := data.flatMap fun b => lowBits 8 b.toNat

/-- One byte into a register with its highest power in the highest bit. -/
def feedHigh (w tail n : Nat) (b : UInt8) : Nat := (shiftHigh w tail)^[8] (n ^^^ b.toNat <<< (w - 8))

/-- One byte into a register with its highest power in the lowest bit. -/
def feedLow (tail n : Nat) (b : UInt8) : Nat := (shiftLow tail)^[8] (n ^^^ b.toNat)

theorem highPoly_byte {w : Nat} (hw : 8 ≤ w) (n : Nat) : highPoly w (n <<< (w - 8)) = X ^ (w - 8) * highPoly 8 n := by
  ext i
  rw [coeff_highPoly, coeff_X_pow_mul', Nat.testBit_shiftLeft, coeff_highPoly]
  by_cases hlow : w - 8 ≤ i
  · by_cases hi : i < w
    · have hi' : i - (w - 8) < 8 := by omega
      rw [if_pos hi, if_pos hlow, if_pos hi', decide_eq_true hlow, Bool.true_and]
    · have hi' : ¬ i - (w - 8) < 8 := by omega
      rw [if_neg hi, if_pos hlow, if_neg hi']
  · rw [if_neg hlow, decide_eq_false hlow, Bool.false_and]
    exact ite_self _

theorem lowPoly_byte {w n : Nat} (hw : 8 ≤ w) (hn : n < 2 ^ 8) : lowPoly w n = X ^ (w - 8) * lowPoly 8 n := by
  ext i
  rw [coeff_lowPoly, coeff_X_pow_mul', coeff_lowPoly]
  by_cases hlow : w - 8 ≤ i
  · have hsame : 8 - 1 - (i - (w - 8)) = w - 1 - i := by omega
    by_cases hi : i < w
    · have hi' : i - (w - 8) < 8 := by omega
      rw [if_pos hi, if_pos hlow, if_pos hi', hsame]
    · have hi' : ¬ i - (w - 8) < 8 := by omega
      rw [if_neg hi, if_pos hlow, if_neg hi']
  · have hout : n.testBit (w - 1 - i) = false :=
      Nat.testBit_lt_two_pow (hn.trans_le (Nat.pow_le_pow_right (by decide) (by omega)))
    rw [if_neg hlow, hout]
    exact ite_self _

section

variable {w tail : Nat}

theorem shiftLow_lt (htail : tail < 2 ^ w) {n : Nat} (hn : n < 2 ^ w) : shiftLow tail n < 2 ^ w := by
  have hshift : n >>> 1 < 2 ^ w := by
    rw [Nat.shiftRight_eq_div_pow]
    omega
  unfold shiftLow
  split
  · exact Nat.xor_lt_two_pow hshift htail
  · exact hshift

theorem byte_lt (hw : 8 ≤ w) (b : UInt8) : b.toNat < 2 ^ w := b.toNat_lt.trans_le (Nat.pow_le_pow_right (by decide) hw)

theorem feedLow_lt (hw : 8 ≤ w) (htail : tail < 2 ^ w) {n : Nat} (hn : n < 2 ^ w) (b : UInt8) : feedLow tail n b < 2 ^ w :=
  Function.Iterate.rec (fun n => n < 2 ^ w) (Nat.xor_lt_two_pow hn (byte_lt hw b)) (fun _ => shiftLow_lt htail) 8

/-- A byte into the register continues the check. -/
theorem feedHigh_spec (hw : 8 ≤ w) (tail n : Nat) (b : UInt8) :
    highPoly w (feedHigh w tail n b) = checksum (generator w (highPoly w tail)) (highPoly w n) (highBits 8 b.toNat) := by
  have hshift : ∀ n, True → highPoly w (shiftHigh w tail n) = X * highPoly w n %ₘ generator w (highPoly w tail) :=
    fun n _ => shiftHigh_spec (by omega) tail n
  rw [feedHigh, iterate_modByMonic (generator_monic (degree_highPoly_lt w tail)) (fun _ _ => trivial) hshift 7 trivial,
    highPoly_xor, highPoly_byte hw, checksum, highBits_length, generator_natDegree (degree_highPoly_lt _ _), highPoly, highPoly]
  congr 1
  have hsplit : (X : (ZMod 2)[X]) ^ w = X ^ 8 * X ^ (w - 8) := by rw [← pow_add, Nat.add_sub_cancel' hw]
  rw [hsplit]
  ring

theorem feedLow_spec (hw : 8 ≤ w) (htail : tail < 2 ^ w) {n : Nat} (hn : n < 2 ^ w) (b : UInt8) :
    lowPoly w (feedLow tail n b) = checksum (generator w (lowPoly w tail)) (lowPoly w n) (lowBits 8 b.toNat) := by
  have hkeeps : ∀ n, n < 2 ^ w → shiftLow tail n < 2 ^ w := fun _ => shiftLow_lt htail
  have hshift : ∀ n, n < 2 ^ w → lowPoly w (shiftLow tail n) = X * lowPoly w n %ₘ generator w (lowPoly w tail) :=
    fun _ => shiftLow_spec (by omega) tail
  rw [feedLow, iterate_modByMonic (generator_monic (degree_lowPoly_lt w tail)) hkeeps hshift 7
      (Nat.xor_lt_two_pow hn (byte_lt hw b)),
    lowPoly_xor, lowPoly_byte hw b.toNat_lt, checksum, lowBits_length, generator_natDegree (degree_lowPoly_lt _ _), lowPoly,
    lowPoly]
  congr 1
  have hsplit : (X : (ZMod 2)[X]) ^ w = X ^ 8 * X ^ (w - 8) := by rw [← pow_add, Nat.add_sub_cancel' hw]
  rw [hsplit]
  ring

/-- The register after a message holds its check. -/
theorem feedHigh_message (hw : 8 ≤ w) (tail n : Nat) (data : Bytes) :
    highPoly w (data.foldl (feedHigh w tail) n) =
      checksum (generator w (highPoly w tail)) (highPoly w n) (highMessage data) := by
  have hfeed : ∀ n b, True → highPoly w (feedHigh w tail n b) =
      checksum (generator w (highPoly w tail)) (highPoly w n) (highBits 8 b.toNat) := fun n b _ => feedHigh_spec hw tail n b
  refine foldl_checksum (generator_monic (degree_highPoly_lt w tail)) (fun _ _ _ => trivial) hfeed (fun n => ?_) data trivial
  rw [generator_degree (degree_highPoly_lt _ _)]
  exact degree_highPoly_lt _ _

theorem feedLow_message (hw : 8 ≤ w) (htail : tail < 2 ^ w) {n : Nat} (hn : n < 2 ^ w) (data : Bytes) :
    lowPoly w (data.foldl (feedLow tail) n) = checksum (generator w (lowPoly w tail)) (lowPoly w n) (lowMessage data) := by
  have hkeeps : ∀ n b, n < 2 ^ w → feedLow tail n b < 2 ^ w := fun _ b hn => feedLow_lt hw htail hn b
  have hfeed : ∀ n b, n < 2 ^ w → lowPoly w (feedLow tail n b) =
      checksum (generator w (lowPoly w tail)) (lowPoly w n) (lowBits 8 b.toNat) := fun _ b hn => feedLow_spec hw htail hn b
  refine foldl_checksum (generator_monic (degree_lowPoly_lt w tail)) hkeeps hfeed (fun n => ?_) data hn
  rw [generator_degree (degree_lowPoly_lt _ _)]
  exact degree_lowPoly_lt _ _

/-! ## Damage -/

theorem lowBits_inj {w m n : Nat} (hm : m < 2 ^ w) (hn : n < 2 ^ w) (h : lowBits w m = lowBits w n) : m = n := by
  apply Nat.eq_of_testBit_eq
  intro i
  by_cases hi : i < w
  · have hbit := congrArg (·.getD i 0) h
    simp only [lowBits_getD, if_pos hi] at hbit
    exact bit_injective hbit
  · have hout : ∀ {k}, k < 2 ^ w → k.testBit i = false := fun hk =>
      Nat.testBit_lt_two_pow (hk.trans_le (Nat.pow_le_pow_right (by decide) (Nat.not_lt.mp hi)))
    rw [hout hm, hout hn]

@[simp] theorem highMessage_length (data : Bytes) : (highMessage data).length = 8 * data.length := by
  induction data with
  | nil => rfl
  | cons b data ih =>
    rw [highMessage, List.flatMap_cons, List.length_append, highBits_length]
    rw [highMessage] at ih
    rw [ih, List.length_cons]
    omega

theorem highMessage_append (as bs : Bytes) : highMessage (as ++ bs) = highMessage as ++ highMessage bs := List.flatMap_append

theorem highMessage_inj {as bs : Bytes} (hlength : as.length = bs.length) (h : highMessage as = highMessage bs) : as = bs := by
  induction as generalizing bs with
  | nil => exact (List.length_eq_zero_iff.mp hlength.symm).symm
  | cons a as ih =>
    cases bs with
    | nil => cases hlength
    | cons b bs =>
      rw [highMessage, List.flatMap_cons, highMessage, List.flatMap_cons] at h
      obtain ⟨hbits, hrest⟩ := List.append_inj h (by simp)
      have hbyte := lowBits_inj a.toNat_lt b.toNat_lt (List.reverse_injective hbits)
      rw [UInt8.toNat_inj.mp hbyte, ih (Nat.succ.inj hlength) hrest]

/-- Where the lowest coefficient of the generator is 1, byte strings that differ within as many
    bytes as the register has leave different registers. -/
theorem feedHigh_burst (hw : 8 ≤ w) (htail : tail.testBit 0 = true) (n : Nat) (front back : Bytes) {as bs : Bytes}
    (hlength : as.length = bs.length) (hwindow : 8 * as.length ≤ w) (hne : as ≠ bs) :
    (front ++ as ++ back).foldl (feedHigh w tail) n ≠ (front ++ bs ++ back).foldl (feedHigh w tail) n := by
  intro heq
  have hdegree := degree_highPoly_lt w tail
  have hzero : (generator w (highPoly w tail)).coeff 0 = 1 := by
    rw [generator, coeff_add, coeff_X_pow, if_neg (by omega), zero_add, coeff_highPoly, if_pos (by omega), htail]
    rfl
  have hchecks := congrArg (highPoly w) heq
  rw [feedHigh_message hw, feedHigh_message hw] at hchecks
  simp only [highMessage_append] at hchecks
  refine checksum_burst (generator_monic hdegree) (hzero ▸ isUnit_one) (highMessage front) (highMessage back) ?_ ?_ ?_ hchecks
  · rw [highMessage_length, highMessage_length, hlength]
  · rw [highMessage_length, generator_natDegree hdegree]
    exact hwindow
  · exact fun hsame => hne (highMessage_inj hlength hsame)

end

/-! ## CRC-32 -/

/-- The standard CRC-32: each byte with its lowest bit first, thirty-two ones added to the front
    of the message, and the remainder complemented. -/
structure IsCrc32 (data : Bytes) (crc : Nat) : Prop where
  lt : crc < 2 ^ 32
  remainder : lowPoly 32 (crc ^^^ 0xFFFFFFFF) =
    checksum (generator 32 (lowPoly 32 0xEDB88320)) (lowPoly 32 0xFFFFFFFF) (lowMessage data)

theorem IsCrc32.unique {data : Bytes} {m n : Nat} (hm : IsCrc32 data m) (hn : IsCrc32 data n) : m = n := by
  have hmask : (0xFFFFFFFF : Nat) < 2 ^ 32 := by decide
  have hbits : lowBits 32 (m ^^^ 0xFFFFFFFF) = lowBits 32 (n ^^^ 0xFFFFFFFF) :=
    ofCoeffs_inj (by rw [lowBits_length, lowBits_length]) (hm.remainder.trans hn.remainder.symm)
  have hxor := lowBits_inj (Nat.xor_lt_two_pow hm.lt hmask) (Nat.xor_lt_two_pow hn.lt hmask) hbits
  exact Nat.xor_right_injective (by rwa [Nat.xor_comm m, Nat.xor_comm n] at hxor)

theorem crc32Byte_eq : crc32Byte = feedLow 0xEDB88320 := by
  have hbit : crc32Bit = shiftLow 0xEDB88320 := by
    funext crc
    have hlow : (crc &&& 1 ≠ 0) = (crc.testBit 0 = true) := propext (and_bit_ne_zero crc 0)
    simp only [crc32Bit, shiftLow, hlow]
  funext crc value
  rw [crc32Byte, hbit]
  rfl

theorem crc32_isCrc32 (data : Bytes) : IsCrc32 data (crc32 data 0) where
  lt := crc32_lt data (by decide)
  remainder := by
    rw [crc32, Nat.xor_assoc, Nat.xor_self, Nat.xor_zero, Nat.zero_xor, crc32Byte_eq]
    exact feedLow_message (by decide) (by decide) (by decide) data

end DosMcp.Lib
