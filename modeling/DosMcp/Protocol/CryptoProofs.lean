/-
  DosMcp.Protocol.CryptoProofs — XTEA is a permutation, so a session key tells its nonces
  apart.

  One round can be undone when the sum is known (`xteaRound_inj`), the sum depends only on
  the number of rounds, and so 32 rounds are injective on blocks (`xteaEncrypt_inj`).
  `deriveSessionKey_nonces`: for a fixed base key, two pairs of nonces of 32 bits give
  different session keys.
-/

import DosMcp.Protocol.Crypto

namespace DosMcp

open Lib

theorem and_mask32 (n : Nat) : n &&& 0xFFFFFFFF = n % 2 ^ 32 := Nat.and_two_pow_sub_one_eq_mod n 32

structure XteaState.Word (s : XteaState) : Prop where
  left : s.left < 2 ^ 32
  right : s.right < 2 ^ 32

theorem xteaRound_word (words : List Nat) (s : XteaState) : (xteaRound words s).Word := by
  constructor
  · simp only [xteaRound, and_mask32]
    exact Nat.mod_lt _ (by decide)
  · simp only [xteaRound, and_mask32]
    exact Nat.mod_lt _ (by decide)

theorem add_mod_cancel {a b x : Nat} (ha : a < 2 ^ 32) (hb : b < 2 ^ 32) (h : (a + x) % 2 ^ 32 = (b + x) % 2 ^ 32) :
    a = b := by
  omega

theorem xteaRound_inj {words : List Nat} {s t : XteaState} (hs : s.Word) (ht : t.Word) (htotal : s.total = t.total)
    (h : xteaRound words s = xteaRound words t) : s = t := by
  obtain ⟨sl, sr, st⟩ := s
  obtain ⟨tl, tr, tt⟩ := t
  obtain rfl : st = tt := htotal
  simp only [xteaRound, XteaState.mk.injEq, and_mask32] at h
  obtain ⟨hl, -, hr⟩ : _ ∧ _ ∧ _ := ⟨h.1, h.2.2, h.2.1⟩
  -- the right half was mixed with the new left half, which both sides share
  rw [hl] at hr
  obtain rfl : sr = tr := add_mod_cancel hs.right ht.right hr
  obtain rfl : sl = tl := add_mod_cancel hs.left ht.left hl
  rfl

theorem xteaRound_total (words : List Nat) (s : XteaState) :
    (xteaRound words s).total = (s.total + xteaDelta) &&& 0xFFFFFFFF := rfl

theorem xteaRounds_inj (words : List Nat) (n : Nat) {s t : XteaState} (hs : s.Word) (ht : t.Word)
    (htotal : s.total = t.total) (h : (xteaRound words)^[n] s = (xteaRound words)^[n] t) : s = t := by
  induction n generalizing s t with
  | zero => exact h
  | succ n ih =>
    rw [Function.iterate_succ_apply, Function.iterate_succ_apply] at h
    have hround := ih (xteaRound_word words s) (xteaRound_word words t)
      (by rw [xteaRound_total, xteaRound_total, htotal]) h
    exact xteaRound_inj hs ht htotal hround

theorem xteaRounds_total (words : List Nat) (n : Nat) {s t : XteaState} (htotal : s.total = t.total) :
    ((xteaRound words)^[n] s).total = ((xteaRound words)^[n] t).total := by
  induction n generalizing s t with
  | zero => exact htotal
  | succ n ih =>
    rw [Function.iterate_succ_apply, Function.iterate_succ_apply]
    exact ih (by rw [xteaRound_total, xteaRound_total, htotal])

theorem xteaRounds_word (words : List Nat) (n : Nat) {s : XteaState} (hs : s.Word) : ((xteaRound words)^[n] s).Word := by
  induction n generalizing s with
  | zero => exact hs
  | succ n ih =>
    rw [Function.iterate_succ_apply]
    exact ih (xteaRound_word words s)

theorem leBytes_inj {n v w : Nat} (hv : v < 256 ^ n) (hw : w < 256 ^ n) (h : leBytes n v = leBytes n w) : v = w := by
  rw [← leNat_leBytes hv, ← leNat_leBytes hw, h]

/-- Two blocks with the same ciphertext are the same pair of words. -/
theorem xteaEncrypt_inj {key block block' : Bytes} (h : xteaEncrypt block key = xteaEncrypt block' key) :
    leNat (slice block 0 4) = leNat (slice block' 0 4) ∧ leNat (slice block 4 4) = leNat (slice block' 4 4) := by
  have hw : ∀ b : Bytes, XteaState.Word ⟨leNat (slice b 0 4), leNat (slice b 4 4), 0⟩ := fun b =>
    ⟨leNat_slice_lt b 0 4, leNat_slice_lt b 4 4⟩
  simp only [xteaEncrypt] at h
  obtain ⟨hl, hr⟩ := List.append_inj h (by simp)
  have w1 := xteaRounds_word (keyWords key) 32 (hw block)
  have w2 := xteaRounds_word (keyWords key) 32 (hw block')
  have htotal := xteaRounds_total (keyWords key) 32
    (s := ⟨leNat (slice block 0 4), leNat (slice block 4 4), 0⟩)
    (t := ⟨leNat (slice block' 0 4), leNat (slice block' 4 4), 0⟩) rfl
  have heq := xteaRounds_inj (keyWords key) 32 (hw block) (hw block') rfl (by
    have e1 := leBytes_inj w1.left w2.left hl
    have e2 := leBytes_inj w1.right w2.right hr
    revert e1 e2 htotal
    generalize (xteaRound (keyWords key))^[32] _ = s
    generalize (xteaRound (keyWords key))^[32] _ = t
    rintro h3 h1 h2
    cases s
    cases t
    simp_all)
  simp only [XteaState.mk.injEq] at heq
  exact ⟨heq.1, heq.2.1⟩

/-- The session key determines both nonces, the two words of its first block. -/
theorem deriveSessionKey_nonces {key : Key} {c n c' n' : Nat} (h : deriveSessionKey key c n = deriveSessionKey key c' n') :
    c % 2 ^ 32 = c' % 2 ^ 32 ∧ n % 2 ^ 32 = n' % 2 ^ 32 := by
  have hb : deriveSessionKeyBytes key.bytes c n = deriveSessionKeyBytes key.bytes c' n' := congrArg Key.bytes h
  simp only [deriveSessionKeyBytes, and_mask32] at hb
  obtain ⟨hfirst, -⟩ := List.append_inj hb (by simp [xteaEncrypt])
  obtain ⟨hclient, hserver⟩ := xteaEncrypt_inj hfirst
  have hmod : ∀ v : Nat, v % 2 ^ 32 < 256 ^ 4 := fun v => Nat.mod_lt v (by decide)
  have hfront : ∀ v w : Nat, leNat (slice (leBytes 4 (v % 2 ^ 32) ++ leBytes 4 (w % 2 ^ 32)) 0 4) = v % 2 ^ 32 := by
    intro v w
    rw [slice_leBytes_append, leNat_leBytes (hmod v)]
  have hskip : ∀ v w : Nat, leNat (slice (leBytes 4 (v % 2 ^ 32) ++ leBytes 4 (w % 2 ^ 32)) 4 4) = w % 2 ^ 32 := by
    intro v w
    have hwhole : slice (leBytes 4 (w % 2 ^ 32)) 0 4 = leBytes 4 (w % 2 ^ 32) := List.take_of_length_le (leBytes_length 4 _).le
    rw [slice_leBytes_skip (Nat.le_refl 4), Nat.sub_self, hwhole, leNat_leBytes (hmod w)]
  rw [hfront, hfront] at hclient
  rw [hskip, hskip] at hserver
  exact ⟨hclient, hserver⟩

/-- The session key determines the server nonce. -/
theorem deriveSessionKey_inj {key : Key} {c n m : Nat} (hn : n < 256 ^ 4) (hm : m < 256 ^ 4)
    (h : deriveSessionKey key c n = deriveSessionKey key c m) : n = m := by
  have hserver := (deriveSessionKey_nonces h).2
  omega

end DosMcp
