/-
  DosMcp.Protocol.MacProofs — the packet MAC tells messages apart that differ in one block.

  - `speckRounds_eq`: the key schedule that runs along with the rounds depends on the key alone,
    so the rounds are those of a cipher with 22 given round keys.
  - `speck32Decrypt`: the rounds taken back; `speck32Encrypt` permutes the blocks.
  - `packet_mac_one_block`: a CBC chain of a permutation never loses the difference of one
    block, whatever is in front of it and behind it.
-/

import DosMcp.Lib.Cbc
import DosMcp.Protocol.Crypto
import Mathlib.Data.Set.Function

namespace DosMcp

open Lib

/-! ## Rotations -/

theorem ror16_testBit {v c : Nat} (hv : v < 2 ^ 16) (hc : c < 16) (i : Nat) :
    (ror16 v c).testBit i = (decide (i < 16) && v.testBit ((i + c) % 16)) := by
  have hmask : (0xFFFF : Nat).testBit i = decide (i < 16) := Nat.testBit_two_pow_sub_one 16 i
  rw [ror16, Nat.testBit_and, Nat.testBit_or, Nat.testBit_shiftRight, Nat.testBit_shiftLeft, hmask, Bool.and_comm]
  by_cases hi : i < 16
  · rw [decide_eq_true hi, Bool.true_and, Bool.true_and]
    by_cases hwrap : i + c < 16
    · have hlow : ¬ i ≥ 16 - c := by omega
      rw [decide_eq_false hlow, Bool.false_and, Bool.or_false, Nat.mod_eq_of_lt hwrap, Nat.add_comm]
    · have hout : v.testBit (c + i) = false :=
        Nat.testBit_lt_two_pow (hv.trans_le (Nat.pow_le_pow_right (by decide) (by omega)))
      have hhigh : i ≥ 16 - c := by omega
      have hindex : (i + c) % 16 = i - (16 - c) := by omega
      rw [hout, decide_eq_true hhigh, Bool.false_or, Bool.true_and, hindex]
  · rw [decide_eq_false hi, Bool.false_and, Bool.false_and]

theorem ror16_lt (v c : Nat) : ror16 v c < 2 ^ 16 := Nat.lt_of_le_of_lt Nat.and_le_right (by decide)

theorem rol16_lt (v c : Nat) : rol16 v c < 2 ^ 16 := Nat.lt_of_le_of_lt Nat.and_le_right (by decide)

theorem rol16_eq_ror16 {c : Nat} (hc : c ≤ 16) (v : Nat) : rol16 v c = ror16 v (16 - c) := by
  rw [rol16, ror16, Nat.sub_sub_self hc, Nat.or_comm]

theorem ror16_ror16 {v c d : Nat} (hv : v < 2 ^ 16) (hc : c < 16) (hd : d < 16) (hsum : c + d = 16) :
    ror16 (ror16 v c) d = v := by
  apply Nat.eq_of_testBit_eq
  intro i
  rw [ror16_testBit (ror16_lt v c) hd, ror16_testBit hv hc]
  by_cases hi : i < 16
  · have hinner : (i + d) % 16 < 16 := Nat.mod_lt _ (by decide)
    have hindex : ((i + d) % 16 + c) % 16 = i := by omega
    rw [decide_eq_true hi, decide_eq_true hinner, hindex, Bool.true_and, Bool.true_and]
  · have hout : v.testBit i = false :=
      Nat.testBit_lt_two_pow (hv.trans_le (Nat.pow_le_pow_right (by decide) (Nat.not_lt.mp hi)))
    rw [decide_eq_false hi, hout, Bool.false_and]

theorem rol16_ror16 {v c : Nat} (hv : v < 2 ^ 16) (hpos : 0 < c) (hc : c < 16) : rol16 (ror16 v c) c = v := by
  rw [rol16_eq_ror16 hc.le]
  exact ror16_ror16 hv hc (by omega) (by omega)

theorem ror16_rol16 {v c : Nat} (hv : v < 2 ^ 16) (hpos : 0 < c) (hc : c < 16) : ror16 (rol16 v c) c = v := by
  rw [rol16_eq_ror16 hc.le]
  exact ror16_ror16 hv (by omega) hc (by omega)

/-! ## The rounds -/

/-- The key schedule of one round. -/
def speckKeyStep (k : Nat × List Nat) (roundIndex : Nat) : Nat × List Nat :=
  if roundIndex ≠ 21 then
    let slot := roundIndex % 3
    let nextWord := ((ror16 (k.2.getD slot 0) 7 + k.1) &&& 0xFFFF) ^^^ roundIndex
    (rol16 k.1 2 ^^^ nextWord, k.2.set slot nextWord)
  else k

def speckKeyAt (key : Bytes) (n : Nat) : Nat × List Nat :=
  (List.range n).foldl speckKeyStep (leNat (slice key 0 2), [leNat (slice key 2 2), leNat (slice key 4 2), leNat (slice key 6 2)])

theorem speckKeyAt_succ (key : Bytes) (n : Nat) : speckKeyAt key (n + 1) = speckKeyStep (speckKeyAt key n) n := by
  rw [speckKeyAt, List.range_succ, List.foldl_append]
  rfl

/-- One round on the halves of a block. -/
def speckMix (key : Bytes) (s : Nat × Nat) (roundIndex : Nat) : Nat × Nat :=
  let left := ((ror16 s.1 7 + s.2) &&& 0xFFFF) ^^^ (speckKeyAt key roundIndex).1
  (left, rol16 s.2 2 ^^^ left)

def speckUnmix (key : Bytes) (s : Nat × Nat) (roundIndex : Nat) : Nat × Nat :=
  let right := ror16 (s.2 ^^^ s.1) 2
  (rol16 (((s.1 ^^^ (speckKeyAt key roundIndex).1) + (0x10000 - right)) &&& 0xFFFF) 7, right)

def halves (block : Bytes) : Nat × Nat := (leNat (slice block 0 2), leNat (slice block 2 2))

/-- The loop of the source is the rounds on the halves beside the key schedule. -/
theorem speckRounds_eq (block key : Bytes) (n : Nat) : (List.range n).foldl speckRound (speckStart block key) =
    ⟨((List.range n).foldl (speckMix key) (halves block)).1, ((List.range n).foldl (speckMix key) (halves block)).2,
      (speckKeyAt key n).1, (speckKeyAt key n).2⟩ := by
  induction n with
  | zero => rfl
  | succ n ih =>
    rw [speckKeyAt_succ, List.range_succ, List.foldl_append, List.foldl_append, ih, List.foldl_cons, List.foldl_nil, List.foldl_cons,
      List.foldl_nil]
    generalize (List.range n).foldl (speckMix key) (halves block) = s
    rw [speckRound, speckKeyStep]
    split
    · rfl
    · rfl

/-- Both halves are words. -/
def HalfWords (s : Nat × Nat) : Prop := s.1 < 2 ^ 16 ∧ s.2 < 2 ^ 16

theorem halves_words (block : Bytes) : HalfWords (halves block) := ⟨leNat_slice_lt block 0 2, leNat_slice_lt block 2 2⟩

theorem mask16_lt (n : Nat) : n &&& 0xFFFF < 2 ^ 16 := Nat.lt_of_le_of_lt Nat.and_le_right (by decide)

theorem speckKeyAt_lt (key : Bytes) {n : Nat} (hn : n ≤ 2 ^ 16) : (speckKeyAt key n).1 < 2 ^ 16 := by
  induction n with
  | zero => exact leNat_slice_lt key 0 2
  | succ n ih =>
    rw [speckKeyAt_succ, speckKeyStep]
    split
    · exact Nat.xor_lt_two_pow (rol16_lt _ _) (Nat.xor_lt_two_pow (mask16_lt _) hn)
    · exact ih (by omega)

theorem speckMix_words (key : Bytes) {n : Nat} (hn : n ≤ 2 ^ 16) (s : Nat × Nat) : HalfWords (speckMix key s n) := by
  have hleft : (speckMix key s n).1 < 2 ^ 16 := Nat.xor_lt_two_pow (mask16_lt _) (speckKeyAt_lt key hn)
  exact ⟨hleft, Nat.xor_lt_two_pow (rol16_lt _ _) hleft⟩

theorem speckUnmix_words (key : Bytes) (n : Nat) (s : Nat × Nat) : HalfWords (speckUnmix key s n) :=
  ⟨rol16_lt _ _, ror16_lt _ _⟩

theorem xor_xor_cancel (a b : Nat) : (a ^^^ b) ^^^ b = a := by rw [Nat.xor_assoc, Nat.xor_self, Nat.xor_zero]

theorem speckUnmix_speckMix (key : Bytes) (n : Nat) {s : Nat × Nat} (hs : HalfWords s) :
    speckUnmix key (speckMix key s n) n = s := by
  obtain ⟨left, right⟩ := s
  obtain ⟨hleft, hright⟩ := hs
  have hback : ror16 (rol16 right 2) 2 = right := ror16_rol16 hright (by decide) (by decide)
  have hsum : (((ror16 left 7 + right) &&& 0xFFFF) + (0x10000 - right)) &&& 0xFFFF = ror16 left 7 := by
    have hrotated := ror16_lt left 7
    rw [Nat.and_two_pow_sub_one_eq_mod _ 16, Nat.and_two_pow_sub_one_eq_mod _ 16]
    simp only at hright
    omega
  simp only [speckMix, speckUnmix, xor_xor_cancel, hback, hsum]
  rw [rol16_ror16 hleft (by decide) (by decide)]

theorem speckMix_speckUnmix (key : Bytes) {n : Nat} (hn : n ≤ 2 ^ 16) {s : Nat × Nat} (hs : HalfWords s) :
    speckMix key (speckUnmix key s n) n = s := by
  obtain ⟨left, right⟩ := s
  obtain ⟨hleft, hright⟩ := hs
  have hxor : right ^^^ left < 2 ^ 16 := Nat.xor_lt_two_pow hright hleft
  have hforth : rol16 (ror16 (right ^^^ left) 2) 2 = right ^^^ left := rol16_ror16 hxor (by decide) (by decide)
  have hsum : (((left ^^^ (speckKeyAt key n).1) + (0x10000 - ror16 (right ^^^ left) 2)) &&& 0xFFFF) +
      ror16 (right ^^^ left) 2 &&& 0xFFFF = left ^^^ (speckKeyAt key n).1 := by
    have hrotated := ror16_lt (right ^^^ left) 2
    have hkeyed : left ^^^ (speckKeyAt key n).1 < 2 ^ 16 := Nat.xor_lt_two_pow hleft (speckKeyAt_lt key hn)
    rw [Nat.and_two_pow_sub_one_eq_mod _ 16, Nat.and_two_pow_sub_one_eq_mod _ 16]
    omega
  simp only [speckMix, speckUnmix]
  rw [ror16_rol16 (mask16_lt _) (by decide) (by decide), hsum, xor_xor_cancel, hforth, xor_xor_cancel]

/-! ## The cipher -/

/-- `_speck32_encrypt` taken back. -/
def speck32Decrypt (block key : Bytes) : Bytes :=
  let s := (List.range 22).reverse.foldl (speckUnmix key) (halves block)
  leBytes 2 s.1 ++ leBytes 2 s.2

theorem speck32Encrypt_eq (block key : Bytes) : speck32Encrypt block key =
    leBytes 2 ((List.range 22).foldl (speckMix key) (halves block)).1 ++
      leBytes 2 ((List.range 22).foldl (speckMix key) (halves block)).2 := by
  rw [speck32Encrypt, speckRounds_eq]

theorem halves_leBytes {s : Nat × Nat} (hs : HalfWords s) : halves (leBytes 2 s.1 ++ leBytes 2 s.2) = s := by
  have hsecond : slice (leBytes 2 s.2) 0 2 = leBytes 2 s.2 := List.take_of_length_le (leBytes_length 2 _).le
  rw [halves, slice_leBytes_append, slice_leBytes_skip (Nat.le_refl 2), Nat.sub_self, hsecond, leNat_leBytes hs.1,
    leNat_leBytes hs.2]

theorem leBytes_halves {block : Bytes} (h : block.length = 4) : leBytes 2 (halves block).1 ++ leBytes 2 (halves block).2 = block := by
  rw [halves, leBytes_leNat_slice (by omega), leBytes_leNat_slice (by omega),
    slice_append_slice block (show 0 + 2 = 2 from rfl) (show 2 + 2 = 4 from rfl), slice_zero_eq_take,
    List.take_of_length_le h.le]

theorem speckRounds_words (key block : Bytes) : HalfWords ((List.range 22).foldl (speckMix key) (halves block)) :=
  foldl_keeps (fun i hi s _ => speckMix_words key ((List.mem_range.mp hi).le.trans (by decide)) s) (halves_words block)

theorem speckUnrounds_words (key block : Bytes) : HalfWords ((List.range 22).reverse.foldl (speckUnmix key) (halves block)) :=
  foldl_keeps (fun i _ s _ => speckUnmix_words key i s) (halves_words block)

theorem speck32Decrypt_speck32Encrypt (key : Bytes) {block : Bytes} (h : block.length = 4) :
    speck32Decrypt (speck32Encrypt block key) key = block := by
  have hkeeps : ∀ i ∈ List.range 22, ∀ s, HalfWords s → HalfWords (speckMix key s i) := fun i hi s _ =>
    speckMix_words key ((List.mem_range.mp hi).le.trans (by decide)) s
  have hundo : ∀ i ∈ List.range 22, ∀ s, HalfWords s → speckUnmix key (speckMix key s i) i = s := fun i _ s hs =>
    speckUnmix_speckMix key i hs
  rw [speck32Decrypt, speck32Encrypt_eq, halves_leBytes (speckRounds_words key block), foldl_undo hkeeps hundo (halves_words block),
    leBytes_halves h]

theorem speck32Encrypt_speck32Decrypt (key : Bytes) {block : Bytes} (h : block.length = 4) :
    speck32Encrypt (speck32Decrypt block key) key = block := by
  have hkeeps : ∀ i ∈ (List.range 22).reverse, ∀ s, HalfWords s → HalfWords (speckUnmix key s i) := fun i _ s _ =>
    speckUnmix_words key i s
  have hundo : ∀ i ∈ (List.range 22).reverse, ∀ s, HalfWords s → speckMix key (speckUnmix key s i) i = s := fun i hi s hs =>
    speckMix_speckUnmix key ((List.mem_range.mp (List.mem_reverse.mp hi)).le.trans (by decide)) hs
  have hback := foldl_undo hkeeps hundo (halves_words block)
  rw [List.reverse_reverse] at hback
  rw [speck32Encrypt_eq, speck32Decrypt, halves_leBytes (speckUnrounds_words key block), hback, leBytes_halves h]

/-- The four-byte blocks. -/
def macBlocks : Set Bytes := {block | block.length = 4}

theorem speck32Encrypt_injOn (key : Bytes) : Set.InjOn (speck32Encrypt · key) macBlocks := by
  intro b hb c hc heq
  rw [← speck32Decrypt_speck32Encrypt key hb, ← speck32Decrypt_speck32Encrypt key hc]
  exact congrArg (speck32Decrypt · key) heq

/-- The cipher permutes the blocks. -/
theorem speck32Encrypt_bijOn (key : Bytes) : Set.BijOn (speck32Encrypt · key) macBlocks macBlocks := by
  refine ⟨fun b _ => speck32Encrypt_length b key, speck32Encrypt_injOn key, ?_⟩
  intro b hb
  exact ⟨speck32Decrypt b key, by simp [macBlocks, speck32Decrypt], speck32Encrypt_speck32Decrypt key hb⟩

/-! ## The chain -/

theorem xorBytes_comm (a b : Bytes) : xorBytes a b = xorBytes b a := List.zipWith_comm_of_comm fun x y => UInt8.xor_comm x y

theorem xorBytes_xorBytes {a b : Bytes} (h : a.length = b.length) : xorBytes a (xorBytes a b) = b := by
  induction a generalizing b with
  | nil => exact (List.length_eq_zero_iff.mp h.symm).symm
  | cons x a ih =>
    cases b with
    | nil => cases h
    | cons y b =>
      have hxor : x ^^^ (x ^^^ y) = y := by rw [← UInt8.xor_assoc, UInt8.xor_self, UInt8.zero_xor]
      have hrest := ih (Nat.succ.inj h)
      simp only [xorBytes, List.zipWith_cons_cons, hxor] at hrest ⊢
      rw [hrest]

theorem xorBytes_block {a b : Bytes} (ha : a ∈ macBlocks) (hb : b ∈ macBlocks) : xorBytes a b ∈ macBlocks := by
  have ha' : a.length = 4 := ha
  have hb' : b.length = 4 := hb
  change (xorBytes a b).length = 4
  rw [xorBytes, List.length_zipWith, ha', hb', Nat.min_self]

/-- One turn of the CBC loop. -/
def macStep (key state block : Bytes) : Bytes := speck32Encrypt (xorBytes state block) key

theorem macStep_chained (key : Bytes) : Chained (· ∈ macBlocks) (· ∈ macBlocks) (macStep key) where
  keeps _ _ _ _ := speck32Encrypt_length _ key
  state_inj := by
    intro s t b hs ht hb heq
    have hxor := speck32Encrypt_injOn key (xorBytes_block hs hb) (xorBytes_block ht hb) heq
    rw [xorBytes_comm s, xorBytes_comm t] at hxor
    rw [← xorBytes_xorBytes (hb.trans hs.symm), ← xorBytes_xorBytes (hb.trans ht.symm), hxor]
  block_inj := by
    intro s b c hs hb hc heq
    have hxor := speck32Encrypt_injOn key (xorBytes_block hs hb) (xorBytes_block hs hc) heq
    rw [← xorBytes_xorBytes (hs.trans hb.symm), ← xorBytes_xorBytes (hs.trans hc.symm), hxor]

theorem macChain_eq_foldl (key : Bytes) {n : Nat} {padded : Bytes} (h : padded.length = 4 * n) :
    macChain key padded = ((List.range n).map fun i => slice padded (4 * i) 4).foldl (macStep key) [0, 0, 0, 0] := by
  have hturns : (padded.length + 3) / 4 = n := by omega
  rw [macChain, hturns, List.foldl_map]
  rfl

theorem range_split {k n : Nat} (h : k < n) :
    List.range n = List.range k ++ k :: (List.range (n - k - 1)).map fun i => k + 1 + i := by
  have hn : n = k + 1 + (n - k - 1) := by omega
  rw [hn, List.range_add, List.range_succ, List.append_assoc, ← hn]
  rfl

theorem macChain_damaged (key : Bytes) {n k : Nat} {as bs : Bytes} (hlength : as.length = 4 * n)
    (h : Damaged (4 * k) 4 as bs) : macChain key as ≠ macChain key bs := by
  have hlt := h.lt_length
  have hblock : ∀ cs : Bytes, cs.length = 4 * n → ∀ i < n, slice cs (4 * i) 4 ∈ macBlocks := by
    intro cs hcs i hi
    exact slice_length_of_le (by omega)
  have hbs : bs.length = 4 * n := by rw [← h.length_eq, hlength]
  have hk : k < n := by omega
  have hfront : ((List.range k).map fun i => slice as (4 * i) 4) = (List.range k).map fun i => slice bs (4 * i) 4 := by
    apply List.map_congr_left
    intro i hi
    have hik := List.mem_range.mp hi
    exact h.slice_eq (by omega)
  have hback : (((List.range (n - k - 1)).map fun i => k + 1 + i).map fun i => slice as (4 * i) 4) =
      ((List.range (n - k - 1)).map fun i => k + 1 + i).map fun i => slice bs (4 * i) 4 := by
    apply List.map_congr_left
    intro i hi
    obtain ⟨j, -, rfl⟩ := List.mem_map.mp hi
    exact h.slice_eq (by omega)
  rw [macChain_eq_foldl key hlength, macChain_eq_foldl key hbs, range_split hk, List.map_append, List.map_append,
    List.map_cons, List.map_cons, hfront, hback]
  refine (macStep_chained key).foldl_ne ?_ ?_ (hblock as hlength k hk) (hblock bs hbs k hk) h.slice_ne rfl
  · intro block hmem
    obtain ⟨i, hi, rfl⟩ := List.mem_map.mp hmem
    exact hblock bs hbs i ((List.mem_range.mp hi).trans hk)
  · intro block hmem
    obtain ⟨i, hi, rfl⟩ := List.mem_map.mp hmem
    obtain ⟨j, hj, rfl⟩ := List.mem_map.mp hi
    have hjn := List.mem_range.mp hj
    exact hblock bs hbs _ (by omega)

/-! ## The MAC -/

/-- Padding does not depend on what a message of its length says. -/
theorem macPadded_damaged {i n : Nat} {as bs : Bytes} (h : Damaged i n as bs) : Damaged i n (macPadded as) (macPadded bs) := by
  have hpadded : (as ++ [0x80]).length = (bs ++ [0x80]).length := by rw [List.length_append, List.length_append, h.length_eq]
  simp only [macPadded, hpadded, h.length_eq]
  exact ((h.append _).append _).append _

theorem macChain_block (key : Bytes) {n : Nat} {padded : Bytes} (h : padded.length = 4 * n) : macChain key padded ∈ macBlocks := by
  rw [macChain_eq_foldl key h]
  refine foldl_keeps (fun _ _ s _ => ?_) rfl
  exact speck32Encrypt_length _ key

/-- Messages of one length that differ inside one aligned block have different tags: the
    cipher permutes the blocks, whatever the key is. -/
theorem packet_mac_one_block :
    (∀ (key : Key) (as bs : Bytes) (k : Nat), Damaged (4 * k) 4 as bs → packetMac as key ≠ packetMac bs key) ∧
    ∀ key : Bytes, key.length = 8 → Set.BijOn (speck32Encrypt · key) macBlocks macBlocks := by
  refine ⟨?_, fun key _ => speck32Encrypt_bijOn key⟩
  intro key as bs k h htags
  have hpadded := macPadded_damaged h
  obtain ⟨n, hn⟩ := macPadded_length as
  have hn' : (macPadded bs).length = 4 * n := by rw [← hpadded.length_eq, hn]
  apply macChain_damaged (key.bytes.take 8) hn hpadded
  apply speck32Encrypt_injOn (key.bytes.drop 8) (macChain_block _ hn) (macChain_block _ hn')
  have hbytes : ∀ block : Bytes, leBytes 4 (leNat (speck32Encrypt block (key.bytes.drop 8))) = speck32Encrypt block (key.bytes.drop 8) := by
    intro block
    have hround := leBytes_leNat (speck32Encrypt block (key.bytes.drop 8))
    rwa [speck32Encrypt_length] at hround
  have htags' := congrArg (leBytes 4) htags
  rwa [packetMac, packetMac, hbytes, hbytes] at htags'

theorem packet_mac_one_block_second :
    packetMac [1, 2, 3, 4, 5, 6] ⟨List.replicate 16 0, zeros_length⟩ ≠
      packetMac ([1, 2, 3, 4, 5, 6].set 5 7) ⟨List.replicate 16 0, zeros_length⟩ ∧
    Set.BijOn (speck32Encrypt · (List.replicate 8 0)) macBlocks macBlocks := by
  have hlast : Damaged 5 1 ([1, 2, 3, 4, 5, 6] : Bytes) ([1, 2, 3, 4, 5, 6].set 5 7) := damaged_set (by decide) (by decide)
  have hblock : Damaged (4 * 1) 4 ([1, 2, 3, 4, 5, 6] : Bytes) ([1, 2, 3, 4, 5, 6].set 5 7) :=
    ⟨hlast.length_eq, hlast.differ, fun j hj => hlast.same j (by omega)⟩
  exact ⟨packet_mac_one_block.1 _ _ _ 1 hblock, packet_mac_one_block.2 _ rfl⟩

end DosMcp
