/-
  DosMcp.Dos.ProtoProofs — the C and the Python packet codecs are the same format.

  Each C word operation is the Python expression on the word's value (`toNat`): the
  loads and stores, the CRC step, the Speck rotations. From these:
  - `dmCrc16Ccitt_toNat`: the CRCs agree.
  - `dmSpeck32Encrypt_eq`: 22 round keys expanded once give the cipher whose schedule
    runs along with the rounds. Step `n` of the expansion holds the schedule the
    interleaved loop has before round `n` (`speck_simulation`).
  - `dmPacketMac_toNat`: feeding bytes into a four-byte buffer chains the blocks the
    padded message is sliced into.
  - `codecs_agree`: the encoders write the same bytes, and one decoder accepts a
    datagram exactly when the other does, with the same fields.
-/

import DosMcp.Dos.Proto
import DosMcp.Protocol.PacketProofs

namespace DosMcp.Dos

open Lib

/-! ## Words -/

theorem or_shiftLeft_eq_add {x y i : Nat} (h : x < 2 ^ i) : x ||| (y <<< i) = x + 2 ^ i * y := by
  rw [Nat.or_comm, ← Nat.shiftLeft_add_eq_or_of_lt h, Nat.shiftLeft_eq]
  ring

theorem byte_word16 (x y : UInt8) : (x.toUInt16 ||| (y.toUInt16 <<< 8)).toNat = x.toNat + 256 * y.toNat := by
  have hx := x.toNat_lt
  have hy := y.toNat_lt
  have hs : y.toNat <<< 8 < 2 ^ 16 := by rw [Nat.shiftLeft_eq]; omega
  simp only [UInt16.toNat_or, UInt16.toNat_shiftLeft, UInt8.toNat_toUInt16, UInt16.reduceToNat, Nat.reduceMod,
    Nat.mod_eq_of_lt hs]
  exact or_shiftLeft_eq_add (i := 8) hx

theorem byte_word32 (x y z w : UInt8) :
    (x.toUInt32 ||| (y.toUInt32 <<< 8) ||| (z.toUInt32 <<< 16) ||| (w.toUInt32 <<< 24)).toNat =
      x.toNat + 256 * (y.toNat + 256 * (z.toNat + 256 * w.toNat)) := by
  have hx := x.toNat_lt
  have hy := y.toNat_lt
  have hz := z.toNat_lt
  have hw := w.toNat_lt
  have h1 : y.toNat <<< 8 < 2 ^ 32 := by rw [Nat.shiftLeft_eq]; omega
  have h2 : z.toNat <<< 16 < 2 ^ 32 := by rw [Nat.shiftLeft_eq]; omega
  have h3 : w.toNat <<< 24 < 2 ^ 32 := by rw [Nat.shiftLeft_eq]; omega
  simp only [UInt32.toNat_or, UInt32.toNat_shiftLeft, UInt8.toNat_toUInt32, UInt32.reduceToNat, Nat.reduceMod,
    Nat.mod_eq_of_lt h1, Nat.mod_eq_of_lt h2, Nat.mod_eq_of_lt h3]
  rw [or_shiftLeft_eq_add (i := 8) hx, or_shiftLeft_eq_add (i := 16) (by omega), or_shiftLeft_eq_add (i := 24) (by omega)]
  omega

theorem dmGetU16_toNat {bs : Bytes} {i : Nat} (h : i + 1 < bs.length) : (dmGetU16 bs i).toNat = leNat (slice bs i 2) := by
  rw [dmGetU16, byte_word16, slice_two h]
  simp [leNat]

theorem dmGetU32_toNat {bs : Bytes} {i : Nat} (h : i + 3 < bs.length) : (dmGetU32 bs i).toNat = leNat (slice bs i 4) := by
  rw [dmGetU32, byte_word32, slice_four h]
  simp [leNat]

theorem dmPutU16_eq (v : UInt16) : dmPutU16 v = leBytes 2 v.toNat := by
  rw [dmPutU16, leBytes_two]
  congr 2
  apply UInt8.toNat_inj.mp
  simp [Nat.shiftRight_eq_div_pow]

theorem dmPutU32_eq (v : UInt32) : dmPutU32 v = leBytes 4 v.toNat := by
  rw [dmPutU32, leBytes_four]
  congr 2
  · apply UInt8.toNat_inj.mp
    simp [Nat.shiftRight_eq_div_pow]
  congr 1
  · apply UInt8.toNat_inj.mp
    simp [Nat.shiftRight_eq_div_pow, Nat.div_div_eq_div_mul]
  congr 1
  · apply UInt8.toNat_inj.mp
    simp [Nat.shiftRight_eq_div_pow, Nat.div_div_eq_div_mul]

theorem pack_u8 (x : UInt8) (fields : List (Nat × Int)) : pack ((1, (x.toNat : Int)) :: fields) = (pack fields).map ([x] ++ ·) := by
  rw [pack_cons x.toNat_lt, leBytes_one, UInt8.ofNat_toNat]

theorem pack_u16 (x : UInt16) (fields : List (Nat × Int)) :
    pack ((2, (x.toNat : Int)) :: fields) = (pack fields).map (dmPutU16 x ++ ·) := by
  rw [pack_cons x.toNat_lt, dmPutU16_eq]

theorem pack_u32 (x : UInt32) (fields : List (Nat × Int)) :
    pack ((4, (x.toNat : Int)) :: fields) = (pack fields).map (dmPutU32 x ++ ·) := by
  rw [pack_cons x.toNat_lt, dmPutU32_eq]

/-! ## CRC-16 -/

theorem and_mask16 (n : Nat) : n &&& 0xFFFF = n % 2 ^ 16 := Nat.and_two_pow_sub_one_eq_mod n 16

theorem dmCrc16Bit_toNat (crc : UInt16) : (dmCrc16Bit crc).toNat = crc16Bit crc.toNat := by
  have ht : crc &&& 0x8000 ≠ 0 ↔ crc.toNat &&& 0x8000 ≠ 0 := by
    rw [ne_eq, ne_eq, ← UInt16.toNat_inj]; simp
  have hs : (crc <<< 1).toNat = crc.toNat <<< 1 % 2 ^ 16 := by simp
  unfold dmCrc16Bit crc16Bit
  by_cases h : crc &&& 0x8000 ≠ 0
  · rw [if_pos h, if_pos (ht.mp h), UInt16.toNat_xor, hs, and_mask16, Nat.xor_mod_two_pow]
    rfl
  · rw [if_neg h, if_neg (fun hc => h (ht.mpr hc)), hs, and_mask16]

theorem dmCrc16Bit_iterate (n : Nat) (crc : UInt16) : (dmCrc16Bit^[n] crc).toNat = crc16Bit^[n] crc.toNat := by
  induction n generalizing crc with
  | zero => rfl
  | succ n ih => rw [Function.iterate_succ_apply, Function.iterate_succ_apply, ih, dmCrc16Bit_toNat]

theorem dmCrc16Byte_toNat (crc : UInt16) (value : UInt8) : (dmCrc16Byte crc value).toNat = crc16Byte crc.toNat value := by
  have hv := value.toNat_lt
  have hs : value.toNat <<< 8 < 2 ^ 16 := by rw [Nat.shiftLeft_eq]; omega
  rw [dmCrc16Byte, crc16Byte, dmCrc16Bit_iterate]
  congr 1
  simp only [UInt16.toNat_xor, UInt16.toNat_shiftLeft, UInt8.toNat_toUInt16, UInt16.reduceToNat, Nat.reduceMod,
    Nat.mod_eq_of_lt hs]

theorem dmCrc16Ccitt_toNat (data : Bytes) : (dmCrc16Ccitt data).toNat = crc16Ccitt data := by
  have h : ∀ (crc : UInt16), (data.foldl dmCrc16Byte crc).toNat = data.foldl crc16Byte crc.toNat := by
    induction data with
    | nil => intro crc; rfl
    | cons b data ih => intro crc; rw [List.foldl_cons, List.foldl_cons, ih, dmCrc16Byte_toNat]
  exact h 0xFFFF

/-! ## Speck -/

theorem or_mod_two_pow (a b n : Nat) : (a ||| b) % 2 ^ n = a % 2 ^ n ||| b % 2 ^ n := by
  apply Nat.eq_of_testBit_eq
  intro i
  by_cases h : i < n <;> simp [Nat.testBit_mod_two_pow, h]

theorem rorWord_toNat (w : UInt16) : ((w >>> 7) ||| (w <<< 9)).toNat = ror16 w.toNat 7 := by
  have hw := w.toNat_lt
  have hr : w.toNat >>> 7 < 2 ^ 16 := by rw [Nat.shiftRight_eq_div_pow]; omega
  rw [ror16, and_mask16, or_mod_two_pow, Nat.mod_eq_of_lt hr]
  simp

theorem rolWord_toNat (w : UInt16) : ((w <<< 2) ||| (w >>> 14)).toNat = rol16 w.toNat 2 := by
  have hw := w.toNat_lt
  have hr : w.toNat >>> 14 < 2 ^ 16 := by rw [Nat.shiftRight_eq_div_pow]; omega
  rw [rol16, and_mask16, or_mod_two_pow, Nat.mod_eq_of_lt hr]
  simp

theorem addWord_toNat (a b : UInt16) : (a + b).toNat = (a.toNat + b.toNat) &&& 0xFFFF := by
  rw [and_mask16, UInt16.toNat_add]

/-- The expansion after `n` rounds. -/
def expandAt (key : Bytes) (n : Nat) : DmExpand := (List.range n).foldl dmExpandStep (dmExpandStart key)

theorem expandAt_succ (key : Bytes) (n : Nat) : expandAt key (n + 1) = dmExpandStep (expandAt key n) n := by
  simp [expandAt, List.range_succ, List.foldl_append]

theorem expandAt_slot (key : Bytes) (n : Nat) : (expandAt key n).slot = n % 3 := by
  induction n with
  | zero => rfl
  | succ n ih =>
    rw [expandAt_succ]
    simp only [dmExpandStep, ih]
    split <;> omega

theorem expandAt_roundKeys (key : Bytes) (n : Nat) :
    (expandAt key n).roundKeys = (List.range (n + 1)).map fun i => (expandAt key i).roundKey := by
  induction n with
  | zero => rfl
  | succ n ih =>
    rw [List.range_succ, List.map_append, ← ih, List.map_singleton, expandAt_succ]
    rfl

theorem dmSpeck32Expand_getD (key : Bytes) {i : Nat} (hi : i < 22) :
    (dmSpeck32Expand key).getD i 0 = (expandAt key i).roundKey := by
  have h : dmSpeck32Expand key = (expandAt key 21).roundKeys := rfl
  rw [h, expandAt_roundKeys]
  simp [List.getD_eq_getElem?_getD, List.getElem?_range hi]

/-- The cipher's halves after `n` rounds. -/
def halvesAt (block key : Bytes) (n : Nat) : UInt16 × UInt16 :=
  (List.range n).foldl (dmSpeckRound (dmSpeck32Expand key)) (dmGetU16 block 0, dmGetU16 block 2)

theorem halvesAt_succ (block key : Bytes) (n : Nat) :
    halvesAt block key (n + 1) = dmSpeckRound (dmSpeck32Expand key) (halvesAt block key n) n := by
  simp [halvesAt, List.range_succ, List.foldl_append]

def speckAt (block key : Bytes) (n : Nat) : SpeckState := (List.range n).foldl speckRound (speckStart block key)

theorem speckAt_succ (block key : Bytes) (n : Nat) : speckAt block key (n + 1) = speckRound (speckAt block key n) n := by
  simp [speckAt, List.range_succ, List.foldl_append]

theorem getD_map_toNat (l : List UInt16) (i : Nat) : (l.map UInt16.toNat).getD i 0 = (l.getD i 0).toNat := by
  simp only [List.getD_eq_getElem?_getD, List.getElem?_map]
  cases l[i]? <;> rfl

/-- One round of the data path on both sides. -/
theorem dmSpeckRound_toNat (key : Bytes) (s : UInt16 × UInt16) {n : Nat} (hn : n < 22) :
    (dmSpeckRound (dmSpeck32Expand key) s n).1.toNat =
        ((ror16 s.1.toNat 7 + s.2.toNat) &&& 0xFFFF) ^^^ (expandAt key n).roundKey.toNat ∧
      (dmSpeckRound (dmSpeck32Expand key) s n).2.toNat =
        rol16 s.2.toNat 2 ^^^ (dmSpeckRound (dmSpeck32Expand key) s n).1.toNat := by
  simp only [dmSpeckRound, dmSpeck32Expand_getD key hn, UInt16.toNat_xor, addWord_toNat, rorWord_toNat, rolWord_toNat]
  exact ⟨trivial, trivial⟩

/-- Before round `n` the interleaved loop holds the halves of the separate cipher, and,
    until the schedule stops, the expansion's round key and schedule. -/
theorem speck_simulation {block key : Bytes} (hb : block.length = 4) (hk : 8 ≤ key.length) (n : Nat) (hn : n ≤ 22) :
    (speckAt block key n).left = (halvesAt block key n).1.toNat ∧
      (speckAt block key n).right = (halvesAt block key n).2.toNat ∧
      (n ≤ 21 → (speckAt block key n).roundKey = (expandAt key n).roundKey.toNat ∧
        (speckAt block key n).schedule = (expandAt key n).schedule.map UInt16.toNat) := by
  induction n with
  | zero =>
    simp only [speckAt, halvesAt, expandAt, List.range_zero, List.foldl_nil, speckStart, dmExpandStart, List.map_cons,
      List.map_nil]
    rw [dmGetU16_toNat (by omega), dmGetU16_toNat (by omega), dmGetU16_toNat (by omega), dmGetU16_toNat (by omega),
      dmGetU16_toNat (by omega), dmGetU16_toNat (by omega)]
    simp
  | succ n ih =>
    obtain ⟨hl, hr, hs⟩ := ih (by omega)
    obtain ⟨hrk, hsch⟩ := hs (by omega)
    obtain ⟨e1, e2⟩ := dmSpeckRound_toNat key (halvesAt block key n) (show n < 22 by omega)
    rw [speckAt_succ, halvesAt_succ, expandAt_succ]
    by_cases h21 : n ≠ 21
    · simp only [speckRound, h21, if_true, ne_eq, not_false_eq_true]
      rw [e2, e1, hl, hr, hrk, hsch, getD_map_toNat]
      refine ⟨rfl, rfl, fun _ => ?_⟩
      have hw : UInt16.toNat (UInt16.ofNat n) = n := by simp; omega
      simp only [dmExpandStep, expandAt_slot, UInt16.toNat_xor, addWord_toNat, rorWord_toNat, rolWord_toNat, hw,
        List.map_set]
      exact ⟨trivial, trivial⟩
    · simp only [speckRound, h21, if_false]
      rw [e2, e1, hl, hr, hrk]
      exact ⟨rfl, rfl, fun h => absurd (by omega : n ≠ 21) h21⟩

theorem dmSpeck32Encrypt_eq {block key : Bytes} (hb : block.length = 4) (hk : 8 ≤ key.length) :
    dmSpeck32Encrypt block (dmSpeck32Expand key) = speck32Encrypt block key := by
  obtain ⟨hl, hr, -⟩ := speck_simulation hb hk 22 (Nat.le_refl _)
  have e1 : dmSpeck32Encrypt block (dmSpeck32Expand key) =
      dmPutU16 (halvesAt block key 22).1 ++ dmPutU16 (halvesAt block key 22).2 := rfl
  have e2 : speck32Encrypt block key = leBytes 2 (speckAt block key 22).left ++ leBytes 2 (speckAt block key 22).right := rfl
  rw [e1, e2, dmPutU16_eq, dmPutU16_eq, hl, hr]

/-! ## The MAC -/

/-- CBC chaining of a block function over a string cut into blocks of four bytes. -/
def chain (e : Bytes → Bytes) (state : Bytes) : Bytes → Bytes
  | a :: b :: c :: d :: rest => chain e (e (xorBytes state [a, b, c, d])) rest
  | _ => state

/-- The loop over block offsets is the chain over the string, when the string is whole
    blocks. -/
theorem foldl_slices_eq_chain (e : Bytes → Bytes) (n : Nat) (state bs : Bytes) (h : bs.length = 4 * n) :
    (List.range n).foldl (fun st i => e (xorBytes st (slice bs (4 * i) 4))) state = chain e state bs := by
  induction n generalizing state bs with
  | zero =>
    obtain rfl : bs = [] := List.eq_nil_of_length_eq_zero (by omega)
    rfl
  | succ n ih =>
    obtain ⟨a, b, c, d, rest, rfl, hr⟩ := exists_block h
    rw [List.range_succ_eq_map, List.foldl_cons, List.foldl_map, chain, ← ih _ _ hr]
    rfl

theorem macChain_eq_chain (key data : Bytes) :
    macChain key (macPadded data) = chain (speck32Encrypt · key) [0, 0, 0, 0] (macPadded data) := by
  obtain ⟨n, hn⟩ := macPadded_length data
  rw [macChain, hn, show (4 * n + 3) / 4 = n by omega]
  exact foldl_slices_eq_chain (speck32Encrypt · key) n _ _ hn

theorem dmMacFeed_used (c : DmMac) (bs : Bytes) (h : c.used < 4) :
    (bs.foldl dmMacFeed c).used = (c.used + bs.length) % 4 := by
  induction bs generalizing c with
  | nil => simp; omega
  | cons b bs ih =>
    have hu : (dmMacFeed c b).used = (c.used + 1) % 4 := by
      simp only [dmMacFeed, dmMacBlock]
      split
      · rename_i h4; rw [h4]
      · simp only at *; omega
    rw [List.foldl_cons, ih _ (by rw [hu]; omega), hu, List.length_cons]
    omega

/-- Padding feeds exactly the zeros the Python side appends. -/
theorem dmMacPad_eq (c : DmMac) (h : c.used < 4) :
    dmMacPad 4 c = (List.replicate ((4 - c.used) % 4) 0).foldl dmMacFeed c := by
  have hs : ∀ x : DmMac, x.used < 4 → (dmMacFeed x 0).used = (x.used + 1) % 4 := fun x hx => dmMacFeed_used x [0] hx
  obtain h0 | h1 | h2 | h3 : c.used = 0 ∨ c.used = 1 ∨ c.used = 2 ∨ c.used = 3 := by omega
  · simp [dmMacPad, h0]
  · have e1 := hs c h
    have e2 := hs (dmMacFeed c 0) (by omega)
    have e3 := hs (dmMacFeed (dmMacFeed c 0) 0) (by omega)
    simp_all [dmMacPad, List.replicate]
  · have e1 := hs c h
    have e2 := hs (dmMacFeed c 0) (by omega)
    simp_all [dmMacPad, List.replicate]
  · have e1 := hs c h
    simp_all [dmMacPad]

/-- Four bytes fed into an empty buffer make one chained block. -/
theorem dmMacFeed_block {c : DmMac} (hu : c.used = 0) (hb : c.block.length = 4) (x y z w : UInt8) :
    [x, y, z, w].foldl dmMacFeed c =
      { c with state := dmSpeck32Encrypt (xorBytes c.state [x, y, z, w]) c.roundKeys, block := [x, y, z, w] } := by
  obtain ⟨state, block, used, keys⟩ := c
  simp only at hu hb
  subst hu
  obtain ⟨p, q, r, s, rfl⟩ : ∃ p q r s, block = [p, q, r, s] := by
    match block, hb with
    | [p, q, r, s], _ => exact ⟨p, q, r, s, rfl⟩
  simp [dmMacFeed, dmMacBlock, xorBytes]

theorem dmMacFeed_chain (n : Nat) (bs : Bytes) (h : bs.length = 4 * n) (c : DmMac) (hu : c.used = 0)
    (hb : c.block.length = 4) : (bs.foldl dmMacFeed c).state = chain (dmSpeck32Encrypt · c.roundKeys) c.state bs := by
  induction n generalizing bs c with
  | zero =>
    obtain rfl : bs = [] := List.eq_nil_of_length_eq_zero (by omega)
    rfl
  | succ n ih =>
    obtain ⟨x, y, z, w, rest, rfl, hr⟩ := exists_block h
    have e : (x :: y :: z :: w :: rest).foldl dmMacFeed c = rest.foldl dmMacFeed ([x, y, z, w].foldl dmMacFeed c) := rfl
    rw [e, dmMacFeed_block hu hb, chain]
    exact ih rest hr _ hu rfl

/-- The chains agree block by block: every chained block has four bytes. -/
theorem chain_congr {e f : Bytes → Bytes} (hef : ∀ b : Bytes, b.length = 4 → e b = f b) (he : ∀ b, (e b).length = 4)
    (n : Nat) (state bs : Bytes) (hs : state.length = 4) (h : bs.length = 4 * n) : chain e state bs = chain f state bs := by
  induction n generalizing state bs with
  | zero =>
    obtain rfl : bs = [] := List.eq_nil_of_length_eq_zero (by omega)
    rfl
  | succ n ih =>
    obtain ⟨x, y, z, w, rest, rfl, hr⟩ := exists_block h
    have hx : (xorBytes state [x, y, z, w]).length = 4 := by simp [xorBytes, hs]
    rw [chain, chain, ← hef _ hx]
    exact ih _ _ (he _) hr

theorem chain_length {e : Bytes → Bytes} (he : ∀ b, (e b).length = 4) (n : Nat) (state bs : Bytes)
    (hs : state.length = 4) (h : bs.length = 4 * n) : (chain e state bs).length = 4 := by
  induction n generalizing state bs with
  | zero =>
    obtain rfl : bs = [] := List.eq_nil_of_length_eq_zero (by omega)
    exact hs
  | succ n ih =>
    obtain ⟨x, y, z, w, rest, rfl, hr⟩ := exists_block h
    rw [chain]
    exact ih _ _ (he _) hr

theorem dmSpeck32Expand_take (key : Bytes) : dmSpeck32Expand (key.take 8) = dmSpeck32Expand key := by
  have h : dmExpandStart (key.take 8) = dmExpandStart key := by simp [dmExpandStart, dmGetU16, byteAt_take]
  rw [dmSpeck32Expand, h, dmSpeck32Expand]

/-- The context `dm_packet_mac` starts from. -/
def dmMacStart (key : Bytes) : DmMac := ⟨[0, 0, 0, 0], [0, 0, 0, 0], 0, dmSpeck32Expand key⟩

theorem dmPacketMac_fed {data : Bytes} (hd : data.length < 65536) (key : Bytes) :
    dmPacketMac data key =
      dmGetU32 (dmSpeck32Encrypt ((macPadded data).foldl dmMacFeed (dmMacStart key)).state
        (dmSpeck32Expand (key.drop 8))) 0 := by
  have hused : (data.foldl dmMacFeed (dmMacStart key)).used < 4 := by rw [dmMacFeed_used _ _ (by simp [dmMacStart])]; omega
  have hfed : (dmMacFeed (data.foldl dmMacFeed (dmMacStart key)) 0x80).used = (data.length + 1) % 4 := by
    have := dmMacFeed_used (dmMacStart key) (data ++ [0x80]) (by simp [dmMacStart])
    simpa [List.foldl_append, dmMacStart] using this
  have hlen : dmPutU32 (UInt16.ofNat data.length).toUInt32 = leBytes 4 data.length := by
    rw [dmPutU32_eq]; congr 1; simp; omega
  have e : dmPacketMac data key = dmGetU32 (dmSpeck32Encrypt ((dmPutU32 (UInt16.ofNat data.length).toUInt32).foldl dmMacFeed
      (dmMacPad 4 (dmMacFeed (data.foldl dmMacFeed (dmMacStart key)) 0x80))).state (dmSpeck32Expand (key.drop 8))) 0 := rfl
  rw [e, hlen, dmMacPad_eq _ (by rw [hfed]; omega), hfed]
  simp only [macPadded, List.foldl_append, List.length_append, List.length_singleton, List.foldl_cons, List.foldl_nil]

theorem dmPacketMac_toNat {data : Bytes} (hd : data.length < 65536) (key : Key) :
    (dmPacketMac data key.bytes).toNat = packetMac data key := by
  have hk := key.length_eq
  obtain ⟨n, hn⟩ := macPadded_length data
  -- both chains run over the padded message; the block functions agree on blocks
  have hblock : ∀ b : Bytes, b.length = 4 →
      speck32Encrypt b (key.bytes.take 8) = dmSpeck32Encrypt b (dmSpeck32Expand key.bytes) := by
    intro b hb
    rw [← dmSpeck32Encrypt_eq hb (by simp [hk]), dmSpeck32Expand_take]
  have hstate : ((macPadded data).foldl dmMacFeed (dmMacStart key.bytes)).state =
      chain (speck32Encrypt · (key.bytes.take 8)) [0, 0, 0, 0] (macPadded data) := by
    rw [dmMacFeed_chain n _ hn _ rfl rfl]
    exact (chain_congr hblock (fun b => speck32Encrypt_length b _) n _ _ rfl hn).symm
  have hlen4 := chain_length (fun b => speck32Encrypt_length b (key.bytes.take 8)) n [0, 0, 0, 0] _ rfl hn
  rw [dmPacketMac_fed hd, packetMac, macChain_eq_chain, hstate, dmSpeck32Encrypt_eq hlen4 (by simp [hk]),
    dmGetU32_toNat (by rw [speck32Encrypt_length]; omega)]
  congr 1

/-! ## The codecs -/

/-- A Python packet as the C structure. -/
def ofPacket (p : Packet) : DmPacket where
  kind := UInt8.ofNat p.kind.value
  opcode := UInt8.ofNat p.opcode.value
  flags := UInt8.ofNat p.flags
  sessionId := UInt16.ofNat p.sessionId
  requestId := UInt16.ofNat p.requestId
  fragmentIndex := UInt8.ofNat p.fragmentIndex
  fragmentCount := UInt8.ofNat p.fragmentCount
  payload := p.payload

/-- The C fields of a packet hold its values. -/
theorem ofPacket_values (p : Packet) :
    (ofPacket p).kind.toNat = p.kind.value ∧ (ofPacket p).opcode.toNat = p.opcode.value ∧ (ofPacket p).flags = 0 ∧
      (ofPacket p).sessionId.toNat = p.sessionId ∧ (ofPacket p).requestId.toNat = p.requestId ∧
      (ofPacket p).fragmentIndex.toNat = p.fragmentIndex ∧ (ofPacket p).fragmentCount.toNat = p.fragmentCount ∧
      (ofPacket p).payloadLength.toNat = p.payload.length := by
  have hk := p.kind.value_range
  have ho := p.opcode.value_range
  have hs := p.sessionId_le
  have hr := p.requestId_le
  have hc := p.fragmentCount_range
  have hi := p.fragmentIndex_lt
  have hp := p.payload_le
  simp only [maxFragments, maxFragmentPayload] at hc hp
  simp only [ofPacket, DmPacket.payloadLength, UInt8.toNat_ofNat', UInt16.toNat_ofNat', p.flags_zero]
  refine ⟨by omega, by omega, rfl, by omega, by omega, by omega, by omega, by omega⟩

/-- The C range checks hold for every packet. -/
theorem ofPacket_valid (p : Packet) :
    ¬ ((ofPacket p).kind < dmKindRequest ∨ (ofPacket p).kind > dmKindError ∨ (ofPacket p).opcode < dmOpHello ∨
        (ofPacket p).opcode > dmOpMax) ∧
      ¬ ((ofPacket p).fragmentCount = 0 ∨ (ofPacket p).fragmentCount > dmMaxFragments ∨
        (ofPacket p).fragmentIndex ≥ (ofPacket p).fragmentCount) ∧
      ¬ (ofPacket p).payloadLength > dmMaxFragmentPayload := by
  obtain ⟨ek, eo, -, -, -, ei, ec, el⟩ := ofPacket_values p
  have hk := p.kind.value_range
  have ho := p.opcode.value_range
  have hc := p.fragmentCount_range
  have hi := p.fragmentIndex_lt
  have hp := p.payload_le
  simp only [maxFragments, maxFragmentPayload] at hc hp
  simp only [← UInt8.toNat_inj, UInt8.lt_iff_toNat_lt, UInt8.le_iff_toNat_le, UInt16.lt_iff_toNat_lt, gt_iff_lt, ge_iff_le,
    ek, eo, ei, ec, el, dmKindRequest, dmKindError, dmOpHello, dmOpMax, dmMaxFragments, dmMaxFragmentPayload,
    UInt8.reduceToNat, UInt16.reduceToNat]
  refine ⟨by omega, by omega, by omega⟩

/-- The encoders write the same bytes. -/
theorem dmPacketEncode_ofPacket (p : Packet) (key : Key) {capacity : UInt16}
    (hcap : headerSize + p.payload.length ≤ capacity.toNat) :
    dmPacketEncode (ofPacket p) key.bytes capacity = .ok (p.encode key) := by
  obtain ⟨-, -, ef, es, er, -, -, el⟩ := ofPacket_values p
  obtain ⟨c1, c2, c3⟩ := ofPacket_valid p
  have hp := p.payload_le
  simp only [maxFragmentPayload, headerSize] at hp hcap
  have c4 : ¬ capacity < dmHeaderSize + (ofPacket p).payloadLength := by
    simp only [UInt16.lt_iff_toNat_lt, UInt16.toNat_add, el, dmHeaderSize, UInt16.reduceToNat]
    omega
  have hhead : [0x44, 0x4D, dmVersion, (ofPacket p).kind, (ofPacket p).opcode, (ofPacket p).flags] ++
      dmPutU16 (ofPacket p).sessionId ++ dmPutU16 (ofPacket p).requestId ++
      [(ofPacket p).fragmentIndex, (ofPacket p).fragmentCount] ++ dmPutU16 (ofPacket p).payloadLength =
      packFields p.fields := by
    simp only [dmPutU16_eq, es, er, el]
    simp [packFields, Packet.fields, leBytes_one, ofPacket, magic, version, dmVersion]
  have hauth : packFields p.fields ++ dmPutU16 (dmCrc16Ccitt (packFields p.fields ++ p.payload)) =
      packAuth (p.header key) := by
    rw [dmPutU16_eq, dmCrc16Ccitt_toNat]
    rfl
  have hlen : (packAuth (p.header key) ++ p.payload).length < 65536 := by
    rw [← hauth, List.length_append, List.length_append, packFields_length rfl]
    simp only [dmPutU16, List.length_cons, List.length_nil]
    omega
  have hpay : (ofPacket p).payload = p.payload := rfl
  simp only [dmPacketEncode, ef, c1, c2, c3, c4, if_false, ne_eq, not_true_eq_false]
  rw [← ef, hhead, hpay, hauth, dmPutU32_eq, dmPacketMac_toNat hlen]
  rfl

/-- Each byte and word the C decoder reads is the header field Python unpacks. -/
theorem header_words {d : Bytes} (hd : headerSize ≤ d.length) :
    (unpackHeader d).magic = [byteAt d 0, byteAt d 1] ∧ (byteAt d 2).toNat = (unpackHeader d).version ∧
      (byteAt d 3).toNat = (unpackHeader d).rawKind ∧ (byteAt d 4).toNat = (unpackHeader d).rawOpcode ∧
      (byteAt d 5).toNat = (unpackHeader d).flags ∧ (dmGetU16 d 6).toNat = (unpackHeader d).sessionId ∧
      (dmGetU16 d 8).toNat = (unpackHeader d).requestId ∧ (byteAt d 10).toNat = (unpackHeader d).fragmentIndex ∧
      (byteAt d 11).toNat = (unpackHeader d).fragmentCount ∧ (dmGetU16 d 12).toNat = (unpackHeader d).payloadLength ∧
      (dmGetU16 d 14).toNat = (unpackHeader d).checksum ∧ (dmGetU32 d 16).toNat = (unpackHeader d).tag := by
  unfold headerSize at hd
  simp only [unpackHeader]
  rw [dmGetU16_toNat (by omega), dmGetU16_toNat (by omega), dmGetU16_toNat (by omega), dmGetU16_toNat (by omega),
    dmGetU32_toNat (by omega), slice_two (by omega), leNat_slice_one (by omega), leNat_slice_one (by omega),
    leNat_slice_one (by omega), leNat_slice_one (by omega), leNat_slice_one (by omega), leNat_slice_one (by omega)]
  exact ⟨rfl, rfl, rfl, rfl, rfl, rfl, rfl, rfl, rfl, rfl, rfl, rfl⟩

theorem byte_eq {b : UInt8} {n : Nat} (h : b.toNat = n) : b = UInt8.ofNat n := by
  rw [← h, UInt8.ofNat_toNat]

theorem word_eq {w : UInt16} {n : Nat} (h : w.toNat = n) : w = UInt16.ofNat n := by
  rw [← h, UInt16.ofNat_toNat]

/-- What Python accepts, C accepts, with the same fields. -/
theorem dmPacketDecode_of_decode {d : Bytes} {key : Key} {p : Packet} (h : Packet.decode d key = .ok p) :
    dmPacketDecode d key.bytes = .ok (ofPacket p) := by
  obtain ⟨hd, hm, hv, hf, t, ht, h'⟩ := Packet.decode_eq_ok h
  obtain ⟨htl, hdt⟩ := trimPad_eq_some ht
  have hu : unpackHeader d = p.header key := by
    rcases Packet.encode_of_decode h with rfl | rfl
    · simpa using p.unpackHeader_encode key []
    · exact p.unpackHeader_encode key _
  obtain ⟨w0, w2, w3, w4, w5, w6, w8, w10, w11, w12, w14, w16⟩ := header_words hd
  obtain ⟨-, -, -, -, -, -, hp, hcrc, hmac⟩ := Packet.decodeTrimmed_eq_ok h'
  obtain ⟨c1, c2, c3⟩ := ofPacket_valid p
  obtain ⟨-, -, ef, -, -, -, -, el⟩ := ofPacket_values p
  have hpl := p.payload_le
  rw [hu] at w2 w3 w4 w5 w6 w8 w10 w11 w12 w14 w16 htl hm hcrc hmac
  have k3 : byteAt d 3 = (ofPacket p).kind := byte_eq w3
  have k4 : byteAt d 4 = (ofPacket p).opcode := byte_eq w4
  have k5 : byteAt d 5 = (ofPacket p).flags := byte_eq w5
  have k6 : dmGetU16 d 6 = (ofPacket p).sessionId := word_eq w6
  have k8 : dmGetU16 d 8 = (ofPacket p).requestId := word_eq w8
  have k10 : byteAt d 10 = (ofPacket p).fragmentIndex := byte_eq w10
  have k11 : byteAt d 11 = (ofPacket p).fragmentCount := byte_eq w11
  have k12 : dmGetU16 d 12 = (ofPacket p).payloadLength := word_eq w12
  have k2 : byteAt d 2 = dmVersion := byte_eq w2
  have hmagic : ¬ (byteAt d 0 ≠ 0x44 ∨ byteAt d 1 ≠ 0x4D) := by
    have : [byteAt d 0, byteAt d 1] = magic := by rw [← w0, hu]; exact hm
    simpa [magic] using this
  have hpl' : (p.header key).payloadLength = p.payload.length := rfl
  simp only [headerSize, maxFragmentPayload, hpl'] at hd hpl htl
  have hdlen : d.length = 20 + p.payload.length ∨ d.length = 20 + p.payload.length + 1 ∧ byteAt d (d.length - 1) = 0 := by
    rcases hdt with rfl | rfl
    · exact Or.inl htl
    · refine Or.inr ⟨by simp [htl], ?_⟩
      simp [byteAt, List.getD_eq_getElem?_getD]
  have hlen16 : (UInt16.ofNat d.length).toNat = d.length := by simp; omega
  have hhead : ¬ UInt16.ofNat d.length < dmHeaderSize := by
    simp only [UInt16.lt_iff_toNat_lt, hlen16, dmHeaderSize, UInt16.reduceToNat]; omega
  have hlast : (UInt16.ofNat d.length - 1).toNat = d.length - 1 := by
    rw [UInt16.toNat_sub_of_le, hlen16]
    · rfl
    · simp only [UInt16.le_iff_toNat_le, hlen16, UInt16.reduceToNat]; omega
  have hlength : ¬ ((ofPacket p).payloadLength > dmMaxFragmentPayload ∨
      (UInt16.ofNat d.length ≠ dmHeaderSize + (ofPacket p).payloadLength ∧
        (UInt16.ofNat d.length ≠ dmHeaderSize + (ofPacket p).payloadLength + 1 ∨
          byteAt d (UInt16.ofNat d.length - 1).toNat ≠ 0))) := by
    rw [hlast]
    simp only [← UInt16.toNat_inj, UInt16.toNat_add, hlen16, el, dmHeaderSize, UInt16.reduceToNat, ne_eq]
    rcases hdlen with h1 | ⟨h1, h2⟩
    · exact not_or.mpr ⟨c3, fun hc => hc.1 (by omega)⟩
    · exact not_or.mpr ⟨c3, fun hc => hc.2.elim (fun h => h (by omega)) (fun h => h h2)⟩
  have htake : ∀ n ≤ 20, d.take n = t.take n := by
    intro n hn
    rcases hdt with rfl | rfl
    · rfl
    · exact List.take_append_of_le_length (by omega)
  have hpay : slice d 20 (ofPacket p).payloadLength.toNat = p.payload := by
    have ht' : slice t 20 p.payload.length = p.payload := by
      rw [slice, show t.drop 20 = p.payload from hp.symm, List.take_length]
    rw [el]
    rcases hdt with rfl | rfl
    · exact ht'
    · rw [slice_append_left _ (by omega), ht']
  have hcrc' : dmCrc16Ccitt (d.take 14 ++ p.payload) = dmGetU16 d 14 := by
    apply UInt16.toNat_inj.mp
    rw [dmCrc16Ccitt_toNat, w14, htake 14 (by omega)]
    exact hcrc
  have hmac' : dmPacketMac (d.take 16 ++ p.payload) key.bytes = dmGetU32 d 16 := by
    apply UInt32.toNat_inj.mp
    rw [dmPacketMac_toNat (by simp; omega), w16, htake 16 (by omega)]
    exact hmac
  simp only [dmPacketDecode, hhead, hmagic, k2, k3, k4, c1, k12, hlength, k11, k10, c2, hpay, hcrc', hmac', if_false,
    ne_eq, not_true_eq_false, k5, k6, k8]
  rw [if_neg (not_not.mpr ef)]
  rfl

/-- What C accepts, Python accepts. -/
theorem decode_of_dmPacketDecode {d : Bytes} (hlen : d.length ≤ 65535) {key : Key} {q : DmPacket}
    (h : dmPacketDecode d key.bytes = .ok q) : ∃ p, Packet.decode d key = .ok p := by
  have hlen16 : (UInt16.ofNat d.length).toNat = d.length := by simp; omega
  obtain ⟨hhead, hmagic, hversion, hflags, hkinds, hopcodes, hpl, hlen', hfrag, hcrc, hmac, -⟩ := dmPacketDecode_accepted h
  simp only [UInt16.lt_iff_toNat_lt, hlen16, dmHeaderSize, UInt16.reduceToNat] at hhead
  have hd : headerSize ≤ d.length := by unfold headerSize; omega
  obtain ⟨w0, w2, w3, w4, w5, w6, w8, w10, w11, w12, w14, w16⟩ := header_words hd
  have hm : (unpackHeader d).magic = magic := by
    rw [w0, hmagic.1, hmagic.2]; rfl
  have hv : (unpackHeader d).version = version := by rw [← w2, hversion]; rfl
  have hf : (unpackHeader d).flags = 0 := by rw [← w5, hflags]; rfl
  simp only [UInt8.lt_iff_toNat_lt, gt_iff_lt, w3, w4, dmKindRequest, dmKindError, dmOpHello, dmOpMax,
    UInt8.reduceToNat] at hkinds hopcodes
  simp only [UInt8.lt_iff_toNat_lt, UInt8.le_iff_toNat_le, gt_iff_lt, ge_iff_le, w10, w11,
    dmMaxFragments, UInt8.reduceToNat] at hfrag
  simp only [UInt16.lt_iff_toNat_lt, gt_iff_lt, w12, dmMaxFragmentPayload, ← UInt16.toNat_inj, UInt16.toNat_add, hlen16,
    dmHeaderSize, UInt16.reduceToNat, ne_eq] at hpl hlen'
  have hlast : (UInt16.ofNat d.length - 1).toNat = d.length - 1 := by
    rw [UInt16.toNat_sub_of_le, hlen16]
    · rfl
    · simp only [UInt16.le_iff_toNat_le, hlen16, UInt16.reduceToNat]; omega
  rw [hlast] at hlen'
  obtain ⟨t, ht⟩ : ∃ t, trimPad d (headerSize + (unpackHeader d).payloadLength) = some t := by
    unfold trimPad headerSize
    by_cases h20 : d.length = 20 + (unpackHeader d).payloadLength
    · exact ⟨d, by rw [if_neg (by omega), if_pos h20]⟩
    · obtain ⟨h21, hz⟩ := hlen' (by omega)
      exact ⟨_, by rw [if_pos ⟨by omega, hz⟩]⟩
  obtain ⟨htl, hdt⟩ := trimPad_eq_some ht
  unfold headerSize at htl
  have htake : ∀ n ≤ 20, d.take n = t.take n := by
    intro n hn
    rcases hdt with rfl | rfl
    · rfl
    · exact List.take_append_of_le_length (by omega)
  have hpay : slice d 20 (dmGetU16 d 12).toNat = t.drop 20 := by
    have ht' : slice t 20 (unpackHeader d).payloadLength = t.drop 20 := by
      rw [slice]; exact List.take_of_length_le (by simp; omega)
    rw [w12, ← ht']
    rcases hdt with rfl | hdt
    · rfl
    · exact (congrArg (slice · 20 (unpackHeader d).payloadLength) hdt).trans (slice_append_left _ (by omega))
  have hpl1024 : (unpackHeader d).payloadLength ≤ maxFragmentPayload := by unfold maxFragmentPayload; omega
  rw [hpay] at hcrc hmac
  have hcrc' : crc16Ccitt (t.take 14 ++ t.drop headerSize) = (unpackHeader d).checksum := by
    rw [← w14, ← hcrc, dmCrc16Ccitt_toNat, htake 14 (by omega)]
    rfl
  have hmac' : packetMac (t.take 16 ++ t.drop headerSize) key = (unpackHeader d).tag := by
    rw [← w16, ← hmac, dmPacketMac_toNat (by simp; omega), htake 16 (by omega)]
    rfl
  obtain ⟨kind, hkind⟩ := Option.isSome_iff_exists.mp ((MessageKind.ofValue?_isSome_iff _).mpr
    (show 1 ≤ (unpackHeader d).rawKind ∧ (unpackHeader d).rawKind ≤ 3 by omega))
  obtain ⟨opcode, hop⟩ := Option.isSome_iff_exists.mp ((Opcode.ofValue?_isSome_iff _).mpr
    (show 1 ≤ (unpackHeader d).rawOpcode ∧ (unpackHeader d).rawOpcode ≤ 18 by omega))
  have hcount : 1 ≤ (unpackHeader d).fragmentCount ∧ (unpackHeader d).fragmentCount ≤ maxFragments := by
    unfold maxFragments; omega
  have hindex : ¬ (unpackHeader d).fragmentIndex ≥ (unpackHeader d).fragmentCount := by omega
  have hs : (unpackHeader d).sessionId ≤ 0xFFFF := by have := leNat_slice_lt d 6 2; simp only [unpackHeader]; omega
  have hr : (unpackHeader d).requestId ≤ 0xFFFF := by have := leNat_slice_lt d 8 2; simp only [unpackHeader]; omega
  have hdrop : (t.drop headerSize).length ≤ maxFragmentPayload := by
    simp only [List.length_drop, headerSize, maxFragmentPayload]; omega
  rw [Packet.decode_of_header hd hm hv hf hpl1024 ht]
  simp only [Packet.decodeTrimmed, hcount, hindex, hkind, hop, hcrc', hmac', and_self, not_true_eq_false, if_false, ne_eq,
    Packet.make, hf, hs, hr, Nat.not_le.mp hindex, hdrop, dite_true]
  exact ⟨_, rfl⟩

/-- The two codecs are the same format. -/
theorem codecs_agree (key : Key) :
    (∀ (p : Packet) (capacity : UInt16), headerSize + p.payload.length ≤ capacity.toNat →
      dmPacketEncode (ofPacket p) key.bytes capacity = .ok (p.encode key)) ∧
    ∀ d : Bytes, d.length ≤ 65535 →
      ((∃ q, dmPacketDecode d key.bytes = .ok q) ↔ ∃ p, Packet.decode d key = .ok p) ∧
      ∀ p q, Packet.decode d key = .ok p → dmPacketDecode d key.bytes = .ok q →
        q.kind.toNat = p.kind.value ∧ q.opcode.toNat = p.opcode.value ∧ q.sessionId.toNat = p.sessionId ∧
          q.requestId.toNat = p.requestId ∧ q.fragmentIndex.toNat = p.fragmentIndex ∧
          q.fragmentCount.toNat = p.fragmentCount ∧ q.payload = p.payload := by
  refine ⟨fun p capacity hcap => dmPacketEncode_ofPacket p key hcap, fun d hd => ⟨⟨?_, ?_⟩, ?_⟩⟩
  · rintro ⟨q, hq⟩
    exact decode_of_dmPacketDecode hd hq
  · rintro ⟨p, hp⟩
    exact ⟨_, dmPacketDecode_of_decode hp⟩
  · intro p q hp hq
    rw [dmPacketDecode_of_decode hp] at hq
    injection hq with hq
    subst hq
    obtain ⟨ek, eo, -, es, er, ei, ec, -⟩ := ofPacket_values p
    exact ⟨ek, eo, es, er, ei, ec, rfl⟩

/-- The golden vector of `test_packet.py` and `proto_test.c`. -/
def vectorKey : Key := ⟨[0, 1, 2, 3, 4, 5, 6, 7, 8, 9, 10, 11, 12, 13, 14, 15], rfl⟩

def vectorPacket : Packet where
  kind := .request
  opcode := .getStatus
  sessionId := 0x1234
  requestId := 0x5678
  fragmentIndex := 0
  fragmentCount := 1
  payload := [0x73, 0x74, 0x61, 0x74, 0x75, 0x73]
  flags := 0
  flags_zero := Packet.flags_none
  sessionId_le := by decide
  requestId_le := by decide
  fragmentCount_range := Packet.single_range
  fragmentIndex_lt := Packet.single_index
  payload_le := by decide

theorem codecs_agree_vector :
    dmPacketEncode (ofPacket vectorPacket) vectorKey.bytes 1044 = .ok (vectorPacket.encode vectorKey) ∧
      ((∃ q, dmPacketDecode (vectorPacket.encode vectorKey) vectorKey.bytes = .ok q) ↔
        ∃ p, Packet.decode (vectorPacket.encode vectorKey) vectorKey = .ok p) ∧
      ∃ q, dmPacketDecode (vectorPacket.encode vectorKey) vectorKey.bytes = .ok q ∧ q.payload = vectorPacket.payload := by
  have hlen : (vectorPacket.encode vectorKey).length ≤ 65535 := by rw [Packet.encode_length]; decide
  obtain ⟨henc, hdec⟩ := codecs_agree vectorKey
  obtain ⟨hiff, hfields⟩ := hdec (vectorPacket.encode vectorKey) hlen
  refine ⟨henc vectorPacket 1044 (by decide), hiff, ?_⟩
  obtain ⟨q, hq⟩ := hiff.mpr ⟨_, Packet.decode_encode vectorPacket vectorKey⟩
  obtain ⟨-, -, -, -, -, -, hp⟩ := hfields _ q (Packet.decode_encode vectorPacket vectorKey) hq
  exact ⟨q, hq, hp⟩

end DosMcp.Dos
