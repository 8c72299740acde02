/-
  DosMcp.Dos.Sha — `dmproto.c`: the DOS agents' SHA-256 and the keys they derive with it.

  The source takes a message byte by byte into a 64-byte block and compresses the block
  when it is full (`dm_sha_feed`); `dm_sha_final` feeds the end mark and the zeros and
  stores the bit count into the last block itself.

  - `dmShaFeeds_absorb`: feeding any bytes, wherever the block stands, leaves the message
    still to be absorbed with the same hash value.
  - `dmSha256_eq`: for messages that fit `length`, `dm_sha256` is SHA-256; likewise the two
    derived keys (`dmDerivePasswordKey_eq`, `dmOpenModeKey_eq`).
-/

import DosMcp.Dos.Proto
import DosMcp.Lib.Sha256

namespace DosMcp.Dos

open Lib

def dmGetBe32 (value : Bytes) (i : Nat) : UInt32 :=
  ((byteAt value i).toUInt32 <<< 24) ||| ((byteAt value (i + 1)).toUInt32 <<< 16) |||
    ((byteAt value (i + 2)).toUInt32 <<< 8) ||| (byteAt value (i + 3)).toUInt32

def dmPutBe32 (value : UInt32) : Bytes :=
  [(value >>> 24).toUInt8, (value >>> 16).toUInt8, (value >>> 8).toUInt8, value.toUInt8]

/-- `DM_ROTR`. -/
def dmRotr (value count : UInt32) : UInt32 := (value >>> count) ||| (value <<< (32 - count))

/-- `constants` of `dm_sha_transform`. -/
def dmShaConstants : List UInt32 := [
  0x428A2F98, 0x71374491, 0xB5C0FBCF, 0xE9B5DBA5, 0x3956C25B, 0x59F111F1, 0x923F82A4, 0xAB1C5ED5,
  0xD807AA98, 0x12835B01, 0x243185BE, 0x550C7DC3, 0x72BE5D74, 0x80DEB1FE, 0x9BDC06A7, 0xC19BF174,
  0xE49B69C1, 0xEFBE4786, 0x0FC19DC6, 0x240CA1CC, 0x2DE92C6F, 0x4A7484AA, 0x5CB0A9DC, 0x76F988DA,
  0x983E5152, 0xA831C66D, 0xB00327C8, 0xBF597FC7, 0xC6E00BF3, 0xD5A79147, 0x06CA6351, 0x14292967,
  0x27B70A85, 0x2E1B2138, 0x4D2C6DFC, 0x53380D13, 0x650A7354, 0x766A0ABB, 0x81C2C92E, 0x92722C85,
  0xA2BFE8A1, 0xA81A664B, 0xC24B8B70, 0xC76C51A3, 0xD192E819, 0xD6990624, 0xF40E3585, 0x106AA070,
  0x19A4C116, 0x1E376C08, 0x2748774C, 0x34B0BCB5, 0x391C0CB3, 0x4ED8AA4A, 0x5B9CCA4F, 0x682E6FF3,
  0x748F82EE, 0x78A5636F, 0x84C87814, 0x8CC70208, 0x90BEFFFA, 0xA4506CEB, 0xBEF9A3F7, 0xC67178F2]

/-- `dm_sha_context`. -/
structure DmSha where
  /-- `state[8]`. -/
  state : Sha256.Hash
  total : UInt32
  block : Bytes
  used : Nat
  deriving DecidableEq, Repr

/-- `dm_sha_init`; `block` is not initialised. -/
def dmShaInit : DmSha where
  state := ⟨0x6A09E667, 0xBB67AE85, 0x3C6EF372, 0xA54FF53A, 0x510E527F, 0x9B05688C, 0x1F83D9AB, 0x5BE0CD19⟩
  total := 0
  block := List.replicate 64 0
  used := 0

/-- The second loop of the schedule, at `index`. -/
def dmShaWord (words : List UInt32) (index : Nat) : List UInt32 :=
  let sigma0 := dmRotr (words.getD (index - 15) 0) 7 ^^^ dmRotr (words.getD (index - 15) 0) 18 ^^^
    (words.getD (index - 15) 0 >>> 3)
  let sigma1 := dmRotr (words.getD (index - 2) 0) 17 ^^^ dmRotr (words.getD (index - 2) 0) 19 ^^^
    (words.getD (index - 2) 0 >>> 10)
  words ++ [words.getD (index - 16) 0 + sigma0 + words.getD (index - 7) 0 + sigma1]

def dmShaWords (block : Bytes) : List UInt32 :=
  (List.range' 16 48).foldl dmShaWord ((List.range 16).map fun index => dmGetBe32 block (index * 4))

/-- The loop over `a` to `h`, at `index`. -/
def dmShaRound (words : List UInt32) (s : Sha256.Hash) (index : Nat) : Sha256.Hash :=
  let sigma1 := dmRotr s.e 6 ^^^ dmRotr s.e 11 ^^^ dmRotr s.e 25
  let choice := (s.e &&& s.f) ^^^ (~~~s.e &&& s.g)
  let temp1 := s.h + sigma1 + choice + dmShaConstants.getD index 0 + words.getD index 0
  let sigma0 := dmRotr s.a 2 ^^^ dmRotr s.a 13 ^^^ dmRotr s.a 22
  let majority := (s.a &&& s.b) ^^^ (s.a &&& s.c) ^^^ (s.b &&& s.c)
  let temp2 := sigma0 + majority
  ⟨temp1 + temp2, s.a, s.b, s.c, s.d + temp1, s.e, s.f, s.g⟩

def dmShaTransform (context : DmSha) : DmSha :=
  let s := context.state
  let t := (List.range 64).foldl (dmShaRound (dmShaWords context.block)) s
  { context with
    state := ⟨s.a + t.a, s.b + t.b, s.c + t.c, s.d + t.d, s.e + t.e, s.f + t.f, s.g + t.g, s.h + t.h⟩
    used := 0 }

def dmShaFeed (context : DmSha) (value : UInt8) : DmSha :=
  let context := { context with block := context.block.set context.used value, used := context.used + 1 }
  if context.used = 64 then dmShaTransform context else context

def dmShaUpdate (context : DmSha) (data : Bytes) : DmSha :=
  data.foldl dmShaFeed { context with total := context.total + (UInt16.ofNat data.length).toUInt32 }

/-- `while (context->used != 56) dm_sha_feed(context, 0)`; a block has 64 places, so 64
    turns are always enough (`dmShaPad_eq`). -/
def dmShaPad : Nat → DmSha → DmSha
  | 0, context => context
  | fuel + 1, context => if context.used ≠ 56 then dmShaPad fuel (dmShaFeed context 0) else context

def dmShaFinal (context : DmSha) : Bytes :=
  let bitHigh := context.total >>> 29
  let bitLow := context.total <<< 3
  let context := dmShaPad 64 (dmShaFeed context 0x80)
  let context := dmShaTransform
    { context with block := context.block.take 56 ++ dmPutBe32 bitHigh ++ dmPutBe32 bitLow, used := 64 }
  let s := context.state
  [s.a, s.b, s.c, s.d, s.e, s.f, s.g, s.h].flatMap dmPutBe32

def dmSha256 (data : Bytes) : Bytes := dmShaFinal (dmShaUpdate dmShaInit data)

/-- The characters of a literal and its terminating zero. -/
def literal (text : String) : Bytes := text.toList.map (fun c => UInt8.ofNat c.toNat) ++ [0]

def dmDerivePasswordKey (password : Bytes) : Bytes :=
  let context := dmShaUpdate dmShaInit (literal "DOS-MCP credential v1")
  (dmShaFinal (dmShaUpdate context password)).take 16

def dmOpenModeKey : Bytes := (dmSha256 (literal "DOS-MCP open mode v1")).take 16

/-! ## The compression -/

theorem dmGetBe32_eq : dmGetBe32 = Sha256.beWord := rfl

theorem toUInt8_shiftRight {n : UInt32} (value : UInt32) (h : n.toNat < 32) :
    (value >>> n).toUInt8 = UInt8.ofNat (value.toNat / 2 ^ n.toNat) := by
  apply UInt8.toNat_inj.mp
  rw [UInt32.toNat_toUInt8, UInt32.toNat_shiftRight, Nat.mod_eq_of_lt h, Nat.shiftRight_eq_div_pow, UInt8.toNat_ofNat']

theorem dmPutBe32_eq (value : UInt32) : dmPutBe32 value = Sha256.beBytes 4 value.toNat := by
  rw [Sha256.beBytes_four, dmPutBe32, toUInt8_shiftRight value (by decide), toUInt8_shiftRight value (by decide),
    toUInt8_shiftRight value (by decide)]
  congr

theorem dmShaWord_eq (words : List UInt32) : dmShaWord words words.length = words ++ [Sha256.nextWord words] := by
  have hsum : ∀ a b c d : UInt32, a + b + c + d = d + c + b + a := by
    intro a b c d
    grind
  exact congrArg (fun word => words ++ [word]) (hsum _ _ _ _)

theorem dmShaWords_extend (n : Nat) (words : List UInt32) :
    (List.range' words.length n).foldl dmShaWord words = Sha256.extend n words := by
  induction n generalizing words with
  | zero => rfl
  | succ n ih =>
    rw [List.range'_succ, List.foldl_cons, dmShaWord_eq, Sha256.extend, ← ih, List.length_append, List.length_singleton]

theorem dmShaWords_eq (block : Bytes) : dmShaWords block = Sha256.schedule block := by
  have e : (List.range 16).map (fun index => dmGetBe32 block (index * 4)) =
      (List.range 16).map fun t => Sha256.beWord block (4 * t) :=
    List.map_congr_left fun t _ => by rw [dmGetBe32_eq, Nat.mul_comm]
  rw [dmShaWords, e]
  exact dmShaWords_extend 48 _

theorem dmShaRound_eq : dmShaRound = Sha256.round := rfl

theorem dmShaTransform_eq (context : DmSha) : dmShaTransform context =
    { context with state := Sha256.compress context.state context.block, used := 0 } := by
  rw [dmShaTransform, dmShaWords_eq, dmShaRound_eq]
  rfl

/-! ## Feeding -/

/-- The block has its 64 places and is not full. -/
structure DmSha.Open (context : DmSha) : Prop where
  used : context.used < 64
  block : context.block.length = 64

/-- The hash value once `rest` follows what was fed. -/
def DmSha.absorb (context : DmSha) (rest : Bytes) : Sha256.Hash :=
  Sha256.absorb context.state (context.block.take context.used ++ rest)

theorem dmShaInit_open : DmSha.Open dmShaInit := ⟨by decide, by decide⟩

theorem take_set_succ {bs : Bytes} {i : Nat} (h : i < bs.length) (b : UInt8) :
    (bs.set i b).take (i + 1) = bs.take i ++ [b] := by
  rw [List.take_add_one, List.take_set_of_le (Nat.le_refl i), List.getElem?_set_self h]
  rfl

theorem dmShaFeed_open {context : DmSha} (h : context.Open) (value : UInt8) :
    (dmShaFeed context value).Open ∧ (dmShaFeed context value).used = (context.used + 1) % 64 := by
  have hused := h.used
  rw [dmShaFeed]
  by_cases hfull : context.used + 1 = 64
  · rw [if_pos hfull, dmShaTransform_eq]
    exact ⟨⟨by simp, by simpa using h.block⟩, by simp [hfull]⟩
  · rw [if_neg hfull]
    refine ⟨⟨?_, by simpa using h.block⟩, ?_⟩
    · show context.used + 1 < 64
      omega
    · show context.used + 1 = (context.used + 1) % 64
      omega

theorem dmShaFeed_total (context : DmSha) (value : UInt8) : (dmShaFeed context value).total = context.total := by
  rw [dmShaFeed]
  split
  · rw [dmShaTransform_eq]
  · rfl

/-- A byte fed is a byte of the message. -/
theorem dmShaFeed_absorb {context : DmSha} (h : context.Open) (value : UInt8) (rest : Bytes) :
    (dmShaFeed context value).absorb rest = context.absorb (value :: rest) := by
  have hblock := h.block
  have hplace : context.used < context.block.length := by rw [hblock]; exact h.used
  have hpending := take_set_succ hplace value
  have hsplit : context.block.take context.used ++ value :: rest = (context.block.take context.used ++ [value]) ++ rest := by
    simp
  rw [dmShaFeed]
  by_cases hfull : context.used + 1 = 64
  · have hwhole : context.block.set context.used value = context.block.take context.used ++ [value] := by
      rw [← hpending, hfull, List.take_of_length_le (by simp [hblock])]
    rw [if_pos hfull, dmShaTransform_eq, DmSha.absorb, DmSha.absorb, hsplit, List.take_zero, List.nil_append,
      ← hwhole, Sha256.absorb_block _ (by simp [hblock])]
  · rw [if_neg hfull, DmSha.absorb, DmSha.absorb, hsplit, ← hpending]

theorem dmShaFeeds_open {context : DmSha} (h : context.Open) (data : Bytes) :
    (data.foldl dmShaFeed context).Open ∧ (data.foldl dmShaFeed context).used = (context.used + data.length) % 64 := by
  induction data generalizing context with
  | nil => exact ⟨h, (Nat.mod_eq_of_lt h.used).symm⟩
  | cons value data ih =>
    obtain ⟨hopen, hused⟩ := dmShaFeed_open h value
    obtain ⟨hopen', hused'⟩ := ih hopen
    refine ⟨hopen', ?_⟩
    rw [List.foldl_cons, hused', hused, List.length_cons]
    omega

theorem dmShaFeeds_total (context : DmSha) (data : Bytes) : (data.foldl dmShaFeed context).total = context.total := by
  induction data generalizing context with
  | nil => rfl
  | cons value data ih => rw [List.foldl_cons, ih, dmShaFeed_total]

/-- What was fed, in any pieces, is the front of the message. -/
theorem dmShaFeeds_absorb {context : DmSha} (h : context.Open) (data rest : Bytes) :
    (data.foldl dmShaFeed context).absorb rest = context.absorb (data ++ rest) := by
  induction data generalizing context with
  | nil => rfl
  | cons value data ih => rw [List.foldl_cons, ih (dmShaFeed_open h value).1, dmShaFeed_absorb h]; rfl

/-- The loop feeds the zeros that are missing up to the bit count. -/
theorem dmShaPad_eq (fuel : Nat) {context : DmSha} (h : context.Open) (hfuel : (120 - context.used) % 64 ≤ fuel) :
    dmShaPad fuel context = (List.replicate ((120 - context.used) % 64) 0).foldl dmShaFeed context := by
  have hlt := h.used
  induction fuel generalizing context with
  | zero =>
    rw [Nat.le_zero.mp hfuel]
    rfl
  | succ fuel ih =>
    rw [dmShaPad]
    by_cases hused : context.used = 56
    · rw [if_neg (not_not_intro hused), hused]
      rfl
    · obtain ⟨hopen, hnext⟩ := dmShaFeed_open h 0
      have hcount : (120 - context.used) % 64 = (120 - (dmShaFeed context 0).used) % 64 + 1 := by
        rw [hnext]
        omega
      rw [if_pos hused, ih hopen (by omega) hopen.used, hcount, List.replicate_succ, List.foldl_cons]

/-! ## Digests -/

/-- `message` is what was fed so far. -/
structure DmSha.Fed (context : DmSha) (message : Bytes) : Prop where
  isOpen : context.Open
  total : context.total = UInt32.ofNat message.length
  used : context.used = message.length % 64
  absorb : ∀ rest, context.absorb rest = Sha256.absorb Sha256.Hash.initial (message ++ rest)

theorem dmShaInit_fed : dmShaInit.Fed [] := ⟨dmShaInit_open, rfl, rfl, fun _ => rfl⟩

theorem dmShaUpdate_fed {context : DmSha} {message data : Bytes} (h : context.Fed message) (hdata : data.length < 2 ^ 16) :
    (dmShaUpdate context data).Fed (message ++ data) := by
  have hopen : DmSha.Open { context with total := context.total + (UInt16.ofNat data.length).toUInt32 } :=
    ⟨h.isOpen.used, h.isOpen.block⟩
  obtain ⟨hopen', hused⟩ := dmShaFeeds_open hopen data
  refine ⟨hopen', ?_, ?_, ?_⟩
  · rw [dmShaUpdate, dmShaFeeds_total, h.total, List.length_append]
    apply UInt32.toNat_inj.mp
    have hmod : data.length % 65536 = data.length := Nat.mod_eq_of_lt hdata
    simp [hmod]
  · rw [dmShaUpdate, hused, h.used, List.length_append]
    omega
  · intro rest
    rw [dmShaUpdate, dmShaFeeds_absorb hopen, List.append_assoc]
    exact h.absorb (data ++ rest)

/-- The last block's bit count is the 64-bit one. -/
theorem bitCount {total : UInt32} {length : Nat} (h : total = UInt32.ofNat length) (hlength : length < 2 ^ 32) :
    dmPutBe32 (total >>> 29) ++ dmPutBe32 (total <<< 3) = Sha256.beBytes 8 (8 * length) := by
  have htotal : total.toNat = length := by rw [h, UInt32.toNat_ofNat', Nat.mod_eq_of_lt hlength]
  have hhigh : (total >>> 29).toNat = 8 * length / 2 ^ 32 := by
    rw [UInt32.toNat_shiftRight, htotal, Nat.shiftRight_eq_div_pow]
    show length / 2 ^ 29 = 8 * length / 2 ^ 32
    omega
  have hlow : (total <<< 3).toNat = 8 * length % 2 ^ 32 := by
    rw [UInt32.toNat_shiftLeft, htotal, Nat.shiftLeft_eq]
    show length * 2 ^ 3 % 2 ^ 32 = 8 * length % 2 ^ 32
    omega
  rw [dmPutBe32_eq, dmPutBe32_eq, hhigh, hlow, Sha256.beBytes_mod, Sha256.beBytes_eight]

theorem dmShaFinal_eq {context : DmSha} {message : Bytes} (h : context.Fed message) (hlength : message.length < 2 ^ 32) :
    dmShaFinal context = Sha256.sha256 message := by
  obtain ⟨hmarked, hmarkedUsed⟩ := dmShaFeed_open h.isOpen 0x80
  have hzeros : (120 - (dmShaFeed context 0x80).used) % 64 = Sha256.zeros message.length := by
    rw [hmarkedUsed, h.used, Sha256.zeros]
    omega
  have hpad : dmShaPad 64 (dmShaFeed context 0x80) =
      (List.replicate (Sha256.zeros message.length) 0).foldl dmShaFeed (dmShaFeed context 0x80) := by
    rw [dmShaPad_eq 64 hmarked (by omega), hzeros]
  obtain ⟨hpadded, hpaddedUsed⟩ := dmShaFeeds_open hmarked (List.replicate (Sha256.zeros message.length) 0)
  have hused : (dmShaPad 64 (dmShaFeed context 0x80)).used = 56 := by
    rw [hpad, hpaddedUsed, List.length_replicate, ← hzeros]
    have := hmarked.used
    omega
  have hblock : (dmShaPad 64 (dmShaFeed context 0x80)).block.length = 64 := by rw [hpad]; exact hpadded.block
  -- The last block, with the bit count in its eight free places.
  have hlast : ((dmShaPad 64 (dmShaFeed context 0x80)).block.take 56 ++ Sha256.beBytes 8 (8 * message.length)).length = 64 := by
    rw [List.length_append, List.length_take, hblock, Sha256.beBytes_length]
    rfl
  have hstate : Sha256.compress (dmShaPad 64 (dmShaFeed context 0x80)).state
      ((dmShaPad 64 (dmShaFeed context 0x80)).block.take 56 ++ Sha256.beBytes 8 (8 * message.length)) =
      Sha256.absorb Sha256.Hash.initial (Sha256.pad message) := by
    calc
      _ = (dmShaPad 64 (dmShaFeed context 0x80)).absorb (Sha256.beBytes 8 (8 * message.length)) := by
        rw [DmSha.absorb, hused]
        exact (Sha256.absorb_block _ hlast []).symm.trans (by rw [List.append_nil])
      _ = (dmShaFeed context 0x80).absorb
          (List.replicate (Sha256.zeros message.length) 0 ++ Sha256.beBytes 8 (8 * message.length)) := by
        rw [hpad, dmShaFeeds_absorb hmarked]
      _ = context.absorb (0x80 :: (List.replicate (Sha256.zeros message.length) 0 ++ Sha256.beBytes 8 (8 * message.length))) :=
        dmShaFeed_absorb h.isOpen _ _
      _ = Sha256.absorb Sha256.Hash.initial (Sha256.pad message) := by
        rw [h.absorb, Sha256.pad]
        simp
  rw [dmShaFinal]
  simp only [dmShaTransform_eq, List.append_assoc, bitCount h.total hlength, hstate, Sha256.sha256, Sha256.digest]
  congr 1
  funext w
  exact dmPutBe32_eq w

theorem dmSha256_eq {data : Bytes} (h : data.length < 2 ^ 16) : dmSha256 data = Sha256.sha256 data :=
  dmShaFinal_eq (dmShaUpdate_fed dmShaInit_fed h) (Nat.lt_trans h (by decide))

theorem dmDerivePasswordKey_eq {password : Bytes} (h : password.length < 2 ^ 16) :
    dmDerivePasswordKey password = (Sha256.sha256 (literal "DOS-MCP credential v1" ++ password)).take 16 := by
  have hdomain : (literal "DOS-MCP credential v1").length = 22 := by decide
  have hfed := dmShaUpdate_fed (dmShaUpdate_fed dmShaInit_fed (by rw [hdomain]; decide)) h
  rw [dmDerivePasswordKey, dmShaFinal_eq hfed (by rw [List.nil_append, List.length_append, hdomain]; omega), List.nil_append]

theorem dmOpenModeKey_eq : dmOpenModeKey = (Sha256.sha256 (literal "DOS-MCP open mode v1")).take 16 := by
  rw [dmOpenModeKey, dmSha256_eq (by decide)]

example : dmOpenModeKey =
    [0xB1, 0x51, 0xCB, 0x0F, 0x3C, 0xDC, 0x52, 0x7F, 0x03, 0xED, 0x9A, 0xA5, 0x37, 0x13, 0x6A, 0xDE] := by
  decide +kernel

end DosMcp.Dos
