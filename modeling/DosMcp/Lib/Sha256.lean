/-
  DosMcp.Lib.Sha256 — SHA-256 on byte strings: the message is padded to whole 64-byte
  blocks, each block is expanded into 64 words, and 64 rounds fold it into the eight words
  of the hash value.

  - `absorb_block`: absorbing a message is compressing its first block and absorbing the
    rest, so an implementation may take it in pieces of any length.
  - `pad_dvd`: the padded message is a whole number of blocks.
  - `beBytes_eight`: the 64-bit length field is its two 32-bit words.
-/

import DosMcp.Lib.Bytes

namespace DosMcp.Lib.Sha256

/-! ## Words -/

def rotr (x n : UInt32) : UInt32 := (x >>> n) ||| (x <<< (32 - n))

def ch (x y z : UInt32) : UInt32 := (x &&& y) ^^^ (~~~x &&& z)

def maj (x y z : UInt32) : UInt32 := (x &&& y) ^^^ (x &&& z) ^^^ (y &&& z)

def bigSigma0 (x : UInt32) : UInt32 := rotr x 2 ^^^ rotr x 13 ^^^ rotr x 22

def bigSigma1 (x : UInt32) : UInt32 := rotr x 6 ^^^ rotr x 11 ^^^ rotr x 25

def smallSigma0 (x : UInt32) : UInt32 := rotr x 7 ^^^ rotr x 18 ^^^ (x >>> 3)

def smallSigma1 (x : UInt32) : UInt32 := rotr x 17 ^^^ rotr x 19 ^^^ (x >>> 10)

/-- The 32-bit fractional parts of the cube roots of the first 64 primes. -/
def roundConstants : List UInt32 := [
  0x428a2f98, 0x71374491, 0xb5c0fbcf, 0xe9b5dba5, 0x3956c25b, 0x59f111f1, 0x923f82a4, 0xab1c5ed5,
  0xd807aa98, 0x12835b01, 0x243185be, 0x550c7dc3, 0x72be5d74, 0x80deb1fe, 0x9bdc06a7, 0xc19bf174,
  0xe49b69c1, 0xefbe4786, 0x0fc19dc6, 0x240ca1cc, 0x2de92c6f, 0x4a7484aa, 0x5cb0a9dc, 0x76f988da,
  0x983e5152, 0xa831c66d, 0xb00327c8, 0xbf597fc7, 0xc6e00bf3, 0xd5a79147, 0x06ca6351, 0x14292967,
  0x27b70a85, 0x2e1b2138, 0x4d2c6dfc, 0x53380d13, 0x650a7354, 0x766a0abb, 0x81c2c92e, 0x92722c85,
  0xa2bfe8a1, 0xa81a664b, 0xc24b8b70, 0xc76c51a3, 0xd192e819, 0xd6990624, 0xf40e3585, 0x106aa070,
  0x19a4c116, 0x1e376c08, 0x2748774c, 0x34b0bcb5, 0x391c0cb3, 0x4ed8aa4a, 0x5b9cca4f, 0x682e6ff3,
  0x748f82ee, 0x78a5636f, 0x84c87814, 0x8cc70208, 0x90befffa, 0xa4506ceb, 0xbef9a3f7, 0xc67178f2]

/-! ## Compression -/

/-- The eight words of a hash value, which are also the working variables. -/
structure Hash where
  (a b c d e f g h : UInt32)
  deriving DecidableEq, Repr

def Hash.add (x y : Hash) : Hash :=
  ⟨x.a + y.a, x.b + y.b, x.c + y.c, x.d + y.d, x.e + y.e, x.f + y.f, x.g + y.g, x.h + y.h⟩

/-- The 32-bit fractional parts of the square roots of the first eight primes. -/
def Hash.initial : Hash :=
  ⟨0x6a09e667, 0xbb67ae85, 0x3c6ef372, 0xa54ff53a, 0x510e527f, 0x9b05688c, 0x1f83d9ab, 0x5be0cd19⟩

/-- The big-endian word at `i`. -/
def beWord (bs : Bytes) (i : Nat) : UInt32 :=
  ((byteAt bs i).toUInt32 <<< 24) ||| ((byteAt bs (i + 1)).toUInt32 <<< 16) |||
    ((byteAt bs (i + 2)).toUInt32 <<< 8) ||| (byteAt bs (i + 3)).toUInt32

/-- The next word of the message schedule from those before it. -/
def nextWord (w : List UInt32) : UInt32 :=
  smallSigma1 (w.getD (w.length - 2) 0) + w.getD (w.length - 7) 0 + smallSigma0 (w.getD (w.length - 15) 0) +
    w.getD (w.length - 16) 0

/-- `n` more words. -/
def extend : Nat → List UInt32 → List UInt32
  | 0, w => w
  | n + 1, w => extend n (w ++ [nextWord w])

def schedule (block : Bytes) : List UInt32 := extend 48 ((List.range 16).map fun t => beWord block (4 * t))

def round (w : List UInt32) (s : Hash) (t : Nat) : Hash :=
  let t1 := s.h + bigSigma1 s.e + ch s.e s.f s.g + roundConstants.getD t 0 + w.getD t 0
  let t2 := bigSigma0 s.a + maj s.a s.b s.c
  ⟨t1 + t2, s.a, s.b, s.c, s.d + t1, s.e, s.f, s.g⟩

def compress (s : Hash) (block : Bytes) : Hash := s.add ((List.range 64).foldl (round (schedule block)) s)

/-! ## Messages -/

/-- The whole 64-byte blocks of a message. -/
def blocks (bs : Bytes) : List Bytes := (List.range (bs.length / 64)).map fun i => slice bs (64 * i) 64

def absorb (s : Hash) (bs : Bytes) : Hash := (blocks bs).foldl compress s

/-- `v` as `n` bytes, the high one first. -/
def beBytes (n v : Nat) : Bytes := (leBytes n v).reverse

/-- The zeros that bring a message and its end mark to eight bytes short of a block. -/
def zeros (length : Nat) : Nat := (119 - length % 64) % 64

def pad (message : Bytes) : Bytes :=
  message ++ [0x80] ++ List.replicate (zeros message.length) 0 ++ beBytes 8 (8 * message.length)

def digest (s : Hash) : Bytes := [s.a, s.b, s.c, s.d, s.e, s.f, s.g, s.h].flatMap fun w => beBytes 4 w.toNat

def sha256 (message : Bytes) : Bytes := digest (absorb Hash.initial (pad message))

example : beWord (sha256 [0x61, 0x62, 0x63]) 0 = 0xba7816bf := by decide +kernel

theorem beBytes_length (n v : Nat) : (beBytes n v).length = n := by simp [beBytes]

theorem pad_dvd (message : Bytes) : 64 ∣ (pad message).length := by
  simp only [pad, List.length_append, List.length_replicate, beBytes_length, List.length_cons, List.length_nil, zeros]
  omega

theorem sha256_length (message : Bytes) : (sha256 message).length = 32 := by
  simp [sha256, digest, beBytes_length]

@[simp] theorem absorb_nil (s : Hash) : absorb s [] = s := rfl

theorem blocks_append {block : Bytes} (h : block.length = 64) (bs : Bytes) : blocks (block ++ bs) = block :: blocks bs := by
  have hcount : (block ++ bs).length / 64 = bs.length / 64 + 1 := by
    rw [List.length_append, h]
    omega
  rw [blocks, hcount, List.range_succ_eq_map, List.map_cons, List.map_map, Nat.mul_zero]
  congr 1
  · rw [slice_append_left bs (by omega), slice_zero_eq_take, List.take_of_length_le (by omega)]
  · apply List.map_congr_left
    intro i _
    exact slice_append_right bs (by rw [h, Nat.mul_succ, Nat.add_comm])

/-- A message is absorbed block by block. -/
theorem absorb_block (s : Hash) {block : Bytes} (h : block.length = 64) (bs : Bytes) :
    absorb s (block ++ bs) = absorb (compress s block) bs := by
  rw [absorb, blocks_append h]
  rfl

theorem beBytes_four (v : Nat) :
    beBytes 4 v = [UInt8.ofNat (v / 2 ^ 24), UInt8.ofNat (v / 2 ^ 16), UInt8.ofNat (v / 2 ^ 8), UInt8.ofNat v] := by
  simp [beBytes, leBytes_four, Nat.div_div_eq_div_mul]

theorem ofNat_congr {m k : Nat} (h : m % 256 = k % 256) : UInt8.ofNat m = UInt8.ofNat k := by
  apply UInt8.toNat_inj.mp
  simpa using h

/-- Only the low bytes of a value are stored. -/
theorem beBytes_mod (v : Nat) : beBytes 4 (v % 2 ^ 32) = beBytes 4 v := by
  have h24 : UInt8.ofNat (v % 2 ^ 32 / 2 ^ 24) = UInt8.ofNat (v / 2 ^ 24) := ofNat_congr (by omega)
  have h16 : UInt8.ofNat (v % 2 ^ 32 / 2 ^ 16) = UInt8.ofNat (v / 2 ^ 16) := ofNat_congr (by omega)
  have h8 : UInt8.ofNat (v % 2 ^ 32 / 2 ^ 8) = UInt8.ofNat (v / 2 ^ 8) := ofNat_congr (by omega)
  have h0 : UInt8.ofNat (v % 2 ^ 32) = UInt8.ofNat v := ofNat_congr (by omega)
  rw [beBytes_four, beBytes_four, h24, h16, h8, h0]

/-- A 64-bit value is stored as its two words. -/
theorem beBytes_eight (v : Nat) : beBytes 8 v = beBytes 4 (v / 2 ^ 32) ++ beBytes 4 v := by
  simp [beBytes, leBytes, Nat.div_div_eq_div_mul]

end DosMcp.Lib.Sha256
