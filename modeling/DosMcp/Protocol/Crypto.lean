/-
  DosMcp.Protocol.Crypto — `protocol/crc.py` and `protocol/crypto.py`: CRC-16/CCITT,
  XTEA session-key derivation and the Speck32/64 CBC-MAC, over Python's unbounded
  integers with the masks the source applies.

  A protocol key is 16 bytes (`Key`): the bridge and the server check it once, in
  their constructors, so `packet_mac`'s own length check cannot fail. In the same way
  every block and key half handed to `_speck32_encrypt` and `xtea_encrypt` has the
  length their guards ask for.
-/

import DosMcp.Lib.Bytes
import Mathlib.Data.List.Induction
import Mathlib.Logic.Function.Iterate

namespace DosMcp

open Lib

structure Key where
  bytes : Bytes
  length_eq : bytes.length = 16
  deriving DecidableEq

theorem zeros_length : (List.replicate 16 (0 : UInt8)).length = 16 := rfl

/-! ## CRC-16 (`crc.py`) -/

def crc16Bit (crc : Nat) : Nat :=
  if crc &&& 0x8000 ≠ 0 then ((crc <<< 1) ^^^ 0x1021) &&& 0xFFFF else (crc <<< 1) &&& 0xFFFF

def crc16Byte (crc : Nat) (value : UInt8) : Nat := crc16Bit^[8] (crc ^^^ (value.toNat <<< 8))

def crc16Ccitt (data : Bytes) : Nat := data.foldl crc16Byte 0xFFFF

/-! ## XTEA -/

structure XteaState where
  left : Nat
  right : Nat
  total : Nat
  deriving DecidableEq, Repr

def xteaDelta : Nat := 0x9E3779B9

/-- The round function's mix of one half (`((x << 4) ^ (x >> 5)) + x`) with the sum. -/
def xteaMix (x sum : Nat) : Nat := (((x <<< 4) ^^^ (x >>> 5)) + x) ^^^ sum

def xteaRound (words : List Nat) (s : XteaState) : XteaState :=
  let left := (s.left + xteaMix s.right (s.total + words.getD (s.total &&& 3) 0)) &&& 0xFFFFFFFF
  let total := (s.total + xteaDelta) &&& 0xFFFFFFFF
  let right := (s.right + xteaMix left (total + words.getD ((total >>> 11) &&& 3) 0)) &&& 0xFFFFFFFF
  ⟨left, right, total⟩

def keyWords (key : Bytes) : List Nat :=
  [leNat (slice key 0 4), leNat (slice key 4 4), leNat (slice key 8 4), leNat (slice key 12 4)]

def xteaEncrypt (block key : Bytes) : Bytes :=
  let s := (xteaRound (keyWords key))^[32] ⟨leNat (slice block 0 4), leNat (slice block 4 4), 0⟩
  leBytes 4 s.left ++ leBytes 4 s.right

def deriveSessionKeyBytes (key : Bytes) (clientNonce serverNonce : Nat) : Bytes :=
  let first := leBytes 4 (clientNonce &&& 0xFFFFFFFF) ++ leBytes 4 (serverNonce &&& 0xFFFFFFFF)
  let second := leBytes 4 (serverNonce ^^^ 0xA5A5A5A5) ++ leBytes 4 (clientNonce ^^^ 0x5A5A5A5A)
  xteaEncrypt first key ++ xteaEncrypt second key

def deriveSessionKey (key : Key) (clientNonce serverNonce : Nat) : Key :=
  ⟨deriveSessionKeyBytes key.bytes clientNonce serverNonce, by simp [deriveSessionKeyBytes, xteaEncrypt]⟩

/-! ## Speck32/64 -/

def ror16 (value count : Nat) : Nat := ((value >>> count) ||| (value <<< (16 - count))) &&& 0xFFFF

def rol16 (value count : Nat) : Nat := ((value <<< count) ||| (value >>> (16 - count))) &&& 0xFFFF

/-- The loop variables of `_speck32_encrypt`: the key schedule runs along with the rounds. -/
structure SpeckState where
  left : Nat
  right : Nat
  roundKey : Nat
  schedule : List Nat
  deriving DecidableEq, Repr

def speckRound (s : SpeckState) (roundIndex : Nat) : SpeckState :=
  let left := ((ror16 s.left 7 + s.right) &&& 0xFFFF) ^^^ s.roundKey
  let right := rol16 s.right 2 ^^^ left
  if roundIndex ≠ 21 then
    let slot := roundIndex % 3
    let nextWord := ((ror16 (s.schedule.getD slot 0) 7 + s.roundKey) &&& 0xFFFF) ^^^ roundIndex
    ⟨left, right, rol16 s.roundKey 2 ^^^ nextWord, s.schedule.set slot nextWord⟩
  else ⟨left, right, s.roundKey, s.schedule⟩

def speckStart (block key : Bytes) : SpeckState :=
  ⟨leNat (slice block 0 2), leNat (slice block 2 2), leNat (slice key 0 2),
    [leNat (slice key 2 2), leNat (slice key 4 2), leNat (slice key 6 2)]⟩

def speck32Encrypt (block key : Bytes) : Bytes :=
  let s := (List.range 22).foldl speckRound (speckStart block key)
  leBytes 2 s.left ++ leBytes 2 s.right

/-! ## The packet MAC -/

def xorBytes (a b : Bytes) : Bytes := a.zipWith (· ^^^ ·) b

/-- `data`, `80h`, zeros to a four-byte boundary, and the length word. -/
def macPadded (data : Bytes) : Bytes :=
  let padded := data ++ [0x80]
  padded ++ List.replicate ((4 - padded.length % 4) % 4) 0 ++ leBytes 4 data.length

/-- The CBC loop over `range(0, len(padded), 4)`. -/
def macChain (key padded : Bytes) : Bytes :=
  (List.range ((padded.length + 3) / 4)).foldl
    (fun state i => speck32Encrypt (xorBytes state (slice padded (4 * i) 4)) key) [0, 0, 0, 0]

def packetMac (data : Bytes) (key : Key) : Nat :=
  leNat (speck32Encrypt (macChain (key.bytes.take 8) (macPadded data)) (key.bytes.drop 8))

@[simp] theorem speck32Encrypt_length (block key : Bytes) : (speck32Encrypt block key).length = 4 := by
  simp [speck32Encrypt]

theorem macPadded_length (data : Bytes) : ∃ n, (macPadded data).length = 4 * n := by
  simp only [macPadded, List.length_append, List.length_replicate, List.length_singleton, leBytes_length]
  refine ⟨((data.length + 1) + (4 - (data.length + 1) % 4) % 4 + 4) / 4, ?_⟩
  omega

theorem packetMac_lt (data : Bytes) (key : Key) : packetMac data key < 256 ^ 4 := by
  have h := leNat_lt (speck32Encrypt (macChain (key.bytes.take 8) (macPadded data)) (key.bytes.drop 8))
  rwa [speck32Encrypt_length] at h

theorem crc16Bit_lt (crc : Nat) : crc16Bit crc < 65536 := by
  unfold crc16Bit
  split <;> exact Nat.lt_of_le_of_lt Nat.and_le_right (by decide)

theorem crc16Byte_lt (crc : Nat) (value : UInt8) : crc16Byte crc value < 65536 := by
  rw [crc16Byte, Function.iterate_succ_apply']
  exact crc16Bit_lt _

theorem crc16Ccitt_lt (data : Bytes) : crc16Ccitt data < 256 ^ 2 := by
  unfold crc16Ccitt
  induction data using List.reverseRecOn with
  | nil => decide
  | append_singleton data value _ =>
    rw [List.foldl_append]
    exact crc16Byte_lt _ _

end DosMcp
