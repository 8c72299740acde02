/-
  DosMcp.Lib.Crc32 — the reflected CRC-32 (polynomial EDB88320h, initial and final
  complement), with the running-value argument of `zlib.crc32`.

  - `crc32_append`: a CRC continued over a second block is the CRC of both, wherever
    the data is cut.
  - `crc32_lt`: a CRC fits four bytes.
-/

import DosMcp.Lib.Bytes
import Mathlib.Logic.Function.Iterate

namespace DosMcp.Lib

def crc32Bit (crc : Nat) : Nat := if crc &&& 1 ≠ 0 then (crc >>> 1) ^^^ 0xEDB88320 else crc >>> 1

def crc32Byte (crc : Nat) (value : UInt8) : Nat := crc32Bit^[8] (crc ^^^ value.toNat)

/-- `crc32 data value`: the CRC of `data` continued from `value`, the CRC of what came before. -/
def crc32 (data : Bytes) (value : Nat) : Nat := data.foldl crc32Byte (value ^^^ 0xFFFFFFFF) ^^^ 0xFFFFFFFF

@[simp] theorem crc32_nil (value : Nat) : crc32 [] value = value := by
  rw [crc32, List.foldl_nil, Nat.xor_assoc, Nat.xor_self, Nat.xor_zero]

theorem crc32_append (a b : Bytes) (value : Nat) : crc32 (a ++ b) value = crc32 b (crc32 a value) := by
  rw [crc32, crc32, crc32, List.foldl_append, Nat.xor_assoc, Nat.xor_self, Nat.xor_zero]

theorem crc32Bit_lt {crc : Nat} (h : crc < 2 ^ 32) : crc32Bit crc < 2 ^ 32 := by
  have hs : crc >>> 1 < 2 ^ 32 := by rw [Nat.shiftRight_eq_div_pow]; omega
  unfold crc32Bit
  split
  · exact Nat.xor_lt_two_pow hs (by decide)
  · exact hs

theorem crc32Byte_lt {crc : Nat} (h : crc < 2 ^ 32) (value : UInt8) : crc32Byte crc value < 2 ^ 32 := by
  have hv : value.toNat < 2 ^ 32 := Nat.lt_trans value.toNat_lt (by decide)
  exact Function.Iterate.rec (fun crc => crc < 2 ^ 32) (Nat.xor_lt_two_pow h hv) (fun _ => crc32Bit_lt) 8

theorem crc32_lt (data : Bytes) {value : Nat} (h : value < 2 ^ 32) : crc32 data value < 2 ^ 32 := by
  have hf : ∀ crc < 2 ^ 32, data.foldl crc32Byte crc < 2 ^ 32 := by
    induction data with
    | nil => exact fun _ h => h
    | cons b data ih => exact fun crc h => ih _ (crc32Byte_lt h b)
  exact Nat.xor_lt_two_pow (hf _ (Nat.xor_lt_two_pow h (by decide))) (by decide)

example : crc32 [0x31, 0x32, 0x33, 0x34, 0x35, 0x36, 0x37, 0x38, 0x39] 0 = 0xCBF43926 := by decide +kernel

end DosMcp.Lib
