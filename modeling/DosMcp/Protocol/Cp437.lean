/-
  DosMcp.Protocol.Cp437 — the `cp437` codec of Python's standard library.

  A Python string is a list of characters. Every byte decodes; a character outside the
  table does not encode (`cp437Encode` is `none` where `str.encode` raises), or becomes
  a question mark under `errors="replace"`. The two directions are inverse
  (`cp437Encode_decode`, `cp437Decode_encode`).
-/

import DosMcp.Lib.Bytes

namespace DosMcp

open Lib

/-- The code points of bytes 80h to FFh. -/
def cp437High : List Nat :=
  [0x00C7, 0x00FC, 0x00E9, 0x00E2, 0x00E4, 0x00E0, 0x00E5, 0x00E7, 0x00EA, 0x00EB, 0x00E8, 0x00EF,
   0x00EE, 0x00EC, 0x00C4, 0x00C5, 0x00C9, 0x00E6, 0x00C6, 0x00F4, 0x00F6, 0x00F2, 0x00FB, 0x00F9,
   0x00FF, 0x00D6, 0x00DC, 0x00A2, 0x00A3, 0x00A5, 0x20A7, 0x0192, 0x00E1, 0x00ED, 0x00F3, 0x00FA,
   0x00F1, 0x00D1, 0x00AA, 0x00BA, 0x00BF, 0x2310, 0x00AC, 0x00BD, 0x00BC, 0x00A1, 0x00AB, 0x00BB,
   0x2591, 0x2592, 0x2593, 0x2502, 0x2524, 0x2561, 0x2562, 0x2556, 0x2555, 0x2563, 0x2551, 0x2557,
   0x255D, 0x255C, 0x255B, 0x2510, 0x2514, 0x2534, 0x252C, 0x251C, 0x2500, 0x253C, 0x255E, 0x255F,
   0x255A, 0x2554, 0x2569, 0x2566, 0x2560, 0x2550, 0x256C, 0x2567, 0x2568, 0x2564, 0x2565, 0x2559,
   0x2558, 0x2552, 0x2553, 0x256B, 0x256A, 0x2518, 0x250C, 0x2588, 0x2584, 0x258C, 0x2590, 0x2580,
   0x03B1, 0x00DF, 0x0393, 0x03C0, 0x03A3, 0x03C3, 0x00B5, 0x03C4, 0x03A6, 0x0398, 0x03A9, 0x03B4,
   0x221E, 0x03C6, 0x03B5, 0x2229, 0x2261, 0x00B1, 0x2265, 0x2264, 0x2320, 0x2321, 0x00F7, 0x2248,
   0x00B0, 0x2219, 0x00B7, 0x221A, 0x207F, 0x00B2, 0x25A0, 0x00A0]

def cp437Char (b : UInt8) : Char :=
  if b.toNat < 0x80 then Char.ofNat b.toNat else Char.ofNat (cp437High.getD (b.toNat - 0x80) 0)

def cp437Byte? (c : Char) : Option UInt8 :=
  if c.toNat < 0x80 then some (UInt8.ofNat c.toNat)
  else (cp437High.findIdx? (· == c.toNat)).map fun i => UInt8.ofNat (0x80 + i)

/-- `bytes.decode("cp437")`. -/
def cp437Decode (bs : Bytes) : List Char := bs.map cp437Char

/-- `str.encode("cp437")`. -/
def cp437Encode (cs : List Char) : Option Bytes := cs.mapM cp437Byte?

/-- `str.encode("cp437", errors="replace")`. -/
def cp437EncodeReplace (cs : List Char) : Bytes := cs.map fun c => (cp437Byte? c).getD 0x3F

theorem cp437Byte?_char (b : UInt8) : cp437Byte? (cp437Char b) = some b := by
  have h : ∀ n < 256, cp437Byte? (cp437Char (UInt8.ofNat n)) = some (UInt8.ofNat n) := by decide +kernel
  rw [← UInt8.ofNat_toNat (x := b)]
  exact h _ b.toNat_lt

theorem cp437Char_byte {c : Char} {b : UInt8} (h : cp437Byte? c = some b) : cp437Char b = c := by
  unfold cp437Byte? at h
  split at h
  · rename_i hc
    obtain rfl : UInt8.ofNat c.toNat = b := by simpa using h
    have hn : (UInt8.ofNat c.toNat).toNat = c.toNat := by rw [UInt8.toNat_ofNat']; omega
    rw [cp437Char, hn, if_pos hc, Char.ofNat_toNat]
  · obtain ⟨i, hi, rfl⟩ := Option.map_eq_some_iff.mp h
    obtain ⟨hlt, heq, -⟩ := List.findIdx?_eq_some_iff_getElem.mp hi
    have hlen : cp437High.length = 128 := rfl
    have hn : (UInt8.ofNat (0x80 + i)).toNat = 0x80 + i := by rw [UInt8.toNat_ofNat']; omega
    have hd : cp437High.getD (0x80 + i - 0x80) 0 = cp437High[i] := by
      rw [Nat.add_sub_cancel_left, List.getD_eq_getElem?_getD, List.getElem?_eq_getElem hlt, Option.getD_some]
    rw [cp437Char, hn, if_neg (by omega), hd, beq_iff_eq.mp heq, Char.ofNat_toNat]

theorem cp437Encode_decode (bs : Bytes) : cp437Encode (cp437Decode bs) = some bs := by
  induction bs with
  | nil => rfl
  | cons b bs ih =>
    have e : cp437Encode (cp437Decode (b :: bs)) =
        (cp437Byte? (cp437Char b)).bind fun x => (cp437Encode (cp437Decode bs)).map (x :: ·) := by
      simp [cp437Encode, cp437Decode, Option.map_eq_bind, Function.comp_def]
    rw [e, cp437Byte?_char, ih]
    rfl

/-- A path survives its encoding. -/
theorem cp437Decode_encode {cs : List Char} {bs : Bytes} (h : cp437Encode cs = some bs) : cp437Decode bs = cs := by
  induction cs generalizing bs with
  | nil =>
    cases h
    rfl
  | cons c cs ih =>
    simp only [cp437Encode, List.mapM_cons, Option.bind_eq_bind, Option.bind_eq_some_iff, Option.pure_def,
      Option.some.injEq] at h
    obtain ⟨b, hb, rest, hr, rfl⟩ := h
    rw [cp437Decode, List.map_cons, cp437Char_byte hb]
    exact congrArg (c :: ·) (ih hr)

end DosMcp
