/-
  DosMcp.Lib.Utf8 — the incremental UTF-8 decoder with replacement: bytes come in pieces, an
  incomplete sequence at the end of one waits for the next, and every maximal part of a sequence
  that cannot be one becomes U+FFFD.

  - `decode_append`: where the bytes are cut makes no difference.
  - `decode_encode`: it undoes the encoding of every text.
-/

import DosMcp.Lib.Bytes

namespace DosMcp.Lib.Utf8

/-- What a first byte leaves to come: how many tails, the bounds of the first of them, and the
    bits of the value so far. -/
structure Lead where
  tails : Nat
  low : Nat
  high : Nat
  value : Nat

def lead (b : UInt8) : Option Lead :=
  let n := b.toNat
  if n < 0x80 then some ⟨0, 0x80, 0xBF, n⟩
  else if n < 0xC2 then none
  else if n < 0xE0 then some ⟨1, 0x80, 0xBF, n - 0xC0⟩
  else if n < 0xF0 then some ⟨2, if n = 0xE0 then 0xA0 else 0x80, if n = 0xED then 0x9F else 0xBF, n - 0xE0⟩
  else if n < 0xF5 then some ⟨3, if n = 0xF0 then 0x90 else 0x80, if n = 0xF4 then 0x8F else 0xBF, n - 0xF0⟩
  else none

/-- What bytes begin with: a sequence that more bytes may complete, or so many bytes that are one
    of a character, or the part of one that no byte completes. -/
inductive Scan where
  | incomplete
  | takes (taken : Nat) (value : Option Nat)
  deriving DecidableEq, Repr

def scanTails : (tails low high taken value : Nat) → Bytes → Scan
  | 0, _, _, taken, value, _ => .takes taken (some value)
  | _ + 1, _, _, _, _, [] => .incomplete
  | tails + 1, low, high, taken, value, b :: rest =>
    if low ≤ b.toNat ∧ b.toNat ≤ high then scanTails tails 0x80 0xBF (taken + 1) (64 * value + (b.toNat - 0x80)) rest
    else .takes taken none

def scan : Bytes → Scan
  | [] => .incomplete
  | b :: rest => match lead b with
    | none => .takes 1 none
    | some l => scanTails l.tails l.low l.high 1 l.value rest

/-- The character of a value, U+FFFD for the part of a sequence. -/
def character : Option Nat → Char
  | none => '\uFFFD'
  | some value => Char.ofNat value

/-- The characters of the bytes, and those that wait for more. -/
def decodeLoop : Nat → Bytes → List Char × Bytes
  | 0, data => ([], data)
  | fuel + 1, data => match scan data with
    | .incomplete => ([], data)
    | .takes taken value =>
      let (text, rest) := decodeLoop fuel (data.drop taken)
      (character value :: text, rest)

/-- The next piece, after the bytes that wait. -/
def decode (buffer data : Bytes) : List Char × Bytes := decodeLoop (buffer ++ data).length (buffer ++ data)

/-! ## One sequence -/

section

variable {b : UInt8} {l : Lead} {tails low high taken value n : Nat} {v : Option Nat} {data : Bytes}

/-- A decision does not change with more bytes. -/
theorem scanTails_append (h : scanTails tails low high taken value data ≠ .incomplete) (more : Bytes) :
    scanTails tails low high taken value (data ++ more) = scanTails tails low high taken value data := by
  induction tails generalizing low high taken value data with
  | zero => rfl
  | succ tails ih =>
    cases data with
    | nil => exact absurd rfl h
    | cons b rest =>
      simp only [List.cons_append, scanTails] at h ⊢
      by_cases hb : low ≤ b.toNat ∧ b.toNat ≤ high
      · rw [if_pos hb] at h
        rw [if_pos hb, if_pos hb]
        exact ih h
      · rw [if_neg hb, if_neg hb]

theorem scan_append (h : scan data ≠ .incomplete) (more : Bytes) : scan (data ++ more) = scan data := by
  cases data with
  | nil => exact absurd rfl h
  | cons b rest =>
    simp only [List.cons_append, scan] at h ⊢
    cases hlead : lead b with
    | none => rfl
    | some l =>
      rw [hlead] at h
      exact scanTails_append h more

/-- What is taken is there. -/
theorem scanTails_taken (h : scanTails tails low high taken value data = .takes n v) : taken ≤ n ∧ n ≤ taken + data.length := by
  induction tails generalizing low high taken value data with
  | zero =>
    cases h
    omega
  | succ tails ih =>
    cases data with
    | nil => cases h
    | cons b rest =>
      simp only [scanTails] at h
      rw [List.length_cons]
      split at h
      · have := ih h
        omega
      · cases h
        omega

theorem scan_taken (h : scan data = .takes n v) : 0 < n ∧ n ≤ data.length := by
  cases data with
  | nil => cases h
  | cons b rest =>
    simp only [scan] at h
    rw [List.length_cons]
    cases hlead : lead b with
    | none =>
      rw [hlead] at h
      cases h
      omega
    | some l =>
      rw [hlead] at h
      have := scanTails_taken h
      omega

end

/-! ## Pieces -/

section

variable {data : Bytes} {taken fuel : Nat} {value : Option Nat}

theorem drop_length_lt (h : scan data = .takes taken value) : (data.drop taken).length < data.length := by
  obtain ⟨hpos, hle⟩ := scan_taken h
  rw [List.length_drop]
  omega

theorem decodeLoop_incomplete (h : scan data = .incomplete) (fuel : Nat) : decodeLoop fuel data = ([], data) := by
  cases fuel with
  | zero => rfl
  | succ fuel => rw [decodeLoop, h]

/-- Any fuel that is enough gives the same. -/
theorem decodeLoop_fuel (h : data.length ≤ fuel) : decodeLoop fuel data = decodeLoop data.length data := by
  induction hlength : data.length using Nat.strong_induction_on generalizing data fuel with
  | _ length ih =>
    subst hlength
    cases hscan : scan data with
    | incomplete => rw [decodeLoop_incomplete hscan, decodeLoop_incomplete hscan]
    | takes taken value =>
      have hshort := drop_length_lt hscan
      obtain ⟨fuel, rfl⟩ := Nat.exists_eq_add_of_le' (Nat.lt_of_le_of_lt (Nat.zero_le _) (Nat.lt_of_lt_of_le hshort h))
      obtain ⟨length, hlength⟩ := Nat.exists_eq_add_of_le' (Nat.lt_of_le_of_lt (Nat.zero_le _) hshort)
      have henough : (data.drop taken).length ≤ length := by omega
      rw [hlength, decodeLoop, decodeLoop, hscan]
      dsimp only
      rw [ih _ hshort (by omega) rfl, ih _ hshort henough rfl]

theorem decode_incomplete (buffer data : Bytes) (h : scan (buffer ++ data) = .incomplete) :
    decode buffer data = ([], buffer ++ data) := decodeLoop_incomplete h _

theorem decode_takes (buffer data : Bytes) (h : scan (buffer ++ data) = .takes taken value) :
    decode buffer data = (character value :: (decode [] ((buffer ++ data).drop taken)).1,
      (decode [] ((buffer ++ data).drop taken)).2) := by
  have hshort := drop_length_lt h
  obtain ⟨fuel, hfuel⟩ := Nat.exists_eq_add_of_le' (Nat.lt_of_le_of_lt (Nat.zero_le _) hshort)
  rw [decode, hfuel, decodeLoop, h]
  dsimp only
  rw [decodeLoop_fuel (by omega)]
  rfl

/-- The bytes that wait are as good as bytes that come. -/
theorem decode_nil (buffer data : Bytes) : decode buffer data = decode [] (buffer ++ data) := rfl

theorem decode_nil_append (data more : Bytes) : decode [] (data ++ more) =
    ((decode [] data).1 ++ (decode (decode [] data).2 more).1, (decode (decode [] data).2 more).2) := by
  induction hlength : data.length using Nat.strong_induction_on generalizing data with
  | _ length ih =>
    subst hlength
    cases hscan : scan data with
    | incomplete =>
      rw [decode_incomplete [] data hscan]
      rfl
    | takes taken value =>
      have happend : scan (data ++ more) = .takes taken value := (scan_append (by rw [hscan]; nofun) more).trans hscan
      have hrest : (data ++ more).drop taken = data.drop taken ++ more := List.drop_append_of_le_length (scan_taken hscan).2
      rw [decode_takes [] (data ++ more) happend, decode_takes [] data hscan, List.nil_append,
        List.nil_append, hrest, ih _ (drop_length_lt hscan) _ rfl]
      rfl

/-- The bytes in one piece or in two. -/
theorem decode_append (buffer data more : Bytes) : decode buffer (data ++ more) =
    ((decode buffer data).1 ++ (decode (decode buffer data).2 more).1, (decode (decode buffer data).2 more).2) := by
  rw [decode_nil buffer (data ++ more), decode_nil buffer data, ← List.append_assoc]
  exact decode_nil_append (buffer ++ data) more

/-- What waits is incomplete. -/
theorem decode_waits (data : Bytes) : scan (decode [] data).2 = .incomplete := by
  induction hlength : data.length using Nat.strong_induction_on generalizing data with
  | _ length ih =>
    subst hlength
    cases hscan : scan data with
    | incomplete =>
      rw [decode_incomplete [] data hscan]
      exact hscan
    | takes taken value =>
      rw [decode_takes [] data hscan]
      exact ih _ (drop_length_lt hscan) (data.drop taken) rfl

end

/-! ## Encodings -/

section

variable {b b₁ b₂ b₃ : UInt8} {rest data : Bytes} {taken value : Nat}

theorem scanTails_cons {tails low high : Nat} (h : low ≤ b.toNat ∧ b.toNat ≤ high) :
    scanTails (tails + 1) low high taken value (b :: rest) =
      scanTails tails 0x80 0xBF (taken + 1) (64 * value + (b.toNat - 0x80)) rest := if_pos h

theorem scan_one (h : b.toNat < 0x80) : scan (b :: rest) = .takes 1 (some b.toNat) := by
  simp only [scan, lead, if_pos h, scanTails]

theorem scan_two (h : 0xC2 ≤ b.toNat ∧ b.toNat < 0xE0) (h₁ : 0x80 ≤ b₁.toNat ∧ b₁.toNat ≤ 0xBF) :
    scan (b :: b₁ :: rest) = .takes 2 (some (64 * (b.toNat - 0xC0) + (b₁.toNat - 0x80))) := by
  have hlead : lead b = some ⟨1, 0x80, 0xBF, b.toNat - 0xC0⟩ := by
    rw [lead, if_neg (by omega), if_neg (by omega), if_pos h.2]
  rw [scan, hlead]
  exact scanTails_cons h₁

theorem scan_three (h : 0xE0 ≤ b.toNat ∧ b.toNat < 0xF0) (h₁ : 0x80 ≤ b₁.toNat ∧ b₁.toNat ≤ 0xBF)
    (h₂ : 0x80 ≤ b₂.toNat ∧ b₂.toNat ≤ 0xBF) (hlow : b.toNat = 0xE0 → 0xA0 ≤ b₁.toNat) (hhigh : b.toNat = 0xED → b₁.toNat ≤ 0x9F) :
    scan (b :: b₁ :: b₂ :: rest) =
      .takes 3 (some (64 * (64 * (b.toNat - 0xE0) + (b₁.toNat - 0x80)) + (b₂.toNat - 0x80))) := by
  have hlead : lead b = some ⟨2, if b.toNat = 0xE0 then 0xA0 else 0x80, if b.toNat = 0xED then 0x9F else 0xBF, b.toNat - 0xE0⟩ := by
    rw [lead, if_neg (by omega), if_neg (by omega), if_neg (by omega), if_pos h.2]
  rw [scan, hlead]
  refine (scanTails_cons ⟨?_, ?_⟩).trans (scanTails_cons h₂)
  · dsimp only
    split <;> omega
  · dsimp only
    split <;> omega

theorem scan_four (h : 0xF0 ≤ b.toNat ∧ b.toNat < 0xF5) (h₁ : 0x80 ≤ b₁.toNat ∧ b₁.toNat ≤ 0xBF)
    (h₂ : 0x80 ≤ b₂.toNat ∧ b₂.toNat ≤ 0xBF) (h₃ : 0x80 ≤ b₃.toNat ∧ b₃.toNat ≤ 0xBF) (hlow : b.toNat = 0xF0 → 0x90 ≤ b₁.toNat)
    (hhigh : b.toNat = 0xF4 → b₁.toNat ≤ 0x8F) :
    scan (b :: b₁ :: b₂ :: b₃ :: rest) =
      .takes 4 (some (64 * (64 * (64 * (b.toNat - 0xF0) + (b₁.toNat - 0x80)) + (b₂.toNat - 0x80)) + (b₃.toNat - 0x80))) := by
  have hlead : lead b = some ⟨3, if b.toNat = 0xF0 then 0x90 else 0x80, if b.toNat = 0xF4 then 0x8F else 0xBF, b.toNat - 0xF0⟩ := by
    rw [lead, if_neg (by omega), if_neg (by omega), if_neg (by omega), if_neg (by omega), if_pos h.2]
  rw [scan, hlead]
  refine (scanTails_cons ⟨?_, ?_⟩).trans ((scanTails_cons h₂).trans (scanTails_cons h₃))
  · dsimp only
    split <;> omega
  · dsimp only
    split <;> omega

theorem toNat_bounds (c : Char) : c.toNat < 0xD800 ∨ (0xDFFF < c.toNat ∧ c.toNat < 0x110000) := c.valid

theorem toNat_ofNat_of_lt {n : Nat} (h : n < 256) : (UInt8.ofNat n).toNat = n := UInt8.toNat_ofNat_of_lt' h

/-- An encoding is taken as a whole. -/
theorem scan_encode (c : Char) (rest : Bytes) :
    scan (String.utf8EncodeChar c ++ rest) = .takes (String.utf8EncodeChar c).length (some c.toNat) := by
  have hvalid := toNat_bounds c
  have hval : c.val.toNat = c.toNat := rfl
  unfold String.utf8EncodeChar
  dsimp only
  rw [hval]
  generalize c.toNat = n at hvalid
  by_cases h₁ : n ≤ 0x7F
  · rw [if_pos h₁]
    have hb : (UInt8.ofNat n).toNat = n := toNat_ofNat_of_lt (by omega)
    refine (scan_one (by omega)).trans ?_
    rw [hb]
    rfl
  rw [if_neg h₁]
  by_cases h₂ : n ≤ 0x7FF
  · rw [if_pos h₂]
    have hb : (UInt8.ofNat (n / 64 % 0x20 + 0xC0)).toNat = n / 64 + 0xC0 := by
      rw [toNat_ofNat_of_lt (by omega)]
      omega
    have hb₁ : (UInt8.ofNat (n % 0x40 + 0x80)).toNat = n % 64 + 0x80 := toNat_ofNat_of_lt (by omega)
    refine (scan_two (by omega) (by omega)).trans ?_
    rw [hb, hb₁, show 64 * (n / 64 + 0xC0 - 0xC0) + (n % 64 + 0x80 - 0x80) = n by omega]
    rfl
  rw [if_neg h₂]
  by_cases h₃ : n ≤ 0xFFFF
  · rw [if_pos h₃]
    have hb : (UInt8.ofNat (n / 4096 % 0x10 + 0xE0)).toNat = n / 4096 + 0xE0 := by
      rw [toNat_ofNat_of_lt (by omega)]
      omega
    have hb₁ : (UInt8.ofNat (n / 64 % 0x40 + 0x80)).toNat = n / 64 % 64 + 0x80 := toNat_ofNat_of_lt (by omega)
    have hb₂ : (UInt8.ofNat (n % 0x40 + 0x80)).toNat = n % 64 + 0x80 := toNat_ofNat_of_lt (by omega)
    refine (scan_three (by omega) (by omega) (by omega) (by omega) (by omega)).trans ?_
    rw [hb, hb₁, hb₂, show 64 * (64 * (n / 4096 + 0xE0 - 0xE0) + (n / 64 % 64 + 0x80 - 0x80)) + (n % 64 + 0x80 - 0x80) = n by omega]
    rfl
  · rw [if_neg h₃]
    have hb : (UInt8.ofNat (n / 262144 % 0x08 + 0xF0)).toNat = n / 262144 + 0xF0 := by
      rw [toNat_ofNat_of_lt (by omega)]
      omega
    have hb₁ : (UInt8.ofNat (n / 4096 % 0x40 + 0x80)).toNat = n / 4096 % 64 + 0x80 := toNat_ofNat_of_lt (by omega)
    have hb₂ : (UInt8.ofNat (n / 64 % 0x40 + 0x80)).toNat = n / 64 % 64 + 0x80 := toNat_ofNat_of_lt (by omega)
    have hb₃ : (UInt8.ofNat (n % 0x40 + 0x80)).toNat = n % 64 + 0x80 := toNat_ofNat_of_lt (by omega)
    refine (scan_four (by omega) (by omega) (by omega) (by omega) (by omega) (by omega)).trans ?_
    rw [hb, hb₁, hb₂, hb₃, show 64 * (64 * (64 * (n / 262144 + 0xF0 - 0xF0) + (n / 4096 % 64 + 0x80 - 0x80)) +
      (n / 64 % 64 + 0x80 - 0x80)) + (n % 64 + 0x80 - 0x80) = n by omega]
    rfl

theorem character_toNat (c : Char) : character (some c.toNat) = c := Char.ofNat_toNat c

/-- The text of an encoding, and whatever comes after it. -/
theorem decode_encode (text : List Char) (more : Bytes) :
    decode [] (text.flatMap String.utf8EncodeChar ++ more) = (text ++ (decode [] more).1, (decode [] more).2) := by
  induction text with
  | nil => rfl
  | cons c text ih =>
    let rest := text.flatMap String.utf8EncodeChar ++ more
    calc decode [] ((c :: text).flatMap String.utf8EncodeChar ++ more)
        = decode [] (String.utf8EncodeChar c ++ rest) := by rw [List.flatMap_cons, List.append_assoc]
      _ = (c :: (decode [] rest).1, (decode [] rest).2) := by
        refine (decode_takes [] (String.utf8EncodeChar c ++ rest) (scan_encode c rest)).trans ?_
        rw [character_toNat, List.nil_append, List.drop_left]
      _ = (c :: text ++ (decode [] more).1, (decode [] more).2) := by rw [ih]; rfl

end

end DosMcp.Lib.Utf8
