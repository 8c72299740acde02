/-
  DosMcp.Dos.Credential — `parse_credential` of `ragent.c` and `ratsr_loader.c` (one text in
  both): how the DOS agents read the credential on their command line.

  A raw key is read by `strtoul`, two characters at a time. It takes a pair that is not two
  digits where the first character is a blank or a sign (`strtoul16_pair`), so the text of a
  raw key need not be hexadecimal (`parseRawKey_eq`).
-/

import DosMcp.Dos.Sha

namespace DosMcp.Dos

open Lib

/-! ## `strtoul` -/

def isSpace (c : Char) : Bool := c = ' ' ∨ ('\t' ≤ c ∧ c ≤ '\r')

/-- A digit of base 16. -/
def digit16? (c : Char) : Option Nat :=
  if '0' ≤ c ∧ c ≤ '9' then some (c.toNat - 0x30)
  else if 'a' ≤ c ∧ c ≤ 'f' then some (c.toNat - 0x61 + 10)
  else if 'A' ≤ c ∧ c ≤ 'F' then some (c.toNat - 0x41 + 10)
  else none

/-- The sign, if there is one, is a minus. -/
def readSign : List Char → Bool × List Char
  | '-' :: text => (true, text)
  | '+' :: text => (false, text)
  | text => (false, text)

/-- `0x` before a digit is skipped. -/
def skipPrefix : List Char → List Char
  | '0' :: x :: c :: text => if (x = 'x' ∨ x = 'X') ∧ (digit16? c).isSome then c :: text else '0' :: x :: c :: text
  | text => text

/-- The digits at the front, after `value`, and what follows them. -/
def readDigits (value : Nat) : List Char → Nat × List Char
  | [] => (value, [])
  | c :: text => match digit16? c with
    | some d => readDigits (16 * value + d) text
    | none => (value, c :: text)

/-- The value of an `unsigned long`, the largest one when it does not fit. -/
def toULong (negative : Bool) (value : Nat) : UInt32 :=
  if value ≥ 2 ^ 32 then 0xFFFFFFFF else if negative then 0 - UInt32.ofNat value else UInt32.ofNat value

/-- `strtoul(text, &end, 16)` and the text at `end`. -/
def strtoul16 (text : List Char) : UInt32 × List Char :=
  let (negative, digits) := readSign (text.dropWhile isSpace)
  match skipPrefix digits with
  | [] => (0, text)
  | c :: rest =>
    if (digit16? c).isNone then (0, text)
    else
      let (value, tail) := readDigits 0 (c :: rest)
      (toULong negative value, tail)

/-! ## `parse_credential` -/

/-- One turn of the loop of `parse_raw_key`: `output` so far and `any`. -/
def parseRawPair (text : List Char) (s : Bytes × UInt8) (index : Nat) : Option (Bytes × UInt8) :=
  let (value, tail) := strtoul16 ((text.drop (index * 2)).take 2)
  if tail ≠ [] then none else some (s.1 ++ [value.toUInt8], s.2 ||| value.toUInt8)

def parseRawKey (text : List Char) : Option Bytes :=
  if text.length ≠ 32 then none
  else do
    let (output, any) ← (List.range 16).foldlM (parseRawPair text) ([], 0)
    if any ≠ 0 then some output else none

instance decidable_hexDigits (text : List Char) :
    Decidable (∀ value ∈ text, ('0' ≤ value ∧ value ≤ '9') ∨ ('a' ≤ value ∧ value ≤ 'f') ∨ ('A' ≤ value ∧ value ≤ 'F')) :=
  List.decidableBAll _ text

def isHexKey (text : List Char) : Bool :=
  text.length = 32 ∧ ∀ value ∈ text, ('0' ≤ value ∧ value ≤ '9') ∨ ('a' ≤ value ∧ value ≤ 'f') ∨ ('A' ≤ value ∧ value ≤ 'F')

/-- The bytes of a C string. -/
def textBytes (text : List Char) : Bytes := text.map fun c => UInt8.ofNat c.toNat

/-- The 16 bytes and `open_mode`; `none` where it returns -1. The argument is `none` for a
    null pointer, which is what `main` passes without a credential. -/
def parseCredential (text : Option (List Char)) : Option (Bytes × Bool) :=
  match text with
  | none => some (dmOpenModeKey, true)
  | some text =>
    if text = ['-'] then some (dmOpenModeKey, true)
    else if "key:".toList.isPrefixOf text then (parseRawKey (text.drop 4)).map (·, false)
    else if "pass:".toList.isPrefixOf text then
      let password := text.drop 5
      if password = [] then none else some (dmDerivePasswordKey (textBytes password), false)
    else if text = [] then none
    else if isHexKey text then (parseRawKey text).map (·, false)
    else some (dmDerivePasswordKey (textBytes text), false)

/-! ## Pairs -/

/-- The byte a pair is read as. -/
def pairByte? (x y : Char) : Option UInt8 :=
  match digit16? x, digit16? y with
  | some high, some low => some (UInt8.ofNat (16 * high + low))
  | none, some low =>
    if x = ' ' ∨ x = '+' then some (UInt8.ofNat low) else if x = '-' then some (0 - UInt8.ofNat low) else none
  | _, none => none

def pairBytes? : List Char → Option Bytes
  | x :: y :: text => do
    let b ← pairByte? x y
    let bs ← pairBytes? text
    some (b :: bs)
  | _ => some []

theorem digit16?_lt {c : Char} {d : Nat} (h : digit16? c = some d) : d < 16 := by
  have hle : ∀ {a b : Char}, a ≤ b → a.toNat ≤ b.toNat := fun h => UInt32.le_iff_toNat_le.mp (Char.le_def.mp h)
  unfold digit16? at h
  split at h
  · rename_i hc
    have h9 : c.toNat ≤ 0x39 := hle hc.2
    cases h
    omega
  · split at h
    · rename_i hc
      have hf : c.toNat ≤ 0x66 := hle hc.2
      cases h
      omega
    · split at h
      · rename_i hc
        have hf : c.toNat ≤ 0x46 := hle hc.2
        cases h
        omega
      · cases h

theorem readSign_of_ne {c : Char} (hminus : c ≠ '-') (hplus : c ≠ '+') (text : List Char) :
    readSign (c :: text) = (false, c :: text) := by
  unfold readSign
  split <;> simp_all

theorem readDigits_one (value : Nat) (c : Char) :
    readDigits value [c] = match digit16? c with | some d => (16 * value + d, []) | none => (value, [c]) := by
  rw [readDigits]
  cases digit16? c <;> rfl

theorem toULong_toUInt8 {d : Nat} (h : d < 2 ^ 32) (negative : Bool) :
    (toULong negative d).toUInt8 = if negative then 0 - UInt8.ofNat d else UInt8.ofNat d := by
  rw [toULong, if_neg (by omega)]
  cases negative <;> simp

/-- One character is left after the blank or the sign. -/
theorem strtoul16_last {x y : Char} {negative : Bool} (h : readSign ([x, y].dropWhile isSpace) = (negative, [y])) :
    match digit16? y with
    | some d => (strtoul16 [x, y]).2 = [] ∧ (strtoul16 [x, y]).1.toUInt8 = if negative then 0 - UInt8.ofNat d else UInt8.ofNat d
    | none => (strtoul16 [x, y]).2 ≠ [] := by
  rw [strtoul16, h]
  simp only [skipPrefix, readDigits_one]
  cases hd : digit16? y with
  | none => simp
  | some d =>
    have hlt := digit16?_lt hd
    simpa using toULong_toUInt8 (by omega) negative

/-- Two characters are left: neither is a blank or a sign. -/
theorem strtoul16_both {x y : Char} (h : readSign ([x, y].dropWhile isSpace) = (false, [x, y])) :
    match digit16? x, digit16? y with
    | some high, some low => (strtoul16 [x, y]).2 = [] ∧ (strtoul16 [x, y]).1.toUInt8 = UInt8.ofNat (16 * high + low)
    | _, _ => (strtoul16 [x, y]).2 ≠ [] := by
  rw [strtoul16, h]
  simp only [skipPrefix, readDigits]
  cases hx : digit16? x with
  | none => simp
  | some high =>
    cases hy : digit16? y with
    | none => simp
    | some low =>
      have hhigh := digit16?_lt hx
      have hlow := digit16?_lt hy
      simpa using toULong_toUInt8 (by omega : 16 * high + low < 2 ^ 32) false

/-- A pair is read to its end where its second character is a digit and the first one a
    digit, a blank or a sign. -/
theorem strtoul16_pair {x y : Char} (hx : isSpace x → x = ' ') (hy : isSpace y → y = ' ') :
    match pairByte? x y with
    | some b => (strtoul16 [x, y]).2 = [] ∧ (strtoul16 [x, y]).1.toUInt8 = b
    | none => (strtoul16 [x, y]).2 ≠ [] := by
  rw [pairByte?]
  by_cases hblank : x = ' '
  · subst hblank
    have hnone : digit16? ' ' = none := by decide
    rw [hnone]
    by_cases hspace : isSpace y
    · rw [hy hspace]
      show (strtoul16 [' ', ' ']).2 ≠ []
      decide
    by_cases hminus : y = '-'
    · rw [hminus]
      show (strtoul16 [' ', '-']).2 ≠ []
      decide
    by_cases hplus : y = '+'
    · rw [hplus]
      show (strtoul16 [' ', '+']).2 ≠ []
      decide
    have hsign : readSign ([' ', y].dropWhile isSpace) = (false, [y]) := by
      rw [List.dropWhile_cons_of_pos (by decide), List.dropWhile_cons_of_neg hspace, readSign_of_ne hminus hplus]
    have := strtoul16_last hsign
    cases hd : digit16? y <;> simpa [hd] using this
  by_cases hminus : x = '-'
  · subst hminus
    have hnone : digit16? '-' = none := by decide
    have hsign : readSign (['-', y].dropWhile isSpace) = (true, [y]) := rfl
    have := strtoul16_last hsign
    rw [hnone]
    cases hd : digit16? y <;> simpa [hd] using this
  by_cases hplus : x = '+'
  · subst hplus
    have hnone : digit16? '+' = none := by decide
    have hsign : readSign (['+', y].dropWhile isSpace) = (false, [y]) := rfl
    have := strtoul16_last hsign
    rw [hnone]
    cases hd : digit16? y <;> simpa [hd] using this
  have hsign : readSign ([x, y].dropWhile isSpace) = (false, [x, y]) := by
    rw [List.dropWhile_cons_of_neg (fun h => hblank (hx h)), readSign_of_ne hminus hplus]
  have := strtoul16_both hsign
  cases hd : digit16? x <;> cases hd' : digit16? y <;> simpa [hd, hd', hblank, hminus, hplus] using this

/-! ## Raw keys -/

/-- The blanks of the text are spaces: it has no control characters. -/
def Plain (text : List Char) : Prop := ∀ c ∈ text, isSpace c → c = ' '

/-- From `index` on, the loop reads the pairs that are left. -/
theorem parseRawPair_run (n : Nat) {index : Nat} {text : List Char} (hlength : text.length = 2 * (index + n))
    (hplain : Plain text) (s : Bytes × UInt8) :
    (List.range' index n).foldlM (parseRawPair text) s =
      (pairBytes? (text.drop (2 * index))).map fun bs => (s.1 ++ bs, bs.foldl (· ||| ·) s.2) := by
  induction n generalizing index s with
  | zero =>
    rw [List.drop_of_length_le (by omega)]
    simp [pairBytes?]
  | succ n ih =>
    have h0 : 2 * index < text.length := by omega
    have h1 : 2 * index + 1 < text.length := by omega
    have hdrop : text.drop (2 * index) = text.get ⟨_, h0⟩ :: text.get ⟨_, h1⟩ :: text.drop (2 * (index + 1)) := by
      rw [List.drop_eq_getElem_cons h0, List.drop_eq_getElem_cons h1]
      rfl
    have hpair := strtoul16_pair (hplain _ (List.get_mem text ⟨_, h0⟩)) (hplain _ (List.get_mem text ⟨_, h1⟩))
    have htake : (text.drop (index * 2)).take 2 = [text.get ⟨_, h0⟩, text.get ⟨_, h1⟩] := by
      rw [Nat.mul_comm, hdrop]
      rfl
    rw [List.range'_succ, List.foldlM_cons, parseRawPair, htake, hdrop, pairBytes?]
    cases hbyte : pairByte? (text.get ⟨_, h0⟩) (text.get ⟨_, h1⟩) with
    | none =>
      rw [hbyte] at hpair
      exact (congrArg (Option.bind · _) (if_pos hpair)).trans rfl
    | some b =>
      rw [hbyte] at hpair
      obtain ⟨htail, rfl⟩ := hpair
      simp only [htail, ne_eq, not_true_eq_false, if_false, Option.bind_eq_bind, Option.bind_some]
      rw [ih (by omega)]
      cases pairBytes? (text.drop (2 * (index + 1))) <;> simp

theorem parseRawKey_eq {text : List Char} (hlength : text.length = 32) (hplain : Plain text) :
    parseRawKey text = (pairBytes? text).bind fun bs => if bs.foldl (· ||| ·) 0 ≠ 0 then some bs else none := by
  rw [parseRawKey, if_neg (not_not_intro hlength), List.range_eq_range',
    parseRawPair_run 16 (by omega) hplain]
  cases h : pairBytes? text <;> simp [h]

theorem foldl_or_eq_zero (bs : Bytes) (b : UInt8) : bs.foldl (· ||| ·) b = 0 ↔ b = 0 ∧ ∀ c ∈ bs, c = 0 := by
  induction bs generalizing b with
  | nil => simp
  | cons c bs ih =>
    rw [List.foldl_cons, ih]
    simp [and_assoc]

/-- The digits of base 16 are what `is_hex_key` tests for. -/
theorem isHexKey_iff (text : List Char) : isHexKey text ↔ text.length = 32 ∧ ∀ c ∈ text, (digit16? c).isSome := by
  have hdigit : ∀ c : Char, (digit16? c).isSome ↔
      ('0' ≤ c ∧ c ≤ '9') ∨ ('a' ≤ c ∧ c ≤ 'f') ∨ ('A' ≤ c ∧ c ≤ 'F') := by
    intro c
    unfold digit16?
    split
    · simp [*]
    · split
      · simp [*]
      · split <;> simp [*]
  simp [isHexKey, hdigit]

end DosMcp.Dos
