/-
  DosMcp.Runtime.Credential — `credential_key` of `protocol/crypto.py`: the key a DOS agent's
  credential stands for.

  A value of 32 characters is taken for a bare key when `int(value, 16)` reads it, which is
  so for every 32 digits (`readsBase16_digits`) but also for values that `parse_key` refuses:
  `int` allows blanks around the number, a sign, a `0x` prefix and underscores.
-/

import DosMcp.Runtime.Registry

namespace DosMcp.Crypto

open Lib

/-! ## `int(value, 16)` -/

def isBlank (c : Char) : Bool := c = ' ' ∨ ('\t' ≤ c ∧ c ≤ '\r')

def skipSign : List Char → List Char
  | '+' :: text => text
  | '-' :: text => text
  | text => text

/-- One underscore is allowed after `0x`. -/
def skipBase : List Char → List Char
  | '0' :: 'x' :: '_' :: text => text
  | '0' :: 'X' :: '_' :: text => text
  | '0' :: 'x' :: text => text
  | '0' :: 'X' :: text => text
  | text => text

/-- What follows the digits and the single underscores between them; `underscore`: the last
    character was one. -/
def skipDigits (underscore : Bool) : List Char → Option (List Char)
  | [] => if underscore then none else some []
  | c :: text =>
    if (hexValue? c).isSome then skipDigits false text
    else if underscore then none
    else if c = '_' then skipDigits true text
    else some (c :: text)

/-- `int(value, 16)` does not raise, for an ASCII value. -/
def readsBase16 (value : String) : Bool :=
  match skipBase (skipSign (value.toList.dropWhile isBlank)) with
  | [] => false
  | c :: text => (hexValue? c).isSome && ((skipDigits false text).any fun rest => rest.all isBlank)

/-! ## `credential_key` -/

def openModeKey (h : Host) : Key := h.digestKey openModeDomain

/-- `value is None or value == "-"`. -/
def selectsOpenMode (value : Option String) : Bool := value = none ∨ value = some "-"

def credentialKey (h : Host) (value : Option String) : Except Exc Key :=
  if selectsOpenMode value then .ok (openModeKey h)
  else
    let value := value.getD ""
    if "key:".toList.isPrefixOf value.toList then parseKey (String.ofList (value.toList.drop 4))
    else if "pass:".toList.isPrefixOf value.toList then derivePasswordKey h (String.ofList (value.toList.drop 5))
    else if value.toList.length = 32 ∧ readsBase16 value then parseKey value
    else derivePasswordKey h value

/-! ## What `int` reads -/

theorem skipSign_of_digit {c : Char} (h : (hexValue? c).isSome) (text : List Char) : skipSign (c :: text) = c :: text := by
  unfold skipSign
  split
  · rename_i heq
    cases heq
    exact absurd h (by decide)
  · rename_i heq
    cases heq
    exact absurd h (by decide)
  · rfl

theorem skipBase_of_digits {text : List Char} (h : ∀ c ∈ text, (hexValue? c).isSome) : skipBase text = text := by
  have hx : ¬ (hexValue? 'x').isSome := by decide
  have hX : ¬ (hexValue? 'X').isSome := by decide
  unfold skipBase
  split <;> simp_all

theorem skipDigits_digits {text : List Char} (h : ∀ c ∈ text, (hexValue? c).isSome) : skipDigits false text = some [] := by
  induction text with
  | nil => rfl
  | cons c text ih =>
    rw [skipDigits, if_pos (h c List.mem_cons_self)]
    exact ih fun c hc => h c (List.mem_cons_of_mem _ hc)

theorem not_isBlank_of_digit {c : Char} (h : (hexValue? c).isSome) : ¬ isBlank c := by
  have hle : ∀ {a b : Char}, a ≤ b → a.toNat ≤ b.toNat := fun h => UInt32.le_iff_toNat_le.mp (Char.le_def.mp h)
  have hlow : 0x30 ≤ c.toNat := by
    unfold hexValue? at h
    split at h
    · rename_i hc
      exact hle hc.1
    · split at h
      · rename_i hc
        exact Nat.le_trans (by decide) (hle hc.1)
      · split at h
        · rename_i hc
          exact Nat.le_trans (by decide) (hle hc.1)
        · cases h
  intro hblank
  rcases of_decide_eq_true hblank with rfl | ⟨-, hc⟩
  · exact absurd hlow (by decide)
  · have hr : c.toNat ≤ 0x0D := hle hc
    omega

/-- `int` reads a text of digits. -/
theorem readsBase16_digits {value : String} (hne : value.toList ≠ []) (h : ∀ c ∈ value.toList, (hexValue? c).isSome) :
    readsBase16 value := by
  obtain ⟨c, text, hvalue⟩ := List.exists_cons_of_ne_nil hne
  rw [hvalue] at h
  have hc := h c List.mem_cons_self
  rw [readsBase16, hvalue, List.dropWhile_cons_of_neg (not_isBlank_of_digit hc), skipSign_of_digit hc, skipBase_of_digits h]
  simp [hc, skipDigits_digits fun c hc => h c (List.mem_cons_of_mem _ hc)]

/-- A number starts with a blank, a sign or a digit. -/
theorem not_readsBase16 {value : String} {c : Char} {text : List Char} (hvalue : value.toList = c :: text)
    (hblank : ¬ isBlank c) (hplus : c ≠ '+') (hminus : c ≠ '-') (hdigit : ¬ (hexValue? c).isSome) :
    ¬ readsBase16 value := by
  have hsign : skipSign (c :: text) = c :: text := by
    unfold skipSign
    split <;> simp_all
  have hbase : skipBase (c :: text) = c :: text := by
    have h0 : (hexValue? '0').isSome := by decide
    unfold skipBase
    split <;> simp_all
  rw [readsBase16, hvalue, List.dropWhile_cons_of_neg hblank, hsign, hbase]
  simp [hdigit]

end DosMcp.Crypto
