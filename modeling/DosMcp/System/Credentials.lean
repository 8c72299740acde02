/-
  DosMcp.System.Credentials — what a credential means on the two peers: `credential_key` of
  the Python host beside `parse_credential` of the DOS agents.

  They refuse the same texts and otherwise derive the same key, in open mode for `-` only,
  except on two kinds of text (`credentials_agree_iff`):
  - `BareMisread`: 32 characters that `int(value, 16)` reads although they are not 32
    digits. The DOS peer takes them as a password; the Python host goes on to `parse_key`,
    which refuses them.
  - `KeyMisread`: after `key:`, 16 pairs that `strtoul` reads although a pair's first
    character is a blank or a sign. The DOS peer takes the key; the Python host refuses it.
-/

import DosMcp.Dos.Credential
import DosMcp.Runtime.Configuration
import DosMcp.Runtime.Credential

namespace DosMcp

open Lib

/-- Printable ASCII characters. -/
def Printable (s : String) : Prop := ∀ c ∈ s.toList, ' ' ≤ c ∧ c ≤ '~'

/-- Both peers refuse, or both take the same 16 bytes. -/
def SameKey : Except Exc Key → Option Bytes → Prop
  | .error _, none => True
  | .ok key, some output => output = key.bytes
  | _, _ => False

def Agrees (h : Host) (s : String) : Prop :=
  SameKey (Crypto.credentialKey h (some s)) ((Dos.parseCredential (some s.toList)).map (·.1)) ∧
    (∀ output openMode, Dos.parseCredential (some s.toList) = some (output, openMode) → (openMode = true ↔ s = "-")) ∧
    (Crypto.selectsOpenMode (some s) = true ↔ s = "-")

def isDigit16 (c : Char) : Bool := (hexValue? c).isSome

/-- A value `int` reads, of 32 characters, that are not all digits. -/
def BareMisread (s : String) : Prop :=
  s.toList.length = 32 ∧ Crypto.readsBase16 s ∧ ∃ c ∈ s.toList, ¬ isDigit16 c

/-- Every pair is two digits, or a blank or a sign and a digit. -/
def PairsRead : List Char → Prop
  | x :: y :: text => isDigit16 y ∧ (isDigit16 x ∨ x = ' ' ∨ x = '+' ∨ x = '-') ∧ PairsRead text
  | _ => True

instance decidablePairsRead : DecidablePred PairsRead
  | [] => isTrue trivial
  | [_] => isTrue trivial
  | x :: y :: text =>
    have := decidablePairsRead text
    inferInstanceAs (Decidable (isDigit16 y ∧ (isDigit16 x ∨ x = ' ' ∨ x = '+' ∨ x = '-') ∧ PairsRead text))

/-- A raw key that `strtoul` reads: not all its characters are digits, but one is a digit
    other than zero. -/
def KeyMisread (s : String) : Prop :=
  "key:".toList.isPrefixOf s.toList ∧ (s.toList.drop 4).length = 32 ∧ PairsRead (s.toList.drop 4) ∧
    (∃ c ∈ s.toList.drop 4, ¬ isDigit16 c) ∧ ∃ c ∈ s.toList.drop 4, isDigit16 c ∧ c ≠ '0'

instance : DecidablePred Printable := fun s => List.decidableBAll _ s.toList

instance : DecidablePred BareMisread := fun s =>
  have := List.decidableBEx (fun c => ¬ isDigit16 c) s.toList
  inferInstanceAs (Decidable (s.toList.length = 32 ∧ Crypto.readsBase16 s ∧ ∃ c ∈ s.toList, ¬ isDigit16 c))

instance : DecidablePred KeyMisread := fun s =>
  have := List.decidableBEx (fun c => ¬ isDigit16 c) (s.toList.drop 4)
  have := List.decidableBEx (fun c => isDigit16 c ∧ c ≠ '0') (s.toList.drop 4)
  inferInstanceAs (Decidable ("key:".toList.isPrefixOf s.toList ∧ (s.toList.drop 4).length = 32 ∧
    PairsRead (s.toList.drop 4) ∧ (∃ c ∈ s.toList.drop 4, ¬ isDigit16 c) ∧
    ∃ c ∈ s.toList.drop 4, isDigit16 c ∧ c ≠ '0'))

/-! ## Derived keys -/

/-- A text of ASCII characters is encoded as these characters. -/
theorem toUTF8_printable {s : String} (h : Printable s) : s.toUTF8.toList = Dos.textBytes s.toList := by
  rw [byteArray_toList, String.toUTF8_eq_toByteArray, ← String.utf8Encode_toList, Dos.textBytes]
  apply utf8Encode_ascii
  intro c hc
  have hle : c.toNat ≤ 0x7E := UInt32.le_iff_toNat_le.mp (Char.le_def.mp (h c hc).2)
  omega

theorem openModeKey_bytes {h : Host} (hsha : ∀ data, h.sha256 data = Sha256.sha256 data) :
    (Crypto.openModeKey h).bytes = Dos.dmOpenModeKey := by
  rw [Dos.dmOpenModeKey_eq]
  exact congrArg (List.take 16) (hsha _)

theorem derivePasswordKey_same {h : Host} (hsha : ∀ data, h.sha256 data = Sha256.sha256 data) {s : String}
    (hne : s ≠ "") (hs : Printable s) (hlength : s.toList.length < 2 ^ 16) :
    SameKey (derivePasswordKey h s) (some (Dos.dmDerivePasswordKey (Dos.textBytes s.toList))) := by
  rw [derivePasswordKey, if_neg hne, Dos.dmDerivePasswordKey_eq (by simpa [Dos.textBytes] using hlength), toUTF8_printable hs]
  exact (congrArg (List.take 16) (hsha _)).symm

/-! ## Raw keys -/

theorem digit16?_eq : Dos.digit16? = hexValue? := rfl

theorem hexValue?_zero {c : Char} (h : hexValue? c = some 0) : c = '0' := by
  have hle : ∀ {a b : Char}, a ≤ b → a.toNat ≤ b.toNat := fun h => UInt32.le_iff_toNat_le.mp (Char.le_def.mp h)
  unfold hexValue? at h
  split at h
  · rename_i hc
    have h0 : 0x30 ≤ c.toNat := hle hc.1
    have hzero : c.toNat - 0x30 = 0 := Option.some.inj h
    apply Char.toNat_inj.mp
    show c.toNat = 0x30
    omega
  · split at h
    · have := Option.some.inj h
      omega
    · split at h
      · have := Option.some.inj h
        omega
      · cases h

theorem ofNat_eq_zero {n : Nat} (h : n < 256) : UInt8.ofNat n = 0 ↔ n = 0 := by
  rw [← UInt8.toNat_inj, UInt8.toNat_ofNat', Nat.mod_eq_of_lt h]
  rfl

theorem digit_zero_iff {c : Char} {d : Nat} (h : hexValue? c = some d) : d = 0 ↔ c = '0' := by
  constructor
  · rintro rfl
    exact hexValue?_zero h
  · rintro rfl
    exact (Option.some.inj h).symm

/-- A pair is read as zero when its digits are zeros. -/
theorem pairByte?_zero {x y : Char} {b : UInt8} (h : Dos.pairByte? x y = some b) :
    b = 0 ↔ (isDigit16 x → x = '0') ∧ (isDigit16 y → y = '0') := by
  rw [Dos.pairByte?, digit16?_eq] at h
  cases hy : hexValue? y with
  | none => cases hx : hexValue? x <;> simp [hx, hy] at h
  | some low =>
    have hlow := Dos.digit16?_lt hy
    have hyd : isDigit16 y := by simp [isDigit16, hy]
    cases hx : hexValue? x with
    | none =>
      have hxd : ¬ isDigit16 x := by simp [isDigit16, hx]
      have hneg : 0 - UInt8.ofNat low = 0 ↔ UInt8.ofNat low = 0 := by grind
      have hb : b = 0 ↔ UInt8.ofNat low = 0 := by
        simp only [hx, hy] at h
        split at h
        · rw [← Option.some.inj h]
        · split at h
          · rw [← Option.some.inj h, hneg]
          · cases h
      rw [hb, ofNat_eq_zero (by omega), digit_zero_iff hy]
      simp [hxd, hyd]
    | some high =>
      have hhigh := Dos.digit16?_lt hx
      have hxd : isDigit16 x := by simp [isDigit16, hx]
      simp only [hx, hy] at h
      rw [← Option.some.inj h, ofNat_eq_zero (by omega)]
      simp only [hxd, hyd, forall_const]
      rw [← digit_zero_iff hx, ← digit_zero_iff hy]
      omega

theorem pairByte?_isSome (x y : Char) :
    (Dos.pairByte? x y).isSome ↔ isDigit16 y ∧ (isDigit16 x ∨ x = ' ' ∨ x = '+' ∨ x = '-') := by
  rw [Dos.pairByte?, digit16?_eq, isDigit16, isDigit16]
  cases hexValue? y with
  | none => cases hexValue? x <;> simp
  | some low =>
    cases hexValue? x with
    | some high => simp
    | none =>
      by_cases hplus : x = ' ' ∨ x = '+'
      · simp [hplus]
        tauto
      · by_cases hminus : x = '-'
        · simp [hminus]
        · simp [hplus, hminus]

theorem pairBytes?_digits {text : List Char} (heven : text.length % 2 = 0) (h : ∀ c ∈ text, isDigit16 c) :
    Dos.pairBytes? text = some (fromHex (text.filterMap hexValue?)) := by
  fun_induction Dos.pairBytes? text with
  | case1 x y text ih =>
    obtain ⟨high, hx⟩ := Option.isSome_iff_exists.mp (h x (by simp))
    obtain ⟨low, hy⟩ := Option.isSome_iff_exists.mp (h y (by simp))
    have hpair : Dos.pairByte? x y = some (UInt8.ofNat (16 * high + low)) := by
      simp only [Dos.pairByte?, digit16?_eq, hx, hy]
    have hrest := ih (by simp at heven; omega) fun c hc => h c (by simp [hc])
    simp [hpair, hrest, hx, hy, fromHex]
  | case2 text hshort =>
    rcases text with _ | ⟨x, _ | ⟨y, text⟩⟩
    · rfl
    · simp at heven
    · exact absurd rfl (hshort x y text)

theorem pairBytes?_isSome (text : List Char) : (Dos.pairBytes? text).isSome ↔ PairsRead text := by
  fun_induction Dos.pairBytes? text with
  | case1 x y text ih =>
    rw [PairsRead, ← ih, ← and_assoc, ← pairByte?_isSome]
    cases Dos.pairByte? x y <;> cases Dos.pairBytes? text <;> simp
  | case2 text hshort =>
    match text, hshort with
    | [], _ => simp [PairsRead]
    | [_], _ => simp [PairsRead]
    | x :: y :: text, hshort => exact absurd rfl (hshort x y text)

theorem pairBytes?_zero {text : List Char} {bs : Bytes} (heven : text.length % 2 = 0) (h : Dos.pairBytes? text = some bs) :
    (∀ b ∈ bs, b = 0) ↔ ∀ c ∈ text, isDigit16 c → c = '0' := by
  fun_induction Dos.pairBytes? text generalizing bs with
  | case1 x y text ih =>
    cases hpair : Dos.pairByte? x y with
    | none => simp [hpair] at h
    | some b =>
      cases hrest : Dos.pairBytes? text with
      | none => simp [hrest, hpair] at h
      | some rest =>
        simp [hrest, hpair] at h
        subst h
        have hzero := pairByte?_zero hpair
        have hrest' := ih (by simp at heven; omega) hrest
        simp only [List.forall_mem_cons, hzero, hrest', and_assoc]
  | case2 text hshort =>
    match text, hshort with
    | [], _ =>
      cases h
      simp
    | [_], _ => simp at heven
    | x :: y :: text, hshort => exact absurd rfl (hshort x y text)

theorem Printable.plain {s : String} (h : Printable s) : Dos.Plain s.toList := by
  intro c hc hspace
  rcases of_decide_eq_true hspace with rfl | ⟨-, hr⟩
  · rfl
  · have hlow : 0x20 ≤ c.toNat := UInt32.le_iff_toNat_le.mp (Char.le_def.mp (h c hc).1)
    have hhigh : c.toNat ≤ 0x0D := UInt32.le_iff_toNat_le.mp (Char.le_def.mp hr)
    omega

theorem Dos.Plain.drop {text : List Char} (h : Dos.Plain text) (n : Nat) : Dos.Plain (text.drop n) :=
  fun c hc => h c (List.mem_of_mem_drop hc)

theorem filterMap_digits {text : List Char} :
    (text.filterMap hexValue?).length = text.length ↔ ∀ c ∈ text, isDigit16 c := by
  have hle := List.length_filterMap_le hexValue? text
  have hlt : (text.filterMap hexValue?).length < text.length ↔ ∃ c ∈ text, hexValue? c = none :=
    List.length_filterMap_lt_length_iff_exists.trans (by simp)
  constructor
  · intro heq c hc
    by_contra hd
    have := hlt.mpr ⟨c, hc, by simpa [isDigit16] using hd⟩
    omega
  · intro h
    have hnot : ¬ (text.filterMap hexValue?).length < text.length := by
      rw [hlt]
      rintro ⟨c, hc, hnone⟩
      simpa [isDigit16, hnone] using h c hc
    omega

/-- The two peers read 32 digits the same way. -/
theorem rawKey_digits {text : List Char} (hlength : text.length = 32) (hplain : Dos.Plain text)
    (h : ∀ c ∈ text, isDigit16 c) : SameKey (parseKey (String.ofList text)) (Dos.parseRawKey text) := by
  have hdigits : (text.filterMap hexValue?).length = 32 := by rw [filterMap_digits.mpr h, hlength]
  have hzero : (fromHex (text.filterMap hexValue?)).foldl (· ||| ·) 0 = 0 ↔
      (fromHex (text.filterMap hexValue?)).all (· = 0) := by
    rw [Dos.foldl_or_eq_zero]
    simp
  rw [Dos.parseRawKey_eq hlength hplain, pairBytes?_digits (by omega) h, Option.bind_some, parseKey]
  simp only [String.toList_ofList, hlength, hdigits, and_self, dif_pos, ne_eq, hzero]
  by_cases hall : (fromHex (text.filterMap hexValue?)).all (· = 0)
  · simp [hall, SameKey]
  · simp only [hall]
    rfl

/-- `parse_key` refuses every other text. -/
theorem parseKey_refuses {text : List Char} (h : text.length = 32 → ∃ c ∈ text, ¬ isDigit16 c) :
    parseKey (String.ofList text) = .error invalidKey := by
  rw [parseKey]
  simp only [String.toList_ofList]
  apply dif_neg
  rintro ⟨hlength, hdigits⟩
  obtain ⟨c, hc, hd⟩ := h hlength
  exact hd (filterMap_digits.mp (hdigits.trans hlength.symm) c hc)

theorem parseRawKey_isSome {text : List Char} (hplain : Dos.Plain text) : (Dos.parseRawKey text).isSome ↔
    text.length = 32 ∧ PairsRead text ∧ ∃ c ∈ text, isDigit16 c ∧ c ≠ '0' := by
  by_cases hlength : text.length = 32
  · rw [Dos.parseRawKey_eq hlength hplain, ← pairBytes?_isSome]
    cases hpairs : Dos.pairBytes? text with
    | none => simp
    | some bs =>
      have hzero := pairBytes?_zero (by omega) hpairs
      have hfold := Dos.foldl_or_eq_zero bs 0
      rw [Option.bind_some]
      by_cases hany : bs.foldl (· ||| ·) 0 = 0
      · have hall := hzero.mp (hfold.mp hany).2
        simpa [hany, hlength] using hall
      · have hex : ¬ ∀ c ∈ text, isDigit16 c → c = '0' := fun hall => hany (hfold.mpr ⟨rfl, hzero.mpr hall⟩)
        simpa [hany, hlength] using hex
  · simp [Dos.parseRawKey, hlength]

/-! ## Agreement -/

theorem sameKey_error {e : Exc} {dos : Option Bytes} : SameKey (.error e) dos ↔ ¬ dos.isSome := by
  cases dos <;> simp [SameKey]

/-- A text after `key:` is taken alike unless `strtoul` reads one that is not hexadecimal. -/
theorem rawKey_same_iff {text : List Char} (hplain : Dos.Plain text) :
    SameKey (parseKey (String.ofList text)) (Dos.parseRawKey text) ↔
      ¬ (text.length = 32 ∧ PairsRead text ∧ (∃ c ∈ text, ¬ isDigit16 c) ∧ ∃ c ∈ text, isDigit16 c ∧ c ≠ '0') := by
  by_cases hdigits : text.length = 32 ∧ ∀ c ∈ text, isDigit16 c
  · have hnone : ¬ ∃ c ∈ text, ¬ isDigit16 c := by
      rintro ⟨c, hc, hd⟩
      exact hd (hdigits.2 c hc)
    constructor
    · rintro - ⟨-, -, hex, -⟩
      exact hnone hex
    · intro _
      exact rawKey_digits hdigits.1 hplain hdigits.2
  · have hex : text.length = 32 → ∃ c ∈ text, ¬ isDigit16 c := by
      intro hlength
      by_contra hall
      push Not at hall
      exact hdigits ⟨hlength, hall⟩
    rw [parseKey_refuses hex, sameKey_error, parseRawKey_isSome hplain]
    constructor
    · rintro h ⟨hlength, hread, -, hdigit⟩
      exact h ⟨hlength, hread, hdigit⟩
    · rintro h ⟨hlength, hread, hdigit⟩
      exact h ⟨hlength, hread, hex hlength, hdigit⟩

theorem toList_eq_dash {s : String} : s.toList = ['-'] ↔ s = "-" := by
  rw [← String.toList_inj]
  rfl

/-- Both peers select open mode for `-`. -/
theorem agrees_iff_sameKey (h : Host) (s : String) : Agrees h s ↔
    SameKey (Crypto.credentialKey h (some s)) ((Dos.parseCredential (some s.toList)).map (·.1)) := by
  constructor
  · exact And.left
  · intro hkey
    refine ⟨hkey, ?_, by simp [Crypto.selectsOpenMode]⟩
    intro output openMode hparse
    rw [← toList_eq_dash]
    unfold Dos.parseCredential at hparse
    simp only at hparse
    split at hparse
    · cases hparse
      simp [*]
    · rename_i hdash
      have hclosed : openMode = false := by
        split at hparse
        · obtain ⟨_, -, heq⟩ := Option.map_eq_some_iff.mp hparse
          exact (congrArg Prod.snd heq).symm
        · split at hparse
          · split at hparse
            · cases hparse
            · exact (congrArg Prod.snd (Option.some.inj hparse)).symm
          · split at hparse
            · cases hparse
            · split at hparse
              · obtain ⟨_, -, heq⟩ := Option.map_eq_some_iff.mp hparse
                exact (congrArg Prod.snd heq).symm
              · exact (congrArg Prod.snd (Option.some.inj hparse)).symm
      simp [hclosed, hdash]

/-- A text that starts like no number is not a bare key. -/
theorem not_bareMisread {s : String} {c : Char} {text : List Char} (hs : s.toList = c :: text)
    (hc : ¬ (Crypto.isBlank c ∨ c = '+' ∨ c = '-' ∨ isDigit16 c)) : ¬ BareMisread s := by
  rintro ⟨-, hreads, -⟩
  simp only [not_or] at hc
  exact Crypto.not_readsBase16 hs hc.1 hc.2.1 hc.2.2.1 hc.2.2.2 hreads

theorem exists_of_isPrefixOf {p t : List Char} (h : p.isPrefixOf t) : t = p ++ t.drop p.length := by
  obtain ⟨rest, rfl⟩ := List.isPrefixOf_iff_prefix.mp h
  simp

theorem printable_drop {s : String} (h : Printable s) (n : Nat) : Printable (String.ofList (s.toList.drop n)) := by
  intro c hc
  rw [String.toList_ofList] at hc
  exact h c (List.mem_of_mem_drop hc)

theorem agrees_key {h : Host} {s : String} (hs : Printable s) (hkey : "key:".toList.isPrefixOf s.toList) :
    Agrees h s ↔ ¬ (BareMisread s ∨ KeyMisread s) := by
  have ht := exists_of_isPrefixOf hkey
  have hbare : ¬ BareMisread s := not_bareMisread ht (by decide)
  have hdash : s ≠ "-" := by
    rintro rfl
    exact absurd hkey (by decide)
  have hdash' : s.toList ≠ ['-'] := fun h => hdash (toList_eq_dash.mp h)
  rw [agrees_iff_sameKey, Crypto.credentialKey, Dos.parseCredential]
  simp only [Crypto.selectsOpenMode, hdash, hdash', hkey, Option.getD_some, reduceCtorEq, Option.some.injEq, or_self,
    decide_false, Bool.false_eq_true, if_false, if_true, Option.map_map, KeyMisread, hbare, false_or, true_and]
  rw [← rawKey_same_iff (hs.plain.drop 4)]
  cases Dos.parseRawKey (s.toList.drop 4) <;> rfl

theorem agrees_pass {h : Host} (hsha : ∀ data, h.sha256 data = Sha256.sha256 data) {s : String} (hs : Printable s)
    (hlength : s.toList.length < 2 ^ 16) (hpass : "pass:".toList.isPrefixOf s.toList) :
    Agrees h s ∧ ¬ (BareMisread s ∨ KeyMisread s) := by
  have ht := exists_of_isPrefixOf hpass
  have hbare : ¬ BareMisread s := not_bareMisread ht (by decide)
  have hkey : "key:".toList.isPrefixOf s.toList = false := by
    rw [ht]
    rfl
  have hdash : s ≠ "-" := by
    rintro rfl
    exact absurd hpass (by decide)
  have hdash' : s.toList ≠ ['-'] := fun h => hdash (toList_eq_dash.mp h)
  have hraw : ¬ KeyMisread s := fun hmis => absurd (hkey.symm.trans hmis.1) (by decide)
  refine ⟨?_, by simp [hbare, hraw]⟩
  rw [agrees_iff_sameKey, Crypto.credentialKey, Dos.parseCredential]
  simp only [Crypto.selectsOpenMode, hdash, hdash', hkey, hpass, Option.getD_some, reduceCtorEq, Option.some.injEq, or_self,
    decide_false, Bool.false_eq_true, if_false, if_true]
  by_cases hempty : s.toList.drop 5 = []
  · rw [hempty, if_pos rfl, derivePasswordKey, if_pos String.ofList_nil]
    trivial
  · have hne : String.ofList (s.toList.drop 5) ≠ "" := by
      rw [Ne, ← String.toList_inj, String.toList_ofList]
      exact hempty
    have := derivePasswordKey_same hsha hne (printable_drop hs 5) (by rw [String.toList_ofList, List.length_drop]; omega)
    rw [if_neg hempty]
    rwa [String.toList_ofList] at this

theorem agrees_bare {h : Host} (hsha : ∀ data, h.sha256 data = Sha256.sha256 data) {s : String} (hs : Printable s)
    (hlength : s.toList.length < 2 ^ 16) (hdash : s ≠ "-") (hkey : "key:".toList.isPrefixOf s.toList = false)
    (hpass : "pass:".toList.isPrefixOf s.toList = false) : Agrees h s ↔ ¬ (BareMisread s ∨ KeyMisread s) := by
  have hdash' : s.toList ≠ ['-'] := fun h => hdash (toList_eq_dash.mp h)
  have hraw : ¬ KeyMisread s := fun hmis => absurd (hkey.symm.trans hmis.1) (by decide)
  rw [agrees_iff_sameKey, Crypto.credentialKey, Dos.parseCredential]
  simp only [Crypto.selectsOpenMode, hdash, hdash', hkey, hpass, Option.getD_some, reduceCtorEq, Option.some.injEq, or_self,
    decide_false, Bool.false_eq_true, if_false, hraw, or_false]
  by_cases hempty : s.toList = []
  · have hs' : s = "" := String.toList_inj.mp hempty
    subst hs'
    simp [derivePasswordKey, SameKey, BareMisread]
  have hne : s ≠ "" := fun h => hempty (congrArg String.toList h)
  rw [if_neg hempty]
  by_cases hnumber : s.toList.length = 32 ∧ Crypto.readsBase16 s
  · rw [if_pos hnumber]
    by_cases hdigits : ∀ c ∈ s.toList, isDigit16 c
    · have hhex : Dos.isHexKey s.toList := (Dos.isHexKey_iff _).mpr ⟨hnumber.1, hdigits⟩
      have hsame := rawKey_digits hnumber.1 hs.plain hdigits
      rw [String.ofList_toList] at hsame
      have hbare : ¬ BareMisread s := by
        rintro ⟨-, -, c, hc, hd⟩
        exact hd (hdigits c hc)
      simp only [hhex, if_true, Option.map_map, hbare, not_false_eq_true, iff_true]
      cases hraw : Dos.parseRawKey s.toList <;> simpa [hraw] using hsame
    · have hhex : ¬ Dos.isHexKey s.toList := fun h => hdigits ((Dos.isHexKey_iff _).mp h).2
      push Not at hdigits
      have hrefuse := parseKey_refuses fun _ => hdigits
      rw [String.ofList_toList] at hrefuse
      have hbare : BareMisread s := ⟨hnumber.1, hnumber.2, hdigits⟩
      rw [if_neg hhex, hrefuse]
      simp [hbare, SameKey]
  · have hhex : ¬ Dos.isHexKey s.toList := by
      intro h
      obtain ⟨h32, hdigits⟩ := (Dos.isHexKey_iff _).mp h
      exact hnumber ⟨h32, Crypto.readsBase16_digits hempty hdigits⟩
    have hbare : ¬ BareMisread s := fun h => hnumber ⟨h.1, h.2.1⟩
    rw [if_neg hnumber, if_neg hhex]
    simpa [hbare] using derivePasswordKey_same hsha hne hs hlength

/-- The two peers mean the same by a credential exactly when it is not one of the two kinds
    that the number parsers take differently. -/
theorem credentials_agree_iff (h : Host) (hsha : ∀ data, h.sha256 data = Sha256.sha256 data) (s : String)
    (hs : Printable s) (hlength : s.toList.length < 2 ^ 16) :
    Agrees h s ↔ ¬ (BareMisread s ∨ KeyMisread s) := by
  by_cases hdash : s = "-"
  · subst hdash
    have hbare : ¬ BareMisread "-" := fun hmis => absurd hmis.1 (by decide)
    have hraw : ¬ KeyMisread "-" := fun hmis => absurd hmis.1 (by decide)
    have hopen : Agrees h "-" := (agrees_iff_sameKey h "-").mpr (openModeKey_bytes hsha).symm
    simp [hopen, hbare, hraw]
  cases hkey : "key:".toList.isPrefixOf s.toList with
  | true => exact agrees_key hs hkey
  | false =>
    cases hpass : "pass:".toList.isPrefixOf s.toList with
    | true =>
      obtain ⟨hagrees, hread⟩ := agrees_pass hsha hs hlength hpass
      exact iff_of_true hagrees hread
    | false => exact agrees_bare hsha hs hlength hdash hkey hpass

/-- A host whose `hashlib.sha256` is SHA-256. -/
def hashingHost : Host :=
  { hostWith "DOS_MCP_TARGET" "" with sha256 := Sha256.sha256, sha256_length := Sha256.sha256_length }

theorem password_agrees : Agrees hashingHost "correct horse battery staple" ↔
    ¬ (BareMisread "correct horse battery staple" ∨ KeyMisread "correct horse battery staple") :=
  credentials_agree_iff hashingHost (fun _ => rfl) _ (by decide) (by decide)

/-- The Python host refuses a prefixed number that the DOS peer takes as a password, and the
    DOS peer takes a signed pair in a raw key that the Python host refuses. -/
theorem credentials_disagree :
    (Printable "0x00112233445566778899AABBCCDDEE" ∧ ¬ Agrees hashingHost "0x00112233445566778899AABBCCDDEE") ∧
      Printable "key:+0112233445566778899AABBCCDDEEFF" ∧ ¬ Agrees hashingHost "key:+0112233445566778899AABBCCDDEEFF" := by
  refine ⟨⟨by decide, ?_⟩, by decide, ?_⟩
  · rw [agrees_bare (fun _ => rfl) (by decide) (by decide) (by decide) (by decide) (by decide)]
    exact not_not_intro (Or.inl (by decide))
  · rw [agrees_key (by decide) (by decide)]
    exact not_not_intro (Or.inr (by decide))

end DosMcp
