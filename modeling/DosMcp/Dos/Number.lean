/-
  DosMcp.Dos.Number — `strtoul` for base 10 and for base 0, where the text names its base.

  `Literal` is what a constant of C looks like; `strtoul_literal` says that `strtoul` reads
  one to its end, and `strtoul_reads` that it reads nothing else.
-/

import DosMcp.Dos.Credential
import Mathlib.Data.List.TakeWhile

namespace DosMcp.Dos

open Lib

/-! ## Digits -/

def isDigit (c : Char) : Bool := '0' ≤ c ∧ c ≤ '9'

/-- A digit of `base`. -/
def digit? (base : Nat) (c : Char) : Option Nat := (digit16? c).filter (· < base)

/-- The number that digits of `base` stand for. -/
def numeral (base : Nat) (digits : List Char) : Nat := digits.foldl (fun n c => base * n + (digit16? c).getD 0) 0

structure Numeral (base : Nat) (digits : List Char) (n : Nat) : Prop where
  ne_nil : digits ≠ []
  digit : ∀ c ∈ digits, (digit? base c).isSome
  value : numeral base digits = n

/-- A constant of C: `0x` and hexadecimal digits, `0` and octal ones, or decimal ones. -/
def Literal (text : List Char) (n : Nat) : Prop :=
  (∃ x digits, text = '0' :: x :: digits ∧ (x = 'x' ∨ x = 'X') ∧ Numeral 16 digits n) ∨
    (text.head? = some '0' ∧ Numeral 8 text n) ∨ (text.head? ≠ some '0' ∧ Numeral 10 text n)

/-! ## `strtoul` -/

/-- The digits of `base` at the front, after `value`, and what follows them. -/
def readNumber (base value : Nat) : List Char → Nat × List Char
  | [] => (value, [])
  | c :: text => match digit? base c with
    | some d => readNumber base (base * value + d) text
    | none => (value, c :: text)

/-- The base that a text is read in when none is given, and its digits. -/
def literalBase : List Char → Nat × List Char
  | '0' :: x :: c :: text => if (x = 'x' ∨ x = 'X') ∧ (digit16? c).isSome then (16, c :: text) else (8, '0' :: x :: c :: text)
  | '0' :: text => (8, '0' :: text)
  | text => (10, text)

/-- `strtoul(text, &end, base)` for `base` 10 or 0 and the text at `end`. -/
def strtoul (base : Nat) (text : List Char) : UInt32 × List Char :=
  let (negative, digits) := readSign (text.dropWhile isSpace)
  let (base, digits) := if base = 0 then literalBase digits else (base, digits)
  match digits with
  | [] => (0, text)
  | c :: rest =>
    if (digit? base c).isNone then (0, text)
    else
      let (value, tail) := readNumber base 0 (c :: rest)
      (toULong negative value, tail)

/-! ## What is read -/

theorem digit?_some {base d : Nat} {c : Char} (h : digit? base c = some d) : digit16? c = some d ∧ d < base := by
  rw [digit?, Option.filter_eq_some_iff] at h
  exact ⟨h.1, of_decide_eq_true h.2⟩

theorem digit_toNat {c : Char} {d : Nat} (h : digit16? c = some d) :
    (0x30 ≤ c.toNat ∧ c.toNat ≤ 0x39 ∧ d = c.toNat - 0x30) ∨ (0x61 ≤ c.toNat ∧ c.toNat ≤ 0x66 ∧ 10 ≤ d) ∨
      (0x41 ≤ c.toNat ∧ c.toNat ≤ 0x46 ∧ 10 ≤ d) := by
  have hle : ∀ {a b : Char}, a ≤ b → a.toNat ≤ b.toNat := fun h => UInt32.le_iff_toNat_le.mp (Char.le_def.mp h)
  unfold digit16? at h
  split at h
  · rename_i hc
    cases h
    exact Or.inl ⟨hle hc.1, hle hc.2, rfl⟩
  · split at h
    · rename_i hc
      cases h
      exact Or.inr (Or.inl ⟨hle hc.1, hle hc.2, by omega⟩)
    · split at h
      · rename_i hc
        cases h
        exact Or.inr (Or.inr ⟨hle hc.1, hle hc.2, by omega⟩)
      · cases h

/-- A digit is no blank, no sign and no mark of the base. -/
theorem digit_plain {base : Nat} {c : Char} (h : (digit? base c).isSome) :
    isSpace c = false ∧ c ≠ '-' ∧ c ≠ '+' ∧ c ≠ '.' ∧ c ≠ '#' ∧ c ≠ 'x' ∧ c ≠ 'X' := by
  obtain ⟨d, hd⟩ := Option.isSome_iff_exists.mp h
  have hrange := digit_toNat (digit?_some hd).1
  have hne : ∀ e : Char, (digit16? e = none) → c ≠ e := by
    rintro e he rfl
    rw [(digit?_some hd).1] at he
    cases he
  refine ⟨?_, hne _ (by decide), hne _ (by decide), hne _ (by decide), hne _ (by decide), hne _ (by decide), hne _ (by decide)⟩
  rw [isSpace, decide_eq_false_iff_not]
  rintro (rfl | ⟨-, hle⟩)
  · have hspace : ' '.toNat = 0x20 := rfl
    omega
  · have hcr : c.toNat ≤ 0x0D := UInt32.le_iff_toNat_le.mp (Char.le_def.mp hle)
    omega

theorem isDigit_iff (c : Char) : (digit? 10 c).isSome ↔ isDigit c := by
  constructor
  · intro h
    obtain ⟨d, hd⟩ := Option.isSome_iff_exists.mp h
    have hrange := digit_toNat (digit?_some hd).1
    have hlt := (digit?_some hd).2
    rw [isDigit, decide_eq_true_eq]
    have hle : ∀ {a b : Char}, a.toNat ≤ b.toNat → a ≤ b := fun h => Char.le_def.mpr (UInt32.le_iff_toNat_le.mpr h)
    exact ⟨hle (by show 0x30 ≤ c.toNat; omega), hle (by show c.toNat ≤ 0x39; omega)⟩
  · intro h
    rw [isDigit, decide_eq_true_eq] at h
    have h9 : c.toNat ≤ 0x39 := UInt32.le_iff_toNat_le.mp (Char.le_def.mp h.2)
    rw [digit?, digit16?, if_pos h, Option.filter_some, if_pos (by rw [decide_eq_true_eq]; omega)]
    rfl

/-- No digit of `base` is left at the front. -/
def Stops (base : Nat) (text : List Char) : Prop := ∀ c, text.head? = some c → digit? base c = none

theorem readNumber_append {base : Nat} {digits tail : List Char} (hdigits : ∀ c ∈ digits, (digit? base c).isSome)
    (htail : Stops base tail) (value : Nat) :
    readNumber base value (digits ++ tail) = (digits.foldl (fun n c => base * n + (digit16? c).getD 0) value, tail) := by
  induction digits generalizing value with
  | nil =>
    cases tail with
    | nil => rfl
    | cons c tail => simp [readNumber, htail c rfl]
  | cons c digits ih =>
    obtain ⟨d, hd⟩ := Option.isSome_iff_exists.mp (hdigits c List.mem_cons_self)
    have hvalue : (digit16? c).getD 0 = d := by rw [(digit?_some hd).1, Option.getD_some]
    rw [List.cons_append, readNumber, hd, List.foldl_cons, hvalue]
    exact ih (fun c hc => hdigits c (List.mem_cons_of_mem _ hc)) _

theorem digits_split (base : Nat) (text : List Char) :
    ∃ digits tail, text = digits ++ tail ∧ (∀ c ∈ digits, (digit? base c).isSome) ∧ Stops base tail := by
  let isDigit := fun c => (digit? base c).isSome
  refine ⟨text.takeWhile isDigit, text.dropWhile isDigit, List.takeWhile_append_dropWhile.symm,
    fun c hc => List.mem_takeWhile_imp (p := isDigit) hc, fun c hc => ?_⟩
  have hhead := List.head?_dropWhile_not isDigit text
  rw [hc] at hhead
  simpa [isDigit] using hhead

/-- `strtoul` after a sign and the choice of the base. -/
theorem strtoul_eq {base b : Nat} {text ds digits tail : List Char} {negative : Bool}
    (hsign : readSign (text.dropWhile isSpace) = (negative, ds))
    (hbase : (if base = 0 then literalBase ds else (base, ds)) = (b, digits ++ tail))
    (hdigits : ∀ c ∈ digits, (digit? b c).isSome) (htail : Stops b tail) :
    strtoul base text = if digits = [] then (0, text) else (toULong negative (numeral b digits), tail) := by
  rw [strtoul, hsign]
  dsimp only
  rw [hbase]
  cases digits with
  | nil =>
    cases tail with
    | nil => rfl
    | cons c tail => simp [htail c rfl]
  | cons c digits =>
    have hc := hdigits c List.mem_cons_self
    rw [if_neg (List.cons_ne_nil c digits)]
    simp only [List.cons_append]
    rw [if_neg (by simpa [Option.isSome_iff_ne_none] using hc), ← List.cons_append, readNumber_append hdigits htail]
    rfl

theorem readSign_cases (text : List Char) (h : text.head? ≠ some '-') :
    ∃ sign ds, text = sign ++ ds ∧ (sign = [] ∨ sign = ['+']) ∧ readSign text = (false, ds) := by
  cases text with
  | nil => exact ⟨[], [], rfl, Or.inl rfl, rfl⟩
  | cons c text =>
    by_cases hplus : c = '+'
    · exact ⟨['+'], text, by rw [hplus]; rfl, Or.inr rfl, by rw [hplus]; rfl⟩
    · have hminus : c ≠ '-' := by simpa using h
      exact ⟨[], c :: text, rfl, Or.inl rfl, readSign_of_ne hminus hplus text⟩

theorem dropWhile_isSpace {text : List Char} (h : ∀ c, text.head? = some c → isSpace c = false) :
    text.dropWhile isSpace = text := by
  cases text with
  | nil => rfl
  | cons c text => rw [List.dropWhile_cons_of_neg (by simp [h c rfl])]

/-- The base of `ds` is `b`, and digits of it at the front of `rest` make a constant with what
    stands before `rest`. -/
def BaseOf (ds : List Char) (b : Nat) (rest : List Char) : Prop :=
  literalBase ds = (b, rest) ∧ ∃ marker, ds = marker ++ rest ∧
    ∀ digits tail, rest = digits ++ tail → digits ≠ [] → (∀ c ∈ digits, (digit? b c).isSome) →
      Literal (marker ++ digits) (numeral b digits)

theorem baseOf_decimal {ds : List Char} (hhead : ds.head? ≠ some '0') : BaseOf ds 10 ds := by
  have e : literalBase ds = (10, ds) := by
    unfold literalBase
    split <;> simp_all
  refine ⟨e, [], rfl, fun digits tail hsplit hne hdigits => Or.inr (Or.inr ⟨?_, hne, hdigits, rfl⟩)⟩
  obtain ⟨c, digits, rfl⟩ := List.exists_cons_of_ne_nil hne
  simpa [hsplit] using hhead

theorem baseOf_octal {ds : List Char} (e : literalBase ('0' :: ds) = (8, '0' :: ds)) : BaseOf ('0' :: ds) 8 ('0' :: ds) := by
  refine ⟨e, [], rfl, fun digits tail hsplit hne hdigits => Or.inr (Or.inl ⟨?_, hne, hdigits, rfl⟩)⟩
  obtain ⟨c, digits, rfl⟩ := List.exists_cons_of_ne_nil hne
  rw [List.cons_append, List.cons.injEq] at hsplit
  simp [← hsplit.1]

theorem baseOf_hex {x c : Char} {ds : List Char} (h : (x = 'x' ∨ x = 'X') ∧ (digit16? c).isSome) :
    BaseOf ('0' :: x :: c :: ds) 16 (c :: ds) :=
  ⟨by rw [literalBase, if_pos h], ['0', x], rfl, fun digits _ _ hne hdigits => Or.inl ⟨x, digits, rfl, h.1, hne, hdigits, rfl⟩⟩

theorem exists_baseOf (ds : List Char) : ∃ b rest, BaseOf ds b rest := by
  by_cases hhead : ds.head? = some '0'
  · obtain ⟨ds, rfl⟩ : ∃ rest, ds = '0' :: rest := List.head?_eq_some_iff.mp hhead
    match ds with
    | [] => exact ⟨_, _, baseOf_octal rfl⟩
    | [x] => exact ⟨_, _, baseOf_octal rfl⟩
    | x :: c :: ds =>
      by_cases hhex : (x = 'x' ∨ x = 'X') ∧ (digit16? c).isSome
      · exact ⟨_, _, baseOf_hex hhex⟩
      · exact ⟨_, _, baseOf_octal (by rw [literalBase, if_neg hhex])⟩
  · exact ⟨_, _, baseOf_decimal hhead⟩

/-- A text that does not start with a blank or a minus: what `strtoul` reads of it is a
    constant of C, with a plus or without. -/
theorem strtoul_reads {text tail : List Char} {value : UInt32} (hblank : ∀ c, text.head? = some c → isSpace c = false)
    (hminus : text.head? ≠ some '-') (h : strtoul 0 text = (value, tail)) (hread : tail ≠ text) :
    ∃ sign literal n, text = sign ++ literal ++ tail ∧ (sign = [] ∨ sign = ['+']) ∧ Literal literal n ∧ value = toULong false n := by
  obtain ⟨sign, ds, htext, hplus, hsign⟩ := readSign_cases text hminus
  obtain ⟨b, rest, hbase, marker, hds, hliteral⟩ := exists_baseOf ds
  obtain ⟨digits, after, hrest, hdigits, hafter⟩ := digits_split b rest
  have hchosen : (if 0 = 0 then literalBase ds else (0, ds)) = (b, digits ++ after) := by rw [if_pos rfl, hbase, hrest]
  rw [strtoul_eq (by rw [dropWhile_isSpace hblank, hsign]) hchosen hdigits hafter] at h
  split at h
  · cases h
    exact absurd rfl hread
  · rename_i hne
    cases h
    refine ⟨sign, marker ++ digits, numeral b digits, ?_, hplus, hliteral digits tail hrest hne hdigits, rfl⟩
    rw [htext, hds, hrest]
    simp

theorem literalBase_octal {text : List Char} (hhead : text.head? ≠ some 'x' ∧ text.head? ≠ some 'X') :
    literalBase ('0' :: text) = (8, '0' :: text) := by
  match text with
  | [] => rfl
  | [c] => rfl
  | c :: d :: text =>
    rw [literalBase, if_neg]
    rintro ⟨rfl | rfl, -⟩
    · exact hhead.1 rfl
    · exact hhead.2 rfl

/-- The base of a constant and its digits. -/
theorem literal_digits {literal tail : List Char} {n : Nat} (h : Literal literal n)
    (hmark : tail.head? ≠ some 'x' ∧ tail.head? ≠ some 'X') :
    ∃ base digits, literalBase (literal ++ tail) = (base, digits ++ tail) ∧ Numeral base digits n := by
  rcases h with ⟨x, digits, rfl, hx, hnumeral⟩ | ⟨hzero, hnumeral⟩ | ⟨hzero, hnumeral⟩
  · obtain ⟨c, digits, rfl⟩ := List.exists_cons_of_ne_nil hnumeral.ne_nil
    refine ⟨16, c :: digits, ?_, hnumeral⟩
    obtain ⟨d, hd⟩ := Option.isSome_iff_exists.mp (hnumeral.digit c List.mem_cons_self)
    have hhex : (digit16? c).isSome := by rw [(digit?_some hd).1]; rfl
    rw [List.cons_append, List.cons_append, List.cons_append, literalBase, if_pos ⟨hx, hhex⟩]
  · refine ⟨8, literal, ?_, hnumeral⟩
    obtain ⟨digits, rfl⟩ := List.head?_eq_some_iff.mp hzero
    rw [List.cons_append]
    apply literalBase_octal
    cases digits with
    | nil => exact hmark
    | cons c digits =>
      have hplain := digit_plain (hnumeral.digit c (by simp))
      simp only [List.cons_append, List.head?_cons, ne_eq, Option.some.injEq]
      exact ⟨hplain.2.2.2.2.2.1, hplain.2.2.2.2.2.2⟩
  · refine ⟨10, literal, (baseOf_decimal ?_).1, hnumeral⟩
    obtain ⟨c, digits, rfl⟩ := List.exists_cons_of_ne_nil hnumeral.ne_nil
    exact hzero

theorem Literal.starts {literal : List Char} {n : Nat} (h : Literal literal n) :
    ∃ c rest, literal = c :: rest ∧ (digit? 10 c).isSome := by
  rcases h with ⟨x, digits, rfl, -, -⟩ | ⟨hzero, -⟩ | ⟨-, hnumeral⟩
  · exact ⟨'0', _, rfl, rfl⟩
  · obtain ⟨digits, rfl⟩ := List.head?_eq_some_iff.mp hzero
    exact ⟨'0', digits, rfl, rfl⟩
  · obtain ⟨c, digits, rfl⟩ := List.exists_cons_of_ne_nil hnumeral.ne_nil
    exact ⟨c, digits, rfl, hnumeral.digit c List.mem_cons_self⟩

theorem strtoul_literal {sign literal tail : List Char} {n : Nat} (hsign : sign = [] ∨ sign = ['+']) (h : Literal literal n)
    (hstops : ∀ base, Stops base tail) (hmark : tail.head? ≠ some 'x' ∧ tail.head? ≠ some 'X') :
    strtoul 0 (sign ++ literal ++ tail) = (toULong false n, tail) := by
  obtain ⟨base, digits, hbase, hne, hdigits, hvalue⟩ := literal_digits h hmark
  obtain ⟨c, rest, rfl, hc⟩ := h.starts
  obtain ⟨hblank, hminus, hplus, -⟩ := digit_plain hc
  have hread : readSign ((sign ++ (c :: rest) ++ tail).dropWhile isSpace) = (false, c :: rest ++ tail) := by
    rcases hsign with rfl | rfl
    · rw [List.nil_append, List.cons_append, List.dropWhile_cons_of_neg (by simp [hblank]), readSign_of_ne hminus hplus]
    · rfl
  have hchosen : (if 0 = 0 then literalBase (c :: rest ++ tail) else (0, c :: rest ++ tail)) = (base, digits ++ tail) := by
    rw [if_pos rfl, hbase]
  rw [strtoul_eq hread hchosen hdigits (hstops base), if_neg hne, hvalue]

/-! ## Bytes -/

/-- A value that fits a byte is the value that was read. -/
theorem toULong_byte {n : Nat} (h : ¬ toULong false n > 255) : n ≤ 255 ∧ (toULong false n).toUInt8.toNat = n := by
  rw [toULong] at h ⊢
  split at h
  · exact absurd (by decide) h
  · rename_i hlt
    have hn : n % 2 ^ 32 = n := Nat.mod_eq_of_lt (by omega)
    have hle : (UInt32.ofNat n).toNat ≤ 255 := by
      simpa [UInt32.lt_iff_toNat_lt] using h
    rw [UInt32.toNat_ofNat', hn] at hle
    refine ⟨hle, ?_⟩
    rw [if_neg hlt]
    simp only [Bool.false_eq_true, if_false, UInt32.toNat_toUInt8, UInt32.toNat_ofNat', hn]
    omega

theorem toULong_of_byte (b : UInt8) : ¬ toULong false b.toNat > 255 ∧ (toULong false b.toNat).toUInt8 = b ∧
    (b ≠ 0 → toULong false b.toNat ≠ 0) := by
  have hlt := b.toNat_lt
  rw [toULong, if_neg (by omega)]
  simp only [Bool.false_eq_true, if_false]
  have hvalue : (UInt32.ofNat b.toNat).toNat = b.toNat := by rw [UInt32.toNat_ofNat']; omega
  refine ⟨?_, ?_, ?_⟩
  · rw [gt_iff_lt, UInt32.lt_iff_toNat_lt, hvalue]
    exact Nat.not_lt.mpr (Nat.le_of_lt_succ hlt)
  · apply UInt8.toNat_inj.mp
    rw [UInt32.toNat_toUInt8, hvalue]
    omega
  · intro hne hzero
    apply hne
    apply UInt8.toNat_inj.mp
    rw [← hvalue, hzero]
    rfl

end DosMcp.Dos
