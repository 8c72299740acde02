/-
  DosMcp.Dos.MtcpProofs — what a configuration that `dm_mtcp_config_load` accepts says, in
  terms of the lines of the file: `KeyLine` is a line with a key, `IpText`, `InterruptText` and
  `HostnameText` are the values that are not malformed.

  A line is read on its own (`configLine_cases`), the staged values are those of the last
  lines with their keys (`Stages.run`), and the outputs change when no line is left.
-/

import DosMcp.Dos.MtcpConfig

namespace DosMcp.Dos

open Lib

/-! ## Values -/

def Octet (digits : List Char) (b : UInt8) : Prop := Numeral 10 digits b.toNat

/-- Four decimal numbers with dots between them. -/
def IpText (text : List Char) (ip : Bytes) : Prop :=
  ∃ parts tail, text = ['.'].intercalate parts ++ tail ∧ parts.length = 4 ∧ List.Forall₂ Octet parts ip ∧ finishToken tail

/-- A constant of C from 1 to 255. -/
def InterruptText (text : List Char) (interrupt : UInt8) : Prop :=
  ∃ sign literal tail, text = sign ++ literal ++ tail ∧ (sign = [] ∨ sign = ['+']) ∧ Literal literal interrupt.toNat ∧
    interrupt ≠ 0 ∧ finishToken tail

/-- At most 31 visible characters of ASCII. -/
def HostnameText (text name : List Char) : Prop :=
  ∃ tail, text = name ++ tail ∧ name ≠ [] ∧ name.length ≤ 31 ∧ (∀ c ∈ name, 33 ≤ c.toNat ∧ c.toNat ≤ 126 ∧ c ≠ '#') ∧ finishToken tail

/-- What ends a value starts no number. -/
theorem stops_of_finishToken {tail : List Char} (h : finishToken tail) (base : Nat) : Stops base tail := by
  intro c hc
  cases tail with
  | nil => cases hc
  | cons d tail =>
    cases hc
    by_contra hne
    have hdigit := digit_plain (Option.isSome_iff_ne_none.mpr hne)
    simp only [finishToken, decide_eq_true_eq] at h
    rcases h with hspace | hcomment
    · rw [hdigit.1] at hspace
      cases hspace
    · exact hdigit.2.2.2.2.1 hcomment

theorem parseIpPart_reads {value tail : List Char} {b : UInt8} (h : parseIpPart value = some (b, tail)) :
    ∃ digits, value = digits ++ tail ∧ Octet digits b := by
  unfold parseIpPart at h
  split at h
  · cases h
  rename_i hhead
  cases value with
  | nil => simp at hhead
  | cons c value =>
    obtain ⟨hblank, hminus, hplus, -⟩ := digit_plain ((isDigit_iff c).mpr (by simpa using hhead))
    obtain ⟨digits, rest, hsplit, hdigits, hrest⟩ := digits_split 10 (c :: value)
    have hsign : readSign ((c :: value).dropWhile isSpace) = (false, c :: value) := by
      rw [List.dropWhile_cons_of_neg (by simp [hblank]), readSign_of_ne hminus hplus]
    have hbase : (if 10 = 0 then literalBase (c :: value) else (10, c :: value)) = (10, digits ++ rest) := by
      rw [if_neg (by decide), hsplit]
    rw [strtoul_eq hsign hbase hdigits hrest] at h
    by_cases hnil : digits = []
    · rw [if_pos hnil] at h
      simp at h
    · rw [if_neg hnil] at h
      dsimp only at h
      split at h
      · cases h
      · rename_i hrange
        cases h
        exact ⟨digits, hsplit, hnil, hdigits, (toULong_byte (not_or.mp hrange).2).2.symm⟩

theorem parseIpParts_reads {n : Nat} {value tail : List Char} {parts : Bytes} (h : parseIpParts n value = some (parts, tail)) :
    ∃ texts, value = ['.'].intercalate texts ++ tail ∧ texts.length = n ∧ List.Forall₂ Octet texts parts := by
  induction n generalizing value parts with
  | zero =>
    cases h
    exact ⟨[], rfl, rfl, .nil⟩
  | succ n ih =>
    rw [parseIpParts] at h
    cases hpart : parseIpPart value with
    | none =>
      rw [hpart] at h
      cases h
    | some result =>
      obtain ⟨b, rest⟩ := result
      obtain ⟨digits, rfl, hoctet⟩ := parseIpPart_reads hpart
      rw [hpart] at h
      simp only [Option.bind_eq_bind, Option.bind_some] at h
      split at h
      · rename_i hzero
        cases h
        exact ⟨[digits], by simp, by simp [hzero], .cons hoctet .nil⟩
      · rename_i hmore
        split at h
        · rename_i rest
          cases hparts : parseIpParts n rest with
          | none =>
            rw [hparts] at h
            cases h
          | some result =>
            obtain ⟨more, after⟩ := result
            rw [hparts] at h
            cases h
            obtain ⟨texts, rfl, hlength, hall⟩ := ih hparts
            obtain ⟨text, texts, rfl⟩ : ∃ text rest, texts = text :: rest :=
              List.exists_cons_of_ne_nil (by
                rintro rfl
                exact hmore hlength.symm)
            exact ⟨digits :: text :: texts, by simp [List.intercalate_cons_cons], by simpa using hlength, .cons hoctet hall⟩
        · cases h

theorem parseIpPart_octet {digits tail : List Char} {b : UInt8} (h : Octet digits b) (htail : Stops 10 tail) :
    parseIpPart (digits ++ tail) = some (b, tail) := by
  obtain ⟨hne, hdigits, hvalue⟩ := h
  obtain ⟨c, digits, rfl⟩ := List.exists_cons_of_ne_nil hne
  have hc := hdigits c List.mem_cons_self
  obtain ⟨hblank, hminus, hplus, -⟩ := digit_plain hc
  have hsign : readSign ((c :: (digits ++ tail)).dropWhile isSpace) = (false, c :: (digits ++ tail)) := by
    rw [List.dropWhile_cons_of_neg (by simp [hblank]), readSign_of_ne hminus hplus]
  have hbase : (if 10 = 0 then literalBase (c :: (digits ++ tail)) else (10, c :: (digits ++ tail))) = (10, (c :: digits) ++ tail) :=
    if_neg (by decide)
  obtain ⟨hrange, hbyte, -⟩ := toULong_of_byte b
  have hlonger : tail ≠ c :: (digits ++ tail) := by
    intro heq
    have := congrArg List.length heq
    simp only [List.length_cons, List.length_append] at this
    omega
  rw [List.cons_append, parseIpPart, if_neg (by simpa using (isDigit_iff c).mp hc), strtoul_eq hsign hbase hdigits htail,
    if_neg hne, hvalue]
  dsimp only
  rw [if_neg (not_or.mpr ⟨hlonger, hrange⟩), hbyte]

theorem parseIpParts_octets {texts : List (List Char)} {parts : Bytes} {tail : List Char} (h : List.Forall₂ Octet texts parts)
    (htail : Stops 10 tail) : parseIpParts texts.length (['.'].intercalate texts ++ tail) = some (parts, tail) := by
  induction h with
  | nil => rfl
  | @cons digits b texts parts hoctet hrest ih =>
    cases hrest with
    | nil =>
      have hread := parseIpPart_octet hoctet htail
      simp only [List.length_cons, List.length_nil, parseIpParts, List.intercalate_singleton, hread, Option.bind_eq_bind, Option.bind_some,
        if_true]
    | @cons digits' b' texts parts hoctet' hrest =>
      have hdot : Stops 10 ('.' :: (['.'].intercalate (digits' :: texts) ++ tail)) := by
        intro c hc
        cases hc
        decide
      have hread := parseIpPart_octet hoctet hdot
      rw [List.intercalate_cons_cons, List.append_assoc, List.append_assoc, List.length_cons, parseIpParts, List.singleton_append, hread]
      simp only [Option.bind_eq_bind, Option.bind_some]
      rw [if_neg (by simp), ih]
      rfl

theorem parseIpValue_reads {value : List Char} {ip : Bytes} (h : parseIpValue value = some ip) : IpText value ip := by
  rw [parseIpValue] at h
  cases hparts : parseIpParts 4 value with
  | none =>
    rw [hparts] at h
    cases h
  | some result =>
    obtain ⟨parts, tail⟩ := result
    rw [hparts] at h
    simp only [Option.bind_eq_bind, Option.bind_some] at h
    split at h
    · rename_i htail
      cases h
      obtain ⟨texts, hvalue, hlength, hall⟩ := parseIpParts_reads hparts
      exact ⟨texts, tail, hvalue, hlength, hall, htail⟩
    · cases h

theorem parseIpValue_iff {value : List Char} {ip : Bytes} : parseIpValue value = some ip ↔ IpText value ip := by
  refine ⟨parseIpValue_reads, ?_⟩
  rintro ⟨texts, tail, rfl, hlength, hall, hend⟩
  have hread := parseIpParts_octets hall (stops_of_finishToken hend 10)
  rw [hlength] at hread
  rw [parseIpValue, hread]
  simp only [Option.bind_eq_bind, Option.bind_some, hend, if_true]

theorem parseInterruptValue_reads {value : List Char} {interrupt : UInt8}
    (hblank : ∀ c, value.head? = some c → isSpace c = false) (h : parseInterruptValue value = some interrupt) :
    InterruptText value interrupt := by
  unfold parseInterruptValue at h
  split at h
  · cases h
  rename_i hfirst
  cases hread : strtoul 0 value with
  | mk number tail =>
    rw [hread] at h
    dsimp only at h
    split at h
    · cases h
    · rename_i hrange
      simp only [not_or, not_not] at hfirst hrange
      obtain ⟨hne, hzero, hle, hend⟩ := hrange
      cases h
      obtain ⟨sign, literal, n, hvalue, hsign, hliteral, rfl⟩ := strtoul_reads hblank hfirst.2 hread hne
      have hbyte := (toULong_byte hle).2
      refine ⟨sign, literal, tail, hvalue, hsign, by rwa [hbyte], ?_, hend⟩
      intro hnull
      rw [hnull] at hbyte
      apply hzero
      rw [← show 0 = n from hbyte]
      rfl

theorem parseInterruptValue_iff {value : List Char} {interrupt : UInt8} (hblank : ∀ c, value.head? = some c → isSpace c = false) :
    parseInterruptValue value = some interrupt ↔ InterruptText value interrupt := by
  refine ⟨parseInterruptValue_reads hblank, ?_⟩
  rintro ⟨sign, literal, tail, rfl, hsign, hliteral, hne, hend⟩
  have hmark : ∀ c, tail.head? = some c → c ≠ 'x' ∧ c ≠ 'X' := by
    intro c hc
    cases tail with
    | nil => cases hc
    | cons d tail =>
      cases hc
      simp only [finishToken, decide_eq_true_eq] at hend
      constructor
      · rintro rfl
        exact absurd hend (by decide)
      · rintro rfl
        exact absurd hend (by decide)
  have hread := strtoul_literal hsign hliteral (fun base => stops_of_finishToken hend base)
    ⟨fun hx => (hmark 'x' hx).1 rfl, fun hx => (hmark 'X' hx).2 rfl⟩
  obtain ⟨c, rest, rfl, hc⟩ := hliteral.starts
  obtain ⟨hrange, hbyte, hzero⟩ := toULong_of_byte interrupt
  have hfirst : ¬ (sign ++ c :: rest ++ tail = [] ∨ (sign ++ c :: rest ++ tail).head? = some '-') := by
    rintro (hnil | hminus)
    · simp at hnil
    · rcases hsign with rfl | rfl
      · exact (digit_plain hc).2.1 (by simpa using hminus)
      · cases hminus
  have hlonger : tail ≠ sign ++ c :: rest ++ tail := by
    intro heq
    have := congrArg List.length heq
    simp only [List.length_append, List.length_cons] at this
    omega
  rw [parseInterruptValue, if_neg hfirst, hread]
  dsimp only
  rw [if_neg (by simp only [not_or, not_not]; exact ⟨hlonger, hzero hne, hrange, hend⟩), hbyte]

theorem readHostname_reads {value output tail : List Char} {length : Nat} (h : readHostname length value = some (output, tail)) :
    value = output ++ tail ∧ (output ≠ [] → length + output.length ≤ 31) ∧
      ∀ c ∈ output, 33 ≤ c.toNat ∧ c.toNat ≤ 126 ∧ c ≠ '#' := by
  induction value generalizing length output with
  | nil =>
    cases h
    exact ⟨rfl, fun hne => absurd rfl hne, fun _ hc => absurd hc List.not_mem_nil⟩
  | cons c value ih =>
    rw [readHostname] at h
    split at h
    · cases h
      exact ⟨rfl, fun hne => absurd rfl hne, fun _ hc => absurd hc List.not_mem_nil⟩
    rename_i hend
    split at h
    · cases h
    rename_i hrange
    cases hrest : readHostname (length + 1) value with
    | none =>
      rw [hrest] at h
      cases h
    | some result =>
      obtain ⟨more, after⟩ := result
      rw [hrest] at h
      cases h
      obtain ⟨rfl, hlength, hall⟩ := ih hrest
      simp only [not_or, Nat.not_lt, ge_iff_le, Nat.not_le, dmMtcpHostnameMax] at hend hrange
      refine ⟨rfl, fun _ => ?_, ?_⟩
      · rw [List.length_cons]
        by_cases hmore : more = []
        · rw [hmore, List.length_nil]
          omega
        · have := hlength hmore
          omega
      · intro d hd
        rcases List.mem_cons.mp hd with rfl | hd
        · exact ⟨hrange.1, hrange.2.1, hend.2⟩
        · exact hall d hd

theorem parseHostnameValue_reads {value name : List Char} (h : parseHostnameValue value = some name) : HostnameText value name := by
  rw [parseHostnameValue] at h
  cases hread : readHostname 0 value with
  | none =>
    rw [hread] at h
    cases h
  | some result =>
    obtain ⟨output, tail⟩ := result
    rw [hread] at h
    simp only [Option.bind_eq_bind, Option.bind_some] at h
    split at h
    · cases h
    · rename_i hend
      simp only [not_or, not_not] at hend
      cases h
      obtain ⟨hvalue, hlength, hall⟩ := readHostname_reads hread
      have hne : name ≠ [] := fun hnil => hend.1 (by rw [hnil, List.length_nil])
      exact ⟨tail, hvalue, hne, by simpa using hlength hne, hall, hend.2⟩

theorem readHostname_visible {name tail : List Char} {length : Nat} (hlength : length + name.length ≤ 31)
    (hall : ∀ c ∈ name, 33 ≤ c.toNat ∧ c.toNat ≤ 126 ∧ c ≠ '#') (hend : finishToken tail) :
    readHostname length (name ++ tail) = some (name, tail) := by
  induction name generalizing length with
  | nil =>
    cases tail with
    | nil => rfl
    | cons c tail =>
      simp only [finishToken, decide_eq_true_eq] at hend
      rw [List.nil_append, readHostname, if_pos hend]
  | cons c name ih =>
    obtain ⟨hlow, hhigh, hcomment⟩ := hall c List.mem_cons_self
    have hspace : ¬ isSpace c = true := by
      rw [isSpace, decide_eq_true_eq]
      rintro (rfl | ⟨-, hle⟩)
      · exact absurd hlow (by decide)
      · have hcr : c.toNat ≤ 0x0D := UInt32.le_iff_toNat_le.mp (Char.le_def.mp hle)
        omega
    rw [List.length_cons] at hlength
    rw [List.cons_append, readHostname, if_neg (not_or.mpr ⟨hspace, hcomment⟩), if_neg (by rw [dmMtcpHostnameMax]; omega),
      ih (by omega) fun d hd => hall d (List.mem_cons_of_mem c hd)]
    rfl

theorem parseHostnameValue_iff {value name : List Char} : parseHostnameValue value = some name ↔ HostnameText value name := by
  refine ⟨parseHostnameValue_reads, ?_⟩
  rintro ⟨tail, rfl, hne, hlength, hall, hend⟩
  rw [parseHostnameValue, readHostname_visible (by omega) hall hend]
  simp only [Option.bind_eq_bind, Option.bind_some]
  rw [if_neg]
  rintro (hzero | hopen)
  · exact hne (List.eq_nil_of_length_eq_zero hzero)
  · exact hopen hend

/-! ## Lines -/

/-- What stands between a key and its value: blanks, or an `=` with blanks around it. -/
def Assigns (gap value : List Char) : Prop :=
  (∀ c, value.head? = some c → isSpace c = false) ∧
    (((∀ c ∈ gap, isSpace c) ∧ value.head? ≠ some '=' ∧ (gap = [] → value = [])) ∨
      ∃ before after, gap = before ++ '=' :: after ∧ (∀ c ∈ before, isSpace c) ∧ ∀ c ∈ after, isSpace c)

/-- The line has `value` for `key`, in any case. -/
def KeyLine (key line value : List Char) : Prop :=
  ∃ indent word gap, line = indent ++ word ++ gap ++ value ∧ (∀ c ∈ indent, isSpace c) ∧
    (∀ c ∈ word, inKey c) ∧ word.map Char.toUpper = key ∧ Assigns gap value

def lineWord (line : List Char) : List Char := (skipSpace line).takeWhile inKey

def lineValue (line : List Char) : List Char := skipAssign ((skipSpace line).dropWhile inKey)

theorem skipSpace_append {indent : List Char} (h : ∀ c ∈ indent, isSpace c) (text : List Char) :
    skipSpace (indent ++ text) = skipSpace text := List.dropWhile_append_of_pos h

theorem skipSpace_of_head {text : List Char} (h : ∀ c, text.head? = some c → isSpace c = false) : skipSpace text = text :=
  dropWhile_isSpace h

theorem skipSpace_head (text : List Char) : ∀ c, (skipSpace text).head? = some c → isSpace c = false := by
  intro c hc
  have hhead := List.head?_dropWhile_not isSpace text
  rw [← skipSpace, hc] at hhead
  simpa using hhead

/-- The blanks that are skipped. -/
theorem skipSpace_split (text : List Char) : ∃ indent, text = indent ++ skipSpace text ∧ ∀ c ∈ indent, isSpace c :=
  ⟨text.takeWhile isSpace, List.takeWhile_append_dropWhile.symm, fun _ hc => List.mem_takeWhile_imp hc⟩

theorem skipAssign_of_ne {text : List Char} (h : (skipSpace text).head? ≠ some '=') : skipAssign text = skipSpace text := by
  unfold skipAssign
  split
  · rename_i e
    exact absurd (by rw [e]; rfl) h
  · rfl

theorem skipAssign_assign {text rest : List Char} (h : skipSpace text = '=' :: rest) : skipAssign text = skipSpace rest := by
  unfold skipAssign
  rw [h]
  rfl

theorem skipAssign_append {gap value : List Char} (h : Assigns gap value) : skipAssign (gap ++ value) = value := by
  obtain ⟨hhead, ⟨hgap, hne, -⟩ | ⟨before, after, rfl, hbefore, hafter⟩⟩ := h
  · have hskip : skipSpace (gap ++ value) = value := by rw [skipSpace_append hgap, skipSpace_of_head hhead]
    rw [skipAssign_of_ne (by rw [hskip]; exact hne), hskip]
  · have hskip : skipSpace (before ++ '=' :: after ++ value) = '=' :: (after ++ value) := by
      rw [List.append_assoc, skipSpace_append hbefore]
      exact skipSpace_of_head (by
        rintro c hc
        cases hc
        decide)
    rw [skipAssign_assign hskip, skipSpace_append hafter, skipSpace_of_head hhead]

/-- What is skipped after a key assigns what is left. -/
theorem skipAssign_split {text : List Char} (h : ∀ c, text.head? = some c → ¬ inKey c) :
    ∃ gap, text = gap ++ skipAssign text ∧ Assigns gap (skipAssign text) := by
  obtain ⟨blanks, htext, hblanks⟩ := skipSpace_split text
  by_cases hassign : (skipSpace text).head? = some '='
  · obtain ⟨rest, hrest⟩ := List.head?_eq_some_iff.mp hassign
    obtain ⟨after, hafter, hall⟩ := skipSpace_split rest
    rw [skipAssign_assign hrest]
    refine ⟨blanks ++ '=' :: after, ?_, skipSpace_head rest, Or.inr ⟨blanks, after, rfl, hblanks, hall⟩⟩
    rw [hrest] at htext
    rw [List.append_assoc, List.cons_append, ← hafter]
    exact htext
  · rw [skipAssign_of_ne hassign]
    refine ⟨blanks, htext, skipSpace_head text, Or.inl ⟨hblanks, hassign, fun hnil => ?_⟩⟩
    cases htail : skipSpace text with
    | nil => rfl
    | cons c tail =>
      have hsame : text = c :: tail := by rw [htext, hnil, htail, List.nil_append]
      have hc := skipSpace_head text c (by rw [htail]; rfl)
      have hne : c ≠ '=' := fun heq => hassign (by rw [htail, heq]; rfl)
      exact absurd (by simp [inKey, hc, hne]) (h c (by rw [hsame]; rfl))

/-- The key ends where the gap or the line does. -/
theorem Assigns.stops {gap value : List Char} (h : Assigns gap value) : ∀ c, (gap ++ value).head? = some c → inKey c = false := by
  intro c hc
  obtain ⟨-, ⟨hgap, -, hnil⟩ | ⟨before, after, rfl, hbefore, -⟩⟩ := h
  · cases gap with
    | nil =>
      rw [hnil rfl] at hc
      cases hc
    | cons d gap =>
      cases hc
      simp [inKey, hgap c List.mem_cons_self]
  · cases before with
    | nil =>
      cases hc
      decide
    | cons d before =>
      cases hc
      simp [inKey, hbefore c List.mem_cons_self]

theorem inKey_split {word rest : List Char} (hword : ∀ c ∈ word, inKey c) (hrest : ∀ c, rest.head? = some c → inKey c = false) :
    (word ++ rest).takeWhile inKey = word ∧ (word ++ rest).dropWhile inKey = rest := by
  rw [List.takeWhile_append_of_pos hword, List.dropWhile_append_of_pos hword]
  cases rest with
  | nil => simp
  | cons c rest => simp [hrest c rfl]

/-- The key and the value that the code finds are those of the line. -/
theorem keyLine_iff {key line value : List Char} (hkey : key ≠ []) :
    KeyLine key line value ↔ (lineWord line).map Char.toUpper = key ∧ lineValue line = value := by
  constructor
  · rintro ⟨indent, word, gap, rfl, hindent, hword, rfl, hassigns⟩
    have hskip : skipSpace (indent ++ word ++ gap ++ value) = word ++ (gap ++ value) := by
      rw [List.append_assoc, List.append_assoc, skipSpace_append hindent]
      refine skipSpace_of_head fun c hc => ?_
      cases word with
      | nil => exact absurd rfl hkey
      | cons d word =>
        cases hc
        have := hword c List.mem_cons_self
        simp only [inKey, decide_eq_true_eq, Bool.not_eq_true] at this
        exact this.1
    obtain ⟨htake, hdrop⟩ := inKey_split hword hassigns.stops
    rw [lineWord, lineValue, hskip, htake, hdrop, skipAssign_append hassigns]
    exact ⟨rfl, rfl⟩
  · rintro ⟨rfl, rfl⟩
    obtain ⟨indent, hline, hindent⟩ := skipSpace_split line
    have hend : ∀ c, ((skipSpace line).dropWhile inKey).head? = some c → ¬ inKey c := by
      intro c hc
      have hhead := List.head?_dropWhile_not inKey (skipSpace line)
      rw [hc] at hhead
      simpa using hhead
    obtain ⟨gap, hgap, hassigns⟩ := skipAssign_split hend
    refine ⟨indent, lineWord line, gap, ?_, hindent, fun c hc => List.mem_takeWhile_imp hc, rfl, hassigns⟩
    calc line = indent ++ skipSpace line := hline
      _ = indent ++ (lineWord line ++ (skipSpace line).dropWhile inKey) :=
          congrArg (indent ++ ·) List.takeWhile_append_dropWhile.symm
      _ = indent ++ (lineWord line ++ (gap ++ lineValue line)) := by rw [lineValue, ← hgap]
      _ = indent ++ lineWord line ++ gap ++ lineValue line := by simp only [List.append_assoc]

/-- A line has one key and one value. -/
theorem KeyLine.unique {key key' line value value' : List Char} (h : KeyLine key line value) (h' : KeyLine key' line value')
    (hkey : key ≠ []) (hkey' : key' ≠ []) : key = key' ∧ value = value' := by
  rw [keyLine_iff hkey] at h
  rw [keyLine_iff hkey'] at h'
  exact ⟨h.1.symm.trans h'.1, h.2.symm.trans h'.2⟩

theorem keyEqual_iff (left right : List Char) : keyEqual left right ↔ left.map Char.toUpper = right.map Char.toUpper := by
  induction left generalizing right with
  | nil => cases right <;> simp [keyEqual]
  | cons c left ih =>
    cases right with
    | nil => simp [keyEqual]
    | cons d right =>
      rw [keyEqual]
      by_cases hcd : c.toUpper = d.toUpper
      · rw [if_neg (not_not_intro hcd), ih]
        simp [hcd]
      · simp [hcd]

/-- The keys that are recognised. -/
def mtcpKeys : List (List Char) := ["IPADDR".toList, "PACKETINT".toList, "HOSTNAME".toList, "HOSTNAME_ASSIGNED".toList]

theorem not_keyLine {line : List Char} (h : (lineWord line).map Char.toUpper ∉ mtcpKeys) :
    ∀ key ∈ mtcpKeys, ∀ value, ¬ KeyLine key line value := by
  intro key hkey value hline
  have hne : key ≠ [] := by
    rintro rfl
    revert hkey
    decide
  rw [((keyLine_iff hne).mp hline).1] at h
  exact h hkey

/-- A blank line, a comment and a line whose first word is too long have none of the keys. -/
theorem lineWord_skipped {line : List Char}
    (h : (skipSpace line = [] ∨ (skipSpace line).head? = some '#') ∨ (lineWord line).length = 0 ∨ (lineWord line).length ≥ 32) :
    (lineWord line).map Char.toUpper ∉ mtcpKeys := by
  intro hmem
  have hlength : ∀ key ∈ mtcpKeys, 0 < key.length ∧ key.length < 32 ∧ key.head? ≠ some '#' := by decide
  obtain ⟨hpos, hlt, hhead⟩ := hlength _ hmem
  rw [List.length_map] at hpos hlt
  rcases h with (hblank | hcomment) | hlength
  · rw [lineWord, hblank] at hpos
    exact absurd hpos (by decide)
  · obtain ⟨rest, hrest⟩ := List.head?_eq_some_iff.mp hcomment
    apply hhead
    rw [lineWord, hrest]
    rfl
  · omega

/-- The comparison of the code finds the key of the line. -/
theorem keyLine_of_keyEqual {line key : List Char} (hmem : key ∈ mtcpKeys) (h : keyEqual (lineWord line) key = true) :
    KeyLine key line (lineValue line) := by
  rw [keyEqual_iff] at h
  have hupper : ∀ key ∈ mtcpKeys, key ≠ [] ∧ key.map Char.toUpper = key := by decide
  exact (keyLine_iff (hupper key hmem).1).mpr ⟨h.trans (hupper key hmem).2, rfl⟩

theorem lineValue_head (line : List Char) : ∀ c, (lineValue line).head? = some c → isSpace c = false := by
  unfold lineValue skipAssign
  split
  · exact skipSpace_head _
  · exact skipSpace_head _

theorem configLine_cases {s s' : Staged} {line : List Char} (h : configLine s line = .ok s') :
    (∃ value ip, KeyLine "IPADDR".toList line value ∧ IpText value ip ∧
        s' = { s with ip, found := s.found ||| dmMtcpHaveIp }) ∨
      (∃ value interrupt, KeyLine "PACKETINT".toList line value ∧ InterruptText value interrupt ∧
        s' = { s with interrupt, found := s.found ||| dmMtcpHavePacketInt }) ∨
      (∃ value hostname, KeyLine "HOSTNAME".toList line value ∧ HostnameText value hostname ∧
        s' = { s with hostname, found := s.found ||| dmMtcpHaveHostname }) ∨
      (∃ value assigned, KeyLine "HOSTNAME_ASSIGNED".toList line value ∧ HostnameText value assigned ∧ s' = { s with assigned }) ∨
      ((∀ key ∈ mtcpKeys, ∀ value, ¬ KeyLine key line value) ∧ s' = s) := by
  unfold configLine at h
  dsimp only at h
  rw [← lineWord, ← lineValue] at h
  split at h
  · rename_i hskip
    cases h
    exact Or.inr (Or.inr (Or.inr (Or.inr ⟨not_keyLine (lineWord_skipped (Or.inl hskip)), rfl⟩)))
  split at h
  · rename_i hlength
    cases h
    exact Or.inr (Or.inr (Or.inr (Or.inr ⟨not_keyLine (lineWord_skipped (Or.inr hlength)), rfl⟩)))
  split at h
  · rename_i hip
    split at h
    · cases h
    · rename_i ip hparse
      cases h
      exact Or.inl ⟨_, ip, keyLine_of_keyEqual (by decide) hip, parseIpValue_reads hparse, rfl⟩
  rename_i hip
  split at h
  · rename_i hint
    split at h
    · cases h
    · rename_i interrupt hparse
      cases h
      have htext := parseInterruptValue_reads (lineValue_head line) hparse
      exact Or.inr (Or.inl ⟨_, interrupt, keyLine_of_keyEqual (by decide) hint, htext, rfl⟩)
  rename_i hint
  split at h
  · rename_i hhost
    split at h
    · cases h
    · rename_i hostname hparse
      cases h
      exact Or.inr (Or.inr (Or.inl ⟨_, hostname, keyLine_of_keyEqual (by decide) hhost, parseHostnameValue_reads hparse, rfl⟩))
  rename_i hhost
  split at h
  · rename_i hassigned
    split at h
    · cases h
    · rename_i assigned hparse
      cases h
      have htext := parseHostnameValue_reads hparse
      exact Or.inr (Or.inr (Or.inr (Or.inl ⟨_, assigned, keyLine_of_keyEqual (by decide) hassigned, htext, rfl⟩)))
  rename_i hassigned
  cases h
  refine Or.inr (Or.inr (Or.inr (Or.inr ⟨not_keyLine fun hmem => ?_, rfl⟩)))
  have hequal : ∀ key ∈ mtcpKeys, (lineWord line).map Char.toUpper = key → keyEqual (lineWord line) key = true := by
    intro key hmem e
    have hupper : ∀ key ∈ mtcpKeys, key.map Char.toUpper = key := by decide
    rw [keyEqual_iff, e, hupper key hmem]
  simp only [mtcpKeys, List.mem_cons, List.not_mem_nil, or_false] at hmem
  rcases hmem with e | e | e | e
  · exact hip (hequal _ (by decide) e)
  · exact hint (hequal _ (by decide) e)
  · exact hhost (hequal _ (by decide) e)
  · exact hassigned (hequal _ (by decide) e)

/-- The line has no key with a malformed value. -/
structure ValidLine (line : List Char) : Prop where
  ip : ∀ value, KeyLine "IPADDR".toList line value → ∃ ip, IpText value ip
  packetInterrupt : ∀ value, KeyLine "PACKETINT".toList line value → ∃ interrupt, InterruptText value interrupt
  hostname : ∀ value, KeyLine "HOSTNAME".toList line value → ∃ name, HostnameText value name
  assigned : ∀ value, KeyLine "HOSTNAME_ASSIGNED".toList line value → ∃ name, HostnameText value name

/-- Only a malformed value makes a line fail. -/
theorem configLine_error {s : Staged} {line : List Char} {result : Int} (h : configLine s line = .error result) :
    result ≠ dmMtcpOk ∧ ¬ ValidLine line := by
  unfold configLine at h
  dsimp only at h
  rw [← lineWord, ← lineValue] at h
  split at h
  · cases h
  split at h
  · cases h
  split at h
  · rename_i hip
    split at h
    · rename_i hparse
      cases h
      refine ⟨by decide, fun hvalid => ?_⟩
      obtain ⟨ip, htext⟩ := hvalid.ip _ (keyLine_of_keyEqual (by decide) hip)
      rw [parseIpValue_iff.mpr htext] at hparse
      cases hparse
    · cases h
  split at h
  · rename_i hint
    split at h
    · rename_i hparse
      cases h
      refine ⟨by decide, fun hvalid => ?_⟩
      obtain ⟨interrupt, htext⟩ := hvalid.packetInterrupt _ (keyLine_of_keyEqual (by decide) hint)
      rw [(parseInterruptValue_iff (lineValue_head line)).mpr htext] at hparse
      cases hparse
    · cases h
  split at h
  · rename_i hhost
    split at h
    · rename_i hparse
      cases h
      refine ⟨by decide, fun hvalid => ?_⟩
      obtain ⟨name, htext⟩ := hvalid.hostname _ (keyLine_of_keyEqual (by decide) hhost)
      rw [parseHostnameValue_iff.mpr htext] at hparse
      cases hparse
    · cases h
  split at h
  · rename_i hassigned
    split at h
    · rename_i hparse
      cases h
      refine ⟨by decide, fun hvalid => ?_⟩
      obtain ⟨name, htext⟩ := hvalid.assigned _ (keyLine_of_keyEqual (by decide) hassigned)
      rw [parseHostnameValue_iff.mpr htext] at hparse
      cases hparse
    · cases h
  · cases h

/-! ## Staged values -/

def Staged.ip? (s : Staged) : Option Bytes := if s.found &&& dmMtcpHaveIp ≠ 0 then some s.ip else none

def Staged.interrupt? (s : Staged) : Option UInt8 := if s.found &&& dmMtcpHavePacketInt ≠ 0 then some s.interrupt else none

def Staged.hostname? (s : Staged) : Option (List Char) := if s.found &&& dmMtcpHaveHostname ≠ 0 then some s.hostname else none

def Staged.assigned? (s : Staged) : Option (List Char) := if s.assigned ≠ [] then some s.assigned else none

theorem or_and_right (a b c : UInt8) : (a ||| b) &&& c = a &&& c ||| b &&& c := UInt8.toBitVec_inj.mp BitVec.and_or_distrib_right

theorem found_other {found bit other : UInt8} (h : bit &&& other = 0) : (found ||| bit) &&& other = found &&& other := by
  rw [or_and_right, h, UInt8.or_zero]

theorem found_self {found bit : UInt8} (h : bit ≠ 0) : (found ||| bit) &&& bit ≠ 0 := by
  rw [or_and_right, UInt8.and_self, Ne, UInt8.or_eq_zero_iff]
  exact fun hzero => h hzero.2

/-- A line with a key has none of the others. -/
theorem KeyLine.other {key line value : List Char} (h : KeyLine key line value) (hkey : key ∈ mtcpKeys) {other : List Char}
    (hother : other ∈ mtcpKeys) (hne : key ≠ other) : ∀ value', ¬ KeyLine other line value' := by
  have hnil : ∀ key ∈ mtcpKeys, key ≠ [] := by decide
  exact fun value' h' => hne (h.unique h' (hnil key hkey) (hnil other hother)).1

theorem sets_ip : Sets (KeyLine "IPADDR".toList) IpText configLine Staged.ip? := by
  intro s line s' h
  rcases configLine_cases h with ⟨value, ip, hline, htext, rfl⟩ | ⟨_, _, hline, -, rfl⟩ | ⟨_, _, hline, -, rfl⟩ |
    ⟨_, _, hline, -, rfl⟩ | ⟨hno, rfl⟩
  · exact Or.inl ⟨value, ip, hline, htext, if_pos (found_self (by decide))⟩
  · refine Or.inr ⟨hline.other (by decide) (by decide) (by decide), ?_⟩
    simp only [Staged.ip?, found_other (show dmMtcpHavePacketInt &&& dmMtcpHaveIp = 0 from rfl)]
  · refine Or.inr ⟨hline.other (by decide) (by decide) (by decide), ?_⟩
    simp only [Staged.ip?, found_other (show dmMtcpHaveHostname &&& dmMtcpHaveIp = 0 from rfl)]
  · exact Or.inr ⟨hline.other (by decide) (by decide) (by decide), rfl⟩
  · exact Or.inr ⟨hno _ (by decide), rfl⟩

theorem sets_interrupt : Sets (KeyLine "PACKETINT".toList) InterruptText configLine Staged.interrupt? := by
  intro s line s' h
  rcases configLine_cases h with ⟨_, _, hline, -, rfl⟩ | ⟨value, interrupt, hline, htext, rfl⟩ | ⟨_, _, hline, -, rfl⟩ |
    ⟨_, _, hline, -, rfl⟩ | ⟨hno, rfl⟩
  · refine Or.inr ⟨hline.other (by decide) (by decide) (by decide), ?_⟩
    simp only [Staged.interrupt?, found_other (show dmMtcpHaveIp &&& dmMtcpHavePacketInt = 0 from rfl)]
  · exact Or.inl ⟨value, interrupt, hline, htext, if_pos (found_self (by decide))⟩
  · refine Or.inr ⟨hline.other (by decide) (by decide) (by decide), ?_⟩
    simp only [Staged.interrupt?, found_other (show dmMtcpHaveHostname &&& dmMtcpHavePacketInt = 0 from rfl)]
  · exact Or.inr ⟨hline.other (by decide) (by decide) (by decide), rfl⟩
  · exact Or.inr ⟨hno _ (by decide), rfl⟩

theorem sets_hostname : Sets (KeyLine "HOSTNAME".toList) HostnameText configLine Staged.hostname? := by
  intro s line s' h
  rcases configLine_cases h with ⟨_, _, hline, -, rfl⟩ | ⟨_, _, hline, -, rfl⟩ | ⟨value, hostname, hline, htext, rfl⟩ |
    ⟨_, _, hline, -, rfl⟩ | ⟨hno, rfl⟩
  · refine Or.inr ⟨hline.other (by decide) (by decide) (by decide), ?_⟩
    simp only [Staged.hostname?, found_other (show dmMtcpHaveIp &&& dmMtcpHaveHostname = 0 from rfl)]
  · refine Or.inr ⟨hline.other (by decide) (by decide) (by decide), ?_⟩
    simp only [Staged.hostname?, found_other (show dmMtcpHavePacketInt &&& dmMtcpHaveHostname = 0 from rfl)]
  · exact Or.inl ⟨value, hostname, hline, htext, if_pos (found_self (by decide))⟩
  · exact Or.inr ⟨hline.other (by decide) (by decide) (by decide), rfl⟩
  · exact Or.inr ⟨hno _ (by decide), rfl⟩

theorem sets_assigned : Sets (KeyLine "HOSTNAME_ASSIGNED".toList) HostnameText configLine Staged.assigned? := by
  intro s line s' h
  rcases configLine_cases h with ⟨_, _, hline, -, rfl⟩ | ⟨_, _, hline, -, rfl⟩ | ⟨_, _, hline, -, rfl⟩ |
    ⟨value, assigned, hline, htext, rfl⟩ | ⟨hno, rfl⟩
  · exact Or.inr ⟨hline.other (by decide) (by decide) (by decide), rfl⟩
  · exact Or.inr ⟨hline.other (by decide) (by decide) (by decide), rfl⟩
  · exact Or.inr ⟨hline.other (by decide) (by decide) (by decide), rfl⟩
  · obtain ⟨_, -, hne, -⟩ := id htext
    exact Or.inl ⟨value, assigned, hline, htext, if_pos hne⟩
  · exact Or.inr ⟨hno _ (by decide), rfl⟩

theorem validLine_of_ok {s s' : Staged} {line : List Char} (h : configLine s line = .ok s') : ValidLine line := by
  have hunique : ∀ key ∈ mtcpKeys, ∀ line value value', KeyLine key line value → KeyLine key line value' → value = value' := by
    intro key hkey line value value' hv hv'
    have hnil : ∀ key ∈ mtcpKeys, key ≠ [] := by decide
    exact (hv.unique hv' (hnil key hkey) (hnil key hkey)).2
  exact ⟨sets_ip.reads (hunique _ (by decide)) h, sets_interrupt.reads (hunique _ (by decide)) h,
    sets_hostname.reads (hunique _ (by decide)) h, sets_assigned.reads (hunique _ (by decide)) h⟩

/-- No other bit of `found` is ever set. -/
theorem found_bits {lines : List (List Char)} {s : Staged} (h : lines.foldlM configLine {} = .ok s) : s.found &&& 0xF8 = 0 := by
  refine foldlM_keeps (P := fun s : Staged => s.found &&& 0xF8 = 0) ?_ h rfl
  intro s line s' h hs
  rcases configLine_cases h with ⟨_, _, -, -, rfl⟩ | ⟨_, _, -, -, rfl⟩ | ⟨_, _, -, -, rfl⟩ | ⟨_, _, -, -, rfl⟩ | ⟨-, rfl⟩
  · exact (found_other (by decide)).trans hs
  · exact (found_other (by decide)).trans hs
  · exact (found_other (by decide)).trans hs
  · exact hs
  · exact hs

/-! ## The file -/

theorem textString_of_notMem {text : List Char} (h : '\x00' ∉ text) : textString text = text := by
  rw [textString, List.takeWhile_eq_self_iff]
  intro c hc
  rw [decide_eq_true_eq]
  rintro rfl
  exact h hc

theorem textString_strcpy {text : List Char} (h : '\x00' ∉ text) (buffer : List Char) : textString (strcpy text buffer) = text := by
  rw [textString, strcpy, List.takeWhile_append_of_pos, List.takeWhile_cons_of_neg (by simp), List.append_nil]
  intro c hc
  rw [decide_eq_true_eq]
  rintro rfl
  exact h hc

theorem HostnameText.notMem {text name : List Char} (h : HostnameText text name) : '\x00' ∉ name := by
  obtain ⟨_, -, -, -, hall, -⟩ := h
  intro hmem
  exact absurd (hall _ hmem).1 (by decide)

/-- Whatever the file is, the lines that the loop takes are read one after the other. -/
theorem configLoop_fold {fuel : Nat} {f f' : TextStream} {s s' : Staged} (h : configLoop fuel f s = (.ok s', f')) :
    ∃ lines : List (List Char), lines.foldlM configLine s = .ok s' := by
  induction fuel generalizing f s with
  | zero =>
    cases h
    exact ⟨[], rfl⟩
  | succ fuel ih =>
    rw [configLoop] at h
    split at h
    · cases h
      exact ⟨[], rfl⟩
    · rename_i buffer next hread
      dsimp only at h
      split at h
      · cases h
      · split at h
        · cases h
        · rename_i t ht
          obtain ⟨lines, hlines⟩ := ih h
          refine ⟨textString buffer :: lines, ?_⟩
          rw [List.foldlM_cons, ht]
          exact hlines

/-- `fgets` finds the end of the line in its buffer: the newline, or the end of the file. -/
def FitsBuffer (line : List Char) : Prop := line.length < dmMtcpLineSize ∧ ('\n' ∉ line → line.length + 1 < dmMtcpLineSize)

theorem fitsBuffer_last {line : List Char} (h : line.length < 255) : FitsBuffer line := by
  constructor <;> simp only [dmMtcpLineSize] <;> omega

theorem fitsBuffer_line {line : List Char} : FitsBuffer (line ++ ['\n']) ↔ line.length < 255 := by
  simp only [FitsBuffer, dmMtcpLineSize, List.length_append, List.length_singleton]
  constructor
  · intro h
    omega
  · exact fun h => ⟨by omega, fun hmem => absurd (List.mem_append_right _ (List.mem_singleton_self _)) hmem⟩

theorem configLoop_end {fuel : Nat} {f : TextStream} (hrest : f.rest = []) (herror : f.error = false) (s : Staged) :
    configLoop (fuel + 1) f s = (.ok s, { f with rest := [] }.ended) := by
  rw [configLoop, TextStream.fgets_last (by rw [hrest]; exact List.not_mem_nil) (by rw [hrest]; decide) herror, if_pos (Or.inl hrest)]

/-- A line that does not fit the buffer ends the loop. -/
theorem configLoop_long {fuel : Nat} {f f' : TextStream} {s s' : Staged} {line rest : List Char} (hline : '\n' ∉ line)
    (hlong : 255 ≤ line.length) (hrest : f.rest = line ++ rest) (heof : f.eof = false) (herror : f.error = false) :
    configLoop (fuel + 1) f s ≠ (.ok s', f') := by
  have htake : '\n' ∉ line.take 255 := fun hmem => hline (List.mem_of_mem_take hmem)
  have hlength : (line.take 255).length = 255 := by simpa using hlong
  have hread : f.fgets dmMtcpLineSize = (some (line.take 255), { f with rest := line.drop 255 ++ rest }) := by
    refine TextStream.fgets_part htake (by rw [hlength]; rfl) ?_ ?_ herror
    · intro hnil
      rw [hnil] at hlength
      cases hlength
    · rw [hrest, ← List.append_assoc, List.take_append_drop]
  have hstring : '\n' ∉ textString (line.take 255) := fun hmem => htake (List.takeWhile_subset _ hmem)
  rw [configLoop, hread]
  simp only [hstring, heof, not_false_eq_true, Bool.false_eq_true, and_self, if_true]
  intro h
  cases h

theorem configLoop_line {fuel : Nat} {f : TextStream} {s : Staged} {line rest : List Char} (hline : '\n' ∉ line)
    (hfits : line.length < 255) (hrest : f.rest = line ++ '\n' :: rest) (hnul : '\x00' ∉ line) (herror : f.error = false) :
    configLoop (fuel + 1) f s = match configLine s (line ++ ['\n']) with
      | .error result => (.error result, { f with rest })
      | .ok s => configLoop fuel { f with rest } s := by
  have hplain : '\x00' ∉ line ++ ['\n'] := by
    intro hmem
    rcases List.mem_append.mp hmem with hmem | hmem
    · exact hnul hmem
    · cases List.mem_singleton.mp hmem
  have hnewline : '\n' ∈ line ++ ['\n'] := List.mem_append_right _ (List.mem_singleton_self _)
  rw [configLoop, TextStream.fgets_line hline (by rw [dmMtcpLineSize]; omega) hrest herror]
  cases hread : configLine s (line ++ ['\n']) <;>
    simp only [textString_of_notMem hplain, hnewline, hread, not_true_eq_false, false_and, if_false]

/-- The last line, where no newline ends it. -/
theorem configLoop_last {fuel : Nat} {f : TextStream} {s : Staged} (hlast : '\n' ∉ f.rest) (hne : f.rest ≠ [])
    (hfits : f.rest.length < 255) (hnul : '\x00' ∉ f.rest) (herror : f.error = false) (hfails : f.fails = false) :
    configLoop (fuel + 2) f s = match configLine s f.rest with
      | .error result => (.error result, { f with rest := [], eof := true })
      | .ok s => (.ok s, { f with rest := [], eof := true }) := by
  have hended : ∀ f : TextStream, f.fails = false → f.ended = { f with eof := true } := by
    intro f h
    rw [TextStream.ended, h]
    rfl
  rw [configLoop, TextStream.fgets_last hlast (by rw [dmMtcpLineSize]; omega) herror,
    if_neg (not_or.mpr ⟨hne, by simp [hfails]⟩), hended { f with rest := [] } hfails]
  simp only [textString_of_notMem hnul, not_true_eq_false, and_false, if_false]
  cases configLine s f.rest with
  | error result => rfl
  | ok t =>
    dsimp only
    rw [configLoop_end (f := { f with rest := [], eof := true }) rfl herror, hended { f with rest := [], eof := true } hfails]

/-- A read error keeps the line that it comes in from being read. -/
theorem configLoop_fails {fuel : Nat} {f : TextStream} (hlast : '\n' ∉ f.rest) (hfits : f.rest.length < 255)
    (herror : f.error = false) (hfails : f.fails = true) (s : Staged) :
    configLoop (fuel + 1) f s = (.ok s, { f with rest := [], error := true }) := by
  have hended : ({ f with rest := [] } : TextStream).ended = { f with rest := [], error := true } := if_pos hfails
  rw [configLoop, TextStream.fgets_last hlast (by rw [dmMtcpLineSize]; omega) herror, if_pos (Or.inr hfails), hended]

/-- The loop comes to the end of a file without NULs: every line has fitted, and the lines of
    the file are read one after the other. -/
theorem configLoop_lines {fuel : Nat} {f f' : TextStream} {s s' : Staged} (hfuel : f.rest.length < fuel) (hnul : '\x00' ∉ f.rest)
    (heof : f.eof = false) (herror : f.error = false) (h : configLoop fuel f s = (.ok s', f')) (hok : f'.error = false) :
    (∀ line ∈ textLines f.rest, FitsBuffer line) ∧ (textLines f.rest).foldlM configLine s = .ok s' := by
  induction fuel generalizing f s with
  | zero => exact absurd hfuel (Nat.not_lt_zero _)
  | succ fuel ih =>
    rcases text_cases f.rest with hnil | ⟨hne, hlast⟩ | ⟨line, rest, hline, hrest⟩
    · rw [configLoop_end hnil herror] at h
      cases h
      rw [hnil]
      exact ⟨fun _ hmem => absurd hmem List.not_mem_nil, rfl⟩
    · by_cases hlong : 255 ≤ f.rest.length
      · exact absurd h (configLoop_long hlast hlong (List.append_nil _).symm heof herror)
      have hfits : f.rest.length < 255 := by omega
      cases hfails : f.fails with
      | true =>
        rw [configLoop_fails hlast hfits herror hfails] at h
        cases h
        cases hok
      | false =>
        have hpos : 0 < f.rest.length := List.length_pos_of_ne_nil hne
        obtain ⟨n, rfl⟩ : ∃ n, fuel = n + 1 := ⟨fuel - 1, by omega⟩
        rw [configLoop_last hlast hne hfits hnul herror hfails] at h
        rw [textLines_last hlast hne]
        cases hread : configLine s f.rest with
        | error result =>
          rw [hread] at h
          cases h
        | ok t =>
          rw [hread] at h
          cases h
          refine ⟨List.forall_mem_singleton.mpr (fitsBuffer_last hfits), ?_⟩
          rw [List.foldlM_cons, hread]
          rfl
    · by_cases hlong : 255 ≤ line.length
      · exact absurd h (configLoop_long hline hlong hrest heof herror)
      rw [hrest] at hnul hfuel
      rw [configLoop_line hline (by omega) hrest (fun hmem => hnul (List.mem_append_left _ hmem)) herror] at h
      rw [hrest, textLines_line hline]
      cases hread : configLine s (line ++ ['\n']) with
      | error result =>
        rw [hread] at h
        cases h
      | ok t =>
        rw [hread] at h
        have hnext : '\x00' ∉ rest := fun hmem => hnul (List.mem_append_right _ (List.mem_cons_of_mem _ hmem))
        simp only [List.length_append, List.length_cons] at hfuel
        obtain ⟨hfits, hfold⟩ := ih (f := { f with rest }) (by dsimp only; omega) hnext heof herror h
        refine ⟨List.forall_mem_cons.mpr ⟨fitsBuffer_line.mpr (by omega), hfits⟩, ?_⟩
        rw [List.foldlM_cons, hread]
        exact hfold

/-! ## Outputs -/

theorem commit_ip (out : MtcpOutputs) (s : Staged) : (out.commit s).ip = s.ip?.or out.ip := by
  simp only [MtcpOutputs.commit, Staged.ip?, apply_ite MtcpOutputs.ip, ite_self]
  split <;> rfl

theorem commit_packetInterrupt (out : MtcpOutputs) (s : Staged) :
    (out.commit s).packetInterrupt = s.interrupt?.or out.packetInterrupt := by
  simp only [MtcpOutputs.commit, Staged.interrupt?, apply_ite MtcpOutputs.packetInterrupt, ite_self]
  split <;> rfl

theorem commit_hostname (out : MtcpOutputs) (s : Staged) :
    (out.commit s).hostname = match s.hostname?.or s.assigned? with
      | none => out.hostname
      | some name => out.hostname.map (strcpy name) := by
  simp only [MtcpOutputs.commit, Staged.hostname?, Staged.assigned?, apply_ite MtcpOutputs.hostname, ite_self]
  split
  · rfl
  · split <;> rfl

theorem commit_found (out : MtcpOutputs) (s : Staged) :
    (out.commit s).found = some (if s.hostname? = none ∧ s.assigned? ≠ none then s.found ||| dmMtcpHaveHostname else s.found) := by
  simp only [MtcpOutputs.commit, Staged.hostname?, Staged.assigned?, apply_ite MtcpOutputs.found]
  by_cases hhost : s.found &&& dmMtcpHaveHostname = 0
  · by_cases hassigned : s.assigned = [] <;> simp [hhost, hassigned]
  · simp [hhost]

/-- What a call that returns `DM_MTCP_OK` says of the lines of its file, and leaves in the
    outputs. -/
structure MtcpLoaded (lines : List (List Char)) (out out' : MtcpOutputs) : Prop where
  fits : ∀ line ∈ lines, line.length < dmMtcpLineSize
  valid : ∀ line ∈ lines, ValidLine line
  ip : (∃ value ip, LastEntry (KeyLine "IPADDR".toList) lines value ∧ IpText value ip ∧ out'.ip = some ip) ∨
    (NoEntry (KeyLine "IPADDR".toList) lines ∧ out'.ip = out.ip)
  packetInterrupt :
    (∃ value interrupt, LastEntry (KeyLine "PACKETINT".toList) lines value ∧ InterruptText value interrupt ∧
      out'.packetInterrupt = some interrupt) ∨
    (NoEntry (KeyLine "PACKETINT".toList) lines ∧ out'.packetInterrupt = out.packetInterrupt)
  /-- The names are C strings in the caller's buffer. -/
  hostname :
    (∃ value name, LastEntry (KeyLine "HOSTNAME".toList) lines value ∧ HostnameText value name ∧
      out'.hostname.map textString = some name) ∨
    (NoEntry (KeyLine "HOSTNAME".toList) lines ∧
      ∃ value name, LastEntry (KeyLine "HOSTNAME_ASSIGNED".toList) lines value ∧ HostnameText value name ∧
        out'.hostname.map textString = some name) ∨
    (NoEntry (KeyLine "HOSTNAME".toList) lines ∧ NoEntry (KeyLine "HOSTNAME_ASSIGNED".toList) lines ∧ out'.hostname = out.hostname)
  /-- A bit for each output that has a line. -/
  found : ∃ found, out'.found = some found ∧
    (found &&& dmMtcpHaveIp ≠ 0 ↔ ¬ NoEntry (KeyLine "IPADDR".toList) lines) ∧
    (found &&& dmMtcpHavePacketInt ≠ 0 ↔ ¬ NoEntry (KeyLine "PACKETINT".toList) lines) ∧
    (found &&& dmMtcpHaveHostname ≠ 0 ↔
      ¬ (NoEntry (KeyLine "HOSTNAME".toList) lines ∧ NoEntry (KeyLine "HOSTNAME_ASSIGNED".toList) lines)) ∧
    found &&& 0xF8 = 0

/-- `found` as it is handed over. -/
def Staged.reported (s : Staged) : UInt8 :=
  if s.hostname? = none ∧ s.assigned? ≠ none then s.found ||| dmMtcpHaveHostname else s.found

theorem reported_ip (s : Staged) : s.reported &&& dmMtcpHaveIp ≠ 0 ↔ s.ip? ≠ none := by
  have hbit : s.reported &&& dmMtcpHaveIp = s.found &&& dmMtcpHaveIp := by
    rw [Staged.reported]
    split
    · exact found_other rfl
    · rfl
  rw [hbit, Staged.ip?]
  split <;> simp [*]

theorem reported_packetInterrupt (s : Staged) : s.reported &&& dmMtcpHavePacketInt ≠ 0 ↔ s.interrupt? ≠ none := by
  have hbit : s.reported &&& dmMtcpHavePacketInt = s.found &&& dmMtcpHavePacketInt := by
    rw [Staged.reported]
    split
    · exact found_other rfl
    · rfl
  rw [hbit, Staged.interrupt?]
  split <;> simp [*]

theorem reported_hostname (s : Staged) :
    s.reported &&& dmMtcpHaveHostname ≠ 0 ↔ ¬ (s.hostname? = none ∧ s.assigned? = none) := by
  have hset : s.hostname? = none ↔ s.found &&& dmMtcpHaveHostname = 0 := by
    rw [Staged.hostname?]
    split <;> simp_all
  rw [Staged.reported]
  split
  · rename_i h
    exact ⟨fun _ hnone => h.2 hnone.2, fun _ => found_self (by decide)⟩
  · rename_i h
    rw [Ne, ← hset]
    constructor
    · exact fun hhost hnone => hhost hnone.1
    · exact fun hsome hhost => h ⟨hhost, fun hnone => hsome ⟨hhost, hnone⟩⟩

variable {lines : List (List Char)} {s : Staged}

theorem NoEntry.iff_none {key : List Char} {α : Type} {Reads : List Char → α → Prop} {get : Staged → Option α}
    (hsets : Sets (KeyLine key) Reads configLine get) (hstart : get {} = none) (h : lines.foldlM configLine {} = .ok s) :
    NoEntry (KeyLine key) lines ↔ get s = none := by
  rcases foldlM_last hsets h with ⟨value, a, hlast, -, hget⟩ | ⟨hno, hget⟩
  · exact ⟨fun hno => absurd hno hlast.exists, fun hnone => absurd (hget.symm.trans hnone) (Option.some_ne_none a)⟩
  · exact ⟨fun _ => hget.trans hstart, fun _ => hno⟩

/-- What the lines have staged goes to the outputs. -/
theorem commit_loaded (h : lines.foldlM configLine {} = .ok s) (hfits : ∀ line ∈ lines, line.length < dmMtcpLineSize)
    {out : MtcpOutputs} {buffer : List Char} (hbuffer : out.hostname = some buffer) : MtcpLoaded lines out (out.commit s) := by
  have hnoIp := NoEntry.iff_none sets_ip rfl h
  have hnoInterrupt := NoEntry.iff_none sets_interrupt rfl h
  have hnoHostname := NoEntry.iff_none sets_hostname rfl h
  have hnoAssigned := NoEntry.iff_none sets_assigned rfl h
  constructor
  case fits => exact hfits
  case valid =>
    intro line hline
    obtain ⟨t, t', ht⟩ := step_of_foldlM h line hline
    exact validLine_of_ok ht
  case ip =>
    rw [commit_ip]
    rcases foldlM_last sets_ip h with ⟨value, ip, hlast, htext, hget⟩ | ⟨hno, -⟩
    · exact Or.inl ⟨value, ip, hlast, htext, by rw [hget, Option.some_or]⟩
    · exact Or.inr ⟨hno, by rw [hnoIp.mp hno, Option.none_or]⟩
  case packetInterrupt =>
    rw [commit_packetInterrupt]
    rcases foldlM_last sets_interrupt h with ⟨value, interrupt, hlast, htext, hget⟩ | ⟨hno, -⟩
    · exact Or.inl ⟨value, interrupt, hlast, htext, by rw [hget, Option.some_or]⟩
    · exact Or.inr ⟨hno, by rw [hnoInterrupt.mp hno, Option.none_or]⟩
  case hostname =>
    rw [commit_hostname, hbuffer]
    rcases foldlM_last sets_hostname h with ⟨value, name, hlast, htext, hget⟩ | ⟨hno, -⟩
    · refine Or.inl ⟨value, name, hlast, htext, ?_⟩
      rw [hget, Option.some_or]
      exact congrArg some (textString_strcpy htext.notMem buffer)
    · rw [hnoHostname.mp hno, Option.none_or]
      rcases foldlM_last sets_assigned h with ⟨value, name, hlast, htext, hget⟩ | ⟨hnone, -⟩
      · refine Or.inr (Or.inl ⟨hno, value, name, hlast, htext, ?_⟩)
        rw [hget]
        exact congrArg some (textString_strcpy htext.notMem buffer)
      · refine Or.inr (Or.inr ⟨hno, hnone, ?_⟩)
        rw [hnoAssigned.mp hnone]
  case found =>
    refine ⟨s.reported, commit_found out s, ?_, ?_, ?_, ?_⟩
    · rw [reported_ip, hnoIp]
    · rw [reported_packetInterrupt, hnoInterrupt]
    · rw [reported_hostname, hnoHostname, hnoAssigned]
    · rw [Staged.reported]
      split
      · exact (found_other rfl).trans (found_bits h)
      · exact found_bits h

theorem configLoop_error {fuel : Nat} {f f' : TextStream} {s : Staged} {result : Int}
    (h : configLoop fuel f s = (.error result, f')) : result ≠ dmMtcpOk := by
  induction fuel generalizing f s with
  | zero => cases h
  | succ fuel ih =>
    rw [configLoop] at h
    split at h
    · cases h
    · dsimp only at h
      split at h
      · cases h
        decide
      · split at h
        · rename_i hline
          cases h
          exact (configLine_error hline).1
        · exact ih h

/-- Where every line fits and no read fails, the loop takes every line. -/
theorem configLoop_reads {fuel : Nat} {f : TextStream} {s : Staged} (hfuel : f.rest.length < fuel) (hnul : '\x00' ∉ f.rest)
    (herror : f.error = false) (hfails : f.fails = false) (hfits : ∀ line ∈ textLines f.rest, FitsBuffer line) :
    (configLoop fuel f s).1 = (textLines f.rest).foldlM configLine s ∧ (configLoop fuel f s).2.error = false := by
  induction fuel generalizing f s with
  | zero => exact absurd hfuel (Nat.not_lt_zero _)
  | succ fuel ih =>
    rcases text_cases f.rest with hnil | ⟨hne, hlast⟩ | ⟨line, rest, hline, hrest⟩
    · rw [configLoop_end hnil herror, hnil]
      exact ⟨rfl, by simp [TextStream.ended, hfails, herror]⟩
    · rw [textLines_last hlast hne] at hfits ⊢
      have hshort : f.rest.length + 1 < 256 := (List.forall_mem_singleton.mp hfits).2 hlast
      have hpos : 0 < f.rest.length := List.length_pos_of_ne_nil hne
      obtain ⟨n, rfl⟩ : ∃ n, fuel = n + 1 := ⟨fuel - 1, by omega⟩
      rw [configLoop_last hlast hne (by omega) hnul herror hfails]
      cases hread : configLine s f.rest with
      | error result => exact ⟨by rw [List.foldlM_cons, hread]; rfl, herror⟩
      | ok t => exact ⟨by rw [List.foldlM_cons, hread]; rfl, herror⟩
    · rw [hrest] at hnul hfuel
      rw [hrest, textLines_line hline] at hfits ⊢
      obtain ⟨hshort, hmore⟩ := List.forall_mem_cons.mp hfits
      rw [configLoop_line hline (fitsBuffer_line.mp hshort) hrest (fun hmem => hnul (List.mem_append_left _ hmem)) herror]
      cases hread : configLine s (line ++ ['\n']) with
      | error result => exact ⟨by rw [List.foldlM_cons, hread]; rfl, herror⟩
      | ok t =>
        have hnext : '\x00' ∉ rest := fun hmem => hnul (List.mem_append_right _ (List.mem_cons_of_mem _ hmem))
        simp only [List.length_append, List.length_cons] at hfuel
        obtain ⟨hresult, hend⟩ := ih (f := { f with rest }) (s := t) (by dsimp only; omega) hnext herror hfails hmore
        refine ⟨?_, hend⟩
        rw [List.foldlM_cons, hread]
        exact hresult

/-- The outputs change after the last line, or not at all. -/
theorem dmMtcpConfigLoad_cases (fopen : List Char → Option TextFile) (path : Option (List Char)) (out : MtcpOutputs)
    (hostnameCapacity : UInt16) :
    (∃ result, result ≠ dmMtcpOk ∧ dmMtcpConfigLoad fopen path out hostnameCapacity = (result, out)) ∨
      ∃ file buffer s f, path.bind fopen = some file ∧ out.hostname = some buffer ∧
        configLoop (file.text.length + 1) (TextStream.ofFile file) {} = (.ok s, f) ∧ f.error = false ∧
        dmMtcpConfigLoad fopen path out hostnameCapacity = (dmMtcpOk, out.commit s) := by
  unfold dmMtcpConfigLoad
  split
  · exact Or.inl ⟨_, by decide, rfl⟩
  rename_i hargs
  simp only [not_or] at hargs
  obtain ⟨buffer, hbuffer⟩ := Option.ne_none_iff_exists'.mp hargs.2.2.2.2.1
  split
  · exact Or.inl ⟨_, by decide, rfl⟩
  rename_i file hfile
  split
  · rename_i result f hloop
    exact Or.inl ⟨result, configLoop_error hloop, rfl⟩
  · rename_i s f hloop
    cases herror : f.error with
    | true => exact Or.inl ⟨dmMtcpErrOpen, by decide, rfl⟩
    | false => exact Or.inr ⟨file, buffer, s, f, hfile, hbuffer, hloop, herror, rfl⟩

theorem foldlM_valid {lines : List (List Char)} (h : ∀ line ∈ lines, ValidLine line) (s : Staged) :
    ∃ s', lines.foldlM configLine s = .ok s' := by
  induction lines generalizing s with
  | nil => exact ⟨s, rfl⟩
  | cons line lines ih =>
    obtain ⟨hline, hlines⟩ := List.forall_mem_cons.mp h
    rw [List.foldlM_cons]
    cases hread : configLine s line with
    | error result => exact absurd hline (configLine_error hread).2
    | ok t => exact ih hlines t

/-- A configuration file is taken over as a whole or not at all, and the last line with a key
    gives its value. -/
theorem mtcp_config_atomic (fopen : List Char → Option TextFile) (path : Option (List Char)) (out : MtcpOutputs)
    (hostnameCapacity : UInt16) (hnul : ∀ file, path.bind fopen = some file → '\x00' ∉ file.text) :
    ((dmMtcpConfigLoad fopen path out hostnameCapacity).1 ≠ dmMtcpOk →
        (dmMtcpConfigLoad fopen path out hostnameCapacity).2 = out) ∧
      ((dmMtcpConfigLoad fopen path out hostnameCapacity).1 = dmMtcpOk →
        ∃ file, path.bind fopen = some file ∧
          MtcpLoaded (textLines file.text) out (dmMtcpConfigLoad fopen path out hostnameCapacity).2) := by
  rcases dmMtcpConfigLoad_cases fopen path out hostnameCapacity with ⟨result, hresult, e⟩ |
    ⟨file, buffer, s, f, hfile, hbuffer, hloop, herror, e⟩
  · rw [e]
    exact ⟨fun _ => rfl, fun hok => absurd hok hresult⟩
  · rw [e]
    refine ⟨fun hne => absurd rfl hne, fun _ => ⟨file, hfile, ?_⟩⟩
    obtain ⟨hfits, hfold⟩ := configLoop_lines (Nat.lt_succ_self _) (hnul file hfile) rfl rfl hloop herror
    exact commit_loaded hfold (fun line hline => (hfits line hline).1) hbuffer

/-- The two `HOSTNAME` lines stand before the assigned name, and the interrupt has a note. -/
theorem mtcp_config_atomic_fallback :
    let file : TextFile := { text := "hostname = a\nIPADDR 10.0.0.1\nHOSTNAME b#2\nHOSTNAME_ASSIGNED c\nPACKETINT 0x62 setup".toList }
    let out : MtcpOutputs :=
      { ip := some [9, 9, 9, 9], packetInterrupt := some 0x60, hostname := some (List.replicate 32 '\x00'), found := some 0xA5 }
    let out' : MtcpOutputs :=
      { ip := some [10, 0, 0, 1], packetInterrupt := some 0x62, hostname := some ('b' :: List.replicate 31 '\x00'), found := some 7 }
    dmMtcpConfigLoad (fun _ => some file) (some ['M']) out 32 = (dmMtcpOk, out') ∧
      ∃ file', (some ['M'] : Option (List Char)).bind (fun _ => some file) = some file' ∧
        MtcpLoaded (textLines file'.text) out (dmMtcpConfigLoad (fun _ => some file) (some ['M']) out 32).2 := by
  intro file out out'
  have hnul : ∀ file', (some ['M'] : Option (List Char)).bind (fun _ => some file) = some file' → '\x00' ∉ file'.text := by
    intro file' h
    cases h
    decide
  have hload : dmMtcpConfigLoad (fun _ => some file) (some ['M']) out 32 = (dmMtcpOk, out') := by decide +kernel
  exact ⟨hload, (mtcp_config_atomic (fun _ => some file) (some ['M']) out 32 hnul).2 (by rw [hload])⟩

end DosMcp.Dos
