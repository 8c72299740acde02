/-
  DosMcp.Lib.Lines — text files as a C program reads them: a line at a time, through a buffer.

  `textLines` cuts a text into its lines. A `TextStream` delivers the characters of a file one by
  one and then its end, or a read error; `fgets` takes the first line from it where the
  buffer has room for it (`fgets_line`, `fgets_last`), and a part of it else (`fgets_part`).
  `LastEntry` names the last element that has a value; a fold in which each element sets what
  it has a value for ends with that one (`foldlM_last`).
-/

import Mathlib.Data.List.Basic

namespace DosMcp.Lib

/-! ## Lines -/

/-- The lines of a text, each with its newline. The last one may have none. -/
def textLines : List Char → List (List Char)
  | [] => []
  | c :: text => if c = '\n' then [c] :: textLines text
    else match textLines text with
      | [] => [[c]]
      | line :: lines => (c :: line) :: lines

theorem textLines_line {line : List Char} (h : '\n' ∉ line) (text : List Char) :
    textLines (line ++ '\n' :: text) = (line ++ ['\n']) :: textLines text := by
  induction line with
  | nil => simp [textLines]
  | cons c line ih =>
    obtain ⟨hc, hline⟩ := not_or.mp (mt List.mem_cons.mpr h)
    rw [List.cons_append, textLines, if_neg (Ne.symm hc), ih hline]
    rfl

theorem textLines_last {line : List Char} (h : '\n' ∉ line) (hne : line ≠ []) : textLines line = [line] := by
  induction line with
  | nil => exact absurd rfl hne
  | cons c line ih =>
    obtain ⟨hc, hline⟩ := not_or.mp (mt List.mem_cons.mpr h)
    rw [textLines, if_neg (Ne.symm hc)]
    cases line with
    | nil => rfl
    | cons d line => rw [ih hline (List.cons_ne_nil d line)]

/-- A text starts with a line, is its last line, or is empty. -/
theorem text_cases (text : List Char) :
    text = [] ∨ (text ≠ [] ∧ '\n' ∉ text) ∨ ∃ line rest, '\n' ∉ line ∧ text = line ++ '\n' :: rest := by
  by_cases hnil : text = []
  · exact Or.inl hnil
  by_cases hmem : '\n' ∈ text
  · obtain ⟨line, rest, e, hline⟩ := List.eq_append_cons_of_mem hmem
    exact Or.inr (Or.inr ⟨line, rest, hline, e⟩)
  · exact Or.inr (Or.inl ⟨hnil, hmem⟩)

/-! ## Streams -/

/-- What `fopen` finds: the characters that a stream on the file delivers, and whether a read
    past them fails. -/
structure TextFile where
  text : List Char
  fails : Bool := false

structure TextStream where
  rest : List Char
  fails : Bool
  eof : Bool := false
  error : Bool := false

namespace TextStream

def ofFile (file : TextFile) : TextStream := { rest := file.text, fails := file.fails }

/-- A read past the last character. -/
def ended (f : TextStream) : TextStream := if f.fails then { f with error := true } else { f with eof := true }

/-- `none` is `EOF`. -/
def fgetc (f : TextStream) : Option Char × TextStream := match f.rest with
  | [] => (none, f.ended)
  | c :: rest => (some c, { f with rest })

/-- At most `n` characters, up to a newline. -/
def readLine : Nat → TextStream → List Char × TextStream
  | 0, f => ([], f)
  | n + 1, f => match f.fgetc with
    | (none, f) => ([], f)
    | (some c, f) =>
      if c = '\n' then ([c], f)
      else
        let (line, f) := readLine n f
        (c :: line, f)

/-- `fgets(line, size, f)`: `none` is a null pointer. -/
def fgets (size : Nat) (f : TextStream) : Option (List Char) × TextStream :=
  let (line, f) := f.readLine (size - 1)
  if line = [] ∨ f.error then (none, f) else (some line, f)

/-- `do ch = fgetc(f); while (ch != '\n' && ch != EOF);`. -/
def skipLine : Nat → TextStream → TextStream
  | 0, f => f
  | fuel + 1, f => match f.fgetc with
    | (none, f) => f
    | (some c, f) => if c = '\n' then f else skipLine fuel f

theorem readLine_line {line : List Char} (h : '\n' ∉ line) {n : Nat} (hn : line.length < n) {f : TextStream} {rest : List Char}
    (hrest : f.rest = line ++ '\n' :: rest) : f.readLine n = (line ++ ['\n'], { f with rest }) := by
  induction line generalizing n f with
  | nil =>
    obtain ⟨m, rfl⟩ : ∃ m, n = m + 1 := ⟨n - 1, by omega⟩
    simp [readLine, fgetc, hrest]
  | cons c line ih =>
    obtain ⟨m, rfl⟩ : ∃ m, n = m + 1 := ⟨n - 1, by omega⟩
    obtain ⟨hc, hline⟩ := not_or.mp (mt List.mem_cons.mpr h)
    rw [List.length_cons] at hn
    simp only [readLine, fgetc, hrest, List.cons_append, if_neg (Ne.symm hc)]
    rw [ih hline (by omega) rfl]

theorem readLine_last {n : Nat} {f : TextStream} (h : '\n' ∉ f.rest) (hn : f.rest.length < n) :
    f.readLine n = (f.rest, { f with rest := [] }.ended) := by
  generalize hrest : f.rest = line at h hn
  induction line generalizing n f with
  | nil =>
    obtain ⟨m, rfl⟩ : ∃ m, n = m + 1 := ⟨n - 1, by omega⟩
    obtain ⟨rest, fails, eof, error⟩ := f
    cases hrest
    rfl
  | cons c line ih =>
    obtain ⟨m, rfl⟩ : ∃ m, n = m + 1 := ⟨n - 1, by omega⟩
    obtain ⟨hc, hline⟩ := not_or.mp (mt List.mem_cons.mpr h)
    rw [List.length_cons] at hn
    simp only [readLine, fgetc, hrest, if_neg (Ne.symm hc)]
    rw [ih rfl hline (by omega)]

theorem readLine_part {line : List Char} (h : '\n' ∉ line) {n : Nat} (hn : line.length = n) {f : TextStream} {rest : List Char}
    (hrest : f.rest = line ++ rest) : f.readLine n = (line, { f with rest }) := by
  induction line generalizing n f with
  | nil =>
    subst hn
    rw [← show f.rest = rest from hrest]
    rfl
  | cons c line ih =>
    obtain ⟨hc, hline⟩ := not_or.mp (mt List.mem_cons.mpr h)
    subst hn
    simp only [List.length_cons, readLine, fgetc, hrest, List.cons_append, if_neg (Ne.symm hc)]
    rw [ih hline rfl rfl]

variable {f : TextStream} {size : Nat}

/-- The buffer has room for the line, its newline and a NUL. -/
theorem fgets_line {line rest : List Char} (h : '\n' ∉ line) (hsize : line.length + 2 ≤ size)
    (hrest : f.rest = line ++ '\n' :: rest) (herror : f.error = false) :
    f.fgets size = (some (line ++ ['\n']), { f with rest }) := by
  rw [fgets, readLine_line h (by omega) hrest]
  simp [herror]

/-- The last line has no newline: it takes a read past it. -/
theorem fgets_last (h : '\n' ∉ f.rest) (hsize : f.rest.length + 1 < size) (herror : f.error = false) :
    f.fgets size = if f.rest = [] ∨ f.fails then (none, { f with rest := [] }.ended) else (some f.rest, { f with rest := [] }.ended) := by
  rw [fgets, readLine_last h (by omega)]
  cases hfails : f.fails <;> simp [ended, herror]

/-- The buffer is full before the line ends. -/
theorem fgets_part {line rest : List Char} (h : '\n' ∉ line) (hsize : line.length + 1 = size) (hne : line ≠ [])
    (hrest : f.rest = line ++ rest) (herror : f.error = false) : f.fgets size = (some line, { f with rest }) := by
  rw [fgets, readLine_part h (by omega) hrest]
  simp [hne, herror]

end TextStream

/-! ## The last value -/

section Last

variable {α β γ σ ε : Type}

/-- `b` is the value of the last element that has one. -/
def LastEntry (Entry : α → β → Prop) (xs : List α) (b : β) : Prop :=
  ∃ before x after, xs = before ++ x :: after ∧ Entry x b ∧ ∀ y ∈ after, ∀ c, ¬ Entry y c

def NoEntry (Entry : α → β → Prop) (xs : List α) : Prop := ∀ x ∈ xs, ∀ b, ¬ Entry x b

variable {Entry : α → β → Prop}

theorem NoEntry.cons {x : α} {xs : List α} (hx : ∀ b, ¬ Entry x b) (h : NoEntry Entry xs) : NoEntry Entry (x :: xs) := by
  intro y hy
  rcases List.mem_cons.mp hy with rfl | hy
  · exact hx
  · exact h y hy

theorem LastEntry.cons {xs : List α} {b : β} (h : LastEntry Entry xs b) (x : α) : LastEntry Entry (x :: xs) b := by
  obtain ⟨before, y, after, rfl, hy, hafter⟩ := h
  exact ⟨x :: before, y, after, rfl, hy, hafter⟩

theorem NoEntry.last {x : α} {xs : List α} {b : β} (hx : Entry x b) (h : NoEntry Entry xs) : LastEntry Entry (x :: xs) b :=
  ⟨[], x, xs, rfl, hx, h⟩

theorem LastEntry.exists {xs : List α} {b : β} (h : LastEntry Entry xs b) : ¬ NoEntry Entry xs := by
  obtain ⟨before, x, after, rfl, hx, -⟩ := h
  intro hno
  exact hno x (by simp) b hx

/-- An element with a value sets what `get` reads to the reading of the value; the others
    leave it. -/
def Sets (Entry : α → β → Prop) (Reads : β → γ → Prop) (step : σ → α → Except ε σ) (get : σ → Option γ) : Prop :=
  ∀ s x s', step s x = .ok s' →
    (∃ b c, Entry x b ∧ Reads b c ∧ get s' = some c) ∨ ((∀ b, ¬ Entry x b) ∧ get s' = get s)

variable {Reads : β → γ → Prop} {step : σ → α → Except ε σ} {get : σ → Option γ}

theorem foldlM_last (hstep : Sets Entry Reads step get) {xs : List α} {s s' : σ} (h : xs.foldlM step s = .ok s') :
    (∃ b c, LastEntry Entry xs b ∧ Reads b c ∧ get s' = some c) ∨ (NoEntry Entry xs ∧ get s' = get s) := by
  induction xs generalizing s with
  | nil =>
    cases h
    exact Or.inr ⟨fun _ hx => absurd hx List.not_mem_nil, rfl⟩
  | cons x xs ih =>
    rw [List.foldlM_cons] at h
    cases hx : step s x with
    | error e =>
      rw [hx] at h
      cases h
    | ok t =>
      rw [hx] at h
      rcases ih h with ⟨b, c, hlast, hreads, hget⟩ | ⟨hno, hget⟩
      · exact Or.inl ⟨b, c, hlast.cons x, hreads, hget⟩
      · rcases hstep s x t hx with ⟨b, c, hentry, hreads, hset⟩ | ⟨hnone, hkept⟩
        · exact Or.inl ⟨b, c, hno.last hentry, hreads, hget.trans hset⟩
        · exact Or.inr ⟨hno.cons hnone, hget.trans hkept⟩

theorem foldlM_keeps {P : σ → Prop} (hstep : ∀ s x s', step s x = .ok s' → P s → P s') {xs : List α} {s s' : σ}
    (h : xs.foldlM step s = .ok s') (hs : P s) : P s' := by
  induction xs generalizing s with
  | nil =>
    cases h
    exact hs
  | cons x xs ih =>
    rw [List.foldlM_cons] at h
    cases hx : step s x with
    | error e =>
      rw [hx] at h
      cases h
    | ok t =>
      rw [hx] at h
      exact ih h (hstep s x t hx hs)

/-- A fold that comes to its end has taken a step at each element. -/
theorem step_of_foldlM {xs : List α} {s s' : σ} (h : xs.foldlM step s = .ok s') : ∀ x ∈ xs, ∃ t t', step t x = .ok t' := by
  induction xs generalizing s with
  | nil => exact fun _ hx => absurd hx List.not_mem_nil
  | cons x xs ih =>
    rw [List.foldlM_cons] at h
    cases hx : step s x with
    | error e =>
      rw [hx] at h
      cases h
    | ok t =>
      rw [hx] at h
      intro y hy
      rcases List.mem_cons.mp hy with rfl | hy
      · exact ⟨s, t, hx⟩
      · exact ih h y hy

/-- A step that is taken has read the value of its element. -/
theorem Sets.reads (hstep : Sets Entry Reads step get) (hunique : ∀ x b b', Entry x b → Entry x b' → b = b') {x : α} {s s' : σ}
    (h : step s x = .ok s') : ∀ b, Entry x b → ∃ c, Reads b c := by
  intro b hb
  rcases hstep s x s' h with ⟨b', c, hb', hreads, -⟩ | ⟨hnone, -⟩
  · rw [hunique x b b' hb hb']
    exact ⟨c, hreads⟩
  · exact absurd hb (hnone b)

end Last

end DosMcp.Lib
