/-
  DosMcp.Server.TerminalProofs — the terminal's representation invariant and what `feed` may do.

  `Later s t`: `t` is valid, of the size of `s`, and no older. Methods that draw leave the
  parser alone (`Draws`). One lemma a method; `feed_cases` is what they come to: `feed` returns
  with a newer buffer, or it completes a CSI sequence whose parameters `int` cannot read.

  - `terminal_invariant`: every buffer that was fed is valid, and `snapshot` accepts it.
  - `feed_returns_iff`: when `feed` returns.
-/

import DosMcp.Lib.Traverse
import DosMcp.Server.Terminal
import Mathlib.Tactic.SplitIfs

namespace DosMcp.Terminal

open Lib
open Fallible (lift raise modify each Returns)

/-! ## Grids -/

/-- `rows` lines of `columns` cells, all in `p`. -/
structure Grid {α : Type} (p : α → Prop) (columns rows : Int) (grid : List (List α)) : Prop where
  length_eq : (grid.length : Int) = rows
  line_length : ∀ line ∈ grid, (line.length : Int) = columns
  cells : ∀ line ∈ grid, ∀ value ∈ line, p value

section

variable {α : Type} {p : α → Prop} {columns rows : Int} {grid : List (List α)} {value : α}

theorem length_filled {count : Int} (h : 0 ≤ count) : ((filled value count).length : Int) = count := by
  simp only [filled, List.length_replicate]
  omega

theorem eq_of_mem_filled {count : Int} {x : α} (h : x ∈ filled value count) : x = value := (List.mem_replicate.mp h).2

theorem Grid.filled (hcolumns : 0 ≤ columns) (hrows : 0 ≤ rows) (hvalue : p value) :
    Grid p columns rows (filled (filled value columns) rows) where
  length_eq := length_filled hrows
  line_length line hline := by
    rw [eq_of_mem_filled hline]
    exact length_filled hcolumns
  cells line hline x hx := by
    rw [eq_of_mem_filled hline] at hx
    rwa [eq_of_mem_filled hx]

theorem listIndex_of_lt {length : Nat} {i : Int} (h0 : 0 ≤ i) (h : i < length) : listIndex length i = some i.toNat :=
  if_pos ⟨h0, h⟩

/-- A cell inside is stored. -/
theorem Grid.setItem (hg : Grid p columns rows grid) {row column : Int} (hrow : 0 ≤ row ∧ row < rows)
    (hcolumn : 0 ≤ column ∧ column < columns) (value : α) (hvalue : p value) :
    ∃ grid', setItem grid row column value = .ok grid' ∧ Grid p columns rows grid' := by
  have hlength := hg.length_eq
  have hr : row.toNat < grid.length := by omega
  have hget : grid.getD row.toNat [] = grid[row.toNat] := by simp [hr]
  have hline : (grid[row.toNat].length : Int) = columns := hg.line_length _ (List.getElem_mem hr)
  refine ⟨grid.modify row.toNat fun line => line.set column.toNat value, ?_, ?_⟩
  · have hindex : listIndex grid.length row = some row.toNat := listIndex_of_lt hrow.1 (by omega)
    have hcell : listIndex grid[row.toNat].length column = some column.toNat := listIndex_of_lt hcolumn.1 (by omega)
    simp only [Terminal.setItem, hindex, hget, hcell]
  · refine ⟨by rw [List.length_modify, hlength], ?_, ?_⟩
    · intro line hmem
      obtain ⟨i, hi, rfl⟩ := List.mem_iff_getElem.mp hmem
      rw [List.getElem_modify]
      split
      · rw [List.length_set]
        exact hg.line_length _ (List.getElem_mem _)
      · exact hg.line_length _ (List.getElem_mem _)
    · intro line hmem x hx
      obtain ⟨i, hi, rfl⟩ := List.mem_iff_getElem.mp hmem
      rw [List.getElem_modify] at hx
      split at hx
      · rcases List.mem_or_eq_of_mem_set hx with hx | rfl
        · exact hg.cells _ (List.getElem_mem _) x hx
        · exact hvalue
      · exact hg.cells _ (List.getElem_mem _) x hx

/-- The first line goes and a new one comes last. -/
theorem Grid.scroll (hg : Grid p columns rows grid) (hrows : 0 < rows) :
    ∃ rest, popFirst grid = .ok rest ∧ ∀ line, (line.length : Int) = columns → (∀ value ∈ line, p value) →
      Grid p columns rows (rest ++ [line]) := by
  have hlength := hg.length_eq
  cases grid with
  | nil =>
    simp only [List.length_nil] at hlength
    omega
  | cons first rest =>
    refine ⟨rest, rfl, fun line hline hcells => ⟨?_, ?_, ?_⟩⟩
    · simp only [List.length_cons] at hlength
      simp only [List.length_append, List.length_singleton]
      omega
    · intro other hother
      rcases List.mem_append.mp hother with h | h
      · exact hg.line_length _ (List.mem_cons_of_mem _ h)
      · rwa [List.mem_singleton.mp h]
    · intro other hother x hx
      rcases List.mem_append.mp hother with h | h
      · exact hg.cells _ (List.mem_cons_of_mem _ h) x hx
      · rw [List.mem_singleton.mp h] at hx
        exact hcells x hx

end

/-! ## The invariant -/

structure TerminalBuffer.Valid (t : TerminalBuffer) : Prop where
  columns_pos : 0 < t.columns
  rows_pos : 0 < t.rows
  chars : Grid (fun _ => True) t.columns t.rows t.chars
  attrs : Grid (· ≤ 0xFF) t.columns t.rows t.attrs
  row : 0 ≤ t.row ∧ t.row < t.rows
  column : 0 ≤ t.column ∧ t.column < t.columns
  foreground_lt : t.foreground < 8
  background_lt : t.background < 8
  sequence_le : t.sequence.length ≤ 64

theorem TerminalBuffer.Valid.attribute_le {t : TerminalBuffer} (h : t.Valid) : t.attribute ≤ 0xFF := by
  have hf : t.foreground < 2 ^ 8 := Nat.lt_trans h.foreground_lt (by decide)
  have hb : t.background <<< 4 < 2 ^ 8 := by
    have hlt := h.background_lt
    rw [Nat.shiftLeft_eq]
    omega
  have hbold : (if t.bold then 0x08 else 0) < 2 ^ 8 := by split <;> decide
  have hblink : (if t.blink then 0x80 else 0) < 2 ^ 8 := by split <;> decide
  exact Nat.le_of_lt_succ (Nat.or_lt_two_pow (Nat.or_lt_two_pow (Nat.or_lt_two_pow hf hbold) hb) hblink)

/-- `t` is what a method may leave of `s`. -/
structure Later (s t : TerminalBuffer) : Prop where
  valid : t.Valid
  columns_eq : t.columns = s.columns
  rows_eq : t.rows = s.rows
  generation_le : s.generation ≤ t.generation

/-- The parser is left as it is. -/
structure Draws (s t : TerminalBuffer) : Prop extends Later s t where
  state_eq : t.state = s.state
  sequence_eq : t.sequence = s.sequence

theorem Later.trans {s t u : TerminalBuffer} (h : Later s t) (h' : Later t u) : Later s u :=
  ⟨h'.valid, h'.columns_eq.trans h.columns_eq, h'.rows_eq.trans h.rows_eq, h.generation_le.trans h'.generation_le⟩

theorem Draws.refl {s : TerminalBuffer} (h : s.Valid) : Draws s s := ⟨⟨h, rfl, rfl, Nat.le_refl _⟩, rfl, rfl⟩

/-! ## Methods that draw -/

variable {s t : TerminalBuffer}

/-- A change of the cursor, the colours or the visibility. -/
theorem Draws.set (h : Draws s t) {row column : Int} {foreground background : Nat} {bold blink visible : Bool}
    (hrow : 0 ≤ row ∧ row < t.rows) (hcolumn : 0 ≤ column ∧ column < t.columns) (hforeground : foreground < 8)
    (hbackground : background < 8) :
    Draws s { t with row, column, foreground, background, bold, blink, visible } where
  valid := ⟨h.valid.columns_pos, h.valid.rows_pos, h.valid.chars, h.valid.attrs, hrow, hcolumn, hforeground, hbackground,
    h.valid.sequence_le⟩
  columns_eq := h.columns_eq
  rows_eq := h.rows_eq
  generation_le := h.generation_le
  state_eq := h.state_eq
  sequence_eq := h.sequence_eq

theorem Draws.move (h : Draws s t) {row column : Int} (hrow : 0 ≤ row ∧ row < t.rows)
    (hcolumn : 0 ≤ column ∧ column < t.columns) : Draws s { t with row, column } :=
  h.set hrow hcolumn h.valid.foreground_lt h.valid.background_lt

theorem returns_bumpGeneration : Returns (Draws s) bumpGeneration := by
  refine Fallible.returns_modify fun t h => ?_
  exact ⟨⟨⟨h.valid.1, h.valid.2, h.valid.3, h.valid.4, h.valid.5, h.valid.6, h.valid.7, h.valid.8, h.valid.9⟩,
    h.columns_eq, h.rows_eq, Nat.le_succ_of_le h.generation_le⟩, h.state_eq, h.sequence_eq⟩

theorem returns_setCell {row column : Int} (c : CodePoint) (hrow : 0 ≤ row ∧ row < s.rows)
    (hcolumn : 0 ≤ column ∧ column < s.columns) : Returns (Draws s) (setCell row column c) := by
  intro t h
  rw [← h.rows_eq] at hrow
  rw [← h.columns_eq] at hcolumn
  obtain ⟨chars, hchars, hgrid⟩ := h.valid.chars.setItem hrow hcolumn c trivial
  obtain ⟨attrs, hattrs, hgrid'⟩ := h.valid.attrs.setItem hrow hcolumn _ h.valid.attribute_le
  refine ⟨(), { t with chars, attrs }, ?_, ?_⟩
  · have hattrs' : setItem t.attrs row column { t with chars }.attribute = .ok attrs := hattrs
    simp only [setCell, self, Fallible.bind_apply, Fallible.state_apply, Fallible.lift_apply, Fallible.modify_apply, hchars,
      hattrs']
  · exact ⟨⟨⟨h.valid.1, h.valid.2, hgrid, hgrid', h.valid.5, h.valid.6, h.valid.7, h.valid.8, h.valid.9⟩, h.columns_eq,
      h.rows_eq, h.generation_le⟩, h.state_eq, h.sequence_eq⟩

theorem returns_lineFeed : Returns (Draws s) lineFeed := by
  intro t h
  have hrow := h.valid.row
  have hcolumns := h.valid.columns_pos
  by_cases hlast : t.row + 1 ≥ t.rows
  · obtain ⟨chars, hchars, hgrid⟩ := h.valid.chars.scroll h.valid.rows_pos
    obtain ⟨attrs, hattrs, hgrid'⟩ := h.valid.attrs.scroll h.valid.rows_pos
    have hblank : Grid (fun _ => True) t.columns t.rows (chars ++ [filled (ord ' ') t.columns]) :=
      hgrid _ (length_filled (by omega)) fun _ _ => trivial
    have hcolour : Grid (· ≤ 0xFF) t.columns t.rows (attrs ++ [filled t.attribute t.columns]) := by
      refine hgrid' _ (length_filled (by omega)) fun value hvalue => ?_
      rw [eq_of_mem_filled hvalue]
      exact h.valid.attribute_le
    have hnext : 0 ≤ t.rows - 1 ∧ t.rows - 1 < t.rows := by omega
    refine ⟨(), { t with chars := chars ++ [filled (ord ' ') t.columns], attrs := attrs ++ [filled t.attribute t.columns]
                         row := t.rows - 1, generation := t.generation + 1 }, ?_, ?_⟩
    · simp only [lineFeed, self, Fallible.bind_apply, Fallible.state_apply, Fallible.modify_apply, hlast, if_true,
        Fallible.lift_apply, hchars, hattrs, bumpGeneration]
      rfl
    · exact ⟨⟨⟨h.valid.1, h.valid.2, hblank, hcolour, hnext, h.valid.6, h.valid.7, h.valid.8, h.valid.9⟩,
        h.columns_eq, h.rows_eq, Nat.le_succ_of_le h.generation_le⟩, h.state_eq, h.sequence_eq⟩
  · have hnext : 0 ≤ t.row + 1 ∧ t.row + 1 < t.rows := by omega
    refine ⟨(), { t with row := t.row + 1, generation := t.generation + 1 }, ?_, ?_⟩
    · simp only [lineFeed, self, Fallible.bind_apply, Fallible.state_apply, Fallible.modify_apply, hlast, if_false,
        bumpGeneration]
    · exact ⟨⟨⟨h.valid.1, h.valid.2, h.valid.3, h.valid.4, hnext, h.valid.6, h.valid.7, h.valid.8, h.valid.9⟩,
        h.columns_eq, h.rows_eq, Nat.le_succ_of_le h.generation_le⟩, h.state_eq, h.sequence_eq⟩

/-- The step to the next column, or to the next line. -/
theorem returns_put (c : CodePoint) : Returns (Draws s) (put c) := by
  intro t h
  have hrow : 0 ≤ t.row ∧ t.row < s.rows := h.rows_eq ▸ h.valid.row
  have hcolumn : 0 ≤ t.column ∧ t.column < s.columns := h.columns_eq ▸ h.valid.column
  obtain ⟨_, u, hcell, hu⟩ := ((returns_setCell c hrow hcolumn).bind fun _ => returns_bumpGeneration) t h
  obtain ⟨_, v, hset, hbump⟩ := Fallible.bind_eq_ok hcell
  have hpos := hu.valid.columns_pos
  have hbounds := hu.valid.column
  simp only [put, self, Fallible.bind_apply, Fallible.state_apply, hset, hbump, Fallible.modify_apply]
  by_cases hend : u.column + 1 ≥ u.columns
  · have hstart : Draws s { u with column := 0 } := hu.move hu.valid.row ⟨Int.le_refl 0, hpos⟩
    obtain ⟨_, w, hfeed, hw⟩ := returns_lineFeed _ hstart
    refine ⟨(), w, ?_, hw⟩
    rw [if_pos hend]
    exact hfeed
  · refine ⟨(), { u with column := u.column + 1 }, ?_, hu.move hu.valid.row ⟨by omega, by omega⟩⟩
    rw [if_neg hend]
    rfl

theorem mem_range {start stop x : Int} (h : x ∈ range start stop) : start ≤ x ∧ x < stop := by
  obtain ⟨i, hi, rfl⟩ := List.mem_map.mp h
  rw [List.mem_range] at hi
  omega

theorem returns_eraseCells {row start stop : Int} (hrow : 0 ≤ row ∧ row < s.rows) (hstart : 0 ≤ start)
    (hstop : stop ≤ s.columns) : Returns (Draws s) (eraseCells row start stop) := by
  refine (Fallible.returns_each fun column hcolumn => ?_).bind fun _ => returns_bumpGeneration
  have hin := mem_range hcolumn
  exact returns_setCell _ hrow ⟨by omega, by omega⟩

/-- Whole lines. -/
theorem returns_eraseLines {start stop : Int} (hstart : 0 ≤ start) (hstop : stop ≤ s.rows) :
    Returns (Draws s) (each (range start stop) fun row => eraseCells row 0 s.columns) := by
  refine Fallible.returns_each fun row hrow => ?_
  have hin := mem_range hrow
  exact returns_eraseCells ⟨by omega, by omega⟩ (Int.le_refl 0) (Int.le_refl _)

theorem returns_eraseDisplay (mode : Nat) : Returns (Draws s) (eraseDisplay mode) := by
  refine Fallible.returns_state_bind fun t h => ?_
  have hrow := h.valid.row
  have hcolumn := h.valid.column
  rw [h.rows_eq] at hrow
  rw [h.columns_eq] at hcolumn
  rw [h.rows_eq, h.columns_eq]
  refine Fallible.returns_ite (fun _ => returns_eraseLines (Int.le_refl 0) (Int.le_refl _)) fun _ => ?_
  refine Fallible.returns_ite (fun _ => ?_) fun _ => ?_
  · exact (returns_eraseLines (Int.le_refl 0) (by omega)).bind fun _ => returns_eraseCells hrow (Int.le_refl 0) (by omega)
  · exact (returns_eraseCells hrow hcolumn.1 (Int.le_refl _)).bind fun _ => returns_eraseLines (by omega) (Int.le_refl _)

theorem returns_eraseLine (mode : Nat) : Returns (Draws s) (eraseLine mode) := by
  refine Fallible.returns_state_bind fun t h => ?_
  have hrow := h.valid.row
  have hcolumn := h.valid.column
  rw [h.rows_eq] at hrow
  rw [h.columns_eq] at hcolumn
  rw [h.columns_eq]
  refine Fallible.returns_ite (fun _ => returns_eraseCells hrow (Int.le_refl 0) (Int.le_refl _)) fun _ => ?_
  refine Fallible.returns_ite (fun _ => returns_eraseCells hrow (Int.le_refl 0) (by omega)) fun _ => ?_
  exact returns_eraseCells hrow hcolumn.1 (Int.le_refl _)

theorem ansiToDos_lt (i : Nat) : ansiToDos.getD i 0 < 8 := by
  by_cases hi : i < ansiToDos.length
  · rw [List.getD_eq_getElem?_getD, List.getElem?_eq_getElem hi]
    exact (by decide : ∀ colour ∈ ansiToDos, colour < 8) _ (List.getElem_mem hi)
  · rw [List.getD_eq_getElem?_getD, List.getElem?_eq_none (Nat.le_of_not_lt hi)]
    decide

theorem returns_sgr (params : List Nat) : Returns (Draws s) (sgr params) := by
  refine Fallible.returns_each fun code _ => Fallible.returns_modify fun t h => ?_
  have hset {foreground background : Nat} {bold blink : Bool} (hf : foreground < 8) (hb : background < 8) :
      Draws s { t with foreground, background, bold, blink } := h.set h.valid.row h.valid.column hf hb
  unfold sgrCode
  split_ifs
  · exact hset (by decide) (by decide)
  · exact hset h.valid.foreground_lt h.valid.background_lt
  · exact hset h.valid.foreground_lt h.valid.background_lt
  · exact hset h.valid.foreground_lt h.valid.background_lt
  · exact hset h.valid.foreground_lt h.valid.background_lt
  · exact hset (ansiToDos_lt _) h.valid.background_lt
  · exact hset h.valid.foreground_lt (ansiToDos_lt _)
  · exact h

theorem orOne_pos (param : Nat) : 1 ≤ orOne param := by
  unfold orOne
  split <;> omega

/-- A move within the column. -/
theorem returns_moveRow {f : TerminalBuffer → Int} (hf : ∀ t, t.Valid → 0 ≤ f t ∧ f t < t.rows) :
    Returns (Draws s) (modify fun t => { t with row := f t } : Method) :=
  Fallible.returns_modify fun t h => h.move (hf t h.valid) h.valid.column

/-- A move within the line. -/
theorem returns_moveColumn {f : TerminalBuffer → Int} (hf : ∀ t, t.Valid → 0 ≤ f t ∧ f t < t.columns) :
    Returns (Draws s) (modify fun t => { t with column := f t } : Method) :=
  Fallible.returns_modify fun t h => h.move h.valid.row (hf t h.valid)

theorem returns_dispatchCsi (isPrivate : Bool) (params : List Nat) (final : CodePoint) :
    Returns (Draws s) (dispatchCsi isPrivate params final) := by
  have hpos := orOne_pos (params.headD 0)
  unfold dispatchCsi
  refine Fallible.returns_ite (fun _ => ?_) fun _ => ?_
  · refine Fallible.returns_modify fun t h => h.move ?_ ?_
    · have hrow := h.valid.row
      omega
    · have hcolumn := h.valid.column
      omega
  refine Fallible.returns_ite (fun _ => returns_moveRow fun t h => ?_) fun _ => ?_
  · have hrow := h.row
    omega
  refine Fallible.returns_ite (fun _ => returns_moveRow fun t h => ?_) fun _ => ?_
  · have hrow := h.row
    omega
  refine Fallible.returns_ite (fun _ => returns_moveColumn fun t h => ?_) fun _ => ?_
  · have hcolumn := h.column
    omega
  refine Fallible.returns_ite (fun _ => returns_moveColumn fun t h => ?_) fun _ => ?_
  · have hcolumn := h.column
    omega
  refine Fallible.returns_ite (fun _ => returns_moveColumn fun t h => ?_) fun _ => ?_
  · have hcolumn := h.column
    omega
  refine Fallible.returns_ite (fun _ => returns_moveRow fun t h => ?_) fun _ => ?_
  · have hrow := h.row
    omega
  refine Fallible.returns_ite (fun _ => returns_eraseDisplay _) fun _ => ?_
  refine Fallible.returns_ite (fun _ => returns_eraseLine _) fun _ => ?_
  refine Fallible.returns_ite (fun _ => returns_sgr params) fun _ => ?_
  refine Fallible.returns_ite (fun _ => ?_) fun _ => Fallible.returns_pure ()
  exact Fallible.returns_modify fun t h =>
    h.set h.valid.row h.valid.column h.valid.foreground_lt h.valid.background_lt

/-! ## The parser -/

/-- The `;`-separated parameters of a sequence. -/
def parts (raw : Text) : List Text := (if raw.head? = some (ord '?') then raw.tail else raw).splitOn (ord ';')

/-- A sequence whose parameters `int` reads: a part of digits only has decimal ones only. -/
def Readable (u : UnicodeDigits) (raw : Text) : Prop :=
  ∀ part ∈ parts raw, u.isdigit part = true → ∀ c ∈ part, (u.decimal c).isSome = true

instance (u : UnicodeDigits) (raw : Text) : Decidable (Readable u raw) :=
  decidable_of_iff ((parts raw).all fun part => !u.isdigit part || part.all fun c => (u.decimal c).isSome) (by
    simp only [Readable, List.all_eq_true, Bool.or_eq_true, Bool.not_eq_true', ← Bool.not_eq_true, ← imp_iff_not_or])

structure Parser where
  state : ParserState
  sequence : Text
  deriving DecidableEq, Repr

def TerminalBuffer.parser (t : TerminalBuffer) : Parser := ⟨t.state, t.sequence⟩

/-- The CSI sequence a character completes. -/
def Parser.completes (p : Parser) (c : CodePoint) : Option Text :=
  if p.state = .csi ∧ isFinal c then some p.sequence else none

/-- Where a character takes the parser. -/
def Parser.next (p : Parser) (c : CodePoint) : Parser := match p.state with
  | .normal => if c = 0x1B then { p with state := .escape } else p
  | .escape =>
    if c = ord '[' then ⟨.csi, []⟩ else if c = ord ']' then ⟨.osc, []⟩ else { p with state := .normal }
  | .csi =>
    if isFinal c then ⟨.normal, []⟩
    else if p.sequence.length < 64 then { p with sequence := p.sequence ++ [c] }
    else ⟨.csiDiscard, []⟩
  | .csiDiscard => if isFinal c then { p with state := .normal } else p
  | .osc => if c = 0x07 then { p with state := .normal } else if c = 0x1B then { p with state := .oscEscape } else p
  | .oscEscape => { p with state := if c = ord '\\' then .normal else .osc }

/-- The CSI sequences a string completes, each with its parameters as collected. -/
def Parser.completed (p : Parser) : Text → List Text
  | [] => []
  | c :: value => (p.completes c).toList ++ (p.next c).completed value

theorem int_ok_iff {u : UnicodeDigits} {part : Text} :
    (∃ value, u.int part = .ok value) ↔ ∀ c ∈ part, (u.decimal c).isSome = true := by
  unfold UnicodeDigits.int
  generalize 0 = start
  induction part generalizing start with
  | nil => exact ⟨fun _ _ hc => absurd hc List.not_mem_nil, fun _ => ⟨start, rfl⟩⟩
  | cons c part ih =>
    rw [List.foldlM_cons, List.forall_mem_cons]
    cases hc : u.decimal c with
    | none =>
      constructor
      · rintro ⟨value, hvalue⟩
        cases hvalue
      · rintro ⟨hsome, -⟩
        cases hsome
    | some digit => exact (ih (10 * start + digit)).trans ⟨fun h => ⟨rfl, h⟩, fun h => h.2⟩

theorem readParams_ok_iff {u : UnicodeDigits} {raw : Text} : (∃ params, readParams u raw = .ok params) ↔ Readable u raw := by
  have hpart : ∀ part, (∃ value, u.parameter part = .ok value) ↔
      (u.isdigit part = true → ∀ c ∈ part, (u.decimal c).isSome = true) := by
    intro part
    rw [UnicodeDigits.parameter]
    split
    · next hdigit => rw [int_ok_iff, forall_prop_of_true hdigit]
    · next hno => exact ⟨fun _ hdigit => absurd hdigit hno, fun _ => ⟨0, rfl⟩⟩
  constructor
  · rintro ⟨params, hparams⟩ part hmem
    obtain ⟨value, -, hvalue⟩ := (mem_of_mapM hparams).2 part hmem
    exact (hpart part).mp ⟨value, hvalue⟩
  · intro h
    exact mapM_isOk fun part hmem => (hpart part).mpr (h part hmem)

/-- `applyCsi` returns where the parameters are readable, and changes nothing where not. -/
theorem applyCsi_cases {u : UnicodeDigits} (raw : Text) (final : CodePoint) (h : s.Valid) :
    (Readable u raw ∧ ∃ t, applyCsi u raw final s = (.ok (), t) ∧ Draws s t) ∨
      ¬ Readable u raw ∧ ∃ e, applyCsi u raw final s = (.error e, s) := by
  simp only [applyCsi, Fallible.bind_apply, Fallible.lift_apply]
  cases hparams : readParams u raw with
  | ok params =>
    obtain ⟨_, t, hcsi, ht⟩ := returns_dispatchCsi (raw.head? = some (ord '?')) params final s (.refl h)
    exact .inl ⟨readParams_ok_iff.mp ⟨params, hparams⟩, t, hcsi, ht⟩
  | error e =>
    refine .inr ⟨fun hread => ?_, e, rfl⟩
    obtain ⟨params, hok⟩ := readParams_ok_iff.mpr hread
    rw [hparams] at hok
    cases hok

/-- Another parser state. -/
theorem TerminalBuffer.Valid.setParser (h : s.Valid) {state : ParserState} {sequence : Text} (hle : sequence.length ≤ 64) :
    Later s { s with state, sequence } :=
  ⟨⟨h.1, h.2, h.3, h.4, h.5, h.6, h.7, h.8, hle⟩, rfl, rfl, Nat.le_refl _⟩

theorem Draws.parser_eq (h : Draws s t) : t.parser = s.parser := by
  rw [TerminalBuffer.parser, h.state_eq, h.sequence_eq]
  rfl

theorem returns_normal {c : CodePoint} (hc : c ≠ 0x1B) : Returns (Draws s) (normal c) := by
  unfold normal
  refine Fallible.returns_ite (fun h => absurd h hc) fun _ => ?_
  refine Fallible.returns_ite (fun _ => returns_moveColumn fun t h => ?_) fun _ => ?_
  · exact ⟨Int.le_refl 0, h.columns_pos⟩
  refine Fallible.returns_ite (fun _ => returns_lineFeed) fun _ => ?_
  refine Fallible.returns_ite (fun _ => returns_moveColumn fun t h => ?_) fun _ => ?_
  · have hcolumn := h.column
    omega
  refine Fallible.returns_ite (fun _ => returns_moveColumn fun t h => ?_) fun _ => ?_
  · have hcolumn := h.column
    omega
  exact Fallible.returns_ite (fun _ => Fallible.returns_pure ()) fun _ => returns_put c

theorem normal_returns (c : CodePoint) (h : s.Valid) (hstate : s.state = .normal) :
    ∃ t, normal c s = (.ok (), t) ∧ Later s t ∧ t.parser = s.parser.next c := by
  have hnext : s.parser.next c = if c = 0x1B then ⟨.escape, s.sequence⟩ else s.parser := by
    simp only [Parser.next, TerminalBuffer.parser, hstate]
  by_cases hc : c = 0x1B
  · rw [hnext, if_pos hc]
    exact ⟨{ s with state := .escape }, by rw [normal, if_pos hc]; rfl, h.setParser h.sequence_le, rfl⟩
  · obtain ⟨_, t, heq, ht⟩ := returns_normal hc s (.refl h)
    rw [hnext, if_neg hc]
    exact ⟨t, heq, ht.toLater, ht.parser_eq⟩

theorem escape_returns (c : CodePoint) (h : s.Valid) (hstate : s.state = .escape) :
    ∃ t, escape c s = (.ok (), t) ∧ Later s t ∧ t.parser = s.parser.next c := by
  simp only [Parser.next, TerminalBuffer.parser, hstate, escape]
  split_ifs
  · exact ⟨{ s with state := .csi, sequence := [] }, rfl, h.setParser (Nat.zero_le _), rfl⟩
  · exact ⟨{ s with state := .osc, sequence := [] }, rfl, h.setParser (Nat.zero_le _), rfl⟩
  · exact ⟨{ s with state := .normal }, rfl, h.setParser h.sequence_le, rfl⟩

/-- What one character does: it is taken in, or it completes a sequence that is not readable,
    which is dropped. -/
inductive Takes (u : UnicodeDigits) (s : TerminalBuffer) (c : CodePoint) : Except Exc Unit × TerminalBuffer → Prop
  | ok (t : TerminalBuffer) : Later s t → t.parser = s.parser.next c →
      (∀ raw, s.parser.completes c = some raw → Readable u raw) → Takes u s c (.ok (), t)
  | error (e : Exc) (raw : Text) : s.parser.completes c = some raw → ¬ Readable u raw →
      Takes u s c (.error e, { s with sequence := [], state := .normal })

theorem csi_takes {u : UnicodeDigits} (c : CodePoint) (h : s.Valid) (hstate : s.state = .csi) :
    Takes u s c (csi u c s) := by
  simp only [csi, self, Fallible.bind_apply, Fallible.state_apply]
  by_cases hfinal : isFinal c = true
  · have hcompletes : s.parser.completes c = some s.sequence := by
      simp only [Parser.completes, TerminalBuffer.parser, hstate, hfinal, and_self, if_true]
    have hclear : Later s { s with sequence := [], state := .normal } := h.setParser (Nat.zero_le 64)
    rw [if_pos hfinal]
    simp only [Fallible.bind_apply, Fallible.modify_apply]
    obtain ⟨hread, t, heq, ht⟩ | ⟨hno, e, heq⟩ := applyCsi_cases (u := u) s.sequence c hclear.valid
    · rw [heq]
      refine .ok t (hclear.trans ht.toLater) ?_ ?_
      · rw [ht.parser_eq]
        simp only [Parser.next, TerminalBuffer.parser, hstate, hfinal, if_true]
      · intro raw hraw
        rw [hcompletes, Option.some.injEq] at hraw
        rwa [← hraw]
    · rw [heq]
      exact .error e s.sequence hcompletes hno
  · have hnone : ∀ raw, s.parser.completes c = some raw → Readable u raw := by
      intro raw hraw
      simp [Parser.completes, hfinal] at hraw
    rw [if_neg hfinal]
    split
    · next hlt =>
      refine .ok { s with sequence := s.sequence ++ [c] } (h.setParser ?_) ?_ hnone
      · rw [List.length_append]
        exact hlt
      · simp only [Parser.next, TerminalBuffer.parser, hstate, hfinal, hlt, if_true, Bool.false_eq_true, if_false]
    · next hfull =>
      refine .ok { s with sequence := [], state := .csiDiscard } (h.setParser (Nat.zero_le _)) ?_ hnone
      simp only [Parser.next, TerminalBuffer.parser, hstate, hfinal, hfull, Bool.false_eq_true, if_false]

theorem character_takes {u : UnicodeDigits} (c : CodePoint) (h : s.Valid) : Takes u s c (character u c s) := by
  have hok (hstate : s.state ≠ .csi) {t : TerminalBuffer} (hlater : Later s t) (hnext : t.parser = s.parser.next c) :
      Takes u s c (.ok (), t) := by
    refine .ok t hlater hnext fun raw hraw => ?_
    simp [Parser.completes, TerminalBuffer.parser, hstate] at hraw
  have hset (hstate : s.state ≠ .csi) {state : ParserState} (hnext : Parser.mk state s.sequence = s.parser.next c) :
      Takes u s c (.ok (), { s with state }) := hok hstate (h.setParser h.sequence_le) hnext
  simp only [character, self, Fallible.bind_apply, Fallible.state_apply]
  cases hstate : s.state with
  | normal =>
    obtain ⟨t, heq, hlater, hnext⟩ := normal_returns c h hstate
    show Takes u s c (normal c s)
    rw [heq]
    exact hok (by simp [hstate]) hlater hnext
  | escape =>
    obtain ⟨t, heq, hlater, hnext⟩ := escape_returns c h hstate
    show Takes u s c (escape c s)
    rw [heq]
    exact hok (by simp [hstate]) hlater hnext
  | csi => exact csi_takes c h hstate
  | csiDiscard =>
    have hnext : s.parser.next c = if isFinal c = true then ⟨.normal, s.sequence⟩ else s.parser := by
      simp only [Parser.next, TerminalBuffer.parser, hstate]
    dsimp only
    split_ifs at hnext ⊢
    · exact hset (by simp [hstate]) hnext.symm
    · exact hok (by simp [hstate]) (Draws.refl h).toLater hnext.symm
  | osc =>
    have hnext : s.parser.next c =
        if c = 0x07 then ⟨.normal, s.sequence⟩ else if c = 0x1B then ⟨.oscEscape, s.sequence⟩ else s.parser := by
      simp only [Parser.next, TerminalBuffer.parser, hstate]
    dsimp only
    split_ifs at hnext ⊢
    · exact hset (by simp [hstate]) hnext.symm
    · exact hset (by simp [hstate]) hnext.symm
    · exact hok (by simp [hstate]) (Draws.refl h).toLater hnext.symm
  | oscEscape =>
    have hnext : s.parser.next c = ⟨if c = ord '\\' then .normal else .osc, s.sequence⟩ := by
      simp only [Parser.next, TerminalBuffer.parser, hstate]
    exact hset (by simp [hstate]) hnext.symm

/-! ## `feed` -/

variable {u : UnicodeDigits}

/-- What a string does to the characters' loop. -/
theorem each_character (value : Text) (h : s.Valid) :
    (∃ t, each value (character u) s = (.ok (), t) ∧ Later s t ∧ ∀ raw ∈ s.parser.completed value, Readable u raw) ∨
      ∃ e t, each value (character u) s = (.error e, t) ∧ Later s t ∧ ∃ raw ∈ s.parser.completed value, ¬ Readable u raw := by
  induction value generalizing s with
  | nil => exact .inl ⟨s, rfl, (Draws.refl h).toLater, fun raw hraw => absurd hraw List.not_mem_nil⟩
  | cons c value ih =>
    have htakes := character_takes (u := u) c h
    rw [each, Fallible.bind_apply]
    rcases hc : character u c s with ⟨_ | _, t⟩
    · rw [hc] at htakes
      cases htakes with
      | error _ raw hraw hno =>
        refine .inr ⟨_, _, rfl, h.setParser (Nat.zero_le 64), raw, ?_, hno⟩
        rw [Parser.completed, hraw]
        exact List.mem_append_left _ (List.mem_singleton_self raw)
    · rw [hc] at htakes
      cases htakes with
      | ok _ hlater hnext hread =>
        have hhead : ∀ raw ∈ (s.parser.completes c).toList, Readable u raw := fun raw hraw =>
          hread raw (by simpa using hraw)
        obtain ⟨t', heq, hlater', hall⟩ | ⟨e, t', heq, hlater', raw, hraw, hno⟩ := ih hlater.valid
        · rw [hnext] at hall
          exact .inl ⟨t', heq, hlater.trans hlater', List.forall_mem_append.mpr ⟨hhead, hall⟩⟩
        · rw [hnext] at hraw
          exact .inr ⟨e, t', heq, hlater.trans hlater', raw, List.mem_append_right _ hraw, hno⟩

/-- `feed` returns with a newer buffer, or it raises at a sequence that is not readable. -/
theorem feed_cases (value : Text) (h : s.Valid) :
    (∃ t, feed u value s = (.ok (), t) ∧ Later s t ∧ (value ≠ [] → s.generation < t.generation) ∧
        ∀ raw ∈ s.parser.completed value, Readable u raw) ∨
      ∃ e t, feed u value s = (.error e, t) ∧ Later s t ∧ ∃ raw ∈ s.parser.completed value, ¬ Readable u raw := by
  cases value with
  | nil =>
    exact .inl ⟨s, rfl, (Draws.refl h).toLater, fun hno => absurd rfl hno, fun raw hraw => absurd hraw List.not_mem_nil⟩
  | cons c value =>
    have hfeed : feed u (c :: value) s = (each (c :: value) (character u) >>= fun _ => self >>= fun t =>
        if t.generation = s.generation then bumpGeneration else pure ()) s := rfl
    rw [hfeed, Fallible.bind_apply]
    obtain ⟨t, heq, hlater, hall⟩ | ⟨e, t, heq, hlater, hno⟩ := each_character (u := u) (c :: value) h
    · rw [heq]
      simp only [self, Fallible.bind_apply, Fallible.state_apply]
      split_ifs with hsame
      · obtain ⟨_, t', hbump, hdraws⟩ := returns_bumpGeneration t (.refl hlater.valid)
        cases hbump
        exact .inl ⟨_, rfl, hlater.trans hdraws.toLater, fun _ => Nat.lt_succ_of_le hlater.generation_le, hall⟩
      · exact .inl ⟨t, rfl, hlater, fun _ => Nat.lt_of_le_of_ne hlater.generation_le (Ne.symm hsame), hall⟩
    · rw [heq]
      exact .inr ⟨e, t, rfl, hlater, hno⟩

/-- The buffers of a size, after any strings were fed, whether `feed` returned or not. -/
inductive Fed (u : UnicodeDigits) (columns rows : Int) : TerminalBuffer → Prop
  | init {t : TerminalBuffer} : TerminalBuffer.init columns rows = .ok t → Fed u columns rows t
  | feed {t : TerminalBuffer} (value : Text) : Fed u columns rows t → Fed u columns rows (feed u value t).2

variable {columns rows : Int}

theorem init_valid (h : TerminalBuffer.init columns rows = .ok t) : t.Valid ∧ t.columns = columns ∧ t.rows = rows := by
  unfold TerminalBuffer.init at h
  split_ifs at h with hsmall
  · cases h
    have hcolumns : 0 < columns := by omega
    have hrows : 0 < rows := by omega
    have hblank : Grid (fun _ : CodePoint => True) columns rows (filled (filled (ord ' ') columns) rows) :=
      .filled hcolumns.le hrows.le trivial
    exact ⟨⟨hcolumns, hrows, hblank, .filled hcolumns.le hrows.le (by decide), ⟨Int.le_refl 0, hrows⟩,
      ⟨Int.le_refl 0, hcolumns⟩, show 7 < 8 by decide, show 0 < 8 by decide, Nat.zero_le _⟩, rfl, rfl⟩

theorem feed_later (value : Text) (h : s.Valid) : Later s (feed u value s).2 := by
  obtain ⟨t, heq, hlater, -⟩ | ⟨e, t, heq, hlater, -⟩ := feed_cases (u := u) value h
  · rw [heq]
    exact hlater
  · rw [heq]
    exact hlater

theorem Fed.valid (h : Fed u columns rows t) : t.Valid ∧ t.columns = columns ∧ t.rows = rows := by
  induction h with
  | init hinit => exact init_valid hinit
  | feed value _ ih =>
    have hlater := feed_later (u := u) value ih.1
    exact ⟨hlater.valid, hlater.columns_eq.trans ih.2.1, hlater.rows_eq.trans ih.2.2⟩

theorem postInit_eq_ok {f : ScreenFields} : postInit f = .ok () ↔
    (1 ≤ f.columns ∧ 1 ≤ f.rows) ∧ f.text.length = f.rows ∧ f.attributes.length = f.rows ∧
      (∀ line ∈ f.text, (line.length : Int) = f.columns) ∧ (∀ line ∈ f.attributes, (line.length : Int) = f.columns) ∧
      (0 ≤ f.cursorRow ∧ f.cursorRow < f.rows) ∧ (0 ≤ f.cursorColumn ∧ f.cursorColumn < f.columns) ∧
      ∀ line ∈ f.attributes, ∀ value ∈ line, value ≤ 0xFF := by
  simp only [postInit, bind_eq_ok, raiseIf_eq_ok, exists_const, not_or, Int.not_lt, ne_eq, not_not, not_exists, not_and,
    Classical.not_imp, Int.not_le]

/-- `__post_init__` accepts the screen of a valid buffer. -/
theorem snapshot_eq_ok (h : t.Valid) : snapshot t = .ok t.screen := by
  have hcheck : postInit t.screen = .ok () :=
    postInit_eq_ok.mpr ⟨⟨h.columns_pos, h.rows_pos⟩, h.chars.length_eq, h.attrs.length_eq, h.chars.line_length,
      h.attrs.line_length, h.row, h.column, h.attrs.cells⟩
  rw [snapshot, hcheck]
  rfl

/-- Whatever is fed: the grids keep their shape, the cursor stays inside, the attributes are
    bytes, the collected sequence is bounded, a feed of a nonempty string that returns makes the
    buffer newer, and `snapshot` returns. -/
theorem terminal_invariant (h : Fed u columns rows t) :
    t.Valid ∧ t.columns = columns ∧ t.rows = rows ∧ t.attribute ≤ 0xFF ∧
      (∀ value t', value ≠ [] → feed u value t = (.ok (), t') → t.generation < t'.generation) ∧
      ∃ screen, snapshot t = .ok screen := by
  obtain ⟨hvalid, hcolumns, hrows⟩ := h.valid
  refine ⟨hvalid, hcolumns, hrows, hvalid.attribute_le, ?_, t.screen, snapshot_eq_ok hvalid⟩
  intro value t' hvalue hfeed
  obtain ⟨t'', heq, -, hlt, -⟩ | ⟨e, t'', heq, -⟩ := feed_cases (u := u) value hvalid
  · rw [hfeed] at heq
    cases heq
    exact hlt hvalue
  · rw [hfeed] at heq
    cases heq

/-- An empty screen of two lines of eight cells. -/
def blank : TerminalBuffer where
  columns := 8
  rows := 2
  chars := filled (filled (ord ' ') 8) 2
  attrs := filled (filled 0x07 8) 2
  row := 0
  column := 0
  visible := true
  generation := 0
  foreground := 7
  background := 0
  bold := false
  blink := false
  state := .normal
  sequence := []

theorem blank_fed (u : UnicodeDigits) : Fed u 8 2 blank := .init rfl

/-- A red letter, the cursor to the last cell and two more letters, which scroll the screen. -/
def redText : Text := [0x1B, ord '[', ord '3', ord '1', ord 'm', ord 'R', 0x1B, ord '[', ord '2', ord ';', ord '8', ord 'H',
  ord 'X', ord 'Y']

theorem redText_valid : ∃ t, feed .unicode15 redText blank = (.ok (), t) ∧ t.row = 1 ∧ t.column = 1 ∧ t.attribute = 4 ∧
    t.Valid ∧ ∃ screen, snapshot t = .ok screen := by
  have hreturns : (feed .unicode15 redText blank).1 = .ok () := by decide +kernel
  obtain ⟨hvalid, -, -, -, -, hscreen⟩ := terminal_invariant (.feed redText (blank_fed .unicode15))
  exact ⟨_, Prod.ext hreturns rfl, by decide +kernel, by decide +kernel, by decide +kernel, hvalid, hscreen⟩

/-- `feed` returns unless it completes a sequence with a parameter of digits that `int` refuses. -/
theorem feed_returns_iff (h : Fed u columns rows t) (value : Text) :
    (∃ t', feed u value t = (.ok (), t')) ↔ ∀ raw ∈ t.parser.completed value, Readable u raw := by
  obtain ⟨t', heq, -, -, hall⟩ | ⟨e, t', heq, -, raw, hraw, hno⟩ := feed_cases (u := u) value h.valid.1
  · exact ⟨fun _ => hall, fun _ => ⟨t', heq⟩⟩
  · constructor
    · rintro ⟨t'', hfeed⟩
      rw [heq] at hfeed
      cases hfeed
    · intro hall
      exact absurd (hall raw hraw) hno

theorem redText_returns : ∃ t', feed .unicode15 redText blank = (.ok (), t') :=
  (feed_returns_iff (blank_fed .unicode15) redText).mpr (by decide +kernel)

/-- `ESC [ ² m`: the superscript two is a digit that `int` refuses. -/
def superscript : Text := [0x1B, ord '[', ord '²', ord 'm']

theorem superscript_raises : Fed .unicode15 8 2 blank ∧ (feed .unicode15 superscript blank).1 =
    .error (.valueError "invalid literal for int() with base 10") :=
  ⟨blank_fed .unicode15, by decide +kernel⟩

end DosMcp.Terminal
