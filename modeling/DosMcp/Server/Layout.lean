/-
  DosMcp.Server.Layout — what a plain text looks like on the terminal.

  A line is cut at the right edge into rows (`wrap`), the rows of all the lines stand below each
  other (`layout`), and the screen is the last of them (`window`). A line as long as the screen is
  wide leaves the cursor on a row of its own.

  - `character_shows`: a printable character, and the end of a line, keep `Shows`.
  - `plain_text_shown`: so a new terminal shows the last rows of any plain text.
-/

import DosMcp.Server.Stream
import Mathlib.Data.List.Induction

namespace DosMcp.Terminal

open Lib
open Fallible (lift raise modify each)

/-! ## Rows -/

/-- The rows of a line: full ones, and the one on which the cursor ends. -/
def wrap (columns : Nat) (line : Text) : List Text :=
  (List.range (line.length / columns + 1)).map fun i => (line.drop (i * columns)).take columns

def layout (columns : Nat) (lines : List Text) : List Text := lines.flatMap (wrap columns)

def padded (columns : Nat) (line : Text) : Text := line ++ List.replicate (columns - line.length) (ord ' ')

/-- The last rows, and blank ones below them. -/
def window (columns rows : Nat) (lines : List Text) : List Text :=
  let shown := lines.drop (lines.length - rows)
  (shown ++ List.replicate (rows - shown.length) []).map (padded columns)

abbrev Printable (c : CodePoint) : Prop := 0x20 ≤ c ∧ c ≠ 0x7F

/-- Lines with CR and LF between them. -/
def plain (lines : List Text) : Text := [0x0D, 0x0A].intercalate lines

section

variable {columns rows : Nat} {line current : Text} {c : CodePoint} {above : List Text}

/-- The rows of a line that has its last row at `q`. -/
theorem wrap_eq {q r : Nat} (hlength : line.length = columns * q + r) (hr : r < columns) :
    wrap columns line = ((List.range q).map fun i => (line.drop (i * columns)).take columns) ++ [line.drop (q * columns)] := by
  have hcolumns : 0 < columns := Nat.lt_of_le_of_lt (Nat.zero_le r) hr
  have hq : line.length / columns = q := by
    rw [hlength, Nat.mul_add_div hcolumns, Nat.div_eq_of_lt hr, Nat.add_zero]
  have hlast : (line.drop (q * columns)).length ≤ columns := by
    rw [List.length_drop, hlength, Nat.mul_comm q, Nat.add_sub_cancel_left]
    exact Nat.le_of_lt hr
  rw [wrap, hq, List.range_succ, List.map_append, List.map_singleton, List.take_of_length_le hlast]

theorem wrap_nil (hcolumns : 0 < columns) : wrap columns [] = [[]] := by
  rw [wrap_eq (q := 0) (r := 0) rfl hcolumns, List.drop_nil]
  rfl

/-- The rows before the last are the same with one more character. -/
theorem full_rows_append {q : Nat} (h : columns * q ≤ line.length) :
    ((List.range q).map fun i => ((line ++ [c]).drop (i * columns)).take columns) =
      (List.range q).map fun i => (line.drop (i * columns)).take columns := by
  refine List.map_congr_left fun i hi => ?_
  have hi : i + 1 ≤ q := List.mem_range.mp hi
  have hend : (i + 1) * columns ≤ columns * q := by
    rw [Nat.mul_comm columns]
    exact Nat.mul_le_mul_right columns hi
  rw [Nat.add_mul, Nat.one_mul] at hend
  rw [List.drop_append_of_le_length (by omega), List.take_append_of_le_length]
  rw [List.length_drop]
  omega

/-- A character goes to the last row of the line; where it fills the row, a new one follows. -/
theorem wrap_append (hcolumns : 0 < columns) (line : Text) (c : CodePoint) :
    ∃ full last, wrap columns line = full ++ [last] ∧ last.length = line.length % columns ∧
      wrap columns (line ++ [c]) = if last.length + 1 < columns then full ++ [last ++ [c]] else full ++ [last ++ [c], []] := by
  have hdiv : line.length = columns * (line.length / columns) + line.length % columns := (Nat.div_add_mod _ _).symm
  have hr : line.length % columns < columns := Nat.mod_lt _ hcolumns
  generalize line.length / columns = q at hdiv
  generalize line.length % columns = r at hdiv hr
  have hlength : (line ++ [c]).length = line.length + 1 := List.length_append
  have hq : q * columns ≤ line.length := by
    rw [Nat.mul_comm]
    omega
  have hlast : (line.drop (q * columns)).length = r := by
    rw [List.length_drop, Nat.mul_comm]
    omega
  refine ⟨_, _, wrap_eq hdiv hr, hlast, ?_⟩
  rw [hlast]
  by_cases hfit : r + 1 < columns
  · rw [if_pos hfit, wrap_eq (q := q) (r := r + 1) (by omega) hfit, full_rows_append (by omega),
      List.drop_append_of_le_length hq]
  · have hfull : r + 1 = columns := by omega
    have hrow : (line.drop (q * columns) ++ [c]).length = columns := by
      rw [List.length_append, hlast]
      exact hfull
    have hnext : (line ++ [c]).length = columns * (q + 1) + 0 := by
      rw [Nat.mul_add, Nat.mul_one]
      omega
    have hend : (line ++ [c]).drop ((q + 1) * columns) = [] := List.drop_of_length_le (by rw [hnext, Nat.mul_comm]; rfl)
    rw [if_neg hfit, wrap_eq hnext hcolumns, List.range_succ, List.map_append, full_rows_append (by omega), List.map_singleton,
      List.drop_append_of_le_length hq, List.take_of_length_le (Nat.le_of_eq hrow), hend, List.append_assoc]
    rfl

/-! ## The window -/

theorem padded_length (h : line.length ≤ columns) : (padded columns line).length = columns := by
  rw [padded, List.length_append, List.length_replicate]
  omega

theorem padded_set (h : line.length < columns) (c : CodePoint) :
    (padded columns line).set line.length c = padded columns (line ++ [c]) := by
  obtain ⟨n, hn⟩ := Nat.exists_eq_add_of_lt h
  have hmore : columns - line.length = n + 1 := by omega
  have hless : columns - (line ++ [c]).length = n := by
    rw [List.length_append, List.length_singleton]
    omega
  rw [padded, padded, hmore, hless, List.set_append_right _ _ (Nat.le_refl _), Nat.sub_self, List.replicate_succ,
    List.set_cons_zero, List.append_assoc]
  rfl

/-- The rows of the window around the last one that has been written on. -/
theorem window_snoc (hrows : 0 < rows) (above : List Text) (current : Text) : window columns rows (above ++ [current]) =
    (above.drop (above.length + 1 - rows)).map (padded columns) ++
      padded columns current :: List.replicate (rows - min (above.length + 1) rows) (padded columns []) := by
  have hlength : (above ++ [current]).length = above.length + 1 := List.length_append
  have hdrop : (above ++ [current]).drop (above.length + 1 - rows) = above.drop (above.length + 1 - rows) ++ [current] :=
    List.drop_append_of_le_length (by omega)
  have hcount : rows - (above.drop (above.length + 1 - rows) ++ [current]).length = rows - min (above.length + 1) rows := by
    rw [List.length_append, List.length_drop, List.length_singleton]
    omega
  rw [window, hlength, hdrop, hcount, List.map_append, List.map_append, List.map_replicate, List.append_assoc]
  rfl

theorem modify_append_cons {α : Type} (as bs : List α) (a : α) (f : α → α) :
    (as ++ a :: bs).modify as.length f = as ++ f a :: bs := by
  induction as with
  | nil => rfl
  | cons a' as ih =>
    rw [List.cons_append, List.length_cons, List.modify_succ_cons, ih]
    rfl

theorem modify_eq_self {α : Type} {as : List α} {f : α → α} (h : ∀ a ∈ as, f a = a) (i : Nat) : as.modify i f = as := by
  induction as generalizing i with
  | nil => exact List.modify_nil ..
  | cons a as ih =>
    cases i with
    | zero => rw [List.modify_zero_cons, h a List.mem_cons_self]
    | succ i => rw [List.modify_succ_cons, ih (fun b hb => h b (List.mem_cons_of_mem _ hb)) i]

theorem setItem_eq {α : Type} {grid : List (List α)} {r k : Nat} (hr : r < grid.length) (hk : k < (grid.getD r []).length)
    (value : α) : setItem grid r k value = .ok (grid.modify r fun line => line.set k value) := by
  rw [setItem, listIndex_of_lt (Int.natCast_nonneg r) (Int.ofNat_lt.mpr hr)]
  dsimp only
  rw [Int.toNat_natCast, listIndex_of_lt (Int.natCast_nonneg k) (Int.ofNat_lt.mpr hk), Int.toNat_natCast]

/-- The row of the window on which the cursor is. -/
def cursorRow (rows : Nat) (above : List Text) : Nat := min (above.length + 1) rows - 1

theorem window_set (hrows : 0 < rows) (hcurrent : current.length < columns) (above : List Text) (c : CodePoint) :
    setItem (window columns rows (above ++ [current])) (cursorRow rows above) current.length c =
      .ok (window columns rows (above ++ [current ++ [c]])) := by
  have hprefix : ((above.drop (above.length + 1 - rows)).map (padded columns)).length = cursorRow rows above := by
    rw [List.length_map, List.length_drop, cursorRow]
    omega
  rw [window_snoc hrows, window_snoc hrows, ← padded_set hcurrent, ← hprefix]
  refine (setItem_eq ?_ ?_ c).trans ?_
  · rw [List.length_append, List.length_cons]
    omega
  · rw [List.getD_eq_getElem?_getD, List.getElem?_append_right (Nat.le_refl _), Nat.sub_self, List.getElem?_cons_zero,
      Option.getD_some, padded_length (Nat.le_of_lt hcurrent)]
    exact hcurrent
  · rw [modify_append_cons]

/-- A new row: the first blank one, or the last after all have moved up. -/
theorem window_newline (columns : Nat) (hrows : 0 < rows) (above : List Text) (current : Text) :
    window columns rows ((above ++ [current]) ++ [[]]) =
      if above.length + 1 < rows then window columns rows (above ++ [current])
      else (window columns rows (above ++ [current])).tail ++ [padded columns []] := by
  have hlength : (above ++ [current]).length = above.length + 1 := List.length_append
  rw [window_snoc hrows, window_snoc hrows, hlength]
  by_cases hroom : above.length + 1 < rows
  · have hzero : above.length + 1 - rows = 0 := by omega
    have hzero' : above.length + 1 + 1 - rows = 0 := by omega
    have hblank : rows - min (above.length + 1) rows = rows - min (above.length + 1 + 1) rows + 1 := by omega
    rw [if_pos hroom, hzero, hzero', hblank, List.replicate_succ, List.drop_zero, List.drop_zero, List.map_append,
      List.append_assoc]
    rfl
  · have hfull : rows - min (above.length + 1) rows = 0 := by omega
    have hfull' : rows - min (above.length + 1 + 1) rows = 0 := by omega
    have hdrop : (above ++ [current]).drop (above.length + 1 + 1 - rows) =
        (above.drop (above.length + 1 - rows) ++ [current]).tail := by
      rw [← List.drop_one, ← List.drop_append_of_le_length (by omega), List.drop_drop]
      congr 1
      omega
    rw [if_neg hroom, hfull, hfull', hdrop, List.map_tail, List.map_append, List.replicate_zero, List.map_singleton]

end

/-! ## What is shown -/

/-- The buffer shows the last of the rows `above` and `current`, in the attribute it starts with,
    with the cursor in column `k` of `current`. -/
structure Shows (columns rows : Nat) (above : List Text) (current : Text) (k : Nat) (t : TerminalBuffer) : Prop where
  columns_eq : t.columns = columns
  rows_eq : t.rows = rows
  chars : t.chars = window columns rows (above ++ [current])
  attrs : t.attrs = List.replicate rows (List.replicate columns 0x07)
  row : t.row = cursorRow rows above
  column : t.column = k
  state : t.state = .normal
  colour : t.attribute = 0x07

section

variable {u : UnicodeDigits} {columns rows k : Nat} {above : List Text} {current : Text} {c : CodePoint} {t : TerminalBuffer}

theorem Shows.newer (h : Shows columns rows above current k t) (j : Nat) : Shows columns rows above current k (newer j t) :=
  ⟨h.1, h.2, h.3, h.4, h.5, h.6, h.7, h.8⟩

theorem setItem_attrs {row : Nat} (hrow : row < rows) (hk : k < columns) :
    setItem (List.replicate rows (List.replicate columns 0x07)) row k 0x07 =
      .ok (List.replicate rows (List.replicate columns 0x07)) := by
  refine (setItem_eq (by rw [List.length_replicate]; exact hrow) ?_ 0x07).trans ?_
  · rw [List.getD_eq_getElem?_getD, List.getElem?_replicate, if_pos hrow, Option.getD_some, List.length_replicate]
    exact hk
  · rw [modify_eq_self]
    intro line hline
    rw [List.eq_of_mem_replicate hline, List.set_replicate_self]

theorem popFirst_eq {α : Type} {as : List α} (h : as ≠ []) : popFirst as = .ok as.tail := by
  cases as with
  | nil => exact absurd rfl h
  | cons a as => rfl

/-- The next row, from the first column. -/
theorem lineFeed_shows (hrows : 0 < rows) (h : Shows columns rows above current 0 t) :
    ∃ t', lineFeed t = (.ok (), t') ∧ Shows columns rows (above ++ [current]) [] 0 t' := by
  have hlength : (above ++ [current]).length = above.length + 1 := List.length_append
  have hchars := window_newline columns hrows above current
  by_cases hroom : above.length + 1 < rows
  · have hrow : ¬ t.row + 1 ≥ t.rows := by
      rw [h.row, h.rows_eq, cursorRow]
      omega
    rw [if_pos hroom, ← h.chars] at hchars
    refine ⟨{ t with row := t.row + 1, generation := t.generation + 1 }, ?_, ?_⟩
    · simp only [lineFeed, self, Fallible.bind_apply, Fallible.state_apply, Fallible.modify_apply, hrow, if_false,
        bumpGeneration]
    · refine ⟨h.1, h.2, hchars.symm, h.4, ?_, h.6, h.7, h.8⟩
      show t.row + 1 = _
      rw [h.row, cursorRow, cursorRow, hlength]
      omega
  · have hrow : t.row + 1 ≥ t.rows := by
      rw [h.row, h.rows_eq, cursorRow]
      omega
    have hnonempty : t.chars ≠ [] := by
      rw [h.chars, window_snoc hrows]
      exact List.append_ne_nil_of_right_ne_nil _ (List.cons_ne_nil _ _)
    have hnonempty' : t.attrs ≠ [] := by
      rw [h.attrs]
      exact List.ne_nil_of_length_pos (by rwa [List.length_replicate])
    rw [if_neg hroom, ← h.chars] at hchars
    refine ⟨{ t with chars := t.chars.tail ++ [filled (ord ' ') t.columns], attrs := t.attrs.tail ++ [filled t.attribute t.columns]
                     row := t.rows - 1, generation := t.generation + 1 }, ?_, ?_⟩
    · simp only [lineFeed, self, Fallible.bind_apply, Fallible.state_apply, Fallible.modify_apply, hrow, if_true,
        Fallible.lift_apply, popFirst_eq hnonempty, popFirst_eq hnonempty', bumpGeneration]
      rfl
    · refine ⟨h.1, h.2, ?_, ?_, ?_, h.6, h.7, h.8⟩
      · show t.chars.tail ++ [filled (ord ' ') t.columns] = _
        rw [hchars, h.columns_eq]
        rfl
      · show t.attrs.tail ++ [filled t.attribute t.columns] = _
        obtain ⟨n, rfl⟩ := Nat.exists_eq_add_of_lt hrows
        rw [h.attrs, h.colour, h.columns_eq, Nat.zero_add, filled, Int.toNat_natCast, List.tail_replicate, Nat.add_sub_cancel,
          List.replicate_succ']
      · show t.rows - 1 = _
        rw [h.rows_eq, cursorRow, hlength]
        omega

theorem setCell_shows (hrows : 0 < rows) (hcurrent : current.length < columns) (h : Shows columns rows above current current.length t)
    (c : CodePoint) : ∃ t', setCell t.row t.column c t = (.ok (), t') ∧ Shows columns rows above (current ++ [c]) current.length t' := by
  have hchars : setItem t.chars t.row t.column c = .ok (window columns rows (above ++ [current ++ [c]])) := by
    rw [h.chars, h.row, h.column]
    exact window_set hrows hcurrent above c
  have hcursor : cursorRow rows above < rows := by
    rw [cursorRow]
    omega
  have hattrs : setItem t.attrs t.row t.column t.attribute = .ok t.attrs := by
    rw [h.attrs, h.row, h.column, h.colour]
    exact setItem_attrs hcursor hcurrent
  refine ⟨{ t with chars := window columns rows (above ++ [current ++ [c]]) }, ?_, ⟨h.1, h.2, rfl, h.4, h.5, h.6, h.7, h.8⟩⟩
  have hattrs' : setItem t.attrs t.row t.column
      ({ t with chars := window columns rows (above ++ [current ++ [c]]) } : TerminalBuffer).attribute = .ok t.attrs := hattrs
  simp only [setCell, self, Fallible.bind_apply, Fallible.state_apply, Fallible.lift_apply, Fallible.modify_apply, hchars, hattrs']

/-- A character in the cell of the cursor; the last cell of a row leads to the next row. -/
theorem put_shows (hrows : 0 < rows) (hcurrent : current.length < columns) (h : Shows columns rows above current current.length t)
    (c : CodePoint) : ∃ t', put c t = (.ok (), t') ∧
      if current.length + 1 < columns then Shows columns rows above (current ++ [c]) (current ++ [c]).length t'
      else Shows columns rows (above ++ [current ++ [c]]) [] 0 t' := by
  obtain ⟨s, hset, hs⟩ := setCell_shows hrows hcurrent h c
  have hlength : (current ++ [c]).length = current.length + 1 := List.length_append
  have hcolumn : s.column + 1 = ((current.length + 1 : Nat) : Int) := by
    rw [hs.column]
    rfl
  by_cases hfit : current.length + 1 < columns
  · have hinside : ¬ s.column + 1 ≥ s.columns := by
      rw [hcolumn, hs.columns_eq]
      omega
    refine ⟨{ s with column := s.column + 1, generation := s.generation + 1 }, ?_, ?_⟩
    · simp only [put, self, Fallible.bind_apply, Fallible.state_apply, Fallible.modify_apply, hset, bumpGeneration, hinside, if_false]
      rfl
    · rw [if_pos hfit]
      exact ⟨hs.1, hs.2, hs.3, hs.4, hs.5, by rw [hlength]; exact hcolumn, hs.7, hs.8⟩
  · have hend : s.column + 1 ≥ s.columns := by
      rw [hcolumn, hs.columns_eq]
      omega
    have hstart : Shows columns rows above (current ++ [c]) 0 { s with column := 0, generation := s.generation + 1 } :=
      ⟨hs.1, hs.2, hs.3, hs.4, hs.5, rfl, hs.7, hs.8⟩
    obtain ⟨t', hfeed, hshows⟩ := lineFeed_shows hrows hstart
    refine ⟨t', ?_, ?_⟩
    · simp only [put, self, Fallible.bind_apply, Fallible.state_apply, Fallible.modify_apply, hset, bumpGeneration, hend, if_true]
      exact hfeed
    · rw [if_neg hfit]
      exact hshows

theorem character_normal (hstate : t.state = .normal) (c : CodePoint) : character u c t = normal c t := by
  unfold character
  rw [Fallible.bind_apply]
  dsimp only [self, Fallible.state]
  rw [hstate]

theorem normal_printable (hc : Printable c) : normal c = put c := by
  obtain ⟨hlow, hdel⟩ := hc
  have hcontrol : ¬ c < 0x20 := Fin.not_lt.mpr hlow
  have hne : ∀ d : CodePoint, d < 0x20 → c ≠ d := by
    rintro d hd rfl
    exact hcontrol hd
  rw [normal, if_neg (hne _ (by decide)), if_neg (hne _ (by decide)),
    if_neg (not_or.mpr ⟨hne _ (by decide), not_or.mpr ⟨hne _ (by decide), hne _ (by decide)⟩⟩), if_neg (hne _ (by decide)),
    if_neg (hne _ (by decide)), if_neg (not_or.mpr ⟨hne 0x07 (by decide), not_or.mpr ⟨hcontrol, hdel⟩⟩)]

/-- CR and LF, from any column. -/
theorem newline_shows (hrows : 0 < rows) (h : Shows columns rows above current k t) :
    ∃ t', each [0x0D, 0x0A] (character u) t = (.ok (), t') ∧ Shows columns rows (above ++ [current]) [] 0 t' := by
  have hcr : character u 0x0D t = (.ok (), { t with column := 0 }) := by
    rw [character_normal h.state, normal, if_neg (by decide), if_pos rfl]
    rfl
  have hstart : Shows columns rows above current 0 { t with column := 0 } := ⟨h.1, h.2, h.3, h.4, h.5, rfl, h.7, h.8⟩
  obtain ⟨t', hfeed, hshows⟩ := lineFeed_shows hrows hstart
  have hlf : character u 0x0A { t with column := 0 } = (.ok (), t') := by
    refine (character_normal hstart.state 0x0A).trans ?_
    rw [normal, if_neg (by decide), if_neg (by decide), if_pos (Or.inl rfl)]
    exact hfeed
  refine ⟨t', ?_, hshows⟩
  rw [each, Fallible.bind_apply, hcr]
  dsimp only
  rw [each, Fallible.bind_apply, hlf]
  rfl

/-- A line from the first column of an empty row. -/
theorem line_shows (hcolumns : 0 < columns) (hrows : 0 < rows) (h : Shows columns rows above [] 0 t) (line : Text)
    (hprintable : ∀ c ∈ line, Printable c) :
    ∃ t' full last, each line (character u) t = (.ok (), t') ∧ wrap columns line = full ++ [last] ∧
      last.length = line.length % columns ∧ Shows columns rows (above ++ full) last last.length t' := by
  induction line using List.reverseRecOn with
  | nil => exact ⟨t, [], [], rfl, wrap_nil hcolumns, (Nat.zero_mod _).symm, by rwa [List.append_nil]⟩
  | append_singleton line c ih =>
    obtain ⟨s, full, last, hline, hwrap, hlast, hs⟩ := ih fun d hd => hprintable d (List.mem_append_left _ hd)
    have hshort : last.length < columns := by
      rw [hlast]
      exact Nat.mod_lt _ hcolumns
    obtain ⟨t', hput, hshows⟩ := put_shows hrows hshort hs c
    have hcharacter : character u c s = (.ok (), t') := by
      rw [character_normal hs.state, normal_printable (hprintable c (List.mem_append_right _ List.mem_cons_self)), hput]
    have heach : each (line ++ [c]) (character u) t = (.ok (), t') := by
      rw [Fallible.each_append, Fallible.bind_apply, hline]
      dsimp only
      rw [each, Fallible.bind_apply, hcharacter]
      rfl
    -- the row that the character goes to is the last row of the line
    obtain ⟨full', last', hwrap', hlast', happend⟩ := wrap_append hcolumns line c
    obtain ⟨rfl, hsame⟩ := List.append_inj' (hwrap.symm.trans hwrap') rfl
    cases hsame
    have hmod : (line ++ [c]).length % columns = (last.length + 1) % columns := by
      rw [List.length_append, List.length_singleton, hlast, Nat.mod_add_mod]
    by_cases hfit : last.length + 1 < columns
    · rw [if_pos hfit] at happend hshows
      refine ⟨t', full, last ++ [c], heach, happend, ?_, hshows⟩
      rw [hmod, Nat.mod_eq_of_lt hfit, List.length_append]
      rfl
    · have hfull : last.length + 1 = columns := by omega
      rw [if_neg hfit] at happend hshows
      refine ⟨t', full ++ [last ++ [c]], [], heach, ?_, ?_, ?_⟩
      · rw [happend, List.append_assoc]
        rfl
      · rw [hmod, hfull, Nat.mod_self]
        rfl
      · rw [← List.append_assoc]
        exact hshows

/-- Lines from the first column of an empty row. -/
theorem lines_show (hcolumns : 0 < columns) (hrows : 0 < rows) (line : Text) (lines : List Text)
    (hprintable : ∀ l ∈ line :: lines, ∀ c ∈ l, Printable c) (h : Shows columns rows above [] 0 t) :
    ∃ t' full last, each (plain (line :: lines)) (character u) t = (.ok (), t') ∧ layout columns (line :: lines) = full ++ [last] ∧
      last.length = ((line :: lines).getLast (List.cons_ne_nil _ _)).length % columns ∧
        Shows columns rows (above ++ full) last last.length t' := by
  obtain ⟨s, full, last, hline, hwrap, hlast, hs⟩ := line_shows (u := u) hcolumns hrows h line (hprintable line List.mem_cons_self)
  induction lines generalizing line above t s full last with
  | nil =>
    refine ⟨s, full, last, ?_, ?_, hlast, hs⟩
    · rw [plain, List.intercalate_singleton]
      exact hline
    · rw [layout, List.flatMap_cons, List.flatMap_nil, List.append_nil, hwrap]
  | cons next lines ih =>
    obtain ⟨s', hnewline, hs'⟩ := newline_shows (u := u) hrows hs
    have hprintable' : ∀ l ∈ next :: lines, ∀ c ∈ l, Printable c := fun l hl => hprintable l (List.mem_cons_of_mem _ hl)
    obtain ⟨s'', full', last', hline', hwrap', hlast', hs''⟩ :=
      line_shows (u := u) hcolumns hrows hs' next (hprintable' next List.mem_cons_self)
    obtain ⟨t', full'', last'', heach, hlayout, hend, hshows⟩ := ih next hprintable' hs' s'' full' last' hline' hwrap' hlast' hs''
    refine ⟨t', full ++ [last] ++ full'', last'', ?_, ?_, hend, ?_⟩
    · have hplain : plain (line :: next :: lines) = line ++ ([0x0D, 0x0A] ++ plain (next :: lines)) := by
        rw [plain, List.intercalate_cons_cons, List.append_assoc]
        rfl
      rw [hplain, Fallible.each_append, Fallible.bind_apply, hline]
      dsimp only
      rw [Fallible.each_append, Fallible.bind_apply, hnewline]
      exact heach
    · rw [layout, List.flatMap_cons, hwrap]
      exact (congrArg (full ++ [last] ++ ·) hlayout).trans (List.append_assoc _ _ _).symm
    · rw [← List.append_assoc, ← List.append_assoc]
      exact hshows

/-- A new terminal. -/
theorem init_shows (hcolumns : 0 < columns) (hrows : 0 < rows) :
    ∃ t, TerminalBuffer.init columns rows = .ok t ∧ Shows columns rows [] [] 0 t := by
  have hsmall : ¬ ((columns : Int) < 1 ∨ (rows : Int) < 1) := by omega
  refine ⟨_, if_neg hsmall, rfl, rfl, ?_, rfl, ?_, rfl, rfl, by simp [TerminalBuffer.attribute]⟩
  · obtain ⟨n, rfl⟩ := Nat.exists_eq_add_of_lt hrows
    have hrest : 0 + n + 1 - min (0 + 1) (0 + n + 1) = n := by omega
    rw [List.nil_append]
    refine Eq.trans ?_ (window_snoc hrows [] []).symm
    rw [List.length_nil, hrest]
    show List.replicate (0 + n + 1) _ = _
    rw [Nat.zero_add, List.replicate_succ, List.drop_nil]
    rfl
  · show (0 : Int) = (min (0 + 1) rows - 1 : Nat)
    omega

end

/-- A new terminal shows the last rows of a text of printable lines, and the cursor behind it. -/
theorem plain_text_shown (u : UnicodeDigits) (columns rows : Nat) (hcolumns : 0 < columns) (hrows : 0 < rows) (line : Text)
    (lines : List Text) (hprintable : ∀ l ∈ line :: lines, ∀ c ∈ l, Printable c) :
    ∃ t t', TerminalBuffer.init columns rows = .ok t ∧ feed u (plain (line :: lines)) t = (.ok (), t') ∧
      t'.chars = window columns rows (layout columns (line :: lines)) ∧
      t'.attrs = List.replicate rows (List.replicate columns 0x07) ∧
      t'.row = (min (layout columns (line :: lines)).length rows - 1 : Nat) ∧
      t'.column = (((line :: lines).getLast (List.cons_ne_nil _ _)).length % columns : Nat) := by
  obtain ⟨t, hinit, hblank⟩ := init_shows hcolumns hrows
  obtain ⟨t', full, last, heach, hlayout, hlast, hshows⟩ := lines_show (u := u) hcolumns hrows line lines hprintable hblank
  obtain ⟨k, hfeed⟩ := feed_eq_each (u := u) (plain (line :: lines)) t
  rw [heach] at hfeed
  refine ⟨t, newer k t', hinit, hfeed, ?_, hshows.attrs, ?_, ?_⟩
  · rw [hlayout]
    exact hshows.chars
  · rw [hlayout, List.length_append]
    exact hshows.row
  · rw [← hlast]
    exact hshows.column

/-- Two lines, of which the first is as long as the screen is wide. -/
theorem plain_text_shown_wrapped : ∃ t t', TerminalBuffer.init 3 3 = .ok t ∧
    feed .unicode15 (plain [text ['a', 'b', 'c'], text ['d']]) t = (.ok (), t') ∧
      t'.chars = [text ['a', 'b', 'c'], text [' ', ' ', ' '], text ['d', ' ', ' ']] ∧ t'.row = 2 ∧ t'.column = 1 := by
  have hprintable : ∀ l ∈ [text ['a', 'b', 'c'], text ['d']], ∀ c ∈ l, Printable c := by
    simp only [text, List.map_cons, List.map_nil, List.forall_mem_cons, List.not_mem_nil, false_imp_iff, implies_true, and_true]
    decide
  obtain ⟨t, t', hinit, hfeed, hchars, -, hrow, hcolumn⟩ :=
    plain_text_shown .unicode15 3 3 (by decide) (by decide) (text ['a', 'b', 'c']) [text ['d']] hprintable
  exact ⟨t, t', hinit, hfeed, hchars.trans (by decide +kernel), hrow, hcolumn⟩

end DosMcp.Terminal
