/-
  DosMcp.Server.Terminal — `TerminalBuffer` of `terminal.py`: the ANSI subset the Linux backend
  renders into a grid of cells, and `TextScreen.__post_init__` as `snapshot` runs it.

  Positions are Python's integers and the grids Python's lists, with an IndexError (`Exc.other`)
  where an index is outside. The methods change the buffer as they go: what stands when one
  raises stays.
-/

import DosMcp.Lib.Fallible
import DosMcp.Protocol.Constants

namespace DosMcp.Terminal

open Lib
open Fallible (lift raise modify each)

instance neZero_codePoints : NeZero 0x110000 := ⟨by decide⟩

/-- An element of a Python string, surrogates included. -/
abbrev CodePoint := Fin 0x110000

def ord (c : Char) : CodePoint := Fin.ofNat _ c.toNat

abbrev Text := List CodePoint

/-! ## `str.isdigit` and `int` -/

/-- The digits of a version of Unicode: those of a decimal system, which `int` reads, and the
    others. -/
structure UnicodeDigits where
  decimal : CodePoint → Option Nat
  otherDigit : CodePoint → Bool
  ascii : ∀ i < 10, decimal (Fin.ofNat _ (0x30 + i)) = some i

namespace UnicodeDigits

variable (u : UnicodeDigits)

def isDigit (c : CodePoint) : Bool := (u.decimal c).isSome || u.otherDigit c

/-- `part.isdigit()`. -/
def isdigit (part : Text) : Bool := !part.isEmpty && part.all u.isDigit

/-- `int(part)` for a part of digits; the text of the exception ends with the part. -/
def int (part : Text) : Except Exc Nat :=
  part.foldlM (fun value c => match u.decimal c with
    | some digit => .ok (10 * value + digit)
    | none => .error (.valueError "invalid literal for int() with base 10")) 0

/-- `int(part) if part.isdigit() else 0`. -/
def parameter (part : Text) : Except Exc Nat := if u.isdigit part then u.int part else .ok 0

/-- The zeros of the decimal systems of Unicode 15. -/
def decimalZeros : List Nat :=
  [0x30, 0x660, 0x6F0, 0x7C0, 0x966, 0x9E6, 0xA66, 0xAE6, 0xB66, 0xBE6, 0xC66, 0xCE6, 0xD66, 0xDE6, 0xE50, 0xED0, 0xF20,
    0x1040, 0x1090, 0x17E0, 0x1810, 0x1946, 0x19D0, 0x1A80, 0x1A90, 0x1B50, 0x1BB0, 0x1C40, 0x1C50, 0xA620, 0xA8D0, 0xA900,
    0xA9D0, 0xA9F0, 0xAA50, 0xABF0, 0xFF10, 0x104A0, 0x10D30, 0x11066, 0x110F0, 0x11136, 0x111D0, 0x112F0, 0x11450,
    0x114D0, 0x11650, 0x116C0, 0x11730, 0x118E0, 0x11950, 0x11C50, 0x11D50, 0x11DA0, 0x11F50, 0x16A60, 0x16AC0, 0x16B50,
    0x1D7CE, 0x1D7D8, 0x1D7E2, 0x1D7EC, 0x1D7F6, 0x1E140, 0x1E2F0, 0x1E4F0, 0x1E950, 0x1FBF0]

/-- The runs of its other digits: the first one and how many. -/
def otherDigits : List (Nat × Nat) :=
  [(0xB2, 2), (0xB9, 1), (0x1369, 9), (0x19DA, 1), (0x2070, 1), (0x2074, 6), (0x2080, 10), (0x2460, 9), (0x2474, 9),
    (0x2488, 9), (0x24EA, 1), (0x24F5, 9), (0x24FF, 1), (0x2776, 9), (0x2780, 9), (0x278A, 9), (0x10A40, 4),
    (0x10E60, 9), (0x11052, 9), (0x1F100, 11)]

def unicode15 : UnicodeDigits where
  decimal c := (decimalZeros.find? fun first => first ≤ c.val ∧ c.val < first + 10).map fun first => c.val - first
  otherDigit c := otherDigits.any fun (first, count) => first ≤ c.val ∧ c.val < first + count
  ascii := by decide

end UnicodeDigits

/-! ## Lists -/

/-- Where an index of a list of `length` elements points: a negative one counts from the end. -/
def listIndex (length : Nat) (i : Int) : Option Nat :=
  if 0 ≤ i ∧ i < length then some i.toNat
  else if i < 0 ∧ 0 ≤ i + length then some (i + length).toNat
  else none

/-- `grid[row][column] = value`. -/
def setItem {α : Type} (grid : List (List α)) (row column : Int) (value : α) : Except Exc (List (List α)) :=
  match listIndex grid.length row with
  | none => .error .other
  | some r => match listIndex (grid.getD r []).length column with
    | none => .error .other
    | some c => .ok (grid.modify r fun line => line.set c value)

/-- `grid.pop(0)`. -/
def popFirst {α : Type} : List α → Except Exc (List α)
  | [] => .error .other
  | _ :: rest => .ok rest

def range (start stop : Int) : List Int := (List.range (stop - start).toNat).map fun i : Nat => start + (i : Int)

/-! ## The buffer -/

inductive ParserState where
  | normal
  | escape
  | csi
  | csiDiscard
  | osc
  | oscEscape
  deriving DecidableEq, Repr

structure TerminalBuffer where
  columns : Int
  rows : Int
  chars : List Text
  attrs : List (List Nat)
  row : Int
  column : Int
  visible : Bool
  generation : Nat
  foreground : Nat
  background : Nat
  bold : Bool
  blink : Bool
  state : ParserState
  sequence : Text
  deriving DecidableEq, Repr

/-- `[value] * count`. -/
def filled {α : Type} (value : α) (count : Int) : List α := List.replicate count.toNat value

/-- `__init__`. -/
def TerminalBuffer.init (columns rows : Int) : Except Exc TerminalBuffer :=
  if columns < 1 ∨ rows < 1 then .error (.valueError "terminal dimensions must be positive")
  else .ok
    { columns, rows
      chars := filled (filled (ord ' ') columns) rows
      attrs := filled (filled 0x07 columns) rows
      row := 0, column := 0, visible := true, generation := 0
      foreground := 7, background := 0, bold := false, blink := false
      state := .normal, sequence := [] }

def TerminalBuffer.attribute (t : TerminalBuffer) : Nat :=
  let foreground := t.foreground ||| (if t.bold then 0x08 else 0)
  let background := t.background <<< 4
  foreground ||| background ||| (if t.blink then 0x80 else 0)

abbrev Method := Fallible TerminalBuffer Exc Unit

def self : Fallible TerminalBuffer Exc TerminalBuffer := Fallible.state

def bumpGeneration : Method := modify fun t => { t with generation := t.generation + 1 }

/-- A character and then its attribute are stored in a cell. -/
def setCell (row column : Int) (character : CodePoint) : Method := do
  let t ← self
  let chars ← lift (setItem t.chars row column character)
  modify fun t => { t with chars }
  let t ← self
  let attrs ← lift (setItem t.attrs row column t.attribute)
  modify fun t => { t with attrs }

def lineFeed : Method := do
  modify fun t => { t with row := t.row + 1 }
  let t ← self
  if t.row ≥ t.rows then do
    let chars ← lift (popFirst t.chars)
    modify fun t => { t with chars := chars ++ [filled (ord ' ') t.columns] }
    let attrs ← lift (popFirst t.attrs)
    modify fun t => { t with attrs := attrs ++ [filled t.attribute t.columns] }
    modify fun t => { t with row := t.rows - 1 }
  bumpGeneration

def put (character : CodePoint) : Method := do
  let t ← self
  setCell t.row t.column character
  bumpGeneration
  modify fun t => { t with column := t.column + 1 }
  let t ← self
  if t.column ≥ t.columns then do
    modify fun t => { t with column := 0 }
    lineFeed

def eraseCells (row start stop : Int) : Method := do
  each (range start stop) fun column => setCell row column (ord ' ')
  bumpGeneration

def eraseDisplay (mode : Nat) : Method := do
  let t ← self
  if mode = 2 then each (range 0 t.rows) fun row => eraseCells row 0 t.columns
  else if mode = 1 then do
    each (range 0 t.row) fun row => eraseCells row 0 t.columns
    eraseCells t.row 0 (t.column + 1)
  else do
    eraseCells t.row t.column t.columns
    each (range (t.row + 1) t.rows) fun row => eraseCells row 0 t.columns

def eraseLine (mode : Nat) : Method := do
  let t ← self
  if mode = 2 then eraseCells t.row 0 t.columns
  else if mode = 1 then eraseCells t.row 0 (t.column + 1)
  else eraseCells t.row t.column t.columns

def ansiToDos : List Nat := [0, 4, 2, 6, 1, 5, 3, 7]

/-- The body of the loop of `_sgr`. -/
def sgrCode (code : Nat) (t : TerminalBuffer) : TerminalBuffer :=
  if code = 0 then { t with foreground := 7, background := 0, bold := false, blink := false }
  else if code = 1 then { t with bold := true }
  else if code = 5 then { t with blink := true }
  else if code = 22 then { t with bold := false }
  else if code = 25 then { t with blink := false }
  else if 30 ≤ code ∧ code ≤ 37 then { t with foreground := ansiToDos.getD (code - 30) 0 }
  else if 40 ≤ code ∧ code ≤ 47 then { t with background := ansiToDos.getD (code - 40) 0 }
  else t

def sgr (params : List Nat) : Method := each params fun code => modify (sgrCode code)

/-- `param or 1`. -/
def orOne (param : Nat) : Int := if param = 0 then 1 else param

/-- What a CSI sequence does once its parameters are read. -/
def dispatchCsi (isPrivate : Bool) (params : List Nat) (final : CodePoint) : Method :=
  let first := params.headD 0
  if final = ord 'H' ∨ final = ord 'f' then modify fun t =>
    { t with row := min (max (orOne first - 1) 0) (t.rows - 1)
             column := min (max ((params.getD 1 1 : Nat) - 1 : Int) 0) (t.columns - 1) }
  else if final = ord 'A' then modify fun t => { t with row := max 0 (t.row - orOne first) }
  else if final = ord 'B' then modify fun t => { t with row := min (t.rows - 1) (t.row + orOne first) }
  else if final = ord 'C' then modify fun t => { t with column := min (t.columns - 1) (t.column + orOne first) }
  else if final = ord 'D' then modify fun t => { t with column := max 0 (t.column - orOne first) }
  else if final = ord 'G' then modify fun t => { t with column := min (t.columns - 1) (max 0 (orOne first - 1)) }
  else if final = ord 'd' then modify fun t => { t with row := min (t.rows - 1) (max 0 (orOne first - 1)) }
  else if final = ord 'J' then eraseDisplay first
  else if final = ord 'K' then eraseLine first
  else if final = ord 'm' then sgr params
  else if isPrivate ∧ (final = ord 'h' ∨ final = ord 'l') ∧ 25 ∈ params then
    modify fun t => { t with visible := final = ord 'h' }
  else pure ()

/-- The characters that end a CSI sequence. -/
def isFinal (c : CodePoint) : Bool := ord '@' ≤ c ∧ c ≤ ord '~'

section

variable (u : UnicodeDigits)

/-- The parameters of a sequence: a string splits into one part at least, so `params` is never
    empty. -/
def readParams (raw : Text) : Except Exc (List Nat) :=
  let cleaned := if raw.head? = some (ord '?') then raw.tail else raw
  (cleaned.splitOn (ord ';')).mapM u.parameter

def applyCsi (raw : Text) (final : CodePoint) : Method := do
  let params ← lift (readParams u raw)
  dispatchCsi (raw.head? = some (ord '?')) params final

def normal (character : CodePoint) : Method :=
  if character = 0x1B then modify fun t => { t with state := .escape }
  else if character = 0x0D then modify fun t => { t with column := 0 }
  else if character = 0x0A ∨ character = 0x0B ∨ character = 0x0C then lineFeed
  else if character = 0x08 then modify fun t => { t with column := max 0 (t.column - 1) }
  else if character = 0x09 then modify fun t => { t with column := min (t.columns - 1) ((t.column / 8 + 1) * 8) }
  else if character = 0x07 ∨ character < 0x20 ∨ character = 0x7F then pure ()
  else put character

def escape (character : CodePoint) : Method :=
  if character = ord '[' then modify fun t => { t with state := .csi, sequence := [] }
  else if character = ord ']' then modify fun t => { t with state := .osc, sequence := [] }
  else modify fun t => { t with state := .normal }

def csi (character : CodePoint) : Method := do
  let t ← self
  if isFinal character then do
    modify fun t => { t with sequence := [], state := .normal }
    applyCsi u t.sequence character
  else if t.sequence.length < 64 then modify fun t => { t with sequence := t.sequence ++ [character] }
  else modify fun t => { t with sequence := [], state := .csiDiscard }

/-- The body of the loop of `feed`. -/
def character (c : CodePoint) : Method := do
  let t ← self
  match t.state with
  | .normal => normal c
  | .escape => escape c
  | .csi => csi u c
  | .csiDiscard => if isFinal c then modify fun t => { t with state := .normal } else pure ()
  | .osc =>
    if c = 0x07 then modify fun t => { t with state := .normal }
    else if c = 0x1B then modify fun t => { t with state := .oscEscape }
    else pure ()
  | .oscEscape => modify fun t => { t with state := if c = ord '\\' then .normal else .osc }

def feed (value : Text) : Method :=
  if value.isEmpty then pure ()
  else do
    let before ← self
    each value (character u)
    let t ← self
    if t.generation = before.generation then bumpGeneration else pure ()

end

/-! ## `snapshot` -/

/-- The arguments of a `TextScreen` that its `__post_init__` looks at, and the generation. -/
structure ScreenFields where
  columns : Int
  rows : Int
  text : List Text
  attributes : List (List Nat)
  cursorRow : Int
  cursorColumn : Int
  visible : Bool
  generation : Nat
  deriving DecidableEq, Repr

/-- `TextScreen.__post_init__`. -/
def postInit (f : ScreenFields) : Except Exc Unit := do
  raiseIf (f.columns < 1 ∨ f.rows < 1) (.valueError "screen dimensions must be positive")
  raiseIf (f.text.length ≠ f.rows) (.valueError "screen row count does not match metadata")
  raiseIf (f.attributes.length ≠ f.rows) (.valueError "attribute row count does not match metadata")
  raiseIf (∃ line ∈ f.text, (line.length : Int) ≠ f.columns) (.valueError "text rows must retain exactly columns characters")
  raiseIf (∃ line ∈ f.attributes, (line.length : Int) ≠ f.columns) (.valueError "attribute rows must contain exactly columns cells")
  raiseIf (¬ (0 ≤ f.cursorRow ∧ f.cursorRow < f.rows)) (.valueError "cursor row is outside the screen")
  raiseIf (¬ (0 ≤ f.cursorColumn ∧ f.cursorColumn < f.columns)) (.valueError "cursor column is outside the screen")
  raiseIf (∃ line ∈ f.attributes, ∃ value ∈ line, ¬ value ≤ 0xFF) (.valueError "cell attributes must be bytes")

def TerminalBuffer.screen (t : TerminalBuffer) : ScreenFields :=
  ⟨t.columns, t.rows, t.chars, t.attrs, t.row, t.column, t.visible, t.generation⟩

def snapshot (t : TerminalBuffer) : Except Exc ScreenFields := do
  postInit t.screen
  return t.screen

end DosMcp.Terminal
