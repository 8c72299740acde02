/-
  DosMcp.Lib.Cbc — a cipher made of rounds, and the chaining of blocks.

  - `foldl_undo`: rounds are taken back in the opposite order.
  - `Chained`: a step that tells states and blocks apart. `Chained.foldl_ne`: chains over
    messages that differ in one block end in different states.
-/

import Mathlib.Data.List.Basic

namespace DosMcp.Lib

/-! ## Rounds -/

/-- `g` undoes a round of `f` where the state keeps `P`. -/
theorem foldl_undo {σ ι : Type} {P : σ → Prop} {f g : σ → ι → σ} {is : List ι} (hkeeps : ∀ i ∈ is, ∀ s, P s → P (f s i))
    (hundo : ∀ i ∈ is, ∀ s, P s → g (f s i) i = s) {s : σ} (hs : P s) : is.reverse.foldl g (is.foldl f s) = s := by
  induction is generalizing s with
  | nil => rfl
  | cons i is ih =>
    have hrest := ih (fun j hj => hkeeps j (List.mem_cons_of_mem i hj)) (fun j hj => hundo j (List.mem_cons_of_mem i hj))
      (hkeeps i List.mem_cons_self s hs)
    have hfirst : (i :: is).foldl f s = is.foldl f (f s i) := rfl
    rw [List.reverse_cons, List.foldl_append, hfirst, hrest]
    exact hundo i List.mem_cons_self s hs

theorem foldl_keeps {σ ι : Type} {P : σ → Prop} {f : σ → ι → σ} {is : List ι} (hkeeps : ∀ i ∈ is, ∀ s, P s → P (f s i))
    {s : σ} (hs : P s) : P (is.foldl f s) := by
  induction is generalizing s with
  | nil => exact hs
  | cons i is ih =>
    exact ih (fun j hj => hkeeps j (List.mem_cons_of_mem i hj)) (hkeeps i List.mem_cons_self s hs)

/-! ## Chaining -/

/-- A step from states that keep `P` over blocks that keep `Q`: no two states meet on one
    block, and no two blocks take one state to the same state. -/
structure Chained {σ β : Type} (P : σ → Prop) (Q : β → Prop) (step : σ → β → σ) : Prop where
  keeps : ∀ s b, P s → Q b → P (step s b)
  state_inj : ∀ s t b, P s → P t → Q b → step s b = step t b → s = t
  block_inj : ∀ s b c, P s → Q b → Q c → step s b = step s c → b = c

section

variable {σ β : Type} {P : σ → Prop} {Q : β → Prop} {step : σ → β → σ}

theorem Chained.foldl_inj (h : Chained P Q step) {blocks : List β} (hblocks : ∀ b ∈ blocks, Q b) {s t : σ} (hs : P s)
    (ht : P t) (heq : blocks.foldl step s = blocks.foldl step t) : s = t := by
  induction blocks generalizing s t with
  | nil => exact heq
  | cons b blocks ih =>
    have hb := hblocks b List.mem_cons_self
    have hstep := ih (fun c hc => hblocks c (List.mem_cons_of_mem b hc)) (h.keeps s b hs hb) (h.keeps t b ht hb) heq
    exact h.state_inj s t b hs ht hb hstep

/-- Messages that differ in one block. -/
theorem Chained.foldl_ne (h : Chained P Q step) {front back : List β} {b c : β} (hfront : ∀ d ∈ front, Q d)
    (hback : ∀ d ∈ back, Q d) (hb : Q b) (hc : Q c) (hne : b ≠ c) {s : σ} (hs : P s) :
    (front ++ b :: back).foldl step s ≠ (front ++ c :: back).foldl step s := by
  intro heq
  have hmiddle : P (front.foldl step s) := foldl_keeps (fun d hd t ht => h.keeps t d ht (hfront d hd)) hs
  rw [List.foldl_append, List.foldl_append, List.foldl_cons, List.foldl_cons] at heq
  have hstep := h.foldl_inj hback (h.keeps _ b hmiddle hb) (h.keeps _ c hmiddle hc) heq
  exact hne (h.block_inj _ b c hmiddle hb hc hstep)

end

end DosMcp.Lib
