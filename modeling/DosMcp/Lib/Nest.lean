/-
  DosMcp.Lib.Nest — code that interrupts code: a list of contexts, the running one first,
  each of which finishes before the one below it goes on.

  `fits c below s`: context `c`, with `below` under it, may go on from the machine state `s`.
  `returns c s`: `s` is a state the context below is resumed with when `c` finishes. A nest
  is sound when the running context fits the machine state and every other one fits whatever
  it can be resumed with (`Sound`). One lemma for each way a nest changes: `Sound.push`,
  `Sound.pop`, `Sound.replace`.
-/

namespace DosMcp.Lib.Nest

variable {κ σ : Type} {fits : κ → List κ → σ → Prop} {returns : κ → σ → Prop}

def Sound (fits : κ → List κ → σ → Prop) (returns : κ → σ → Prop) : List κ → σ → Prop
  | [], _ => True
  | c :: below, s => fits c below s ∧ ∀ r, returns c r → Sound fits returns below r

/-- A context is entered; it resumes the interrupted one where it was, or where that one
    may go on as well. -/
theorem Sound.push {c : κ} {nest : List κ} {s : σ} (hfits : fits c nest s)
    (hresume : ∀ r, returns c r → Sound fits returns nest r) : Sound fits returns (c :: nest) s :=
  ⟨hfits, hresume⟩

/-- The running context finishes. -/
theorem Sound.pop {c : κ} {below : List κ} {s r : σ} (h : Sound fits returns (c :: below) s) (hr : returns c r) :
    Sound fits returns below r :=
  h.2 r hr

/-- The running context goes on, or another takes its place. -/
theorem Sound.replace {c c' : κ} {below : List κ} {s s' : σ} (h : Sound fits returns (c :: below) s)
    (hfits : fits c' below s') (hreturns : ∀ r, returns c' r → returns c r) : Sound fits returns (c' :: below) s' :=
  ⟨hfits, fun r hr => h.2 r (hreturns r hr)⟩

/-- Each context of a sound nest fits some state, where every one can finish. -/
theorem Sound.exists_fits (hreturns : ∀ c, ∃ r, returns c r) {c : κ} {above below : List κ} {s : σ}
    (h : Sound fits returns (above ++ c :: below) s) : ∃ r, fits c below r := by
  induction above generalizing s with
  | nil => exact ⟨s, h.1⟩
  | cons d above ih =>
    obtain ⟨r, hr⟩ := hreturns d
    exact ih (h.2 r hr)

end DosMcp.Lib.Nest
