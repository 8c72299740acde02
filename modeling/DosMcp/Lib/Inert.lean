/-
  DosMcp.Lib.Inert — runs of a deterministic system with extra events put in.

  `Padded step inert s events padded` says that `padded` is `events` with events in between,
  each inert in the state in which it is taken. The two runs agree (`Unwinds.run`) as soon as
  one relation is kept by every event on both sides and by an inert event on one side.
-/

namespace DosMcp.Lib.Inert

variable {σ ε : Type} {step : σ → ε → σ} {inert : σ → ε → Prop} {same : σ → σ → Prop}

inductive Padded (step : σ → ε → σ) (inert : σ → ε → Prop) : σ → List ε → List ε → Prop where
  | nil (s : σ) : Padded step inert s [] []
  | keep {s : σ} {events padded : List ε} (e : ε) : Padded step inert (step s e) events padded →
      Padded step inert s (e :: events) (e :: padded)
  /-- An event of the longer run only, inert in the state that run is in. -/
  | insert {s : σ} {events padded : List ε} (e : ε) : inert s e → Padded step inert (step s e) events padded →
      Padded step inert s events (e :: padded)

/-- The unwinding conditions. -/
structure Unwinds (step : σ → ε → σ) (inert : σ → ε → Prop) (same : σ → σ → Prop) : Prop where
  trans : ∀ {s t u}, same s t → same t u → same s u
  keep : ∀ {s t} (e : ε), same s t → same (step s e) (step t e)
  insert : ∀ {t e}, inert t e → same t (step t e)

/-- The runs stay together, by induction on how the events were put in. -/
theorem Unwinds.run (h : Unwinds step inert same) {s t : σ} {events padded : List ε} (hpadded : Padded step inert t events padded)
    (hsame : same s t) : same (events.foldl step s) (padded.foldl step t) := by
  induction hpadded generalizing s with
  | nil => exact hsame
  | keep e _ ih => exact ih (h.keep e hsame)
  | insert e hinert _ ih => exact ih (h.trans hsame (h.insert hinert))

end DosMcp.Lib.Inert
