/-
  DosMcp.Lib.Handoff — a slot for one item that is handed from a producer to a consumer: the
  producer is granted the slot for an item and completes it, the consumer releases it.

  A system whose steps each do to its slot what a slot does (`Step`) goes through a trace of
  it, and a trace from the empty slot is a sequence of whole rounds, one for each item, and
  the part of the next round that has begun (`Trace.rounds`).
-/

import Mathlib.Data.List.Basic

namespace DosMcp.Lib.Handoff

inductive Event (α : Type) where
  | granted (item : α)
  | completed (item : α)
  | released
  deriving DecidableEq, Repr

inductive Slot (α : Type) where
  | empty
  | filling (item : α)
  | full (item : α)
  deriving DecidableEq, Repr

variable {α : Type}

/-- All that happens to the slot with one item. -/
def round (item : α) : List (Event α) := [.granted item, .completed item, .released]

/-- The part of a round that has happened. -/
def Slot.begun : Slot α → List (Event α)
  | empty => []
  | filling item => [.granted item]
  | full item => [.granted item, .completed item]

inductive Step : Slot α → List (Event α) → Slot α → Prop
  | stay (s : Slot α) : Step s [] s
  | grant (item : α) : Step .empty [.granted item] (.filling item)
  | complete (item : α) : Step (.filling item) [.completed item] (.full item)
  | release (item : α) : Step (.full item) [.released] .empty

inductive Trace (start : Slot α) : List (Event α) → Slot α → Prop
  | refl : Trace start [] start
  | step {log events : List (Event α)} {s t : Slot α} : Trace start log s → Step s events t →
      Trace start (log ++ events) t

theorem Trace.rounds {log : List (Event α)} {s : Slot α} (h : Trace .empty log s) :
    ∃ items : List α, log = items.flatMap round ++ s.begun := by
  induction h with
  | refl => exact ⟨[], rfl⟩
  | step _ hs ih =>
    obtain ⟨items, rfl⟩ := ih
    cases hs with
    | stay => exact ⟨items, by simp⟩
    | grant item => exact ⟨items, by simp [Slot.begun]⟩
    | complete item => exact ⟨items, by simp [Slot.begun]⟩
    | release item => exact ⟨items ++ [item], by simp [Slot.begun, round]⟩

end DosMcp.Lib.Handoff
