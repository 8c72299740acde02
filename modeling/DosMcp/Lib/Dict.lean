/-
  DosMcp.Lib.Dict — an insertion-ordered dictionary.

  Entries keep the order in which their keys first appeared: a store under a present
  key replaces the value where it stands, a store under a new key goes to the end, and
  the front entry is the oldest (what `next(iter(d))` names). Each key occurs once
  (`Unique`), which every operation keeps.
-/

import Mathlib.Data.List.Basic
import Mathlib.Data.List.Nodup

namespace DosMcp.Lib

abbrev Dict (α β : Type) := List (α × β)

namespace Dict

variable {α β : Type} [DecidableEq α]

def get? : Dict α β → α → Option β
  | [], _ => none
  | (k, v) :: d, a => if k = a then some v else get? d a

def set : Dict α β → α → β → Dict α β
  | [], a, b => [(a, b)]
  | (k, v) :: d, a, b => if k = a then (k, b) :: d else (k, v) :: set d a b

def erase : Dict α β → α → Dict α β
  | [], _ => []
  | (k, v) :: d, a => if k = a then d else (k, v) :: erase d a

def keys (d : Dict α β) : List α := d.map Prod.fst

def values (d : Dict α β) : List β := d.map Prod.snd

def has (d : Dict α β) (a : α) : Bool := (d.get? a).isSome

def Unique (d : Dict α β) : Prop := d.keys.Nodup

theorem get?_eq_none_iff {d : Dict α β} {a : α} : d.get? a = none ↔ a ∉ d.keys := by
  induction d with
  | nil => simp [get?, keys]
  | cons e d ih =>
    obtain ⟨k, v⟩ := e
    simp only [keys] at ih
    by_cases h : k = a
    · simp [get?, keys, h]
    · simp [get?, keys, h, ih, Ne.symm h]

theorem has_iff {d : Dict α β} {a : α} : d.has a = true ↔ a ∈ d.keys := by
  rw [has, ← Option.not_isNone, Bool.not_eq_true', ← Bool.not_eq_true, Option.isNone_iff_eq_none, get?_eq_none_iff,
    not_not]

theorem mem_of_get? {d : Dict α β} {a : α} {b : β} (h : d.get? a = some b) : (a, b) ∈ d := by
  induction d with
  | nil => simp [get?] at h
  | cons e d ih =>
    obtain ⟨k, v⟩ := e
    by_cases e : k = a
    · simp [get?, e] at h; subst e h; exact List.mem_cons_self
    · simp only [get?, e, if_false] at h; exact List.mem_cons_of_mem _ (ih h)

@[simp] theorem get?_set_same (d : Dict α β) (a : α) (b : β) : (d.set a b).get? a = some b := by
  induction d with
  | nil => simp [set, get?]
  | cons e d ih =>
    obtain ⟨k, v⟩ := e
    by_cases h : k = a <;> simp [set, get?, h, ih]

theorem get?_set_ne (d : Dict α β) {a c : α} (b : β) (h : c ≠ a) : (d.set a b).get? c = d.get? c := by
  induction d with
  | nil => simp [set, get?, Ne.symm h]
  | cons e d ih =>
    obtain ⟨k, v⟩ := e
    by_cases hk : k = a
    · simp [set, get?, hk, Ne.symm h]
    · by_cases hc : k = c
      · subst hc; simp [set, get?, hk]
      · simp [set, get?, hk, hc, ih]

/-- A store keeps every other entry and adds at most its own key. -/
theorem mem_set {d : Dict α β} {a : α} {b : β} {e : α × β} (h : e ∈ d.set a b) : e ∈ d ∨ e = (a, b) := by
  induction d with
  | nil => simp [set] at h; exact Or.inr h
  | cons x d ih =>
    obtain ⟨k, v⟩ := x
    by_cases hk : k = a
    · simp only [set, hk, if_true, List.mem_cons] at h
      rcases h with h | h
      · exact Or.inr h
      · exact Or.inl (List.mem_cons_of_mem _ h)
    · simp only [set, hk, if_false, List.mem_cons] at h
      rcases h with h | h
      · exact Or.inl (h ▸ List.mem_cons_self)
      · rcases ih h with h | h
        · exact Or.inl (List.mem_cons_of_mem _ h)
        · exact Or.inr h

theorem mem_set_of_ne {d : Dict α β} {a : α} (b : β) {e : α × β} (h : e ∈ d) (hne : e.1 ≠ a) : e ∈ d.set a b := by
  induction d with
  | nil => cases h
  | cons x d ih =>
    obtain ⟨k, v⟩ := x
    simp only [set]
    rcases List.mem_cons.mp h with rfl | h
    · rw [if_neg hne]
      exact List.mem_cons_self
    · split
      · exact List.mem_cons_of_mem _ h
      · exact List.mem_cons_of_mem _ (ih h)

theorem get?_of_mem {d : Dict α β} (hd : d.Unique) {a : α} {b : β} (h : (a, b) ∈ d) : d.get? a = some b := by
  induction d with
  | nil => cases h
  | cons x d ih =>
    obtain ⟨k, v⟩ := x
    obtain ⟨hk, hd'⟩ := List.nodup_cons.mp (show (k :: keys d).Nodup from hd)
    rcases List.mem_cons.mp h with heq | h
    · cases heq
      simp [get?]
    · have hne : k ≠ a := by
        rintro rfl
        exact hk (List.mem_map.mpr ⟨_, h, rfl⟩)
      rw [get?, if_neg hne]
      exact ih hd' h

theorem mem_of_mem_erase {d : Dict α β} {a : α} {e : α × β} (h : e ∈ d.erase a) : e ∈ d := by
  induction d with
  | nil => cases h
  | cons x d ih =>
    obtain ⟨k, v⟩ := x
    by_cases hk : k = a
    · simp only [erase, hk, if_true] at h; exact List.mem_cons_of_mem _ h
    · simp only [erase, hk, if_false, List.mem_cons] at h
      rcases h with h | h
      · exact h ▸ List.mem_cons_self
      · exact List.mem_cons_of_mem _ (ih h)

theorem keys_set_of_mem {d : Dict α β} {a : α} {b : β} (h : a ∈ d.keys) : (d.set a b).keys = d.keys := by
  induction d with
  | nil => simp [keys] at h
  | cons x d ih =>
    obtain ⟨k, v⟩ := x
    by_cases hk : k = a
    · simp [set, keys, hk]
    · have h' : a ∈ keys d := by simpa [keys, Ne.symm hk] using h
      simpa [set, keys, hk] using ih h'

theorem keys_set_of_not_mem {d : Dict α β} {a : α} {b : β} (h : a ∉ d.keys) : (d.set a b).keys = d.keys ++ [a] := by
  induction d with
  | nil => rfl
  | cons x d ih =>
    obtain ⟨k, v⟩ := x
    have hk : k ≠ a := by rintro rfl; simp [keys] at h
    have h' : a ∉ keys d := by intro hm; exact h (by simpa [keys] using Or.inr hm)
    simpa [set, keys, hk] using ih h'

theorem mem_keys_set {d : Dict α β} {a c : α} {b : β} : c ∈ (d.set a b).keys ↔ c ∈ d.keys ∨ c = a := by
  by_cases h : a ∈ d.keys
  · rw [keys_set_of_mem h]
    exact ⟨Or.inl, fun hc => hc.elim id fun e => e ▸ h⟩
  · rw [keys_set_of_not_mem h, List.mem_append, List.mem_singleton]

theorem set_of_not_mem {d : Dict α β} {a : α} {b : β} (h : a ∉ d.keys) : d.set a b = d ++ [(a, b)] := by
  induction d with
  | nil => rfl
  | cons e d ih =>
    obtain ⟨k, v⟩ := e
    have hk : k ≠ a := fun hk => h (by simp [keys, hk])
    have hrest : a ∉ keys d := fun hr => h (List.mem_cons_of_mem _ hr)
    rw [set, if_neg hk, ih hrest]
    rfl

theorem unique_set {d : Dict α β} (hd : d.Unique) (a : α) (b : β) : (d.set a b).Unique := by
  unfold Unique
  by_cases h : a ∈ d.keys
  · rw [keys_set_of_mem h]; exact hd
  · rw [keys_set_of_not_mem h]
    exact List.nodup_append.mpr ⟨hd, List.nodup_singleton a, fun x hx y hy e => h (by
      rw [List.mem_singleton] at hy; subst hy e; exact hx)⟩

theorem keys_erase_sublist (d : Dict α β) (a : α) : (d.erase a).keys.Sublist d.keys := by
  induction d with
  | nil => exact List.Sublist.refl _
  | cons x d ih =>
    obtain ⟨k, v⟩ := x
    by_cases hk : k = a
    · simp [erase, keys, hk]
    · simp only [erase, hk, if_false, keys, List.map_cons]; exact List.Sublist.cons_cons _ ih

end Dict

end DosMcp.Lib
