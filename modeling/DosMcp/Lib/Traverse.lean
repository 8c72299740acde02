/-
  DosMcp.Lib.Traverse — fallible computations and maps.

  `bind_eq_ok` peels a fallible computation apart, `mapM_eq_ok_iff` turns a successful
  `mapM` into a pointwise statement; `flatten_slices` puts a byte string cut into blocks together again, and
  `mem_of_nodup_of_length` is the counting argument behind a complete set of indices.
-/

import DosMcp.Lib.Bytes
import Mathlib.Data.List.Perm.Subperm
import Mathlib.Data.List.Nodup

namespace DosMcp.Lib

variable {α β ε : Type}

theorem bind_eq_ok {x : Except ε α} {f : α → Except ε β} {b : β} : x >>= f = .ok b ↔ ∃ a, x = .ok a ∧ f a = .ok b := by
  cases x <;> simp [bind, Except.bind]

theorem mapM_eq_ok_iff {f : α → Except ε β} {as : List α} {bs : List β} :
    as.mapM f = .ok bs ↔ List.Forall₂ (fun a b => f a = .ok b) as bs := by
  induction as generalizing bs with
  | nil =>
    rw [List.mapM_nil, List.forall₂_nil_left_iff]
    exact ⟨fun h => (Except.ok.inj h).symm, fun h => h ▸ rfl⟩
  | cons a as ih =>
    rw [List.mapM_cons, List.forall₂_cons_left_iff]
    cases ha : f a with
    | error e => simp [bind, Except.bind]
    | ok b =>
      cases hr : as.mapM f with
      | error e =>
        have hno : ∀ r, ¬ List.Forall₂ (fun a b => f a = .ok b) as r := fun r h => by
          rw [← ih, hr] at h
          cases h
        simp [bind, Except.bind, hno]
      | ok rest =>
        have hrest := ih.mp hr
        simp only [bind, Except.bind, pure, Except.pure, Except.ok.injEq]
        constructor
        · rintro rfl
          exact ⟨b, rest, rfl, hrest, rfl⟩
        · rintro ⟨b', rest', hb, hrest', rfl⟩
          rw [← ih, hr] at hrest'
          cases hb
          cases hrest'
          rfl

/-- A successful traversal reaches every element, and gives nothing else. -/
theorem mem_of_mapM {f : α → Except ε β} {as : List α} {bs : List β} (h : as.mapM f = .ok bs) :
    (∀ b ∈ bs, ∃ a ∈ as, f a = .ok b) ∧ ∀ a ∈ as, ∃ b ∈ bs, f a = .ok b := by
  have hall := mapM_eq_ok_iff.mp h
  clear h
  induction hall with
  | nil => exact ⟨fun _ hb => absurd hb List.not_mem_nil, fun _ ha => absurd ha List.not_mem_nil⟩
  | cons hab _ ih =>
    refine ⟨fun b hb => ?_, fun a ha => ?_⟩
    · rcases List.mem_cons.mp hb with rfl | hb
      · exact ⟨_, List.mem_cons_self, hab⟩
      · obtain ⟨a, ha, e⟩ := ih.1 b hb
        exact ⟨a, List.mem_cons_of_mem _ ha, e⟩
    · rcases List.mem_cons.mp ha with rfl | ha
      · exact ⟨_, List.mem_cons_self, hab⟩
      · obtain ⟨b, hb, e⟩ := ih.2 a ha
        exact ⟨b, List.mem_cons_of_mem _ hb, e⟩

theorem mapM_isOk {f : α → Except ε β} {as : List α} (h : ∀ a ∈ as, ∃ b, f a = .ok b) : ∃ bs, as.mapM f = .ok bs := by
  induction as with
  | nil => exact ⟨[], rfl⟩
  | cons a as ih =>
    obtain ⟨b, hb⟩ := h a (List.mem_cons_self ..)
    obtain ⟨bs, hbs⟩ := ih fun a ha => h a (List.mem_cons_of_mem _ ha)
    exact ⟨b :: bs, mapM_eq_ok_iff.mpr (.cons hb (mapM_eq_ok_iff.mp hbs))⟩

/-- A list of `n` distinct numbers below `n` contains all of them. -/
theorem mem_of_nodup_of_length {ks : List Nat} {n : Nat} (hnd : ks.Nodup) (hlt : ∀ k ∈ ks, k < n) (hlen : ks.length = n)
    {i : Nat} (hi : i < n) : i ∈ ks := by
  have hsub : ks.Subperm (List.range n) := List.subperm_of_subset hnd fun k hk => List.mem_range.mpr (hlt k hk)
  have hperm : ks.Perm (List.range n) := hsub.perm_of_length_le (by simp [hlen])
  exact hperm.mem_iff.mpr (List.mem_range.mpr hi)

/-- The first `n` blocks of `w` bytes are the first `n * w` bytes. -/
theorem flatten_slices (bs : Bytes) (w n : Nat) :
    ((List.range n).map fun i => slice bs (i * w) w).flatten = bs.take (n * w) := by
  induction n with
  | zero => simp
  | succ n ih =>
    rw [List.range_succ, List.map_append, List.flatten_append, ih, Nat.succ_mul, List.take_add]
    simp [slice]

end DosMcp.Lib
