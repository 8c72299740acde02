/-
  DosMcp.Lib.Holding — which handles of a store a program has open.

  A program that opens files in a store it shares gets the handles from `base` on; the ones
  below it are those of others. `Holding` says that of its own handles at most `held` is open,
  on a file that `allowed` names, and that the others are as they were. Every call keeps it,
  with what the call does to `held`.
-/

import DosMcp.Lib.Files

namespace DosMcp.Lib.Store

structure Holding (base : Nat) (others : Nat → Option Handle) (allowed : Bytes → Prop) (held : Option Nat) (s : Store) :
    Prop where
  kept : ∀ i < base, s.handles i = others i
  base_le : base ≤ s.nextHandle
  owned : ∀ i, held = some i → base ≤ i ∧ i < s.nextHandle
  closed : ∀ i, base ≤ i → held ≠ some i → s.handles i = none
  names : ∀ i h, held = some i → s.handles i = some h → allowed h.name

section

variable {base : Nat} {others : Nat → Option Handle} {allowed : Bytes → Prop} {held : Option Nat} {s : Store}

/-- A store that has given out the handles below its next one, and no other. -/
theorem holding_start (hclosed : ∀ i, s.nextHandle ≤ i → s.handles i = none) :
    s.Holding s.nextHandle s.handles allowed none where
  kept := fun _ _ => rfl
  base_le := Nat.le_refl _
  owned := by simp
  closed := fun i hi _ => hclosed i hi
  names := by simp

namespace Holding

theorem congr (h : s.Holding base others allowed held) {t : Store} (hhandles : t.handles = s.handles)
    (hnext : t.nextHandle = s.nextHandle) : t.Holding base others allowed held where
  kept := fun i hi => by rw [hhandles, h.kept i hi]
  base_le := by rw [hnext]; exact h.base_le
  owned := fun i hi => by rw [hnext]; exact h.owned i hi
  closed := fun i hi hne => by rw [hhandles, h.closed i hi hne]
  names := fun i handle hi hat => h.names i handle hi (hhandles ▸ hat)

theorem mono (h : s.Holding base others allowed held) {wider : Bytes → Prop} (hle : ∀ n, allowed n → wider n) :
    s.Holding base others wider held where
  kept := h.kept
  base_le := h.base_le
  owned := h.owned
  closed := h.closed
  names := fun i handle hi hat => hle _ (h.names i handle hi hat)

/-- With no file open, nothing is said about the names. -/
theorem none_any (h : s.Holding base others allowed none) (other : Bytes → Prop) : s.Holding base others other none where
  kept := h.kept
  base_le := h.base_le
  owned := h.owned
  closed := h.closed
  names := by simp

/-- The next handle, given out for an allowed file. -/
theorem attach (h : s.Holding base others allowed none) {name : Bytes} (hname : allowed name) :
    (s.attach name).Holding base others allowed (some s.nextHandle) where
  kept := fun i hi => by
    have hne : i ≠ s.nextHandle := Nat.ne_of_lt (Nat.lt_of_lt_of_le hi h.base_le)
    rw [attach_handles, Function.update_of_ne hne, h.kept i hi]
  base_le := Nat.le_succ_of_le h.base_le
  owned := by
    intro i hi
    cases hi
    exact ⟨h.base_le, Nat.lt_succ_self _⟩
  closed := fun i hi hne => by
    have hother : i ≠ s.nextHandle := fun heq => hne (heq ▸ rfl)
    rw [attach_handles, Function.update_of_ne hother, h.closed i hi (by simp)]
  names := by
    intro i handle hi hat
    cases hi
    rw [attach_handles, Function.update_self] at hat
    cases hat
    exact hname

/-- The open handle moves, or is closed. -/
theorem setHandle {i : Nat} (h : s.Holding base others allowed (some i)) {handle : Option Handle}
    (hname : ∀ moved, handle = some moved → allowed moved.name) :
    (s.setHandle i handle).Holding base others allowed (some i) where
  kept := fun j hj => by
    have hne : j ≠ i := Nat.ne_of_lt (Nat.lt_of_lt_of_le hj (h.owned i rfl).1)
    rw [setHandle_handles, Function.update_of_ne hne, h.kept j hj]
  base_le := h.base_le
  owned := h.owned
  closed := fun j hj hne => by
    have hother : j ≠ i := fun heq => hne (heq ▸ rfl)
    rw [setHandle_handles, Function.update_of_ne hother, h.closed j hj hne]
  names := by
    intro j moved hj hat
    cases hj
    rw [setHandle_handles, Function.update_self] at hat
    exact hname moved hat

theorem openFile (h : s.Holding base others allowed none) {name : Bytes} (hname : allowed name) :
    (s.openFile name).2.Holding base others allowed (s.openFile name).1 := by
  unfold Store.openFile
  split
  · exact (h.congr (t := s.note .open) rfl rfl).attach hname
  · exact h.congr rfl rfl

theorem create (h : s.Holding base others allowed none) {name : Bytes} (hname : allowed name) :
    (s.create name).2.Holding base others allowed (s.create name).1 := by
  unfold Store.create
  split
  · exact (h.congr (t := (s.note .create).setFile name (some [])) rfl rfl).attach hname
  · exact h.congr rfl rfl

theorem close (h : s.Holding base others allowed held) (other : Bytes → Prop) :
    (s.close held).Holding base others other none := by
  cases held with
  | none => exact (h.congr (t := s.note .close) rfl rfl).none_any other
  | some i =>
    have hset : ((s.note .close).setHandle i none).Holding base others allowed (some i) := by
      refine (h.congr (t := s.note .close) rfl rfl).setHandle ?_
      simp
    refine ⟨hset.kept, hset.base_le, by simp, fun j hj _ => ?_, by simp⟩
    by_cases hji : j = i
    · subst hji
      exact Function.update_self j none s.handles
    · exact hset.closed j hj (by simpa using fun heq => hji heq.symm)

/-- What `at?` finds is the open handle. -/
theorem at?_eq_some (h : s.Holding base others allowed held) {i : Nat} {handle : Handle} {contents : Bytes}
    (hat : s.at? held = some (i, handle, contents)) : held = some i ∧ allowed handle.name := by
  simp only [at?, Option.bind_eq_bind, Option.bind_eq_some_iff] at hat
  obtain ⟨j, hj, found, hfound, bytes, -, hsame⟩ := hat
  cases hsame
  exact ⟨hj, h.names i handle hj hfound⟩

theorem read (h : s.Holding base others allowed held) (n : Nat) : (s.read held n).2.Holding base others allowed held := by
  unfold Store.read
  split
  · exact h.congr rfl rfl
  rename_i i handle contents hat
  obtain ⟨rfl, hname⟩ := h.at?_eq_some hat
  split
  · refine (h.congr (t := s.note .read) rfl rfl).setHandle ?_
    rintro moved ⟨⟩
    exact hname
  · exact h.congr rfl rfl

theorem write (h : s.Holding base others allowed held) (bs : Bytes) :
    (s.write held bs).2.2.Holding base others allowed held := by
  unfold Store.write
  split
  · exact h.congr rfl rfl
  rename_i i handle contents hat
  obtain ⟨rfl, hname⟩ := h.at?_eq_some hat
  refine (h.congr (t := (s.note .write).setFile handle.name _) rfl rfl).setHandle ?_
  rintro moved ⟨⟩
  exact hname

theorem seekEnd (h : s.Holding base others allowed held) : (s.seekEnd held).2.Holding base others allowed held := by
  unfold Store.seekEnd
  split
  · exact h.congr rfl rfl
  rename_i i handle contents hat
  obtain ⟨rfl, hname⟩ := h.at?_eq_some hat
  split
  · refine (h.congr (t := s.note .seek) rfl rfl).setHandle ?_
    rintro moved ⟨⟩
    exact hname
  · exact h.congr rfl rfl

theorem seekStart (h : s.Holding base others allowed held) : (s.seekStart held).2.Holding base others allowed held := by
  unfold Store.seekStart
  split
  · exact h.congr rfl rfl
  rename_i i handle contents hat
  obtain ⟨rfl, hname⟩ := h.at?_eq_some hat
  split
  · refine (h.congr (t := s.note .seek) rfl rfl).setHandle ?_
    rintro moved ⟨⟩
    exact hname
  · exact h.congr rfl rfl

theorem remove (h : s.Holding base others allowed held) (name : Bytes) : (s.remove name).2.Holding base others allowed held := by
  unfold Store.remove
  split
  · exact h.congr rfl rfl
  · exact h.congr rfl rfl

theorem rename (h : s.Holding base others allowed held) (old new : Bytes) :
    (s.rename old new).2.Holding base others allowed held := by
  unfold Store.rename
  split
  · exact h.congr rfl rfl
  split
  · exact h.congr rfl rfl
  · exact h.congr rfl rfl

end Holding

/-! ## The files a call leaves alone -/

theorem create_files_ne {name other : Bytes} (hne : other ≠ name) : (s.create name).2.files other = s.files other := by
  unfold create
  split
  · simp [Function.update_of_ne hne]
  · rfl

theorem read_files (s : Store) (held : Option Nat) (n : Nat) : (s.read held n).2.files = s.files := by
  unfold read
  split
  · rfl
  split
  · rfl
  · rfl

theorem seekEnd_files (s : Store) (held : Option Nat) : (s.seekEnd held).2.files = s.files := by
  unfold seekEnd
  split
  · rfl
  split
  · rfl
  · rfl

theorem seekStart_files (s : Store) (held : Option Nat) : (s.seekStart held).2.files = s.files := by
  unfold seekStart
  split
  · rfl
  split
  · rfl
  · rfl

/-- A write changes the file of the open handle only. -/
theorem Holding.write_files_ne (h : s.Holding base others allowed held) {other : Bytes} (hother : ¬ allowed other)
    (bs : Bytes) : (s.write held bs).2.2.files other = s.files other := by
  unfold Store.write
  split
  · rfl
  rename_i i handle contents hat
  obtain ⟨-, hname⟩ := h.at?_eq_some hat
  have hne : other ≠ handle.name := fun heq => hother (heq ▸ hname)
  simp [Function.update_of_ne hne]

theorem rename_files_ne {old new other : Bytes} (hold : other ≠ old) (hnew : other ≠ new) :
    (s.rename old new).2.files other = s.files other := by
  unfold rename
  split
  · rfl
  split
  · simp [Function.update_of_ne hold, Function.update_of_ne hnew]
  · rfl

/-- Nothing is renamed onto a file that is there. -/
theorem rename_files_onto (s : Store) (old : Bytes) {new : Bytes} (hthere : s.files new ≠ none) :
    (s.rename old new).2.files new = s.files new := by
  unfold rename
  split
  · rfl
  split
  · rename_i hcond
    exact absurd (Option.isNone_iff_eq_none.mp hcond.1) hthere
  · rfl

end

end DosMcp.Lib.Store
