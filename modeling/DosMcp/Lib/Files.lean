/-
  DosMcp.Lib.Files — a file store with handles whose calls may fail.

  Files are byte strings under names. What the system makes of each call is drawn from
  `outcomes`, one `Outcome` a call in the order the calls are made (`log`), so a store
  with an arbitrary `outcomes` is an arbitrary behaviour: any call may fail, and a read
  or a write may transfer any part of what was asked for. A call that cannot succeed
  (opening a file that is not there, renaming onto one that is) fails whatever was drawn.
-/

import DosMcp.Lib.Bytes
import Mathlib.Logic.Function.Basic

namespace DosMcp.Lib

structure Outcome where
  ok : Bool
  /-- The bytes a read or a write transfers, at most what it was asked for. -/
  count : Nat
  deriving DecidableEq, Repr

structure Handle where
  name : Bytes
  position : Nat
  deriving DecidableEq, Repr

inductive FileCall where
  | open
  | create
  | close
  | read
  | write
  | seek
  | remove
  | rename
  deriving DecidableEq, Repr

structure Store where
  files : Bytes → Option Bytes
  handles : Nat → Option Handle
  nextHandle : Nat
  outcomes : Nat → Outcome
  log : List FileCall

namespace Store

/-- What the system makes of the next call. -/
def drawn (s : Store) : Outcome := s.outcomes s.log.length

def note (s : Store) (call : FileCall) : Store := { s with log := s.log ++ [call] }

def setFile (s : Store) (name : Bytes) (contents : Option Bytes) : Store :=
  { s with files := Function.update s.files name contents }

def setHandle (s : Store) (i : Nat) (h : Option Handle) : Store := { s with handles := Function.update s.handles i h }

/-- The store with a new handle at the start of `name`. -/
def attach (s : Store) (name : Bytes) : Store :=
  { s.setHandle s.nextHandle (some ⟨name, 0⟩) with nextHandle := s.nextHandle + 1 }

def openFile (s : Store) (name : Bytes) : Option Nat × Store :=
  if (s.files name).isSome ∧ s.drawn.ok then (some s.nextHandle, (s.note .open).attach name) else (none, s.note .open)

/-- Create a file that must not exist yet. -/
def create (s : Store) (name : Bytes) : Option Nat × Store :=
  if (s.files name).isNone ∧ s.drawn.ok then
    (some s.nextHandle, ((s.note .create).setFile name (some [])).attach name)
  else (none, s.note .create)

def close (s : Store) (handle : Option Nat) : Store :=
  match handle with
  | none => s.note .close
  | some i => (s.note .close).setHandle i none

/-- The handle's position and its file's contents, while both are there. -/
def at? (s : Store) (handle : Option Nat) : Option (Nat × Handle × Bytes) := do
  let i ← handle
  let h ← s.handles i
  let contents ← s.files h.name
  return (i, h, contents)

/-- Up to `n` bytes at the handle's position; nothing on failure. -/
def read (s : Store) (handle : Option Nat) (n : Nat) : Option Bytes × Store :=
  match s.at? handle with
  | none => (none, s.note .read)
  | some (i, h, contents) =>
    if s.drawn.ok then
      let bytes := slice contents h.position (min s.drawn.count n)
      (some bytes, (s.note .read).setHandle i (some ⟨h.name, h.position + bytes.length⟩))
    else (none, s.note .read)

/-- `contents` with `bs` stored at `position`. -/
def splice (contents bs : Bytes) (position : Nat) : Bytes :=
  contents.take position ++ bs ++ contents.drop (position + bs.length)

/-- Store a prefix of `bs` at the handle's position: whether the call reports success, and
    the bytes stored. A failed call may have stored some of them too. -/
def write (s : Store) (handle : Option Nat) (bs : Bytes) : Bool × Nat × Store :=
  match s.at? handle with
  | none => (false, 0, s.note .write)
  | some (i, h, contents) =>
    let part := bs.take s.drawn.count
    (s.drawn.ok, part.length, ((s.note .write).setFile h.name (some (splice contents part h.position))).setHandle i
      (some ⟨h.name, h.position + part.length⟩))

/-- Move to the end; the file's size, or nothing on failure. -/
def seekEnd (s : Store) (handle : Option Nat) : Option Nat × Store :=
  match s.at? handle with
  | none => (none, s.note .seek)
  | some (i, h, contents) =>
    if s.drawn.ok then (some contents.length, (s.note .seek).setHandle i (some ⟨h.name, contents.length⟩))
    else (none, s.note .seek)

/-- Move to the start. -/
def seekStart (s : Store) (handle : Option Nat) : Bool × Store :=
  match s.at? handle with
  | none => (false, s.note .seek)
  | some (i, h, _) =>
    if s.drawn.ok then (true, (s.note .seek).setHandle i (some ⟨h.name, 0⟩)) else (false, s.note .seek)

def remove (s : Store) (name : Bytes) : Bool × Store :=
  if (s.files name).isSome ∧ s.drawn.ok then (true, (s.note .remove).setFile name none) else (false, s.note .remove)

def rename (s : Store) (old new : Bytes) : Bool × Store :=
  match s.files old with
  | none => (false, s.note .rename)
  | some contents =>
    if (s.files new).isNone ∧ s.drawn.ok then
      (true, ((s.note .rename).setFile old none).setFile new (some contents))
    else (false, s.note .rename)

/-! ## What the calls leave alone -/

section

variable (s : Store) (call : FileCall) (name : Bytes) (contents : Option Bytes) (i : Nat) (h : Option Handle)

@[simp] theorem note_files : (s.note call).files = s.files := rfl
@[simp] theorem note_handles : (s.note call).handles = s.handles := rfl
@[simp] theorem note_nextHandle : (s.note call).nextHandle = s.nextHandle := rfl
@[simp] theorem note_outcomes : (s.note call).outcomes = s.outcomes := rfl
@[simp] theorem note_log : (s.note call).log = s.log ++ [call] := rfl

@[simp] theorem setFile_files : (s.setFile name contents).files = Function.update s.files name contents := rfl
@[simp] theorem setFile_handles : (s.setFile name contents).handles = s.handles := rfl
@[simp] theorem setFile_nextHandle : (s.setFile name contents).nextHandle = s.nextHandle := rfl
@[simp] theorem setFile_outcomes : (s.setFile name contents).outcomes = s.outcomes := rfl
@[simp] theorem setFile_log : (s.setFile name contents).log = s.log := rfl

@[simp] theorem setHandle_files : (s.setHandle i h).files = s.files := rfl
@[simp] theorem setHandle_handles : (s.setHandle i h).handles = Function.update s.handles i h := rfl
@[simp] theorem setHandle_outcomes : (s.setHandle i h).outcomes = s.outcomes := rfl
@[simp] theorem setHandle_log : (s.setHandle i h).log = s.log := rfl

@[simp] theorem attach_files : (s.attach name).files = s.files := rfl
@[simp] theorem attach_handles : (s.attach name).handles = Function.update s.handles s.nextHandle (some ⟨name, 0⟩) := rfl
@[simp] theorem attach_outcomes : (s.attach name).outcomes = s.outcomes := rfl
@[simp] theorem attach_log : (s.attach name).log = s.log := rfl

@[simp] theorem close_files (handle : Option Nat) : (s.close handle).files = s.files := by
  cases handle <;> rfl

@[simp] theorem close_outcomes (handle : Option Nat) : (s.close handle).outcomes = s.outcomes := by
  cases handle <;> rfl

@[simp] theorem close_log (handle : Option Nat) : (s.close handle).log = s.log ++ [.close] := by
  cases handle <;> rfl

@[simp] theorem openFile_files : (s.openFile name).2.files = s.files := by
  unfold openFile
  split <;> rfl

@[simp] theorem openFile_outcomes : (s.openFile name).2.outcomes = s.outcomes := by
  unfold openFile
  split <;> rfl

@[simp] theorem openFile_log : (s.openFile name).2.log = s.log ++ [.open] := by
  unfold openFile
  split <;> rfl

end

theorem remove_files_ne (s : Store) {name other : Bytes} (hne : other ≠ name) :
    (s.remove name).2.files other = s.files other := by
  unfold remove
  split
  · simp [Function.update_of_ne hne]
  · rfl

/-- A call that fails leaves the files as they are. -/
theorem remove_eq_false {s s' : Store} {name : Bytes} (h : s.remove name = (false, s')) : s' = s.note .remove := by
  unfold remove at h
  split at h <;> simp_all

theorem remove_eq_true {s s' : Store} {name : Bytes} (h : s.remove name = (true, s')) :
    s' = (s.note .remove).setFile name none := by
  unfold remove at h
  split at h <;> simp_all

theorem rename_eq_false {s s' : Store} {old new : Bytes} (h : s.rename old new = (false, s')) : s' = s.note .rename := by
  unfold rename at h
  split at h
  · simp_all
  · split at h <;> simp_all

theorem rename_eq_true {s s' : Store} {old new : Bytes} (h : s.rename old new = (true, s')) :
    ∃ contents, s.files old = some contents ∧
      s' = ((s.note .rename).setFile old none).setFile new (some contents) := by
  unfold rename at h
  split at h
  · simp_all
  · rename_i contents hc
    split at h
    · exact ⟨contents, hc, by simp_all⟩
    · simp_all

theorem create_eq_some {s s' : Store} {name : Bytes} {i : Nat} (h : s.create name = (some i, s')) :
    s'.files name = some [] ∧ s'.handles i = some ⟨name, 0⟩ := by
  unfold create at h
  split at h
  · obtain ⟨rfl, rfl⟩ : s.nextHandle = i ∧ _ = s' := by simpa using h
    simp
  · simp at h

theorem openFile_eq_some {s s' : Store} {name : Bytes} {i : Nat} (h : s.openFile name = (some i, s')) :
    s'.handles i = some ⟨name, 0⟩ := by
  unfold openFile at h
  split at h
  · obtain ⟨rfl, rfl⟩ : s.nextHandle = i ∧ _ = s' := by simpa using h
    simp
  · simp at h

/-- Seeking keeps the file of its handle. -/
theorem seekEnd_eq_some {s s' : Store} {i size : Nat} {handle : Handle} (hat : s.handles i = some handle)
    (h : s.seekEnd (some i) = (some size, s')) : ∃ position, s'.handles i = some ⟨handle.name, position⟩ := by
  unfold seekEnd at h
  split at h
  · cases h
  rename_i j found contents hfound
  split at h
  · obtain ⟨-, rfl⟩ : _ ∧ _ = s' := by simpa using h
    simp only [at?, hat, Option.bind_eq_bind, Option.bind_some, Option.bind_eq_some_iff] at hfound
    obtain ⟨bytes, -, hsame⟩ := hfound
    cases hsame
    exact ⟨contents.length, by simp⟩
  · simp at h

theorem seekStart_eq_true {s s' : Store} {i : Nat} {handle : Handle} (hat : s.handles i = some handle)
    (h : s.seekStart (some i) = (true, s')) : s'.handles i = some ⟨handle.name, 0⟩ := by
  unfold seekStart at h
  split at h
  · cases h
  rename_i j found contents hfound
  split at h
  · obtain rfl : _ = s' := by simpa using h
    simp only [at?, hat, Option.bind_eq_bind, Option.bind_some, Option.bind_eq_some_iff] at hfound
    obtain ⟨bytes, -, hsame⟩ := hfound
    cases hsame
    simp
  · simp at h

/-- Only an absent name is created. -/
theorem create_new {s s' : Store} {name : Bytes} {i : Nat} (h : s.create name = (some i, s')) : s.files name = none := by
  unfold create at h
  split at h
  · rename_i hcond
    exact Option.isNone_iff_eq_none.mp hcond.1
  · simp at h

theorem create_eq_none {s s' : Store} {name : Bytes} (h : s.create name = (none, s')) : s' = s.note .create := by
  unfold create at h
  split at h
  · simp at h
  · simpa using h.symm

/-- A read that fails moves nothing. -/
theorem read_eq_none {s s' : Store} {handle : Option Nat} {n : Nat} (h : s.read handle n = (none, s')) : s' = s.note .read := by
  unfold read at h
  split at h
  · cases h
    rfl
  · split at h
    · cases h
    · cases h
      rfl

/-- The size that a seek finds is that of the file. -/
theorem seekEnd_size {s s' : Store} {i size : Nat} {handle : Handle} (hat : s.handles i = some handle)
    (h : s.seekEnd (some i) = (some size, s')) : ∃ contents, s.files handle.name = some contents ∧ contents.length = size := by
  unfold seekEnd at h
  split at h
  · cases h
  rename_i j found contents hfound
  simp only [at?, hat, Option.bind_eq_bind, Option.bind_some, Option.bind_eq_some_iff] at hfound
  obtain ⟨bytes, hfile, hsame⟩ := hfound
  cases hsame
  split at h
  · cases h
    exact ⟨contents, hfile, rfl⟩
  · cases h

/-- A read returns at most what was asked for. -/
theorem read_length {s s' : Store} {handle : Option Nat} {n : Nat} {bytes : Bytes}
    (h : s.read handle n = (some bytes, s')) : bytes.length ≤ n := by
  unfold read at h
  split at h
  · cases h
  split at h
  · obtain ⟨rfl, -⟩ : _ = bytes ∧ _ := by simpa using h
    rw [slice_length]
    omega
  · cases h

/-- Appending at the end of a file. -/
theorem splice_length (contents bs : Bytes) : splice contents bs contents.length = contents ++ bs := by
  simp [splice]

end Store

end DosMcp.Lib
