/-
  DosMcp.Dos.Temporary — where RA-TSR puts the temporary file of an upload.

  Below a normal root the temporary file goes to the root; under `ALL` it goes to the directory
  of the destination.

  - `tryTransferTemp_fresh`: it has a new name, and attempts that fail create nothing.
  - `directoryOf_entry`: a path that ends in an entry is in the directory before it.
  - `transfer_temp_placed_iff`: it is beside its destination unless that is below a subdirectory
    of a normal root.
-/

import DosMcp.Dos.Sandbox
import Mathlib.Data.List.TakeWhile

namespace DosMcp.Dos

open Lib

/-- The directory with the entry that a path names, as DOS compares names. -/
def directoryOf (path : Bytes) : List Bytes := ((normalise path).dropLast).map dosName

/-! ## Names -/

theorem hexDigit_printable {n : Nat} (h : n < 16) : 32 ≤ hexDigit n ∧ hexDigit n ∉ reservedCharacters := by
  have hall : ∀ n < 16, 32 ≤ hexDigit n ∧ hexDigit n ∉ reservedCharacters := by decide
  exact hall n h

theorem pathComponents_single {name : Bytes} (h : ∀ b ∈ name, isSeparator b = false) : pathComponents name = [name] :=
  List.splitOnP_eq_singleton h

theorem tempName_length (id : UInt16) (attempt : Nat) : (tempName id attempt).length = 11 := rfl

theorem tempName_names (id : UInt16) (attempt : Nat) : NamesEntry (tempName id attempt) := by
  have hlength := tempName_length id attempt
  refine ⟨by omega, by omega, ?_, ?_⟩
  · intro heq
    rw [heq] at hlength
    cases hlength
  · intro heq
    rw [heq] at hlength
    cases hlength

theorem tempName_safe (id : UInt16) {attempt : Nat} (h : attempt < 16) : SafePath (tempName id attempt) := by
  constructor
  · rw [pathComponents_single (tempName_not_separator id h), List.forall_mem_singleton]
    exact tempName_names id attempt
  · have hid := id.toNat_lt
    simp only [Printable, tempName, List.forall_mem_cons]
    refine ⟨by decide, by decide, hexDigit_printable (by omega), hexDigit_printable (by omega), hexDigit_printable (by omega),
      hexDigit_printable (by omega), hexDigit_printable h, by decide, by decide, by decide, by decide, fun _ hb => ?_⟩
    exact absurd hb List.not_mem_nil

/-! ## Directories -/

theorem normalise_directoryPrefix {root relative : Bytes} (h : SafePath relative) :
    normalise (directoryPrefix root ++ relative) = normalise root ++ pathComponents relative := by
  by_cases hroot : root = []
  · subst hroot
    exact foldl_enterComponent h.1 []
  · rw [directoryPrefix_eq_rootPrefix hroot]
    exact normalise_below h

/-- Below a root, the directory of a path is the root and all but the last component. -/
theorem directoryOf_directoryPrefix {root relative : Bytes} (h : SafePath relative) :
    directoryOf (directoryPrefix root ++ relative) = (normalise root ++ (pathComponents relative).dropLast).map dosName := by
  have hne : pathComponents relative ≠ [] := List.splitOnP_ne_nil _ _
  rw [directoryOf, normalise_directoryPrefix h, List.dropLast_append_of_ne_nil hne]

/-- A path that ends in an entry is in the directory before it. -/
theorem directoryOf_entry {init name : Bytes} {separator : UInt8} (hsep : isSeparator separator = true)
    (hname : ∀ b ∈ name, isSeparator b = false) (hentry : NamesEntry name) :
    directoryOf (init ++ [separator] ++ name) = (normalise init).map dosName := by
  have hcomponents : pathComponents (init ++ [separator] ++ name) = pathComponents init ++ [name] := by
    rw [List.append_assoc, List.singleton_append, pathComponents, List.splitOnP_append_cons _ _ hsep]
    exact congrArg (pathComponents init ++ ·) (pathComponents_single hname)
  have hentered := foldl_enterComponent (List.forall_mem_singleton.mpr hentry) (normalise init)
  rw [directoryOf, normalise, hcomponents, List.foldl_append]
  exact congrArg (List.map dosName) ((congrArg List.dropLast hentered).trans List.dropLast_concat)

/-- `parentPrefix` cuts a path behind its last separator. -/
theorem parentPrefix_cuts {path parent : Bytes} (h : parentPrefix path = some parent) :
    ∃ init separator name, isSeparator separator = true ∧ (∀ b ∈ name, isSeparator b = false) ∧
      parent = init ++ [separator] ∧ path = parent ++ name := by
  have hpath : path = (path.reverse.dropWhile (!isSeparator ·)).reverse ++ (path.reverse.takeWhile (!isSeparator ·)).reverse := by
    rw [← List.reverse_append, List.takeWhile_append_dropWhile, List.reverse_reverse]
  have hhead := List.head?_dropWhile_not (!isSeparator ·) path.reverse
  unfold parentPrefix at h
  cases hdrop : path.reverse.dropWhile (!isSeparator ·) with
  | nil =>
    rw [hdrop] at h
    cases h
  | cons separator rest =>
    rw [hdrop] at h hhead hpath
    have hsep : isSeparator separator = true := by simpa using hhead
    have hparent : parent = rest.reverse ++ [separator] := by
      rw [List.reverse_cons] at h
      split at h
      · cases h
      · cases h
        rfl
    refine ⟨rest.reverse, separator, (path.reverse.takeWhile (!isSeparator ·)).reverse, hsep, ?_, hparent, ?_⟩
    · intro b hb
      have hall := List.mem_takeWhile_imp (List.mem_reverse.mp hb)
      simpa using hall
    · rw [hparent, ← List.reverse_cons]
      exact hpath

/-- The last component of a path under `ALL` names an entry. -/
theorem absolute_last_names {letter separator : UInt8} {relative parent name init : Bytes}
    (hletter : (0x41 ≤ letter ∧ letter ≤ 0x5A) ∨ (0x61 ≤ letter ∧ letter ≤ 0x7A)) (hsep : isSeparator separator = true)
    (hsafe : SafePath relative) {last : UInt8} (hlast : isSeparator last = true) (hname : ∀ b ∈ name, isSeparator b = false)
    (hparent : parent = init ++ [last]) (hpath : letter :: 0x3A :: separator :: relative = parent ++ name) : NamesEntry name := by
  have hdrive : ∀ b ∈ [letter, 0x3A], isSeparator b = false := by
    intro b hb
    simp only [List.mem_cons, List.not_mem_nil, or_false] at hb
    rcases hb with rfl | rfl
    · rw [Bool.eq_false_iff]
      intro hbad
      simp only [isSeparator, decide_eq_true_eq] at hbad
      rcases hbad with rfl | rfl
      · exact absurd hletter (by decide)
      · exact absurd hletter (by decide)
    · decide
  have hleft : pathComponents (letter :: 0x3A :: separator :: relative) = [letter, 0x3A] :: pathComponents relative := by
    show pathComponents ([letter, 0x3A] ++ separator :: relative) = _
    rw [pathComponents, List.splitOnP_append_cons _ _ hsep, List.splitOnP_eq_singleton hdrive]
    rfl
  have hright : pathComponents (parent ++ name) = pathComponents init ++ [name] := by
    rw [hparent, List.append_assoc, List.singleton_append, pathComponents, List.splitOnP_append_cons _ _ hlast]
    exact congrArg (pathComponents init ++ ·) (pathComponents_single hname)
  -- both end in the same component, and that of the left is one of the relative path
  have hlastEq := congrArg List.getLast? (hleft.symm.trans ((congrArg pathComponents hpath).trans hright))
  rw [List.getLast?_concat] at hlastEq
  obtain ⟨component, rest, hrelative⟩ := List.exists_cons_of_ne_nil (List.splitOnP_ne_nil isSeparator relative)
  have hmem : name ∈ pathComponents relative := by
    rw [pathComponents, hrelative, List.getLast?_cons_cons] at hlastEq
    rw [pathComponents, hrelative]
    exact List.mem_of_getLast? hlastEq
  exact hsafe.1 name hmem

/-! ## The attempts -/

section

variable {c : Config} {id : UInt16} {f f' : Files} {directory value : Bytes}

/-- The temporary file of `f'` fits its buffer, is not the destination, and is new. -/
structure FreshTemp (f f' : Files) : Prop where
  fits : f'.transfer.temp.length + 1 ≤ 128
  differs : stricmpEqual f'.transfer.temp f.transfer.path = false
  new : f.store.files (dosName f'.transfer.temp) = none

theorem tryTransferTemp_fresh {attempt fuel : Nat} (hle : attempt + fuel ≤ 16) (hfits : directory.length + 12 ≤ 128)
    (h : tryTransferTemp directory id attempt fuel f = (true, f')) :
    FreshTemp f f' ∧ ∃ tried < 16, f'.transfer.temp = directory ++ tempName id tried := by
  induction fuel generalizing attempt f with
  | zero =>
    rw [tryTransferTemp] at h
    cases h
  | succ fuel ih =>
    rw [tryTransferTemp] at h
    split at h
    · -- the name is that of the destination
      obtain ⟨hfresh, htried⟩ := ih (by omega) h
      exact ⟨⟨hfresh.fits, hfresh.differs, hfresh.new⟩, htried⟩
    rename_i hdiffers
    split at h
    · -- DOS did not create the file
      rename_i store hcreate
      obtain ⟨hfresh, htried⟩ := ih (by omega) h
      have hsame : store.files = f.store.files := by rw [Store.create_eq_none hcreate, Store.note_files]
      refine ⟨⟨hfresh.fits, hfresh.differs, ?_⟩, htried⟩
      rw [← hsame]
      exact hfresh.new
    · rename_i i store hcreate
      cases h
      refine ⟨⟨?_, Bool.eq_false_iff.mpr hdiffers, Store.create_new hcreate⟩, attempt, by omega, rfl⟩
      show (directory ++ tempName id attempt).length + 1 ≤ 128
      rw [List.length_append, tempName_length]
      omega

/-- Attempts that all fail leave the files as they were. -/
theorem tryTransferTemp_files {attempt fuel : Nat} (h : tryTransferTemp directory id attempt fuel f = (false, f')) :
    f'.store.files = f.store.files := by
  induction fuel generalizing attempt f with
  | zero =>
    rw [tryTransferTemp] at h
    cases h
    rfl
  | succ fuel ih =>
    rw [tryTransferTemp] at h
    split at h
    · have hrest := ih h
      exact hrest
    split at h
    · rename_i store hcreate
      rw [ih h, Store.create_eq_none hcreate, Store.note_files]
    · cases h

theorem createTransferTemp_fresh (h : createTransferTemp c id f = (true, f')) :
    ∃ directory, tempPrefix c f = some directory ∧ FreshTemp f f' ∧
      ∃ tried < 16, f'.transfer.temp = directory ++ tempName id tried := by
  unfold createTransferTemp at h
  split at h
  · cases h
  rename_i directory hdirectory
  split at h
  · cases h
  rename_i hfits
  exact ⟨directory, hdirectory, tryTransferTemp_fresh (by decide) (Nat.le_of_not_gt hfits) h⟩

theorem createTransferTemp_files (h : createTransferTemp c id f = (false, f')) : f'.store.files = f.store.files := by
  unfold createTransferTemp at h
  split at h
  · cases h
    rfl
  split at h
  · cases h
    rfl
  · exact tryTransferTemp_files h

/-! ## Beside the destination -/

/-- Under `ALL` the temporary file is in the directory of the destination. -/
theorem temp_beside_all (hall : c.unrestrictedFilesystem = true) (hpath : buildSandboxPath c value = some f.transfer.path)
    (hdirectory : tempPrefix c f = some directory) {tried : Nat} (htried : tried < 16) :
    directoryOf (directory ++ tempName id tried) = directoryOf f.transfer.path := by
  rw [tempPrefix, if_pos hall] at hdirectory
  obtain ⟨-, letter, separator, relative, hletter, hsep, hsafe, habsolute⟩ := buildSandboxPath_all hall hpath
  obtain ⟨init, last, name, hlast, hname, hparent, hcut⟩ := parentPrefix_cuts hdirectory
  have hnames := absolute_last_names hletter hsep hsafe hlast hname hparent (habsolute.symm.trans hcut)
  rw [hcut, hparent, directoryOf_entry hlast hname hnames,
    directoryOf_entry hlast (tempName_not_separator id htried) (tempName_names id tried)]

/-- Below a normal root it is in the root. -/
theorem temp_beside_root (hroot : c.unrestrictedFilesystem = false) (hpath : buildSandboxPath c value = some f.transfer.path)
    (hdirectory : tempPrefix c f = some directory) {tried : Nat} (htried : tried < 16) :
    directoryOf (directory ++ tempName id tried) = directoryOf f.transfer.path ↔
      (pathComponents (cString value)).length = 1 := by
  have hnormal : ¬ c.unrestrictedFilesystem = true := by
    rw [hroot]
    exact Bool.false_ne_true
  rw [tempPrefix, if_neg hnormal] at hdirectory
  cases hdirectory
  unfold buildSandboxPath at hpath
  split at hpath
  · cases hpath
  dsimp only at hpath
  split at hpath
  · cases hpath
  split at hpath
  · rename_i hsafe
    have hsafe := (safeRelativePath_iff _).mp hsafe
    have hdestination := Option.some.inj hpath
    have hpos := List.length_pos_of_ne_nil (List.splitOnP_ne_nil isSeparator (cString value))
    rw [← hdestination, directoryOf_directoryPrefix (tempName_safe id htried), directoryOf_directoryPrefix hsafe,
      pathComponents_single (tempName_not_separator id htried), List.map_append, List.map_append, List.append_cancel_left_eq]
    constructor
    · intro hsame
      have hlength := congrArg List.length hsame
      rw [List.length_map, List.length_map, List.length_dropLast, List.length_dropLast] at hlength
      change 0 < (pathComponents (cString value)).length at hpos
      rw [List.length_singleton] at hlength
      omega
    · intro hone
      obtain ⟨component, hcomponent⟩ := List.length_eq_one_iff.mp hone
      rw [hcomponent]
      rfl
  · cases hpath

/-- A temporary file that `create_transfer_temp` leaves to the upload. -/
def WellPlaced (f f' : Files) : Prop := FreshTemp f f' ∧ directoryOf f'.transfer.temp = directoryOf f.transfer.path

/-- For a path of `build_sandbox_path`: the temporary file always fits, is new and is not the
    destination, and it is beside the destination exactly under `ALL` or for a path of one
    component. Without a temporary file no file was created. -/
theorem transfer_temp_placed_iff (c : Config) (value : Bytes) (id : UInt16) (f f' : Files)
    (hpath : buildSandboxPath c value = some f.transfer.path) :
    (createTransferTemp c id f = (true, f') →
      FreshTemp f f' ∧ (WellPlaced f f' ↔ c.unrestrictedFilesystem = true ∨ (pathComponents (cString value)).length = 1)) ∧
    (createTransferTemp c id f = (false, f') → f'.store.files = f.store.files) := by
  refine ⟨fun h => ?_, createTransferTemp_files⟩
  obtain ⟨directory, hdirectory, hfresh, tried, htried, htemp⟩ := createTransferTemp_fresh h
  refine ⟨hfresh, ?_⟩
  rw [WellPlaced, and_iff_right hfresh, htemp]
  by_cases hall : c.unrestrictedFilesystem = true
  · exact iff_of_true (temp_beside_all hall hpath hdirectory htried) (Or.inl hall)
  · rw [temp_beside_root (Bool.eq_false_iff.mpr hall) hpath hdirectory htried, or_iff_right hall]

end

/-- An upload to `path` on an empty drive, where creating a file works or does not. -/
def uploadTo (path : Bytes) (ok : Bool) : Files := ⟨{ Transfer.start with path := path }, dosStore (fun _ => none) fun _ => ⟨ok, 0⟩⟩

/-- The files after `create_transfer_temp`. -/
def uploading (path : Bytes) (ok : Bool) : Files := (createTransferTemp sampleConfig 1 (uploadTo path ok)).2

/-- For the path `A`. -/
theorem transfer_temp_placed_iff_file :
    (FreshTemp (uploadTo samplePath true) (uploading samplePath true) ∧
      (WellPlaced (uploadTo samplePath true) (uploading samplePath true) ↔
        sampleConfig.unrestrictedFilesystem = true ∨ (pathComponents (cString [0x41])).length = 1)) ∧
    (uploading samplePath false).store.files = (uploadTo samplePath false).store.files := by
  have hcreated := transfer_temp_placed_iff sampleConfig [0x41] 1 (uploadTo samplePath true) (uploading samplePath true)
    (by decide +kernel)
  have hfailed := transfer_temp_placed_iff sampleConfig [0x41] 1 (uploadTo samplePath false) (uploading samplePath false)
    (by decide +kernel)
  exact ⟨hcreated.1 (Prod.ext (by decide +kernel) rfl), hfailed.2 (Prod.ext (by decide +kernel) rfl)⟩

/-- `C:\RATSR\D\A`. -/
def nestedPath : Bytes := [0x43, 0x3A, 0x5C, 0x52, 0x41, 0x54, 0x53, 0x52, 0x5C, 0x44, 0x5C, 0x41]

/-- For the path `D\A` the temporary file is created in `C:\RATSR`, not in `C:\RATSR\D`. -/
theorem temp_not_beside_destination :
    buildSandboxPath sampleConfig [0x44, 0x5C, 0x41] = some nestedPath ∧
      (createTransferTemp sampleConfig 1 (uploadTo nestedPath true)).1 = true ∧
      (uploading nestedPath true).transfer.temp = directoryPrefix sampleConfig.sandboxRoot ++ tempName 1 0 ∧
      ¬ WellPlaced (uploadTo nestedPath true) (uploading nestedPath true) := by
  refine ⟨by decide +kernel, by decide +kernel, by decide +kernel, ?_⟩
  rintro ⟨-, hsame⟩
  revert hsame
  decide +kernel

end DosMcp.Dos
