/-
  DosMcp.Dos.Sandbox — which paths RA-TSR opens.

  `SafePath` says in terms of components what `safe_relative_path` accepts;
  `path_confinement` that it accepts exactly these, and that every path
  `build_sandbox_path` builds is one of them below the configured root, or below a drive
  when the root is `ALL`.
-/

import DosMcp.Dos.TransferProofs

namespace DosMcp.Dos

open Lib

/-- The components between the separators of a path. -/
def pathComponents (path : Bytes) : List Bytes := path.splitOnP isSeparator

/-- A component that names a file or a directory: 1 to 12 bytes, neither `.` nor `..`. -/
def NamesEntry (component : Bytes) : Prop :=
  1 ≤ component.length ∧ component.length ≤ 12 ∧ component ≠ [0x2E] ∧ component ≠ [0x2E, 0x2E]

/-- No byte below 32 and none of `":*+,;<=>?[|]`. -/
def Printable (path : Bytes) : Prop := ∀ b ∈ path, 32 ≤ b ∧ b ∉ reservedCharacters

def SafePath (path : Bytes) : Prop := (∀ component ∈ pathComponents path, NamesEntry component) ∧ Printable path

/-- One component of a path, read from the directory whose components are `stack`. -/
def enterComponent (stack : List Bytes) (component : Bytes) : List Bytes :=
  if component = [] ∨ component = [0x2E] then stack
  else if component = [0x2E, 0x2E] then stack.dropLast
  else stack ++ [component]

/-- The directory or file a path leads to. -/
def normalise (path : Bytes) : List Bytes := (pathComponents path).foldl enterComponent []

/-- `root`, with a separator appended unless it ends in one. -/
def rootPrefix (root : Bytes) : Bytes := if root.getLast?.any isSeparator then root else root ++ [backslash]

/-! ## The grammar of `safe_relative_path` -/

theorem safeComponent_iff {component : Bytes} (h : component.length ≤ 12) :
    safeComponent component = true ↔ NamesEntry component := by
  have hne : component ≠ [] ↔ 1 ≤ component.length := by
    rw [← List.length_pos_iff]
    rfl
  simp only [safeComponent, NamesEntry, decide_eq_true_eq, hne]
  tauto

theorem separator_printable {b : UInt8} (h : isSeparator b = true) : 32 ≤ b ∧ b ∉ reservedCharacters := by
  simp only [isSeparator, decide_eq_true_eq] at h
  rcases h with rfl | rfl <;> decide

theorem modifyHead_nil_append (components : List Bytes) : components.modifyHead (([] : Bytes) ++ ·) = components := by
  cases components <;> rfl

/-- The loop, with the component read so far in front of what is left. -/
theorem safeComponents_iff {component : Bytes} (hle : component.length ≤ 12) (path : Bytes) :
    safeComponents component path = true ↔
      (∀ c ∈ (pathComponents path).modifyHead (component ++ ·), NamesEntry c) ∧ Printable path := by
  induction path generalizing component with
  | nil => simp [safeComponents, pathComponents, Printable, safeComponent_iff hle]
  | cons value rest ih =>
    simp only [safeComponents, pathComponents, List.splitOnP_cons_eq_if_modifyHead]
    by_cases hsep : isSeparator value = true
    · have hprint : Printable (value :: rest) ↔ Printable rest := by
        simp [Printable, separator_printable hsep]
      have hrest := @ih [] (by simp)
      rw [modifyHead_nil_append] at hrest
      simp only [hsep, if_true, Bool.and_eq_true, safeComponent_iff hle, hrest, hprint, List.modifyHead_cons,
        List.append_nil, List.mem_cons, forall_eq_or_imp, and_assoc]
      rfl
    · obtain ⟨head, tail, hsplit⟩ := List.exists_cons_of_ne_nil (List.splitOnP_ne_nil isSeparator rest)
      simp only [hsep, if_false, Bool.false_eq_true, hsplit, List.modifyHead_cons, List.mem_cons, forall_eq_or_imp]
      split
      · -- the byte is refused, or the component has become too long
        rename_i hbad
        simp only [Bool.false_eq_true, false_iff, not_and]
        intro hnames hprint
        have hvalue := hprint value List.mem_cons_self
        rcases hbad with hlow | hres | hlong
        · exact absurd hvalue.1 (UInt8.not_le.mpr hlow)
        · exact hvalue.2 hres
        · have hlen := hnames.1.2.1
          rw [List.length_append, List.length_cons] at hlen
          omega
      · rename_i hok
        simp only [not_or, UInt8.not_lt] at hok
        have hprint : Printable (value :: rest) ↔ Printable rest := by
          simp [Printable, hok.1, hok.2.1]
        have hrest := @ih (component ++ [value]) (by simp; omega)
        rw [hrest, hprint]
        simp only [pathComponents, hsplit, List.modifyHead_cons, List.mem_cons, forall_eq_or_imp, List.append_assoc,
          List.singleton_append]

theorem SafePath.ne_nil {path : Bytes} (h : SafePath path) : path ≠ [] := by
  rintro rfl
  have hnames := h.1 [] (by simp [pathComponents])
  exact absurd hnames.1 (by simp)

/-- A safe path does not start at a separator. -/
theorem SafePath.head_not_separator {path : Bytes} (h : SafePath path) : isSeparator (byteAt path 0) = false := by
  obtain ⟨value, rest, rfl⟩ := List.exists_cons_of_ne_nil h.ne_nil
  by_contra hsep
  have hsep : isSeparator value = true := by simpa [byteAt] using hsep
  have hmem : [] ∈ pathComponents (value :: rest) := by
    rw [pathComponents, List.splitOnP_cons_eq_if_modifyHead, if_pos hsep]
    exact List.mem_cons_self
  exact absurd (h.1 [] hmem).1 (by simp)

theorem safeRelativePath_iff (path : Bytes) : safeRelativePath path = true ↔ SafePath path := by
  have hall : safeComponents [] path = true ↔ SafePath path := by
    rw [safeComponents_iff (by simp) path, SafePath, modifyHead_nil_append]
  simp only [safeRelativePath, decide_eq_true_eq, hall]
  refine ⟨fun h => h.2.2.2.2, fun h => ?_⟩
  have hhead := h.head_not_separator
  simp only [isSeparator, decide_eq_false_iff_not, not_or] at hhead
  refine ⟨h.ne_nil, hhead.1, hhead.2, fun hcolon => ?_, h⟩
  exact absurd (h.2 _ hcolon).2 (by decide)

/-! ## Below the root -/

/-- Components that name entries are entered one after the other. -/
theorem foldl_enterComponent {components : List Bytes} (h : ∀ c ∈ components, NamesEntry c) (stack : List Bytes) :
    components.foldl enterComponent stack = stack ++ components := by
  induction components generalizing stack with
  | nil => simp
  | cons c components ih =>
    obtain ⟨hpos, -, hdot, hdots⟩ := h c List.mem_cons_self
    have hne : c ≠ [] := by
      rintro rfl
      simp at hpos
    rw [List.foldl_cons, ih fun c' hc' => h c' (List.mem_cons_of_mem _ hc')]
    simp [enterComponent, hne, hdot, hdots]

/-- A safe path below a root leads below the root. -/
theorem normalise_below {root relative : Bytes} (h : SafePath relative) :
    normalise (rootPrefix root ++ relative) = normalise root ++ pathComponents relative := by
  unfold rootPrefix
  split
  · rename_i hlast
    -- the root ends in a separator: its last component is empty
    obtain ⟨sep, hget, hsep⟩ : ∃ sep, root.getLast? = some sep ∧ isSeparator sep = true := by
      cases hget : root.getLast? with
      | none => simp [hget] at hlast
      | some sep => exact ⟨sep, rfl, by simpa [hget] using hlast⟩
    obtain ⟨init, rfl⟩ := List.getLast?_eq_some_iff.mp hget
    simp only [normalise, pathComponents, List.append_assoc, List.singleton_append]
    rw [List.splitOnP_append_cons _ _ hsep, List.splitOnP_append_cons _ _ hsep, List.foldl_append, List.foldl_append]
    have hempty : [([] : Bytes)].foldl enterComponent (normalise init) = normalise init := rfl
    exact (foldl_enterComponent h.1 _).trans (congrArg (· ++ pathComponents relative) hempty.symm)
  · simp only [normalise, pathComponents, List.append_assoc, List.singleton_append]
    rw [List.splitOnP_append_cons _ _ (by decide), List.foldl_append]
    exact foldl_enterComponent h.1 _

theorem directoryPrefix_eq_rootPrefix {root : Bytes} (h : root ≠ []) : directoryPrefix root = rootPrefix root := by
  obtain ⟨last, hlast⟩ := Option.ne_none_iff_exists'.mp fun hnone => h (List.getLast?_eq_none_iff.mp hnone)
  simp [directoryPrefix, rootPrefix, hlast]

theorem rootPrefix_length (root : Bytes) : (rootPrefix root).length ≤ root.length + 1 := by
  unfold rootPrefix
  split <;> simp

theorem cString_length (bs : Bytes) : (cString bs).length ≤ bs.length := (List.takeWhile_sublist _).length_le

/-- A path of `build_sandbox_path` under a normal root. -/
theorem buildSandboxPath_root {c : Config} {value output : Bytes} (hroot : c.sandboxRoot ≠ [])
    (hmode : c.unrestrictedFilesystem = false) (h : buildSandboxPath c value = some output) :
    output.length ≤ tsrPathMax ∧ ∃ relative, SafePath relative ∧ output = rootPrefix c.sandboxRoot ++ relative := by
  simp only [buildSandboxPath, hmode, Bool.false_eq_true, if_false] at h
  repeat' split at h
  all_goals cases h
  rename_i hlen hfits hsafe
  have hprefix := rootPrefix_length c.sandboxRoot
  have hcut := cString_length value
  rw [directoryPrefix_eq_rootPrefix hroot]
  refine ⟨?_, _, (safeRelativePath_iff _).mp hsafe, rfl⟩
  rw [List.length_append]
  omega

/-- A path of `build_sandbox_path` under `ALL`. -/
theorem buildSandboxPath_all {c : Config} {value output : Bytes} (hmode : c.unrestrictedFilesystem = true)
    (h : buildSandboxPath c value = some output) :
    output.length ≤ tsrPathMax ∧ ∃ letter separator relative,
      ((0x41 ≤ letter ∧ letter ≤ 0x5A) ∨ (0x61 ≤ letter ∧ letter ≤ 0x7A)) ∧ isSeparator separator = true ∧
        SafePath relative ∧ output = letter :: 0x3A :: separator :: relative := by
  simp only [buildSandboxPath, hmode, if_true] at h
  repeat' split at h
  all_goals cases h
  rename_i hlen hsafe
  have hcut := cString_length value
  simp only [safeAbsolutePath, decide_eq_true_eq] at hsafe
  obtain ⟨hdrive, hcolon, hsep, -, hrelative⟩ := hsafe
  refine ⟨by simp only [tsrPathMax]; omega, ?_⟩
  -- the path has its first four bytes: what follows the separator is not empty
  generalize cString value = path at *
  have hrest := (safeRelativePath_iff _).mp hrelative
  match path, hrest.ne_nil with
  | letter :: colon :: separator :: relative, _ =>
    obtain rfl : colon = 0x3A := by simpa [byteAt] using hcolon
    exact ⟨letter, separator, relative, by simpa [byteAt] using hdrive, by simpa [byteAt] using hsep, hrest, rfl⟩

/-- `safe_relative_path` accepts exactly the safe paths; what `build_sandbox_path` builds is
    a safe path below the root, or below a drive under `ALL`, and fits its buffer. -/
theorem path_confinement :
    (∀ path : Bytes, 0 ∉ path → (safeRelativePath path = true ↔ SafePath path)) ∧
      ∀ (c : Config) (value output : Bytes), c.sandboxRoot ≠ [] → c.sandboxRoot.length ≤ 127 →
        buildSandboxPath c value = some output →
          output.length + 1 ≤ 128 ∧
            (c.unrestrictedFilesystem = false →
              ∃ relative, SafePath relative ∧ output = rootPrefix c.sandboxRoot ++ relative ∧
                normalise output = normalise c.sandboxRoot ++ pathComponents relative) ∧
            (c.unrestrictedFilesystem = true →
              ∃ letter separator relative, ((0x41 ≤ letter ∧ letter ≤ 0x5A) ∨ (0x61 ≤ letter ∧ letter ≤ 0x7A)) ∧
                isSeparator separator = true ∧ SafePath relative ∧
                  output = letter :: 0x3A :: separator :: relative) := by
  refine ⟨fun path _ => safeRelativePath_iff path, fun c value output hroot _ h => ?_⟩
  cases hmode : c.unrestrictedFilesystem with
  | false =>
    obtain ⟨hle, relative, hsafe, rfl⟩ := buildSandboxPath_root hroot hmode h
    exact ⟨Nat.succ_le_succ hle, fun _ => ⟨relative, hsafe, rfl, normalise_below hsafe⟩, fun hall => by cases hall⟩
  | true =>
    obtain ⟨hle, hdrive⟩ := buildSandboxPath_all hmode h
    exact ⟨Nat.succ_le_succ hle, fun hall => (by cases hall), fun _ => hdrive⟩

/-- `C:\RATSR\A`. -/
def samplePath : Bytes := [0x43, 0x3A, 0x5C, 0x52, 0x41, 0x54, 0x53, 0x52, 0x5C, 0x41]

/-- The file `A` below `C:\RATSR`. -/
theorem path_confinement_file :
    (safeRelativePath [0x41] = true ↔ SafePath [0x41]) ∧
      ∃ relative, SafePath relative ∧ samplePath = rootPrefix sampleConfig.sandboxRoot ++ relative := by
  refine ⟨path_confinement.1 [0x41] (by decide), ?_⟩
  obtain ⟨-, hroot, -⟩ := path_confinement.2 sampleConfig [0x41] samplePath (by decide) (by decide) (by decide +kernel)
  obtain ⟨relative, hsafe, hout, -⟩ := hroot rfl
  exact ⟨relative, hsafe, hout⟩

end DosMcp.Dos
