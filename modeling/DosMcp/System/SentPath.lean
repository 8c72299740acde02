/-
  DosMcp.System.SentPath — the path of a FILE_READ_BEGIN or FILE_WRITE_BEGIN, as the Python
  decoder reads it and as RA-TSR acts on it.

  RA-TSR copies the declared bytes and puts a NUL behind them; what it checks and opens is the
  C string before the first NUL.

  - `buildSandboxPath_sent`: the path it builds has all the declared bytes if and only if none of
    them is NUL.
  - `Files.run_path`: an upload keeps its destination up to its commit.
  - `sent_path_iff`: the decoder accepts what RA-TSR accepts, and RA-TSR acts on the path it was
    sent, if and only if no byte of the path is NUL.
-/

import DosMcp.Dos.Sandbox
import DosMcp.System.Layouts

namespace DosMcp.Dos

open Lib

/-- The DOS path of the declared bytes: below the root, or as they are under `ALL`. -/
def sentPath (c : Config) (declared : Bytes) : Bytes :=
  if c.unrestrictedFilesystem then declared else directoryPrefix c.sandboxRoot ++ declared

theorem cString_eq_iff {bs : Bytes} : cString bs = bs ↔ 0 ∉ bs := by
  rw [cString, List.takeWhile_eq_self_iff]
  constructor
  · intro h hzero
    simpa using h 0 hzero
  · intro h b hb
    have hne : b ≠ 0 := fun hzero => h (hzero ▸ hb)
    simpa using hne

theorem buildSandboxPath_sent {c : Config} {declared path : Bytes} (h : buildSandboxPath c declared = some path) :
    (1 ≤ declared.length ∧ declared.length ≤ 80) ∧ (path = sentPath c declared ↔ 0 ∉ declared) := by
  unfold buildSandboxPath at h
  split at h
  · cases h
  rename_i hlength
  rw [← cString_eq_iff]
  refine ⟨by omega, ?_⟩
  unfold sentPath
  dsimp only at h
  by_cases hall : c.unrestrictedFilesystem = true
  · rw [if_pos hall] at h ⊢
    split at h
    · cases h
      rfl
    · cases h
  · rw [if_neg hall] at h ⊢
    split at h
    · cases h
    split at h
    · cases h
      rw [List.append_cancel_left_eq]
    · cases h

/-! ## Reads -/

/-- The transfer has the file at `path` open, at its start. -/
def Opened (f : Files) (path : Bytes) : Prop :=
  f.transfer.path = path ∧ ∃ i, f.transfer.handle = some i ∧ f.store.handles i = some ⟨dosName path, 0⟩

section

variable {c : Config} {m : Machine} {f f' : Files} {payload reply : Bytes}

theorem beginFileRead_opened (h : beginFileRead c m f payload = (some reply, f')) :
    payload.length = (byteAt payload 0).toNat + 1 ∧ ∃ path, buildSandboxPath c (payload.drop 1) = some path ∧ Opened f' path := by
  unfold beginFileRead at h
  split at h
  · cases h
  rename_i hguard
  have hlength : payload.length = (byteAt payload 0).toNat + 1 := by
    by_contra hne
    exact hguard (Or.inr (Or.inr (Or.inr hne)))
  refine ⟨hlength, ?_⟩
  split at h
  · cases h
  rename_i path hpath
  refine ⟨path, hpath, ?_⟩
  dsimp only at h
  split at h
  · cases h
  rename_i i opened hopen
  split at h
  · cases h
  rename_i size ended hend
  split at h
  · cases h
  split at h
  · cases h
  rename_i rewound hrewound
  cases h
  have hopened := Store.openFile_eq_some hopen
  obtain ⟨position, hended⟩ := Store.seekEnd_eq_some hopened hend
  exact ⟨rfl, i, rfl, Store.seekStart_eq_true hended hrewound⟩

/-! ## Uploads -/

theorem startFileWrite_path (h : startFileWrite c m f payload = (some reply, f')) : f'.transfer.path = f.transfer.path := by
  unfold startFileWrite at h
  dsimp only at h
  split at h
  · cases h
  rename_i g hcreate
  cases h
  obtain ⟨directory, -, name, i, -, -, htransfer, -, -⟩ := createTransferTemp_true hcreate
  show g.transfer.path = f.transfer.path
  rw [htransfer]

theorem beginFileWrite_path (h : beginFileWrite c m f payload = (some reply, f')) :
    byteAt payload 0 ≤ 1 ∧ payload.length = (byteAt payload 9).toNat + 10 ∧
      buildSandboxPath c (payload.drop 10) = some f'.transfer.path := by
  unfold beginFileWrite at h
  split at h
  · cases h
  split at h
  · cases h
  rename_i hbounds
  have hflag : byteAt payload 0 ≤ 1 := by
    rw [← UInt8.not_lt]
    exact fun hgt => hbounds (Or.inl hgt)
  have hlength : payload.length = (byteAt payload 9).toNat + 10 := by
    by_contra hne
    exact hbounds (Or.inr (Or.inl hne))
  refine ⟨hflag, hlength, ?_⟩
  split at h
  · cases h
  rename_i path hpath
  dsimp only at h
  split at h
  · rw [startFileWrite_path h, hpath]
  split at h
  · cases h
  · rw [startFileWrite_path h, hpath]

theorem renameOntoPath_path (f : Files) : (renameOntoPath f).2.transfer.path = f.transfer.path := by
  unfold renameOntoPath
  dsimp only
  split
  · rfl
  · rfl

/-- No request changes the path of a transfer that is active. -/
theorem TransferOp.run_path (hactive : f.transfer.kind ≠ .none) (op : TransferOp) (c : Config) (m : Machine) (payload : Bytes) :
    (op.run c m f payload).files.transfer.path = f.transfer.path := by
  cases op with
  | fileReadBegin =>
    show (beginFileRead c m f payload).2.transfer.path = _
    rw [beginFileRead, if_pos (Or.inr (Or.inl hactive))]
  | fileReadBlock =>
    show (readTransferBlock f payload).2.transfer.path = _
    unfold readTransferBlock
    split
    · rfl
    split
    · rfl
    split
    · rfl
    · rfl
  | fileReadEnd =>
    show (endReadTransfer f payload).2.transfer.path = _
    unfold endReadTransfer
    dsimp only
    split
    · rfl
    · rfl
  | fileWriteBegin =>
    show (beginFileWrite c m f payload).2.transfer.path = _
    rw [beginFileWrite, if_pos (Or.inr (Or.inl hactive))]
  | fileWriteBlock =>
    show (writeTransferBlock f payload).2.transfer.path = _
    unfold writeTransferBlock
    dsimp only
    split
    · rfl
    split
    · rfl
    split
    · rfl
    · rfl
  | fileWriteCommit =>
    show (commitFileWrite f payload).2.transfer.path = _
    unfold commitFileWrite
    dsimp only
    split
    · rfl
    split
    · exact renameOntoPath_path _
    split
    · rfl
    split
    · rfl
    · exact renameOntoPath_path _
  | fileAbort =>
    show (abortTransfer f payload).2.transfer.path = _
    unfold abortTransfer
    split
    · rfl
    · rfl
  | graphicsBegin =>
    show (if payload.length ≠ 0 then (none, f) else beginGraphics c m f).2.transfer.path = _
    rw [beginGraphics, if_pos hactive, ite_self]
  | graphicsBlock =>
    show (readGraphicsBlock m f payload).2.1.transfer.path = _
    unfold readGraphicsBlock
    split
    · rfl
    · rfl
  | graphicsEnd =>
    show (endReadTransfer f payload).2.transfer.path = _
    unfold endReadTransfer
    dsimp only
    split
    · rfl
    · rfl

/-- Through all of the events an upload is active. -/
def Uploads (c : Config) : Files → List FileEvent → Prop
  | f, [] => f.transfer.kind = .write
  | f, e :: events => f.transfer.kind = .write ∧ Uploads c (f.step c e) events

theorem Files.run_path {events : List FileEvent} (h : Uploads c f events) : (f.run c events).transfer.path = f.transfer.path := by
  induction events generalizing f with
  | nil => rfl
  | cons e events ih =>
    obtain ⟨hkind, hrest⟩ := h
    have hstep : (f.step c e).transfer.path = f.transfer.path := by
      cases e with
      | request m op payload => exact op.run_path (by rw [hkind]; decide) c m payload
      | cleanup => rfl
    exact (ih hrest).trans hstep

theorem renameOntoPath_renames (h : renameOntoPath f = (some reply, f')) :
    ∃ store : Store, store.rename (dosName f.transfer.temp) (dosName f.transfer.path) = (true, f'.store) := by
  unfold renameOntoPath at h
  dsimp only at h
  split at h
  · cases h
  · rename_i store hrename
    cases h
    exact ⟨f.store, hrename⟩

/-- A commit that succeeds has renamed the temporary file to the destination. -/
theorem commitFileWrite_renames (h : commitFileWrite f payload = (some reply, f')) :
    ∃ store : Store, store.rename (dosName f.transfer.temp) (dosName f.transfer.path) = (true, f'.store) := by
  unfold commitFileWrite at h
  dsimp only at h
  split at h
  · cases h
  split at h
  · have hrenamed := renameOntoPath_renames h
    exact hrenamed
  split at h
  · cases h
  split at h
  · cases h
  · have hrenamed := renameOntoPath_renames h
    exact hrenamed

/-- Whenever the upload in `f` is committed, it goes to `path`. -/
def Commits (c : Config) (f : Files) (path : Bytes) : Prop :=
  ∀ events payload reply f', Uploads c f events → commitFileWrite (f.run c events) payload = (some reply, f') →
    ∃ store : Store, store.rename (dosName (f.run c events).transfer.temp) (dosName path) = (true, f'.store)

theorem commits_path (c : Config) (f : Files) : Commits c f f.transfer.path := by
  intro events payload reply f' huploads hcommit
  obtain ⟨store, hrename⟩ := commitFileWrite_renames hcommit
  rw [Files.run_path huploads] at hrename
  exact ⟨store, hrename⟩

/-! ## Both sides -/

theorem validatePath_isOk {path : Bytes} (h : 1 ≤ path.length ∧ path.length ≤ 80) : validatePath path = .ok () ↔ 0 ∉ path := by
  rw [validatePath, raiseIf_eq_ok, not_or, not_not]
  exact and_iff_right h

/-- The decoder and a FILE_READ_BEGIN that RA-TSR accepts. -/
theorem readRequest_isOk (hlength : payload.length = (byteAt payload 0).toNat + 1)
    (hpath : 1 ≤ (payload.drop 1).length ∧ (payload.drop 1).length ≤ 80) :
    (∃ r, FileReadBeginRequest.decode payload = .ok r) ↔ 0 ∉ payload.drop 1 := by
  rw [← validatePath_isOk hpath]
  simp only [FileReadBeginRequest.decode, requireSize, bind_eq_ok, raiseIf_eq_ok, not_not]
  rw [leNat_slice_one (by omega)]
  constructor
  · rintro ⟨r, _, -, _, -, ⟨⟩, hvalid, -⟩
    exact hvalid
  · intro hvalid
    exact ⟨⟨payload.drop 1⟩, (), by omega, (), hlength, (), hvalid, rfl⟩

/-- The decoder and a FILE_WRITE_BEGIN that RA-TSR accepts. -/
theorem writeRequest_isOk (hflag : byteAt payload 0 ≤ 1) (hlength : payload.length = (byteAt payload 9).toNat + 10)
    (hpath : 1 ≤ (payload.drop 10).length ∧ (payload.drop 10).length ≤ 80) :
    (∃ r, FileWriteBeginRequest.decode payload = .ok r) ↔ 0 ∉ payload.drop 10 := by
  rw [← validatePath_isOk hpath]
  simp only [FileWriteBeginRequest.decode, requireSize, bind_eq_ok, raiseIf_eq_ok, not_not]
  rw [leNat_slice_one (by omega), leNat_slice_one (by omega)]
  have hone : (byteAt payload 0).toNat ≤ 1 := hflag
  constructor
  · rintro ⟨r, _, -, _, -, _, -, ⟨⟩, hvalid, -⟩
    exact hvalid
  · intro hvalid
    exact ⟨_, (), by omega, (), by omega, (), by omega, (), hvalid, rfl⟩

/-- What RA-TSR accepts: the decoder accepts it too, and the file opened or committed is the one
    at all the bytes of the path, if and only if none of them is NUL. -/
theorem sent_path_iff (c : Config) (m : Machine) (f f' : Files) (payload reply : Bytes) :
    (beginFileRead c m f payload = (some reply, f') →
      ((∃ r, FileReadBeginRequest.decode payload = .ok r) ∧ Opened f' (sentPath c (payload.drop 1)) ↔ 0 ∉ payload.drop 1)) ∧
    (beginFileWrite c m f payload = (some reply, f') →
      ((∃ r, FileWriteBeginRequest.decode payload = .ok r) ∧ f'.transfer.path = sentPath c (payload.drop 10) ∧
        Commits c f' (sentPath c (payload.drop 10)) ↔ 0 ∉ payload.drop 10)) := by
  constructor
  · intro h
    obtain ⟨hlength, path, hbuild, hopened⟩ := beginFileRead_opened h
    obtain ⟨hpath, hsent⟩ := buildSandboxPath_sent hbuild
    rw [readRequest_isOk hlength hpath]
    constructor
    · exact And.left
    · intro hnul
      rw [← hsent.mpr hnul]
      exact ⟨hnul, hopened⟩
  · intro h
    obtain ⟨hflag, hlength, hbuild⟩ := beginFileWrite_path h
    obtain ⟨hpath, hsent⟩ := buildSandboxPath_sent hbuild
    rw [writeRequest_isOk hflag hlength hpath]
    constructor
    · exact And.left
    · intro hnul
      rw [← hsent.mpr hnul]
      exact ⟨hnul, rfl, commits_path c f'⟩

end

/-- A store with the file `C:\RATSR\A`. -/
def rootFile : Files := ⟨.start, dosStore (fun name => if name = samplePath then some [0x6F] else none) fun _ => ⟨true, 900⟩⟩

/-- `FILE_READ_BEGIN` for `A` and `FILE_WRITE_BEGIN` for `B`, and what they leave. -/
def readA : Bytes := [1, 0x41]
def writeB : Bytes := [0, 1, 0, 0, 0, 0, 0, 0, 0, 1, 0x42]
def readingA : Files := (beginFileRead sampleConfig blankMachine rootFile readA).2
def writingB : Files := (beginFileWrite sampleConfig blankMachine rootFile writeB).2

theorem sent_path_iff_file :
    ((∃ r, FileReadBeginRequest.decode readA = .ok r) ∧ Opened readingA (sentPath sampleConfig (readA.drop 1)) ↔
      0 ∉ readA.drop 1) ∧
    ((∃ r, FileWriteBeginRequest.decode writeB = .ok r) ∧ writingB.transfer.path = sentPath sampleConfig (writeB.drop 10) ∧
      Commits sampleConfig writingB (sentPath sampleConfig (writeB.drop 10)) ↔ 0 ∉ writeB.drop 10) := by
  have hread := (sent_path_iff sampleConfig blankMachine rootFile readingA readA [1, 0, 1, 0, 0, 0]).1
  have hwrite := (sent_path_iff sampleConfig blankMachine rootFile writingB writeB [1, 0, 1, 0, 0, 0]).2
  exact ⟨hread (Prod.ext (by decide +kernel) rfl), hwrite (Prod.ext (by decide +kernel) rfl)⟩

/-- For the path `A`, NUL, `B` RA-TSR opens `C:\RATSR\A`; the decoder refuses the path. -/
theorem nul_shortens_path :
    (beginFileRead sampleConfig blankMachine rootFile [3, 0x41, 0, 0x42]).1 = some [1, 0, 1, 0, 0, 0] ∧
      (beginFileRead sampleConfig blankMachine rootFile [3, 0x41, 0, 0x42]).2.transfer.path = samplePath ∧
      samplePath ≠ sentPath sampleConfig [0x41, 0, 0x42] ∧
      FileReadBeginRequest.decode [3, 0x41, 0, 0x42] = .error (.valueError "DOS path must contain 1 to 80 non-NUL bytes") := by
  decide +kernel

end DosMcp.Dos
