/-
  DosMcp.Dos.Upload — the upload transaction of RA-TSR over every sequence of transfer
  requests and every behaviour of DOS.

  - `commit_keeps_destination_iff`: a failed commit leaves the destination as it was,
    except when the old file was removed and the rename then fails
    (`failed_rename_loses_destination`).
  - `committed_upload_intact`: what a commit renames onto the destination has the declared
    size and CRC, if every write stores its whole block or nothing. A write that stores a
    part moves the file but neither the offset nor the CRC, and the block sent again goes
    after it (`short_write_commits_wrong_bytes`).
-/

import DosMcp.Dos.TransferProofs
import DosMcp.Lib.Crc32

namespace DosMcp.Dos

open Lib

/-! ## Commit and the destination -/

/-- The checks of `commit_file_write`. -/
def commitAccepted (t : Transfer) (payload : Bytes) : Bool :=
  t.kind = .write ∧ payload.length = 2 ∧ dmGetU16 payload 0 = t.id ∧ t.offset = t.size ∧ t.crc = t.expectedCrc

/-- The file at the destination of the active upload. -/
def Files.destination (f : Files) : Option Bytes := f.store.files (dosName f.transfer.path)

/-- The commit takes the replacing branch and DOS gets through the removal of the old file
    but not through the rename: its calls are close, open, close, remove and rename. -/
def renameFailsAfterRemove (f : Files) (payload : Bytes) : Bool :=
  let outcome := fun call => (f.store.outcomes (f.store.log.length + call)).ok
  commitAccepted f.transfer payload && f.transfer.overwrite ≠ 0 && f.destination.isSome && outcome 1 && outcome 3 &&
    !outcome 4

theorem closeTransfer_files_ne {f : Files} {name : Bytes} (b : Bool) (hne : name ≠ dosName f.transfer.temp) :
    (closeTransfer f b).store.files name = f.store.files name := by
  simp only [closeTransfer]
  split
  · rw [Store.remove_files_ne _ hne]
    split <;> simp
  · split <;> simp

/-- A rename that fails leaves the destination alone. -/
theorem renameOntoPath_destination {f : Files} (hne : dosName f.transfer.temp ≠ dosName f.transfer.path)
    (h : (renameOntoPath f).1 = none) : (renameOntoPath f).2.store.files (dosName f.transfer.path) = f.destination := by
  simp only [renameOntoPath] at h ⊢
  split at h
  · rename_i store hr
    have hkeep := closeTransfer_files_ne (f := { f with store := store }) true hne.symm
    rw [hkeep, Store.rename_eq_false hr]
    rfl
  · cases h

/-- A rename to an absent name fails exactly when DOS lets it fail. -/
theorem renameOntoPath_eq_none {f : Files} {contents : Bytes} (htemp : f.store.files (dosName f.transfer.temp) = some contents)
    (hdest : f.destination = none) : (renameOntoPath f).1 = none ↔ f.store.drawn.ok = false := by
  have hr : f.store.rename (dosName f.transfer.temp) (dosName f.transfer.path) =
      if f.store.drawn.ok then (true, ((f.store.note .rename).setFile (dosName f.transfer.temp) none).setFile
        (dosName f.transfer.path) (some contents)) else (false, f.store.note .rename) := by
    simp [Store.rename, htemp, show f.store.files (dosName f.transfer.path) = none from hdest]
  rw [renameOntoPath, hr]
  cases f.store.drawn.ok <;> simp

theorem commitFileWrite_refused {f : Files} {payload : Bytes} (h : commitAccepted f.transfer payload = false) :
    commitFileWrite f payload = (none, f) := by
  simp only [commitAccepted, decide_eq_false_iff_not] at h
  simp only [commitFileWrite]
  rw [if_pos]
  by_contra hn
  simp only [not_or, not_not, ne_eq] at hn
  exact h hn

/-- The ways through an accepted commit, with the files `g` before the last call: nothing
    opens at the destination; the old file stays; the old file is removed. -/
theorem commitFileWrite_cases {f : Files} {payload : Bytes} (h : commitAccepted f.transfer payload = true) :
    ∃ g : Files, g.transfer = { f.transfer with handle := none } ∧
      ((¬ (f.destination.isSome ∧ (f.store.outcomes (f.store.log.length + 1)).ok) ∧ g.store.files = f.store.files ∧
          commitFileWrite f payload = renameOntoPath g) ∨
        ((f.transfer.overwrite = 0 ∨ (f.store.outcomes (f.store.log.length + 3)).ok = false) ∧
          g.store.files = f.store.files ∧ commitFileWrite f payload = (none, closeTransfer g true)) ∨
        (f.destination.isSome ∧ (f.store.outcomes (f.store.log.length + 1)).ok ∧ f.transfer.overwrite ≠ 0 ∧
          (f.store.outcomes (f.store.log.length + 3)).ok ∧
          g.store.files = Function.update f.store.files (dosName f.transfer.path) none ∧
          g.store.drawn = f.store.outcomes (f.store.log.length + 4) ∧ commitFileWrite f payload = renameOntoPath g)) := by
  have hpass : ¬ (f.transfer.kind ≠ .write ∨ payload.length ≠ 2 ∨ dmGetU16 payload 0 ≠ f.transfer.id ∨
      f.transfer.offset ≠ f.transfer.size ∨ f.transfer.crc ≠ f.transfer.expectedCrc) := by
    simpa [commitAccepted] using h
  simp only [commitFileWrite, if_neg hpass]
  split
  · -- the open fails
    rename_i store hopen
    refine ⟨⟨{ f.transfer with handle := none }, store⟩, rfl, Or.inl ⟨fun hexists => ?_, ?_, rfl⟩⟩
    · simp [Store.openFile, Store.drawn, show (f.store.files (dosName f.transfer.path)).isSome from hexists.1,
        hexists.2] at hopen
    · have := congrArg (fun r => r.2.files) hopen
      simpa using this.symm
  · rename_i existing store hopen
    obtain ⟨hexists, hstore⟩ : ((f.store.files (dosName f.transfer.path)).isSome ∧
        (f.store.outcomes (f.store.log.length + 1)).ok) ∧
        (store.files = f.store.files ∧ store.outcomes = f.store.outcomes ∧ store.log.length = f.store.log.length + 2) := by
      simp only [Store.openFile, Store.drawn, Store.close_files, Store.close_outcomes, Store.close_log,
        List.length_append, List.length_singleton] at hopen
      split at hopen
      · rename_i hcond
        obtain ⟨-, rfl⟩ : _ ∧ _ = store := by simpa using hopen
        exact ⟨hcond, by simp, by simp, by simp⟩
      · cases hopen
    obtain ⟨hfiles, houtcomes, hlog⟩ := hstore
    have hdrawn : (store.close (some existing)).drawn = f.store.outcomes (f.store.log.length + 3) := by
      simp [Store.drawn, houtcomes, hlog]
    split
    · rename_i hover
      exact ⟨⟨{ f.transfer with handle := none }, _⟩, rfl, Or.inr (Or.inl ⟨Or.inl hover, by simpa using hfiles, rfl⟩)⟩
    rename_i hover
    split
    · -- the removal fails: the file is there, so DOS let it fail
      rename_i store' hremove
      refine ⟨⟨{ f.transfer with handle := none }, store'⟩, rfl, Or.inr (Or.inl ⟨Or.inr ?_, ?_, rfl⟩)⟩
      · simp only [Store.remove, Store.close_files, hfiles, hexists.1, hdrawn, true_and] at hremove
        split at hremove
        · cases hremove
        · rename_i hno
          simpa using hno
      · rw [Store.remove_eq_false hremove]
        simpa using hfiles
    · rename_i store' hremove
      have hok : (f.store.outcomes (f.store.log.length + 3)).ok := by
        simp only [Store.remove, hdrawn] at hremove
        split at hremove
        · rename_i hcond
          exact hcond.2
        · cases hremove
      have hstore' := Store.remove_eq_true hremove
      refine ⟨⟨{ f.transfer with handle := none }, store'⟩, rfl,
        Or.inr (Or.inr ⟨hexists.1, hexists.2, hover, hok, ?_, ?_, rfl⟩)⟩
      · simp [hstore', hfiles]
      · simp [hstore', Store.drawn, houtcomes, hlog]

/-- A failed commit leaves the destination as it was, unless the rename fails after the old
    file was removed. -/
theorem commit_keeps_destination_iff (c : Config) (store : Store) (events : List FileEvent) (payload : Bytes) :
    let f := Files.run c ⟨.start, store⟩ events
    ((commitFileWrite f payload).1 = none →
        (commitFileWrite f payload).2.store.files (dosName f.transfer.path) = f.destination) ↔
      renameFailsAfterRemove f payload = false := by
  intro f
  have hi : f.Inv fun _ _ _ => True := Files.run_inv (Files.inv_start store) events
  clear_value f
  by_cases hacc : commitAccepted f.transfer payload = true
  swap
  · rw [Bool.not_eq_true] at hacc
    simp [commitFileWrite_refused hacc, renameFailsAfterRemove, hacc, Files.destination]
  have hkind : f.transfer.kind = .write := by
    simp only [commitAccepted, decide_eq_true_eq] at hacc
    exact hacc.1
  obtain ⟨i, position, contents, hup, -⟩ := hi.upload hkind
  obtain ⟨g, hg, hcase⟩ := commitFileWrite_cases hacc
  have hne : dosName g.transfer.temp ≠ dosName g.transfer.path := by rw [hg]; exact hup.temp_ne
  have hpath : g.transfer.path = f.transfer.path := by rw [hg]
  simp only [renameFailsAfterRemove, hacc, Bool.true_and]
  rcases hcase with ⟨hno, hfiles, e⟩ | ⟨hstay, hfiles, e⟩ | ⟨hsome, hok1, hover, hok3, hfiles, hdrawn, e⟩
  · -- nothing opens at the destination: the rename alone decides
    refine iff_of_true (fun h => ?_) ?_
    · rw [e] at h ⊢
      rw [← hpath, renameOntoPath_destination hne h, Files.destination, Files.destination, hfiles, hpath]
    · rw [Bool.eq_false_iff]
      intro hbad
      simp only [Bool.and_eq_true] at hbad
      exact hno ⟨hbad.1.1.1.2, hbad.1.1.2⟩
  · -- the old file stays
    refine iff_of_true (fun _ => ?_) ?_
    · rw [e, ← hpath, closeTransfer_files_ne true hne.symm, hfiles, hpath]
      rfl
    · rcases hstay with h | h
      · simp [h]
      · simp [h]
  · -- the old file is gone: a failed rename loses it
    have htemp : g.store.files (dosName g.transfer.temp) = some contents := by
      rw [hfiles, hg, Function.update_of_ne hup.temp_ne]
      exact hup.file_eq
    have hgone : g.destination = none := by
      rw [Files.destination, hfiles, hpath, Function.update_self]
    have hfails := renameOntoPath_eq_none htemp hgone
    rw [hdrawn] at hfails
    rw [e]
    constructor
    · intro hkeep
      by_contra hbad
      have hfail : (f.store.outcomes (f.store.log.length + 4)).ok = false := by
        simpa [hsome, hok1, hover, hok3] using hbad
      have hnone := hkeep (hfails.mpr hfail)
      rw [← hpath, renameOntoPath_destination hne (hfails.mpr hfail), hgone] at hnone
      rw [← hnone] at hsome
      cases hsome
    · intro hgood hnone
      have hfail := hfails.mp hnone
      simp [hsome, hok1, hover, hok3, hfail] at hgood

/-- `FILE_WRITE_BEGIN` for `A`, replacing it. -/
def beginUpload (data : Bytes) : FileEvent :=
  .request blankMachine .fileWriteBegin
    ([1] ++ dmPutU32 (.ofNat data.length) ++ dmPutU32 (crc32Update 0 data) ++ [1, 0x41])

/-- `FILE_WRITE_BLOCK` of transfer 1 at offset 0. -/
def uploadBlock (data : Bytes) : FileEvent :=
  .request blankMachine .fileWriteBlock ([1, 0] ++ dmPutU32 0 ++ dmPutU16 (.ofNat data.length) ++ data)

/-- The file `C:\\RATSR\\A`. -/
def destinationA : Bytes := [0x43, 0x3A, 0x5C, 0x52, 0x41, 0x54, 0x53, 0x52, 0x5C, 0x41]

/-- A one-byte upload that replaces `A`, before its commit; the rename, the seventh call, fails. -/
def failingRename : Files :=
  Files.run sampleConfig ⟨.start, dosStore (fun name => if name = destinationA then some [0x6F] else none)
    fun call => ⟨call ≠ 6, 900⟩⟩ [beginUpload [0x6E], uploadBlock [0x6E]]

/-- The commit fails, and the destination that was there is gone. -/
theorem failed_rename_loses_destination :
    (commitFileWrite failingRename [1, 0]).1 = none ∧ failingRename.destination = some [0x6F] ∧
      (commitFileWrite failingRename [1, 0]).2.store.files (dosName failingRename.transfer.path) = none := by
  decide +kernel

/-! ## The uploaded bytes -/

theorem crc32UpdateBit_toNat (crc : UInt32) : (crc32UpdateBit crc).toNat = crc32Bit crc.toNat := by
  have hbit : crc &&& 1 ≠ 0 ↔ crc.toNat &&& 1 ≠ 0 := by
    rw [ne_eq, ← UInt32.toNat_inj, UInt32.toNat_and]
    rfl
  unfold crc32UpdateBit crc32Bit
  by_cases h : crc &&& 1 ≠ 0
  · rw [if_pos h, if_pos (hbit.mp h), UInt32.toNat_xor, UInt32.toNat_shiftRight]
    rfl
  · rw [if_neg h, if_neg (mt hbit.mpr h), UInt32.toNat_xor, UInt32.toNat_shiftRight]
    simp

theorem crc32UpdateByte_toNat (crc : UInt32) (value : UInt8) :
    (crc32UpdateByte crc value).toNat = crc32Byte crc.toNat value := by
  have hiter : ∀ n x, (crc32UpdateBit^[n] x).toNat = crc32Bit^[n] x.toNat := by
    intro n
    induction n with
    | zero => exact fun _ => rfl
    | succ n ih =>
      intro x
      rw [Function.iterate_succ_apply, Function.iterate_succ_apply, ih, crc32UpdateBit_toNat]
  rw [crc32UpdateByte, hiter, UInt32.toNat_xor]
  rfl

/-- The 32-bit running CRC of the DOS agent is the CRC-32. -/
theorem crc32Update_toNat (crc : UInt32) (data : Bytes) : (crc32Update crc data).toNat = crc32 data crc.toNat := by
  have hfold : ∀ x : UInt32, (data.foldl crc32UpdateByte x).toNat = data.foldl crc32Byte x.toNat := by
    induction data with
    | nil => exact fun _ => rfl
    | cons b data ih =>
      intro x
      rw [List.foldl_cons, List.foldl_cons, ih, crc32UpdateByte_toNat]
  rw [crc32Update, crc32, UInt32.toNat_xor, hfold, UInt32.toNat_xor]
  rfl

/-- The offset and CRC of the transfer describe the bytes in the temporary file. -/
def Described (t : Transfer) (position : Nat) (contents : Bytes) : Prop :=
  position = contents.length ∧ t.offset.toNat = contents.length ∧ t.crc.toNat = crc32 contents 0 ∧
    t.offset ≤ t.size ∧ t.size ≤ tsrFileMax

/-- The write of the block stores all of it, or nothing. -/
def wholeWrite (f : Files) (payload : Bytes) : Bool :=
  f.store.drawn.count = 0 ∨ (f.store.drawn.ok ∧ (payload.drop 8).length ≤ f.store.drawn.count)

def Files.wholeStep (f : Files) : FileEvent → Bool
  | .request _ .fileWriteBlock payload => !blockAccepted f.transfer payload || wholeWrite f payload
  | _ => true

/-- No `_dos_write` of the run stores a part of its block. -/
def wholeWrites (c : Config) : Files → List FileEvent → Bool
  | _, [] => true
  | f, e :: events => f.wholeStep e && wholeWrites c (f.step c e) events

theorem described_start : HoldsAtStart Described := by
  intro t hoffset hcrc hsize
  refine ⟨rfl, by rw [hoffset]; rfl, by rw [hcrc]; rfl, ?_, hsize⟩
  rw [hoffset]
  exact UInt32.zero_le

theorem described_block {f : Files} {payload : Bytes} (hwhole : wholeWrite f payload = true) :
    HoldsAcrossBlock Described f payload := by
  rintro hacc position contents ⟨rfl, hoff, hcrc, hle, hmax⟩
  simp only [wholeWrite, decide_eq_true_eq] at hwhole
  simp only [Store.splice_length, Transfer.afterBlock]
  simp only [blockAccepted, decide_eq_true_eq] at hacc
  obtain ⟨-, hlen, -, hne, hbmax, hpl, hoffset, hsize⟩ := hacc
  have hdata : (payload.drop 8).length = (dmGetU16 payload 6).toNat := by
    rw [List.length_drop]
    omega
  have hpos : 0 < (payload.drop 8).length := by
    rw [hdata, Nat.pos_iff_ne_zero]
    exact fun h => hne (UInt16.toNat_inj.mp h)
  rcases hwhole with hzero | ⟨hok, hall⟩
  · -- nothing is stored and nothing is counted
    rw [if_neg (by simp [hzero]; omega), hzero]
    exact ⟨by simp, by simpa using hoff, by simpa using hcrc, hle, hmax⟩
  · rw [List.take_of_length_le hall, if_pos ⟨hok, rfl⟩]
    have hsum : (f.transfer.offset + UInt32.ofNat (payload.drop 8).length).toNat =
        contents.length + (payload.drop 8).length := by
      rw [UInt32.toNat_add, UInt32.toNat_ofNat', hoff]
      rw [UInt32.le_iff_toNat_le] at hle hmax
      rw [UInt16.le_iff_toNat_le] at hbmax
      have h1 : tsrFileMax.toNat = 1048576 := rfl
      have h2 : transferBlockMax.toNat = 900 := rfl
      omega
    refine ⟨by simp, by rw [Transfer.advance, hsum, List.length_append], ?_, ?_, hmax⟩
    · rw [Transfer.advance, crc32Update_toNat, hcrc, ← crc32_append]
    · have h32 : UInt32.ofNat (payload.drop 8).length = (dmGetU16 payload 6).toUInt32 := by
        rw [hdata]
        apply UInt32.toNat_inj.mp
        have := (dmGetU16 payload 6).toNat_lt
        simp
      simp only [Transfer.advance, h32]
      rwa [hoffset] at hsize

theorem Files.run_described {c : Config} {f : Files} (hi : f.Inv Described) {events : List FileEvent}
    (hwhole : wholeWrites c f events = true) : (f.run c events).Inv Described := by
  induction events generalizing f with
  | nil => exact hi
  | cons e events ih =>
    simp only [wholeWrites, Bool.and_eq_true] at hwhole
    refine ih ?_ hwhole.2
    cases e with
    | request m op payload =>
      refine TransferOp.run_inv described_start hi (fun hop => ?_) c m
      subst hop
      intro hacc
      have hw : wholeWrite f payload = true := by simpa [Files.wholeStep, hacc] using hwhole.1
      exact described_block hw hacc
    | cleanup => exact closeTransfer_inv f true

theorem renameOntoPath_some {f f' : Files} {reply contents : Bytes}
    (htemp : f.store.files (dosName f.transfer.temp) = some contents) (h : renameOntoPath f = (some reply, f')) :
    f'.store.files (dosName f.transfer.path) = some contents := by
  simp only [renameOntoPath] at h
  split at h
  · cases h
  · rename_i store hr
    obtain ⟨bytes, hbytes, hstore⟩ := Store.rename_eq_true hr
    obtain ⟨-, rfl⟩ : _ ∧ _ = f' := by simpa using h
    rw [htemp] at hbytes
    simp [hstore, Option.some.inj hbytes]

/-- A commit that succeeds leaves at the destination the bytes of the temporary file. -/
theorem commitFileWrite_some {f f' : Files} {payload reply : Bytes} {i position : Nat} {contents : Bytes}
    (hup : Uploading f i position contents) (h : commitFileWrite f payload = (some reply, f')) :
    f'.store.files (dosName f.transfer.path) = some contents := by
  have hacc : commitAccepted f.transfer payload = true := by
    by_contra hno
    rw [commitFileWrite_refused (by simpa using hno)] at h
    cases h
  obtain ⟨g, hg, hcase⟩ := commitFileWrite_cases hacc
  have hpath : g.transfer.path = f.transfer.path := by rw [hg]
  have htemp : g.transfer.temp = f.transfer.temp := by rw [hg]
  rcases hcase with ⟨-, hfiles, e⟩ | ⟨-, -, e⟩ | ⟨-, -, -, -, hfiles, -, e⟩
  · rw [e] at h
    have hsome := renameOntoPath_some (by rw [hfiles, htemp]; exact hup.file_eq) h
    rwa [hpath] at hsome
  · rw [e] at h
    cases h
  · rw [e] at h
    have hkept : g.store.files (dosName g.transfer.temp) = some contents := by
      rw [hfiles, htemp, Function.update_of_ne hup.temp_ne]
      exact hup.file_eq
    have hsome := renameOntoPath_some hkept h
    rwa [hpath] at hsome

/-- With whole writes, the file a commit puts at the destination has the declared size and CRC. -/
theorem committed_upload_intact (c : Config) (store : Store) (events : List FileEvent)
    (hwhole : wholeWrites c ⟨.start, store⟩ events = true) (payload reply : Bytes) (f' : Files) :
    let f := Files.run c ⟨.start, store⟩ events
    commitFileWrite f payload = (some reply, f') →
      ∃ bytes, f'.store.files (dosName f.transfer.path) = some bytes ∧ bytes.length = f.transfer.size.toNat ∧
        crc32 bytes 0 = f.transfer.expectedCrc.toNat := by
  intro f h
  have hi : f.Inv Described := Files.run_described (Files.inv_start store) hwhole
  have hacc : commitAccepted f.transfer payload = true := by
    by_contra hno
    rw [commitFileWrite_refused (by simpa using hno)] at h
    cases h
  simp only [commitAccepted, decide_eq_true_eq] at hacc
  obtain ⟨hkind, -, -, hoff, hcrc⟩ := hacc
  obtain ⟨i, position, contents, hup, -, hlen, hdesc, -⟩ := hi.upload hkind
  exact ⟨contents, commitFileWrite_some hup h, by rw [← hlen, hoff], by rw [← hdesc, hcrc]⟩

/-- An upload of `ab` to `A` that meets no failure, before its commit. -/
def plainUpload : Files :=
  Files.run sampleConfig ⟨.start, dosStore (fun _ => none) fun _ => ⟨true, 900⟩⟩
    [beginUpload [0x61, 0x62], uploadBlock [0x61, 0x62]]

theorem committed_upload_intact_plain :
    (commitFileWrite plainUpload [1, 0]).1 = some (dmPutU32 2 ++ dmPutU32 (crc32Update 0 [0x61, 0x62])) ∧
      ∃ bytes, (commitFileWrite plainUpload [1, 0]).2.store.files (dosName plainUpload.transfer.path) = some bytes ∧
        bytes.length = plainUpload.transfer.size.toNat ∧ crc32 bytes 0 = plainUpload.transfer.expectedCrc.toNat := by
  have hreply : (commitFileWrite plainUpload [1, 0]).1 = some (dmPutU32 2 ++ dmPutU32 (crc32Update 0 [0x61, 0x62])) := by
    decide +kernel
  exact ⟨hreply, committed_upload_intact sampleConfig _ _ (by decide +kernel) [1, 0] _ _ (Prod.ext hreply rfl)⟩

/-- The first write of the same upload, the second call, stores one of the two bytes; the
    client sends the block again. -/
def shortWrite : Files :=
  Files.run sampleConfig ⟨.start, dosStore (fun _ => none) fun call => ⟨true, if call = 1 then 1 else 900⟩⟩
    [beginUpload [0x61, 0x62], uploadBlock [0x61, 0x62], uploadBlock [0x61, 0x62]]

/-- The commit succeeds with `aab` at the destination of a two-byte upload. -/
theorem short_write_commits_wrong_bytes :
    (commitFileWrite shortWrite [1, 0]).1.isSome ∧ shortWrite.transfer.size = 2 ∧
      (commitFileWrite shortWrite [1, 0]).2.store.files (dosName shortWrite.transfer.path) = some [0x61, 0x61, 0x62] ∧
      crc32 [0x61, 0x61, 0x62] 0 ≠ shortWrite.transfer.expectedCrc.toNat := by
  decide +kernel

end DosMcp.Dos
