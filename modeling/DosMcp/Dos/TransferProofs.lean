/-
  DosMcp.Dos.TransferProofs — the state of RA-TSR's transfers over every sequence of
  transfer requests and every behaviour of DOS.

  `Files.Inv` holds in every state the requests reach (`TransferOp.run_inv`,
  `Files.run_inv`): a file read has its file open, an active upload has its temporary file
  open under another name than the destination, and nothing else holds a file.
-/

import DosMcp.Dos.Transfer

namespace DosMcp.Dos

open Lib

/-! ## Names -/

theorem lowerByte_eq_of_nameByte_eq {a b : UInt8} (ha : isSeparator a = false) (h : nameByte a = nameByte b) :
    lowerByte a = lowerByte b := by
  have hal := a.toNat_lt
  have hbl := b.toNat_lt
  simp only [isSeparator, slash, backslash, decide_eq_false_iff_not, not_or, nameByte, lowerByte, UInt8.le_iff_toNat_le,
    ← UInt8.toNat_inj] at *
  split_ifs at * <;>
    simp only [UInt8.toNat_add, UInt8.toNat_sub, UInt8.reduceToNat] at * <;> omega

theorem map_lowerByte_eq {name rest : Bytes} (hsep : ∀ b ∈ name, isSeparator b = false)
    (h : name.map nameByte = rest.map nameByte) : name.map lowerByte = rest.map lowerByte := by
  induction name generalizing rest with
  | nil =>
    have hr : rest = [] := by simpa using h.symm
    rw [hr]
  | cons a name ih =>
    cases rest with
    | nil => simp at h
    | cons b rest =>
      obtain ⟨hab, hrest⟩ : nameByte a = nameByte b ∧ name.map nameByte = rest.map nameByte := by simpa using h
      rw [List.map_cons, List.map_cons, lowerByte_eq_of_nameByte_eq (hsep a List.mem_cons_self) hab,
        ih (fun b hb => hsep b (List.mem_cons_of_mem _ hb)) hrest]

/-- In one directory, names that differ for `stricmp` name different files. -/
theorem dosName_ne {directory name rest : Bytes} (hsep : ∀ b ∈ name, isSeparator b = false)
    (h : stricmpEqual (directory ++ name) (directory ++ rest) = false) :
    dosName (directory ++ name) ≠ dosName (directory ++ rest) := by
  intro e
  simp only [dosName, List.map_append, List.append_cancel_left_eq] at e
  simp only [stricmpEqual, List.map_append, List.append_cancel_left_eq, decide_eq_false_iff_not] at h
  exact h (map_lowerByte_eq hsep e)

theorem hexDigit_not_separator {n : Nat} (h : n < 16) : isSeparator (hexDigit n) = false := by
  have hall : ∀ n < 16, isSeparator (hexDigit n) = false := by decide
  exact hall n h

theorem tempName_not_separator (id : UInt16) {attempt : Nat} (h : attempt < 16) :
    ∀ b ∈ tempName id attempt, isSeparator b = false := by
  have hid := id.toNat_lt
  intro b hb
  simp only [tempName, List.mem_cons, List.not_mem_nil, or_false] at hb
  rcases hb with rfl | rfl | rfl | rfl | rfl | rfl | rfl | rfl | rfl | rfl | rfl
  all_goals first | decide | exact hexDigit_not_separator (by omega)

theorem parentPrefix_append {path directory : Bytes} (h : parentPrefix path = some directory) :
    ∃ rest, path = directory ++ rest := by
  have hpath : path = (path.reverse.dropWhile (!isSeparator ·)).reverse ++ (path.reverse.takeWhile (!isSeparator ·)).reverse := by
    rw [← List.reverse_append, List.takeWhile_append_dropWhile, List.reverse_reverse]
  unfold parentPrefix at h
  split at h
  · cases h
  · cases h
    exact ⟨_, hpath⟩

/-- The temporary file goes into a directory above the destination. -/
theorem tempPrefix_append {c : Config} {value : Bytes} {f : Files} {directory : Bytes}
    (hpath : buildSandboxPath c value = some f.transfer.path) (h : tempPrefix c f = some directory) :
    ∃ rest, f.transfer.path = directory ++ rest := by
  unfold tempPrefix at h
  unfold buildSandboxPath at hpath
  split at h
  · exact parentPrefix_append h
  · rename_i hroot
    cases h
    simp only [hroot] at hpath
    split_ifs at hpath
    · simp_all
    · exact ⟨_, (Option.some.inj hpath).symm⟩

/-! ## The temporary file -/

/-- `f'` is `f` with a fresh temporary file open in `directory`. -/
def TempCreated (directory : Bytes) (f f' : Files) : Prop :=
  ∃ name i, (∀ b ∈ name, isSeparator b = false) ∧ stricmpEqual (directory ++ name) f.transfer.path = false ∧
    f'.transfer = { f.transfer with temp := directory ++ name, handle := some i } ∧
    f'.store.files (dosName (directory ++ name)) = some [] ∧
    f'.store.handles i = some ⟨dosName (directory ++ name), 0⟩

theorem tryTransferTemp_true {directory : Bytes} {id : UInt16} {attempt fuel : Nat} {f f' : Files}
    (hle : attempt + fuel ≤ 16) (h : tryTransferTemp directory id attempt fuel f = (true, f')) :
    TempCreated directory f f' := by
  induction fuel generalizing attempt f with
  | zero => simp [tryTransferTemp] at h
  | succ fuel ih =>
    simp only [tryTransferTemp] at h
    split at h
    · have hrest := ih (by omega) h
      exact hrest
    · rename_i hne
      split at h
      · have hrest := ih (by omega) h
        exact hrest
      · rename_i i store hcreate
        obtain rfl : _ = f' := by simpa using h
        obtain ⟨hfile, hhandle⟩ := Store.create_eq_some hcreate
        exact ⟨tempName id attempt, i, tempName_not_separator id (by omega), by simpa using hne, rfl, hfile, hhandle⟩

/-- No temporary file: only the name tried last has changed. -/
theorem tryTransferTemp_false {directory : Bytes} {id : UInt16} {attempt fuel : Nat} {f f' : Files}
    (h : tryTransferTemp directory id attempt fuel f = (false, f')) :
    ∃ temp, f'.transfer = { f.transfer with temp := temp } := by
  induction fuel generalizing attempt f with
  | zero =>
    obtain rfl : _ = f' := by simpa [tryTransferTemp] using h
    exact ⟨[], rfl⟩
  | succ fuel ih =>
    rw [tryTransferTemp] at h
    split at h
    · have hrest := ih h
      exact hrest
    · split at h
      · have hrest := ih h
        exact hrest
      · cases h

theorem createTransferTemp_true {c : Config} {id : UInt16} {f f' : Files}
    (h : createTransferTemp c id f = (true, f')) :
    ∃ directory, tempPrefix c f = some directory ∧ TempCreated directory f f' := by
  unfold createTransferTemp at h
  split at h
  · simp at h
  · rename_i directory hdir
    split at h
    · simp at h
    · exact ⟨directory, hdir, tryTransferTemp_true (by omega) h⟩

theorem createTransferTemp_false {c : Config} {id : UInt16} {f f' : Files}
    (h : createTransferTemp c id f = (false, f')) : ∃ temp, f'.transfer = { f.transfer with temp := temp } := by
  unfold createTransferTemp at h
  split at h
  · obtain rfl : f = f' := by simpa using h
    exact ⟨f.transfer.temp, rfl⟩
  · split at h
    · rename_i directory _ _
      obtain rfl : _ = f' := by simpa using h
      exact ⟨directory, rfl⟩
    · exact tryTransferTemp_false h

/-! ## The invariant -/

/-- An active upload: its temporary file is open and is not the destination. -/
structure Uploading (f : Files) (i position : Nat) (contents : Bytes) : Prop where
  handle_eq : f.transfer.handle = some i
  handle_at : f.store.handles i = some ⟨dosName f.transfer.temp, position⟩
  file_eq : f.store.files (dosName f.transfer.temp) = some contents
  temp_ne : dosName f.transfer.temp ≠ dosName f.transfer.path

/-- What holds between transfer requests; `P` is what is known about the transfer, the
    position and the contents of an active upload. -/
structure Files.Inv (P : Transfer → Nat → Bytes → Prop) (f : Files) : Prop where
  idle : f.transfer.kind = .none ∨ f.transfer.kind = .graphics → f.transfer.handle = none
  reading : f.transfer.kind = .read → f.transfer.handle.isSome
  upload : f.transfer.kind = .write → ∃ i position contents, Uploading f i position contents ∧ P f.transfer position contents

section

variable {P : Transfer → Nat → Bytes → Prop} {f : Files}

theorem Files.inv_start (store : Store) : Files.Inv P ⟨.start, store⟩ :=
  ⟨fun _ => rfl, by simp [Transfer.start], by simp [Transfer.start]⟩

/-- Nothing is asked of a transfer that is over. -/
theorem Files.inv_of_closed (hkind : f.transfer.kind = .none) (hhandle : f.transfer.handle = none) : f.Inv P :=
  ⟨fun _ => hhandle, by simp [hkind], by simp [hkind]⟩

theorem Files.inv_of_read (hkind : f.transfer.kind = .read) (hhandle : f.transfer.handle.isSome) : f.Inv P :=
  ⟨by simp [hkind], fun _ => hhandle, by simp [hkind]⟩

@[simp] theorem closeTransfer_kind (f : Files) (b : Bool) : (closeTransfer f b).transfer.kind = .none := rfl

@[simp] theorem closeTransfer_handle (f : Files) (b : Bool) : (closeTransfer f b).transfer.handle = none := rfl

theorem closeTransfer_inv (f : Files) (b : Bool) : (closeTransfer f b).Inv P := Files.inv_of_closed rfl rfl

theorem beginFileRead_inv (hi : f.Inv P) (c : Config) (m : Machine) (payload : Bytes) :
    (beginFileRead c m f payload).2.Inv P := by
  unfold beginFileRead
  split
  · exact hi
  rename_i hguard
  have hkind : f.transfer.kind = .none := by
    by_contra hne
    exact hguard (Or.inr (Or.inl hne))
  split
  · exact hi
  split
  · exact Files.inv_of_closed hkind (hi.idle (Or.inl hkind))
  dsimp only
  split
  · exact closeTransfer_inv _ _
  split
  · exact closeTransfer_inv _ _
  split
  · exact closeTransfer_inv _ _
  · exact Files.inv_of_read rfl rfl

theorem readTransferBlock_inv (hi : f.Inv P) (payload : Bytes) : (readTransferBlock f payload).2.Inv P := by
  unfold readTransferBlock
  split
  · exact hi
  rename_i requested hreq
  have hkind : f.transfer.kind = .read := by
    by_contra hne
    simp [blockRequest, hne] at hreq
  have hhandle := hi.reading hkind
  split
  · exact Files.inv_of_read hkind hhandle
  split
  · exact Files.inv_of_read hkind hhandle
  · exact Files.inv_of_read hkind hhandle

theorem endReadTransfer_inv (hi : f.Inv P) (payload : Bytes) : (endReadTransfer f payload).2.Inv P := by
  simp only [endReadTransfer]
  split
  · exact hi
  · exact closeTransfer_inv _ _

/-- `P` holds of an upload that has just begun. -/
def HoldsAtStart (P : Transfer → Nat → Bytes → Prop) : Prop :=
  ∀ t : Transfer, t.offset = 0 → t.crc = 0 → t.size ≤ tsrFileMax → P t 0 []

theorem startFileWrite_inv (hP : HoldsAtStart P) {c : Config} {value payload : Bytes} (hkind : f.transfer.kind = .none)
    (hhandle : f.transfer.handle = none) (m : Machine) (hsize : dmGetU32 payload 1 ≤ tsrFileMax)
    (hpath : buildSandboxPath c value = some f.transfer.path) : (startFileWrite c m f payload).2.Inv P := by
  simp only [startFileWrite]
  split
  · rename_i f' hc
    obtain ⟨temp, ht⟩ := createTransferTemp_false hc
    exact Files.inv_of_closed (by rw [ht]; exact hkind) (by rw [ht]; exact hhandle)
  · rename_i f' hc
    obtain ⟨directory, hdir, name, i, hsep, hne, ht, hfile, hat⟩ := createTransferTemp_true hc
    obtain ⟨rest, hrest⟩ := tempPrefix_append hpath hdir
    refine ⟨by simp, by simp, fun _ => ⟨i, 0, [], ⟨?_, ?_, ?_, ?_⟩, hP _ rfl rfl hsize⟩⟩
    · exact congrArg Transfer.handle ht
    · simpa [ht] using hat
    · simpa [ht] using hfile
    · have hne' : dosName (directory ++ name) ≠ dosName f.transfer.path := by
        rw [hrest] at hne ⊢
        exact dosName_ne hsep hne
      simpa [ht] using hne'

theorem beginFileWrite_inv (hP : HoldsAtStart P) (hi : f.Inv P) (c : Config) (m : Machine) (payload : Bytes) :
    (beginFileWrite c m f payload).2.Inv P := by
  unfold beginFileWrite
  split
  · exact hi
  rename_i hguard
  have hkind : f.transfer.kind = .none := by
    by_contra hne
    exact hguard (Or.inr (Or.inl hne))
  have hhandle := hi.idle (Or.inl hkind)
  split
  · exact hi
  rename_i hbounds
  have hsize : dmGetU32 payload 1 ≤ tsrFileMax := by
    rw [← UInt32.not_lt]
    exact fun h => hbounds (Or.inr (Or.inr h))
  split
  · exact hi
  rename_i path hpath
  dsimp only
  split
  · refine startFileWrite_inv hP ?_ ?_ m hsize hpath
    exacts [hkind, hhandle]
  split
  · exact Files.inv_of_closed hkind hhandle
  · refine startFileWrite_inv hP ?_ ?_ m hsize hpath
    exacts [hkind, hhandle]

/-- The checks of `write_transfer_block`. -/
def blockAccepted (t : Transfer) (payload : Bytes) : Bool :=
  t.kind = .write ∧ 8 ≤ payload.length ∧ dmGetU16 payload 0 = t.id ∧ dmGetU16 payload 6 ≠ 0 ∧
    dmGetU16 payload 6 ≤ transferBlockMax ∧ payload.length = (dmGetU16 payload 6).toNat + 8 ∧
    dmGetU32 payload 2 = t.offset ∧ dmGetU32 payload 2 + (dmGetU16 payload 6).toUInt32 ≤ t.size

/-- The transfer after a block of `data` was written. -/
def Transfer.advance (t : Transfer) (data : Bytes) : Transfer :=
  { t with crc := crc32Update t.crc data, offset := t.offset + .ofNat data.length }

/-- A block either is refused before any DOS call, or is written; only a write that stores
    all of it advances the transfer. -/
theorem writeTransferBlock_cases (f : Files) (payload : Bytes) :
    (blockAccepted f.transfer payload = false ∧ writeTransferBlock f payload = (none, f)) ∨
      (blockAccepted f.transfer payload = true ∧
        let w := f.store.write f.transfer.handle (payload.drop 8)
        (writeTransferBlock f payload).2.store = w.2.2 ∧
          if w.1 = true ∧ w.2.1 = (payload.drop 8).length then
            (writeTransferBlock f payload).2.transfer = f.transfer.advance (payload.drop 8)
          else writeTransferBlock f payload = (none, { f with store := w.2.2 })) := by
  by_cases hacc : blockAccepted f.transfer payload = true
  · right
    refine ⟨hacc, ?_⟩
    simp only [blockAccepted, decide_eq_true_eq] at hacc
    obtain ⟨hkind, hlen, hid, hne, hmax, hpl, hoff, hsize⟩ := hacc
    have hdrop : (payload.drop 8).length = (dmGetU16 payload 6).toNat := by
      rw [List.length_drop]
      omega
    have hlen32 : UInt32.ofNat (payload.drop 8).length = (dmGetU16 payload 6).toUInt32 := by
      rw [hdrop]
      apply UInt32.toNat_inj.mp
      have := (dmGetU16 payload 6).toNat_lt
      simp
    have hpass : writeTransferBlock f payload =
        if ¬ (f.store.write f.transfer.handle (payload.drop 8)).1 ∨
            (f.store.write f.transfer.handle (payload.drop 8)).2.1 ≠ (dmGetU16 payload 6).toNat then
          (none, { f with store := (f.store.write f.transfer.handle (payload.drop 8)).2.2 })
        else
          (some (dmPutU16 f.transfer.id ++ dmPutU32 (dmGetU32 payload 2) ++ dmPutU16 0 ++
              dmPutU32 (crc32Update f.transfer.crc (payload.drop 8))),
            ⟨f.transfer.advance (payload.drop 8), (f.store.write f.transfer.handle (payload.drop 8)).2.2⟩) := by
      rw [Transfer.advance, hlen32]
      unfold writeTransferBlock
      rw [if_neg (by simp [hkind, hid]; omega), if_neg]
      simp only [hne, hoff, hpl, not_or, false_or, not_true, ne_eq, gt_iff_lt, UInt16.not_lt, UInt32.not_lt]
      rw [hoff] at hsize
      exact ⟨hmax, hsize⟩
    rw [hpass, hdrop]
    generalize f.store.write f.transfer.handle (payload.drop 8) = w
    by_cases hok : w.1 = true ∧ w.2.1 = (dmGetU16 payload 6).toNat
    · rw [if_neg (by simp [hok.1, hok.2])]
      exact ⟨rfl, by rw [if_pos hok]⟩
    · rw [if_pos (by rw [not_and_or] at hok; simpa using hok)]
      exact ⟨rfl, by rw [if_neg hok]⟩
  · left
    refine ⟨by simpa using hacc, ?_⟩
    simp only [blockAccepted, decide_eq_true_eq] at hacc
    simp only [writeTransferBlock]
    split
    · rfl
    · rename_i h1
      rw [if_pos]
      by_contra h2
      simp only [not_or, not_not, ne_eq, gt_iff_lt, not_lt, UInt16.not_lt, UInt32.not_lt] at h1 h2
      exact hacc ⟨h1.1, h1.2.1, h1.2.2, h2.1, h2.2.1, h2.2.2.1, h2.2.2.2.1, h2.2.2.2.2⟩

/-- A write through the temporary file's handle stores a prefix of the data at its position. -/
theorem Uploading.write_eq {f : Files} {i position : Nat} {contents : Bytes} (h : Uploading f i position contents)
    (data : Bytes) :
    f.store.write f.transfer.handle data =
      (f.store.drawn.ok, (data.take f.store.drawn.count).length,
        ((f.store.note .write).setFile (dosName f.transfer.temp)
          (some (Store.splice contents (data.take f.store.drawn.count) position))).setHandle i
            (some ⟨dosName f.transfer.temp, position + (data.take f.store.drawn.count).length⟩)) := by
  have hat : f.store.at? f.transfer.handle = some (i, ⟨dosName f.transfer.temp, position⟩, contents) := by
    simp [Store.at?, h.handle_eq, h.handle_at, h.file_eq]
  rw [Store.write, hat]

/-- The upload after such a write, with any offset and CRC. -/
theorem Uploading.write {f f' : Files} {i position : Nat} {contents data : Bytes} (h : Uploading f i position contents)
    (hstore : f'.store = (f.store.write f.transfer.handle data).2.2) (hhandle : f'.transfer.handle = f.transfer.handle)
    (htemp : f'.transfer.temp = f.transfer.temp) (hpath : f'.transfer.path = f.transfer.path) :
    Uploading f' i (position + (data.take f.store.drawn.count).length)
      (Store.splice contents (data.take f.store.drawn.count) position) := by
  rw [h.write_eq] at hstore
  constructor
  · rw [hhandle, h.handle_eq]
  · simp [hstore, htemp]
  · simp [hstore, htemp]
  · rw [htemp, hpath]
    exact h.temp_ne

/-- The transfer after a block whose write had the outcome `o`. -/
def Transfer.afterBlock (t : Transfer) (o : Outcome) (data : Bytes) : Transfer :=
  if o.ok = true ∧ (data.take o.count).length = data.length then t.advance data else t

/-- `P` survives the accepted block of the payload, whatever part of it is stored. -/
def HoldsAcrossBlock (P : Transfer → Nat → Bytes → Prop) (f : Files) (payload : Bytes) : Prop :=
  blockAccepted f.transfer payload = true → ∀ position contents, P f.transfer position contents →
    let part := (payload.drop 8).take f.store.drawn.count
    P (f.transfer.afterBlock f.store.drawn (payload.drop 8)) (position + part.length) (Store.splice contents part position)

theorem writeTransferBlock_inv (hi : f.Inv P) {payload : Bytes} (hP : HoldsAcrossBlock P f payload) :
    (writeTransferBlock f payload).2.Inv P := by
  rcases writeTransferBlock_cases f payload with ⟨-, e⟩ | ⟨hacc, hstore, htransfer⟩
  · rw [e]
    exact hi
  have hkind : f.transfer.kind = .write := by
    simp only [blockAccepted, decide_eq_true_eq] at hacc
    exact hacc.1
  obtain ⟨i, position, contents, hup, hold⟩ := hi.upload hkind
  have hafter : (writeTransferBlock f payload).2.transfer = f.transfer.afterBlock f.store.drawn (payload.drop 8) := by
    rw [hup.write_eq] at htransfer
    unfold Transfer.afterBlock
    split at htransfer
    · rename_i hall
      rw [htransfer, if_pos hall]
    · rename_i hall
      rw [htransfer, if_neg hall]
  have hkeep : (writeTransferBlock f payload).2.transfer.kind = .write ∧
      (writeTransferBlock f payload).2.transfer.handle = f.transfer.handle ∧
      (writeTransferBlock f payload).2.transfer.temp = f.transfer.temp ∧
      (writeTransferBlock f payload).2.transfer.path = f.transfer.path := by
    rw [hafter]
    unfold Transfer.afterBlock
    split
    · exact ⟨hkind, rfl, rfl, rfl⟩
    · exact ⟨hkind, rfl, rfl, rfl⟩
  obtain ⟨hk, hh, ht, hp⟩ := hkeep
  refine ⟨by simp [hk], by simp [hk], fun _ => ⟨i, _, _, hup.write hstore hh ht hp, ?_⟩⟩
  rw [hafter]
  exact hP hacc position contents hold

theorem renameOntoPath_inv (hhandle : f.transfer.handle = none) : (renameOntoPath f).2.Inv P := by
  simp only [renameOntoPath]
  split
  · exact closeTransfer_inv _ _
  · exact Files.inv_of_closed rfl hhandle

theorem commitFileWrite_inv (hi : f.Inv P) (payload : Bytes) : (commitFileWrite f payload).2.Inv P := by
  simp only [commitFileWrite]
  split
  · exact hi
  split
  · exact renameOntoPath_inv rfl
  split
  · exact closeTransfer_inv _ _
  split
  · exact closeTransfer_inv _ _
  · exact renameOntoPath_inv rfl

theorem abortTransfer_inv (hi : f.Inv P) (payload : Bytes) : (abortTransfer f payload).2.Inv P := by
  unfold abortTransfer
  split
  · exact hi
  · exact closeTransfer_inv _ _

theorem beginGraphics_inv (hi : f.Inv P) (c : Config) (m : Machine) : (beginGraphics c m f).2.Inv P := by
  unfold beginGraphics
  split
  · exact hi
  rename_i hkind
  rw [ne_eq, not_not] at hkind
  have hhandle := hi.idle (Or.inl hkind)
  split
  · exact Files.inv_of_closed hkind hhandle
  · exact ⟨fun _ => hhandle, by simp, by simp⟩

theorem readGraphicsBlock_inv (hi : f.Inv P) (m : Machine) (payload : Bytes) :
    (readGraphicsBlock m f payload).2.1.Inv P := by
  unfold readGraphicsBlock
  split
  · exact hi
  rename_i requested hreq
  have hkind : f.transfer.kind = .graphics := by
    by_contra hne
    simp [blockRequest, hne] at hreq
  refine ⟨fun _ => hi.idle (Or.inr hkind), fun h => ?_, fun h => ?_⟩
  · cases hkind.symm.trans h
  · cases hkind.symm.trans h

theorem TransferOp.run_inv (hstart : HoldsAtStart P) (hi : f.Inv P) {op : TransferOp} {payload : Bytes}
    (hblock : op = .fileWriteBlock → HoldsAcrossBlock P f payload) (c : Config) (m : Machine) :
    (op.run c m f payload).files.Inv P := by
  cases op with
  | fileReadBegin => exact beginFileRead_inv hi c m payload
  | fileReadBlock => exact readTransferBlock_inv hi payload
  | fileReadEnd => exact endReadTransfer_inv hi payload
  | fileWriteBegin => exact beginFileWrite_inv hstart hi c m payload
  | fileWriteBlock => exact writeTransferBlock_inv hi (hblock rfl)
  | fileWriteCommit => exact commitFileWrite_inv hi payload
  | fileAbort => exact abortTransfer_inv hi payload
  | graphicsBegin =>
    simp only [TransferOp.run]
    split
    · exact hi
    · exact beginGraphics_inv hi c m
  | graphicsBlock => exact readGraphicsBlock_inv hi m payload
  | graphicsEnd => exact endReadTransfer_inv hi payload

/-! ## Runs -/

/-- What acts on the files: a transfer request, or the cleanup of an expired session. -/
inductive FileEvent where
  | request (m : Machine) (op : TransferOp) (payload : Bytes)
  | cleanup

def Files.step (c : Config) (f : Files) : FileEvent → Files
  | .request m op payload => (op.run c m f payload).files
  | .cleanup => closeTransfer f true

def Files.run (c : Config) (f : Files) (events : List FileEvent) : Files := events.foldl (Files.step c) f

/-- In every run an active upload has its temporary file, and it is not the destination. -/
theorem Files.run_inv {c : Config} (hi : f.Inv fun _ _ _ => True) (events : List FileEvent) :
    (f.run c events).Inv fun _ _ _ => True := by
  induction events generalizing f with
  | nil => exact hi
  | cons e events ih =>
    refine ih ?_
    cases e with
    | request m op payload =>
      exact TransferOp.run_inv (fun _ _ _ _ => trivial) hi (fun _ _ _ _ _ => trivial) c m
    | cleanup => exact closeTransfer_inv f true

end

/-! ## A sample installation -/

/-- Root `C:\\RATSR`, file reads and writes allowed. -/
def sampleConfig : Config where
  baseKey := List.replicate 16 0
  sandboxRoot := [0x43, 0x3A, 0x5C, 0x52, 0x41, 0x54, 0x53, 0x52]
  agentName := [0x44]
  allowFileRead := true
  allowFileWrite := true
  unrestrictedFilesystem := false
  discoveryOpenMode := false
  advertisedPort := 21300
  address := [2, 0, 0, 0, 0, 1]
  cachedDosMajor := 5
  cachedDosMinor := 0
  cachedAdapter := 4
  agentStartTicks := 0
  system := fun _ m => m

/-- A machine with empty memory. -/
def blankMachine : Machine where
  memory := fun _ => 0
  window := fun _ _ => 0
  gcIndex := 0
  gcRegisters := fun _ => 0
  ports := fun _ => 0
  clock := 0
  dosVersion := (5, 0)
  displayCode := some 8
  sendResult := 0
  counters := ⟨true, true, true, true, 0, 0, 0, 0, 0, 0, 0, 0, 0, 0, 0, 0, 0, 0, 0, true, 0⟩

/-- DOS with the given files and no open handle. -/
def dosStore (files : Bytes → Option Bytes) (outcomes : Nat → Outcome) : Store := ⟨files, fun _ => none, 5, outcomes, []⟩

end DosMcp.Dos
