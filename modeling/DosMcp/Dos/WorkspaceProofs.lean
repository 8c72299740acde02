/-
  DosMcp.Dos.WorkspaceProofs — RA-TSR's `process_request` with its two buffers in one memory.

  Every handler fits (`Access.Fits`): it reads what it needs of the payload before its answer
  goes over it, and leaves what the function of the payload's bytes says.

  (1) `processRequestAt_refines`: in every aligned placement of the buffers a request is
      processed as `processRequest` says.
  (2) `shared_workspace`: the union and two buffers apart give the same reply, calls of DOS
      and state.
  (3) `nextFragment_replyPayload`: the reply is what the worker's fragments carry.
-/

import DosMcp.Dos.AgentProofs
import DosMcp.Dos.TransferProofs
import DosMcp.Dos.Worker
import DosMcp.Dos.Workspace

namespace DosMcp.Dos

open Lib

namespace Workspace

open Access

variable {x : Bytes} {k : Nat} {o : Written}

/-- The handler leaves what the function of the payload's bytes says, its answer in the
    screen buffer. -/
def Answers {σ : Type} (r : Option Bytes × σ) (v : Option Nat × σ) (o : Written) : Prop :=
  v = (r.1.map List.length, r.2) ∧ ∀ bytes, r.1 = some bytes → o.Holds 0 bytes

@[simp] theorem answers_none {σ : Type} (s : σ) : Answers (none, s) (none, s) o := ⟨rfl, nofun⟩

theorem answers_some {σ : Type} {bytes : Bytes} (s : σ) (h : o.Holds 0 bytes) :
    Answers (some bytes, s) (some bytes.length, s) o := by
  refine ⟨rfl, fun bytes' he => ?_⟩
  obtain rfl : bytes = bytes' := Option.some.inj he
  exact h

theorem dmGetU16_slice {i : Nat} (h : i + 2 ≤ x.length) : dmGetU16 (slice x i 2) 0 = dmGetU16 x i := by
  rw [slice_two (by omega)]
  rfl

theorem dmGetU32_slice {i : Nat} (h : i + 4 ≤ x.length) : dmGetU32 (slice x i 4) 0 = dmGetU32 x i := by
  rw [slice_four (by omega)]
  rfl

theorem fits_byte_empty {i : Nat} (h : i < x.length) {Q : UInt8 → Written → Prop} :
    (byte i : Program UInt8).Fits x k .empty Q ↔ Q (byteAt x i) .empty :=
  fits_byte h rfl

theorem fits_load_empty {i n : Nat} (h : i + n ≤ x.length) {Q : Bytes → Written → Prop} :
    (load i n : Program Bytes).Fits x k .empty Q ↔ Q (slice x i n) .empty :=
  fits_load h fun _ _ => rfl

theorem fits_copy_all (h : x.length ≤ k) {Q : Unit → Written → Prop} :
    (copy 0 x.length : Program Unit).Fits x k .empty Q ↔ Q () (Written.empty.put 0 x) := by
  have hall : slice x 0 x.length = x := by rw [slice_zero_eq_take, List.take_length]
  have hcopy := @fits_copy DosCall x k .empty 0 x.length (by omega) (by omega) (fun _ _ => rfl) Q
  rwa [hall] at hcopy

theorem fits_getU16 {i : Nat} (h : i + 2 ≤ x.length) {Q : UInt16 → Written → Prop} :
    (getU16 i).Fits x k .empty Q ↔ Q (dmGetU16 x i) .empty := by
  rw [getU16, fits_bind, fits_load_empty h, fits_pure, dmGetU16_slice h]

theorem fits_getU32 {i : Nat} (h : i + 4 ≤ x.length) {Q : UInt32 → Written → Prop} :
    (getU32 i).Fits x k .empty Q ↔ Q (dmGetU32 x i) .empty := by
  rw [getU32, fits_bind, fits_load_empty h, fits_pure, dmGetU32_slice h]

theorem fits_putByte {i : Nat} {value : UInt8} (h : i + 1 ≤ k) {Q : Unit → Written → Prop} :
    (put i [value] : Program Unit).Fits x k o Q ↔ Q () (o.put i [value]) :=
  fits_put h

theorem fits_putU16 {i : Nat} {value : UInt16} (h : i + 2 ≤ k) {Q : Unit → Written → Prop} :
    (putU16 i value).Fits x k o Q ↔ Q () (o.put i (dmPutU16 value)) :=
  fits_put h

theorem fits_putU32 {i : Nat} {value : UInt32} (h : i + 4 ≤ k) {Q : Unit → Written → Prop} :
    (putU32 i value).Fits x k o Q ↔ Q () (o.put i (dmPutU32 value)) :=
  fits_put h

section

variable {path old new : Bytes} {handle : Option Nat} {store : Store}

@[simp] theorem fits_dosOpen {Q : Option Nat × Store → Written → Prop} :
    (dosOpen path store).Fits x k o Q ↔ Q (store.openFile (dosName path)) o := Iff.rfl

@[simp] theorem fits_dosCreatnew {Q : Option Nat × Store → Written → Prop} :
    (dosCreatnew path store).Fits x k o Q ↔ Q (store.create (dosName path)) o := Iff.rfl

@[simp] theorem fits_dosClose {Q : Store → Written → Prop} :
    (dosClose handle store).Fits x k o Q ↔ Q (store.close handle) o := Iff.rfl

@[simp] theorem fits_lseekEnd {Q : Option Nat × Store → Written → Prop} :
    (lseekEnd handle store).Fits x k o Q ↔ Q (store.seekEnd handle) o := Iff.rfl

@[simp] theorem fits_lseekStart {Q : Bool × Store → Written → Prop} :
    (lseekStart handle store).Fits x k o Q ↔ Q (store.seekStart handle) o := Iff.rfl

@[simp] theorem fits_remove {Q : Bool × Store → Written → Prop} :
    (remove path store).Fits x k o Q ↔ Q (store.remove (dosName path)) o := Iff.rfl

@[simp] theorem fits_rename {Q : Bool × Store → Written → Prop} :
    (rename old new store).Fits x k o Q ↔ Q (store.rename (dosName old) (dosName new)) o := Iff.rfl

end

@[simp] theorem fits_closeTransfer (f : Files) (removeTemporary : Bool) {Q : Files → Written → Prop} :
    (closeTransfer f removeTemporary).Fits x k o Q ↔ Q (Dos.closeTransfer f removeTemporary) o := by
  unfold closeTransfer Dos.closeTransfer
  by_cases hhandle : f.transfer.handle.isSome <;> by_cases hwrite : removeTemporary ∧ f.transfer.kind = .write <;>
    simp [hhandle, hwrite]

@[simp] theorem fits_tryTransferTemp (directory : Bytes) (id : UInt16) (attempt fuel : Nat) (f : Files)
    {Q : Bool × Files → Written → Prop} :
    (tryTransferTemp directory id attempt fuel f).Fits x k o Q ↔
      Q (Dos.tryTransferTemp directory id attempt fuel f) o := by
  induction fuel generalizing attempt f with
  | zero => rfl
  | succ fuel ih =>
    unfold tryTransferTemp Dos.tryTransferTemp
    by_cases hsame : stricmpEqual (directory ++ tempName id attempt) f.transfer.path
    · simp only [hsame, if_true]
      exact ih _ _
    · simp only [hsame, if_false, Bool.false_eq_true, fits_bind, fits_dosCreatnew]
      generalize f.store.create (dosName (directory ++ tempName id attempt)) = r
      obtain ⟨_ | handle, store⟩ := r
      · exact ih _ _
      · exact Iff.rfl

@[simp] theorem fits_createTransferTemp (c : Config) (id : UInt16) (f : Files) {Q : Bool × Files → Written → Prop} :
    (createTransferTemp c id f).Fits x k o Q ↔ Q (Dos.createTransferTemp c id f) o := by
  unfold createTransferTemp Dos.createTransferTemp
  cases tempPrefix c f with
  | none => rfl
  | some directory =>
    by_cases hlong : directory.length + 12 > tsrPathMax + 1
    · simp [hlong]
    · simp [hlong]

theorem fits_buildSandboxPath (c : Config) {i n : Nat} (h : i + n = x.length) {Q : Option Bytes → Written → Prop} :
    (buildSandboxPath c i n).Fits x k .empty Q ↔ Q (Dos.buildSandboxPath c (x.drop i)) .empty := by
  have hlength : (x.drop i).length = n := by simp [← h]
  have hslice : slice x i n = x.drop i := List.take_of_length_le (Nat.le_of_eq hlength)
  unfold buildSandboxPath
  split
  · rename_i hbad
    rw [fits_pure, Dos.buildSandboxPath, if_pos (by rwa [hlength])]
  · rw [fits_bind, fits_load_empty (Nat.le_of_eq h), hslice, fits_pure]

/-- An answer of a transfer ID and a size. -/
theorem idAndSize_holds (id : UInt16) (size : UInt32) :
    ((Written.empty.put 0 (dmPutU16 id)).put 2 (dmPutU32 size)).Holds 0 (dmPutU16 id ++ dmPutU32 size) := by
  rw [Written.put_put]
  · exact Written.holds_put _ _ _
  · rfl

/-- An answer of a size and a checksum. -/
theorem sizeAndCrc_holds (size crc : UInt32) :
    ((Written.empty.put 0 (dmPutU32 size)).put 4 (dmPutU32 crc)).Holds 0 (dmPutU32 size ++ dmPutU32 crc) := by
  rw [Written.put_put]
  · exact Written.holds_put _ _ _
  · rfl

/-- The header of a block's answer. -/
theorem put_header (o : Written) (id : UInt16) (offset : UInt32) (count : UInt16) (crc : UInt32) :
    (((o.put 0 (dmPutU16 id)).put 2 (dmPutU32 offset)).put 6 (dmPutU16 count)).put 8 (dmPutU32 crc) =
      o.put 0 (dmPutU16 id ++ dmPutU32 offset ++ dmPutU16 count ++ dmPutU32 crc) := by
  have hid : 0 + (dmPutU16 id).length = 2 := rfl
  have hoffset : 0 + (dmPutU16 id ++ dmPutU32 offset).length = 6 := rfl
  have hcount : 0 + (dmPutU16 id ++ dmPutU32 offset ++ dmPutU16 count).length = 8 := rfl
  rw [Written.put_put _ _ hid, Written.put_put _ _ hoffset, Written.put_put _ _ hcount]

/-! ## File reads -/

theorem fits_beginFileRead (c : Config) (m : Machine) (f : Files) (hk : 6 ≤ k) :
    (beginFileRead c m f x.length).Fits x k .empty (Answers (Dos.beginFileRead c m f x)) := by
  unfold beginFileRead Dos.beginFileRead
  by_cases hgate : ¬ c.allowFileRead ∨ f.transfer.kind ≠ .none ∨ x.length < 2
  · rw [if_pos hgate, if_pos (by tauto)]
    exact answers_none f
  have hlength : ¬ x.length < 2 := fun h => hgate (Or.inr (Or.inr h))
  rw [if_neg hgate, fits_bind, fits_byte_empty (by omega)]
  by_cases hpath : x.length = (byteAt x 0).toNat + 1
  case neg =>
    rw [if_pos hpath, if_pos (by tauto)]
    exact answers_none f
  rw [if_neg (not_not_intro hpath), if_neg (by tauto), fits_bind, fits_byte_empty (by omega), fits_bind,
    fits_buildSandboxPath c (by omega)]
  cases Dos.buildSandboxPath c (x.drop 1) with
  | none => exact answers_none f
  | some path =>
    simp only [fits_bind, fits_dosOpen]
    generalize f.store.openFile (dosName path) = opened
    obtain ⟨_ | handle, store⟩ := opened
    · exact answers_none _
    simp only [fits_bind, fits_lseekEnd]
    generalize store.seekEnd (some handle) = sought
    obtain ⟨_ | size, store⟩ := sought
    · simp
    dsimp only
    split
    · simp
    simp only [fits_bind, fits_lseekStart]
    generalize store.seekStart (some handle) = rewound
    obtain ⟨_ | _, store⟩ := rewound
    · simp
    · simp only [fits_bind, fits_putU16 (show 0 + 2 ≤ k by omega), fits_putU32 (show 2 + 4 ≤ k by omega), fits_pure]
      exact answers_some _ (idAndSize_holds _ _)

/-- The shared checks of a block request, on the payload's bytes. -/
theorem fits_blockRequest (t : Transfer) (kind : TransferKind) {Q : Option UInt16 → Written → Prop} :
    (blockRequest t kind x.length).Fits x k .empty Q ↔ Q (Dos.blockRequest t kind x) .empty := by
  unfold blockRequest Dos.blockRequest
  by_cases hgate : t.kind ≠ kind ∨ x.length ≠ 8
  · rw [if_pos hgate, if_pos (by tauto), fits_pure]
  have hlength : x.length = 8 := by
    by_contra h
    exact hgate (Or.inr h)
  rw [if_neg hgate, fits_bind, fits_getU16 (by omega)]
  by_cases hid : dmGetU16 x 0 = t.id
  case neg => rw [if_pos hid, if_pos (by tauto), fits_pure]
  rw [if_neg (not_not_intro hid), if_neg (by tauto), fits_bind, fits_getU32 (by omega), fits_bind,
    fits_getU16 (by omega)]
  dsimp only
  split <;> rw [fits_pure]

/-- The header goes in front of the block it describes. -/
theorem fits_blockRead (t : Transfer) {bytes : Bytes} (ho : o.Holds 12 bytes) (hk : 12 ≤ k)
    {Q : Option Nat × Transfer → Written → Prop}
    (hQ : ∀ o', o'.Holds 0 (Dos.blockRead t bytes).1 →
      Q (some (Dos.blockRead t bytes).1.length, (Dos.blockRead t bytes).2) o') :
    (blockRead t bytes.length).Fits x k o Q := by
  unfold blockRead
  simp only [fits_bind, fits_loadBack ho, fits_putU16 (show 0 + 2 ≤ k by omega), fits_putU32 (show 2 + 4 ≤ k by omega),
    fits_putU16 (show 6 + 2 ≤ k by omega), fits_putU32 (show 8 + 4 ≤ k by omega), fits_pure]
  rw [put_header]
  generalize hhead : dmPutU16 t.id ++ dmPutU32 t.offset ++ dmPutU16 (.ofNat bytes.length) ++
    dmPutU32 (crc32Update t.crc bytes) = head
  have hlength : head.length = 12 := by rw [← hhead]; rfl
  have hblock : (o.put 0 head).Holds (0 + head.length) bytes := by
    rw [hlength]
    exact ho.put (Or.inr (by omega))
  have hreply : (Dos.blockRead t bytes).1 = head ++ bytes := by rw [← hhead]; rfl
  have hdone := hQ (o.put 0 head) (by rw [hreply]; exact (Written.holds_put o 0 head).append hblock)
  rwa [hreply, List.length_append, hlength, Nat.add_comm 12] at hdone

theorem fits_readTransferBlock (spill : Bytes) (f : Files) (hk : 912 ≤ k) :
    (readTransferBlock spill f x.length).Fits x k .empty (Answers (Dos.readTransferBlock f x)) := by
  unfold readTransferBlock Dos.readTransferBlock
  rw [fits_bind, fits_blockRequest]
  cases hrequest : Dos.blockRequest f.transfer .read x with
  | none => exact answers_none f
  | some requested =>
    have hrequested := blockRequest_le hrequest
    simp only [dosRead, fits_bind, fits_log]
    cases hread : f.store.read f.transfer.handle requested.toNat with
    | mk bytes? store =>
      cases bytes? with
      | none =>
        have hspill : 12 + (spill.take requested.toNat).length ≤ k := by
          rw [List.length_take]
          omega
        simp only [fits_bind, fits_put hspill, fits_pure]
        exact answers_none _
      | some bytes =>
        have hbytes := Store.read_length hread
        simp only [fits_bind, fits_put (show 12 + bytes.length ≤ k by omega), fits_pure]
        by_cases hnone : bytes = []
        · subst hnone
          exact answers_none _
        · have hlength : bytes.length ≠ 0 := fun h => hnone (List.eq_nil_of_length_eq_zero h)
          rw [if_neg hlength, if_neg hnone, fits_bind]
          exact fits_blockRead f.transfer (Written.holds_put _ _ _) (by omega) fun _ h => answers_some _ h

theorem fits_endReadTransfer (f : Files) (hk : 8 ≤ k) :
    (endReadTransfer f x.length).Fits x k .empty (Answers (Dos.endReadTransfer f x)) := by
  unfold endReadTransfer Dos.endReadTransfer
  by_cases hgate : (f.transfer.kind ≠ .read ∧ f.transfer.kind ≠ .graphics) ∨ x.length ≠ 2
  · rw [if_pos hgate, if_pos (by tauto)]
    exact answers_none f
  have hlength : x.length = 2 := by
    by_contra h
    exact hgate (Or.inr h)
  rw [if_neg hgate, fits_bind, fits_getU16 (by omega)]
  by_cases hend : dmGetU16 x 0 ≠ f.transfer.id ∨ f.transfer.offset ≠ f.transfer.size
  · rw [if_pos hend, if_pos (by tauto)]
    exact answers_none f
  rw [if_neg hend, if_neg (by tauto)]
  simp only [fits_bind, fits_putU32 (show 0 + 4 ≤ k by omega), fits_putU32 (show 4 + 4 ≤ k by omega), fits_closeTransfer,
    fits_pure]
  exact answers_some _ (sizeAndCrc_holds _ _)

/-! ## Uploads -/

theorem fits_startFileWrite (c : Config) (m : Machine) (f : Files) (hlength : 10 ≤ x.length) (hk : 6 ≤ k) :
    (startFileWrite c m f (byteAt x 0)).Fits x k .empty (Answers (Dos.startFileWrite c m f x)) := by
  unfold startFileWrite Dos.startFileWrite
  simp only [fits_bind, fits_createTransferTemp]
  generalize Dos.createTransferTemp c (nextTransferId m f.transfer.id) _ = created
  obtain ⟨_ | _, f⟩ := created
  · exact answers_none f
  · simp only [fits_bind, fits_getU32 (show 1 + 4 ≤ x.length by omega), fits_getU32 (show 5 + 4 ≤ x.length by omega),
      fits_putU16 (show 0 + 2 ≤ k by omega), fits_putU32 (show 2 + 4 ≤ k by omega), fits_pure]
    exact answers_some _ (idAndSize_holds _ _)

theorem fits_beginFileWrite (c : Config) (m : Machine) (f : Files) (hk : 6 ≤ k) :
    (beginFileWrite c m f x.length).Fits x k .empty (Answers (Dos.beginFileWrite c m f x)) := by
  unfold beginFileWrite Dos.beginFileWrite
  by_cases hgate : ¬ c.allowFileWrite ∨ f.transfer.kind ≠ .none ∨ x.length < 10
  · rw [if_pos hgate, if_pos hgate]
    exact answers_none f
  have hlength : ¬ x.length < 10 := fun h => hgate (Or.inr (Or.inr h))
  rw [if_neg hgate, if_neg hgate, fits_bind, fits_byte_empty (by omega), fits_bind, fits_byte_empty (by omega)]
  by_cases hhead : byteAt x 0 > 1 ∨ x.length ≠ (byteAt x 9).toNat + 10
  · rw [if_pos hhead, if_pos (by tauto)]
    exact answers_none f
  have hpath : x.length = (byteAt x 9).toNat + 10 := by
    by_contra h
    exact hhead (Or.inr h)
  rw [if_neg hhead, fits_bind, fits_getU32 (by omega)]
  by_cases hsize : dmGetU32 x 1 > tsrFileMax
  · rw [if_pos hsize, if_pos (by tauto)]
    exact answers_none f
  rw [if_neg hsize, if_neg (by tauto), fits_bind, fits_buildSandboxPath c (by omega)]
  cases Dos.buildSandboxPath c (x.drop 10) with
  | none => exact answers_none f
  | some path =>
    dsimp only
    by_cases hover : byteAt x 0 ≠ 0
    · rw [if_pos hover, if_pos hover]
      exact fits_startFileWrite c m _ (by omega) hk
    rw [if_neg hover, if_neg hover, fits_bind, fits_dosOpen]
    generalize f.store.openFile (dosName path) = opened
    obtain ⟨_ | existing, store⟩ := opened
    · exact fits_startFileWrite c m _ (by omega) hk
    · exact answers_none _

theorem fits_writeTransferBlock (f : Files) (hk : 12 ≤ k) :
    (writeTransferBlock f x.length).Fits x k .empty (Answers (Dos.writeTransferBlock f x)) := by
  unfold writeTransferBlock Dos.writeTransferBlock
  dsimp only
  by_cases hgate : f.transfer.kind ≠ .write ∨ x.length < 8
  · rw [if_pos hgate, if_pos (by tauto)]
    exact answers_none f
  have hlength : ¬ x.length < 8 := fun h => hgate (Or.inr h)
  rw [if_neg hgate, fits_bind, fits_getU16 (by omega)]
  by_cases hid : dmGetU16 x 0 = f.transfer.id
  case neg =>
    rw [if_pos hid, if_pos (by tauto)]
    exact answers_none f
  rw [if_neg (not_not_intro hid), if_neg (by tauto), fits_bind, fits_getU32 (by omega), fits_bind,
    fits_getU16 (by omega)]
  split
  · exact answers_none f
  · rename_i hbounds
    have hblock : x.length = (dmGetU16 x 6).toNat + 8 := by
      by_contra h
      exact hbounds (Or.inr (Or.inr (Or.inl h)))
    have hslice : slice x 8 (dmGetU16 x 6).toNat = x.drop 8 := List.take_of_length_le (by simp; omega)
    simp only [dosWrite, fits_bind, fits_load_empty (show 8 + (dmGetU16 x 6).toNat ≤ x.length by omega), fits_log,
      fits_pure, hslice]
    generalize f.store.write f.transfer.handle (x.drop 8) = result
    obtain ⟨ok, written, store⟩ := result
    dsimp only
    split
    · exact answers_none _
    · simp only [fits_bind, fits_load_empty (show 8 + (dmGetU16 x 6).toNat ≤ x.length by omega), hslice,
        fits_putU16 (show 0 + 2 ≤ k by omega), fits_putU32 (show 2 + 4 ≤ k by omega),
        fits_putU16 (show 6 + 2 ≤ k by omega), fits_putU32 (show 8 + 4 ≤ k by omega), fits_pure, put_header]
      exact answers_some _ (Written.holds_put _ _ _)

theorem fits_renameOntoPath (f : Files) (hk : 8 ≤ k) :
    (renameOntoPath f).Fits x k .empty (Answers (Dos.renameOntoPath f)) := by
  unfold renameOntoPath Dos.renameOntoPath
  simp only [fits_bind, fits_rename]
  generalize f.store.rename (dosName f.transfer.temp) (dosName f.transfer.path) = renamed
  obtain ⟨_ | _, store⟩ := renamed
  · simp
  · simp only [fits_bind, fits_putU32 (show 0 + 4 ≤ k by omega), fits_putU32 (show 4 + 4 ≤ k by omega), fits_pure]
    exact answers_some _ (sizeAndCrc_holds _ _)

theorem fits_commitFileWrite (f : Files) (hk : 8 ≤ k) :
    (commitFileWrite f x.length).Fits x k .empty (Answers (Dos.commitFileWrite f x)) := by
  unfold commitFileWrite Dos.commitFileWrite
  dsimp only
  by_cases hgate : f.transfer.kind ≠ .write ∨ x.length ≠ 2
  · rw [if_pos hgate, if_pos (by tauto)]
    exact answers_none f
  have hlength : x.length = 2 := by
    by_contra h
    exact hgate (Or.inr h)
  rw [if_neg hgate, fits_bind, fits_getU16 (by omega)]
  by_cases hend : dmGetU16 x 0 ≠ f.transfer.id ∨ f.transfer.offset ≠ f.transfer.size ∨
      f.transfer.crc ≠ f.transfer.expectedCrc
  · rw [if_pos hend, if_pos (by tauto)]
    exact answers_none f
  rw [if_neg hend, if_neg (by tauto)]
  simp only [fits_bind, fits_dosClose, fits_dosOpen]
  generalize (f.store.close f.transfer.handle).openFile (dosName f.transfer.path) = opened
  obtain ⟨_ | existing, store⟩ := opened
  · exact fits_renameOntoPath _ hk
  · simp only [fits_bind, fits_dosClose]
    split
    · simp
    · simp only [fits_bind, fits_remove]
      generalize (store.close (some existing)).remove (dosName f.transfer.path) = removed
      obtain ⟨_ | _, store⟩ := removed
      · simp
      · exact fits_renameOntoPath _ hk

theorem fits_abortTransfer (f : Files) :
    (abortTransfer f x.length).Fits x k .empty (Answers (Dos.abortTransfer f x)) := by
  unfold abortTransfer Dos.abortTransfer
  by_cases hgate : x.length ≠ 2 ∨ f.transfer.kind = .none
  · rw [if_pos hgate, if_pos (by tauto)]
    exact answers_none f
  have hlength : x.length = 2 := by
    by_contra h
    exact hgate (Or.inl h)
  rw [if_neg hgate, fits_bind, fits_getU16 (by omega)]
  by_cases hid : dmGetU16 x 0 = f.transfer.id
  case neg =>
    rw [if_pos hid, if_pos (by tauto)]
    exact answers_none f
  rw [if_neg (not_not_intro hid), if_neg (by tauto)]
  simp only [fits_bind, fits_closeTransfer, fits_pure]
  exact answers_some _ (Written.holds_nil _ _)

/-! ## Graphics captures -/

theorem fits_beginGraphics (c : Config) (m : Machine) (f : Files) (hk : 18 ≤ k) :
    (beginGraphics c m f).Fits x k .empty (Answers (Dos.beginGraphics c m f)) := by
  unfold beginGraphics
  cases hbegin : Dos.beginGraphics c m f with
  | mk bytes? f =>
    cases bytes? with
    | none => exact answers_none f
    | some bytes =>
      have hlength := beginGraphics_length (congrArg Prod.fst hbegin)
      simp only [fits_bind, fits_put (show 0 + bytes.length ≤ k by omega), fits_pure]
      exact answers_some f (Written.holds_put _ _ _)

/-- Every byte goes to its place after the header. -/
theorem fits_graphicsBytes (g : Graphics) {index n : Nat} (position : UInt32) (m : Machine) (hk : 12 + index + n ≤ k)
    {Q : Machine → Written → Prop} :
    (graphicsBytes g index n position m).Fits x k o Q ↔
      Q (Dos.graphicsBytes g n position m).2 (o.put (12 + index) (Dos.graphicsBytes g n position m).1) := by
  induction n generalizing index position m o with
  | zero => rw [graphicsBytes, Dos.graphicsBytes, fits_pure, Written.put_nil]
  | succ n ih =>
    simp only [graphicsBytes, Dos.graphicsBytes, fits_bind, fits_putByte (show 12 + index + 1 ≤ k by omega)]
    rw [ih (position + 1) (graphicsByte g m position).2 (by omega), ← Nat.add_assoc, Written.put_cons]

theorem fits_captureBlock (g : Graphics) (m : Machine) (offset : UInt32) (requested : UInt16)
    (hk : 12 + requested.toNat ≤ k) {Q : Machine → Written → Prop} :
    (captureBlock g m offset requested).Fits x k o Q ↔
      Q (Dos.captureBlock g m offset requested).2 (o.put 12 (Dos.captureBlock g m offset requested).1) := by
  unfold captureBlock Dos.captureBlock
  split
  · simp only [fits_bind, fits_graphicsBytes g offset _ (show 12 + 0 + requested.toNat ≤ k by omega), fits_pure]
  · exact fits_graphicsBytes g offset m (by omega)

theorem fits_readGraphicsBlock (m : Machine) (f : Files) (hk : 912 ≤ k) :
    (readGraphicsBlock m f x.length).Fits x k .empty (Answers (Dos.readGraphicsBlock m f x)) := by
  unfold readGraphicsBlock Dos.readGraphicsBlock
  rw [fits_bind, fits_blockRequest]
  cases hrequest : Dos.blockRequest f.transfer .graphics x with
  | none => exact answers_none _
  | some requested =>
    have hrequested := blockRequest_le hrequest
    dsimp only
    rw [fits_bind, fits_captureBlock _ _ _ _ (by omega), fits_bind]
    have hlength := captureBlock_length f.transfer.graphics m f.transfer.offset requested
    generalize Dos.captureBlock f.transfer.graphics m f.transfer.offset requested = captured at hlength ⊢
    rw [← hlength]
    exact fits_blockRead f.transfer (Written.holds_put _ _ _) (by omega) fun _ h => answers_some _ h

/-! ## Keyboard -/

/-- The words a loop of `inject_keys` comes to: those before the first byte without one. -/
def wordsOf (word : UInt8 → Option UInt16) : Bytes → List UInt16
  | [] => []
  | value :: rest => match word value with
    | none => []
    | some w => w :: wordsOf word rest

theorem wordsOf_some (word : UInt8 → UInt16) (bytes : Bytes) : wordsOf (some ∘ word) bytes = bytes.map word := by
  induction bytes with
  | nil => rfl
  | cons value rest ih => exact congrArg (word value :: ·) ih

theorem wordsOf_keyWord (bytes : Bytes) : wordsOf keyWord bytes = (bytes.map namedKeyWord).takeWhile (· ≠ 0) := by
  induction bytes with
  | nil => rfl
  | cons value rest ih =>
    by_cases hzero : namedKeyWord value = 0
    · simp [wordsOf, keyWord, hzero]
    · simp [wordsOf, keyWord, hzero, ih]

theorem fits_queueBytes (c : Config) (word : UInt8 → Option UInt16) {i n : Nat} (s : State) (h : i + n ≤ x.length)
    {Q : Nat × Machine → Written → Prop} :
    (queueBytes word i n s.machine).Fits x k .empty Q ↔
      Q ((queueWords .ratsr c (wordsOf word (slice x i n)) s).1,
        (queueWords .ratsr c (wordsOf word (slice x i n)) s).2.machine) .empty := by
  induction n generalizing i s Q with
  | zero => rfl
  | succ n ih =>
    rw [queueBytes, fits_bind, fits_byte_empty (by omega), slice_eq_cons (by omega), wordsOf]
    cases hword : word (byteAt x i) with
    | none => rfl
    | some w =>
      simp only [Option.bind_some, queueWords]
      cases hqueue : s.machine.biosQueueWord w with
      | none => rfl
      | some machine =>
        have hrest := @ih (i + 1) { s with machine := machine } (by omega)
        simp only [fits_bind, hrest, fits_pure]

/-- RA-TSR's loops change nothing but the machine. -/
theorem queueWords_machine (c : Config) (words : List UInt16) (s : State) :
    (queueWords .ratsr c words s).2 = { s with machine := (queueWords .ratsr c words s).2.machine } := by
  induction words generalizing s with
  | nil => rfl
  | cons word words ih =>
    unfold queueWords
    cases s.machine.biosQueueWord word with
    | none => rfl
    | some machine => exact ih { s with machine := machine }

/-- The answer to a key request. -/
theorem put_keyAnswer (o : Written) (text : UInt16) (keys : UInt8) (generation : UInt16) :
    ((o.put 0 (dmPutU16 text)).put 2 [keys]).put 3 (dmPutU16 generation) =
      o.put 0 (dmPutU16 text ++ [keys] ++ dmPutU16 generation) := by
  have htext : 0 + (dmPutU16 text).length = 2 := rfl
  have hkeys : 0 + (dmPutU16 text ++ [keys]).length = 3 := rfl
  rw [Written.put_put _ _ htext, Written.put_put _ _ hkeys]

theorem fits_injectKeys (c : Config) (s : State) (hk : 5 ≤ k) :
    (injectKeys s x.length).Fits x k .empty (Answers (Dos.injectKeys .ratsr c s x)) := by
  unfold injectKeys Dos.injectKeys
  by_cases hgate : x.length < 5
  · rw [if_pos hgate, if_pos hgate]
    exact answers_none s
  rw [if_neg hgate, if_neg hgate, fits_bind, fits_getU16 (by omega), fits_bind, fits_byte_empty (by omega), fits_bind,
    fits_getU16 (by omega)]
  dsimp only
  split
  · exact answers_none s
  rename_i hbounds
  have hlength : x.length = 5 + (dmGetU16 x 0).toNat + (byteAt x 2).toNat := by
    by_contra h
    exact hbounds (Or.inr (Or.inr (Or.inr h)))
  rw [fits_bind, fits_queueBytes c _ s (by omega), wordsOf_some]
  unfold textWord
  generalize htext : (slice x 5 (dmGetU16 x 0).toNat).map _ = textWords
  have hfirst := queueWords_machine c textWords s
  generalize queueWords .ratsr c textWords s = first at hfirst ⊢
  dsimp only
  rw [fits_bind, fits_queueBytes c _ first.2 (by omega), wordsOf_keyWord]
  generalize ((slice x (5 + (dmGetU16 x 0).toNat) (byteAt x 2).toNat).map namedKeyWord).takeWhile (· ≠ 0) = keyWords
  have hsecond := queueWords_machine c keyWords first.2
  generalize queueWords .ratsr c keyWords first.2 = second at hsecond ⊢
  have hgeneration : second.2.keyGeneration = s.keyGeneration := by rw [hsecond, hfirst]
  have hstate : { s with machine := second.2.machine, keyGeneration := s.keyGeneration + 1 } =
      { second.2 with keyGeneration := second.2.keyGeneration + 1 } := by
    rw [hsecond, hfirst]
  simp only [fits_bind, fits_putU16 (show 0 + 2 ≤ k by omega), fits_putByte (show 2 + 1 ≤ k by omega),
    fits_putU16 (show 3 + 2 ≤ k by omega), fits_pure]
  rw [hstate, hgeneration, put_keyAnswer]
  exact answers_some _ (Written.holds_put _ _ _)

/-! ## Operations -/

/-- The program answers a request with `opcode` as `r` says: the answer is in the screen
    buffer, or is a text screen that is read later. -/
def Serves (opcode : UInt8) (r : Reply × State) (v : Answer × State) (o : Written) : Prop :=
  v.2 = r.2 ∧ match r.1 with
    | .error code message => v.1 = .error (code, message)
    | .screen bytes => v.1 = .ok bytes.length ∧ o.Holds 0 bytes
    | .capture n => v.1 = .ok n ∧ opcode = 4

section

variable {opcode : UInt8}

theorem fits_writeAnswer {bytes : Bytes} (s : State) (hk : bytes.length ≤ k) :
    (writeAnswer bytes s).Fits x k .empty (Serves opcode (.screen bytes, s)) := by
  rw [writeAnswer, fits_bind, fits_put (by omega)]
  exact ⟨rfl, rfl, Written.holds_put _ _ _⟩

theorem fits_withoutPayload {message : String} {s : State} {program : Program (Answer × State)} {r : Reply × State}
    (h : program.Fits x k .empty (Serves opcode r)) :
    (withoutPayload x.length message s program).Fits x k .empty (Serves opcode (Dos.withoutPayload x message s r)) := by
  unfold withoutPayload Dos.withoutPayload
  split
  · exact ⟨rfl, rfl⟩
  · exact h

theorem fits_emptyKeys {Q : Bool → Written → Prop} :
    (emptyKeys x.length).Fits x k .empty Q ↔
      Q (decide (x.length = 5 ∧ dmGetU16 x 0 = 0 ∧ byteAt x 2 = 0)) .empty := by
  unfold emptyKeys
  by_cases hlength : x.length = 5
  case neg => simp [hlength]
  rw [if_neg (not_not_intro hlength), fits_bind, fits_getU16 (by omega)]
  by_cases htext : dmGetU16 x 0 = 0
  case neg => simp [htext]
  rw [if_neg (not_not_intro htext), fits_bind, fits_byte_empty (by omega), fits_pure]
  simp [hlength, htext]

theorem fits_operateKeys (c : Config) (s : State) (hk : 5 ≤ k) :
    (operateKeys s x.length).Fits x k .empty (Serves opcode (Dos.operateKeys .ratsr c s x)) := by
  unfold operateKeys Dos.operateKeys
  rw [fits_bind, fits_emptyKeys]
  by_cases hempty : x.length = 5 ∧ dmGetU16 x 0 = 0 ∧ byteAt x 2 = 0
  · rw [if_pos (decide_eq_true hempty), if_pos ⟨rfl, hempty⟩]
    simp only [fits_bind, fits_putU16 (show 0 + 2 ≤ k by omega), fits_putByte (show 2 + 1 ≤ k by omega),
      fits_putU16 (show 3 + 2 ≤ k by omega), fits_pure, put_keyAnswer]
    exact ⟨rfl, rfl, Written.holds_put _ _ _⟩
  · rw [if_neg (fun h => hempty (of_decide_eq_true h)), if_neg (fun h => hempty h.2), fits_bind]
    refine (fits_injectKeys c s hk).mono fun v o h => ?_
    obtain ⟨rfl, hbytes⟩ := h
    generalize Dos.injectKeys .ratsr c s x = injected at hbytes ⊢
    obtain ⟨_ | bytes, s'⟩ := injected
    · exact ⟨rfl, rfl⟩
    · exact ⟨rfl, rfl, hbytes bytes rfl⟩

theorem fits_onFiles {m : Machine} {handler : Program (Option Nat × Files)} {r : Option Bytes × Files}
    (h : handler.Fits x k .empty (Answers r)) :
    (onFiles m handler).Fits x k .empty (Answers (r.1, r.2, m)) := by
  rw [onFiles, fits_bind]
  refine h.mono fun v o h => ?_
  obtain ⟨rfl, hbytes⟩ := h
  exact ⟨rfl, hbytes⟩

theorem fits_runTransfer (spill : Bytes) (c : Config) (m : Machine) (f : Files) (op : TransferOp) (hk : 912 ≤ k) :
    (runTransfer spill c m f x.length op).Fits x k .empty
      (Answers ((op.run c m f x).reply, (op.run c m f x).files, (op.run c m f x).machine)) := by
  cases op with
  | fileReadBegin => exact fits_onFiles (fits_beginFileRead c m f (by omega))
  | fileReadBlock => exact fits_onFiles (fits_readTransferBlock spill f hk)
  | fileReadEnd => exact fits_onFiles (fits_endReadTransfer f (by omega))
  | fileWriteBegin => exact fits_onFiles (fits_beginFileWrite c m f (by omega))
  | fileWriteBlock => exact fits_onFiles (fits_writeTransferBlock f (by omega))
  | fileWriteCommit => exact fits_onFiles (fits_commitFileWrite f (by omega))
  | fileAbort => exact fits_onFiles (fits_abortTransfer f)
  | graphicsBegin =>
    refine fits_onFiles (r := if x.length ≠ 0 then (none, f) else Dos.beginGraphics c m f) ?_
    split
    · exact answers_none f
    · exact fits_beginGraphics c m f (by omega)
  | graphicsBlock => exact fits_readGraphicsBlock m f hk
  | graphicsEnd => exact fits_onFiles (fits_endReadTransfer f (by omega))

theorem fits_operateTransfer (spill : Bytes) (c : Config) (s : State) (op : TransferOp) (hk : 912 ≤ k) :
    (operateTransfer spill c s op x.length).Fits x k .empty (Serves opcode (Dos.operateTransfer c s op x)) := by
  rw [operateTransfer, fits_bind]
  refine (fits_runTransfer spill c s.machine s.files op hk).mono fun v o h => ?_
  obtain ⟨rfl, hbytes⟩ := h
  unfold Dos.operateTransfer
  generalize op.run c s.machine s.files x = r at hbytes ⊢
  obtain ⟨_ | bytes, files, machine⟩ := r
  · exact ⟨rfl, rfl⟩
  · exact ⟨rfl, rfl, hbytes bytes rfl⟩

end

/-- The switch, on a screen buffer of its size. -/
theorem fits_operate (spill : Bytes) (c : Config) (s : State) (opcode : UInt8) :
    (operate spill c s opcode x.length).Fits x screenBufferSize .empty
      (Serves opcode (Dos.operate .ratsr c s opcode x)) := by
  unfold operate Dos.operate
  split
  · rename_i hopcode
    try simp only [hopcode]
    exact fits_withoutPayload (fits_writeAnswer s (by simp [buildStatus, screenBufferSize]))
  · rename_i hopcode
    try simp only [hopcode]
    exact fits_withoutPayload (fits_writeAnswer s (by simp [buildCapabilities, screenBufferSize]))
  · rename_i hopcode
    try simp only [hopcode]
    refine fits_withoutPayload ⟨rfl, rfl, ?_⟩
    exact UInt8.toNat_inj.mp hopcode
  · rename_i hopcode
    try simp only [hopcode]
    exact fits_operateKeys c s (by decide)
  · rename_i hopcode
    try simp only [hopcode]
    by_cases hlength : x.length > screenBufferSize
    · rw [if_pos hlength, if_pos hlength]
      exact ⟨rfl, rfl⟩
    · rw [if_neg hlength, if_neg hlength, fits_bind, fits_copy_all (by omega)]
      exact ⟨rfl, rfl, Written.holds_put _ _ _⟩
  · rename_i hopcode
    try simp only [hopcode]
    have hlength := buildDiagnostics_length s
    generalize buildDiagnostics s = bytes at hlength ⊢
    exact fits_withoutPayload (fits_writeAnswer s (by rw [hlength]; decide))
  · cases TransferOp.ofOpcode opcode with
    | none =>
      dsimp only
      (try split) <;> first | contradiction | exact ⟨rfl, rfl⟩
    | some op =>
      dsimp only
      (try split) <;> first | contradiction | exact fits_operateTransfer spill c s op (by decide)

/-! ## Responses -/

/-- The program leaves the state `spec`, and the payload of its response in the screen buffer. -/
def Replies (spec v : State) (o : Written) : Prop :=
  v = { spec with workspace := v.workspace } ∧
    (v.session.responseOpcode ≠ 4 →
      o.Holds 0 (spec.workspace.load residentWorkspace.output spec.session.responsePayloadLength))

/-- A response that fits the buffer has at most `MAX_RESPONSE_FRAGMENTS` fragments. -/
theorem responseFragmentCount_le {n : Nat} (h : n ≤ screenBufferSize) :
    ¬ (responseFragmentCount .ratsr n).toNat > Build.ratsr.maxFragments := by
  unfold screenBufferSize at h
  rw [responseFragmentCount_toNat .ratsr (by omega)]
  simp only [Build.fragmentPayload, Build.maxFragments]
  omega

/-- The response as RA-TSR records it. -/
theorem sendResponse_screen (s : State) (kind opcode : UInt8) (id : UInt16) {n : Nat} (h : n ≤ screenBufferSize) :
    Dos.sendResponse .ratsr s kind opcode id (.screen n) =
      { s with session := { s.session with
          responseCount := responseFragmentCount .ratsr n, responseKind := kind, responseOpcode := opcode,
          responseRequestId := id, responsePayloadLength := n, lastRequestId := id, hasLastRequest := true,
          responseNext := 0, responsePending := responseFragmentCount .ratsr n ≠ 0 } } := by
  unfold Dos.sendResponse
  exact if_neg (responseFragmentCount_le h)

/-- An array is sent as what is in the screen buffer once it is copied there. -/
theorem sendResponse_array (s : State) (kind opcode : UInt8) (id : UInt16) {bytes : Bytes}
    (h : bytes.length ≤ screenBufferSize) :
    Dos.sendResponse .ratsr s kind opcode id (.array bytes) =
      Dos.sendResponse .ratsr (s.putScreen .ratsr bytes) kind opcode id (.screen bytes.length) := by
  rw [sendResponse_screen _ _ _ _ h]
  unfold Dos.sendResponse
  exact if_neg (responseFragmentCount_le h)

variable {kind opcode : UInt8} {id : UInt16}

theorem replies_screen (s : State) (m : Memory) {bytes : Bytes} (hlength : bytes.length ≤ screenBufferSize)
    (ho : o.Holds 0 bytes) :
    Replies (Dos.sendResponse .ratsr (s.putScreen .ratsr bytes) kind opcode id (.screen bytes.length))
      (Dos.sendResponse .ratsr { s with workspace := m } kind opcode id (.screen bytes.length)) o := by
  rw [sendResponse_screen _ _ _ _ hlength, sendResponse_screen _ _ _ _ hlength]
  refine ⟨rfl, fun _ => ?_⟩
  show o.Holds 0 ((s.workspace.store 0 bytes).load 0 bytes.length)
  rwa [Memory.load_store_same]

theorem replies_capture (s : State) (m : Memory) {n : Nat} (hlength : n ≤ screenBufferSize) (hopcode : opcode = 4) :
    Replies (Dos.sendResponse .ratsr s kind opcode id (.screen n))
      (Dos.sendResponse .ratsr { s with workspace := m } kind opcode id (.screen n)) o := by
  rw [sendResponse_screen _ _ _ _ hlength, sendResponse_screen _ _ _ _ hlength]
  exact ⟨rfl, fun hne => absurd hopcode hne⟩

theorem fits_sendResponse_screen (s : State) {n : Nat} (hlength : n ≤ screenBufferSize) {Q : State → Written → Prop} :
    (sendResponse s kind opcode id (.screen n)).Fits x screenBufferSize o Q ↔
      Q (Dos.sendResponse .ratsr s kind opcode id (.screen n)) o := by
  have hcount : ¬ (responseFragmentCount .ratsr (Source.screen n).length).toNat > Build.ratsr.maxFragments :=
    responseFragmentCount_le hlength
  rw [sendResponse, if_neg hcount]
  rfl

theorem fits_sendError (s : State) (m : Memory) (code : UInt16) (message : String) :
    (sendError { s with workspace := m } opcode id code message).Fits x screenBufferSize o
      (Replies (Dos.sendError .ratsr s opcode id code message)) := by
  unfold sendError Dos.sendError
  generalize hbytes : dmPutU16 code ++ (messageBytes message).take 120 = bytes
  have hlength : bytes.length ≤ 122 := by
    rw [← hbytes, List.length_append, List.length_take]
    show 2 + _ ≤ 122
    omega
  have hfits : bytes.length ≤ screenBufferSize := hlength.trans (by decide)
  have hcount : ¬ (responseFragmentCount .ratsr (Source.array bytes).length).toNat > Build.ratsr.maxFragments :=
    responseFragmentCount_le hfits
  rw [sendResponse, if_neg hcount, fits_bind, fits_put (by omega), fits_pure, sendResponse_array s _ _ _ hfits]
  exact replies_screen s m hfits (Written.holds_put _ _ _)

theorem queueWords_workspace (c : Config) (words : List UInt16) (s : State) (m : Memory) :
    queueWords .ratsr c words { s with workspace := m } =
      ((queueWords .ratsr c words s).1, { (queueWords .ratsr c words s).2 with workspace := m }) := by
  induction words generalizing s with
  | nil => rfl
  | cons word words ih =>
    simp only [queueWords]
    cases s.machine.biosQueueWord word with
    | none => rfl
    | some machine => simp only [ih { s with machine := machine }]

theorem injectKeys_workspace (c : Config) (s : State) (m : Memory) :
    Dos.injectKeys .ratsr c { s with workspace := m } x =
      ((Dos.injectKeys .ratsr c s x).1, { (Dos.injectKeys .ratsr c s x).2 with workspace := m }) := by
  unfold Dos.injectKeys
  split
  · rfl
  dsimp only
  split
  · rfl
  · simp only [queueWords_workspace]

theorem operateKeys_workspace (c : Config) (s : State) (m : Memory) :
    Dos.operateKeys .ratsr c { s with workspace := m } x =
      ((Dos.operateKeys .ratsr c s x).1, { (Dos.operateKeys .ratsr c s x).2 with workspace := m }) := by
  unfold Dos.operateKeys
  split
  · rfl
  · rw [injectKeys_workspace]
    generalize Dos.injectKeys .ratsr c s x = injected
    obtain ⟨_ | bytes, t⟩ := injected <;> rfl

/-- The operations do not look at the workspace of the state. -/
theorem operate_workspace (c : Config) (s : State) (m : Memory) (opcode : UInt8) :
    Dos.operate .ratsr c { s with workspace := m } opcode x =
      ((Dos.operate .ratsr c s opcode x).1, { (Dos.operate .ratsr c s opcode x).2 with workspace := m }) := by
  have hempty : ∀ (message : String) (reply : Reply) (t : State),
      Dos.withoutPayload x message { s with workspace := m } (reply, { t with workspace := m }) =
        ((Dos.withoutPayload x message s (reply, t)).1,
          { (Dos.withoutPayload x message s (reply, t)).2 with workspace := m }) := by
    intro message reply t
    unfold Dos.withoutPayload
    split <;> rfl
  unfold Dos.operate
  split
  · exact hempty _ _ s
  · exact hempty _ _ s
  · exact hempty _ _ (prepareTextCapture c s).2
  · exact operateKeys_workspace c s m
  · split <;> rfl
  · exact hempty _ _ s
  · cases TransferOp.ofOpcode opcode with
    | none => rfl
    | some op =>
      simp only [Dos.operateTransfer]
      cases (op.run c s.machine s.files x).reply <;> rfl

/-- `process_request` on the request's bytes. -/
theorem fits_processRequest (spill : Bytes) (c : Config) (s : State) (m : Memory) (opcode : UInt8) (id : UInt16) :
    (processRequest spill c { s with workspace := m, requests := s.requests ++ [⟨opcode, id, x⟩] } opcode id
      x.length).Fits x screenBufferSize .empty (Replies (Dos.processRequest .ratsr c s opcode id x)) := by
  unfold processRequest Dos.processRequest
  rw [fits_bind]
  refine (fits_operate spill c { s with workspace := m, requests := s.requests ++ [⟨opcode, id, x⟩] } opcode).mono
    fun v o h => ?_
  have hlength := operate_fits .ratsr c { s with requests := s.requests ++ [⟨opcode, id, x⟩] } opcode x
  rw [operate_workspace c { s with requests := s.requests ++ [⟨opcode, id, x⟩] }] at h
  generalize Dos.operate .ratsr c { s with requests := s.requests ++ [⟨opcode, id, x⟩] } opcode x = r at h hlength ⊢
  obtain ⟨reply, t⟩ := r
  obtain ⟨answer, u⟩ := v
  obtain ⟨rfl, h⟩ := h
  cases reply with
  | error code message =>
    obtain rfl : answer = _ := h
    exact fits_sendError t m code message
  | screen bytes =>
    obtain ⟨rfl, ho⟩ := h
    rw [fits_sendResponse_screen _ hlength]
    exact replies_screen t m hlength ho
  | capture n =>
    obtain ⟨rfl, hopcode⟩ := h
    rw [fits_sendResponse_screen _ hlength]
    exact replies_capture t m hlength hopcode

end Workspace

/-! ## In memory -/

variable {p : Placement} {length : Nat}

theorem residentWorkspace_shared : residentWorkspace.Shared := rfl

/-- Wherever the buffers are, as long as they lie over each other at one offset or not at all,
    the request is processed as its bytes say. -/
theorem processRequestAt_refines (hp : p.Aligned requestBufferSize screenBufferSize) (hlength : length ≤ requestBufferSize)
    (spill : Bytes) (c : Config) (s : State) (m : Memory) (opcode : UInt8) (id : UInt16) :
    let after := (processRequestAt p spill c { s with workspace := m } opcode id length).1
    let spec := processRequest .ratsr c s opcode id (m.load p.input length)
    after = { spec with workspace := after.workspace } ∧ after.replyPayload p = spec.replyPayload residentWorkspace := by
  intro after spec
  have hload : (m.load p.input length).length = length := Memory.load_length _ _ _
  have hfits := @Workspace.fits_processRequest (m.load p.input length) spill c s (fun _ => 0) opcode id
  have hstart := @Access.Stands.start (m.load p.input length) screenBufferSize p m (by rw [hload])
  obtain ⟨o, ⟨hstate, hreply⟩, hstands⟩ := hfits.run (hp.mono (by rw [hload]; exact hlength)) hstart
  rw [hload] at hstate hreply hstands
  generalize hrun : (Workspace.processRequest spill c _ opcode id length).run p m = r at hstate hreply hstands
  have hafter : after = { r.1 with workspace := r.2.2 } := by
    rw [← hrun]
    rfl
  have hspec : after = { spec with workspace := r.2.2 } := by rw [hafter, hstate]
  refine ⟨hspec.trans (by rw [hspec]), ?_⟩
  rw [hspec]
  unfold State.replyPayload
  by_cases hopcode : spec.session.responseOpcode = 4
  · simp only [hopcode, if_true]
  · have hholds := hreply (by rw [hstate]; exact hopcode)
    have hpayload := hstands.load hholds
    simp only [hopcode, if_false]
    rwa [Memory.load_length] at hpayload

/-- The calls of DOS are the same wherever the buffers are. -/
theorem processRequestAt_calls {q : Placement} {m m' : Memory} (hp : p.Aligned requestBufferSize screenBufferSize)
    (hq : q.Aligned requestBufferSize screenBufferSize) (hlength : length ≤ requestBufferSize) (spill : Bytes) (c : Config)
    (s : State) (opcode : UInt8) (id : UInt16) (hm : m'.load q.input length = m.load p.input length) :
    (processRequestAt p spill c { s with workspace := m } opcode id length).2 =
      (processRequestAt q spill c { s with workspace := m' } opcode id length).2 := by
  have hload : (m.load p.input length).length = length := Memory.load_length _ _ _
  have hfits := @Workspace.fits_processRequest (m.load p.input length) spill c s (fun _ => 0) opcode id
  have hstart := @Access.Stands.start (m.load p.input length) screenBufferSize p m (by rw [hload])
  have hstart' := @Access.Stands.start (m.load p.input length) screenBufferSize q m' (by rw [hload, hm])
  have hcalls := (hfits.same (hp.mono (by rw [hload]; exact hlength)) (hq.mono (by rw [hload]; exact hlength)) hstart
    hstart').2
  rw [hload] at hcalls
  unfold processRequestAt
  rw [hm]
  exact hcalls

/-- One request is answered alike with its buffers in one memory and with its buffers apart:
    the same reply, the same calls of DOS, and the same state but for the buffers. -/
theorem shared_workspace {m : Memory} (spill : Bytes) (c : Config) (s : State) (opcode : UInt8) (id : UInt16)
    (hlength : length ≤ requestBufferSize) (hp : p.Apart requestBufferSize screenBufferSize)
    (hm : m.load p.input length = s.workspace.load residentWorkspace.input length) :
    let shared := processRequestAt residentWorkspace spill c s opcode id length
    let apart := processRequestAt p spill c { s with workspace := m } opcode id length
    shared.1.replyPayload residentWorkspace = apart.1.replyPayload p ∧ shared.2 = apart.2 ∧
      shared.1 = { apart.1 with workspace := shared.1.workspace } := by
  intro shared apart
  have hone : residentWorkspace.Aligned requestBufferSize screenBufferSize := residentWorkspace_shared.aligned
  obtain ⟨hshared, hreply⟩ := processRequestAt_refines hone hlength spill c s s.workspace opcode id
  obtain ⟨hapart, hreply'⟩ := processRequestAt_refines hp.aligned hlength spill c s m opcode id
  rw [hm] at hapart hreply'
  refine ⟨hreply.trans hreply'.symm, processRequestAt_calls hone hp.aligned hlength spill c s opcode id hm, ?_⟩
  rw [hapart]
  exact hshared

/-- A read of `A` is begun: a file of three bytes. -/
def readRequested : State :=
  let path := sampleConfig.sandboxRoot ++ [backslash, 0x41]
  { State.start blankMachine (dosStore (fun name => if name = dosName path then some [1, 2, 3] else none) fun _ => ⟨true, 0⟩) with
    workspace := Memory.store (fun _ => 0) 0 [1, 0x41] }

theorem shared_workspace_read :
    let other := Memory.store (fun _ => 0xFF) 0 [1, 0x41]
    let shared := processRequestAt residentWorkspace [] sampleConfig readRequested 8 1 2
    let apart := processRequestAt ⟨0, 4229⟩ [] sampleConfig { readRequested with workspace := other } 8 1 2
    shared.1.replyPayload residentWorkspace = apart.1.replyPayload ⟨0, 4229⟩ ∧ shared.2 = apart.2 ∧
      shared.1 = { apart.1 with workspace := shared.1.workspace } :=
  @shared_workspace ⟨0, 4229⟩ 2 (Memory.store (fun _ => 0xFF) 0 [1, 0x41]) [] sampleConfig readRequested 8 1 (by decide)
    (Or.inl (by decide)) (by decide +kernel)

/-- The file is opened and measured in either layout. -/
example : (processRequestAt residentWorkspace [] sampleConfig readRequested 8 1 2).2 =
    [.open [0x43, 0x3A, 0x5C, 0x52, 0x41, 0x54, 0x53, 0x52, 0x5C, 0x41], .lseek (some 5) true, .lseek (some 5) false] := by
  decide +kernel

/-! ## The reply on the wire -/

theorem fillTextCaptureFragment_slice (t : TextCapture) (m : Machine) (n i k : Nat) :
    slice (fillTextCaptureFragment t m 0 n) i k = fillTextCaptureFragment t m i (min (n - i) k) := by
  apply List.ext_getElem
  · simp [fillTextCaptureFragment, slice_length, Nat.min_comm]
  · intro j h1 h2
    simp [fillTextCaptureFragment, slice]

/-- What a fragment of the response carries. -/
theorem nextFragment_replyPayload (s : State) :
    (nextFragment s).1.payload = slice (s.replyPayload residentWorkspace)
      (s.session.responseNext.toNat * Build.ratsr.fragmentPayload) Build.ratsr.fragmentPayload := by
  unfold nextFragment State.replyPayload
  by_cases hopcode : s.session.responseOpcode = 4
  · simp only [hopcode, if_true, fillTextCaptureFragment_slice]
    generalize hfill : fillTextCaptureFragment s.textCapture s.machine _ _ = fragment
    have hlength := congrArg List.length hfill
    simp only [fillTextCaptureFragment, List.length_map, List.length_range] at hlength
    rw [Nat.add_zero, hlength]
    exact Memory.load_store_same _ _ _
  · simp only [hopcode, if_false, Memory.slice_load]
    rfl

end DosMcp.Dos
