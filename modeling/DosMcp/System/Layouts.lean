/-
  DosMcp.System.Layouts — the payloads of the operations, between the Python codecs and the
  hand-numbered offsets of the DOS agents.

  - `payload_layouts_agree`: every request the bridge can encode is handled by the agent as the
    handlers over its fields (`...Of`) handle it, and every payload an agent builds is decoded by
    the bridge to the values it was built from, whatever request it answers.
-/

import DosMcp.Dos.AgentProofs
import DosMcp.Dos.ProtoProofs
import DosMcp.Dos.TransferProofs
import DosMcp.Protocol.Codecs
import Mathlib.Data.List.TakeWhile

namespace DosMcp.Dos

open Lib

/-! ## The handlers over the fields of a request

Each is its handler in the source from the point where the payload has been taken apart. What the
encoders check themselves is not checked again. -/

/-- `inject_keys`. -/
def injectKeysOf (b : Build) (c : Config) (s : State) (r : KeyRequest) : Option Bytes × State :=
  let textWords := r.text.map fun ascii => ((asciiScan ascii).toUInt16 <<< 8) ||| ascii.toUInt16
  let (acceptedText, s) := queueWords b c textWords s
  let (acceptedKeys, s) := queueWords b c (r.keys.map fun key => namedKeyWord (.ofNat key.value)) s
  let generation := s.keyGeneration + 1
  (some (dmPutU16 (.ofNat acceptedText) ++ [.ofNat acceptedKeys] ++ dmPutU16 generation),
    { s with keyGeneration := generation })

/-- `begin_file_read`. -/
def beginFileReadOf (c : Config) (m : Machine) (f : Files) (r : FileReadBeginRequest) : Option Bytes × Files :=
  if ¬ c.allowFileRead ∨ f.transfer.kind ≠ .none then (none, f)
  else match buildSandboxPath c r.path with
    | none => (none, f)
    | some path =>
      let t := { f.transfer with path := path }
      match f.store.openFile (dosName path) with
      | (none, store) => (none, ⟨t, store⟩)
      | (some handle, store) =>
        let t := { t with handle := some handle }
        match store.seekEnd (some handle) with
        | (none, store) => (none, closeTransfer ⟨t, store⟩ false)
        | (some size, store) =>
          if size > tsrFileMax.toNat then (none, closeTransfer ⟨t, store⟩ false)
          else match store.seekStart (some handle) with
            | (false, store) => (none, closeTransfer ⟨t, store⟩ false)
            | (true, store) =>
              let id := nextTransferId m t.id
              (some (dmPutU16 id ++ dmPutU32 (.ofNat size)),
                ⟨{ t with kind := .read, size := .ofNat size, offset := 0, crc := 0, id := id }, store⟩)

def startFileWriteOf (c : Config) (m : Machine) (f : Files) (r : FileWriteBeginRequest) : Option Bytes × Files :=
  let id := nextTransferId m f.transfer.id
  match createTransferTemp c id { f with transfer := { f.transfer with id := id } } with
  | (false, f) => (none, f)
  | (true, f) =>
    (some (dmPutU16 id ++ dmPutU32 (.ofNat r.totalSize)),
      { f with transfer := { f.transfer with kind := .write, size := .ofNat r.totalSize, expectedCrc := .ofNat r.crc32,
                                             offset := 0, crc := 0, overwrite := if r.overwrite then 1 else 0 } })

/-- `begin_file_write`. -/
def beginFileWriteOf (c : Config) (m : Machine) (f : Files) (r : FileWriteBeginRequest) : Option Bytes × Files :=
  if ¬ c.allowFileWrite ∨ f.transfer.kind ≠ .none ∨ r.totalSize > tsrFileMax.toNat then (none, f)
  else match buildSandboxPath c r.path with
    | none => (none, f)
    | some path =>
      let f := { f with transfer := { f.transfer with path := path } }
      if r.overwrite then startFileWriteOf c m f r
      else match f.store.openFile (dosName path) with
        | (some existing, store) => (none, { f with store := store.close (some existing) })
        | (none, store) => startFileWriteOf c m { f with store := store } r

/-- The checks of the block reads: the length to read at the transfer's offset. -/
def blockRequestOf (t : Transfer) (kind : TransferKind) (r : TransferBlockRequest) : Option UInt16 :=
  if t.kind ≠ kind ∨ r.data ≠ [] ∨ r.transferId ≠ t.id.toNat ∨ r.offset ≠ t.offset.toNat ∨ r.offset ≥ t.size.toNat then none
  else some (.ofNat (min r.length (t.size.toNat - r.offset)))

/-- `read_transfer_block`. -/
def readTransferBlockOf (f : Files) (r : TransferBlockRequest) : Option Bytes × Files :=
  match blockRequestOf f.transfer .read r with
  | none => (none, f)
  | some requested => match f.store.read f.transfer.handle requested.toNat with
    | (none, store) => (none, { f with store := store })
    | (some bytes, store) =>
      if bytes = [] then (none, { f with store := store })
      else
        let (reply, t) := blockRead f.transfer bytes
        (some reply, ⟨t, store⟩)

/-- `read_graphics_block`. -/
def readGraphicsBlockOf (m : Machine) (f : Files) (r : TransferBlockRequest) : Option Bytes × Files × Machine :=
  match blockRequestOf f.transfer .graphics r with
  | none => (none, f, m)
  | some requested =>
    let (bytes, m) := captureBlock f.transfer.graphics m f.transfer.offset requested
    let (reply, t) := blockRead f.transfer bytes
    (some reply, { f with transfer := t }, m)

/-- `write_transfer_block`. -/
def writeTransferBlockOf (f : Files) (r : TransferBlockRequest) : Option Bytes × Files :=
  let t := f.transfer
  if t.kind ≠ .write ∨ r.transferId ≠ t.id.toNat ∨ r.data = [] ∨ r.offset ≠ t.offset.toNat ∨
      t.offset + .ofNat r.length > t.size then (none, f)
  else match f.store.write t.handle r.data with
    | (ok, written, store) =>
      if ¬ ok ∨ written ≠ r.length then (none, { f with store := store })
      else
        let crc := crc32Update t.crc r.data
        (some (dmPutU16 t.id ++ dmPutU32 t.offset ++ dmPutU16 0 ++ dmPutU32 crc),
          ⟨{ t with crc := crc, offset := t.offset + .ofNat r.length }, store⟩)

/-- `end_read_transfer`. -/
def endReadTransferOf (f : Files) (r : TransferEndRequest) : Option Bytes × Files :=
  let t := f.transfer
  if (t.kind ≠ .read ∧ t.kind ≠ .graphics) ∨ r.transferId ≠ t.id.toNat ∨ t.offset ≠ t.size then (none, f)
  else (some (dmPutU32 t.size ++ dmPutU32 t.crc), closeTransfer f false)

/-- `commit_file_write`. -/
def commitFileWriteOf (f : Files) (r : TransferEndRequest) : Option Bytes × Files :=
  let t := f.transfer
  if t.kind ≠ .write ∨ r.transferId ≠ t.id.toNat ∨ t.offset ≠ t.size ∨ t.crc ≠ t.expectedCrc then (none, f)
  else
    let f : Files := ⟨{ t with handle := none }, f.store.close t.handle⟩
    match f.store.openFile (dosName t.path) with
    | (none, store) => renameOntoPath { f with store := store }
    | (some existing, store) =>
      let f := { f with store := store.close (some existing) }
      if t.overwrite = 0 then (none, closeTransfer f true)
      else match f.store.remove (dosName t.path) with
        | (false, store) => (none, closeTransfer { f with store := store } true)
        | (true, store) => renameOntoPath { f with store := store }

/-- `abort_transfer`. -/
def abortTransferOf (f : Files) (r : TransferEndRequest) : Option Bytes × Files :=
  if f.transfer.kind = .none ∨ r.transferId ≠ f.transfer.id.toNat then (none, f) else (some [], closeTransfer f true)

/-! ## Fields -/

theorem dmGetU16_eq {bs : Bytes} {i v : Nat} (hi : i + 1 < bs.length) (h : leNat (slice bs i 2) = v) : (dmGetU16 bs i).toNat = v :=
  (dmGetU16_toNat hi).trans h

theorem dmGetU32_eq {bs : Bytes} {i v : Nat} (hi : i + 3 < bs.length) (h : leNat (slice bs i 4) = v) : (dmGetU32 bs i).toNat = v :=
  (dmGetU32_toNat hi).trans h

/-- The agent's reads of an encoded block request. -/
structure ReadsBlock (bs : Bytes) (r : TransferBlockRequest) : Prop where
  transferId : (dmGetU16 bs 0).toNat = r.transferId
  offset : (dmGetU32 bs 2).toNat = r.offset
  length : (dmGetU16 bs 6).toNat = r.length
  data : bs.drop 8 = r.data
  size : bs.length = 8 + r.data.length
  range : 1 ≤ r.length ∧ r.length ≤ 900
  whole : r.data = [] ∨ r.data.length = r.length

theorem readsBlock_of_encode {r : TransferBlockRequest} {bs : Bytes} (h : r.encode = .ok bs) : ReadsBlock bs r := by
  obtain ⟨-, hlow, hhigh, hdata, head, hhead, rfl⟩ := TransferBlockRequest.encode_eq_ok h
  have hlen : head.length = 8 := structPack_length hhead
  have hsize : (head ++ r.data).length = 8 + r.data.length := by rw [List.length_append, hlen]
  have hfields := structPack_fieldsAt hhead r.data
  simp only [List.map_cons, List.map_nil, fieldsAt, Nat.zero_add, Nat.reduceAdd, List.cons.injEq, Prod.mk.injEq, true_and,
    and_true, Nat.cast_inj] at hfields
  obtain ⟨h0, h2, h6⟩ := hfields
  exact ⟨dmGetU16_eq (by omega) h0, dmGetU32_eq (by omega) h2, dmGetU16_eq (by omega) h6, List.drop_left' hlen, hsize,
    ⟨hlow, hhigh⟩, hdata⟩

theorem u16_ne_iff {x y : UInt16} {v : Nat} (h : x.toNat = v) : x ≠ y ↔ v ≠ y.toNat := by
  rw [← h]
  exact not_congr UInt16.toNat_inj.symm

theorem u32_ne_iff {x y : UInt32} {v : Nat} (h : x.toNat = v) : x ≠ y ↔ v ≠ y.toNat := by
  rw [← h]
  exact not_congr UInt32.toNat_inj.symm

theorem u32_eq_ofNat {x : UInt32} {v : Nat} (h : x.toNat = v) : x = .ofNat v := by
  rw [← h]
  exact (UInt32.ofNat_toNat).symm

/-! ## Blocks -/

section

variable {bs : Bytes} {r : TransferBlockRequest}

theorem ReadsBlock.size_eq_iff (h : ReadsBlock bs r) : bs.length ≠ 8 ↔ r.data ≠ [] := by
  rw [h.size, ← List.length_pos_iff]
  omega

theorem ReadsBlock.within (h : ReadsBlock bs r) : ¬ dmGetU16 bs 6 = 0 ∧ ¬ dmGetU16 bs 6 > transferBlockMax := by
  have hlen := h.length
  have hrange := h.range
  refine ⟨fun h0 => ?_, fun hgt => ?_⟩
  · rw [h0] at hlen
    have : (0 : UInt16).toNat = 0 := rfl
    omega
  · have hgt' : transferBlockMax.toNat < (dmGetU16 bs 6).toNat := UInt16.lt_iff_toNat_lt.mp hgt
    have : transferBlockMax.toNat = 900 := rfl
    omega

/-- The length that is read at an offset before the end. -/
theorem min_requested {requested : UInt16} {length : Nat} (hlen : requested.toNat = length) {size offset : UInt32}
    (hlt : offset.toNat < size.toNat) :
    (if requested.toUInt32 > size - offset then (size - offset).toUInt16 else requested) =
      .ofNat (min length (size.toNat - offset.toNat)) := by
  have hsub : (size - offset).toNat = size.toNat - offset.toNat := UInt32.toNat_sub_of_le _ _ (UInt32.le_iff_toNat_le.mpr hlt.le)
  have hwide : requested.toUInt32.toNat = length := by rw [UInt16.toNat_toUInt32, hlen]
  have hbound : length < 2 ^ 16 := hlen ▸ requested.toNat_lt
  apply UInt16.toNat_inj.mp
  rw [UInt16.toNat_ofNat']
  split
  · rename_i hgt
    have hgt' := UInt32.lt_iff_toNat_lt.mp hgt
    rw [hsub, hwide] at hgt'
    rw [UInt32.toNat_toUInt16, hsub]
    omega
  · rename_i hle
    have hle' := UInt32.le_iff_toNat_le.mp (UInt32.not_lt.mp hle)
    rw [hsub, hwide] at hle'
    rw [hlen]
    omega

theorem blockRequest_of_reads (h : ReadsBlock bs r) (t : Transfer) (kind : TransferKind) :
    blockRequest t kind bs = blockRequestOf t kind r := by
  have hge : dmGetU32 bs 2 ≥ t.size ↔ r.offset ≥ t.size.toNat := by
    rw [← h.offset]
    exact UInt32.le_iff_toNat_le
  simp only [blockRequest, blockRequestOf, h.size_eq_iff, u16_ne_iff h.transferId, u32_ne_iff h.offset, hge, h.within,
    false_or]
  by_cases hroute : t.kind ≠ kind ∨ r.data ≠ [] ∨ r.transferId ≠ t.id.toNat
  · rw [if_pos hroute, if_pos]
    exact hroute.imp_right (Or.imp_right Or.inl)
  · rw [if_neg hroute]
    by_cases hplace : r.offset ≠ t.offset.toNat ∨ r.offset ≥ t.size.toNat
    · rw [if_pos hplace, if_pos (Or.inr (Or.inr (Or.inr hplace)))]
    · have hno : ¬ (t.kind ≠ kind ∨ r.data ≠ [] ∨ r.transferId ≠ t.id.toNat ∨ r.offset ≠ t.offset.toNat ∨
          r.offset ≥ t.size.toNat) := fun hany =>
        hany.elim (fun a => hroute (Or.inl a)) fun hany => hany.elim (fun a => hroute (Or.inr (Or.inl a))) fun hany =>
          hany.elim (fun a => hroute (Or.inr (Or.inr a))) hplace
      rw [if_neg hplace, if_neg hno, Option.some.injEq]
      have hlt : (dmGetU32 bs 2).toNat < t.size.toNat := by
        rw [h.offset]
        exact Nat.lt_of_not_le fun a => hplace (Or.inr a)
      rw [min_requested h.length hlt, h.offset]

theorem readTransferBlock_of_reads (h : ReadsBlock bs r) (f : Files) : readTransferBlock f bs = readTransferBlockOf f r := by
  rw [readTransferBlock, blockRequest_of_reads h]
  rfl

theorem readGraphicsBlock_of_reads (h : ReadsBlock bs r) (m : Machine) (f : Files) :
    readGraphicsBlock m f bs = readGraphicsBlockOf m f r := by
  rw [readGraphicsBlock, blockRequest_of_reads h]
  rfl

theorem writeTransferBlock_of_reads (h : ReadsBlock bs r) (f : Files) : writeTransferBlock f bs = writeTransferBlockOf f r := by
  have hshort : ¬ bs.length < 8 := by
    have := h.size
    omega
  have hsize : bs.length ≠ r.length + 8 ↔ r.data = [] := by
    have hrange := h.range
    rw [h.size]
    rcases h.whole with hnil | hfull
    · rw [hnil]
      simp only [List.length_nil, iff_true]
      omega
    · have hne : r.data ≠ [] := List.length_pos_iff.mp (by omega)
      simp only [hne, iff_false, not_not]
      omega
  have hwide : (dmGetU16 bs 6).toUInt32 = .ofNat r.length := u32_eq_ofNat (by rw [UInt16.toNat_toUInt32, h.length])
  simp only [writeTransferBlock, writeTransferBlockOf, hshort, u16_ne_iff h.transferId, u32_ne_iff h.offset, h.within,
    hwide, h.data, h.length, hsize, false_or]
  by_cases hroute : f.transfer.kind ≠ .write ∨ r.transferId ≠ f.transfer.id.toNat
  · rw [if_pos hroute, if_pos]
    exact hroute.imp_right Or.inl
  · rw [not_or, not_not, not_not] at hroute
    simp only [hroute, ne_eq, not_true_eq_false, false_or, if_false]
    by_cases hoffset : r.offset = f.transfer.offset.toNat
    · have hsame : dmGetU32 bs 2 = f.transfer.offset := UInt32.toNat_inj.mp (h.offset.trans hoffset)
      simp only [hsame, ← ne_eq]
    · simp only [hoffset, not_false_eq_true, true_or, or_true, if_true]

end

/-! ## Ends -/

section

variable {bs : Bytes} {r : TransferEndRequest}

theorem readsEnd_of_encode (h : r.encode = .ok bs) : bs.length = 2 ∧ (dmGetU16 bs 0).toNat = r.transferId := by
  simp only [TransferEndRequest.encode, bind_eq_ok, raiseIf_eq_ok] at h
  obtain ⟨_, -, hpack⟩ := h
  have hlen : bs.length = 2 := structPack_length hpack
  have hfields := structPack_fieldsAt hpack []
  simp only [List.map_cons, List.map_nil, fieldsAt, List.append_nil, List.cons.injEq, Prod.mk.injEq, true_and, and_true,
    Nat.cast_inj] at hfields
  exact ⟨hlen, dmGetU16_eq (by omega) hfields⟩

theorem endReadTransfer_of_encode (h : r.encode = .ok bs) (f : Files) : endReadTransfer f bs = endReadTransferOf f r := by
  obtain ⟨hlen, hid⟩ := readsEnd_of_encode h
  simp only [endReadTransfer, endReadTransferOf, u16_ne_iff hid, hlen, ne_eq, not_true_eq_false, false_or]

theorem commitFileWrite_of_encode (h : r.encode = .ok bs) (f : Files) : commitFileWrite f bs = commitFileWriteOf f r := by
  obtain ⟨hlen, hid⟩ := readsEnd_of_encode h
  simp only [commitFileWrite, u16_ne_iff hid, hlen, ne_eq, not_true_eq_false, false_or]
  rfl

theorem abortTransfer_of_encode (h : r.encode = .ok bs) (f : Files) : abortTransfer f bs = abortTransferOf f r := by
  obtain ⟨hlen, hid⟩ := readsEnd_of_encode h
  simp only [abortTransfer, abortTransferOf, u16_ne_iff hid, hlen, ne_eq, not_true_eq_false, false_or]

end

/-! ## Begins -/

theorem beginFileRead_of_encode {r : FileReadBeginRequest} {bs : Bytes} (h : r.encode = .ok bs) (c : Config) (m : Machine)
    (f : Files) : beginFileRead c m f bs = beginFileReadOf c m f r := by
  simp only [FileReadBeginRequest.encode, bind_eq_ok] at h
  obtain ⟨u, hpath, hbs⟩ := h
  obtain rfl : UInt8.ofNat r.path.length :: r.path = bs := Except.ok.inj hbs
  simp only [validatePath, raiseIf_eq_ok, not_or, not_not] at hpath
  have hmax : maxDosPathBytes = 80 := rfl
  have hlong : ¬ r.path.length + 1 < 2 := by omega
  have hsize : (byteAt (UInt8.ofNat r.path.length :: r.path) 0).toNat = r.path.length := by
    simp only [byteAt, List.getD_cons_zero, UInt8.toNat_ofNat']
    omega
  simp only [beginFileRead, List.length_cons, hlong, hsize, ne_eq, not_true_eq_false, or_false,
    List.drop_succ_cons, List.drop_zero]
  rfl

theorem beginFileWrite_of_encode {r : FileWriteBeginRequest} {bs : Bytes} (h : r.encode = .ok bs) (c : Config) (m : Machine)
    (f : Files) : beginFileWrite c m f bs = beginFileWriteOf c m f r := by
  simp only [FileWriteBeginRequest.encode, bind_eq_ok, raiseIf_eq_ok] at h
  obtain ⟨u, hpath, _, -, head, hhead, hbs⟩ := h
  obtain rfl : head ++ r.path = bs := Except.ok.inj hbs
  have hlen : head.length = 10 := structPack_length hhead
  have hlong : (head ++ r.path).length = 10 + r.path.length := by rw [List.length_append, hlen]
  have hfields := structPack_fieldsAt hhead r.path
  simp only [List.map_cons, List.map_nil, fieldsAt, Nat.zero_add, Nat.reduceAdd, List.cons.injEq, Prod.mk.injEq, true_and,
    and_true, Nat.cast_inj] at hfields
  obtain ⟨h0, h1, h5, h9⟩ := hfields
  rw [leNat_slice_one (by omega)] at h0 h9
  have hflag : byteAt (head ++ r.path) 0 = if r.overwrite then 1 else 0 := by
    apply UInt8.toNat_inj.mp
    cases hw : r.overwrite <;> simp_all
  have htotal := dmGetU32_eq (i := 1) (by omega) h1
  have hgt : dmGetU32 (head ++ r.path) 1 > tsrFileMax ↔ r.totalSize > tsrFileMax.toNat := by
    rw [← htotal]
    exact UInt32.lt_iff_toNat_lt
  have hstart : ∀ f, startFileWrite c m f (head ++ r.path) = startFileWriteOf c m f r := by
    intro f
    rw [startFileWrite, u32_eq_ofNat htotal, u32_eq_ofNat (dmGetU32_eq (i := 5) (by omega) h5), hflag]
    rfl
  have hdrop : (head ++ r.path).drop 10 = r.path := List.drop_left' hlen
  have hone : ¬ byteAt (head ++ r.path) 0 > 1 := by
    rw [hflag]
    split <;> decide
  simp only [beginFileWrite, beginFileWriteOf, hlong, h9, hone, hgt, hdrop, hstart, Nat.add_comm 10, ne_eq,
    not_true_eq_false, false_or, Nat.not_lt.mpr (Nat.le_add_left 10 _), or_false]
  by_cases hallowed : ¬ c.allowFileWrite = true ∨ ¬ f.transfer.kind = .none
  · rw [if_pos hallowed, if_pos (hallowed.imp_right Or.inl)]
  · rw [if_neg hallowed]
    by_cases hsize : r.totalSize > tsrFileMax.toNat
    · rw [if_pos hsize, if_pos (Or.inr (Or.inr hsize))]
    · rw [if_neg hsize, if_neg]
      · cases hw : r.overwrite
        all_goals
          simp only [hflag, hw]
          rfl
      · rintro (h | h | h)
        · exact hallowed (Or.inl h)
        · exact hallowed (Or.inr h)
        · exact hsize h

/-! ## Keys -/

/-- Every key of the protocol has a word for the BIOS. -/
theorem namedKeyWord_ne_zero (key : KeyCode) : namedKeyWord (.ofNat key.value) ≠ 0 := by
  cases key <;> decide

theorem injectKeys_of_encode {r : KeyRequest} {bs : Bytes} (h : r.encode = .ok bs) (b : Build) (c : Config) (s : State) :
    injectKeys b c s bs = injectKeysOf b c s r ∧ ((dmGetU16 bs 3).toNat : Int) = r.interKeyDelayMs := by
  simp only [KeyRequest.encode, bind_eq_ok, raiseIf_eq_ok, not_lt, not_not] at h
  obtain ⟨_, htext, _, hkeys, _, hdelay, head, hhead, hbs⟩ := h
  obtain rfl : head ++ r.text ++ (r.keys.map fun key => UInt8.ofNat key.value) = bs := Except.ok.inj hbs
  have hlen : head.length = 5 := structPack_length hhead
  have hfields := structPack_fieldsAt hhead (r.text ++ r.keys.map fun key => UInt8.ofNat key.value)
  rw [← List.append_assoc] at hfields
  have hlong : (head ++ r.text ++ r.keys.map fun key => UInt8.ofNat key.value).length = 5 + r.text.length + r.keys.length := by
    rw [List.length_append, List.length_append, hlen, List.length_map]
  have htextBytes : slice (head ++ r.text ++ r.keys.map fun key => UInt8.ofNat key.value) 5 r.text.length = r.text := by
    rw [List.append_assoc, slice_append_right (k := 0) _ (by rw [hlen]), slice, List.drop_zero]
    exact List.take_left
  have hkeyBytes : slice (head ++ r.text ++ r.keys.map fun key => UInt8.ofNat key.value) (5 + r.text.length) r.keys.length =
      r.keys.map fun key => UInt8.ofNat key.value := by
    rw [slice_append_right (k := 0) _ (by rw [List.length_append, hlen, Nat.add_zero]), slice, List.drop_zero]
    exact List.take_of_length_le (by rw [List.length_map])
  generalize head ++ r.text ++ (r.keys.map fun key => UInt8.ofNat key.value) = bs at hfields hlong htextBytes hkeyBytes ⊢
  simp only [List.map_cons, List.map_nil, fieldsAt, Nat.zero_add, Nat.reduceAdd, List.cons.injEq, Prod.mk.injEq, true_and,
    and_true, Nat.cast_inj] at hfields
  obtain ⟨h0, h2, h3⟩ := hfields
  rw [leNat_slice_one (by omega)] at h2
  have htextLen := dmGetU16_eq (by omega) h0
  have hdelayMs : ((dmGetU16 bs 3).toNat : Int) = r.interKeyDelayMs := by
    rw [dmGetU16_toNat (by omega)]
    exact h3
  have hslow : ¬ dmGetU16 bs 3 > 1000 := by
    intro hgt
    have hgt' : 1000 < (dmGetU16 bs 3).toNat := UInt16.lt_iff_toNat_lt.mp hgt
    omega
  have hwords : ((r.keys.map fun key => UInt8.ofNat key.value).map namedKeyWord).takeWhile (fun word => decide (word ≠ 0)) =
      r.keys.map fun key => namedKeyWord (.ofNat key.value) := by
    rw [List.map_map]
    refine List.takeWhile_eq_self_iff.mpr fun word hword => ?_
    obtain ⟨key, -, rfl⟩ := List.mem_map.mp hword
    exact decide_eq_true (namedKeyWord_ne_zero key)
  refine ⟨?_, hdelayMs⟩
  have hno : ¬ (r.text.length > 4096 ∨ r.keys.length > 128 ∨ dmGetU16 bs 3 > 1000 ∨ bs.length ≠ 5 + r.text.length + r.keys.length) := by
    rintro (h | h | h | h)
    · omega
    · omega
    · exact hslow h
    · exact h hlong
  rw [injectKeys, if_neg (by omega)]
  simp only [htextLen, h2, htextBytes, hkeyBytes, hwords]
  rw [if_neg hno]
  rfl

/-! ## Replies -/

/-- The ticks since the agent was started. -/
def elapsedTicks (c : Config) (m : Machine) : UInt32 :=
  if m.readBiosTicks ≥ c.agentStartTicks then m.readBiosTicks - c.agentStartTicks
  else (0x1800B0 - c.agentStartTicks) + m.readBiosTicks

/-- The values of `build_status`. -/
def statusMessage (b : Build) (c : Config) (m : Machine) : StatusMessage :=
  match b with
  | .ratsr => ⟨0, 3, c.cachedDosMajor.toNat, c.cachedDosMinor.toNat, 0, .observeReady, (m.peek16 0x40 0x13).toNat,
      (elapsedTicks c m).toNat⟩
  | .ragent => ⟨0, 1, m.dosVersion.1.toNat, m.dosVersion.2.toNat, 0, .agentShellReady, (m.peek16 0x40 0x13).toNat,
      (elapsedTicks c m).toNat⟩

theorem pack_status (minor major minor' phase : UInt8) (kb : UInt16) (ticks : UInt32) :
    pack [(1, ((0 : UInt8).toNat : Int)), (1, (minor.toNat : Int)), (1, (major.toNat : Int)), (1, (minor'.toNat : Int)),
      (1, ((0 : UInt8).toNat : Int)), (1, (phase.toNat : Int)), (2, (kb.toNat : Int)), (4, (ticks.toNat : Int))] =
        some ([0, minor, major, minor', 0, phase] ++ dmPutU16 kb ++ dmPutU32 ticks) := by
  simp only [pack_u8, pack_u16, pack_u32, pack_nil, Option.map_some]
  rfl

theorem decode_buildStatus (b : Build) (c : Config) (m : Machine) :
    StatusMessage.decode (buildStatus b c m) = .ok (statusMessage b c m) := by
  refine StatusMessage.decode_of_encode (structPack_eq_ok.mpr ?_)
  cases b
  · exact pack_status 1 m.dosVersion.1 m.dosVersion.2 3 (m.peek16 0x40 0x13) (elapsedTicks c m)
  · exact pack_status 3 c.cachedDosMajor c.cachedDosMinor 2 (m.peek16 0x40 0x13) (elapsedTicks c m)

/-- The words `inject_keys` queues for the text of a payload, and those for its named keys. -/
def textWords (payload : Bytes) : List UInt16 :=
  (slice payload 5 (dmGetU16 payload 0).toNat).map fun ascii => ((asciiScan ascii).toUInt16 <<< 8) ||| ascii.toUInt16

def namedWords (payload : Bytes) : List UInt16 :=
  ((slice payload (5 + (dmGetU16 payload 0).toNat) (byteAt payload 2).toNat).map namedKeyWord).takeWhile (· ≠ 0)

theorem queueWords_le (b : Build) (c : Config) (words : List UInt16) (s : State) : (queueWords b c words s).1 ≤ words.length := by
  induction words generalizing s with
  | nil => exact Nat.le_refl _
  | cons word words ih =>
    rw [queueWords]
    split
    · exact Nat.zero_le _
    · exact Nat.succ_le_succ (ih _)

/-- The reply of `inject_keys`, while its counts fit their fields. -/
theorem decode_keyReply {accepted acceptedKeys : Nat} (h1 : accepted < 2 ^ 16) (h2 : acceptedKeys < 2 ^ 8)
    (generation : UInt16) :
    KeyResponse.decode (dmPutU16 (.ofNat accepted) ++ [.ofNat acceptedKeys] ++ dmPutU16 generation) =
      .ok ⟨accepted, acceptedKeys, generation.toNat⟩ := by
  refine KeyResponse.decode_of_encode (structPack_eq_ok.mpr ?_)
  have e1 : (accepted : Int) = ((UInt16.ofNat accepted).toNat : Int) := by rw [UInt16.toNat_ofNat_of_lt' h1]
  have e2 : (acceptedKeys : Int) = ((UInt8.ofNat acceptedKeys).toNat : Int) := by rw [UInt8.toNat_ofNat_of_lt' h2]
  simp only [e1, e2, pack_u8, pack_u16, pack_nil, Option.map_some, List.append_nil, List.append_assoc]

theorem decode_injectKeys {b : Build} {c : Config} {s s' : State} {payload bytes : Bytes}
    (h : injectKeys b c s payload = (some bytes, s')) :
    KeyResponse.decode bytes = .ok ⟨(queueWords b c (textWords payload) s).1,
      (queueWords b c (namedWords payload) (queueWords b c (textWords payload) s).2).1, s'.keyGeneration.toNat⟩ := by
  unfold injectKeys at h
  split at h
  · cases h
  · dsimp only at h
    split at h
    · cases h
    · rename_i hbounds
      simp only [not_or, not_lt, not_not] at hbounds
      obtain ⟨htext, hkeys, -, -⟩ := hbounds
      simp only [Prod.mk.injEq, Option.some.injEq] at h
      obtain ⟨rfl, rfl⟩ := h
      have htextLen : (textWords payload).length ≤ (dmGetU16 payload 0).toNat := by
        rw [textWords, List.length_map, slice_length]
        exact Nat.min_le_left _ _
      have hnamedLen : (namedWords payload).length ≤ (byteAt payload 2).toNat := by
        refine (List.takeWhile_prefix _).length_le.trans ?_
        rw [List.length_map, slice_length]
        exact Nat.min_le_left _ _
      have h1 := queueWords_le b c (textWords payload) s
      have h2 := queueWords_le b c (namedWords payload) (queueWords b c (textWords payload) s).2
      exact decode_keyReply (show (queueWords b c (textWords payload) s).1 < 2 ^ 16 by omega)
        (show (queueWords b c (namedWords payload) (queueWords b c (textWords payload) s).2).1 < 2 ^ 8 by omega) _

/-! ## Transfer replies -/

theorem nextTransferId_ne_zero (m : Machine) (id : UInt16) : nextTransferId m id ≠ 0 := by
  unfold nextTransferId
  dsimp only
  split
  · decide
  · assumption

theorem decode_begin {id : UInt16} (hid : id ≠ 0) (size : UInt32) :
    TransferBeginResponse.decode (dmPutU16 id ++ dmPutU32 size) = .ok ⟨id.toNat, size.toNat⟩ := by
  refine TransferBeginResponse.decode_of_encode (structPack_eq_ok.mpr ?_) fun h => hid (UInt16.toNat_inj.mp h)
  simp only [pack_u16, pack_u32, pack_nil, Option.map_some, List.append_nil]

theorem decode_block (id : UInt16) (offset crc : UInt32) {data : Bytes} (h : data.length ≤ 900) :
    TransferBlockResponse.decode (dmPutU16 id ++ dmPutU32 offset ++ dmPutU16 (.ofNat data.length) ++ dmPutU32 crc ++ data) =
      .ok ⟨id.toNat, offset.toNat, data, crc.toNat⟩ := by
  apply TransferBlockResponse.decode_of_encode
  have e : (data.length : Int) = ((UInt16.ofNat data.length).toNat : Int) := by
    rw [UInt16.toNat_ofNat_of_lt' (show data.length < 65536 by omega)]
  have hhead : structPack [(2, (id.toNat : Int)), (4, (offset.toNat : Int)), (2, (data.length : Int)), (4, (crc.toNat : Int))] =
      .ok (dmPutU16 id ++ dmPutU32 offset ++ dmPutU16 (.ofNat data.length) ++ dmPutU32 crc) := by
    rw [structPack_eq_ok, e]
    simp only [pack_u16, pack_u32, pack_nil, Option.map_some, List.append_nil, List.append_assoc]
  rw [TransferBlockResponse.encode, raiseIf_false (show ¬ data.length > maxTransferBlock from Nat.not_lt.mpr h), ok_bind, hhead]
  rfl

theorem decode_end (size crc : UInt32) :
    TransferEndResponse.decode (dmPutU32 size ++ dmPutU32 crc) = .ok ⟨size.toNat, crc.toNat⟩ := by
  refine TransferEndResponse.decode_of_encode (structPack_eq_ok.mpr ?_)
  simp only [pack_u32, pack_nil, Option.map_some, List.append_nil]

section

variable {c : Config} {m : Machine} {f f' : Files} {payload bytes : Bytes}

theorem decode_beginFileRead (h : beginFileRead c m f payload = (some bytes, f')) :
    TransferBeginResponse.decode bytes = .ok ⟨f'.transfer.id.toNat, f'.transfer.size.toNat⟩ := by
  unfold beginFileRead at h
  split at h
  · cases h
  split at h
  · cases h
  dsimp only at h
  split at h
  · cases h
  split at h
  · cases h
  split at h
  · cases h
  split at h
  · cases h
  · simp only [Prod.mk.injEq, Option.some.injEq] at h
    obtain ⟨rfl, rfl⟩ := h
    exact decode_begin (nextTransferId_ne_zero m _) _

theorem decode_startFileWrite (h : startFileWrite c m f payload = (some bytes, f')) :
    TransferBeginResponse.decode bytes = .ok ⟨f'.transfer.id.toNat, f'.transfer.size.toNat⟩ := by
  unfold startFileWrite at h
  dsimp only at h
  split at h
  · cases h
  · rename_i g hcreate
    simp only [Prod.mk.injEq, Option.some.injEq] at h
    obtain ⟨rfl, rfl⟩ := h
    obtain ⟨directory, -, name, i, -, -, htransfer, -, -⟩ := createTransferTemp_true hcreate
    have hid : g.transfer.id = nextTransferId m f.transfer.id := by rw [htransfer]
    rw [hid]
    exact decode_begin (nextTransferId_ne_zero m _) _

theorem decode_beginFileWrite (h : beginFileWrite c m f payload = (some bytes, f')) :
    TransferBeginResponse.decode bytes = .ok ⟨f'.transfer.id.toNat, f'.transfer.size.toNat⟩ := by
  unfold beginFileWrite at h
  split at h
  · cases h
  split at h
  · cases h
  split at h
  · cases h
  dsimp only at h
  split at h
  · exact decode_startFileWrite h
  split at h
  · cases h
  · exact decode_startFileWrite h

theorem decode_readTransferBlock (h : readTransferBlock f payload = (some bytes, f')) :
    ∃ requested data, blockRequest f.transfer .read payload = some requested ∧
      (f.store.read f.transfer.handle requested.toNat).1 = some data ∧
      TransferBlockResponse.decode bytes =
        .ok ⟨f.transfer.id.toNat, f.transfer.offset.toNat, data, f'.transfer.crc.toNat⟩ := by
  unfold readTransferBlock at h
  split at h
  · cases h
  · rename_i requested hrequested
    split at h
    · cases h
    · rename_i data store hread
      split at h
      · cases h
      · simp only [blockRead, Prod.mk.injEq, Option.some.injEq] at h
        obtain ⟨rfl, rfl⟩ := h
        exact ⟨requested, data, hrequested, by rw [hread],
          decode_block _ _ _ ((Store.read_length hread).trans (blockRequest_le hrequested))⟩

theorem decode_readGraphicsBlock {m' : Machine} (h : readGraphicsBlock m f payload = (some bytes, f', m')) :
    ∃ requested, blockRequest f.transfer .graphics payload = some requested ∧
      TransferBlockResponse.decode bytes = .ok ⟨f.transfer.id.toNat, f.transfer.offset.toNat,
        (captureBlock f.transfer.graphics m f.transfer.offset requested).1, f'.transfer.crc.toNat⟩ := by
  unfold readGraphicsBlock at h
  split at h
  · cases h
  · rename_i requested hrequested
    simp only [blockRead, Prod.mk.injEq, Option.some.injEq] at h
    obtain ⟨rfl, rfl, rfl⟩ := h
    refine ⟨requested, hrequested, decode_block _ _ _ ?_⟩
    rw [captureBlock_length]
    exact blockRequest_le hrequested

theorem decode_writeTransferBlock (h : writeTransferBlock f payload = (some bytes, f')) :
    TransferBlockResponse.decode bytes = .ok ⟨f.transfer.id.toNat, f.transfer.offset.toNat, [], f'.transfer.crc.toNat⟩ := by
  unfold writeTransferBlock at h
  dsimp only at h
  split at h
  · cases h
  split at h
  · cases h
  rename_i hguard
  simp only [not_or, not_not] at hguard
  split at h
  · cases h
  · simp only [Prod.mk.injEq, Option.some.injEq] at h
    obtain ⟨rfl, rfl⟩ := h
    rw [hguard.2.2.2.1]
    exact @decode_block f.transfer.id f.transfer.offset _ [] (Nat.zero_le _)

theorem decode_endReadTransfer (h : endReadTransfer f payload = (some bytes, f')) :
    TransferEndResponse.decode bytes = .ok ⟨f.transfer.size.toNat, f.transfer.crc.toNat⟩ := by
  simp only [endReadTransfer] at h
  split at h
  · cases h
  · simp only [Prod.mk.injEq, Option.some.injEq] at h
    obtain ⟨rfl, -⟩ := h
    exact decode_end _ _

theorem decode_renameOntoPath (h : renameOntoPath f = (some bytes, f')) :
    TransferEndResponse.decode bytes = .ok ⟨f.transfer.size.toNat, f.transfer.crc.toNat⟩ := by
  simp only [renameOntoPath] at h
  split at h
  · cases h
  · simp only [Prod.mk.injEq, Option.some.injEq] at h
    obtain ⟨rfl, -⟩ := h
    exact decode_end _ _

theorem decode_commitFileWrite (h : commitFileWrite f payload = (some bytes, f')) :
    TransferEndResponse.decode bytes = .ok ⟨f.transfer.size.toNat, f.transfer.crc.toNat⟩ := by
  simp only [commitFileWrite] at h
  split at h
  · cases h
  split at h
  · have hend := decode_renameOntoPath h
    exact hend
  split at h
  · cases h
  split at h
  · cases h
  · have hend := decode_renameOntoPath h
    exact hend

end

/-! ## Graphics and diagnostics -/

/-- The layout a code stands for on the wire. -/
def Layout.wire : Layout → GraphicsLayout
  | .cga2bpp => .cga2bppInterleaved
  | .cga1bpp => .cga1bppInterleaved
  | .hercules => .hercules1bppInterleaved
  | .planar4bpp => .planar4bpp
  | .planar1bpp => .planar1bpp
  | .packed8bpp => .packed8bpp

theorem Layout.wire_value (l : Layout) : l.wire.value = l.code.toNat := by cases l <;> rfl

/-- The adapters that are detected are known to the bridge. -/
theorem detectAdapter_known (m : Machine) (videoMode : UInt8) :
    ∃ adapter : Adapter, adapter.value = (m.detectAdapter videoMode).toNat := by
  have hmode : ∃ adapter : Adapter, adapter.value = (if videoMode = 7 then 1 else 2 : UInt8).toNat := by
    split
    · exact ⟨.mda, rfl⟩
    · exact ⟨.cga, rfl⟩
  unfold Machine.detectAdapter
  dsimp only
  split
  · exact hmode
  · split
    · exact ⟨.mda, rfl⟩
    split
    · exact ⟨.cga, rfl⟩
    split
    · exact ⟨.ega, rfl⟩
    split
    · exact ⟨.vga, rfl⟩
    · exact hmode

/-- Every video mode that is captured has measures that the bridge accepts. -/
theorem graphicsMode_bounds {m : Machine} {mode planes : UInt8} {layout : Layout} {width height : UInt16} {bytes : UInt32}
    (h : graphicsMode m mode = some (layout, planes, width, height, bytes)) :
    (planes.toNat = if layout = .planar4bpp then 4 else 1) ∧ (1 ≤ width.toNat ∧ width.toNat ≤ 2048) ∧
      (1 ≤ height.toNat ∧ height.toNat ≤ 2048) ∧ 1 ≤ bytes.toNat ∧ bytes.toNat ≤ 64000 := by
  unfold graphicsMode at h
  split at h
  all_goals first
    | (split at h
       · cases h
       · simp only [Option.some.injEq, Prod.mk.injEq] at h
         obtain ⟨rfl, rfl, rfl, rfl, rfl⟩ := h
         decide)
    | (simp only [Option.some.injEq, Prod.mk.injEq] at h
       obtain ⟨rfl, rfl, rfl, rfl, rfl⟩ := h
       decide)
    | cases h

/-- The size of a capture does not overflow. -/
theorem captureSize_toNat {planes : UInt8} {bytes : UInt32} (hplanes : planes.toNat ≤ 4) (hbytes : bytes.toNat ≤ 64000) :
    (bytes * planes.toUInt32).toNat = planes.toNat * bytes.toNat := by
  have hfits : bytes.toNat * planes.toNat < 2 ^ 32 := (Nat.mul_le_mul hbytes hplanes).trans_lt (by decide)
  rw [UInt32.toNat_mul, UInt8.toNat_toUInt32, Nat.mod_eq_of_lt hfits, Nat.mul_comm]

/-- The reply of `begin_graphics` to measures of a video mode. -/
theorem decode_graphicsReply {id width height : UInt16} {cachedAdapter mode planes : UInt8} {size bytes : UInt32}
    {adapter : Adapter} {layout : Layout} (hid : id ≠ 0) (hadapter : adapter.value = cachedAdapter.toNat)
    (hplanes : planes.toNat = if layout = .planar4bpp then 4 else 1) (hwidth : 1 ≤ width.toNat ∧ width.toNat ≤ 2048)
    (hheight : 1 ≤ height.toNat ∧ height.toNat ≤ 2048) (hbytes : 1 ≤ bytes.toNat)
    (hsize : size.toNat = planes.toNat * bytes.toNat) :
    GraphicsBeginResponse.decode (dmPutU16 id ++ [cachedAdapter, mode, layout.code, planes] ++ dmPutU16 width ++
        dmPutU16 height ++ dmPutU32 size ++ dmPutU32 bytes) =
      .ok ⟨id.toNat, adapter, mode.toNat, layout.wire, planes.toNat, width.toNat, height.toNat, size.toNat, bytes.toNat⟩ := by
  have hencode : GraphicsBeginResponse.encode
      ⟨id.toNat, adapter, mode.toNat, layout.wire, planes.toNat, width.toNat, height.toNat, size.toNat, bytes.toNat⟩ =
        .ok (dmPutU16 id ++ [cachedAdapter, mode, layout.code, planes] ++ dmPutU16 width ++ dmPutU16 height ++
          dmPutU32 size ++ dmPutU32 bytes) := by
    refine structPack_eq_ok.mpr ?_
    simp only [hadapter, layout.wire_value, pack_u8, pack_u16, pack_u32, pack_nil, Option.map_some, List.append_nil,
      List.append_assoc]
    rfl
  have hwire : layout = .planar4bpp ↔ layout.wire = .planar4bpp := by cases layout <;> decide
  have hpos : 1 ≤ planes.toNat ∧ planes.toNat ≤ 4 := by
    rw [hplanes]
    split <;> decide
  have htotal := Nat.mul_pos hpos.1 hbytes
  rw [GraphicsBeginResponse.decode_of_encode hencode, raiseIf_false]
  · rfl
  · simp only [not_or, not_not]
    refine ⟨fun h => hid (UInt16.toNat_inj.mp h), hpos, hwidth, hheight, by omega, by omega, hsize, ?_, ?_⟩
    · rintro ⟨h, hne⟩
      rw [if_pos (hwire.mpr h)] at hplanes
      exact hne hplanes
    · rintro ⟨h, hne⟩
      rw [if_neg fun hl => h (hwire.mp hl)] at hplanes
      exact hne hplanes

theorem decode_beginGraphics {c : Config} {m : Machine} {f f' : Files} {bytes : Bytes} {adapter : Adapter}
    (hadapter : adapter.value = c.cachedAdapter.toNat) (h : beginGraphics c m f = (some bytes, f')) :
    ∃ layout, f'.transfer.graphics.layout = some layout ∧
      GraphicsBeginResponse.decode bytes = .ok
        { transferId := f'.transfer.id.toNat, adapter := adapter, videoMode := f'.transfer.graphics.mode.toNat,
          layout := layout.wire, planes := f'.transfer.graphics.planes.toNat, width := f'.transfer.graphics.width.toNat,
          height := f'.transfer.graphics.height.toNat, totalSize := f'.transfer.size.toNat,
          bytesPerPlane := f'.transfer.graphics.bytesPerPlane.toNat } := by
  unfold beginGraphics at h
  split at h
  · cases h
  split at h
  · cases h
  rename_i g hinfo
  simp only [graphicsInfo] at hinfo
  split at hinfo
  · cases hinfo
  rename_i layout planes width height bytesPerPlane hmode
  obtain rfl := (Prod.mk.inj hinfo).2
  simp only [Prod.mk.injEq, Option.some.injEq] at h
  obtain ⟨rfl, rfl⟩ := h
  obtain ⟨hplanes, hwidth, hheight, hlow, hhigh⟩ := graphicsMode_bounds hmode
  have hplanesLe : planes.toNat ≤ 4 := by
    rw [hplanes]
    split <;> decide
  have hsize := captureSize_toNat hplanesLe hhigh
  exact ⟨layout, rfl, decode_graphicsReply (nextTransferId_ne_zero m _) hadapter hplanes hwidth hheight hlow hsize⟩

/-- The values of `build_diagnostics`. -/
def diagnosticsMessage (s : State) : ResidentDiagnosticsMessage where
  version := 2
  flags := (flag s.machine.counters.ownsInt08 0x01 ||| flag s.machine.counters.ownsInt1c 0x02 |||
    flag s.machine.counters.ownsInt28 0x04 ||| flag s.machine.counters.ownsInt2f 0x08 ||| flag s.enabled 0x10 |||
    flag s.slot.isSome 0x20 ||| flag s.session.active 0x40 ||| flag s.session.responsePending 0x80).toNat
  int08Entries := s.machine.counters.int08Entries.toNat
  int1cEntries := s.machine.counters.int1cEntries.toNat
  int28Entries := s.machine.counters.int28Entries.toNat
  workerRuns := s.machine.counters.workerRuns.toNat
  fallbackRuns := s.machine.counters.fallbackRuns.toNat
  busySkips := s.machine.counters.busySkips.toNat
  receiveAllocations := s.machine.counters.receiveAllocations.toNat
  receiveCompletions := s.machine.counters.receiveCompletions.toNat
  receiveDrops := s.machine.counters.receiveDrops.toNat
  sendAttempts := s.machine.counters.sendAttempts.toNat
  sendFailures := s.machine.counters.sendFailures.toNat
  lastReceiveBiosTick := s.machine.counters.receiveLastBiosTick.toNat
  lastWorkerBiosTick := s.lastWorkerBiosTick.toNat
  workerTicks := s.ticks.toNat
  receiveLength := s.machine.counters.receiveLength.toNat
  masterPicMask := (s.machine.inp 0x21).toNat
  slavePicMask := (s.machine.inp 0xA1).toNat
  lastProtocolResult := s.lastProtocolResult
  lastSendResult := shortOf s.lastSendResult.toNat
  lastOpcode := s.lastOpcode.toNat
  stackSize := s.machine.counters.stackCapacity.toNat
  stackUsed := s.machine.counters.stackUsed.toNat
  residentParagraphs := s.machine.counters.residentParagraphs.toNat
  workspaceSize := requestBufferSize
  stackOverflow := !s.machine.counters.stackGuardOk

/-- A field of one byte, where the value is a constant of the source. -/
theorem pack_byte {v : Int} (x : UInt8) (fields : List (Nat × Int)) (h : v = x.toNat) :
    pack ((1, v) :: fields) = (pack fields).map ([x] ++ ·) := by
  rw [h]
  exact pack_u8 x fields

theorem shortField_int {v : Int} (h : -0x8000 ≤ v ∧ v < 0x8000) :
    shortField v = (2, ((UInt16.ofNat (v % 0x10000).toNat).toNat : Int)) := by
  rw [shortField, if_pos h, UInt16.toNat_ofNat_of_lt' (show (v % 0x10000).toNat < 65536 by omega)]
  congr 1
  omega

theorem pack_diagnosticsMemory (s : State) :
    pack (diagnosticsMessage s).memoryFields = some (dmPutU16 s.machine.counters.stackCapacity ++
      dmPutU16 s.machine.counters.stackUsed ++ dmPutU16 s.machine.counters.residentParagraphs ++
      dmPutU16 (.ofNat requestBufferSize) ++ [if s.machine.counters.stackGuardOk then 0 else 1, 0]) := by
  have hworkspace : ((requestBufferSize : Nat) : Int) = ((UInt16.ofNat requestBufferSize).toNat : Int) := rfl
  simp only [ResidentDiagnosticsMessage.memoryFields, diagnosticsMessage, hworkspace, pack_u16]
  rcases Bool.eq_false_or_eq_true s.machine.counters.stackGuardOk with hok | hok
  all_goals
    simp only [hok, Bool.not_true, Bool.not_false, if_true, Bool.false_eq_true, if_false, pack_byte (v := 0) 0 _ rfl,
      pack_byte (v := 1) 1 _ rfl, pack_nil, Option.map_some, List.append_assoc, List.append_nil]
    rfl

theorem pack_diagnosticsBase {s : State} (hresult : -0x8000 ≤ s.lastProtocolResult ∧ s.lastProtocolResult < 0x8000) :
    ∃ base, pack (diagnosticsMessage s).baseFields = some base ∧ buildDiagnostics s = base ++
      (dmPutU16 s.machine.counters.stackCapacity ++ dmPutU16 s.machine.counters.stackUsed ++
        dmPutU16 s.machine.counters.residentParagraphs ++ dmPutU16 (.ofNat requestBufferSize) ++
        [if s.machine.counters.stackGuardOk then 0 else 1, 0]) := by
  have hsend : shortField (shortOf s.lastSendResult.toNat) = (2, (s.lastSendResult.toNat : Int)) :=
    shortField_shortOf s.lastSendResult.toNat_lt
  simp only [ResidentDiagnosticsMessage.baseFields, diagnosticsMessage, shortField_int hresult, hsend, pack_u8, pack_u16,
    pack_byte (v := ((2 : Nat) : Int)) 2 _ rfl, pack_byte (v := 0) 0 _ rfl, pack_nil, Option.map_some]
  refine ⟨_, rfl, ?_⟩
  delta buildDiagnostics
  simp only [List.append_assoc, List.append_nil, List.cons_append, List.nil_append]

theorem decode_buildDiagnostics {s : State} (hresult : -0x8000 ≤ s.lastProtocolResult ∧ s.lastProtocolResult < 0x8000) :
    ResidentDiagnosticsMessage.decode (buildDiagnostics s) = .ok (diagnosticsMessage s) := by
  obtain ⟨base, hbase, hbuild⟩ := pack_diagnosticsBase hresult
  refine ResidentDiagnosticsMessage.decode_of_encode ?_ rfl
  rw [ResidentDiagnosticsMessage.encode, raiseIf_false (by simp [diagnosticsMessage]), ok_bind, structPack_eq_ok.mpr hbase,
    ok_bind, if_neg (by simp [diagnosticsMessage]), structPack_eq_ok.mpr (pack_diagnosticsMemory s), ok_bind, hbuild]
  rfl

/-- Every request the bridge can encode is read by the agent as the values it holds, and every payload
    an agent builds, whatever it answers, is decoded by the bridge to the agent's values. The adapter
    was detected at installation; `last_protocol_result` is a 16-bit `int`. -/
theorem payload_layouts_agree (b : Build) (c : Config) (s : State)
    (hadapter : ∃ (installed : Machine) (videoMode : UInt8), c.cachedAdapter = installed.detectAdapter videoMode)
    (hresult : -0x8000 ≤ s.lastProtocolResult ∧ s.lastProtocolResult < 0x8000) :
    (∀ bs,
      (∀ r, KeyRequest.encode r = .ok bs →
        injectKeys b c s bs = injectKeysOf b c s r ∧ ((dmGetU16 bs 3).toNat : Int) = r.interKeyDelayMs) ∧
      (∀ r, FileReadBeginRequest.encode r = .ok bs →
        beginFileRead c s.machine s.files bs = beginFileReadOf c s.machine s.files r) ∧
      (∀ r, FileWriteBeginRequest.encode r = .ok bs →
        beginFileWrite c s.machine s.files bs = beginFileWriteOf c s.machine s.files r) ∧
      (∀ r, TransferBlockRequest.encode r = .ok bs → readTransferBlock s.files bs = readTransferBlockOf s.files r ∧
        writeTransferBlock s.files bs = writeTransferBlockOf s.files r ∧
        readGraphicsBlock s.machine s.files bs = readGraphicsBlockOf s.machine s.files r) ∧
      (∀ r, TransferEndRequest.encode r = .ok bs → endReadTransfer s.files bs = endReadTransferOf s.files r ∧
        commitFileWrite s.files bs = commitFileWriteOf s.files r ∧ abortTransfer s.files bs = abortTransferOf s.files r)) ∧
    StatusMessage.decode (buildStatus b c s.machine) = .ok (statusMessage b c s.machine) ∧
    ResidentDiagnosticsMessage.decode (buildDiagnostics s) = .ok (diagnosticsMessage s) ∧
    (∀ payload bytes s', injectKeys b c s payload = (some bytes, s') →
      KeyResponse.decode bytes = .ok ⟨(queueWords b c (textWords payload) s).1,
        (queueWords b c (namedWords payload) (queueWords b c (textWords payload) s).2).1, s'.keyGeneration.toNat⟩) ∧
    (∀ payload bytes f',
      beginFileRead c s.machine s.files payload = (some bytes, f') ∨
          beginFileWrite c s.machine s.files payload = (some bytes, f') →
        TransferBeginResponse.decode bytes = .ok ⟨f'.transfer.id.toNat, f'.transfer.size.toNat⟩) ∧
    (∀ payload bytes f', readTransferBlock s.files payload = (some bytes, f') →
      ∃ requested data, blockRequest s.files.transfer .read payload = some requested ∧
        (s.files.store.read s.files.transfer.handle requested.toNat).1 = some data ∧
        TransferBlockResponse.decode bytes =
          .ok ⟨s.files.transfer.id.toNat, s.files.transfer.offset.toNat, data, f'.transfer.crc.toNat⟩) ∧
    (∀ payload bytes f', writeTransferBlock s.files payload = (some bytes, f') →
      TransferBlockResponse.decode bytes =
        .ok ⟨s.files.transfer.id.toNat, s.files.transfer.offset.toNat, [], f'.transfer.crc.toNat⟩) ∧
    (∀ payload bytes f' m', readGraphicsBlock s.machine s.files payload = (some bytes, f', m') →
      ∃ requested, blockRequest s.files.transfer .graphics payload = some requested ∧
        TransferBlockResponse.decode bytes = .ok ⟨s.files.transfer.id.toNat, s.files.transfer.offset.toNat,
          (captureBlock s.files.transfer.graphics s.machine s.files.transfer.offset requested).1, f'.transfer.crc.toNat⟩) ∧
    (∀ payload bytes f',
      endReadTransfer s.files payload = (some bytes, f') ∨ commitFileWrite s.files payload = (some bytes, f') →
        TransferEndResponse.decode bytes = .ok ⟨s.files.transfer.size.toNat, s.files.transfer.crc.toNat⟩) ∧
    (∀ bytes f', beginGraphics c s.machine s.files = (some bytes, f') →
      ∃ adapter layout, adapter.value = c.cachedAdapter.toNat ∧ f'.transfer.graphics.layout = some layout ∧
        GraphicsBeginResponse.decode bytes = .ok
          { transferId := f'.transfer.id.toNat, adapter := adapter, videoMode := f'.transfer.graphics.mode.toNat,
            layout := layout.wire, planes := f'.transfer.graphics.planes.toNat, width := f'.transfer.graphics.width.toNat,
            height := f'.transfer.graphics.height.toNat, totalSize := f'.transfer.size.toNat,
            bytesPerPlane := f'.transfer.graphics.bytesPerPlane.toNat }) := by
  refine ⟨fun bs => ⟨fun _ h => injectKeys_of_encode h b c s, fun _ h => beginFileRead_of_encode h c s.machine s.files,
    fun _ h => beginFileWrite_of_encode h c s.machine s.files, fun _ h => ?_,
    fun _ h => ⟨endReadTransfer_of_encode h s.files, commitFileWrite_of_encode h s.files, abortTransfer_of_encode h s.files⟩⟩,
    decode_buildStatus b c s.machine, decode_buildDiagnostics hresult, fun _ _ _ h => decode_injectKeys h,
    fun _ _ _ h => h.elim decode_beginFileRead decode_beginFileWrite, fun _ _ _ h => decode_readTransferBlock h,
    fun _ _ _ h => decode_writeTransferBlock h, fun _ _ _ _ h => decode_readGraphicsBlock h,
    fun _ _ _ h => h.elim decode_endReadTransfer decode_commitFileWrite, fun _ _ h => ?_⟩
  · have hreads := readsBlock_of_encode h
    exact ⟨readTransferBlock_of_reads hreads s.files, writeTransferBlock_of_reads hreads s.files,
      readGraphicsBlock_of_reads hreads s.machine s.files⟩
  · obtain ⟨installed, videoMode, hcached⟩ := hadapter
    obtain ⟨adapter, hvalue⟩ := detectAdapter_known installed videoMode
    rw [← hcached] at hvalue
    obtain ⟨layout, hlayout, hdecode⟩ := decode_beginGraphics hvalue h
    exact ⟨adapter, layout, hvalue, hlayout, hdecode⟩

/-- The agent as it starts on a machine with a VGA. -/
theorem payload_layouts_agree_start :
    StatusMessage.decode (buildStatus .ratsr sampleConfig blankMachine) = .ok (statusMessage .ratsr sampleConfig blankMachine) :=
  (payload_layouts_agree .ratsr sampleConfig (State.start blankMachine (dosStore (fun _ => none) fun _ => ⟨true, 0⟩))
    ⟨blankMachine, 3, by decide⟩ (by decide)).2.1

end DosMcp.Dos
