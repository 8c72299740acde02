/-
  DosMcp.Dos.Download — what the client of a file read gets from RA-TSR, over a whole run with
  programs in the foreground that change files in between.

  `State.download` collects the data of the block replies since the last `FILE_READ_BEGIN`.

  - `download_exact`: when `FILE_READ_END` succeeds, its size and CRC are those of the data; and
    the data is the file, if the foreground leaves it alone while it is being read.
-/

import DosMcp.Dos.Disk

namespace DosMcp.Dos

open Lib

/-! ## The data of a download -/

/-- The data that the client has after a reply: a new download has none. -/
def TransferOp.delivers (op : TransferOp) (reply : Option Bytes) (got : Bytes) : Bytes :=
  match op, reply with
  | .fileReadBegin, some _ => []
  | .fileReadBlock, some reply => got ++ reply.drop 12
  | _, _ => got

/-- The operation of the request that an entry processes. -/
def State.entryOp (c : Config) (s : State) (e : Entry) : Option (TransferOp × Bytes) := do
  let request ← entryRequest c s e
  let op ← TransferOp.ofOpcode request.opcode
  return (op, request.payload)

def State.delivers (c : Config) (s : State) (got : Bytes) : SharedEvent → Bytes
  | .resident (.enter e) => match s.entryOp c e with
    | some (op, payload) => op.delivers (op.run c (beforePoll c s e).machine s.files payload).reply got
    | none => got
  | _ => got

/-- The data at the end of a run that starts with `got`. -/
def State.download (c : Config) : State → Bytes → List SharedEvent → Bytes
  | _, got, [] => got
  | s, got, event :: events => State.download c (s.sharedStep c event) (s.delivers c got event) events

/-- The step leaves the file that is being read. -/
def State.leavesRead (s : State) : SharedEvent → Bool
  | .foreground files => s.files.transfer.kind ≠ .read ∨
      files (dosName s.files.transfer.path) = s.files.store.files (dosName s.files.transfer.path)
  | .resident _ => true

/-- Through the run the foreground leaves the file that is being read. -/
def leavesRead (c : Config) : State → List SharedEvent → Bool
  | _, [] => true
  | s, event :: events => s.leavesRead event && leavesRead c (s.sharedStep c event) events

/-! ## The invariant -/

/-- An active read: its file is open behind what was read, which the offset and the CRC describe. -/
structure ActiveRead (f : Files) (got : Bytes) : Prop where
  handle : ∃ i, f.transfer.handle = some i ∧ f.store.handles i = some ⟨dosName f.transfer.path, got.length⟩
  offset : f.transfer.offset.toNat = got.length
  crc : f.transfer.crc.toNat = crc32 got 0
  size : f.transfer.offset ≤ f.transfer.size ∧ f.transfer.size ≤ tsrFileMax

/-- What was read is the start of the file, and the size is the file's. -/
def OfFile (f : Files) (got : Bytes) : Prop :=
  ∃ contents, f.store.files (dosName f.transfer.path) = some contents ∧ contents.length = f.transfer.size.toNat ∧
    got <+: contents

/-- `OfFile` is kept when `steady`, that is, while the foreground leaves the file. -/
def Files.Downloads (steady : Prop) (f : Files) (got : Bytes) : Prop :=
  f.transfer.kind = .read → ActiveRead f got ∧ (steady → OfFile f got)

section

variable {steady : Prop} {c : Config} {f : Files} {got : Bytes}

theorem Files.Downloads.over (h : f.transfer.kind ≠ .read) : f.Downloads steady got := fun hkind => absurd hkind h

theorem Files.Downloads.congr {f' : Files} (h : f.Downloads steady got) (htransfer : f'.transfer = f.transfer)
    (hhandles : f'.store.handles = f.store.handles)
    (hfile : steady → f'.store.files (dosName f.transfer.path) = f.store.files (dosName f.transfer.path)) :
    f'.Downloads steady got := by
  intro hkind
  rw [htransfer] at hkind
  obtain ⟨⟨hhandle, hoffset, hcrc, hsize⟩, hof⟩ := h hkind
  refine ⟨⟨?_, ?_, ?_, ?_⟩, fun hsteady => ?_⟩
  · rw [htransfer, hhandles]
    exact hhandle
  · rw [htransfer]
    exact hoffset
  · rw [htransfer]
    exact hcrc
  · rw [htransfer]
    exact hsize
  · obtain ⟨contents, hcontents, hrest⟩ := hof hsteady
    unfold OfFile
    rw [htransfer]
    exact ⟨contents, (hfile hsteady).trans hcontents, hrest⟩

/-- The read of a handle at its file. -/
theorem ActiveRead.read_eq (h : ActiveRead f got) {n : Nat} {bytes : Bytes} {store : Store}
    (hread : f.store.read f.transfer.handle n = (some bytes, store)) :
    ∃ contents, f.store.files (dosName f.transfer.path) = some contents ∧
      bytes = slice contents got.length (min f.store.drawn.count n) ∧ store.files = f.store.files ∧
      ∃ i, f.transfer.handle = some i ∧ store.handles i = some ⟨dosName f.transfer.path, got.length + bytes.length⟩ := by
  obtain ⟨i, hi, hat⟩ := h.handle
  unfold Store.read at hread
  split at hread
  · cases hread
  rename_i j found contents hfound
  simp only [Store.at?, hi, hat, Option.bind_eq_bind, Option.bind_some, Option.bind_eq_some_iff] at hfound
  obtain ⟨bytes', hfile, hsame⟩ := hfound
  cases hsame
  split at hread
  · obtain ⟨rfl, rfl⟩ : _ = bytes ∧ _ = store := by simpa using hread
    exact ⟨contents, hfile, rfl, rfl, i, hi, by simp⟩
  · cases hread

/-- A block that is granted ends within the file. -/
theorem blockRequest_within {t : Transfer} {kind : TransferKind} {payload : Bytes} {requested : UInt16}
    (h : blockRequest t kind payload = some requested) (hle : t.offset ≤ t.size) :
    t.offset.toNat + requested.toNat ≤ t.size.toNat := by
  simp only [blockRequest] at h
  split at h
  · cases h
  split at h
  · cases h
  rename_i hbounds
  simp only [not_or, ne_eq, not_not] at hbounds
  rw [hbounds.1] at h
  rw [UInt32.le_iff_toNat_le] at hle
  have hsub : (t.size - t.offset).toNat = t.size.toNat - t.offset.toNat := UInt32.toNat_sub_of_le _ _ (UInt32.le_iff_toNat_le.mpr hle)
  split at h
  · cases h
    rw [UInt32.toNat_toUInt16]
    omega
  · rename_i hfits
    cases h
    rw [gt_iff_lt, UInt32.lt_iff_toNat_lt, UInt16.toNat_toUInt32, hsub] at hfits
    omega

theorem closeTransfer_downloads (f : Files) (b : Bool) : (closeTransfer f b).Downloads steady got :=
  .over (by rw [closeTransfer_kind]; decide)

theorem beginFileRead_downloads (h : f.Downloads steady got) (m : Machine) (payload : Bytes) :
    (beginFileRead c m f payload).2.Downloads steady
      (TransferOp.fileReadBegin.delivers (beginFileRead c m f payload).1 got) := by
  unfold beginFileRead
  split
  · exact h
  rename_i hguard
  have hkind : f.transfer.kind ≠ .read := by
    by_contra hread
    exact hguard (Or.inr (Or.inl (by rw [hread]; decide)))
  split
  · exact .over hkind
  rename_i path hpath
  dsimp only
  split
  · exact .over hkind
  rename_i handle opened hopen
  have hat := Store.openFile_eq_some hopen
  split
  · exact closeTransfer_downloads _ _
  rename_i size ended hend
  obtain ⟨position, hat'⟩ := Store.seekEnd_eq_some hat hend
  obtain ⟨contents, hfile, hsize⟩ := Store.seekEnd_size hat hend
  split
  · exact closeTransfer_downloads _ _
  rename_i hmax
  split
  · exact closeTransfer_downloads _ _
  rename_i rewound hrewind
  have hends := opened.seekEnd_files (some handle)
  rw [hend] at hends
  have hstarts := ended.seekStart_files (some handle)
  rw [hrewind] at hstarts
  have hmax' : size ≤ 1048576 := Nat.not_lt.mp hmax
  have hsize32 : (UInt32.ofNat size).toNat = size := by
    rw [UInt32.toNat_ofNat']
    omega
  intro _
  refine ⟨⟨⟨handle, rfl, Store.seekStart_eq_true hat' hrewind⟩, rfl, ?_, UInt32.zero_le, ?_⟩, fun _ => ⟨contents, ?_, ?_, List.nil_prefix⟩⟩
  · show (0 : UInt32).toNat = crc32 [] 0
    decide
  · rw [UInt32.le_iff_toNat_le, hsize32]
    exact hmax'
  · show rewound.files (dosName path) = some contents
    rw [show rewound.files = opened.files from hstarts.trans hends]
    exact hfile
  · exact hsize.trans hsize32.symm

theorem readTransferBlock_downloads (h : f.Downloads steady got) (payload : Bytes) :
    (readTransferBlock f payload).2.Downloads steady
      (TransferOp.fileReadBlock.delivers (readTransferBlock f payload).1 got) := by
  unfold readTransferBlock
  split
  · exact h
  rename_i requested hrequest
  have hkind : f.transfer.kind = .read := by
    by_contra hne
    simp [blockRequest, hne] at hrequest
  obtain ⟨hreading, hfile⟩ := h hkind
  split
  · rename_i store hread
    rw [Store.read_eq_none hread]
    exact h.congr rfl rfl fun _ => rfl
  rename_i bytes store hread
  obtain ⟨contents, hcontents, hbytes, hkept, i, hi, hat⟩ := hreading.read_eq hread
  split
  · rename_i hempty
    rw [hempty, List.length_nil, Nat.add_zero] at hat
    intro _
    refine ⟨⟨⟨i, hi, hat⟩, hreading.offset, hreading.crc, hreading.size⟩, fun hsteady => ?_⟩
    obtain ⟨contents', hcontents'⟩ := hfile hsteady
    exact ⟨contents', by rw [← hcontents'.1]; exact congrFun hkept _, hcontents'.2⟩
  -- the reply has the next bytes of the file
  have hwithin : got.length + bytes.length ≤ f.transfer.size.toNat := by
    have hrequested := blockRequest_within hrequest hreading.size.1
    have hlength : bytes.length ≤ requested.toNat := by
      rw [hbytes, slice_length]
      omega
    have hoffset := hreading.offset
    omega
  have hmax := hreading.size.2
  rw [UInt32.le_iff_toNat_le, show tsrFileMax.toNat = 1048576 from rfl] at hmax
  have hdata : (blockRead f.transfer bytes).1.drop 12 = bytes := List.drop_left' rfl
  have hafter : (f.transfer.offset + UInt32.ofNat bytes.length).toNat = got.length + bytes.length := by
    rw [UInt32.toNat_add, UInt32.toNat_ofNat', hreading.offset]
    omega
  intro _
  show ActiveRead _ (got ++ (blockRead f.transfer bytes).1.drop 12) ∧ (steady → OfFile _ (got ++ (blockRead f.transfer bytes).1.drop 12))
  rw [hdata]
  refine ⟨⟨⟨i, hi, by rw [List.length_append]; exact hat⟩, ?_, ?_, ?_, hreading.size.2⟩, fun hsteady => ?_⟩
  · rw [List.length_append]
    exact hafter
  · show (crc32Update f.transfer.crc bytes).toNat = _
    rw [crc32Update_toNat, hreading.crc, ← crc32_append]
  · rw [UInt32.le_iff_toNat_le]
    exact hafter.trans_le hwithin
  · obtain ⟨contents', hcontents', hsize, hgot⟩ := hfile hsteady
    obtain rfl : contents = contents' := Option.some.inj (hcontents.symm.trans hcontents')
    refine ⟨contents, (congrFun hkept _).trans hcontents, hsize, ?_⟩
    rw [List.prefix_iff_eq_take.mp hgot, hbytes, ← slice_zero_eq_take, slice_append_slice contents (Nat.zero_add _) rfl]
    exact List.take_prefix _ _

theorem startFileWrite_not_read {g : Files} (hidle : g.transfer.kind = .none) (m : Machine) (payload : Bytes) :
    (startFileWrite c m g payload).2.transfer.kind ≠ .read := by
  unfold startFileWrite
  dsimp only
  split
  · rename_i g' hcreate
    obtain ⟨temp, htemp⟩ := createTransferTemp_false hcreate
    rw [htemp, hidle]
    decide
  · exact fun h => by cases h

theorem renameOntoPath_not_read (g : Files) : (renameOntoPath g).2.transfer.kind ≠ .read := by
  unfold renameOntoPath
  dsimp only
  split
  · rw [closeTransfer_kind]
    decide
  · exact fun h => by cases h

/-- Any other operation leaves an active read as it is, or ends it, and begins none. -/
theorem TransferOp.run_read {op : TransferOp} (hbegin : op ≠ .fileReadBegin) (hblock : op ≠ .fileReadBlock) (m : Machine)
    (payload : Bytes) : (op.run c m f payload).files.transfer.kind ≠ .read ∨ (op.run c m f payload).files = f := by
  cases op with
  | fileReadBegin => exact absurd rfl hbegin
  | fileReadBlock => exact absurd rfl hblock
  | fileReadEnd | graphicsEnd =>
    simp only [TransferOp.run, endReadTransfer]
    split
    · exact Or.inr rfl
    · exact Or.inl (by rw [closeTransfer_kind]; decide)
  | fileWriteBegin =>
    simp only [TransferOp.run, beginFileWrite]
    split
    · exact Or.inr rfl
    rename_i hguard
    have hidle : f.transfer.kind = .none := by
      by_contra hne
      exact hguard (Or.inr (Or.inl hne))
    split
    · exact Or.inr rfl
    split
    · exact Or.inr rfl
    split
    · exact Or.inl (startFileWrite_not_read (by exact hidle) m payload)
    split
    · exact Or.inl (by rw [show ({ f.transfer with path := _ } : Transfer).kind = .none from hidle]; decide)
    · exact Or.inl (startFileWrite_not_read (by exact hidle) m payload)
  | fileWriteBlock =>
    simp only [TransferOp.run, writeTransferBlock]
    split
    · exact Or.inr rfl
    rename_i hguard
    have hwrite : f.transfer.kind ≠ .read := by
      by_contra hread
      exact hguard (Or.inl (by rw [hread]; decide))
    split
    · exact Or.inr rfl
    split
    · exact Or.inl hwrite
    · exact Or.inl hwrite
  | fileWriteCommit =>
    simp only [TransferOp.run, commitFileWrite]
    split
    · exact Or.inr rfl
    split
    · exact Or.inl (renameOntoPath_not_read _)
    split
    · exact Or.inl (by rw [closeTransfer_kind]; decide)
    split
    · exact Or.inl (by rw [closeTransfer_kind]; decide)
    · exact Or.inl (renameOntoPath_not_read _)
  | fileAbort =>
    simp only [TransferOp.run, abortTransfer]
    split
    · exact Or.inr rfl
    · exact Or.inl (by rw [closeTransfer_kind]; decide)
  | graphicsBegin =>
    simp only [TransferOp.run]
    split
    · exact Or.inr rfl
    unfold beginGraphics
    split
    · exact Or.inr rfl
    rename_i hidle
    rw [ne_eq, not_not] at hidle
    split
    · exact Or.inl (by rw [show ({ f.transfer with graphics := _ } : Transfer).kind = .none from hidle]; decide)
    · exact Or.inl fun h => by cases h
  | graphicsBlock =>
    simp only [TransferOp.run, readGraphicsBlock]
    split
    · exact Or.inr rfl
    rename_i requested hrequest
    have hgraphics : f.transfer.kind = .graphics := by
      by_contra hne
      simp [blockRequest, hne] at hrequest
    exact Or.inl (by rw [show (blockRead f.transfer _).2.kind = .graphics from hgraphics]; decide)

theorem TransferOp.run_downloads (h : f.Downloads steady got) (op : TransferOp) (m : Machine) (payload : Bytes) :
    (op.run c m f payload).files.Downloads steady (op.delivers (op.run c m f payload).reply got) := by
  by_cases hbegin : op = .fileReadBegin
  · subst hbegin
    exact beginFileRead_downloads h m payload
  by_cases hblock : op = .fileReadBlock
  · subst hblock
    exact readTransferBlock_downloads h payload
  have hgot : op.delivers (op.run c m f payload).reply got = got := by
    cases op with
    | fileReadBegin => exact absurd rfl hbegin
    | fileReadBlock => exact absurd rfl hblock
    | _ => rfl
  rw [hgot]
  rcases TransferOp.run_read hbegin hblock m payload with hover | hsame
  · exact .over hover
  · rw [hsame]
    exact h

variable {s : State}

theorem residentStep_downloads (h : s.files.Downloads steady got) (event : ResidentEvent) :
    (s.residentStep c event).files.Downloads steady (s.delivers c got (.resident event)) := by
  cases event with
  | arrive d =>
    have hfiles : (s.residentStep c (.arrive d)).files = s.files := arrive_files s d
    rw [hfiles]
    exact h
  | enter e =>
    have hfiles := ratsrIdleWorker_files c s e
    simp only [State.residentStep, State.delivers, State.entryOp]
    cases hrequest : entryRequest c s e with
    | none =>
      simp only [hrequest] at hfiles
      rcases hfiles with hsame | ⟨-, hclosed⟩
      · rw [hsame]
        exact h
      · rw [hclosed]
        exact closeTransfer_downloads _ _
    | some request =>
      simp only [hrequest] at hfiles
      cases hop : TransferOp.ofOpcode request.opcode with
      | none =>
        simp only [hop] at hfiles
        rw [hfiles]
        simpa [hop] using h
      | some op =>
        simp only [hop] at hfiles
        rw [hfiles]
        simpa [hop] using op.run_downloads h (beforePoll c s e).machine request.payload

theorem sharedStep_downloads (h : s.files.Downloads steady got) {event : SharedEvent} (hleaves : steady → s.leavesRead event = true) :
    (s.sharedStep c event).files.Downloads steady (s.delivers c got event) := by
  cases event with
  | resident event => exact residentStep_downloads h event
  | foreground files =>
    by_cases hkind : s.files.transfer.kind = .read
    · have hkept : steady → files (dosName s.files.transfer.path) = s.files.store.files (dosName s.files.transfer.path) := by
        intro hsteady
        have hleft := hleaves hsteady
        simp only [State.leavesRead, hkind, ne_eq, not_true, false_or, decide_eq_true_eq] at hleft
        exact hleft
      have hafter : (s.withFiles files).files.Downloads steady got := h.congr rfl rfl hkept
      exact hafter
    · exact .over hkind

theorem shared_downloads (h : s.files.Downloads steady got) {events : List SharedEvent} (hleaves : steady → leavesRead c s events = true) :
    (s.shared c events).files.Downloads steady (s.download c got events) := by
  induction events generalizing s got with
  | nil => exact h
  | cons event events ih =>
    have hsplit : steady → s.leavesRead event = true ∧ leavesRead c (s.sharedStep c event) events = true := by
      intro hsteady
      have hboth := hleaves hsteady
      rw [leavesRead, Bool.and_eq_true] at hboth
      exact hboth
    exact ih (sharedStep_downloads h fun hsteady => (hsplit hsteady).1) fun hsteady => (hsplit hsteady).2

end

/-! ## The result -/

/-- A drive with the two-byte file `A`. -/
def twoBytes : Store :=
  dosStore (fun name => if name = dosName samplePath then some [0x61, 0x62] else none) fun _ => ⟨true, 900⟩

/-- HELLO, the `FILE_READ_BEGIN` of `A` and a `FILE_READ_BLOCK` of two bytes, between which the
    foreground writes to every other file. -/
def readTwoBytes : List SharedEvent :=
  (endFromTimer.take 6).map .resident ++
    [.foreground fun name => if name = dosName samplePath then some [0x61, 0x62] else some [],
      .resident (clientDatagram readKey 9 (helloSessionId 0 blankMachine.makeNonce) 3 ([1, 0] ++ dmPutU32 0 ++ dmPutU16 2)),
      .resident idleEntry]

end DosMcp.Dos
