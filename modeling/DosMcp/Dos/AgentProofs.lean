/-
  DosMcp.Dos.AgentProofs — what the steps of the DOS agents can do to the state.

  - `operate_operated`: an operation leaves session, buffers and logs alone.
  - `operate_fits`: every reply fits the response buffers of both builds, so
    `send_response` always records it (`sendResponse_responded`).
  - `processRequest_processed`: a processed request becomes the last one of the session.
  - `processDatagram_cases`: what a datagram of the session does, one case a branch.
-/

import DosMcp.Dos.Agent

namespace DosMcp.Dos

open Lib

/-! ## Operations -/

/-- `s'` is `s` after an operation. -/
structure Operated (s s' : State) : Prop where
  session_eq : s'.session = s.session
  reassembly_eq : s'.reassembly = s.reassembly
  workspace_eq : s'.workspace = s.workspace
  ticks_eq : s'.ticks = s.ticks
  enabled_eq : s'.enabled = s.enabled
  slot_eq : s'.slot = s.slot
  sent_eq : s'.sent = s.sent
  requests_eq : s'.requests = s.requests

theorem Operated.refl (s : State) : Operated s s := ⟨rfl, rfl, rfl, rfl, rfl, rfl, rfl, rfl⟩

theorem Operated.trans {s t u : State} (h : Operated s t) (k : Operated t u) : Operated s u where
  session_eq := k.session_eq.trans h.session_eq
  reassembly_eq := k.reassembly_eq.trans h.reassembly_eq
  workspace_eq := k.workspace_eq.trans h.workspace_eq
  ticks_eq := k.ticks_eq.trans h.ticks_eq
  enabled_eq := k.enabled_eq.trans h.enabled_eq
  slot_eq := k.slot_eq.trans h.slot_eq
  sent_eq := k.sent_eq.trans h.sent_eq
  requests_eq := k.requests_eq.trans h.requests_eq

theorem processShellKeyboard_operated (c : Config) (s : State) : Operated s (processShellKeyboard c s) := by
  unfold processShellKeyboard
  split
  · exact Operated.refl s
  dsimp only
  split_ifs <;> exact ⟨rfl, rfl, rfl, rfl, rfl, rfl, rfl, rfl⟩

theorem queueWords_operated (b : Build) (c : Config) (words : List UInt16) (s : State) :
    Operated s (queueWords b c words s).2 := by
  induction words generalizing s with
  | nil => exact Operated.refl s
  | cons word words ih =>
    rw [queueWords]
    split
    · exact Operated.refl s
    · rename_i machine _
      have hqueued : Operated s { s with machine := machine } := ⟨rfl, rfl, rfl, rfl, rfl, rfl, rfl, rfl⟩
      cases b with
      | ratsr => exact hqueued.trans (ih _)
      | ragent => exact (hqueued.trans (processShellKeyboard_operated c _)).trans (ih _)

theorem injectKeys_operated (b : Build) (c : Config) (s : State) (payload : Bytes) :
    Operated s (injectKeys b c s payload).2 := by
  unfold injectKeys
  split
  · exact Operated.refl s
  dsimp only
  split
  · exact Operated.refl s
  have hall := (queueWords_operated b c ((slice payload 5 (dmGetU16 payload 0).toNat).map fun ascii =>
      ((asciiScan ascii).toUInt16 <<< 8) ||| ascii.toUInt16) s).trans
    (queueWords_operated b c (((slice payload (5 + (dmGetU16 payload 0).toNat) (byteAt payload 2).toNat).map
      namedKeyWord).takeWhile (· ≠ 0)) _)
  exact ⟨hall.session_eq, hall.reassembly_eq, hall.workspace_eq, hall.ticks_eq, hall.enabled_eq, hall.slot_eq,
    hall.sent_eq, hall.requests_eq⟩

theorem operateTransfer_operated (c : Config) (s : State) (op : TransferOp) (payload : Bytes) :
    Operated s (operateTransfer c s op payload).2 := by
  unfold operateTransfer
  dsimp only
  split <;> exact ⟨rfl, rfl, rfl, rfl, rfl, rfl, rfl, rfl⟩

theorem operateKeys_operated (b : Build) (c : Config) (s : State) (payload : Bytes) :
    Operated s (operateKeys b c s payload).2 := by
  unfold operateKeys
  split
  · exact Operated.refl s
  have h := injectKeys_operated b c s payload
  split
  · rename_i s' e
    rwa [e] at h
  · rename_i bytes s' e
    rwa [e] at h

theorem operateCapture_operated (b : Build) (c : Config) (s : State) : Operated s (operateCapture b c s).2 := by
  cases b <;> exact ⟨rfl, rfl, rfl, rfl, rfl, rfl, rfl, rfl⟩

theorem withoutPayload_operated {payload : Bytes} {message : String} {s : State} {run : Reply × State}
    (h : Operated s run.2) : Operated s (withoutPayload payload message s run).2 := by
  unfold withoutPayload
  split
  · exact Operated.refl s
  · exact h

theorem operate_operated (b : Build) (c : Config) (s : State) (opcode : UInt8) (payload : Bytes) :
    Operated s (operate b c s opcode payload).2 := by
  unfold operate
  split
  · exact withoutPayload_operated (Operated.refl s)
  · exact withoutPayload_operated (Operated.refl s)
  · exact withoutPayload_operated (operateCapture_operated b c s)
  · exact operateKeys_operated b c s payload
  · split <;> exact Operated.refl s
  · cases b with
    | ratsr => exact withoutPayload_operated (Operated.refl s)
    | ragent => exact Operated.refl s
  · split
    · exact operateTransfer_operated c s _ payload
    · exact Operated.refl s

theorem processShellKeyboard_files (c : Config) (s : State) : (processShellKeyboard c s).files = s.files := by
  unfold processShellKeyboard
  split
  · rfl
  dsimp only
  split_ifs <;> rfl

theorem queueWords_files (b : Build) (c : Config) (words : List UInt16) (s : State) :
    (queueWords b c words s).2.files = s.files := by
  induction words generalizing s with
  | nil => rfl
  | cons word words ih =>
    rw [queueWords]
    split
    · rfl
    · cases b with
      | ratsr => exact ih _
      | ragent => exact (ih _).trans (processShellKeyboard_files c _)

theorem injectKeys_files (b : Build) (c : Config) (s : State) (payload : Bytes) :
    (injectKeys b c s payload).2.files = s.files := by
  unfold injectKeys
  split
  · rfl
  dsimp only
  split
  · rfl
  · exact (queueWords_files b c _ _).trans (queueWords_files b c _ _)

theorem withoutPayload_files {payload : Bytes} {message : String} {s : State} {run : Reply × State}
    (h : run.2.files = s.files) : (withoutPayload payload message s run).2.files = s.files := by
  unfold withoutPayload
  split
  · rfl
  · exact h

/-- The files an operation of RA-TSR leaves. -/
def operatedFiles (c : Config) (s : State) (opcode : UInt8) (payload : Bytes) : Files :=
  match TransferOp.ofOpcode opcode with
  | some op => (op.run c s.machine s.files payload).files
  | none => s.files

/-- Only the transfer operations touch the files. -/
theorem operate_files (c : Config) (s : State) (opcode : UInt8) (payload : Bytes) :
    (operate .ratsr c s opcode payload).2.files = operatedFiles c s opcode payload := by
  have hnone : ∀ n, opcode.toNat = n → (n < 8 ∨ n = 18) → operatedFiles c s opcode payload = s.files := by
    intro n hn hout
    have : TransferOp.ofOpcode opcode = none := by
      unfold TransferOp.ofOpcode
      split <;> first | rfl | omega
    simp only [operatedFiles, this]
  unfold operate
  split
  · rename_i h
    exact (withoutPayload_files rfl).trans (hnone _ h (by decide)).symm
  · rename_i h
    exact (withoutPayload_files rfl).trans (hnone _ h (by decide)).symm
  · rename_i h
    have hcapture : (operateCapture .ratsr c s).2.files = s.files := rfl
    exact (withoutPayload_files hcapture).trans (hnone _ h (by decide)).symm
  · rename_i h
    rw [hnone _ h (by decide)]
    unfold operateKeys
    split
    · rfl
    have hkeys := injectKeys_files .ratsr c s payload
    split
    · rename_i s' e
      rwa [e] at hkeys
    · rename_i bytes s' e
      rwa [e] at hkeys
  · rename_i h
    rw [hnone _ h (by decide)]
    split <;> rfl
  · rename_i h
    exact (withoutPayload_files rfl).trans (hnone _ h (by decide)).symm
  · unfold operatedFiles
    cases TransferOp.ofOpcode opcode with
    | none => rfl
    | some op =>
      simp only [operateTransfer]
      split <;> rfl

/-! ## The size of replies -/

/-- The reply fits the screen buffer. -/
def Reply.Fits : Reply → Prop
  | .error _ _ => True
  | .screen bytes => bytes.length ≤ screenBufferSize
  | .capture length => length ≤ screenBufferSize

@[simp] theorem dmPutU16_length (v : UInt16) : (dmPutU16 v).length = 2 := rfl

@[simp] theorem dmPutU32_length (v : UInt32) : (dmPutU32 v).length = 4 := rfl

/-- The columns are the column word of the BIOS, up to 80. -/
theorem screenColumns_toNat (m : Machine) : (screenColumns m).toNat = min (m.peek16 0x40 0x4A).toNat 80 := by
  have h80 : (80 : UInt16).toNat = 80 := rfl
  simp only [screenColumns]
  split
  · rename_i h
    rw [gt_iff_lt, UInt16.lt_iff_toNat_lt, h80] at h
    exact (Nat.min_eq_right h.le).symm
  · rename_i h
    rw [gt_iff_lt, UInt16.not_lt, UInt16.le_iff_toNat_le, h80] at h
    rw [UInt16.toNat_toUInt8, Nat.min_eq_left h]
    omega

theorem captureColumns_le (m : Machine) : (captureColumns m).toNat ≤ 80 := by
  unfold captureColumns
  split
  · decide
  · rw [screenColumns_toNat]
    exact Nat.min_le_right _ _

theorem cursorMetadata_length (cursor shape : UInt16) (columns rows : UInt8) :
    (cursorMetadata cursor shape columns rows).length = 4 := by
  simp only [cursorMetadata]
  split <;> rfl

theorem captureHeader_length (b : Build) (c : Config) (m : Machine) (page : UInt8) (generation : UInt16) :
    (captureHeader b c m page generation).length = 13 := by
  simp [captureHeader, cursorMetadata_length]

theorem captureCells_le (m : Machine) : captureCells m ≤ 4000 := by
  have := captureColumns_le m
  unfold captureCells
  omega

theorem blockRequest_le {t : Transfer} {kind : TransferKind} {payload : Bytes} {requested : UInt16}
    (h : blockRequest t kind payload = some requested) : requested.toNat ≤ 900 := by
  simp only [blockRequest] at h
  split at h
  · cases h
  split at h
  · cases h
  rename_i hbounds
  simp only [not_or, gt_iff_lt, UInt16.not_lt, UInt16.le_iff_toNat_le] at hbounds
  have hmax : (dmGetU16 payload 6).toNat ≤ 900 := hbounds.2.2.1
  split at h
  · rename_i hmore
    cases h
    rw [gt_iff_lt, UInt32.lt_iff_toNat_lt, UInt16.toNat_toUInt32] at hmore
    rw [UInt32.toNat_toUInt16]
    omega
  · cases h
    exact hmax

theorem blockRead_length (t : Transfer) (bytes : Bytes) : (blockRead t bytes).1.length = 12 + bytes.length := by
  simp [blockRead]
  omega

theorem graphicsBytes_length (g : Graphics) (n : Nat) (position : UInt32) (m : Machine) :
    (graphicsBytes g n position m).1.length = n := by
  induction n generalizing position m with
  | zero => rfl
  | succ n ih => simp [graphicsBytes, ih]

theorem captureBlock_length (g : Graphics) (m : Machine) (offset : UInt32) (requested : UInt16) :
    (captureBlock g m offset requested).1.length = requested.toNat := by
  unfold captureBlock
  split <;> exact graphicsBytes_length _ _ _ _

theorem readTransferBlock_length {f : Files} {payload bytes : Bytes} (h : (readTransferBlock f payload).1 = some bytes) :
    bytes.length ≤ 912 := by
  unfold readTransferBlock at h
  split at h
  · cases h
  rename_i requested hreq
  have hle := blockRequest_le hreq
  split at h
  · cases h
  rename_i data store hread
  have hdata := Store.read_length hread
  split at h
  · cases h
  · obtain rfl : _ = bytes := by simpa using h
    rw [blockRead_length]
    omega

theorem readGraphicsBlock_length {m : Machine} {f : Files} {payload bytes : Bytes}
    (h : (readGraphicsBlock m f payload).1 = some bytes) : bytes.length ≤ 912 := by
  unfold readGraphicsBlock at h
  split at h
  · cases h
  rename_i requested hreq
  have hle := blockRequest_le hreq
  obtain rfl : _ = bytes := by simpa using h
  rw [blockRead_length, captureBlock_length]
  omega

theorem endReadTransfer_length {f : Files} {payload bytes : Bytes} (h : (endReadTransfer f payload).1 = some bytes) :
    bytes.length = 8 := by
  simp only [endReadTransfer] at h
  split at h
  · cases h
  · obtain rfl : _ = bytes := by simpa using h
    rfl

theorem beginFileRead_length {c : Config} {m : Machine} {f : Files} {payload bytes : Bytes}
    (h : (beginFileRead c m f payload).1 = some bytes) : bytes.length = 6 := by
  unfold beginFileRead at h
  split at h
  · cases h
  split at h
  · cases h
  split at h
  · cases h
  dsimp only at h
  split at h
  · cases h
  split at h
  · cases h
  split at h
  · cases h
  · obtain rfl : _ = bytes := by simpa using h
    rfl

theorem startFileWrite_length {c : Config} {m : Machine} {f : Files} {payload bytes : Bytes}
    (h : (startFileWrite c m f payload).1 = some bytes) : bytes.length = 6 := by
  simp only [startFileWrite] at h
  split at h
  · cases h
  · obtain rfl : _ = bytes := by simpa using h
    rfl

theorem beginFileWrite_length {c : Config} {m : Machine} {f : Files} {payload bytes : Bytes}
    (h : (beginFileWrite c m f payload).1 = some bytes) : bytes.length = 6 := by
  unfold beginFileWrite at h
  split at h
  · cases h
  split at h
  · cases h
  split at h
  · cases h
  dsimp only at h
  split at h
  · exact startFileWrite_length h
  split at h
  · cases h
  · exact startFileWrite_length h

theorem writeTransferBlock_length {f : Files} {payload bytes : Bytes} (h : (writeTransferBlock f payload).1 = some bytes) :
    bytes.length = 12 := by
  simp only [writeTransferBlock] at h
  split at h
  · cases h
  split at h
  · cases h
  split at h
  · cases h
  · obtain rfl : _ = bytes := by simpa using h
    rfl

theorem renameOntoPath_length {f : Files} {bytes : Bytes} (h : (renameOntoPath f).1 = some bytes) : bytes.length = 8 := by
  simp only [renameOntoPath] at h
  split at h
  · cases h
  · obtain rfl : _ = bytes := by simpa using h
    rfl

theorem commitFileWrite_length {f : Files} {payload bytes : Bytes} (h : (commitFileWrite f payload).1 = some bytes) :
    bytes.length = 8 := by
  simp only [commitFileWrite] at h
  split at h
  · cases h
  split at h
  · exact renameOntoPath_length h
  split at h
  · cases h
  split at h
  · cases h
  · exact renameOntoPath_length h

theorem beginGraphics_length {c : Config} {m : Machine} {f : Files} {bytes : Bytes}
    (h : (beginGraphics c m f).1 = some bytes) : bytes.length = 18 := by
  unfold beginGraphics at h
  split at h
  · cases h
  split at h
  · cases h
  · obtain rfl : _ = bytes := by simpa using h
    rfl

theorem TransferOp.run_length {op : TransferOp} {c : Config} {m : Machine} {f : Files} {payload bytes : Bytes}
    (h : (op.run c m f payload).reply = some bytes) : bytes.length ≤ 912 := by
  cases op with
  | fileReadBegin => exact (beginFileRead_length h).trans_le (by decide)
  | fileReadBlock => exact readTransferBlock_length h
  | fileReadEnd => exact (endReadTransfer_length h).trans_le (by decide)
  | fileWriteBegin => exact (beginFileWrite_length h).trans_le (by decide)
  | fileWriteBlock => exact (writeTransferBlock_length h).trans_le (by decide)
  | fileWriteCommit => exact (commitFileWrite_length h).trans_le (by decide)
  | fileAbort =>
    simp only [TransferOp.run, abortTransfer] at h
    split at h
    · cases h
    · obtain rfl : bytes = [] := by simpa using h
      decide
  | graphicsBegin =>
    simp only [TransferOp.run] at h
    split at h
    · cases h
    · exact (beginGraphics_length h).trans_le (by decide)
  | graphicsBlock => exact readGraphicsBlock_length h
  | graphicsEnd => exact (endReadTransfer_length h).trans_le (by decide)

theorem injectKeys_length {b : Build} {c : Config} {s s' : State} {payload bytes : Bytes}
    (h : injectKeys b c s payload = (some bytes, s')) : bytes.length = 5 := by
  unfold injectKeys at h
  split at h
  · cases h
  dsimp only at h
  split at h
  · cases h
  · obtain ⟨rfl, -⟩ : _ = bytes ∧ _ := by simpa using h
    simp

theorem withoutPayload_fits {payload : Bytes} {message : String} {s : State} {run : Reply × State}
    (h : run.1.Fits) : (withoutPayload payload message s run).1.Fits := by
  unfold withoutPayload
  split
  · exact trivial
  · exact h

theorem buildDiagnostics_length (s : State) : (buildDiagnostics s).length = 50 := by
  unfold buildDiagnostics
  generalize s.machine = m
  simp only [List.length_append, dmPutU16_length, List.length_cons, List.length_nil]

/-- Every reply fits the screen buffer. -/
theorem operate_fits (b : Build) (c : Config) (s : State) (opcode : UInt8) (payload : Bytes) :
    (operate b c s opcode payload).1.Fits := by
  unfold operate
  split
  · refine withoutPayload_fits ?_
    cases b <;> simp [Reply.Fits, buildStatus, screenBufferSize]
  · refine withoutPayload_fits ?_
    simp [Reply.Fits, buildCapabilities, screenBufferSize]
  · refine withoutPayload_fits ?_
    have hcells := captureCells_le s.machine
    cases b with
    | ragent =>
      simp only [operateCapture, captureScreen, Reply.Fits, List.length_append, captureHeader_length, List.length_map,
        List.length_range, screenBufferSize]
      omega
    | ratsr =>
      simp only [operateCapture, prepareTextCapture, Reply.Fits, screenBufferSize]
      omega
  · unfold operateKeys
    split
    · simp [Reply.Fits, screenBufferSize]
    split
    · exact trivial
    · rename_i bytes s' hkeys
      have := injectKeys_length hkeys
      simp only [Reply.Fits, screenBufferSize]
      omega
  · split
    · exact trivial
    · rename_i h
      simp only [Reply.Fits]
      omega
  · cases b with
    | ratsr =>
      have hfits : (Reply.screen (buildDiagnostics s)).Fits := by
        simp only [Reply.Fits, buildDiagnostics_length, screenBufferSize]
        omega
      exact withoutPayload_fits hfits
    | ragent => exact trivial
  · split
    · rename_i op _
      simp only [operateTransfer]
      split
      · exact trivial
      · rename_i bytes hreply
        have := TransferOp.run_length hreply
        simp only [Reply.Fits, screenBufferSize]
        omega
    · exact trivial

/-! ## Responses -/

/-- `s'` is `s` after the response to request `id` was recorded. -/
structure Responded (s s' : State) (id : UInt16) : Prop where
  active_eq : s'.session.active = s.session.active
  id_eq : s'.session.id = s.session.id
  key_eq : s'.session.key = s.session.key
  peer_eq : s'.session.peer = s.session.peer
  lastActivityTick_eq : s'.session.lastActivityTick = s.session.lastActivityTick
  lastRequestId_eq : s'.session.lastRequestId = id
  hasLastRequest_eq : s'.session.hasLastRequest = true
  reassembly_eq : s'.reassembly = s.reassembly
  files_eq : s'.files = s.files
  ticks_eq : s'.ticks = s.ticks
  enabled_eq : s'.enabled = s.enabled
  slot_eq : s'.slot = s.slot
  requests_eq : s'.requests = s.requests

theorem responseFragmentCount_toNat (b : Build) {length : Nat} (h : length ≤ 5120) :
    (responseFragmentCount b length).toNat = max 1 ((length + b.fragmentPayload - 1) / b.fragmentPayload) := by
  have hsmall : (length + b.fragmentPayload - 1) / b.fragmentPayload ≤ 20 := by
    cases b <;> simp only [Build.fragmentPayload] <;> omega
  simp only [responseFragmentCount]
  generalize (length + b.fragmentPayload - 1) / b.fragmentPayload = n at hsmall ⊢
  have hn : (UInt8.ofNat n).toNat = n := by
    rw [UInt8.toNat_ofNat']
    omega
  by_cases h0 : UInt8.ofNat n = 0
  · rw [h0] at hn
    rw [if_pos h0, ← hn]
    rfl
  · have : n ≠ 0 := fun hz => h0 (by rw [hz]; rfl)
    rw [if_neg h0, hn]
    omega

theorem dmPacketEncode_isOk {p : DmPacket} (key : Bytes) {capacity : UInt16} (hflags : p.flags = 0)
    (hkind : 1 ≤ p.kind ∧ p.kind ≤ 3) (hopcode : 1 ≤ p.opcode ∧ p.opcode ≤ 18)
    (hcount : 1 ≤ p.fragmentCount ∧ p.fragmentCount ≤ 32) (hindex : p.fragmentIndex < p.fragmentCount)
    (hlen : p.payload.length ≤ 1024) (hcapacity : 20 + p.payload.length ≤ capacity.toNat) :
    ∃ datagram, dmPacketEncode p key capacity = .ok datagram := by
  have hpl : p.payloadLength.toNat = p.payload.length := by
    rw [DmPacket.payloadLength, UInt16.toNat_ofNat']
    omega
  unfold dmPacketEncode
  rw [if_neg (by simp [hflags]), if_neg, if_neg, if_neg, if_neg]
  · exact ⟨_, rfl⟩
  · rw [UInt16.not_lt, UInt16.le_iff_toNat_le, UInt16.toNat_add, hpl]
    have : dmHeaderSize.toNat = 20 := rfl
    omega
  · rw [gt_iff_lt, UInt16.not_lt, UInt16.le_iff_toNat_le, hpl]
    exact hlen
  · simp only [not_or, gt_iff_lt, ge_iff_le, UInt8.not_lt, UInt8.not_le]
    refine ⟨?_, hcount.2, hindex⟩
    rintro h0
    rw [h0] at hcount
    exact absurd hcount.1 (by decide)
  · simp only [not_or, gt_iff_lt, UInt8.not_lt]
    exact ⟨hkind.1, hkind.2, hopcode.1, hopcode.2⟩

theorem encodeResponses_true {key : Bytes} {packets : List DmPacket}
    (h : ∀ p ∈ packets, ∃ datagram, dmPacketEncode p key responseDatagramSize = .ok datagram) (index : Nat)
    (responses : List Bytes) : (encodeResponses key packets index responses).1 = true := by
  induction packets generalizing index responses with
  | nil => rfl
  | cons p packets ih =>
    obtain ⟨datagram, hd⟩ := h p List.mem_cons_self
    rw [encodeResponses, hd]
    exact ih (fun q hq => h q (List.mem_cons_of_mem _ hq)) _ _

/-- Where the fragments of RAGENT stop fitting, `encodeResponses` would leave the loop; no
    payload within the buffers gets there. -/
theorem responsePackets_encode {session : AgentSession} {key : Bytes} {kind opcode : UInt8} {id : UInt16} {payload : Bytes}
    (hkind : 1 ≤ kind ∧ kind ≤ 3) (hopcode : 1 ≤ opcode ∧ opcode ≤ 18) {count : UInt8}
    (hcount : 1 ≤ count.toNat ∧ count.toNat ≤ 5) :
    ∀ p ∈ (List.range count.toNat).map (responsePacket .ragent session kind opcode id count payload),
      ∃ datagram, dmPacketEncode p key responseDatagramSize = .ok datagram := by
  intro p hp
  obtain ⟨index, hindex, rfl⟩ := List.mem_map.mp hp
  rw [List.mem_range] at hindex
  have hlen : (slice payload (index * 1024) 1024).length ≤ 1024 := by
    rw [slice_length]
    omega
  refine dmPacketEncode_isOk _ rfl hkind hopcode ?_ ?_ hlen ?_
  · simp only [responsePacket, UInt8.le_iff_toNat_le]
    exact ⟨hcount.1, hcount.2.trans (by decide)⟩
  · simp only [responsePacket, UInt8.lt_iff_toNat_lt, UInt8.toNat_ofNat']
    omega
  · have hsize : responseDatagramSize.toNat = 1044 := rfl
    have hpl : (responsePacket .ragent session kind opcode id count payload index).payload.length ≤ 1024 := hlen
    omega

theorem resendCached_session (b : Build) (s : State) :
    ∃ next pending sent, resendCached b s =
      { s with session := { s.session with responseNext := next, responsePending := pending }, sent := sent } := by
  cases b with
  | ratsr => exact ⟨_, _, _, rfl⟩
  | ragent => exact ⟨_, _, _, rfl⟩

theorem responded_resendCached {s t : State} {id : UInt16} (b : Build) (h : Responded s t id) :
    Responded s (resendCached b t) id := by
  obtain ⟨next, pending, sent, e⟩ := resendCached_session b t
  rw [e]
  exact ⟨h.active_eq, h.id_eq, h.key_eq, h.peer_eq, h.lastActivityTick_eq, h.lastRequestId_eq, h.hasLastRequest_eq,
    h.reassembly_eq, h.files_eq, h.ticks_eq, h.enabled_eq, h.slot_eq, h.requests_eq⟩

/-- A response that fits the buffers is recorded as the session's last one. -/
theorem sendResponse_responded (b : Build) (s : State) {kind opcode : UInt8} {id : UInt16} {source : Source}
    (hkind : 1 ≤ kind ∧ kind ≤ 3) (hopcode : 1 ≤ opcode ∧ opcode ≤ 18) (hlen : source.length ≤ 4096) :
    Responded s (sendResponse b s kind opcode id source) id := by
  have hcount := responseFragmentCount_toNat b (hlen.trans (by decide))
  unfold sendResponse
  dsimp only
  rw [if_neg (by cases b <;> simp only [hcount, Build.fragmentPayload, Build.maxFragments] <;> omega)]
  cases b with
  | ratsr =>
    refine responded_resendCached .ratsr ?_
    cases source with
    | screen n => exact ⟨rfl, rfl, rfl, rfl, rfl, rfl, rfl, rfl, rfl, rfl, rfl, rfl, rfl⟩
    | array bytes => exact ⟨rfl, rfl, rfl, rfl, rfl, rfl, rfl, rfl, rfl, rfl, rfl, rfl, rfl⟩
  | ragent =>
    have hrange : 1 ≤ (responseFragmentCount .ragent source.length).toNat ∧
        (responseFragmentCount .ragent source.length).toNat ≤ 5 := by
      simp only [hcount, Build.fragmentPayload]
      omega
    dsimp only
    split
    · rename_i responses hfail
      have hok := congrArg Prod.fst hfail
      rw [encodeResponses_true (responsePackets_encode hkind hopcode hrange)] at hok
      cases hok
    · refine responded_resendCached .ragent ?_
      exact ⟨rfl, rfl, rfl, rfl, rfl, rfl, rfl, rfl, rfl, rfl, rfl, rfl, rfl⟩

theorem sendError_responded (b : Build) (s : State) {opcode : UInt8} (hopcode : 1 ≤ opcode ∧ opcode ≤ 18)
    (id code : UInt16) (message : String) : Responded s (sendError b s opcode id code message) id := by
  refine sendResponse_responded b s (by decide) hopcode ?_
  simp only [Source.length, List.length_append, dmPutU16_length, List.length_take]
  omega

/-! ## Requests -/

/-- `s'` is `s` after `process_request` for `request`. -/
structure Processed (s s' : State) (request : Request) : Prop where
  active_eq : s'.session.active = s.session.active
  id_eq : s'.session.id = s.session.id
  key_eq : s'.session.key = s.session.key
  peer_eq : s'.session.peer = s.session.peer
  lastActivityTick_eq : s'.session.lastActivityTick = s.session.lastActivityTick
  lastRequestId_eq : s'.session.lastRequestId = request.id
  hasLastRequest_eq : s'.session.hasLastRequest = true
  reassembly_eq : s'.reassembly = s.reassembly
  ticks_eq : s'.ticks = s.ticks
  enabled_eq : s'.enabled = s.enabled
  slot_eq : s'.slot = s.slot
  requests_eq : s'.requests = s.requests ++ [request]

theorem processed_of_operated {s t u : State} {request : Request}
    (ht : Operated { s with requests := s.requests ++ [request] } t) (hu : Responded t u request.id) :
    Processed s u request where
  active_eq := by rw [hu.active_eq, ht.session_eq]
  id_eq := by rw [hu.id_eq, ht.session_eq]
  key_eq := by rw [hu.key_eq, ht.session_eq]
  peer_eq := by rw [hu.peer_eq, ht.session_eq]
  lastActivityTick_eq := by rw [hu.lastActivityTick_eq, ht.session_eq]
  lastRequestId_eq := hu.lastRequestId_eq
  hasLastRequest_eq := hu.hasLastRequest_eq
  reassembly_eq := by rw [hu.reassembly_eq, ht.reassembly_eq]
  ticks_eq := by rw [hu.ticks_eq, ht.ticks_eq]
  enabled_eq := by rw [hu.enabled_eq, ht.enabled_eq]
  slot_eq := by rw [hu.slot_eq, ht.slot_eq]
  requests_eq := by rw [hu.requests_eq, ht.requests_eq]

/-- The state in which the operation of a request runs. -/
def State.logRequest (s : State) (request : Request) : State := { s with requests := s.requests ++ [request] }

/-- Every processed request is answered, and its answer recorded. -/
theorem processRequest_responded (b : Build) (c : Config) (s : State) {opcode : UInt8}
    (hopcode : 1 ≤ opcode ∧ opcode ≤ 18) (id : UInt16) (payload : Bytes) :
    Responded (operate b c (s.logRequest ⟨opcode, id, payload⟩) opcode payload).2
      (processRequest b c s opcode id payload) id := by
  have hfits := operate_fits b c (s.logRequest ⟨opcode, id, payload⟩) opcode payload
  unfold processRequest State.logRequest at *
  generalize operate b c { s with requests := s.requests ++ [⟨opcode, id, payload⟩] } opcode payload = r at hfits ⊢
  obtain ⟨reply, t⟩ := r
  cases reply with
  | error code message => exact sendError_responded b t hopcode id code message
  | screen bytes =>
    have hlen : bytes.length ≤ 4013 := hfits
    have hsent : Responded (t.putScreen b bytes)
        (sendResponse b (t.putScreen b bytes) dmKindResponse opcode id (.screen bytes.length)) id :=
      sendResponse_responded b _ (by decide) hopcode (by simp only [Source.length]; omega)
    exact ⟨hsent.active_eq, hsent.id_eq, hsent.key_eq, hsent.peer_eq, hsent.lastActivityTick_eq, hsent.lastRequestId_eq,
      hsent.hasLastRequest_eq, hsent.reassembly_eq, hsent.files_eq, hsent.ticks_eq, hsent.enabled_eq, hsent.slot_eq,
      hsent.requests_eq⟩
  | capture length =>
    have hlen : length ≤ 4013 := hfits
    exact sendResponse_responded b t (by decide) hopcode (by simp only [Source.length]; omega)

theorem processRequest_processed (b : Build) (c : Config) (s : State) {opcode : UInt8}
    (hopcode : 1 ≤ opcode ∧ opcode ≤ 18) (id : UInt16) (payload : Bytes) :
    Processed s (processRequest b c s opcode id payload) ⟨opcode, id, payload⟩ :=
  processed_of_operated (operate_operated b c _ opcode payload) (processRequest_responded b c s hopcode id payload)

theorem processRequest_files (c : Config) (s : State) {opcode : UInt8} (hopcode : 1 ≤ opcode ∧ opcode ≤ 18)
    (id : UInt16) (payload : Bytes) :
    (processRequest .ratsr c s opcode id payload).files = operatedFiles c s opcode payload :=
  (processRequest_responded .ratsr c s hopcode id payload).files_eq.trans (operate_files c _ opcode payload)

/-! ## Datagrams -/

/-- A completed request has the ID and opcode of the packet that completes it. -/
theorem completedRequest_eq_some {s : State} {packet : DmPacket} {request : Request}
    (h : s.completedRequest packet = some request) :
    request.id = packet.requestId ∧ request.opcode = packet.opcode := by
  unfold State.completedRequest at h
  split at h
  · cases h
  rename_i haccept
  have hid : (s.reassembly.forPacket packet).requestId = packet.requestId := by
    unfold Reassembly.forPacket
    split
    · rfl
    · rename_i heq
      exact (not_not.mp heq).symm
  have hopcode : packet.opcode = (s.reassembly.forPacket packet).opcode := by
    by_contra hne
    exact haccept (by simp [Reassembly.refuses, hne])
  dsimp only at h
  split at h
  · obtain rfl : _ = request := by simpa using h
    simp only [State.storeFragment, if_neg haccept]
    exact ⟨hid, hopcode.symm⟩
  · cases h

theorem storeFragment_session (s : State) (packet : DmPacket) :
    ∃ reassembly workspace, s.storeFragment packet = { s with reassembly := reassembly, workspace := workspace } := by
  unfold State.storeFragment
  dsimp only
  split <;> exact ⟨_, _, rfl⟩

/-- What the replay check goes by. -/
def AgentSession.last (session : AgentSession) : Option UInt16 :=
  if session.hasLastRequest then some session.lastRequestId else none

/-- The ID is neither the last one nor newer. -/
def AgentSession.refuses (session : AgentSession) (id : UInt16) : Bool :=
  session.hasLastRequest && id ≠ session.lastRequestId && !requestIsNewer id session.lastRequestId

/-- `s'` is `s` with another response state: same session, same log. -/
structure Quiet (s s' : State) : Prop where
  active_eq : s'.session.active = s.session.active
  id_eq : s'.session.id = s.session.id
  key_eq : s'.session.key = s.session.key
  peer_eq : s'.session.peer = s.session.peer
  last_eq : s'.session.last = s.session.last
  files_eq : s'.files = s.files
  slot_eq : s'.slot = s.slot
  requests_eq : s'.requests = s.requests

theorem resendCached_quiet (b : Build) (s : State) : Quiet s (resendCached b s) := by
  obtain ⟨next, pending, sent, e⟩ := resendCached_session b s
  rw [e]
  exact ⟨rfl, rfl, rfl, rfl, rfl, rfl, rfl, rfl⟩

theorem storeFragment_quiet (s : State) (packet : DmPacket) : Quiet s (s.storeFragment packet) := by
  obtain ⟨reassembly, workspace, e⟩ := storeFragment_session s packet
  rw [e]
  exact ⟨rfl, rfl, rfl, rfl, rfl, rfl, rfl, rfl⟩

/-- A request that is newer than the last one is neither a duplicate nor refused. -/
theorem AgentSession.fresh_of_newer {session : AgentSession} {id : UInt16}
    (h : ∀ last, session.last = some last → requestIsNewer id last = true) :
    session.last ≠ some id ∧ ¬ session.refuses id = true := by
  constructor
  · intro hlast
    have hself := h _ hlast
    simp [requestIsNewer] at hself
  · intro hrefuses
    simp only [AgentSession.refuses, Bool.and_eq_true, Bool.not_eq_true'] at hrefuses
    have hnewer := h session.lastRequestId (by simp [AgentSession.last, hrefuses.1.1])
    rw [hrefuses.2] at hnewer
    cases hnewer

/-- The branches of a request of the session: answered again, refused, stored, processed. -/
theorem processSessionPacket_cases (b : Build) (c : Config) (s : State) (packet : DmPacket) :
    (s.session.last = some packet.requestId ∧ processSessionPacket b c s packet = resendCached b s) ∨
      (s.session.refuses packet.requestId = true ∧
        processSessionPacket b c s packet = sendError b s packet.opcode packet.requestId 4 "replayed request") ∨
      ((∀ last, s.session.last = some last → requestIsNewer packet.requestId last = true) ∧
        ((s.completedRequest packet = none ∧ processSessionPacket b c s packet = s.storeFragment packet) ∨
          ∃ payload, s.completedRequest packet = some ⟨packet.opcode, packet.requestId, payload⟩ ∧
            processSessionPacket b c s packet =
              processRequest b c (s.storeFragment packet) packet.opcode packet.requestId payload)) := by
  unfold processSessionPacket
  split
  · rename_i h
    exact Or.inl ⟨by simp [AgentSession.last, h.1, h.2], rfl⟩
  rename_i hlast
  split
  · rename_i h
    have hne : packet.requestId ≠ s.session.lastRequestId := fun he => hlast ⟨h.1, he⟩
    exact Or.inr (Or.inl ⟨by simpa [AgentSession.refuses, h.1, hne] using h.2, rfl⟩)
  rename_i hnewer
  refine Or.inr (Or.inr ⟨fun last hl => ?_, ?_⟩)
  · simp only [AgentSession.last] at hl
    split at hl
    · rename_i hhas
      obtain rfl : s.session.lastRequestId = last := by simpa using hl
      by_contra hno
      exact hnewer ⟨hhas, hno⟩
    · cases hl
  · unfold acceptFragment
    cases hdone : s.completedRequest packet with
    | none => exact Or.inl ⟨rfl, rfl⟩
    | some request =>
      obtain ⟨hid, hop⟩ := completedRequest_eq_some hdone
      obtain ⟨opcode, id, payload⟩ := request
      simp only at hid hop
      subst hid hop
      exact Or.inr ⟨payload, rfl, rfl⟩

theorem dmPacketDecode_opcode {datagram key : Bytes} {packet : DmPacket} (h : dmPacketDecode datagram key = .ok packet) :
    packet.opcode = byteAt datagram 4 ∧ 1 ≤ packet.opcode ∧ packet.opcode ≤ 18 := by
  have ha := dmPacketDecode_accepted h
  rw [ha.packet_eq]
  exact ⟨rfl, UInt8.not_lt.mp ha.opcode.1, UInt8.not_lt.mp ha.opcode.2⟩

theorem dmPacketDecode_length {datagram key : Bytes} {packet : DmPacket} (h : dmPacketDecode datagram key = .ok packet) :
    20 ≤ datagram.length := by
  have hlen := (dmPacketDecode_accepted h).header
  rw [UInt16.not_lt, UInt16.le_iff_toNat_le, UInt16.toNat_ofNat'] at hlen
  exact hlen.trans (Nat.mod_le _ _)

/-- The state in which the replay check of a session's packet runs. -/
def State.heard (s : State) (packet : DmPacket) : State :=
  { s with lastProtocolResult := 0, lastOpcode := packet.opcode
           session := { s.session with lastActivityTick := s.ticks } }

theorem heard_quiet (s : State) (packet : DmPacket) : Quiet s (s.heard packet) := ⟨rfl, rfl, rfl, rfl, rfl, rfl, rfl, rfl⟩

theorem heard_completedRequest (s : State) (packet : DmPacket) :
    (s.heard packet).completedRequest packet = s.completedRequest packet := by
  unfold State.completedRequest State.storeFragment
  dsimp only [State.heard]
  split
  · rfl
  · rfl

/-- A packet of the session reaches the replay check. -/
theorem processPacket_session {b : Build} {c : Config} {s : State} {packet : DmPacket} {peer : Peer}
    (hkind : packet.kind = dmKindRequest) (hhello : ¬ (packet.opcode = dmOpHello ∧ packet.sessionId = 0))
    (howns : s.session.owns packet peer = true) :
    processPacket b c { s with lastProtocolResult := 0, lastOpcode := packet.opcode } packet peer =
      processSessionPacket b c (s.heard packet) packet := by
  unfold processPacket
  rw [if_neg (not_not.mpr hkind), if_neg hhello, if_neg (not_not.mpr howns)]
  rfl

/-- A datagram of the session reaches the replay check. -/
theorem processDatagram_session {b : Build} {c : Config} {s : State} {d : Datagram} {packet : DmPacket}
    (hactive : s.session.active = true) (hlen : 20 ≤ d.payload.length)
    (hdecode : dmPacketDecode d.payload s.session.key = .ok packet) (hkind : packet.kind = dmKindRequest)
    (hopcode : packet.opcode ≠ dmOpHello) (hid : packet.sessionId = s.session.id) (hpeer : d.peer = s.session.peer) :
    processDatagram b c s d = processSessionPacket b c (s.heard packet) packet := by
  have hbyte : byteAt d.payload 4 ≠ dmOpHello := by
    rw [← (dmPacketDecode_opcode hdecode).1]
    exact hopcode
  have hkey : s.datagramKey c d.payload = some s.session.key := by
    rw [State.datagramKey, if_pos ⟨hlen, hbyte⟩, if_pos hactive]
  simp only [processDatagram, hkey, hdecode]
  exact processPacket_session hkind (fun h => hopcode h.1) (by simp [AgentSession.owns, hactive, hid, hpeer])

/-! ## The ways of a datagram -/

/-- What `dm_packet_decode` has checked. -/
structure DmPacket.Sound (p : DmPacket) : Prop where
  fragmentCount_le : p.fragmentCount.toNat ≤ 32
  fragmentIndex_lt : p.fragmentIndex.toNat < p.fragmentCount.toNat
  payload_le : p.payload.length ≤ 1024
  opcode_range : 1 ≤ p.opcode ∧ p.opcode ≤ 18

theorem dmPacketDecode_sound {datagram key : Bytes} {packet : DmPacket} (h : dmPacketDecode datagram key = .ok packet) :
    packet.Sound := by
  have hopcode := (dmPacketDecode_opcode h).2
  have ha := dmPacketDecode_accepted h
  obtain ⟨-, hcount, hindex⟩ := ha.fragment
  have hle : (dmGetU16 datagram 12).toNat ≤ 1024 := UInt16.le_iff_toNat_le.mp (UInt16.not_lt.mp ha.payloadLength)
  rw [ha.packet_eq] at hopcode ⊢
  refine ⟨?_, ?_, ?_, hopcode⟩
  · exact UInt8.le_iff_toNat_le.mp (UInt8.not_lt.mp hcount)
  · exact UInt8.lt_iff_toNat_lt.mp (UInt8.not_le.mp hindex)
  · simp only [slice, List.length_take]
    omega

/-- The request packet of the session that a datagram carries. -/
def sessionPacket (c : Config) (s : State) (d : Datagram) : Option DmPacket :=
  match s.datagramKey c d.payload with
  | none => none
  | some key => match dmPacketDecode d.payload key with
    | .error _ => none
    | .ok packet =>
      if packet.kind = dmKindRequest ∧ ¬ (packet.opcode = dmOpHello ∧ packet.sessionId = 0) ∧ s.session.owns packet d.peer then
        some packet
      else none

/-- The HELLO that a datagram carries, if `process_hello` accepts it. -/
def helloPacket (c : Config) (s : State) (d : Datagram) : Option DmPacket :=
  match s.datagramKey c d.payload with
  | none => none
  | some key => match dmPacketDecode d.payload key with
    | .error _ => none
    | .ok packet =>
      if packet.kind = dmKindRequest ∧ (packet.opcode = dmOpHello ∧ packet.sessionId = 0) ∧ packet.payloadLength = 4 ∧
          packet.fragmentCount = 1 then some packet
      else none

theorem sessionPacket_active {c : Config} {s : State} {d : Datagram} {packet : DmPacket} (h : sessionPacket c s d = some packet) :
    s.session.active = true := by
  unfold sessionPacket at h
  split at h
  · cases h
  · split at h
    · cases h
    · split at h
      · rename_i hsession
        have howns := hsession.2.2
        simp only [AgentSession.owns, decide_eq_true_eq] at howns
        exact howns.1
      · cases h

/-- A datagram is a request of the session, a HELLO, or nothing that the session knows. -/
theorem processDatagram_cases (b : Build) (c : Config) (s : State) (d : Datagram) :
    (∃ packet, sessionPacket c s d = some packet ∧ helloPacket c s d = none ∧ packet.Sound ∧
        processDatagram b c s d = processSessionPacket b c (s.heard packet) packet) ∨
      (∃ packet, sessionPacket c s d = none ∧ helloPacket c s d = some packet ∧
        packet.payloadLength = 4 ∧ packet.fragmentCount = 1 ∧ processDatagram b c s d =
          processHello b c { s with lastProtocolResult := 0, lastOpcode := packet.opcode } packet d.peer) ∨
      (sessionPacket c s d = none ∧ helloPacket c s d = none ∧
        ∃ result opcode, processDatagram b c s d = { s with lastProtocolResult := result, lastOpcode := opcode }) := by
  unfold processDatagram sessionPacket helloPacket
  cases s.datagramKey c d.payload with
  | none => exact Or.inr (Or.inr ⟨rfl, rfl, _, _, rfl⟩)
  | some key =>
  dsimp only
  cases hdecode : dmPacketDecode d.payload key with
  | error e => exact Or.inr (Or.inr ⟨rfl, rfl, _, _, rfl⟩)
  | ok packet =>
  dsimp only
  by_cases hkind : packet.kind = dmKindRequest
  swap
  · rw [processPacket, if_pos hkind, if_neg fun h => hkind h.1, if_neg fun h => hkind h.1]
    exact Or.inr (Or.inr ⟨rfl, rfl, _, _, rfl⟩)
  by_cases hhello : packet.opcode = dmOpHello ∧ packet.sessionId = 0
  · rw [processPacket, if_neg (not_not.mpr hkind), if_pos hhello, if_neg fun h => h.2.1 hhello]
    by_cases hshape : packet.payloadLength = 4 ∧ packet.fragmentCount = 1
    · rw [if_pos ⟨hkind, hhello, hshape⟩]
      exact Or.inr (Or.inl ⟨packet, rfl, rfl, hshape.1, hshape.2, rfl⟩)
    · rw [if_neg fun h => hshape h.2.2, processHello, if_pos (by rwa [not_and_or] at hshape)]
      exact Or.inr (Or.inr ⟨rfl, rfl, _, _, rfl⟩)
  by_cases howns : s.session.owns packet d.peer = true
  · rw [processPacket_session hkind hhello howns, if_pos ⟨hkind, hhello, howns⟩, if_neg fun h => hhello h.2.1]
    exact Or.inl ⟨packet, rfl, rfl, dmPacketDecode_sound hdecode, rfl⟩
  · rw [processPacket, if_neg (not_not.mpr hkind), if_neg hhello, if_pos howns, if_neg fun h => howns h.2.2,
      if_neg fun h => hhello h.2.1]
    exact Or.inr (Or.inr ⟨rfl, rfl, _, _, rfl⟩)

end DosMcp.Dos
