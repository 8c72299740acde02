/-
  DosMcp.Server.TransferProofs — the transfer machine of `UdpAgentServer` against any
  client: what the server has acknowledged decides what it may do next.

  `Ledger` keeps what a session has acknowledged: the latest accepted FILE_WRITE_BEGIN with
  the blocks accepted since, and the data behind the latest read with the blocks handed out
  since. `Ledger.Matches` ties it to the server's transfer; every dispatched request, of any
  opcode and with any payload, keeps it (`Ledger.Matches.step`).

  - `upload_matches_ledger`: whenever `backend.upload_file` is called, path, flag and data are
    those of the ledger, with the declared size and CRC-32; the blocks read are a prefix of the
    data, and all of it where END succeeds.
-/

import DosMcp.Protocol.MessageProofs
import DosMcp.Server.AgentProofs

namespace DosMcp

open Lib

/-- A dispatched request, with what the outside answers during it. -/
structure Dispatched where
  env : Env
  opcode : Opcode
  requestId : Nat
  payload : Bytes

/-- What a session has acknowledged so far. -/
structure Ledger where
  upload : Option FileWriteBeginRequest
  written : Bytes
  source : Bytes
  read : Bytes

def Ledger.empty : Ledger := ⟨none, [], [], []⟩

/-- The reply of a request that is answered with a RESPONSE. -/
def Dispatched.response (r : Dispatched) (active : Option Transfer) : Option Bytes :=
  match operate r.env active r.opcode r.payload with
  | none => none
  | some outcome => outcome.reply.toOption

/-- What the backend returns to a BEGIN request for a read. -/
def Dispatched.backendData (r : Dispatched) : Option Bytes :=
  match r.opcode with
  | .fileReadBegin => match FileReadBeginRequest.decode r.payload with
    | .error _ => none
    | .ok request => (r.env.backend.downloadFile (cp437Decode request.path)).toOption.map FileContents.data
  | .graphicsBegin => r.env.backend.captureGraphics.toOption.map GraphicsScreen.data
  | _ => none

/-- The request starts a transfer; its own reply may still fail to encode. -/
def Dispatched.starts (r : Dispatched) (active : Option Transfer) : Bool :=
  active.isNone && (operate r.env active r.opcode r.payload).any fun outcome => outcome.transfer.isSome

/-- The ledger after a request that met the transfer `active`. -/
def Ledger.record (l : Ledger) (active : Option Transfer) (r : Dispatched) : Ledger :=
  match r.opcode with
  | .fileWriteBegin => match FileWriteBeginRequest.decode r.payload, r.response active with
    | .ok request, some _ => { l with upload := some request, written := [] }
    | _, _ => l
  | .fileWriteBlock => match TransferBlockRequest.decode r.payload true, r.response active with
    | .ok request, some _ => { l with written := l.written ++ request.data }
    | _, _ => l
  | .fileReadBegin | .graphicsBegin => match r.starts active, r.backendData with
    | true, some data => { l with source := data, read := [] }
    | _, _ => l
  | .fileReadBlock | .graphicsBlock => match (r.response active).map TransferBlockResponse.decode with
    | some (.ok response) => { l with read := l.read ++ response.data }
    | _ => l
  | _ => l

/-- The server of a session with its ledger. -/
structure ServedSession where
  server : UdpAgentServer
  ledger : Ledger

def ServedSession.dispatch (v : ServedSession) (r : Dispatched) : Option Result :=
  v.server.session.map fun session => v.server.dispatch session r.env r.opcode r.requestId r.payload

def ServedSession.step (v : ServedSession) (r : Dispatched) : ServedSession :=
  match v.dispatch r with
  | none => v
  | some result => ⟨result.server, v.ledger.record v.server.transfer r⟩

/-- A session as `_handle_hello` opens it: no transfer. -/
def ServedSession.start (s : UdpAgentServer) : ServedSession := ⟨{ s with transfer := none }, .empty⟩

def ServedSession.run (v : ServedSession) (history : List Dispatched) : ServedSession := history.foldl ServedSession.step v

/-! ## The ledger and the transfer -/

/-- An upload holds the blocks accepted since its BEGIN. -/
structure Ledger.Uploads (l : Ledger) (t : Transfer) : Prop where
  begun : ∃ request, l.upload = some request ∧ t.path = cp437Decode request.path ∧ t.overwrite = request.overwrite ∧
    t.expectedSize = request.totalSize ∧ t.expectedCrc32 = request.crc32
  data_eq : t.data = l.written
  offset_eq : t.offset = t.data.length
  crc32_eq : t.crc32 = crc32 t.data 0
  offset_le : t.offset ≤ maxUploadSize
  expectedSize_le : t.expectedSize ≤ maxUploadSize

/-- A read has handed out the data up to its offset. -/
structure Ledger.Reads (l : Ledger) (t : Transfer) : Prop where
  data_eq : t.data = l.source
  read_eq : l.read = t.data.take t.offset
  offset_le : t.offset ≤ t.data.length
  crc32_eq : t.crc32 = crc32 (t.data.take t.offset) 0

structure Ledger.Tracks (l : Ledger) (t : Transfer) : Prop where
  transferId_range : 1 ≤ t.transferId ∧ t.transferId < 256 ^ 2
  uploads : t.kind = .fileWrite → l.Uploads t
  reads : t.kind ≠ .fileWrite → l.Reads t

def Ledger.Matches (l : Ledger) (active : Option Transfer) : Prop := ∀ t, active = some t → l.Tracks t

theorem startTransfer_eq_ok {env : Env} {active : Option Transfer} {kind : TransferKind} {data : Bytes} {t : Transfer}
    (h : startTransfer env active kind data = .ok t) :
    active = none ∧ 1 ≤ t.transferId ∧ t.transferId < 256 ^ 2 ∧ t.kind = kind ∧ t.data = data ∧ t.offset = 0 ∧ t.crc32 = 0 := by
  unfold startTransfer at h
  split at h
  · cases h
  · obtain rfl := Except.ok.inj h
    have hdraw := env.draw.isLt
    refine ⟨rfl, ?_, ?_, rfl, rfl, rfl, rfl⟩ <;> simp only <;> split <;> omega

theorem requireTransfer_eq_ok {active : Option Transfer} {id : Nat} {kind : TransferKind} {t : Transfer}
    (h : requireTransfer active id kind = .ok t) : active = some t ∧ t.transferId = id ∧ t.kind = kind := by
  unfold requireTransfer at h
  split at h
  · cases h
  · split at h
    · cases h
    · rename_i hno
      obtain rfl := Except.ok.inj h
      simp only [not_or, not_not] at hno
      exact ⟨rfl, hno⟩

/-- What has been read, and the block read next. -/
theorem take_append_slice (data : Bytes) (offset n : Nat) :
    data.take offset ++ slice data offset n = data.take (offset + (slice data offset n).length) := by
  rw [List.take_add]
  congr 1
  simp [slice]

theorem Ledger.Reads.start {l : Ledger} {t : Transfer} {data : Bytes} (hdata : t.data = data) (hoffset : t.offset = 0)
    (hcrc : t.crc32 = 0) : Reads { l with source := data, read := [] } t where
  data_eq := hdata
  read_eq := by simp [hoffset]
  offset_le := by omega
  crc32_eq := by simp [hoffset, hcrc]

/-! ## One request -/

section

variable {l : Ledger} {active : Option Transfer} {env : Env} {id : Nat} {payload : Bytes}

theorem Ledger.Matches.none (l : Ledger) : l.Matches none := fun t h => by cases h

theorem Ledger.Matches.of_tracks {t : Transfer} (h : l.Tracks t) : l.Matches (some t) := fun t' h' => by
  obtain rfl := Option.some.inj h'
  exact h

theorem Ledger.Matches.fileWriteBegin (h : l.Matches active) :
    (l.record active ⟨env, .fileWriteBegin, id, payload⟩).Matches (fileWriteBegin env active payload).transfer := by
  simp only [record, Dispatched.response, operate]
  unfold DosMcp.fileWriteBegin
  cases FileWriteBeginRequest.decode payload with
  | error e => exact h
  | ok request =>
    by_cases hsize : request.totalSize > maxUploadSize
    · simp only [hsize, if_true]
      exact h
    simp only [hsize, if_false]
    cases hstart : startTransfer env active .fileWrite [] with
    | error e => exact h
    | ok t =>
      obtain ⟨-, hid1, hid2, hkind, hdata, hoffset, hcrc⟩ := startTransfer_eq_ok hstart
      have hle : request.totalSize ≤ maxUploadSize := Nat.not_lt.mp hsize
      obtain ⟨bs, hbs⟩ := (TransferBeginResponse.encode_isOk_iff (m := ⟨t.transferId, request.totalSize⟩)).mpr
        ⟨hid2, Nat.lt_of_le_of_lt hle (by decide)⟩
      simp only [hbs, Except.toOption]
      refine .of_tracks ⟨⟨hid1, hid2⟩, fun _ => ⟨⟨request, rfl, rfl, rfl, rfl, rfl⟩, hdata, ?_, ?_, ?_, hle⟩,
        fun hno => absurd hkind hno⟩
      · simp [hdata, hoffset]
      · simp [hdata, hcrc]
      · simp [hoffset]

theorem Ledger.Matches.fileReadBegin (h : l.Matches active) :
    (l.record active ⟨env, .fileReadBegin, id, payload⟩).Matches (fileReadBegin env active payload).transfer := by
  simp only [record, Dispatched.starts, Dispatched.backendData, operate]
  unfold DosMcp.fileReadBegin
  cases FileReadBeginRequest.decode payload with
  | error e => cases active <;> exact h
  | ok request =>
    simp only
    cases env.backend.downloadFile (cp437Decode request.path) with
    | error e => cases active <;> exact h
    | ok contents =>
      simp only
      cases hstart : startTransfer env active .fileRead contents.data with
      | error e => cases active <;> exact h
      | ok t =>
        obtain ⟨rfl, hid1, hid2, hkind, hdata, hoffset, hcrc⟩ := startTransfer_eq_ok hstart
        exact .of_tracks ⟨⟨hid1, hid2⟩, fun hw => by simp [hkind] at hw, fun _ => .start hdata hoffset hcrc⟩

theorem Ledger.Matches.graphicsBegin (h : l.Matches active) :
    (l.record active ⟨env, .graphicsBegin, id, payload⟩).Matches (graphicsBegin env active payload).transfer := by
  simp only [record, Dispatched.starts, Dispatched.backendData, operate]
  unfold DosMcp.graphicsBegin
  cases requireEmpty payload with
  | error e => cases active <;> cases env.backend.captureGraphics <;> exact h
  | ok u =>
    simp only
    cases env.backend.captureGraphics with
    | error e => cases active <;> exact h
    | ok graphics =>
      simp only
      cases hstart : startTransfer env active .graphics graphics.data with
      | error e => cases active <;> exact h
      | ok t =>
        obtain ⟨rfl, hid1, hid2, hkind, hdata, hoffset, hcrc⟩ := startTransfer_eq_ok hstart
        exact .of_tracks ⟨⟨hid1, hid2⟩, fun hw => by simp [hkind] at hw, fun _ => .start hdata hoffset hcrc⟩

theorem Ledger.Matches.writeBlock (h : l.Matches active) :
    (l.record active ⟨env, .fileWriteBlock, id, payload⟩).Matches
      (withRequest active (TransferBlockRequest.decode payload true) fun r => writeTransferBlock active r).transfer := by
  simp only [record, Dispatched.response, operate]
  cases hdec : TransferBlockRequest.decode payload true with
  | error e => exact h
  | ok request =>
    simp only [withRequest, writeTransferBlock]
    cases hreq : requireTransfer active request.transferId .fileWrite with
    | error e => exact h
    | ok t =>
      obtain ⟨rfl, -, hkind⟩ := requireTransfer_eq_ok hreq
      by_cases hbad : request.offset ≠ t.offset ∨ t.offset + request.data.length > t.expectedSize
      · simp only [hbad, if_true]
        exact h
      simp only [hbad, if_false]
      have htracks := h t rfl
      have hup := htracks.uploads hkind
      rw [not_or, not_not, Nat.not_lt] at hbad
      have hmax : maxUploadSize = 1048576 := rfl
      have hle := hup.expectedSize_le
      have hcrc : crc32 request.data t.crc32 < 256 ^ 4 := by
        rw [hup.crc32_eq]
        exact crc32_lt _ (crc32_lt _ (by decide))
      have hoff : request.offset < 256 ^ 4 := by
        rw [hbad.1]
        omega
      have hnil : ([] : Bytes).length ≤ maxTransferBlock := Nat.zero_le _
      obtain ⟨bs, hbs⟩ := TransferBlockResponse.encode_isOk htracks.transferId_range.2 hoff hnil hcrc
      simp only [hbs, Except.toOption]
      refine .of_tracks ⟨htracks.transferId_range, fun _ => ⟨hup.begun, ?_, ?_, ?_, ?_, hle⟩, fun hno => absurd hkind hno⟩
      · simp only [hup.data_eq]
      · simp only [hup.offset_eq, List.length_append]
      · simp only [hup.crc32_eq, crc32_append]
      · simp only
        omega

/-- `_read_transfer_block`, of a file or of a screen. -/
theorem Ledger.Matches.readBlock (h : l.Matches active) {opcode : Opcode} {kind : TransferKind} (hkind : kind ≠ .fileWrite)
    (hop : opcode = .fileReadBlock ∨ opcode = .graphicsBlock)
    (hrun : operate env active opcode payload =
      some (withRequest active (TransferBlockRequest.decode payload false) fun r => readTransferBlock active r kind)) :
    (l.record active ⟨env, opcode, id, payload⟩).Matches
      (withRequest active (TransferBlockRequest.decode payload false) fun r => readTransferBlock active r kind).transfer := by
  have hrecord : l.record active ⟨env, opcode, id, payload⟩ =
      match ((withRequest active (TransferBlockRequest.decode payload false) fun r =>
          readTransferBlock active r kind).reply.toOption).map TransferBlockResponse.decode with
      | some (.ok response) => { l with read := l.read ++ response.data }
      | _ => l := by
    rcases hop with rfl | rfl <;> simp only [record, Dispatched.response, hrun]
  rw [hrecord]
  cases hdec : TransferBlockRequest.decode payload false with
  | error e => exact h
  | ok request =>
    obtain ⟨-, hoff, -, hlen, -⟩ := TransferBlockRequest.decode_eq_ok hdec
    simp only [withRequest, readTransferBlock]
    cases hreq : requireTransfer active request.transferId kind with
    | error e => exact h
    | ok t =>
      obtain ⟨rfl, -, rfl⟩ := requireTransfer_eq_ok hreq
      by_cases hbad : request.offset ≠ t.offset
      · simp only [hbad, ne_eq, not_false_eq_true, if_true]
        exact h
      rw [not_not] at hbad
      rw [hbad] at hoff
      have htracks := h t rfl
      have hread := htracks.reads hkind
      have hblock : (slice t.data t.offset request.length).length ≤ maxTransferBlock := by
        rw [slice_length]
        omega
      have hcrc : crc32 (slice t.data t.offset request.length) t.crc32 < 256 ^ 4 := by
        rw [hread.crc32_eq]
        exact crc32_lt _ (crc32_lt _ (by decide))
      obtain ⟨bs, hbs⟩ := TransferBlockResponse.encode_isOk htracks.transferId_range.2 hoff hblock hcrc
      simp only [hbad, ne_eq, not_true_eq_false, if_false, hbs, Except.toOption, Option.map_some,
        TransferBlockResponse.decode_of_encode hbs]
      have htake := take_append_slice t.data t.offset request.length
      refine .of_tracks ⟨htracks.transferId_range, fun hw => absurd hw hkind, fun _ => ⟨hread.data_eq, ?_, ?_, ?_⟩⟩
      · simp only [hread.read_eq, htake]
      · simp only [slice_length]
        have := hread.offset_le
        omega
      · simp only
        rw [← htake, crc32_append, hread.crc32_eq]

/-- END and COMMIT leave the transfer or release it. -/
theorem endReadTransfer_transfer (active : Option Transfer) (request : TransferEndRequest) (kind : TransferKind) :
    (endReadTransfer active request kind).transfer = active ∨ (endReadTransfer active request kind).transfer = none := by
  unfold endReadTransfer
  repeat' split
  all_goals simp

theorem commitWriteTransfer_transfer (env : Env) (active : Option Transfer) (request : TransferEndRequest) :
    (commitWriteTransfer env active request).transfer = active ∨ (commitWriteTransfer env active request).transfer = none := by
  unfold commitWriteTransfer
  repeat' split
  all_goals simp

theorem fileAbort_transfer (active : Option Transfer) (payload : Bytes) :
    (fileAbort active payload).transfer = active ∨ (fileAbort active payload).transfer = none := by
  unfold fileAbort
  repeat' split
  all_goals simp_all

theorem Ledger.Matches.released (h : l.Matches active) {next : Option Transfer} (hnext : next = active ∨ next = Option.none) :
    l.Matches next := by
  rcases hnext with rfl | rfl
  · exact h
  · exact .none l

theorem observe_transfer {α : Type} {call : Call} {answer : Except Exc α} {encode : α → Except Exc Bytes} :
    (observe active payload call answer encode).transfer = active := by
  unfold observe
  split <;> rfl

theorem sendKeysOperation_transfer : (sendKeysOperation env active payload).transfer = active := by
  unfold sendKeysOperation
  split <;> rfl

/-- A request keeps the ledger and the transfer in step, whatever its opcode and payload. -/
theorem Ledger.Matches.step (h : l.Matches active) {opcode : Opcode} {outcome : Outcome}
    (hrun : operate env active opcode payload = some outcome) :
    (l.record active ⟨env, opcode, id, payload⟩).Matches outcome.transfer := by
  cases opcode <;> simp only [operate, Option.some.injEq, reduceCtorEq] at hrun <;> subst hrun
  case getStatus => exact h.released (Or.inl observe_transfer)
  case getCapabilities => exact h.released (Or.inl observe_transfer)
  case captureTextScreen => exact h.released (Or.inl observe_transfer)
  case sendKeys => exact h.released (Or.inl sendKeysOperation_transfer)
  case ping => exact h
  case fileReadBegin => exact h.fileReadBegin
  case fileReadBlock => exact h.readBlock (by decide) (Or.inl rfl) rfl
  case fileReadEnd =>
    refine h.released ?_
    cases TransferEndRequest.decode payload with
    | error e => exact Or.inl rfl
    | ok request => exact endReadTransfer_transfer active request .fileRead
  case fileWriteBegin => exact h.fileWriteBegin
  case fileWriteBlock => exact h.writeBlock
  case fileWriteCommit =>
    refine h.released ?_
    cases TransferEndRequest.decode payload with
    | error e => exact Or.inl rfl
    | ok request => exact commitWriteTransfer_transfer env active request
  case fileAbort => exact h.released (fileAbort_transfer active payload)
  case graphicsBegin => exact h.graphicsBegin
  case graphicsBlock => exact h.readBlock (by decide) (Or.inr rfl) rfl
  case graphicsEnd =>
    refine h.released ?_
    cases TransferEndRequest.decode payload with
    | error e => exact Or.inl rfl
    | ok request => exact endReadTransfer_transfer active request .graphics

end

/-! ## Dispatched requests -/

theorem sendResponse_effect (s : UdpAgentServer) (session : Session) (kind : MessageKind) (opcode : Opcode)
    (requestId : Nat) (payload : Bytes) :
    (s.sendResponse session kind opcode requestId payload).server.transfer = s.transfer ∧
      (s.sendResponse session kind opcode requestId payload).calls = [] := by
  unfold UdpAgentServer.sendResponse
  split
  · exact ⟨rfl, rfl⟩
  · dsimp only
    split <;> exact ⟨rfl, rfl⟩

/-- What `_dispatch` leaves of the transfer and calls of the backend. -/
theorem dispatch_outcome (s : UdpAgentServer) (session : Session) (env : Env) (opcode : Opcode) (requestId : Nat)
    (payload : Bytes) :
    (s.dispatch session env opcode requestId payload).server.transfer =
        (match operate env s.transfer opcode payload with
          | none => s.transfer
          | some outcome => outcome.transfer) ∧
      ∀ call ∈ (s.dispatch session env opcode requestId payload).calls,
        ∃ outcome, operate env s.transfer opcode payload = some outcome ∧ call ∈ outcome.calls := by
  unfold UdpAgentServer.dispatch
  cases operate env s.transfer opcode payload with
  | none =>
    obtain ⟨htransfer, hcalls⟩ := sendResponse_effect s session .error opcode requestId
      (encodeError .unsupportedOperation "operation is not implemented")
    refine ⟨htransfer, fun call hcall => ?_⟩
    have hnone : call ∈ ([] : List Call) := hcalls ▸ hcall
    cases hnone
  | some outcome =>
    refine ⟨?_, fun call hcall => ⟨outcome, rfl, hcall⟩⟩
    dsimp only
    split
    · exact (sendResponse_effect _ _ _ _ _ _).1
    · split <;> exact (sendResponse_effect _ _ _ _ _ _).1

theorem ServedSession.matches_step {v : ServedSession} (h : v.ledger.Matches v.server.transfer) (r : Dispatched) :
    (v.step r).ledger.Matches (v.step r).server.transfer := by
  unfold ServedSession.step ServedSession.dispatch
  cases v.server.session with
  | none => exact h
  | some session =>
    obtain ⟨env, opcode, requestId, payload⟩ := r
    simp only [Option.map_some, (dispatch_outcome v.server session env opcode requestId payload).1]
    split
    · -- an operation that is not implemented
      rename_i hrun
      cases opcode <;> simp only [operate, reduceCtorEq] at hrun <;> exact h
    · rename_i outcome hrun
      exact h.step hrun

theorem ServedSession.matches_run (s : UdpAgentServer) (history : List Dispatched) :
    ((start s).run history).ledger.Matches ((start s).run history).server.transfer := by
  have hrun : ∀ v : ServedSession, v.ledger.Matches v.server.transfer →
      (v.run history).ledger.Matches (v.run history).server.transfer := by
    induction history with
    | nil => exact fun v h => h
    | cons r history ih => exact fun v h => ih (v.step r) (ServedSession.matches_step h r)
  exact hrun _ (Ledger.Matches.none _)

/-- Only `_commit_write_transfer` calls `upload_file`, with the complete upload. -/
theorem operate_uploadFile {env : Env} {active : Option Transfer} {opcode : Opcode} {payload : Bytes} {outcome : Outcome}
    (hrun : operate env active opcode payload = some outcome) {path : List Char} {data : Bytes} {overwrite : Bool}
    (hcall : .uploadFile path data overwrite ∈ outcome.calls) :
    ∃ t, active = some t ∧ t.kind = .fileWrite ∧ t.offset = t.expectedSize ∧ t.crc32 = t.expectedCrc32 ∧
      path = t.path ∧ data = t.data ∧ overwrite = t.overwrite := by
  cases opcode <;> simp only [operate, Option.some.injEq, reduceCtorEq] at hrun <;> subst hrun
  case fileWriteCommit =>
    unfold withRequest commitWriteTransfer at hcall
    split at hcall
    · cases hcall
    rename_i request _
    cases hreq : requireTransfer active request.transferId .fileWrite with
    | error e => simp [hreq] at hcall
    | ok t =>
      obtain ⟨hactive, -, hkind⟩ := requireTransfer_eq_ok hreq
      by_cases hbad : t.offset ≠ t.expectedSize ∨ t.crc32 ≠ t.expectedCrc32
      · simp [hreq, hbad] at hcall
      have heq : Call.uploadFile path data overwrite = .uploadFile t.path t.data t.overwrite := by
        simp only [hreq, hbad, if_false] at hcall
        repeat' split at hcall
        all_goals exact List.mem_singleton.mp hcall
      rw [not_or, not_not, not_not] at hbad
      cases heq
      exact ⟨t, hactive, hkind, hbad.1, hbad.2, rfl, rfl, rfl⟩
  -- the other operations make no such call
  all_goals
    exfalso
    simp only [observe, sendKeysOperation, fileReadBegin, fileWriteBegin, graphicsBegin, fileAbort, withRequest,
      readTransferBlock, endReadTransfer, writeTransferBlock] at hcall
    repeat' split at hcall
    all_goals simp at hcall

/-- An END that succeeds has handed out everything. -/
theorem operate_end_reply {env : Env} {active : Option Transfer} {opcode : Opcode} {payload bs : Bytes} {outcome : Outcome}
    (hop : opcode = .fileReadEnd ∨ opcode = .graphicsEnd) (hrun : operate env active opcode payload = some outcome)
    (hreply : outcome.reply = .ok bs) :
    ∃ t, active = some t ∧ t.kind ≠ .fileWrite ∧ t.offset = t.data.length := by
  have hend : ∃ request kind, kind ≠ TransferKind.fileWrite ∧ (endReadTransfer active request kind).reply = .ok bs := by
    rcases hop with rfl | rfl <;> simp only [operate, Option.some.injEq] at hrun <;> subst hrun
    · obtain ⟨request, -, h⟩ := withRequest_reply hreply
      exact ⟨request, .fileRead, by decide, h⟩
    · obtain ⟨request, -, h⟩ := withRequest_reply hreply
      exact ⟨request, .graphics, by decide, h⟩
  obtain ⟨request, kind, hkind, h⟩ := hend
  unfold endReadTransfer at h
  split at h
  · cases h
  rename_i t hreq
  obtain ⟨hactive, -, rfl⟩ := requireTransfer_eq_ok hreq
  split at h
  · cases h
  · rename_i hcomplete
    exact ⟨t, hactive, hkind, not_not.mp hcomplete⟩

/-- In every session, whatever its requests: an upload handed to the backend is the latest
    accepted one, block for block, with its declared size and checksum; what a read has handed
    out is a prefix of its data, and all of it where END succeeds. -/
theorem upload_matches_ledger (s : UdpAgentServer) (history : List Dispatched) (r : Dispatched) :
    let v := (ServedSession.start s).run history
    (∀ result path data overwrite, v.dispatch r = some result → .uploadFile path data overwrite ∈ result.calls →
        ∃ request, v.ledger.upload = some request ∧ path = cp437Decode request.path ∧ overwrite = request.overwrite ∧
          data = v.ledger.written ∧ data.length = request.totalSize ∧ crc32 data 0 = request.crc32) ∧
      (∀ t, v.server.transfer = some t → t.kind ≠ .fileWrite →
        t.data = v.ledger.source ∧ v.ledger.read = t.data.take t.offset) ∧
      (∀ bs, (r.opcode = .fileReadEnd ∨ r.opcode = .graphicsEnd) → r.response v.server.transfer = some bs →
        v.ledger.read = v.ledger.source) := by
  intro v
  have hmatch : v.ledger.Matches v.server.transfer := ServedSession.matches_run s history
  refine ⟨fun result path data overwrite hresult hcall => ?_, fun t ht hkind => ?_, fun bs hop hreply => ?_⟩
  · obtain ⟨session, -, rfl⟩ := Option.map_eq_some_iff.mp hresult
    obtain ⟨outcome, hrun, hcall⟩ := (dispatch_outcome v.server session r.env r.opcode r.requestId r.payload).2 _ hcall
    obtain ⟨t, ht, hkind, hoffset, hcrc, rfl, rfl, rfl⟩ := operate_uploadFile hrun hcall
    have hup := (hmatch t ht).uploads hkind
    obtain ⟨request, hreq, hpath, hover, hsize, hdeclared⟩ := hup.begun
    refine ⟨request, hreq, hpath, hover, hup.data_eq, ?_, ?_⟩
    · rw [← hup.offset_eq, hoffset, hsize]
    · rw [← hup.crc32_eq, hcrc, hdeclared]
  · have hread := (hmatch t ht).reads hkind
    exact ⟨hread.data_eq, hread.read_eq⟩
  · unfold Dispatched.response at hreply
    split at hreply
    · cases hreply
    rename_i outcome hrun
    have hok : outcome.reply = .ok bs := by
      cases hr : outcome.reply with
      | error e => simp [hr, Except.toOption] at hreply
      | ok bs' =>
        rw [hr] at hreply
        exact congrArg Except.ok (Option.some.inj hreply)
    obtain ⟨t, ht, hkind, hoffset⟩ := operate_end_reply hop hrun hok
    have hread := (hmatch t ht).reads hkind
    rw [hread.read_eq, hoffset, List.take_length, hread.data_eq]

/-! ## An upload -/

/-- A backend with one file that accepts every upload. -/
def fileBackend : Backend where
  getStatus := .error .other
  getCapabilities := .error .other
  captureScreen := .error .other
  captureGraphics := .error .other
  sendKeys := fun _ _ _ _ => .error .other
  downloadFile := fun _ => .ok ⟨[0x61, 0x62]⟩
  uploadFile := fun _ data _ => .ok ⟨data.length, crc32 data 0⟩

def fileEnv : Env := ⟨fileBackend, 1, 5⟩

def fileServer : UdpAgentServer :=
  { UdpAgentServer.start ⟨List.replicate 16 0, zeros_length⟩ false with
    session := some (.fresh ("10.0.0.2", 40000) 1 ⟨List.replicate 16 0, zeros_length⟩) }

/-- BEGIN for the file `A` of two bytes and its block `ab`. -/
def fileHistory : List Dispatched :=
  [⟨fileEnv, .fileWriteBegin, 2, [0, 2, 0, 0, 0, 0x6D, 0x48, 0x83, 0x9E, 1, 0x41]⟩,
    ⟨fileEnv, .fileWriteBlock, 3, [5, 0, 0, 0, 0, 0, 2, 0, 0x61, 0x62]⟩]

/-- COMMIT hands `ab` to the backend. -/
theorem upload_matches_ledger_file :
    ∃ request, ((ServedSession.start fileServer).run fileHistory).ledger.upload = some request ∧
      request.totalSize = 2 ∧ ((ServedSession.start fileServer).run fileHistory).ledger.written = [0x61, 0x62] := by
  have hcommit : (((ServedSession.start fileServer).run fileHistory).dispatch
      ⟨fileEnv, .fileWriteCommit, 4, [5, 0]⟩).any
        (fun result => decide (.uploadFile ['A'] [0x61, 0x62] false ∈ result.calls)) = true := by decide +kernel
  obtain ⟨result, hresult, hcall⟩ := (Option.any_eq_true _ _).mp hcommit
  obtain ⟨request, hrequest, -, -, hdata, hsize, -⟩ :=
    (upload_matches_ledger fileServer fileHistory ⟨fileEnv, .fileWriteCommit, 4, [5, 0]⟩).1
      result _ _ _ hresult (of_decide_eq_true hcall)
  exact ⟨request, hrequest, hsize.symm, hdata.symm⟩

end DosMcp
