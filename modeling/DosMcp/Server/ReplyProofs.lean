/-
  DosMcp.Server.ReplyProofs — what `_dispatch` answers, what it leaves of the transfer when that
  is an error, and the datagrams that `handle_datagram` raises on.

  - `TextScreen.encode_isOk_iff`, `graphicsBegin_isOk_iff`: the screens whose values fit their
    messages.
  - `operate_orderly`: an operation that raises leaves the transfer alone, but for BEGIN of a
    file or of a screen that its response cannot describe (`BeginsUnreported`).
  - `error_keeps_transfer_iff`: an error leaves the transfer alone in no other case.
  - `answer_length`: only a text screen can be an answer larger than a message.
  - `handle_datagram_returns_iff`: the server returns from every other datagram.
-/

import DosMcp.Server.TransferProofs

namespace DosMcp

open Lib

/-! ## Text screens -/

/-- `cells.extend((character, attribute))` for each cell. -/
def cellBytes (cells : List (UInt8 × UInt8)) : Bytes := cells.flatMap fun (character, value) => [character, value]

theorem cellBytes_cons (cell : UInt8 × UInt8) (cells : List (UInt8 × UInt8)) :
    cellBytes (cell :: cells) = cell.1 :: cell.2 :: cellBytes cells := rfl

theorem cellBytes_length (cells : List (UInt8 × UInt8)) : (cellBytes cells).length = cells.length * 2 := by
  induction cells with
  | nil => rfl
  | cons cell cells ih =>
    rw [cellBytes_cons, List.length_cons, List.length_cons, ih, List.length_cons]
    omega

/-- The cells of a row of the screen. -/
def rowCells (row : List Char × Bytes) : List (UInt8 × UInt8) := (cp437EncodeReplace row.1).zip row.2

namespace TextScreen

variable (s : TextScreen)

theorem row_lengths {row : List Char × Bytes} (h : row ∈ s.text.zip s.attributes) :
    (cp437EncodeReplace row.1).length = s.columns ∧ row.2.length = s.columns := by
  obtain ⟨htext, hattributes⟩ := List.of_mem_zip h
  exact ⟨(List.length_map _).trans (s.text_rows _ htext), s.attributes_rows _ hattributes⟩

theorem rowBytes_length : ∀ row ∈ s.text.zip s.attributes, (cellBytes (rowCells row)).length = s.columns * 2 := by
  intro row hrow
  obtain ⟨hc, ha⟩ := s.row_lengths hrow
  rw [cellBytes_length, rowCells, List.length_zip, hc, ha, Nat.min_self]

theorem rows_length : (s.text.zip s.attributes).length = s.rows := by
  rw [List.length_zip, s.text_length, s.attributes_length, Nat.min_self]

theorem cells_length : (screenCells s).length = s.columns * s.rows * 2 := by
  have hsum : ∀ n ∈ (s.text.zip s.attributes).map (fun row => (cellBytes (rowCells row)).length), n = s.columns * 2 := by
    intro n hn
    obtain ⟨row, hrow, rfl⟩ := List.mem_map.mp hn
    exact s.rowBytes_length row hrow
  have hcells : (screenCells s).length = ((s.text.zip s.attributes).map fun row => (cellBytes (rowCells row)).length).sum :=
    List.length_flatMap ..
  rw [hcells, List.eq_replicate_of_mem hsum, List.sum_replicate_nat, List.length_map, s.rows_length]
  ring

/-- The values of the screen fit the fields of its message. -/
structure Packs : Prop where
  columns_le : s.columns ≤ 255
  rows_le : s.rows ≤ 255
  videoMode_byte : ∀ v ∈ s.videoMode, 0 ≤ v ∧ v ≤ 255
  activePage_byte : 0 ≤ s.activePage ∧ s.activePage ≤ 255
  start_byte : ∀ v ∈ s.cursor.startScanline, 0 ≤ v ∧ v ≤ 255
  end_byte : ∀ v ∈ s.cursor.endScanline, 0 ≤ v ∧ v ≤ 255

end TextScreen

theorem getD_byte {v : Option Int} {d : Int} (hd : 0 ≤ d ∧ d ≤ 255) :
    (0 ≤ v.getD d ∧ v.getD d < 256) ↔ ∀ n ∈ v, 0 ≤ n ∧ n ≤ 255 := by
  cases v with
  | none =>
    simp only [Option.getD_none, Option.not_mem_none, false_implies, implies_true, iff_true]
    omega
  | some n =>
    simp only [Option.getD_some, Option.mem_some_iff, forall_eq']
    omega

/-- The screens the server can encode. -/
theorem TextScreen.encode_isOk_iff {s : TextScreen} : (∃ bs, (screenMessage s).encode = .ok bs) ↔ s.Packs := by
  have hgeneration : (s.generation % 0x10000).toNat < 65536 := by omega
  constructor
  · rintro ⟨bs, h⟩
    have hvalid : (screenMessage s).validate = .ok () := by
      simp only [ScreenMessage.encode, bind_eq_ok] at h
      exact h.choose_spec.1
    obtain ⟨⟨⟨-, hcolumns⟩, -, hrows⟩, -⟩ := ScreenMessage.validate_eq_ok.mp hvalid
    obtain ⟨hmode, hpage, hstart, hend, -⟩ := (ScreenMessage.encode_isOk_iff hvalid).mp ⟨bs, h⟩
    exact ⟨hcolumns, hrows, (getD_byte (by decide)).mp hmode, ⟨hpage.1, Int.le_of_lt_add_one hpage.2⟩,
      (getD_byte (by decide)).mp hstart, (getD_byte (by decide)).mp hend⟩
  · intro h
    have hvalid : (screenMessage s).validate = .ok () :=
      ScreenMessage.validate_eq_ok.mpr ⟨⟨⟨s.dimensions_pos.1, h.columns_le⟩, s.dimensions_pos.2, h.rows_le⟩,
        s.cells_length, s.cursor_row_lt, s.cursor_column_lt⟩
    exact (ScreenMessage.encode_isOk_iff hvalid).mpr
      ⟨(getD_byte (by decide)).mpr h.videoMode_byte,
        ⟨h.activePage_byte.1, Int.lt_add_one_of_le h.activePage_byte.2⟩, (getD_byte (by decide)).mpr h.start_byte,
        (getD_byte (by decide)).mpr h.end_byte, (by decide : 437 < 65536), hgeneration⟩

/-! ## Graphics screens -/

def GraphicsScreen.layout? (g : GraphicsScreen) : Option GraphicsLayout :=
  match g.layout with
  | "cga-2bpp-interleaved" => some .cga2bppInterleaved
  | "cga-1bpp-interleaved" => some .cga1bppInterleaved
  | "hercules-1bpp-interleaved" => some .hercules1bppInterleaved
  | "planar-4bpp" => some .planar4bpp
  | "planar-1bpp" => some .planar1bpp
  | "packed-8bpp" => some .packed8bpp
  | _ => none

/-- The BEGIN message of a screen; only its adapter is made up where the name is unknown. -/
theorem graphicsBeginMessage_eq (g : GraphicsScreen) : ∃ adapter, ∀ transferId, graphicsBeginMessage g transferId =
    match g.layout? with
    | none => .error .other
    | some layout => .ok
        { transferId := transferId, adapter := adapter, videoMode := g.videoMode, layout := layout, planes := g.planes,
          width := g.width, height := g.height, totalSize := g.data.length, bytesPerPlane := g.bytesPerPlane } :=
  ⟨_, fun _ => rfl⟩

/-- The layout has a number and the values fit the fields of the BEGIN message. -/
structure GraphicsScreen.Packs (g : GraphicsScreen) : Prop where
  layout_known : g.layout? ≠ none
  videoMode_byte : 0 ≤ g.videoMode ∧ g.videoMode ≤ 255
  width_lt : g.width < 256 ^ 2
  height_lt : g.height < 256 ^ 2
  data_lt : g.data.length < 256 ^ 4

theorem graphicsBegin_isOk_iff {g : GraphicsScreen} {transferId : Nat} (hid : transferId < 256 ^ 2) :
    (∃ bs, (graphicsBeginMessage g transferId >>= GraphicsBeginResponse.encode) = .ok bs) ↔ g.Packs := by
  have hplanes := g.planes_range
  have hle : g.bytesPerPlane ≤ g.data.length := by
    rw [g.data_length]
    exact Nat.le_mul_of_pos_left _ hplanes.1
  obtain ⟨adapter, hmessage⟩ := graphicsBeginMessage_eq g
  have hadapter : adapter.value < 256 := by cases adapter <;> decide
  rw [hmessage]
  cases hlayout : g.layout? with
  | none =>
    refine iff_of_false ?_ fun h => h.layout_known hlayout
    rintro ⟨bs, h⟩
    cases h
  | some layout =>
    have hvalue : layout.value < 256 := by cases layout <;> decide
    rw [ok_bind, GraphicsBeginResponse.encode, structPack_isOk_iff]
    simp only [List.forall_mem_cons, List.not_mem_nil, false_implies, implies_true, and_true]
    constructor
    · intro h
      exact ⟨hlayout ▸ nofun, by omega, by omega, by omega, by omega⟩
    · rintro ⟨-, hmode, hwidth, hheight, hdata⟩
      omega

/-! ## Answers -/

/-- The kind and payload of what `_dispatch` hands to `_send_response`. -/
def UdpAgentServer.answer (s : UdpAgentServer) (env : Env) (opcode : Opcode) (payload : Bytes) : MessageKind × Bytes :=
  match operate env s.transfer opcode payload with
  | none => (.error, encodeError .unsupportedOperation "operation is not implemented")
  | some outcome => match outcome.reply with
    | .ok response => (.response, response)
    | .error e => match e.valueText? with
      | some text => (.error, encodeError .invalidArgument text)
      | none => (.error, encodeError .internalFailure "target operation failed")

section

variable {s : UdpAgentServer} {session : Session} {env : Env} {opcode : Opcode} {requestId : Nat} {payload : Bytes}

/-- `_dispatch` sends its answer, whatever else it did. -/
theorem dispatch_answers (s : UdpAgentServer) (session : Session) (env : Env) (opcode : Opcode) (requestId : Nat) (payload : Bytes) :
    ∃ transfer calls, s.dispatch session env opcode requestId payload =
      { { s with transfer := transfer }.sendResponse session (s.answer env opcode payload).1 opcode requestId
          (s.answer env opcode payload).2 with
        dispatched := some ⟨opcode, requestId, payload⟩, calls := calls } := by
  unfold UdpAgentServer.dispatch UdpAgentServer.answer
  cases operate env s.transfer opcode payload with
  | none => exact ⟨s.transfer, _, rfl⟩
  | some outcome =>
    refine ⟨outcome.transfer, outcome.calls, ?_⟩
    dsimp only
    cases outcome.reply with
    | ok response => rfl
    | error e =>
      dsimp only
      cases e.valueText? <;> rfl

theorem sendResponse_raised {kind : MessageKind} (hs : session.sessionId ≤ 0xFFFF) (hr : requestId ≤ 0xFFFF) :
    (s.sendResponse session kind opcode requestId payload).raised = none ↔ payload.length ≤ maxMessageSize := by
  by_cases hp : payload.length ≤ maxMessageSize
  · obtain ⟨packets, -, -, -, -, -, -, hraised, -⟩ := sendResponse_recorded kind opcode hs hr hp
    exact iff_of_true hraised hp
  · refine iff_of_false ?_ hp
    rw [UdpAgentServer.sendResponse, fragmentMessage_error (not_le.mp hp)]
    intro hnone
    cases hnone

/-- A dispatched request raises where its answer is larger than a message. -/
theorem dispatch_raised (hs : session.sessionId ≤ 0xFFFF) (hr : requestId ≤ 0xFFFF) :
    (s.dispatch session env opcode requestId payload).raised = none ↔
      (s.answer env opcode payload).2.length ≤ maxMessageSize := by
  obtain ⟨transfer, calls, heq⟩ := dispatch_answers s session env opcode requestId payload
  rw [heq]
  exact sendResponse_raised hs hr

/-- The backend has a screen that packs and is larger than a message. -/
def Env.Oversized (env : Env) : Prop :=
  ∃ screen, env.backend.captureScreen = .ok screen ∧ screen.Packs ∧ 13 + 2 * screen.columns * screen.rows > 32768

theorem answer_short (hreply : ∀ outcome bs, operate env s.transfer opcode payload = some outcome → outcome.reply = .ok bs →
    bs.length ≤ maxMessageSize) : (s.answer env opcode payload).2.length ≤ maxMessageSize := by
  have herror : ∀ code message, (encodeError code message).length ≤ maxMessageSize := fun code message =>
    (encodeError_length code message).trans (by decide)
  unfold UdpAgentServer.answer
  split
  · exact herror _ _
  · rename_i outcome ho
    split
    · rename_i bs hbs
      exact hreply outcome bs ho hbs
    · split <;> exact herror _ _

/-- A response is what the operation replied. -/
theorem reply_of_answer {response : Bytes} (h : s.answer env opcode payload = (.response, response)) :
    ∃ outcome, operate env s.transfer opcode payload = some outcome ∧ outcome.reply = .ok response := by
  unfold UdpAgentServer.answer at h
  split at h
  · cases h
  · rename_i outcome ho
    refine ⟨outcome, ho, ?_⟩
    split at h
    · rename_i bs hbs
      cases h
      exact hbs
    · split at h <;> cases h

theorem answer_capture {screen : TextScreen} {bs : Bytes} (hcapture : env.backend.captureScreen = .ok screen)
    (hencode : (screenMessage screen).encode = .ok bs) : s.answer env .captureTextScreen [] = (.response, bs) := by
  have hreply : (observe s.transfer [] .captureScreen env.backend.captureScreen fun screen => (screenMessage screen).encode).reply =
      .ok bs := by
    rw [hcapture]
    exact hencode
  simp only [UdpAgentServer.answer, operate, hreply]

/-- Only a text screen can be larger than a message. -/
theorem answer_length (hp : payload.length ≤ maxMessageSize) :
    (s.answer env opcode payload).2.length ≤ maxMessageSize ↔ ¬ (opcode = .captureTextScreen ∧ payload = [] ∧ env.Oversized) := by
  constructor
  · rintro hle ⟨rfl, rfl, screen, hcapture, hpacks, hsize⟩
    obtain ⟨bs, hbs⟩ := TextScreen.encode_isOk_iff.mpr hpacks
    rw [answer_capture hcapture hbs] at hle
    exact absurd ((ScreenMessage.encode_length hbs).symm.trans_le hle) (not_le.mpr hsize)
  · refine fun hno => answer_short fun outcome bs ho hbs => ?_
    by_cases hcapture : opcode = .captureTextScreen
    · subst hcapture
      cases ho
      obtain ⟨screen, hscreen, hencode⟩ := observe_reply hbs
      by_contra hsize
      refine hno ⟨rfl, ?_, screen, hscreen, TextScreen.encode_isOk_iff.mp ⟨bs, hencode⟩, ?_⟩
      · by_contra hne
        simp only [observe, requireEmpty, raiseIf, hne, ne_eq, not_false_eq_true, if_true] at hbs
        cases hbs
      · exact (ScreenMessage.encode_length hencode).symm.trans_gt (not_le.mp hsize)
    · by_cases hping : opcode = .ping
      · subst hping
        cases ho
        cases hbs
        exact hp
      · exact (operate_reply_short hcapture hping ho hbs).trans (by decide)

end

/-! ## Errors and the transfer -/

/-- The rolling CRC of the transfer is one of `zlib.crc32`. -/
def CrcFits (active : Option Transfer) : Prop := ∀ t, active = some t → t.crc32 < 256 ^ 4

/-- An operation that raised has left the transfer alone. -/
structure Outcome.Orderly (active : Option Transfer) (o : Outcome) : Prop where
  kept : ∀ e, o.reply = .error e → o.transfer = active
  crc_fits : CrcFits o.transfer

section

variable {env : Env} {active : Option Transfer} {payload : Bytes}

theorem orderly_of_keeps {o : Outcome} (h : CrcFits active) (ho : o.transfer = active) : o.Orderly active :=
  ⟨fun _ _ => ho, ho ▸ h⟩

/-- An operation that replied. -/
theorem orderly_of_reply {reply : Except Exc Bytes} {bs : Bytes} {transfer : Transfer} {calls : List Call} (hreply : reply = .ok bs)
    (hcrc : transfer.crc32 < 256 ^ 4) : Outcome.Orderly active ⟨reply, some transfer, calls⟩ := by
  subst hreply
  refine ⟨nofun, fun t ht => ?_⟩
  cases ht
  exact hcrc

theorem orderly_withRequest {α : Type} {request : Except Exc α} {run : α → Outcome} (h : CrcFits active)
    (hrun : ∀ r, request = .ok r → (run r).Orderly active) : (withRequest active request run).Orderly active := by
  cases request with
  | error e => exact orderly_of_keeps h rfl
  | ok r => exact hrun r rfl

theorem orderly_readTransferBlock (h : CrcFits active) {kind : TransferKind} {request : TransferBlockRequest}
    (hrequest : TransferBlockRequest.decode payload false = .ok request) : (readTransferBlock active request kind).Orderly active := by
  obtain ⟨hid, hoffset, -, hlength, -⟩ := TransferBlockRequest.decode_eq_ok hrequest
  unfold readTransferBlock
  cases hrequired : requireTransfer active request.transferId kind with
  | error e => exact orderly_of_keeps h rfl
  | ok transfer =>
    obtain ⟨rfl, heq, -⟩ := requireTransfer_eq_ok hrequired
    dsimp only
    split
    · exact orderly_of_keeps h rfl
    · have hblock : (slice transfer.data transfer.offset request.length).length ≤ maxTransferBlock := by
        rw [slice_length]
        omega
      have hcrc : crc32 (slice transfer.data transfer.offset request.length) transfer.crc32 < 256 ^ 4 := crc32_lt _ (h transfer rfl)
      obtain ⟨bs, hbs⟩ := TransferBlockResponse.encode_isOk (heq ▸ hid) hoffset hblock hcrc
      exact orderly_of_reply hbs hcrc

theorem orderly_writeTransferBlock (h : CrcFits active) {request : TransferBlockRequest}
    (hrequest : TransferBlockRequest.decode payload true = .ok request) : (writeTransferBlock active request).Orderly active := by
  obtain ⟨hid, hoffset, -⟩ := TransferBlockRequest.decode_eq_ok hrequest
  unfold writeTransferBlock
  cases hrequired : requireTransfer active request.transferId .fileWrite with
  | error e => exact orderly_of_keeps h rfl
  | ok transfer =>
    obtain ⟨rfl, heq, -⟩ := requireTransfer_eq_ok hrequired
    dsimp only
    split
    · exact orderly_of_keeps h rfl
    · have hnil : ([] : Bytes).length ≤ maxTransferBlock := Nat.zero_le _
      have hcrc : crc32 request.data transfer.crc32 < 256 ^ 4 := crc32_lt _ (h transfer rfl)
      obtain ⟨bs, hbs⟩ := TransferBlockResponse.encode_isOk (heq ▸ hid) hoffset hnil hcrc
      exact orderly_of_reply hbs hcrc

theorem orderly_endReadTransfer (h : CrcFits active) (request : TransferEndRequest) (kind : TransferKind) :
    (endReadTransfer active request kind).Orderly active := by
  unfold endReadTransfer
  split
  · exact orderly_of_keeps h rfl
  split
  · exact orderly_of_keeps h rfl
  split
  · exact orderly_of_keeps h rfl
  · exact ⟨nofun, nofun⟩

theorem orderly_commitWriteTransfer (h : CrcFits active) (request : TransferEndRequest) :
    (commitWriteTransfer env active request).Orderly active := by
  unfold commitWriteTransfer
  split
  · exact orderly_of_keeps h rfl
  split
  · exact orderly_of_keeps h rfl
  dsimp only
  split
  · exact orderly_of_keeps h rfl
  split
  · exact orderly_of_keeps h rfl
  · exact ⟨nofun, nofun⟩

theorem orderly_fileAbort (h : CrcFits active) : (fileAbort active payload).Orderly active := by
  unfold fileAbort
  split
  · exact orderly_of_keeps h rfl
  split
  · exact ⟨nofun, nofun⟩
  · refine ⟨nofun, fun t ht => ?_⟩
    split_ifs at ht
    exact h t ht

theorem orderly_fileWriteBegin (h : CrcFits active) : (fileWriteBegin env active payload).Orderly active := by
  unfold fileWriteBegin
  split
  · exact orderly_of_keeps h rfl
  split
  · exact orderly_of_keeps h rfl
  rename_i request _ hsize
  cases hstart : startTransfer env active .fileWrite [] with
  | error e => exact orderly_of_keeps h rfl
  | ok transfer =>
    obtain ⟨-, -, hid, -, -, -, hcrc⟩ := startTransfer_eq_ok hstart
    have hmax : maxUploadSize = 1048576 := rfl
    have hlt : request.totalSize < 256 ^ 4 := by omega
    obtain ⟨bs, hbs⟩ := (TransferBeginResponse.encode_isOk_iff (m := ⟨transfer.transferId, request.totalSize⟩)).mpr ⟨hid, hlt⟩
    exact orderly_of_reply hbs (hcrc.trans_lt (by decide))

/-- BEGIN of a file or of a screen that no BEGIN response can describe. -/
def BeginsUnreported (env : Env) (active : Option Transfer) (opcode : Opcode) (payload : Bytes) : Prop :=
  active = none ∧
    ((opcode = .fileReadBegin ∧ ∃ request contents, FileReadBeginRequest.decode payload = .ok request ∧
        env.backend.downloadFile (cp437Decode request.path) = .ok contents ∧ ¬ contents.data.length < 256 ^ 4) ∨
      (opcode = .graphicsBegin ∧ payload = [] ∧ ∃ graphics, env.backend.captureGraphics = .ok graphics ∧ ¬ graphics.Packs))

theorem fileReadBegin_orderly (h : CrcFits active) (hno : ¬ BeginsUnreported env active .fileReadBegin payload) :
    (fileReadBegin env active payload).Orderly active := by
  unfold fileReadBegin
  cases hrequest : FileReadBeginRequest.decode payload with
  | error e => exact orderly_of_keeps h rfl
  | ok request =>
    dsimp only
    cases hcontents : env.backend.downloadFile (cp437Decode request.path) with
    | error e => exact orderly_of_keeps h rfl
    | ok contents =>
      dsimp only
      cases hstart : startTransfer env active .fileRead contents.data with
      | error e => exact orderly_of_keeps h rfl
      | ok transfer =>
        obtain ⟨hnone, -, hid, -, hdata, -, hcrc⟩ := startTransfer_eq_ok hstart
        have hsize : contents.data.length < 256 ^ 4 := by
          by_contra hlarge
          exact hno ⟨hnone, Or.inl ⟨rfl, request, contents, hrequest, hcontents, hlarge⟩⟩
        obtain ⟨bs, hbs⟩ := (TransferBeginResponse.encode_isOk_iff (m := ⟨transfer.transferId, transfer.data.length⟩)).mpr
          ⟨hid, hdata ▸ hsize⟩
        exact orderly_of_reply hbs (hcrc.trans_lt (by decide))

theorem graphicsBegin_orderly (h : CrcFits active) (hno : ¬ BeginsUnreported env active .graphicsBegin payload) :
    (graphicsBegin env active payload).Orderly active := by
  unfold graphicsBegin
  cases hempty : requireEmpty payload with
  | error e => exact orderly_of_keeps h rfl
  | ok u =>
    dsimp only
    cases hgraphics : env.backend.captureGraphics with
    | error e => exact orderly_of_keeps h rfl
    | ok graphics =>
      dsimp only
      cases hstart : startTransfer env active .graphics graphics.data with
      | error e => exact orderly_of_keeps h rfl
      | ok transfer =>
        obtain ⟨hnone, -, hid, -, -, -, hcrc⟩ := startTransfer_eq_ok hstart
        have hpacks : graphics.Packs := by
          by_contra hnot
          have hnil : payload = [] := not_not.mp (raiseIf_eq_ok.mp hempty)
          exact hno ⟨hnone, Or.inr ⟨rfl, hnil, graphics, hgraphics, hnot⟩⟩
        obtain ⟨bs, hbs⟩ := (graphicsBegin_isOk_iff hid).mpr hpacks
        exact orderly_of_reply hbs (hcrc.trans_lt (by decide))

theorem operate_orderly (h : CrcFits active) {opcode : Opcode} (hno : ¬ BeginsUnreported env active opcode payload)
    {outcome : Outcome} (hrun : operate env active opcode payload = some outcome) : outcome.Orderly active := by
  cases opcode <;> simp only [operate, Option.some.injEq, reduceCtorEq] at hrun <;> subst hrun
  case getStatus => exact orderly_of_keeps h observe_transfer
  case getCapabilities => exact orderly_of_keeps h observe_transfer
  case captureTextScreen => exact orderly_of_keeps h observe_transfer
  case sendKeys => exact orderly_of_keeps h sendKeysOperation_transfer
  case ping => exact orderly_of_keeps h rfl
  case fileReadBegin => exact fileReadBegin_orderly h hno
  case fileReadBlock => exact orderly_withRequest h fun r hr => orderly_readTransferBlock h hr
  case fileReadEnd => exact orderly_withRequest h fun r _ => orderly_endReadTransfer h r _
  case fileWriteBegin => exact orderly_fileWriteBegin h
  case fileWriteBlock => exact orderly_withRequest h fun r hr => orderly_writeTransferBlock h hr
  case fileWriteCommit => exact orderly_withRequest h fun r _ => orderly_commitWriteTransfer h r
  case fileAbort => exact orderly_fileAbort h
  case graphicsBegin => exact graphicsBegin_orderly h hno
  case graphicsBlock => exact orderly_withRequest h fun r hr => orderly_readTransferBlock h hr
  case graphicsEnd => exact orderly_withRequest h fun r _ => orderly_endReadTransfer h r _

/-- The transfer such a BEGIN has started stays, and its reply is an error. -/
theorem operate_unreported {opcode : Opcode} (h : BeginsUnreported env active opcode payload) :
    ∃ e transfer calls, operate env active opcode payload = some ⟨.error e, some transfer, calls⟩ ∧ transfer.crc32 = 0 := by
  obtain ⟨rfl, ⟨rfl, request, contents, hrequest, hcontents, hsize⟩ | ⟨rfl, rfl, graphics, hgraphics, hpacks⟩⟩ := h
  · obtain ⟨transfer, hstart⟩ : ∃ t, startTransfer env none .fileRead contents.data = .ok t := ⟨_, rfl⟩
    obtain ⟨-, -, -, -, hdata, -, hcrc⟩ := startTransfer_eq_ok hstart
    have hreply : ∀ bs, TransferBeginResponse.encode ⟨transfer.transferId, transfer.data.length⟩ ≠ .ok bs := fun bs hbs =>
      hsize (hdata ▸ (TransferBeginResponse.encode_isOk_iff.mp ⟨bs, hbs⟩).2)
    simp only [operate, fileReadBegin, hrequest, hcontents, hstart]
    cases he : TransferBeginResponse.encode ⟨transfer.transferId, transfer.data.length⟩ with
    | ok bs => exact absurd he (hreply bs)
    | error e => exact ⟨e, transfer, _, rfl, hcrc⟩
  · obtain ⟨transfer, hstart⟩ : ∃ t, startTransfer env none .graphics graphics.data = .ok t := ⟨_, rfl⟩
    obtain ⟨-, -, hid, -, -, -, hcrc⟩ := startTransfer_eq_ok hstart
    have hempty : requireEmpty [] = .ok () := rfl
    simp only [operate, graphicsBegin, hempty, hgraphics, hstart]
    cases he : graphicsBeginMessage graphics transfer.transferId >>= GraphicsBeginResponse.encode with
    | ok bs => exact absurd ((graphicsBegin_isOk_iff hid).mp ⟨bs, he⟩) hpacks
    | error e => exact ⟨e, transfer, _, rfl, hcrc⟩

end

/-! ## Datagrams -/

/-- The datagram reaches the replay check as the packet. -/
structure UdpAgentServer.Accepts (s : UdpAgentServer) (d : Bytes) (address : Address) (session : Session) (packet : Packet) :
    Prop where
  session_eq : s.session = some session
  address_eq : session.address = address
  length_le : d.length ≤ maxDatagram
  decodes : Packet.decode d session.key = .ok packet
  kind_eq : packet.kind = .request
  sessionId_eq : packet.sessionId = session.sessionId

/-- The datagram is the last one that the request was missing. -/
def UdpAgentServer.Completes (s : UdpAgentServer) (d : Bytes) (address : Address) (r : Dispatch) : Prop :=
  ∃ session packet, s.Accepts d address session packet ∧ session.responseCache.has packet.requestId = false ∧
    session.refuses packet.requestId = false ∧ (session.gathered packet).length = packet.fragmentCount ∧
    r.opcode = packet.opcode ∧ r.requestId = packet.requestId ∧
    reassemblePackets (session.gathered packet).values = .ok r.payload

section

variable (s : UdpAgentServer) (env : Env) (d : Bytes) (address : Address)

theorem handleHello_cases : s.handleHello env d address = s.idle ∨
    ∃ session : Session, (1 ≤ session.sessionId ∧ session.sessionId ≤ 0xFFFF) ∧ (s.handleHello env d address).raised = none ∧
      (s.handleHello env d address).server = { s with session := some session, transfer := none } := by
  cases hdecode : Packet.decode d s.key with
  | error e => exact Or.inl (by rw [UdpAgentServer.handleHello, hdecode])
  | ok packet =>
    cases hrequest : HelloRequest.decode packet.payload with
    | error e => exact Or.inl (by simp only [UdpAgentServer.handleHello, hdecode, hrequest])
    | ok request =>
      rw [handleHello_eq env address hdecode hrequest]
      exact Or.inr ⟨_, helloSessionId_range request.clientNonce env.serverNonce, rfl, rfl⟩

/-- A datagram is dropped, or opens a session, or reaches the replay check. -/
theorem handleDatagram_cases : s.handleDatagram env d address = s.idle ∨
    (∃ session : Session, (1 ≤ session.sessionId ∧ session.sessionId ≤ 0xFFFF) ∧ (s.handleDatagram env d address).raised = none ∧
      (s.handleDatagram env d address).server = { s with session := some session, transfer := none }) ∨
    ∃ session packet, s.Accepts d address session packet ∧
      s.handleDatagram env d address = s.handlePacket session env packet.requestId packet := by
  unfold UdpAgentServer.handleDatagram
  split
  · exact Or.inl rfl
  rename_i hsize
  dsimp only
  split
  · exact Or.inl rfl
  rename_i hkind
  split
  · exact (handleHello_cases s env d address).imp_right Or.inl
  split
  · exact Or.inl rfl
  rename_i session hsession
  split
  · exact Or.inl rfl
  rename_i hpeer
  rw [not_or, not_not, not_not] at hpeer
  split
  · exact Or.inl rfl
  rename_i packet hdecode
  have hheader : unpackHeader d = packet.header session.key := by
    rcases Packet.encode_of_decode hdecode with rfl | rfl
    · simpa using packet.unpackHeader_encode session.key []
    · exact packet.unpackHeader_encode session.key [0]
  rw [hheader] at hkind hpeer ⊢
  exact Or.inr (Or.inr ⟨session, packet, ⟨hsession, hpeer.1, by omega, hdecode, MessageKind.value_inj (not_not.mp hkind),
    hpeer.2.symm⟩, rfl⟩)

end

/-! ## Reachable servers -/

/-- The servers after any datagrams, from any addresses, under any answers of the outside. -/
inductive UdpAgentServer.Reached (key : Key) (dropFirstResponse : Bool) : UdpAgentServer → Prop
  | start : Reached key dropFirstResponse (.start key dropFirstResponse)
  | datagram {s : UdpAgentServer} (env : Env) (d : Bytes) (address : Address) :
    Reached key dropFirstResponse s → Reached key dropFirstResponse (s.handleDatagram env d address).server

/-- The session ID fits its field and is not the one of HELLO; the rolling CRC fits its own. -/
structure UdpAgentServer.Sized (s : UdpAgentServer) : Prop where
  sessionId_range : ∀ session, s.session = some session → 1 ≤ session.sessionId ∧ session.sessionId ≤ 0xFFFF
  crc_fits : CrcFits s.transfer

section

variable {s : UdpAgentServer} {session : Session} {env : Env}

theorem operate_crcFits {active : Option Transfer} (h : CrcFits active) {opcode : Opcode} {payload : Bytes} {outcome : Outcome}
    (hrun : operate env active opcode payload = some outcome) : CrcFits outcome.transfer := by
  by_cases hbegin : BeginsUnreported env active opcode payload
  · obtain ⟨e, transfer, calls, hunreported, hcrc⟩ := operate_unreported hbegin
    rw [hunreported] at hrun
    cases hrun
    intro t ht
    cases ht
    exact hcrc.trans_lt (by decide)
  · exact (operate_orderly h hbegin hrun).crc_fits

theorem Session.Replied.sessionId_range {requestId : Nat} {r : Result} (h : session.Replied requestId r)
    (hid : 1 ≤ session.sessionId ∧ session.sessionId ≤ 0xFFFF) :
    ∀ v, r.server.session = some v → 1 ≤ v.sessionId ∧ v.sessionId ≤ 0xFFFF := by
  intro v hv
  obtain ⟨-, hsession⟩ | ⟨-, encoded, hsession⟩ := h
  · rw [hsession] at hv
    cases hv
    exact hid
  · rw [hsession] at hv
    cases hv
    exact hid

theorem UdpAgentServer.Sized.dispatch (h : s.Sized) (hid : 1 ≤ session.sessionId ∧ session.sessionId ≤ 0xFFFF) (opcode : Opcode)
    (requestId : Nat) (payload : Bytes) : (s.dispatch session env opcode requestId payload).server.Sized := by
  refine ⟨(dispatch_replied s session env opcode requestId payload).2.sessionId_range hid, ?_⟩
  rw [(dispatch_outcome s session env opcode requestId payload).1]
  cases hrun : operate env s.transfer opcode payload with
  | none => exact h.crc_fits
  | some outcome => exact operate_crcFits h.crc_fits hrun

theorem UdpAgentServer.Sized.handlePacket (h : s.Sized) (hsession : s.session = some session) (packet : Packet) :
    (s.handlePacket session env packet.requestId packet).server.Sized := by
  have hid := h.sessionId_range session hsession
  obtain ⟨-, heq⟩ | ⟨-, -, heq⟩ | ⟨-, -, table, heq⟩ | ⟨-, -, table, payload, -, heq⟩ := handlePacket_cases s session env packet
  · rw [heq]
    exact h
  · rw [heq]
    have heffect := (sendResponse_effect s session .error packet.opcode packet.requestId
      (encodeError .replayedRequest "request ID is outside the replay window")).1
    exact ⟨(sendResponse_replied s session _ _ _ _).2.sessionId_range hid, heffect.symm ▸ h.crc_fits⟩
  · rw [heq]
    refine ⟨fun v hv => ?_, h.crc_fits⟩
    cases hv
    exact hid
  · rw [heq]
    have hsized : UdpAgentServer.Sized { s with session := some { session with pending := table } } := by
      refine ⟨fun v hv => ?_, h.crc_fits⟩
      cases hv
      exact hid
    exact hsized.dispatch (hsized.sessionId_range _ rfl) packet.opcode packet.requestId payload

theorem UdpAgentServer.Sized.handleDatagram (h : s.Sized) (env : Env) (d : Bytes) (address : Address) :
    (s.handleDatagram env d address).server.Sized := by
  obtain heq | ⟨session, hid, -, heq⟩ | ⟨session, packet, haccepts, heq⟩ := handleDatagram_cases s env d address
  · rw [heq]
    exact h
  · rw [heq]
    refine ⟨fun v hv => ?_, nofun⟩
    cases hv
    exact hid
  · rw [heq]
    exact h.handlePacket haccepts.session_eq packet

theorem UdpAgentServer.Reached.sized {key : Key} {drop : Bool} (h : Reached key drop s) : s.Sized := by
  induction h with
  | start => exact ⟨nofun, nofun⟩
  | datagram env d address _ ih => exact ih.handleDatagram env d address

end

/-! ## Errors -/

/-- In a server that can be reached, `_dispatch` sends its answer; where that is an error the
    transfer is the one from before, unless a BEGIN has started what it could not report. -/
theorem error_keeps_transfer_iff {key : Key} {drop : Bool} {s : UdpAgentServer} (h : s.Reached key drop) (session : Session)
    (env : Env) (opcode : Opcode) (requestId : Nat) (payload : Bytes) :
    (∃ transfer calls, s.dispatch session env opcode requestId payload =
      { { s with transfer := transfer }.sendResponse session (s.answer env opcode payload).1 opcode requestId
          (s.answer env opcode payload).2 with
        dispatched := some ⟨opcode, requestId, payload⟩, calls := calls }) ∧
      (((s.answer env opcode payload).1 = .error →
          (s.dispatch session env opcode requestId payload).server.transfer = s.transfer) ↔
        ¬ BeginsUnreported env s.transfer opcode payload) := by
  refine ⟨dispatch_answers s session env opcode requestId payload, ?_⟩
  rw [(dispatch_outcome s session env opcode requestId payload).1]
  constructor
  · intro hkept hbegin
    obtain ⟨e, transfer, calls, hrun, -⟩ := operate_unreported hbegin
    have herror : (s.answer env opcode payload).1 = .error := by
      simp only [UdpAgentServer.answer, hrun]
      cases e.valueText? <;> rfl
    have hsame := hkept herror
    rw [hrun, hbegin.1] at hsame
    cases hsame
  · intro hno herror
    cases hrun : operate env s.transfer opcode payload with
    | none => rfl
    | some outcome =>
      have horderly := operate_orderly h.sized.crc_fits hno hrun
      cases hreply : outcome.reply with
      | error e => exact horderly.kept e hreply
      | ok response =>
        simp only [UdpAgentServer.answer, hrun, hreply] at herror
        cases herror

def freshServer : UdpAgentServer := .start ⟨List.replicate 16 0, zeros_length⟩ false

def freshSession : Session := .fresh ("10.0.0.2", 40000) 1 ⟨List.replicate 16 0, zeros_length⟩

/-- END without a transfer. -/
theorem error_keeps_transfer_iff_end :
    (freshServer.answer fileEnv .fileReadEnd [1, 0]).1 = .error ∧
      (freshServer.dispatch freshSession fileEnv .fileReadEnd 2 [1, 0]).server.transfer = none := by
  have herror : (freshServer.answer fileEnv .fileReadEnd [1, 0]).1 = .error := by decide +kernel
  refine ⟨herror, (error_keeps_transfer_iff .start freshSession fileEnv .fileReadEnd 2 [1, 0]).2.mpr ?_ herror⟩
  rintro ⟨-, ⟨hopcode, -⟩ | ⟨hopcode, -⟩⟩
  · cases hopcode
  · cases hopcode

/-- A screen in a layout that the protocol has no number for. -/
def modeX : GraphicsScreen where
  adapter := "VGA"
  videoMode := 0x13
  layout := "vga-mode-x"
  width := 4
  height := 1
  planes := 4
  bytesPerPlane := 1
  data := [0, 1, 2, 3]
  dimensions_pos := by decide
  planes_range := by decide
  bytesPerPlane_pos := GraphicsScreen.one_pos
  data_length := rfl

def modeXEnv : Env := ⟨{ fileBackend with captureGraphics := .ok modeX }, 1, 5⟩

theorem mode_x_left_active : freshServer.transfer = none ∧ (freshServer.answer modeXEnv .graphicsBegin []).1 = .error ∧
    ((freshServer.dispatch freshSession modeXEnv .graphicsBegin 2 []).server.transfer.map (·.data)) = some [0, 1, 2, 3] := by
  refine ⟨rfl, by decide +kernel, ?_⟩
  rw [(dispatch_outcome freshServer freshSession modeXEnv .graphicsBegin 2 []).1]
  rfl

/-! ## Datagrams that raise -/

section

variable {s : UdpAgentServer} {session : Session} {env : Env} {packet : Packet} {payload : Bytes}

/-- What is left of the session when a request has been reassembled. -/
def Session.taken (session : Session) (packet : Packet) : Session :=
  { session with pending := (session.stored packet).erase packet.requestId }

theorem handlePacket_completed (hcached : session.responseCache.has packet.requestId = false)
    (hfresh : session.refuses packet.requestId = false) (hfull : (session.gathered packet).length = packet.fragmentCount)
    (hpayload : reassemblePackets (session.gathered packet).values = .ok payload) :
    s.handlePacket session env packet.requestId packet =
      { s with session := some (session.taken packet) }.dispatch (session.taken packet) env packet.opcode packet.requestId payload := by
  simp only [UdpAgentServer.handlePacket, hcached, hfresh, Bool.false_eq_true, if_false, UdpAgentServer.acceptFragment,
    ← Session.gathered.eq_def, ← Session.stored.eq_def, hfull, ne_eq, not_true_eq_false, hpayload, Session.taken]

/-- A packet that raises has completed a request whose answer is too large. -/
theorem handlePacket_raised (hid : session.sessionId ≤ 0xFFFF) (hraised : (s.handlePacket session env packet.requestId packet).raised ≠ none) :
    session.responseCache.has packet.requestId = false ∧ session.refuses packet.requestId = false ∧
      (session.gathered packet).length = packet.fragmentCount ∧ packet.opcode = .captureTextScreen ∧
      reassemblePackets (session.gathered packet).values = .ok [] ∧ env.Oversized := by
  cases hcached : session.responseCache.has packet.requestId with
  | true => exact absurd (by simp only [UdpAgentServer.handlePacket, hcached]; rfl) hraised
  | false =>
    cases hfresh : session.refuses packet.requestId with
    | true =>
      refine absurd ?_ hraised
      simp only [UdpAgentServer.handlePacket, hcached, hfresh, Bool.false_eq_true, if_false, if_true]
      exact (sendResponse_raised hid packet.requestId_le).mpr ((encodeError_length _ _).trans (by decide))
    | false =>
      by_cases hfull : (session.gathered packet).length = packet.fragmentCount
      · cases hpayload : reassemblePackets (session.gathered packet).values with
        | error e =>
          refine absurd ?_ hraised
          simp only [UdpAgentServer.handlePacket, hcached, hfresh, Bool.false_eq_true, if_false, UdpAgentServer.acceptFragment,
            ← Session.gathered.eq_def, hfull, ne_eq, not_true_eq_false, hpayload]
          rfl
        | ok payload =>
          have htaken : (session.taken packet).sessionId ≤ 0xFFFF := hid
          rw [handlePacket_completed hcached hfresh hfull hpayload] at hraised
          rw [ne_eq, dispatch_raised htaken packet.requestId_le, answer_length (reassemblePackets_length hpayload), not_not] at hraised
          obtain ⟨hopcode, rfl, hscreen⟩ := hraised
          exact ⟨rfl, rfl, hfull, hopcode, rfl, hscreen⟩
      · refine absurd ?_ hraised
        simp only [UdpAgentServer.handlePacket, hcached, hfresh, Bool.false_eq_true, if_false, UdpAgentServer.acceptFragment,
          ← Session.gathered.eq_def, hfull, ne_eq, not_false_eq_true, if_true]
        rfl

end

/-- In a server that can be reached, `handle_datagram` returns unless the datagram completes a
    request for a text screen that packs and is larger than a message. The exceptions it
    handles are all that decoding and reassembly raise. -/
theorem handle_datagram_returns_iff {key : Key} {drop : Bool} {s : UdpAgentServer} (h : s.Reached key drop) (env : Env)
    (d : Bytes) (address : Address) :
    ((s.handleDatagram env d address).raised = none ↔
      ¬ ((∃ requestId, s.Completes d address ⟨.captureTextScreen, requestId, []⟩) ∧ env.Oversized)) ∧
      (∀ k e, Packet.decode d k = .error e → ∃ text, e = .packetError text) ∧
      (∀ payload e, HelloRequest.decode payload = .error e → ∃ text, e = .valueError text) ∧
      ∀ values e, reassemblePackets values = .error e → ∃ text, e = .packetError text := by
  refine ⟨?_, fun k e => Packet.decode_error, fun payload e he => ?_, fun values e => reassemblePackets_error⟩
  · constructor
    · rintro hnone ⟨⟨requestId, session, packet, haccepts, hcached, hfresh, hfull, hopcode, hrequest, hpayload⟩, hscreen⟩
      have hid := h.sized.sessionId_range session haccepts.session_eq
      have htaken : (session.taken packet).sessionId ≤ 0xFFFF := hid.2
      rw [← haccepts.address_eq, handleDatagram_session haccepts.session_eq env haccepts.decodes haccepts.length_le haccepts.kind_eq
        haccepts.sessionId_eq (by omega), handlePacket_completed hcached hfresh hfull hpayload, dispatch_raised htaken packet.requestId_le,
        answer_length (Nat.zero_le _)] at hnone
      exact hnone ⟨hopcode.symm, rfl, hscreen⟩
    · intro hno
      by_contra hraised
      obtain heq | ⟨session, -, hnone, -⟩ | ⟨session, packet, haccepts, heq⟩ := handleDatagram_cases s env d address
      · exact hraised (by rw [heq]; rfl)
      · exact hraised hnone
      · have hid := h.sized.sessionId_range session haccepts.session_eq
        rw [heq] at hraised
        obtain ⟨hcached, hfresh, hfull, hopcode, hpayload, hscreen⟩ := handlePacket_raised hid.2 hraised
        exact hno ⟨⟨packet.requestId, session, packet, haccepts, hcached, hfresh, hfull, hopcode.symm, rfl, hpayload⟩, hscreen⟩
  · simp only [HelloRequest.decode, requireSize, raiseIf] at he
    split at he
    · cases he
      exact ⟨_, rfl⟩
    · cases he

/-- A server without a session drops every datagram but HELLO. -/
theorem handle_datagram_returns_iff_fresh : (freshServer.handleDatagram fileEnv (List.replicate 24 0) ("10.0.0.2", 40000)).raised = none := by
  refine (handle_datagram_returns_iff .start fileEnv (List.replicate 24 0) ("10.0.0.2", 40000)).1.mpr ?_
  rintro ⟨⟨requestId, session, packet, haccepts, -⟩, -⟩
  cases haccepts.session_eq

def screenEnv (screen : TextScreen) : Env := ⟨{ fileBackend with captureScreen := .ok screen }, 1, 5⟩

def largeScreen : TextScreen where
  columns := 255
  rows := 255
  text := List.replicate 255 (List.replicate 255 ' ')
  attributes := List.replicate 255 (List.replicate 255 0x07)
  cursor := ⟨0, 0, true, none, none⟩
  generation := 0
  adapter := "VGA"
  videoMode := none
  activePage := 0
  codePage := "CP437"
  blinkEnabled := true
  dimensions_pos := by decide
  text_length := List.length_replicate
  attributes_length := List.length_replicate
  text_rows := fun row hrow => by rw [List.eq_of_mem_replicate hrow, List.length_replicate]
  attributes_rows := fun row hrow => by rw [List.eq_of_mem_replicate hrow, List.length_replicate]
  cursor_row_lt := by decide
  cursor_column_lt := by decide

theorem largeScreen_oversized : (screenEnv largeScreen).Oversized :=
  ⟨largeScreen, rfl, ⟨Nat.le_refl 255, Nat.le_refl 255, nofun, (by decide : (0 : Int) ≤ 0 ∧ (0 : Int) ≤ 255), nofun, nofun⟩,
    (by decide : 13 + 2 * 255 * 255 > 32768)⟩

def helloRequest : Packet :=
  ⟨.request, .hello, 0, 1, 0, 1, [2, 0, 0, 0], 0, Packet.flags_none, Packet.session_none, by decide, Packet.single_range,
    Packet.single_index, by decide⟩

/-- The first request of the session that HELLO opens. -/
def captureRequest : Packet :=
  ⟨.request, .captureTextScreen, 3, 2, 0, 1, [], 0, Packet.flags_none, by decide, by decide, Packet.single_range,
    Packet.single_index, by decide⟩

def helloSession : Session := .fresh ("10.0.0.2", 40000) 3 (deriveSessionKey freshServer.key 2 1)

def openServer : UdpAgentServer :=
  (freshServer.handleDatagram (screenEnv largeScreen) (helloRequest.encode freshServer.key) ("10.0.0.2", 40000)).server

theorem openServer_reached : openServer.Reached freshServer.key false := .datagram _ _ _ .start

theorem openServer_session : openServer.session = some helloSession := by
  have hdecode := Packet.decode_encode helloRequest freshServer.key
  have hlength : (helloRequest.encode freshServer.key).length ≤ maxDatagram := by
    rw [Packet.encode_length]
    decide
  have hrequest : HelloRequest.decode helloRequest.payload = .ok ⟨2⟩ := by decide +kernel
  rw [openServer, handleDatagram_hello _ _ hdecode hlength rfl rfl rfl, handleHello_eq _ _ hdecode hrequest]
  rfl

/-- A screen of 255 lines of 255 cells stops the server. -/
theorem large_screen_raises : openServer.Reached freshServer.key false ∧ largeScreen.columns = 255 ∧ largeScreen.rows = 255 ∧
    (openServer.handleDatagram (screenEnv largeScreen) (captureRequest.encode helloSession.key) ("10.0.0.2", 40000)).raised =
      some (.valueError "message exceeds maximum reassembled size") := by
  refine ⟨openServer_reached, rfl, rfl, ?_⟩
  have hlength : (captureRequest.encode helloSession.key).length ≤ maxDatagram := by
    rw [Packet.encode_length]
    decide
  have hpayload : reassemblePackets (helloSession.gathered captureRequest).values = .ok [] := rfl
  obtain ⟨screen, hcapture, hpacks, hsize⟩ := largeScreen_oversized
  obtain ⟨bs, hbs⟩ := TextScreen.encode_isOk_iff.mpr hpacks
  have hlarge : bs.length > maxMessageSize := by
    rw [ScreenMessage.encode_length hbs]
    exact hsize
  have hhandled := handleDatagram_session openServer_session (screenEnv largeScreen) (Packet.decode_encode captureRequest helloSession.key)
    hlength rfl rfl (by decide)
  rw [handlePacket_completed rfl rfl rfl hpayload] at hhandled
  obtain ⟨transfer, calls, hdispatch⟩ := dispatch_answers { openServer with session := some (helloSession.taken captureRequest) }
    (helloSession.taken captureRequest) (screenEnv largeScreen) .captureTextScreen captureRequest.requestId []
  rw [answer_capture hcapture hbs] at hdispatch
  rw [show (("10.0.0.2", 40000) : Address) = helloSession.address from rfl, hhandled]
  refine (congrArg Result.raised hdispatch).trans ?_
  rw [UdpAgentServer.sendResponse, fragmentMessage_error hlarge]

end DosMcp
