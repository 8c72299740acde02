/-
  DosMcp.System.Screens — a text screen from the backend of the agent server to the caller of
  `capture_screen`.

  - `readScreen_of_encode`: the bridge takes the cells apart as the server put them together,
    whatever the shape of the grid.
-/

import DosMcp.Client.Api
import DosMcp.Server.ReplyProofs
import DosMcp.Server.TerminalProofs
import DosMcp.System.Response

namespace DosMcp

open Lib
open Dos (Blocks)
open Fallible (lift)

/-! ## Cells -/

theorem everySecond_cellBytes (cells : List (UInt8 × UInt8)) : everySecond (cellBytes cells) = cells.map Prod.fst := by
  induction cells with
  | nil => rfl
  | cons cell cells ih => rw [cellBytes_cons, everySecond, ih, List.map_cons]

/-- Without the first character the attributes are at the even places. -/
theorem everySecond_drop_cellBytes (cells : List (UInt8 × UInt8)) :
    everySecond ((cellBytes cells).drop 1) = cells.map Prod.snd := by
  induction cells with
  | nil => rfl
  | cons cell cells ih =>
    cases cells with
    | nil => rfl
    | cons next cells => exact congrArg (cell.2 :: ·) ih

namespace TextScreen

variable (s : TextScreen)

/-- The bytes of a row are where the bridge looks for them. -/
theorem rowCells_eq {i : Nat} (hi : i < (s.text.zip s.attributes).length) :
    (screenMessage s).rowCells i = cellBytes (rowCells (s.text.zip s.attributes)[i]) := by
  rw [ScreenMessage.rowCells, Nat.mul_assoc]
  exact slice_flatMap s.rowBytes_length hi

/-- The screen as the bridge hands it on: characters outside the code page are question marks,
    the scanlines say whether the cursor is visible. -/
def received : TextScreen where
  columns := s.columns
  rows := s.rows
  text := s.text.map fun row => cp437Decode (cp437EncodeReplace row)
  attributes := s.attributes
  cursor :=
    let start := s.cursor.startScanline.getD 0
    let stop := s.cursor.endScanline.getD 0
    ⟨s.cursor.row, s.cursor.column, start ≤ stop, some start, some stop⟩
  generation := (s.generation % 0x10000).toNat
  adapter := (screenMessage s).adapter.graphicsName
  videoMode := if s.videoMode.getD 0xFF = 0xFF then none else some (s.videoMode.getD 0xFF)
  activePage := s.activePage
  codePage := s!"CP{(screenMessage s).codePage}"
  blinkEnabled := true
  dimensions_pos := s.dimensions_pos
  text_length := (List.length_map _).trans s.text_length
  attributes_length := s.attributes_length
  text_rows := by
    intro row hrow
    obtain ⟨sent, hsent, rfl⟩ := List.mem_map.mp hrow
    rw [cp437Decode, cp437EncodeReplace, List.length_map, List.length_map]
    exact s.text_rows sent hsent
  attributes_rows := s.attributes_rows
  cursor_row_lt := s.cursor_row_lt
  cursor_column_lt := s.cursor_column_lt

theorem received_text : ((List.range s.rows).map fun i => cp437Decode (everySecond ((screenMessage s).rowCells i))) = s.received.text := by
  apply List.ext_getElem
  · rw [List.length_map, List.length_range, received, List.length_map, s.text_length]
  · intro i hi hi'
    have hrow : i < (s.text.zip s.attributes).length := by
      rw [s.rows_length]
      simpa using hi
    obtain ⟨hc, ha⟩ := s.row_lengths (List.getElem_mem hrow)
    rw [List.getElem_map, List.getElem_range, s.rowCells_eq hrow, everySecond_cellBytes, rowCells,
      List.map_fst_zip (hc.trans ha.symm).le]
    simp only [received, List.getElem_map, List.getElem_zip]

theorem received_attributes : ((List.range s.rows).map fun i => everySecond (((screenMessage s).rowCells i).drop 1)) = s.attributes := by
  apply List.ext_getElem
  · rw [List.length_map, List.length_range, s.attributes_length]
  · intro i hi hi'
    have hrow : i < (s.text.zip s.attributes).length := by
      rw [s.rows_length]
      simpa using hi
    obtain ⟨hc, ha⟩ := s.row_lengths (List.getElem_mem hrow)
    rw [List.getElem_map, List.getElem_range, s.rowCells_eq hrow, everySecond_drop_cellBytes, rowCells,
      List.map_snd_zip (ha.trans hc.symm).le, List.getElem_zip]

/-- What the bridge makes of a message is the screen as it was, up to what the message has no
    room for. -/
theorem readScreen_of_encode {bs : Bytes} (h : (screenMessage s).encode = .ok bs) : readScreen bs = .ok s.received := by
  rw [readScreen, ScreenMessage.decode_of_encode h, ok_bind]
  change textScreen (screenMessage s) ((List.range s.rows).map fun i => cp437Decode (everySecond ((screenMessage s).rowCells i)))
    ((List.range s.rows).map fun i => everySecond (((screenMessage s).rowCells i).drop 1)) = .ok s.received
  have hdimensions : 1 ≤ (screenMessage s).columns ∧ 1 ≤ (screenMessage s).rows := s.dimensions_pos
  have htext : s.received.text.length = (screenMessage s).rows := s.received.text_length
  have hattributes : s.attributes.length = (screenMessage s).rows := s.attributes_length
  have htextRows : ∀ row ∈ s.received.text, row.length = (screenMessage s).columns := s.received.text_rows
  have hattributesRows : ∀ row ∈ s.attributes, row.length = (screenMessage s).columns := s.attributes_rows
  have hrow : (screenMessage s).cursorRow < (screenMessage s).rows := s.cursor_row_lt
  have hcolumn : (screenMessage s).cursorColumn < (screenMessage s).columns := s.cursor_column_lt
  rw [s.received_text, s.received_attributes, textScreen, dif_pos hdimensions, dif_pos htext, dif_pos hattributes,
    dif_pos htextRows, dif_pos hattributesRows, dif_pos hrow, dif_pos hcolumn]
  rfl

end TextScreen

/-! ## Replies -/

/-- The exchange has sent its request and has nothing of the answer yet. -/
structure Exchange.Awaiting (x : Exchange) (session : Session) (opcode : Opcode) (requestId : Nat) : Prop where
  key_eq : x.key = session.key
  opcode_eq : x.expected.opcode = opcode
  sessionId_eq : x.expected.sessionId = session.sessionId
  requestId_eq : x.expected.requestId = requestId
  received_eq : x.received = []

/-- The server keeps the datagrams as its reply to the request and sends them, unless they are
    the first response and it is to drop that. -/
structure Replies (s : UdpAgentServer) (session : Session) (requestId : Nat) (datagrams : List Bytes) (r : Result) : Prop where
  raised_eq : r.raised = none
  recorded : r.server.session = some (session.record requestId datagrams)
  sent_eq : r.sent = if s.dropFirstResponse ∧ ¬ s.droppedResponse then [] else datagrams.map (session.address, ·)

section

variable {s : UdpAgentServer} {session : Session} {env : Env} {opcode : Opcode} {requestId : Nat} {payload : Bytes}

/-- The datagrams answer the request with the payload, in whatever order and however often each
    of them arrives. -/
def Brings (session : Session) (opcode : Opcode) (requestId : Nat) (datagrams : List Bytes) (payload : Bytes) : Prop :=
  ∀ x : Exchange, x.Awaiting session opcode requestId → ∀ target arrival, (∀ d, d ∈ arrival ↔ d ∈ datagrams) →
    ∃ p, x.collect target arrival = .done (.ok (payload, p))

/-- The datagrams refuse the request with the exception. -/
def Raises (session : Session) (opcode : Opcode) (requestId : Nat) (datagrams : List Bytes) (e : Exc) : Prop :=
  ∀ x : Exchange, x.Awaiting session opcode requestId → ∀ target arrival, (∀ d, d ∈ arrival ↔ d ∈ datagrams) →
    x.collect target arrival = .done (.error e)

theorem fragmentMessage_blocks (key : Key) {kind : MessageKind} {sessionId requestId : UInt16} {packets : List Packet}
    (h : fragmentMessage kind opcode sessionId.toNat requestId.toNat payload = .ok packets) :
    Blocks maxFragmentPayload (numFragments payload) key kind opcode sessionId requestId payload (packets.map (·.encode key)) := by
  have hlength := fragmentMessage_length h
  refine ⟨(List.length_map _).trans hlength, fun i hi => ?_⟩
  have hp := (fragmentMessage_eq_ok h).get (by rw [List.length_range]; exact hi) (by rw [hlength]; exact hi)
  simp only [List.get_eq_getElem, List.getElem_range] at hp
  refine ⟨packets[i], ?_, hp.1, hp.2.isBlock⟩
  rw [List.getElem?_map, List.getElem?_eq_getElem, Option.map_some]

theorem sendResponse_replies (kind : MessageKind) (hs : session.sessionId ≤ 0xFFFF) (hr : requestId ≤ 0xFFFF)
    (hp : payload.length ≤ maxMessageSize) :
    ∃ datagrams, Replies s session requestId datagrams (s.sendResponse session kind opcode requestId payload) ∧
      (kind = .response → Brings session opcode requestId datagrams payload) ∧
      (kind = .error → payload.length ≤ maxFragmentPayload →
        Raises session opcode requestId datagrams (errorRaised payload)) := by
  obtain ⟨packets, hok⟩ := fragmentMessage_isOk kind opcode hp hs hr
  have hsid : (UInt16.ofNat session.sessionId).toNat = session.sessionId := UInt16.toNat_ofNat_of_lt' (Nat.lt_succ_of_le hs)
  have hrid : (UInt16.ofNat requestId).toNat = requestId := UInt16.toNat_ofNat_of_lt' (Nat.lt_succ_of_le hr)
  have hblocks := fragmentMessage_blocks session.key (hsid.symm ▸ hrid.symm ▸ hok)
  refine ⟨packets.map (·.encode session.key), ?_, ?_, ?_⟩
  · simp only [UdpAgentServer.sendResponse, hok]
    split
    · exact ⟨rfl, rfl, (if_pos ‹_›).symm⟩
    · exact ⟨rfl, rfl, (if_neg ‹_›).symm⟩
  · intro hkind x hx target arrival harrival
    obtain ⟨p, hp, -⟩ := hblocks.collected hkind (numFragments_range hp).1 (length_le_numFragments payload) hx.key_eq
      hx.opcode_eq (hx.sessionId_eq.trans hsid.symm) (hx.requestId_eq.trans hrid.symm) hx.received_eq target harrival
    exact ⟨p, hp⟩
  · intro hkind hshort x hx target arrival harrival
    have hone : numFragments payload = 1 := by
      simp only [numFragments, maxFragmentPayload] at hshort ⊢
      omega
    exact hblocks.raised hkind hone hshort hx.key_eq hx.opcode_eq (hx.sessionId_eq.trans hsid.symm)
      (hx.requestId_eq.trans hrid.symm) target harrival

/-! ## Capture -/

/-- Asked for a screen, the server answers with datagrams that make `capture_screen` return
    this one. -/
def Captures (s : UdpAgentServer) (session : Session) (env : Env) (requestId : Nat) (screen : TextScreen) : Prop :=
  ∃ datagrams answer, Replies s session requestId datagrams (s.dispatch session env .captureTextScreen requestId []) ∧
    Brings session .captureTextScreen requestId datagrams answer ∧
    ∀ (σ : Type) (request : Opcode → Bytes → Fallible σ Exc Bytes) (st st' : σ),
      request .captureTextScreen [] st = (.ok answer, st') → captureScreen request st = (.ok screen, st')

variable {screen : TextScreen}

theorem captures_received (hcapture : env.backend.captureScreen = .ok screen) {bs : Bytes}
    (hencode : (screenMessage screen).encode = .ok bs) (hsize : bs.length ≤ maxMessageSize)
    (hs : session.sessionId ≤ 0xFFFF) (hr : requestId ≤ 0xFFFF) : Captures s session env requestId screen.received := by
  have hdispatch : s.dispatch session env .captureTextScreen requestId [] =
      { s.sendResponse session .response .captureTextScreen requestId bs with
        dispatched := some ⟨.captureTextScreen, requestId, []⟩, calls := [.captureScreen] } := by
    simp only [UdpAgentServer.dispatch, operate, observe, requireEmpty, raiseIf, ne_eq, not_true_eq_false, if_false, hcapture]
    rw [ok_bind, hencode]
  obtain ⟨datagrams, hreplies, hbrings, -⟩ := @sendResponse_replies s session .captureTextScreen requestId bs .response hs hr hsize
  refine ⟨datagrams, bs, ?_, hbrings rfl, fun σ request st st' hanswer => ?_⟩
  · rw [hdispatch]
    exact ⟨hreplies.raised_eq, hreplies.recorded, hreplies.sent_eq⟩
  · rw [captureScreen, Fallible.bind_apply, hanswer]
    exact congrArg (·, st') (screen.readScreen_of_encode hencode)

/-- What a screen must be to fit its message, and its characters the code page; its video mode
    apart. -/
structure TextScreen.FitsWire (s : TextScreen) : Prop where
  columns_le : s.columns ≤ 255
  rows_le : s.rows ≤ 255
  size_le : 13 + 2 * s.columns * s.rows ≤ 32768
  activePage_byte : 0 ≤ s.activePage ∧ s.activePage ≤ 255
  start_byte : ∀ v ∈ s.cursor.startScanline, 0 ≤ v ∧ v ≤ 255
  end_byte : ∀ v ∈ s.cursor.endScanline, 0 ≤ v ∧ v ≤ 255
  text_cp437 : ∀ row ∈ s.text, ∀ c ∈ row, (cp437Byte? c).isSome = true

/-- The same, as a test of the characters. -/
theorem text_cp437_of_all {text : List (List Char)}
    (h : (text.all fun row => row.all fun c => (cp437Byte? c).isSome) = true) :
    ∀ row ∈ text, ∀ c ∈ row, (cp437Byte? c).isSome = true :=
  fun row hrow c hc => List.all_eq_true.mp (List.all_eq_true.mp h row hrow) c hc

/-- `r` is the screen `s`, with what the wire keeps of its generation. -/
structure TextScreen.Same (s r : TextScreen) : Prop where
  columns_eq : r.columns = s.columns
  rows_eq : r.rows = s.rows
  text_eq : r.text = s.text
  attributes_eq : r.attributes = s.attributes
  cursor_row_eq : r.cursor.row = s.cursor.row
  cursor_column_eq : r.cursor.column = s.cursor.column
  videoMode_eq : r.videoMode = s.videoMode
  activePage_eq : r.activePage = s.activePage
  generation_eq : r.generation = s.generation % 2 ^ 16

theorem cp437_replace {cs : List Char} (h : ∀ c ∈ cs, (cp437Byte? c).isSome = true) :
    cp437Decode (cp437EncodeReplace cs) = cs := by
  rw [cp437Decode, cp437EncodeReplace, List.map_map]
  refine (List.map_congr_left fun c hc => ?_).trans (List.map_id cs)
  obtain ⟨b, hb⟩ := Option.isSome_iff_exists.mp (h c hc)
  rw [Function.comp_apply, hb, Option.getD_some, cp437Char_byte hb, id]

theorem TextScreen.FitsWire.same (h : screen.FitsWire) (hmode : ∀ m ∈ screen.videoMode, 0 ≤ m ∧ m < 255) :
    screen.Same screen.received where
  columns_eq := rfl
  rows_eq := rfl
  text_eq := (List.map_congr_left fun row hrow => cp437_replace (h.text_cp437 row hrow)).trans (List.map_id _)
  attributes_eq := rfl
  cursor_row_eq := rfl
  cursor_column_eq := rfl
  videoMode_eq := by
    cases hm : screen.videoMode with
    | none => simp [received, hm]
    | some m =>
      have hlt := (hmode m hm).2
      simp only [received, hm, Option.getD_some]
      exact if_neg (by omega)
  activePage_eq := rfl
  generation_eq := by
    simp only [received]
    omega

theorem TextScreen.FitsWire.encodes (h : screen.FitsWire) (hmode : ∀ m ∈ screen.videoMode, 0 ≤ m ∧ m < 255) :
    ∃ bs, (screenMessage screen).encode = .ok bs ∧ bs.length ≤ maxMessageSize := by
  obtain ⟨bs, hbs⟩ := TextScreen.encode_isOk_iff.mpr ⟨h.columns_le, h.rows_le,
    fun m hm => ⟨(hmode m hm).1, (hmode m hm).2.le⟩, h.activePage_byte, h.start_byte, h.end_byte⟩
  exact ⟨bs, hbs, (ScreenMessage.encode_length hbs).trans_le h.size_le⟩

/-- A screen that fits its message reaches the caller of `capture_screen`. -/
theorem text_screens_survive (hcapture : env.backend.captureScreen = .ok screen) (hfits : screen.FitsWire)
    (hmode : ∀ m ∈ screen.videoMode, 0 ≤ m ∧ m < 255) (hs : session.sessionId ≤ 0xFFFF) (hr : requestId ≤ 0xFFFF) :
    ∃ r, Captures s session env requestId r ∧ screen.Same r := by
  obtain ⟨bs, hencode, hsize⟩ := hfits.encodes hmode
  exact ⟨screen.received, captures_received hcapture hencode hsize hs hr, hfits.same hmode⟩

/-- An exchange waits for the reply to every request. -/
theorem exists_awaiting (session : Session) (opcode : Opcode) (hs : session.sessionId ≤ 0xFFFF) (hr : requestId ≤ 0xFFFF) :
    ∃ x : Exchange, x.Awaiting session opcode requestId :=
  ⟨⟨⟨.request, opcode, session.sessionId, requestId, 0, 1, [], 0, rfl, hs, hr, by decide, by decide, by decide⟩, [],
    session.key, 0, 0, [], 0, ""⟩, rfl, rfl, rfl, rfl, rfl⟩

/-- A screen that does not pack is answered with an error, which `capture_screen` raises. -/
theorem not_captures (hcapture : env.backend.captureScreen = .ok screen) (hencode : (screenMessage screen).encode = .error .structError)
    (hdrop : s.dropFirstResponse = false) (hs : session.sessionId ≤ 0xFFFF) (hr : requestId ≤ 0xFFFF) (r : TextScreen) :
    ¬ Captures s session env requestId r := by
  rintro ⟨datagrams, answer, hreplies, hbrings, -⟩
  have hdispatch : s.dispatch session env .captureTextScreen requestId [] =
      { s.sendError session .captureTextScreen requestId .internalFailure "target operation failed" with
        dispatched := some ⟨.captureTextScreen, requestId, []⟩, calls := [.captureScreen] } := by
    simp only [UdpAgentServer.dispatch, operate, observe, requireEmpty, raiseIf, ne_eq, not_true_eq_false, if_false, hcapture]
    rw [ok_bind, hencode]
    rfl
  have hshort := encodeError_length .internalFailure "target operation failed"
  obtain ⟨sent, hsent, -, hraises⟩ := @sendResponse_replies s session .captureTextScreen requestId _ .error hs hr
    (hshort.trans (by decide))
  have heq : sent.map (session.address, ·) = datagrams.map (session.address, ·) := by
    have h := hreplies.sent_eq
    rw [hdispatch] at h
    have h' := hsent.sent_eq
    rw [hdrop, if_neg (by simp)] at h h'
    exact h'.symm.trans h
  obtain rfl : sent = datagrams := List.map_injective_iff.mpr (fun _ _ h => congrArg Prod.snd h) heq
  obtain ⟨x, hx⟩ := exists_awaiting session .captureTextScreen hs hr
  obtain ⟨p, hp⟩ := hbrings x hx session.address sent fun _ => Iff.rfl
  rw [hraises rfl hshort x hx session.address sent fun _ => Iff.rfl] at hp
  cases hp

end

/-! ## A cell -/

/-- A screen of one cell without a cursor shape. -/
def oneCell (videoMode : Option Int) : TextScreen where
  columns := 1
  rows := 1
  text := [['A']]
  attributes := [[0x07]]
  cursor := ⟨0, 0, true, none, none⟩
  generation := 65537
  adapter := "VGA"
  videoMode := videoMode
  activePage := 0
  codePage := "CP437"
  blinkEnabled := true
  dimensions_pos := by decide
  text_length := rfl
  attributes_length := rfl
  text_rows := by decide
  attributes_rows := by decide
  cursor_row_lt := by decide
  cursor_column_lt := by decide

theorem oneCell_fits (videoMode : Option Int) : (oneCell videoMode).FitsWire :=
  ⟨(by decide : 1 ≤ 255), (by decide : 1 ≤ 255), (by decide : 13 + 2 * 1 * 1 ≤ 32768), (by decide : (0 : Int) ≤ 0 ∧ (0 : Int) ≤ 255),
    nofun, nofun, @text_cp437_of_all [['A']] (by decide)⟩

theorem text_screens_survive_cell :
    ∃ r, Captures freshServer freshSession (screenEnv (oneCell (some 3))) 2 r ∧ (oneCell (some 3)).Same r :=
  text_screens_survive rfl (oneCell_fits _) (by decide) (by decide) (by decide)

/-- A negative video mode is below 255 and does not fit its byte. -/
theorem negative_mode_refused : (oneCell (some (-1))).FitsWire ∧ (∀ m ∈ (oneCell (some (-1))).videoMode, m < 255) ∧
    ∀ r, ¬ Captures freshServer freshSession (screenEnv (oneCell (some (-1)))) 2 r :=
  ⟨oneCell_fits _, by decide, not_captures rfl rfl rfl (by decide) (by decide)⟩

/-! ## The Linux terminal -/

namespace Terminal

/-- A lone surrogate is outside the code page, and so is U+FFFD. -/
def charOf (c : CodePoint) : Char := if c.val.isValidChar then Char.ofNat c.val else Char.ofNat 0xFFFD

/-- The `TextScreen` of `snapshot`. -/
def TerminalBuffer.textScreen (t : TerminalBuffer) (h : t.Valid) : TextScreen where
  columns := t.columns.toNat
  rows := t.rows.toNat
  text := t.chars.map fun line => line.map charOf
  attributes := t.attrs.map fun line => line.map UInt8.ofNat
  cursor := ⟨t.row.toNat, t.column.toNat, t.visible, none, none⟩
  generation := t.generation
  adapter := "linux-pty"
  videoMode := none
  activePage := 0
  codePage := "UTF-8"
  blinkEnabled := false
  dimensions_pos := by
    have hcolumns := h.columns_pos
    have hrows := h.rows_pos
    omega
  text_length := by
    have hlength := h.chars.length_eq
    rw [List.length_map]
    omega
  attributes_length := by
    have hlength := h.attrs.length_eq
    rw [List.length_map]
    omega
  text_rows := by
    intro row hrow
    obtain ⟨line, hline, rfl⟩ := List.mem_map.mp hrow
    have hlength := h.chars.line_length line hline
    rw [List.length_map]
    omega
  attributes_rows := by
    intro row hrow
    obtain ⟨line, hline, rfl⟩ := List.mem_map.mp hrow
    have hlength := h.attrs.line_length line hline
    rw [List.length_map]
    omega
  cursor_row_lt := by
    have hrow := h.row
    dsimp only
    omega
  cursor_column_lt := by
    have hcolumn := h.column
    dsimp only
    omega

end Terminal

/-- The bridge reports the cursor as the backend has it exactly where the flag agrees with the
    order of the scanlines, absent ones counted as 0. The screen of a terminal has none. -/
theorem cursor_visible_iff {s : UdpAgentServer} {session : Session} {env : Env} {requestId : Nat} {screen : TextScreen}
    (hcapture : env.backend.captureScreen = .ok screen) {bs : Bytes} (hencode : (screenMessage screen).encode = .ok bs)
    (hsize : bs.length ≤ maxMessageSize) (hs : session.sessionId ≤ 0xFFFF) (hr : requestId ≤ 0xFFFF) :
    ∃ r, Captures s session env requestId r ∧
      (r.cursor.visible = screen.cursor.visible ↔
        (screen.cursor.visible = true ↔ screen.cursor.startScanline.getD 0 ≤ screen.cursor.endScanline.getD 0)) ∧
      ∀ u columns rows t (h : Terminal.Fed u columns rows t), screen = t.textScreen h.valid.1 →
        (r.cursor.visible = screen.cursor.visible ↔ t.visible = true) := by
  have hvisible : screen.received.cursor.visible =
      decide (screen.cursor.startScanline.getD 0 ≤ screen.cursor.endScanline.getD 0) := rfl
  refine ⟨screen.received, captures_received hcapture hencode hsize hs hr, ?_, fun u columns rows t h hscreen => ?_⟩
  · rw [hvisible]
    cases screen.cursor.visible <;> simp
  · subst hscreen
    exact eq_comm

/-- `ESC [ ? 25 l` -/
def hideCursor : Terminal.Text := [0x1B, Terminal.ord '[', Terminal.ord '?', Terminal.ord '2', Terminal.ord '5', Terminal.ord 'l']

def hiddenCursor : Terminal.TerminalBuffer := (Terminal.feed .unicode15 hideCursor Terminal.blank).2

theorem hiddenCursor_fed : Terminal.Fed .unicode15 8 2 hiddenCursor := .feed hideCursor (Terminal.blank_fed _)

def hiddenScreen : TextScreen := hiddenCursor.textScreen hiddenCursor_fed.valid.1

theorem cursor_visible_iff_cell : ∃ r, Captures freshServer freshSession (screenEnv (oneCell none)) 2 r ∧
    (r.cursor.visible = true ↔ (true = true ↔ (0 : Int) ≤ 0)) := by
  obtain ⟨bs, hencode, hsize⟩ := (oneCell_fits none).encodes nofun
  obtain ⟨r, hr, hiff, -⟩ := @cursor_visible_iff freshServer freshSession (screenEnv (oneCell none)) 2 (oneCell none) rfl bs
    hencode hsize (by decide) (by decide)
  exact ⟨r, hr, hiff⟩

/-- A terminal that has hidden its cursor is reported with a visible one. -/
theorem hidden_cursor_reported : hiddenScreen.cursor.visible = false ∧
    ∃ r, Captures freshServer freshSession (screenEnv hiddenScreen) 2 r ∧ r.cursor.visible = true := by
  have hfits : hiddenScreen.FitsWire :=
    ⟨by decide +kernel, by decide +kernel, by decide +kernel, by decide, nofun, nofun, text_cp437_of_all (by decide +kernel)⟩
  obtain ⟨bs, hencode, hsize⟩ := hfits.encodes nofun
  exact ⟨by decide +kernel, hiddenScreen.received, captures_received rfl hencode hsize (by decide) (by decide), rfl⟩

end DosMcp
