/-
  DosMcp.System.Capture — the text screens of the two DOS agents.

  RAGENT copies header and cells in one loop. RA-TSR writes the header down and sends the
  screen in fragments, each read from the header and from video memory in the worker entry that
  sends it: sixteen entries for a full screen.

  - `Capturing.resident`: with video memory unchanged, RA-TSR sends one block of the screen an
    entry.
  - `paced_capture_refines`: they are the blocks of the screen that RAGENT sends, apart from
    the adapter and the generation, and the bridge accepts it.
  - `capabilities_describe_screen_iff`: the bridge accepts the capabilities, and they have the
    columns and rows of the screen, exactly when the BIOS has a number of columns.
-/

import DosMcp.Dos.Ownership
import DosMcp.Dos.WorkspaceProofs
import DosMcp.System.ErrorReplies
import DosMcp.System.Layouts

namespace DosMcp.Dos

open Lib

/-! ## The screen -/

/-- Header and cells, read at once. -/
def capturedScreen (b : Build) (c : Config) (m : Machine) (page : UInt8) (generation : UInt16) : Bytes :=
  captureHeader b c m page generation ++
    (List.range (captureCells m)).map fun i => m.peek (captureSegment m) (m.peek16 0x40 0x4E + .ofNat i)

theorem capturedScreen_length (b : Build) (c : Config) (m : Machine) (page : UInt8) (generation : UInt16) :
    (capturedScreen b c m page generation).length = 13 + captureCells m := by
  rw [capturedScreen, List.length_append, captureHeader_length, List.length_map, List.length_range]

theorem captureScreen_eq (c : Config) (s : State) :
    (captureScreen c s).1 = capturedScreen .ragent c s.machine (s.machine.peek 0x40 0x62) (s.captureGeneration + 1) := rfl

/-- The page whose cursor RA-TSR reports. -/
def capturePage (m : Machine) : UInt8 := if m.peek 0x40 0x62 ≤ 7 then m.peek 0x40 0x62 else 0

/-- The fragments of a prepared capture: the header, and the cells of the machine they are sent on. -/
theorem fillTextCaptureFragment_cells (c : Config) (s : State) (m : Machine) :
    fillTextCaptureFragment (prepareTextCapture c s).2.textCapture m 0 (prepareTextCapture c s).1 =
      captureHeader .ratsr c s.machine (capturePage s.machine) (s.captureGeneration + 1) ++
        (List.range (captureCells s.machine)).map fun i =>
          m.peek (captureSegment s.machine) (s.machine.peek16 0x40 0x4E + .ofNat i) := by
  have hheader := captureHeader_length .ratsr c s.machine (capturePage s.machine) (s.captureGeneration + 1)
  apply List.ext_getElem
  · simp [fillTextCaptureFragment, prepareTextCapture, hheader]
  · intro i h1 h2
    simp only [fillTextCaptureFragment, List.getElem_map, List.getElem_range, Nat.zero_add]
    by_cases hi : i < 13
    · rw [if_pos hi, List.getElem_append_left (by omega)]
      show byteAt (captureHeader .ratsr c s.machine (capturePage s.machine) (s.captureGeneration + 1)) i = _
      simp only [byteAt, List.getD_eq_getElem?_getD, List.getElem?_eq_getElem (hheader ▸ hi), Option.getD_some]
    · rw [if_neg hi, List.getElem_append_right (by omega)]
      simp only [List.getElem_map, List.getElem_range, hheader]
      rfl

/-- As long as video memory is what it was, they are those of the screen. -/
theorem fillTextCaptureFragment_prepared (c : Config) (s : State) {m : Machine}
    (hshown : ∀ offset, m.peek (captureSegment s.machine) offset = s.machine.peek (captureSegment s.machine) offset) :
    fillTextCaptureFragment (prepareTextCapture c s).2.textCapture m 0 (prepareTextCapture c s).1 =
      capturedScreen .ratsr c s.machine (capturePage s.machine) (s.captureGeneration + 1) := by
  rw [fillTextCaptureFragment_cells, capturedScreen]
  simp only [hshown]

/-- The cursor that is reported lies on the screen. -/
theorem cursorMetadata_inside (cursor shape : UInt16) {columns rows : UInt8} (hcolumns : 0 < columns.toNat)
    (hrows : 0 < rows.toNat) :
    ∃ row column start finish, cursorMetadata cursor shape columns rows = [row, column, start, finish] ∧
      row.toNat < rows.toNat ∧ column.toNat < columns.toNat := by
  unfold cursorMetadata
  dsimp only
  split
  · exact ⟨0, 0, 1, 0, rfl, hrows, hcolumns⟩
  · rename_i hinside
    simp only [ge_iff_le, not_or, UInt8.not_le, UInt8.lt_iff_toNat_lt] at hinside
    exact ⟨_, _, _, _, rfl, hinside⟩

theorem captureColumns_pos (m : Machine) : 0 < (captureColumns m).toNat := by
  unfold captureColumns
  split
  · decide
  · rename_i hcolumns
    exact Nat.pos_of_ne_zero fun hzero => hcolumns (UInt8.toNat_inj.mp hzero)

/-- The two agents read the same screen, apart from adapter and generation. -/
theorem capturedScreen_getElem? (c c' : Config) (m : Machine) (page : UInt8) (generation generation' : UInt16) {i : Nat}
    (hadapter : i ≠ 8) (hlow : i ≠ 11) (hhigh : i ≠ 12) :
    (capturedScreen .ratsr c m page generation)[i]? = (capturedScreen .ragent c' m page generation')[i]? := by
  have hratsr := captureHeader_length .ratsr c m page generation
  have hragent := captureHeader_length .ragent c' m page generation'
  simp only [capturedScreen]
  by_cases hi : i < 13
  · rw [List.getElem?_append_left (by omega), List.getElem?_append_left (by omega)]
    obtain ⟨row, column, start, finish, hcursor, -⟩ := cursorMetadata_inside (m.peek16 0x40 (0x50 + 2 * page.toUInt16))
      (m.peek16 0x40 0x60) (captureColumns_pos m) (by decide : 0 < (25 : UInt8).toNat)
    simp only [captureHeader, hcursor]
    interval_cases i <;> first | rfl | contradiction
  · rw [List.getElem?_append_right (by omega), List.getElem?_append_right (by omega), hratsr, hragent]

theorem pack_screen (columns mode page row column start finish adapter : UInt8) (generation : UInt16) :
    pack [(1, (columns.toNat : Int)), (1, ((25 : UInt8).toNat : Int)), (1, (mode.toNat : Int)), (1, (page.toNat : Int)),
      (1, (row.toNat : Int)), (1, (column.toNat : Int)), (1, (start.toNat : Int)), (1, (finish.toNat : Int)),
      (1, (adapter.toNat : Int)), (2, ((437 : UInt16).toNat : Int)), (2, (generation.toNat : Int))] =
        some ([columns, 25, mode, page, row, column, start, finish, adapter] ++ dmPutU16 437 ++ dmPutU16 generation) := by
  simp only [pack_u8, pack_u16, pack_nil, Option.map_some]
  rfl

/-- The bridge accepts a captured screen, whatever its cells. -/
theorem decode_captureHeader {b : Build} {c : Config} {m : Machine} {adapter : Adapter}
    (hadapter : adapter.value = (currentAdapter b c m).toNat) (page : UInt8) (generation : UInt16) {cells : Bytes}
    (hcells : cells.length = captureCells m) :
    ∃ screen, ScreenMessage.decode (captureHeader b c m page generation ++ cells) = .ok screen ∧
      screen.columns = (captureColumns m).toNat ∧ screen.rows = 25 ∧ screen.cells = cells := by
  obtain ⟨row, column, start, finish, hcursor, hrow, hcolumn⟩ := cursorMetadata_inside
    (m.peek16 0x40 (0x50 + 2 * page.toUInt16)) (m.peek16 0x40 0x60) (captureColumns_pos m) (by decide : 0 < (25 : UInt8).toNat)
  have hheader : captureHeader b c m page generation =
      [captureColumns m, 25, m.videoMode, page, row, column, start, finish, currentAdapter b c m] ++ dmPutU16 437 ++
        dmPutU16 generation := by
    simp only [captureHeader, hcursor]
    rfl
  have hpos := captureColumns_pos m
  have hle := captureColumns_le m
  have hrows : 1 ≤ 25 ∧ 25 ≤ 255 := by decide
  have hpack := pack_screen (captureColumns m) m.videoMode page row column start finish (currentAdapter b c m) generation
  rw [← hheader, ← hadapter] at hpack
  refine ⟨{ columns := (captureColumns m).toNat, rows := 25, videoMode := m.videoMode.toNat, activePage := page.toNat,
            cursorRow := row.toNat, cursorColumn := column.toNat, cursorStart := start.toNat, cursorEnd := finish.toNat,
            adapter := adapter, codePage := 437, generation := generation.toNat, cells := cells }, ?_, rfl, rfl, rfl⟩
  apply ScreenMessage.decode_of_encode
  exact ScreenMessage.encode_of_pack ⟨⟨⟨hpos, hle.trans (by decide)⟩, hrows⟩, hcells, hrow, hcolumn⟩ hpack

theorem decode_capturedScreen {b : Build} {c : Config} {m : Machine} {adapter : Adapter}
    (hadapter : adapter.value = (currentAdapter b c m).toNat) (page : UInt8) (generation : UInt16) :
    ∃ screen, ScreenMessage.decode (capturedScreen b c m page generation) = .ok screen ∧
      screen.columns = (captureColumns m).toNat ∧ screen.rows = 25 := by
  have hcells : ((List.range (captureCells m)).map fun i =>
      m.peek (captureSegment m) (m.peek16 0x40 0x4E + .ofNat i)).length = captureCells m := by
    rw [List.length_map, List.length_range]
  obtain ⟨screen, hdecode, hcolumns, hrows, -⟩ := decode_captureHeader hadapter page generation hcells
  exact ⟨screen, hdecode, hcolumns, hrows⟩

/-! ## Emission -/

/-- The next fragment, as the packet of its index, where the screen is still what the capture reads. -/
theorem nextFragment_capture {s : State} {payload : Bytes} (hopcode : s.session.responseOpcode = 4)
    (hshown : fillTextCaptureFragment s.textCapture s.machine 0 s.session.responsePayloadLength = payload)
    (hnext : s.session.responseNext.toNat < s.session.responseCount.toNat) :
    (packetsOf s.session payload)[s.session.responseNext.toNat]? = some (nextFragment s).1 := by
  have hpayload := nextFragment_replyPayload s
  rw [State.replyPayload, if_pos hopcode, hshown] at hpayload
  rw [packetsOf, responsePackets, List.getElem?_map, List.getElem?_range hnext, Option.map_some, responsePacket, ← hpayload,
    UInt8.ofNat_toNat]
  rfl

/-- RA-TSR has sent the first `i` of the datagrams of a captured screen. -/
structure Capturing (t : TextCapture) (payload : Bytes) (before : List (Peer × Bytes)) (peer : Peer) (datagrams : List Bytes)
    (i : Nat) (s : State) : Prop where
  paced : Paced before peer datagrams i s
  text_eq : s.textCapture = t
  opcode_eq : s.session.responseOpcode = 4
  length_eq : s.session.responsePayloadLength = payload.length
  encoded : Encoded s.session.key (packetsOf s.session payload) datagrams

section Capturing

variable {t : TextCapture} {payload : Bytes} {before : List (Peer × Bytes)} {peer : Peer} {datagrams : List Bytes} {i : Nat}
  {s : State}

theorem Capturing.enter (h : Capturing t payload before peer datagrams i s) (hi : i < datagrams.length) (c : Config)
    {e : Entry} (hshown : fillTextCaptureFragment t e.machine 0 payload.length = payload) :
    Capturing t payload before peer datagrams (i + 1) (ratsrIdleWorker c s e) := by
  have hsession := (h.paced.beforePoll hi c e).1
  obtain ⟨htext, hmachine⟩ := beforePoll_capture c s e
  have hnext : (beforePoll c s e).session.responseNext.toNat = i := by rw [hsession, h.paced.next_eq]
  have hget := @nextFragment_capture (beforePoll c s e) payload
    (by rw [hsession, h.opcode_eq])
    (by rw [hsession, h.length_eq, htext, hmachine, h.text_eq, hshown])
    (by rw [hnext, hsession, ← h.paced.length_eq]; exact hi)
  rw [hnext, hsession] at hget
  obtain ⟨hworker, hpaced⟩ := h.paced.enter hi c e (h.encoded.getElem hget (List.getElem?_eq_getElem hi))
  have hemits : (ratsrIdleWorker c s e).session = ((beforePoll c s e).emits datagrams[i]).session := by rw [hworker]
  refine ⟨hpaced, ?_, ?_, ?_, ?_⟩
  all_goals rw [hworker]
  · exact htext.trans h.text_eq
  · exact (congrArg AgentSession.responseOpcode hsession).trans h.opcode_eq
  · exact (congrArg AgentSession.responsePayloadLength hsession).trans h.length_eq
  · show Encoded (beforePoll c s e).session.key (packetsOf (beforePoll c s e).session payload) datagrams
    rw [hsession]
    exact h.encoded

theorem Capturing.arrive (h : Capturing t payload before peer datagrams i s) (d : Datagram) :
    Capturing t payload before peer datagrams i (arrive s d) := by
  have hpaced := h.paced.arrive d
  unfold Dos.arrive at hpaced ⊢
  split at hpaced
  · exact ⟨hpaced, h.text_eq, h.opcode_eq, h.length_eq, h.encoded⟩
  · exact ⟨hpaced, h.text_eq, h.opcode_eq, h.length_eq, h.encoded⟩

/-- A run in which video memory does not change sends one block of the screen an entry. -/
theorem Capturing.resident (h : Capturing t payload before peer datagrams i s) (c : Config) (events : List ResidentEvent)
    (hevents : i + entries events ≤ datagrams.length)
    (hshown : ∀ e, .enter e ∈ events → fillTextCaptureFragment t e.machine 0 payload.length = payload) :
    Capturing t payload before peer datagrams (i + entries events) (s.resident c events) := by
  induction events generalizing s i with
  | nil => exact h
  | cons event events ih =>
    have htail : ∀ e, .enter e ∈ events → fillTextCaptureFragment t e.machine 0 payload.length = payload := by
      intro e he
      exact hshown e (List.mem_cons_of_mem _ he)
    cases event with
    | arrive d => exact ih (h.arrive d) hevents htail
    | enter e =>
      have hcons : entries (.enter e :: events) = entries events + 1 := List.countP_cons_of_pos rfl
      rw [hcons] at hevents ⊢
      rw [← Nat.add_assoc, Nat.add_right_comm]
      exact ih (h.enter (by omega) c (hshown e List.mem_cons_self)) (by omega) htail

end Capturing

/-- `CAPTURE_TEXT_SCREEN` leaves the whole screen pending. -/
theorem processRequest_capturing {s : State} (hsized : s.session.Sized) (henabled : s.enabled = true)
    (hfresh : s.session.lastActivityTick = s.ticks) (c : Config) (id : UInt16) :
    ∃ datagrams, Intact hsized.sessionKey dmKindResponse 4 s.session.id id
        (capturedScreen .ratsr c s.machine (capturePage s.machine) (s.captureGeneration + 1)) datagrams ∧
      Capturing (prepareTextCapture c s).2.textCapture
        (capturedScreen .ratsr c s.machine (capturePage s.machine) (s.captureGeneration + 1))
        s.sent s.session.peer datagrams 0 (processRequest .ratsr c s 4 id []).release ∧
      (processRequest .ratsr c s 4 id []).session.id = s.session.id ∧
      (processRequest .ratsr c s 4 id []).session.key = s.session.key := by
  have hlength := capturedScreen_length .ratsr c s.machine (capturePage s.machine) (s.captureGeneration + 1)
  have hcells := captureCells_le s.machine
  have hcount := responseFragmentCount_toNat .ratsr (by omega : 13 + captureCells s.machine ≤ 5120)
  simp only [Build.fragmentPayload] at hcount
  obtain ⟨datagrams, hintact, hencoded⟩ := exists_intact .ratsr hsized id (by omega : 13 + captureCells s.machine ≤ 5120) hlength
    (Or.inl rfl : dmKindResponse = _ ∨ _) (⟨by decide, by decide⟩ : dmOpHello ≤ 4 ∧ 4 ≤ dmOpMax)
  refine ⟨datagrams, hintact, ?_⟩
  have hdatagrams := hencoded.length_eq
  rw [responsePackets, List.length_map, List.length_range] at hdatagrams
  have hprocess : processRequest .ratsr c s 4 id [] =
      sendResponse .ratsr (prepareTextCapture c (s.logRequest ⟨4, id, []⟩)).2 dmKindResponse 4 id
        (.screen (13 + captureCells s.machine)) := rfl
  have hsend : (processRequest .ratsr c s 4 id []).textCapture = (prepareTextCapture c s).2.textCapture ∧
      (processRequest .ratsr c s 4 id []).session.responseOpcode = 4 ∧
      (processRequest .ratsr c s 4 id []).session.responsePayloadLength = 13 + captureCells s.machine ∧
      (processRequest .ratsr c s 4 id []).session.id = s.session.id ∧
      (processRequest .ratsr c s 4 id []).session.key = s.session.key ∧
      ∀ payload, packetsOf (processRequest .ratsr c s 4 id []).session payload =
        responsePackets .ratsr s.session dmKindResponse 4 id (responseFragmentCount .ratsr (13 + captureCells s.machine))
          payload := by
    rw [hprocess]
    unfold sendResponse
    dsimp only [Source.length]
    rw [if_neg (by rw [gt_iff_lt, not_lt, hcount]; simp only [Build.maxFragments]; omega)]
    exact ⟨rfl, rfl, rfl, rfl, rfl, fun _ => rfl⟩
  obtain ⟨htext, hopcode, hpayload, hid, hkey, hpackets⟩ := hsend
  refine ⟨⟨?_, htext, hopcode, hpayload.trans hlength.symm, ?_⟩, hid, hkey⟩
  · have hcounted : 1 ≤ (responseFragmentCount .ratsr (Source.screen (13 + captureCells s.machine)).length).toNat ∧
        (responseFragmentCount .ratsr (Source.screen (13 + captureCells s.machine)).length).toNat ≤ 16 := by
      simp only [Source.length, hcount]
      omega
    rw [hprocess]
    exact sendResponse_paced (s := (prepareTextCapture c (s.logRequest ⟨4, id, []⟩)).2) dmKindResponse 4 id henabled hfresh
      hcounted hdatagrams.symm none
  · show Encoded (processRequest .ratsr c s 4 id []).session.key (packetsOf (processRequest .ratsr c s 4 id []).session _)
      datagrams
    rw [hkey, hpackets]
    exact hencoded

/-- In every run: a worker entry that answers `CAPTURE_TEXT_SCREEN` while the active page is at
    most 7, followed by the entries that send the response while video memory stays what it was,
    sends the screen that RAGENT's `capture_screen` reads there, apart from the adapter and the
    generation; the bridge accepts it. -/
theorem paced_capture_refines (c : Config) (m : Machine) (store : Store) (events : List ResidentEvent) (e : Entry) (id : UInt16)
    (hadapter : ∃ (installed : Machine) (videoMode : UInt8), c.cachedAdapter = installed.detectAdapter videoMode)
    (hrequest : entryRequest c ((State.start m store).resident c events) e = some ⟨4, id, []⟩)
    (hpage : e.machine.peek 0x40 0x62 ≤ 7) (later : List ResidentEvent)
    (hlater : entries later = ((State.start m store).resident c (events ++ [.enter e])).session.responseCount.toNat)
    (hshown : ∀ e', .enter e' ∈ later →
      ∀ offset, e'.machine.peek (captureSegment e.machine) offset = e.machine.peek (captureSegment e.machine) offset)
    (c' : Config) (t : State) (hmachine : t.machine = e.machine) :
    ∃ payload,
      Intact (residentKey c m store (events ++ [.enter e])) dmKindResponse 4
        ((State.start m store).resident c (events ++ [.enter e])).session.id id payload
        (emitted c ((State.start m store).resident c (events ++ [.enter e])) later) ∧
      payload.length = (captureScreen c' t).1.length ∧
      (∀ i, i ≠ 8 → i ≠ 11 → i ≠ 12 → payload[i]? = (captureScreen c' t).1[i]?) ∧
      ∃ screen, ScreenMessage.decode payload = .ok screen := by
  obtain ⟨henabled, packet, reassembly, workspace, hworker⟩ := entryRequest_worker hrequest
  have hsized := sized_beforePoll (resident_sized (sized_start m store) c events) c e
  have hstep : (State.start m store).resident c (events ++ [.enter e]) =
      ratsrIdleWorker c ((State.start m store).resident c events) e := List.foldl_append
  rw [hworker] at hstep
  obtain ⟨u, hu⟩ : ∃ u, { (beforePoll c ((State.start m store).resident c events) e).heard packet with
      reassembly := reassembly, workspace := workspace } = u := ⟨_, rfl⟩
  rw [hu] at hstep
  have humachine : u.machine = e.machine := by
    rw [← hu]
    exact (beforePoll_capture c _ e).2
  have husized : u.session.Sized := by
    rw [← hu]
    exact ⟨hsized.key, hsized.responses⟩
  have huenabled : u.enabled = true := by
    rw [← hu]
    exact (beforePoll_sent c _ e).2.1.trans henabled
  have hufresh : u.session.lastActivityTick = u.ticks := by
    rw [← hu]
    rfl
  obtain ⟨datagrams, hintact, hcapturing, hid, hkey⟩ := processRequest_capturing husized huenabled hufresh c id
  have hentries : entries later = datagrams.length := by
    rw [hlater, hstep]
    exact hcapturing.paced.length_eq.symm
  have hscreen : ∀ e', .enter e' ∈ later →
      fillTextCaptureFragment (prepareTextCapture c u).2.textCapture e'.machine 0
        (capturedScreen .ratsr c u.machine (capturePage u.machine) (u.captureGeneration + 1)).length =
        capturedScreen .ratsr c u.machine (capturePage u.machine) (u.captureGeneration + 1) := by
    intro e' he'
    rw [capturedScreen_length]
    exact fillTextCaptureFragment_prepared c u (by rw [humachine]; exact hshown e' he')
  have hrun := hcapturing.resident c later (by omega) hscreen
  have hemitted : emitted c ((State.start m store).resident c (events ++ [.enter e])) later = datagrams := by
    have hsent : (processRequest .ratsr c u 4 id []).release.sent = u.sent := by
      rw [hcapturing.paced.sent_eq, List.take_zero, List.map_nil, List.append_nil]
    rw [emitted, hstep, hrun.paced.sent_eq, hsent, List.drop_left, hentries, Nat.zero_add, List.take_length, List.map_map]
    exact List.map_id _
  have hsession : ((State.start m store).resident c (events ++ [.enter e])).session.id = u.session.id ∧
      residentKey c m store (events ++ [.enter e]) = husized.sessionKey := by
    have hbytes : ((State.start m store).resident c (events ++ [.enter e])).session.key = u.session.key := by
      rw [hstep]
      exact hkey
    refine ⟨by rw [hstep]; exact hid, ?_⟩
    unfold residentKey AgentSession.Sized.sessionKey
    simp only [hbytes]
  rw [hemitted, hsession.1, hsession.2]
  have hsame : capturePage e.machine = e.machine.peek 0x40 0x62 := if_pos hpage
  rw [humachine, hsame] at hintact
  refine ⟨_, hintact, ?_, ?_, ?_⟩
  · rw [captureScreen_eq, capturedScreen_length, capturedScreen_length, hmachine]
  · intro i h8 h11 h12
    rw [captureScreen_eq, hmachine]
    exact capturedScreen_getElem? c c' e.machine _ _ _ h8 h11 h12
  · obtain ⟨installed, videoMode, hcached⟩ := hadapter
    obtain ⟨adapter, hvalue⟩ := detectAdapter_known installed videoMode
    rw [← hcached] at hvalue
    obtain ⟨screen, hdecode, -⟩ := @decode_capturedScreen .ratsr c e.machine adapter hvalue (e.machine.peek 0x40 0x62)
      (u.captureGeneration + 1)
    exact ⟨screen, hdecode⟩

/-- A session in which `CAPTURE_TEXT_SCREEN` arrives. -/
def captureRequested : List ResidentEvent := [helloEvent 0 1, timerEntry, timerEntry, sessionEvent 0 4 2 []]

/-- A timer entry on the machine with empty memory. -/
def blankEntry : Entry := ⟨false, false, blankMachine⟩

/-- The empty screen, in sixteen entries. -/
theorem paced_capture_refines_blank :
    ∃ payload,
      Intact (residentKey sampleConfig blankMachine emptyStore (captureRequested ++ [.enter blankEntry])) dmKindResponse 4
        ((State.start blankMachine emptyStore).resident sampleConfig (captureRequested ++ [.enter blankEntry])).session.id 2 payload
        (emitted sampleConfig ((State.start blankMachine emptyStore).resident sampleConfig (captureRequested ++ [.enter blankEntry]))
          (List.replicate 16 timerEntry)) ∧
      payload.length = (captureScreen sampleConfig (State.start blankMachine emptyStore)).1.length ∧
      (∀ i, i ≠ 8 → i ≠ 11 → i ≠ 12 →
        payload[i]? = (captureScreen sampleConfig (State.start blankMachine emptyStore)).1[i]?) ∧
      ∃ screen, ScreenMessage.decode payload = .ok screen := by
  have hrequest : entryRequest sampleConfig ((State.start blankMachine emptyStore).resident sampleConfig captureRequested)
      blankEntry = some ⟨4, 2, []⟩ := by decide +kernel
  have hlater : entries (List.replicate 16 timerEntry) = ((State.start blankMachine emptyStore).resident sampleConfig
      (captureRequested ++ [.enter blankEntry])).session.responseCount.toNat := by decide +kernel
  have hshown : ∀ e', .enter e' ∈ List.replicate 16 timerEntry → ∀ offset,
      e'.machine.peek (captureSegment blankMachine) offset = blankMachine.peek (captureSegment blankMachine) offset := by
    intro e' he' offset
    cases List.eq_of_mem_replicate he'
    rfl
  exact paced_capture_refines sampleConfig blankMachine emptyStore captureRequested blankEntry 2
    ⟨blankMachine, 3, by decide⟩ hrequest (by decide) (List.replicate 16 timerEntry) hlater hshown sampleConfig
    (State.start blankMachine emptyStore) rfl

/-! ## Capabilities -/

theorem pack_capabilities (flags : UInt32) (columns rows adapter : UInt8) (fragment keys : UInt16) :
    pack [(4, (flags.toNat : Int)), (1, (columns.toNat : Int)), (1, (rows.toNat : Int)), (1, (adapter.toNat : Int)),
      (2, (fragment.toNat : Int)), (2, (keys.toNat : Int))] =
        some (dmPutU32 flags ++ [columns, rows, adapter] ++ dmPutU16 fragment ++ dmPutU16 keys) := by
  simp only [pack_u8, pack_u16, pack_u32, pack_nil, Option.map_some, List.append_nil, List.append_assoc]
  rfl

theorem agentCapabilities_known (b : Build) (c : Config) :
    (agentCapabilities b c).toNat &&& (0xFFFFFFFF ^^^ knownCapabilities) = 0 := by
  unfold agentCapabilities
  cases b
  all_goals dsimp only
  · decide
  · split <;> split <;> decide

/-- The bridge refuses the capabilities of a screen without columns. -/
theorem decode_buildCapabilities {b : Build} {c : Config} {m : Machine} {adapter : Adapter}
    (hadapter : adapter.value = (currentAdapter b c m).toNat) :
    CapabilitiesMessage.decode (buildCapabilities b c m) =
      if screenColumns m = 0 then .error (.valueError "invalid screen dimensions")
      else .ok ⟨(agentCapabilities b c).toNat, (screenColumns m).toNat, 25, adapter, 1024, 15⟩ := by
  have hpack := structPack_eq_ok.mpr (pack_capabilities (agentCapabilities b c) (screenColumns m) 25 (currentAdapter b c m)
    dmMaxFragmentPayload 15)
  have hlen : (buildCapabilities b c m).length = 11 := structPack_length hpack
  have hfields := structPack_fieldsAt hpack []
  simp only [List.map_cons, List.map_nil, fieldsAt, Nat.zero_add, Nat.reduceAdd, List.append_nil, List.cons.injEq,
    Prod.mk.injEq, true_and, and_true, Nat.cast_inj] at hfields
  obtain ⟨h0, h4, h5, h6, h7, h9⟩ := hfields
  have hknown : Adapter.ofValue? (currentAdapter b c m).toNat = some adapter := hadapter ▸ adapter.ofValue?_value
  have hfragment : dmMaxFragmentPayload.toNat = 1024 := rfl
  have hcolumns := screenColumns_toNat m
  unfold CapabilitiesMessage.decode requireSize
  rw [raiseIf_false (not_not.mpr hlen), ok_bind]
  simp only [buildCapabilities, h0, h4, h5, h6, h7, h9, hfragment]
  rw [raiseIf_false (not_not.mpr (agentCapabilities_known b c)), ok_bind, enumOf_eq_ok.mpr hknown, ok_bind]
  by_cases hzero : screenColumns m = 0
  · rw [if_pos hzero, hzero]
    rfl
  · have hpos : 1 ≤ (screenColumns m).toNat := Nat.pos_of_ne_zero fun h => hzero (UInt8.toNat_inj.mp h)
    rw [if_neg hzero, raiseIf_false, ok_bind, raiseIf_false (by decide)]
    · rfl
    · simp only [not_or, not_not]
      exact ⟨⟨hpos, by omega⟩, by decide⟩

/-- The payload of an answer, a captured screen as the machine shows it while it is sent. -/
def answerPayload (m : Machine) : Reply × State → Option Bytes
  | (.error _ _, _) => none
  | (.screen bytes, _) => some bytes
  | (.capture length, s) => some (fillTextCaptureFragment s.textCapture m 0 length)

/-- Both agents, any machine: the bridge accepts the capabilities and the screen, with the same
    columns and rows, exactly when the column word of the BIOS is not zero. -/
theorem capabilities_describe_screen_iff (b : Build) (c : Config) (s : State) (m : Machine)
    (hadapter : b = .ratsr → ∃ (installed : Machine) (videoMode : UInt8), c.cachedAdapter = installed.detectAdapter videoMode) :
    (∃ capabilities screen payload payload',
      answerPayload m (operate b c s 3 []) = some payload ∧ CapabilitiesMessage.decode payload = .ok capabilities ∧
        answerPayload m (operate b c s 4 []) = some payload' ∧ ScreenMessage.decode payload' = .ok screen ∧
        capabilities.columns = screen.columns ∧ capabilities.rows = screen.rows) ↔
      s.machine.peek16 0x40 0x4A ≠ 0 := by
  have hword : screenColumns s.machine = 0 ↔ s.machine.peek16 0x40 0x4A = 0 := by
    rw [← UInt8.toNat_inj, ← UInt16.toNat_inj, screenColumns_toNat]
    show min _ 80 = 0 ↔ _ = 0
    omega
  obtain ⟨adapter, hvalue⟩ : ∃ adapter : Adapter, adapter.value = (currentAdapter b c s.machine).toNat := by
    cases b with
    | ragent => exact detectAdapter_known s.machine s.machine.videoMode
    | ratsr =>
      obtain ⟨installed, videoMode, hcached⟩ := hadapter rfl
      rw [currentAdapter, hcached]
      exact detectAdapter_known installed videoMode
  have hcapabilities : answerPayload m (operate b c s 3 []) = some (buildCapabilities b c s.machine) := rfl
  rw [ne_eq, ← hword]
  constructor
  · rintro ⟨capabilities, -, payload, -, hpayload, hdecode, -⟩ hzero
    rw [hcapabilities] at hpayload
    cases hpayload
    rw [decode_buildCapabilities hvalue, if_pos hzero] at hdecode
    cases hdecode
  · intro hcolumns
    obtain ⟨payload, screen, hscreen, hdecode, hsame, hrows⟩ : ∃ payload screen,
        answerPayload m (operate b c s 4 []) = some payload ∧ ScreenMessage.decode payload = .ok screen ∧
          screen.columns = (captureColumns s.machine).toNat ∧ screen.rows = 25 := by
      cases b with
      | ragent =>
        obtain ⟨screen, hdecode, hsame, hrows⟩ := decode_capturedScreen hvalue (s.machine.peek 0x40 0x62) (s.captureGeneration + 1)
        exact ⟨_, screen, rfl, hdecode, hsame, hrows⟩
      | ratsr =>
        obtain ⟨screen, hdecode, hsame, hrows, -⟩ := @decode_captureHeader .ratsr c s.machine adapter hvalue
          (capturePage s.machine) (s.captureGeneration + 1) ((List.range (captureCells s.machine)).map fun i =>
            m.peek (captureSegment s.machine) (s.machine.peek16 0x40 0x4E + .ofNat i))
          (by rw [List.length_map, List.length_range])
        rw [← fillTextCaptureFragment_cells] at hdecode
        exact ⟨_, screen, rfl, hdecode, hsame, hrows⟩
    have hdescribed := decode_buildCapabilities hvalue
    rw [if_neg hcolumns] at hdescribed
    refine ⟨_, screen, _, payload, hcapabilities, hdescribed, hscreen, hdecode, ?_, ?_⟩
    · rw [hsame, captureColumns, if_neg hcolumns]
    · rw [hrows]
      rfl

/-- The machine with empty memory: no columns in the capabilities, 80 in the screen. -/
theorem capabilities_without_columns :
    answerPayload blankMachine (operate .ragent sampleConfig (State.start blankMachine emptyStore) 3 []) =
        some (buildCapabilities .ragent sampleConfig blankMachine) ∧
      CapabilitiesMessage.decode (buildCapabilities .ragent sampleConfig blankMachine) =
        .error (.valueError "invalid screen dimensions") ∧
      ∃ payload screen,
        answerPayload blankMachine (operate .ragent sampleConfig (State.start blankMachine emptyStore) 4 []) = some payload ∧
          ScreenMessage.decode payload = .ok screen ∧ screen.columns = 80 ∧ screen.rows = 25 := by
  have hvalue : Adapter.vga.value = (currentAdapter .ragent sampleConfig blankMachine).toNat := by decide
  have hzero : screenColumns blankMachine = 0 := by decide
  refine ⟨rfl, ?_, ?_⟩
  · rw [decode_buildCapabilities hvalue, if_pos hzero]
  · obtain ⟨screen, hdecode, hcolumns, hrows⟩ := decode_capturedScreen hvalue 0 1
    exact ⟨_, screen, rfl, hdecode, hcolumns, hrows⟩

/-- A machine with 40 columns. -/
def fortyColumns : Machine := { blankMachine with memory := Memory.store (fun _ => 0) 0x44A [40, 0] }

theorem capabilities_describe_screen_forty :
    ∃ capabilities screen payload payload',
      answerPayload fortyColumns (operate .ratsr sampleConfig (State.start fortyColumns emptyStore) 3 []) = some payload ∧
        CapabilitiesMessage.decode payload = .ok capabilities ∧
        answerPayload fortyColumns (operate .ratsr sampleConfig (State.start fortyColumns emptyStore) 4 []) = some payload' ∧
        ScreenMessage.decode payload' = .ok screen ∧
        capabilities.columns = screen.columns ∧ capabilities.rows = screen.rows :=
  (capabilities_describe_screen_iff .ratsr sampleConfig (State.start fortyColumns emptyStore) fortyColumns
    fun _ => ⟨blankMachine, 3, by decide⟩).mpr (by decide)

end DosMcp.Dos
