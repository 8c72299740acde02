/-
  DosMcp.Server.AgentProofs — what one call of `handle_datagram` can do.

  - `handleDatagram_session`: a datagram of the session's own packets reaches the replay
    check; `handlePacket_cases` lists what follows: answered from the cache, refused,
    stored as a fragment, or dispatched.
  - `dispatch_recorded`: a dispatched request is recorded (last request ID and response
    cache) whenever its reply fits a message; `operate_reply_length` says that only a text
    screen can be too large.
-/

import DosMcp.Lib.Traverse
import DosMcp.Protocol.FragmentProofs
import DosMcp.Protocol.MessageProofs
import DosMcp.Server.Agent

namespace DosMcp

open Lib

/-! ## Reply sizes -/

theorem encodeError_length (code : ErrorCode) (message : String) : (encodeError code message).length ≤ maxFragmentPayload := by
  simp only [encodeError, List.length_append, leBytes_length, List.length_take, maxFragmentPayload]
  omega

theorem ScreenMessage.encode_length {m : ScreenMessage} {bs : Bytes} (h : m.encode = .ok bs) :
    bs.length = 13 + 2 * m.columns * m.rows := by
  simp only [encode, bind_eq_ok] at h
  obtain ⟨_, hvalid, head, hhead, hbs⟩ := h
  obtain rfl : head ++ m.cells = bs := Except.ok.inj hbs
  have hl : head.length = 13 := structPack_length hhead
  rw [List.length_append, hl, (validate_eq_ok.mp hvalid).2.1]
  ring

theorem TransferBlockResponse.encode_length {m : TransferBlockResponse} {bs : Bytes} (h : m.encode = .ok bs) :
    bs.length ≤ maxFragmentPayload := by
  simp only [encode, bind_eq_ok, raiseIf_eq_ok] at h
  obtain ⟨_, hle, head, hhead, hbs⟩ := h
  obtain rfl : head ++ m.data = bs := Except.ok.inj hbs
  have hl : head.length = 12 := structPack_length hhead
  simp only [List.length_append, maxFragmentPayload, maxTransferBlock] at *
  omega

/-- A fixed-layout reply is far below the limit. -/
theorem structPack_length_le {fields : List (Nat × Int)} {bs : Bytes} (h : structPack fields = .ok bs)
    (hle : (fields.map Prod.fst).sum ≤ 64) : bs.length ≤ maxFragmentPayload := by
  rw [structPack_length h]
  exact Nat.le_trans hle (by decide)

theorem TransferBeginResponse.encode_length {m : TransferBeginResponse} {bs : Bytes} (h : m.encode = .ok bs) :
    bs.length ≤ maxFragmentPayload :=
  structPack_length_le h (by simp)

/-- Every text screen the backend hands out fits one message. -/
def Env.screenFits (env : Env) : Bool :=
  match env.backend.captureScreen with
  | .ok screen => 13 + 2 * screen.columns * screen.rows ≤ maxMessageSize
  | .error _ => true

theorem readTransferBlock_reply_length {active : Option Transfer} {request : TransferBlockRequest} {kind : TransferKind}
    {bs : Bytes} (h : (readTransferBlock active request kind).reply = .ok bs) : bs.length ≤ maxFragmentPayload := by
  unfold readTransferBlock at h
  split at h
  · cases h
  split at h
  · cases h
  · exact TransferBlockResponse.encode_length h

theorem endReadTransfer_reply_length {active : Option Transfer} {request : TransferEndRequest} {kind : TransferKind}
    {bs : Bytes} (h : (endReadTransfer active request kind).reply = .ok bs) : bs.length ≤ maxFragmentPayload := by
  unfold endReadTransfer at h
  split at h
  · cases h
  split at h
  · cases h
  split at h
  · cases h
  · rename_i response hr
    cases h
    exact structPack_length_le hr (by simp)

theorem writeTransferBlock_reply_length {active : Option Transfer} {request : TransferBlockRequest} {bs : Bytes}
    (h : (writeTransferBlock active request).reply = .ok bs) : bs.length ≤ maxFragmentPayload := by
  unfold writeTransferBlock at h
  split at h
  · cases h
  split at h
  · cases h
  · exact TransferBlockResponse.encode_length h

theorem commitWriteTransfer_reply_length {env : Env} {active : Option Transfer} {request : TransferEndRequest} {bs : Bytes}
    (h : (commitWriteTransfer env active request).reply = .ok bs) : bs.length ≤ maxFragmentPayload := by
  unfold commitWriteTransfer at h
  split at h
  · cases h
  split at h
  · cases h
  simp only at h
  split at h
  · cases h
  split at h
  · cases h
  · rename_i response hr
    cases h
    exact structPack_length_le hr (by simp)

theorem observe_reply {α : Type} {active : Option Transfer} {payload : Bytes} {call : Call} {answer : Except Exc α}
    {encode : α → Except Exc Bytes} {bs : Bytes} (h : (observe active payload call answer encode).reply = .ok bs) :
    ∃ a, answer = .ok a ∧ encode a = .ok bs := by
  unfold observe at h
  split at h
  · cases h
  · exact bind_eq_ok.mp h

theorem withRequest_reply {α : Type} {active : Option Transfer} {request : Except Exc α} {run : α → Outcome} {bs : Bytes}
    (h : (withRequest active request run).reply = .ok bs) : ∃ r, request = .ok r ∧ (run r).reply = .ok bs := by
  unfold withRequest at h
  split at h
  · cases h
  · exact ⟨_, rfl, h⟩

/-- The reply to anything but a text screen or a ping is one packet. -/
theorem operate_reply_short {env : Env} {active : Option Transfer} {opcode : Opcode}
    {payload bs : Bytes} {outcome : Outcome} (hscreen : opcode ≠ .captureTextScreen) (hping : opcode ≠ .ping)
    (h : operate env active opcode payload = some outcome) (hr : outcome.reply = .ok bs) :
    bs.length ≤ maxFragmentPayload := by
  cases opcode <;> simp only [operate, Option.some.injEq, reduceCtorEq] at h <;> subst h
  case getStatus =>
    obtain ⟨status, -, he⟩ := observe_reply hr
    obtain ⟨m, -, he⟩ := bind_eq_ok.mp he
    exact structPack_length_le he (by simp)
  case getCapabilities =>
    obtain ⟨c, -, he⟩ := observe_reply hr
    exact structPack_length_le he (by simp)
  case captureTextScreen => exact absurd rfl hscreen
  case sendKeys =>
    unfold sendKeysOperation at hr
    split at hr
    · cases hr
    · obtain ⟨receipt, -, he⟩ := bind_eq_ok.mp hr
      exact structPack_length_le he (by simp)
  case ping => exact absurd rfl hping
  case fileReadBegin =>
    unfold fileReadBegin at hr
    split at hr
    · cases hr
    simp only at hr
    split at hr
    · cases hr
    split at hr
    · cases hr
    · simp only at hr
      exact TransferBeginResponse.encode_length hr
  case fileWriteBegin =>
    unfold fileWriteBegin at hr
    split at hr
    · cases hr
    split at hr
    · cases hr
    split at hr
    · cases hr
    · simp only at hr
      exact TransferBeginResponse.encode_length hr
  case fileAbort =>
    unfold fileAbort at hr
    split at hr
    · cases hr
    · split at hr <;> cases hr <;> exact Nat.zero_le _
  case graphicsBegin =>
    unfold graphicsBegin at hr
    split at hr
    · cases hr
    split at hr
    · cases hr
    split at hr
    · cases hr
    obtain ⟨m, -, he⟩ := bind_eq_ok.mp hr
    exact structPack_length_le he (by simp)
  case fileReadBlock =>
    obtain ⟨r, -, hr⟩ := withRequest_reply hr
    exact readTransferBlock_reply_length hr
  case graphicsBlock =>
    obtain ⟨r, -, hr⟩ := withRequest_reply hr
    exact readTransferBlock_reply_length hr
  case fileReadEnd =>
    obtain ⟨r, -, hr⟩ := withRequest_reply hr
    exact endReadTransfer_reply_length hr
  case graphicsEnd =>
    obtain ⟨r, -, hr⟩ := withRequest_reply hr
    exact endReadTransfer_reply_length hr
  case fileWriteBlock =>
    obtain ⟨r, -, hr⟩ := withRequest_reply hr
    exact writeTransferBlock_reply_length hr
  case fileWriteCommit =>
    obtain ⟨r, -, hr⟩ := withRequest_reply hr
    exact commitWriteTransfer_reply_length hr

theorem operate_reply_length {env : Env} (hscreen : env.screenFits) {active : Option Transfer} {opcode : Opcode}
    {payload bs : Bytes} {outcome : Outcome} (hp : payload.length ≤ maxMessageSize)
    (h : operate env active opcode payload = some outcome) (hr : outcome.reply = .ok bs) : bs.length ≤ maxMessageSize := by
  by_cases hcapture : opcode = .captureTextScreen
  · subst hcapture
    simp only [operate, Option.some.injEq] at h
    subst h
    obtain ⟨screen, hs, he⟩ := observe_reply hr
    rw [ScreenMessage.encode_length he]
    simp only [Env.screenFits, hs, decide_eq_true_eq] at hscreen
    exact hscreen
  · by_cases hping : opcode = .ping
    · subst hping
      simp only [operate, Option.some.injEq] at h
      subst h
      cases hr
      exact hp
    · exact Nat.le_trans (operate_reply_short hcapture hping h hr) (by decide)

/-! ## Recording a reply -/

/-- The session after a reply to `requestId` has been recorded. -/
def Session.record (session : Session) (requestId : Nat) (encoded : List Bytes) : Session :=
  { session with lastRequestId := some requestId
                 responseCache := trimCache (session.responseCache.set requestId encoded) }

/-- A reply that fits is recorded; the datagrams sent are the recorded ones, or none where
    the first response is dropped on purpose. -/
theorem sendResponse_recorded {s : UdpAgentServer} {session : Session} (kind : MessageKind) (opcode : Opcode)
    {requestId : Nat} {payload : Bytes} (hs : session.sessionId ≤ 0xFFFF) (hr : requestId ≤ 0xFFFF)
    (hp : payload.length ≤ maxMessageSize) :
    ∃ packets, fragmentMessage kind opcode session.sessionId requestId payload = .ok packets ∧
      let encoded := packets.map (·.encode session.key)
      let r := s.sendResponse session kind opcode requestId payload
      r.server.session = some (session.record requestId encoded) ∧ r.server.key = s.key ∧
        r.server.transfer = s.transfer ∧ r.calls = [] ∧ r.dispatched = none ∧ r.raised = none ∧
        (r.sent = [] ∨ r.sent = encoded.map (session.address, ·)) := by
  obtain ⟨packets, hok⟩ := fragmentMessage_isOk kind opcode hp hs hr
  refine ⟨packets, hok, ?_⟩
  simp only [UdpAgentServer.sendResponse, hok]
  split
  · exact ⟨rfl, rfl, rfl, rfl, rfl, rfl, Or.inl rfl⟩
  · exact ⟨rfl, rfl, rfl, rfl, rfl, rfl, Or.inr rfl⟩

/-! ## Datagrams -/

/-- A datagram of the session that decodes reaches the replay check. -/
theorem handleDatagram_session {s : UdpAgentServer} {session : Session} (hs : s.session = some session) (env : Env)
    {d : Bytes} {packet : Packet} (hd : Packet.decode d session.key = .ok packet) (hlen : d.length ≤ maxDatagram)
    (hkind : packet.kind = .request) (hsid : packet.sessionId = session.sessionId) (hne : session.sessionId ≠ 0) :
    s.handleDatagram env d session.address = s.handlePacket session env packet.requestId packet := by
  have hu : unpackHeader d = packet.header session.key := by
    rcases Packet.encode_of_decode hd with rfl | rfl
    · simpa using packet.unpackHeader_encode session.key []
    · exact packet.unpackHeader_encode session.key [0]
  have hmin : headerSize ≤ d.length := (Packet.decode_eq_ok hd).1
  have hk : (unpackHeader d).rawKind = MessageKind.request.value := by rw [hu, ← hkind]; rfl
  have hsd : (unpackHeader d).sessionId = session.sessionId := by rw [hu, ← hsid]; rfl
  have hrq : (unpackHeader d).requestId = packet.requestId := by rw [hu]; rfl
  rw [UdpAgentServer.handleDatagram, if_neg (by omega)]
  simp only [hk, hsd, hs, hd, hrq, hne, ne_eq, not_true_eq_false, if_false, and_false, or_self]

/-- What the replay check and the reassembly can do with a packet. -/
theorem handlePacket_cases (s : UdpAgentServer) (session : Session) (env : Env) (packet : Packet) :
    (session.responseCache.has packet.requestId = true ∧
      s.handlePacket session env packet.requestId packet = s.sendCached session packet.requestId) ∨
    (session.responseCache.has packet.requestId = false ∧ session.refuses packet.requestId = true ∧
      s.handlePacket session env packet.requestId packet =
        s.sendError session packet.opcode packet.requestId .replayedRequest
          "request ID is outside the replay window") ∨
    (session.responseCache.has packet.requestId = false ∧ session.refuses packet.requestId = false ∧ ∃ table,
      s.handlePacket session env packet.requestId packet =
        { s with session := some { session with pending := table } }.idle) ∨
    (session.responseCache.has packet.requestId = false ∧ session.refuses packet.requestId = false ∧
      ∃ table payload, payload.length ≤ maxMessageSize ∧
        s.handlePacket session env packet.requestId packet =
          { s with session := some { session with pending := table } }.dispatch { session with pending := table } env
            packet.opcode packet.requestId payload) := by
  unfold UdpAgentServer.handlePacket
  cases hc : session.responseCache.has packet.requestId
  · cases hr : session.refuses packet.requestId
    · simp only [Bool.false_eq_true, if_false, true_and, false_and, false_or,
        UdpAgentServer.acceptFragment]
      split
      · exact Or.inl ⟨_, rfl⟩
      · split
        · exact Or.inl ⟨_, rfl⟩
        · rename_i payload hp
          exact Or.inr ⟨_, payload, reassemblePackets_length hp, rfl⟩
    · simp
  · simp

/-- A dispatched request is recorded under its ID, whatever the operation did. -/
theorem dispatch_recorded {s : UdpAgentServer} (session : Session) {env : Env} (hscreen : env.screenFits) (opcode : Opcode)
    {requestId : Nat} {payload : Bytes} (hs : session.sessionId ≤ 0xFFFF) (hr : requestId ≤ 0xFFFF)
    (hp : payload.length ≤ maxMessageSize) :
    let r := s.dispatch session env opcode requestId payload
    r.dispatched = some ⟨opcode, requestId, payload⟩ ∧ r.raised = none ∧ r.server.key = s.key ∧
      ∃ encoded, r.server.session = some (session.record requestId encoded) := by
  simp only [UdpAgentServer.dispatch]
  split
  · obtain ⟨packets, -, h1, h2, -, -, -, h3, -⟩ := sendResponse_recorded (s := s) .error opcode
      hs hr (Nat.le_trans (encodeError_length .unsupportedOperation "operation is not implemented") (by decide))
    exact ⟨rfl, h3, h2, _, h1⟩
  · rename_i outcome ho
    split
    · rename_i response hok
      obtain ⟨packets, -, h1, h2, -, -, -, h3, -⟩ := sendResponse_recorded
        (s := { s with transfer := outcome.transfer }) .response opcode hs hr
        (operate_reply_length hscreen hp ho hok)
      exact ⟨rfl, h3, h2, _, h1⟩
    · split
      · rename_i text _
        obtain ⟨packets, -, h1, h2, -, -, -, h3, -⟩ := sendResponse_recorded
          (s := { s with transfer := outcome.transfer }) .error opcode hs hr
          (Nat.le_trans (encodeError_length .invalidArgument text) (by decide))
        exact ⟨rfl, h3, h2, _, h1⟩
      · obtain ⟨packets, -, h1, h2, -, -, -, h3, -⟩ := sendResponse_recorded
          (s := { s with transfer := outcome.transfer }) .error opcode hs hr
          (Nat.le_trans (encodeError_length .internalFailure "target operation failed") (by decide))
        exact ⟨rfl, h3, h2, _, h1⟩

/-! ## What a call leaves -/

/-- A reply to `requestId` was recorded, or it raised and the session stayed as it was. -/
def Session.Replied (session : Session) (requestId : Nat) (r : Result) : Prop :=
  (r.raised ≠ none ∧ r.server.session = some session) ∨
    (r.raised = none ∧ ∃ encoded, r.server.session = some (session.record requestId encoded))

theorem sendResponse_replied (s : UdpAgentServer) (session : Session) (kind : MessageKind) (opcode : Opcode)
    (requestId : Nat) (payload : Bytes) :
    (s.sendResponse session kind opcode requestId payload).dispatched = none ∧
      session.Replied requestId (s.sendResponse session kind opcode requestId payload) := by
  unfold UdpAgentServer.sendResponse
  split
  · exact ⟨rfl, Or.inl ⟨nofun, rfl⟩⟩
  · dsimp only
    split
    · exact ⟨rfl, Or.inr ⟨rfl, _, rfl⟩⟩
    · exact ⟨rfl, Or.inr ⟨rfl, _, rfl⟩⟩

theorem dispatch_replied (s : UdpAgentServer) (session : Session) (env : Env) (opcode : Opcode) (requestId : Nat)
    (payload : Bytes) :
    (s.dispatch session env opcode requestId payload).dispatched = some ⟨opcode, requestId, payload⟩ ∧
      session.Replied requestId (s.dispatch session env opcode requestId payload) := by
  simp only [UdpAgentServer.dispatch]
  split
  · exact ⟨rfl, (sendResponse_replied s session _ _ _ _).2⟩
  · rename_i outcome _
    refine ⟨rfl, ?_⟩
    split
    · exact (sendResponse_replied { s with transfer := outcome.transfer } session _ _ _ _).2
    · split
      · exact (sendResponse_replied { s with transfer := outcome.transfer } session _ _ _ _).2
      · exact (sendResponse_replied { s with transfer := outcome.transfer } session _ _ _ _).2

/-- The fragments under the packet's request ID, the packet among them. -/
def Session.gathered (session : Session) (packet : Packet) : Dict Nat Packet :=
  (((session.pendingFor packet.requestId).get? packet.requestId).getD []).set packet.fragmentIndex packet

/-- The pending table with the packet in it. -/
def Session.stored (session : Session) (packet : Packet) : Dict Nat (Dict Nat Packet) :=
  (session.pendingFor packet.requestId).set packet.requestId (session.gathered packet)

/-- What a packet that passes the replay check does: its request is not complete yet, or not
    well formed, or dispatched. -/
theorem acceptFragment_cases (s : UdpAgentServer) (session : Session) (env : Env) (packet : Packet) :
    let r := s.acceptFragment session env packet.requestId packet
    ((session.gathered packet).length ≠ packet.fragmentCount ∧ r.dispatched = none ∧ r.raised = none ∧
      r.server.session = some { session with pending := session.stored packet }) ∨
    ((session.gathered packet).length = packet.fragmentCount ∧
      let rest := { session with pending := (session.stored packet).erase packet.requestId }
      ((∃ e, reassemblePackets (session.gathered packet).values = .error e) ∧ r.dispatched = none ∧ r.raised = none ∧
          r.server.session = some rest) ∨
        ∃ payload, reassemblePackets (session.gathered packet).values = .ok payload ∧
          r.dispatched = some ⟨packet.opcode, packet.requestId, payload⟩ ∧ rest.Replied packet.requestId r) := by
  simp only [UdpAgentServer.acceptFragment, ← Session.gathered.eq_def, ← Session.stored.eq_def]
  split
  · rename_i hlen
    exact Or.inl ⟨hlen, rfl, rfl, rfl⟩
  · rename_i hlen
    refine Or.inr ⟨not_not.mp hlen, ?_⟩
    cases hr : reassemblePackets (session.gathered packet).values with
    | error e => exact Or.inl ⟨⟨e, rfl⟩, rfl, rfl, rfl⟩
    | ok payload => exact Or.inr ⟨payload, rfl, dispatch_replied _ _ _ _ _ _⟩

/-! ## HELLO -/

theorem helloSessionId_range (c n : Nat) : 1 ≤ helloSessionId c n ∧ helloSessionId c n ≤ 0xFFFF := by
  have hle : (n ^^^ c) &&& 0xFFFF ≤ 0xFFFF := Nat.and_le_right
  simp only [helloSessionId]
  split <;> omega

theorem nonce_zero : 0 < 256 ^ 4 := by decide

theorem serverNonce_lt (env : Env) : env.serverNonce < 256 ^ 4 := by
  unfold Env.serverNonce
  omega

theorem HelloRequest.decode_eq_ok {payload : Bytes} {m : HelloRequest} (h : decode payload = .ok m) :
    payload.length = 4 ∧ m.clientNonce = leNat (slice payload 0 4) := by
  simp only [decode, requireSize, bind_eq_ok, raiseIf_eq_ok, not_not] at h
  obtain ⟨_, hlen, hm⟩ := h
  obtain rfl := Except.ok.inj hm
  exact ⟨hlen, rfl⟩

theorem HelloRequest.decode_ok {payload : Bytes} (h : payload.length = 4) :
    decode payload = .ok ⟨leNat (slice payload 0 4)⟩ := by
  simp [decode, requireSize, raiseIf, h, bind, Except.bind, pure, Except.pure]

theorem HelloRequest.decode_leBytes {c : Nat} (hc : c < 256 ^ 4) : decode (leBytes 4 c) = .ok ⟨c⟩ := by
  have hslice : slice (leBytes 4 c) 0 4 = leBytes 4 c := by simpa using slice_leBytes_append 4 c []
  rw [decode_ok (leBytes_length 4 c), hslice, leNat_leBytes hc]

/-- The bytes of a hello response. -/
def helloResponseBytes (clientNonce serverNonce sessionId : Nat) : Bytes :=
  leBytes 4 clientNonce ++ (leBytes 4 serverNonce ++ (leBytes 2 sessionId ++ (leBytes 2 maxFragmentPayload ++ [])))

theorem HelloResponse.encode_eq {c n sid : Nat} (hc : c < 256 ^ 4) (hn : n < 256 ^ 4) (hs : sid < 256 ^ 2) :
    HelloResponse.encode ⟨c, n, sid, DosMcp.maxFragmentPayload⟩ = .ok (helloResponseBytes c n sid) := by
  rw [encode, structPack_eq_ok, pack_cons hc, pack_cons hn, pack_cons hs,
    pack_cons (show DosMcp.maxFragmentPayload < 256 ^ 2 by decide), pack_nil]
  rfl

theorem HelloResponse.decode_bytes {c n sid : Nat} (hc : c < 256 ^ 4) (hn : n < 256 ^ 4)
    (hs : 1 ≤ sid ∧ sid ≤ 0xFFFF) :
    HelloResponse.decode (helloResponseBytes c n sid) = .ok ⟨c, n, sid, DosMcp.maxFragmentPayload⟩ := by
  have hlen : (helloResponseBytes c n sid).length = 12 := by simp [helloResponseBytes]
  have e1 : leNat (slice (helloResponseBytes c n sid) 0 4) = c := by
    rw [helloResponseBytes, slice_leBytes_append, leNat_leBytes hc]
  have e2 : leNat (slice (helloResponseBytes c n sid) 4 4) = n := by
    rw [helloResponseBytes, slice_leBytes_skip (by decide), slice_leBytes_append, leNat_leBytes hn]
  have e3 : leNat (slice (helloResponseBytes c n sid) 8 2) = sid := by
    rw [helloResponseBytes, slice_leBytes_skip (by decide), slice_leBytes_skip (by decide), slice_leBytes_append,
      leNat_leBytes (by omega)]
  have e4 : leNat (slice (helloResponseBytes c n sid) 10 2) = DosMcp.maxFragmentPayload := by
    rw [helloResponseBytes, slice_leBytes_skip (by decide), slice_leBytes_skip (by decide),
      slice_leBytes_skip (by decide), slice_leBytes_append, leNat_leBytes (by decide)]
  have hsid : ¬ sid = 0 := by omega
  simp only [decode, requireSize, raiseIf, hlen, e1, e2, e3, e4, ne_eq, not_true_eq_false, if_false, hsid, bind,
    Except.bind, pure, Except.pure]
  rfl

/-- The reply packet of the handshake. -/
def helloReply (requestId clientNonce serverNonce sessionId : Nat) (hr : requestId ≤ 0xFFFF) (hs : sessionId ≤ 0xFFFF) :
    Packet where
  kind := .response
  opcode := .hello
  sessionId := sessionId
  requestId := requestId
  fragmentIndex := 0
  fragmentCount := 1
  payload := helloResponseBytes clientNonce serverNonce sessionId
  flags := 0
  flags_zero := Packet.flags_none
  sessionId_le := hs
  requestId_le := hr
  fragmentCount_range := Packet.single_range
  fragmentIndex_lt := Packet.single_index
  payload_le := by simp [helloResponseBytes, maxFragmentPayload]

theorem helloResponsePacket_eq {r c n sid : Nat} (hr : r ≤ 0xFFFF) (hc : c < 256 ^ 4) (hn : n < 256 ^ 4)
    (hs : sid ≤ 0xFFFF) :
    helloResponsePacket r ⟨c, n, sid, maxFragmentPayload⟩ = .ok (helloReply r c n sid hr hs) := by
  rw [helloResponsePacket, HelloResponse.encode_eq hc hn (by omega)]
  exact Packet.make_self (helloReply r c n sid hr hs)

theorem openSession_eq {s : UdpAgentServer} {address : Address} {r c n sid : Nat} (hr : r ≤ 0xFFFF) (hc : c < 256 ^ 4)
    (hn : n < 256 ^ 4) (hs : sid ≤ 0xFFFF) :
    s.openSession address r ⟨c, n, sid, maxFragmentPayload⟩ =
      ⟨{ s with session := some (.fresh address sid (deriveSessionKey s.key c n)), transfer := none },
        [(address, (helloReply r c n sid hr hs).encode s.key)], [], none, none⟩ := by
  rw [UdpAgentServer.openSession, helloResponsePacket_eq hr hc hn hs]

/-- Every authentic HELLO is answered and installs a fresh session; nothing about earlier
    sessions, or earlier copies of the same HELLO, is looked at. -/
theorem handleHello_eq {s : UdpAgentServer} (env : Env) {d : Bytes} (address : Address) {packet : Packet}
    (hd : Packet.decode d s.key = .ok packet) {c : Nat} (hp : HelloRequest.decode packet.payload = .ok ⟨c⟩) :
    s.handleHello env d address =
      ⟨{ s with session := some (.fresh address (helloSessionId c env.serverNonce)
                  (deriveSessionKey s.key c env.serverNonce)), transfer := none },
        [(address, (helloReply packet.requestId c env.serverNonce (helloSessionId c env.serverNonce) packet.requestId_le
          (helloSessionId_range _ _).2).encode s.key)], [], none, none⟩ := by
  have hc : c < 256 ^ 4 := by
    obtain ⟨-, rfl⟩ := HelloRequest.decode_eq_ok hp
    exact leNat_slice_lt _ _ _
  have hs := (helloSessionId_range c env.serverNonce).2
  simp only [UdpAgentServer.handleHello, hd, hp, openSession_eq packet.requestId_le hc (serverNonce_lt env) hs]

/-- A datagram that decodes to a HELLO is handled as one. -/
theorem handleDatagram_hello {s : UdpAgentServer} (env : Env) {d : Bytes} (address : Address) {packet : Packet}
    (hd : Packet.decode d s.key = .ok packet) (hlen : d.length ≤ maxDatagram) (hkind : packet.kind = .request)
    (hop : packet.opcode = .hello) (hsid : packet.sessionId = 0) :
    s.handleDatagram env d address = s.handleHello env d address := by
  have hu : unpackHeader d = packet.header s.key := by
    rcases Packet.encode_of_decode hd with rfl | rfl
    · simpa using packet.unpackHeader_encode s.key []
    · exact packet.unpackHeader_encode s.key [0]
  have hmin : headerSize ≤ d.length := (Packet.decode_eq_ok hd).1
  have hk : (unpackHeader d).rawKind = MessageKind.request.value := by rw [hu, ← hkind]; rfl
  have ho : (unpackHeader d).rawOpcode = Opcode.hello.value := by rw [hu, ← hop]; rfl
  have hs : (unpackHeader d).sessionId = 0 := by rw [hu, ← hsid]; rfl
  rw [UdpAgentServer.handleDatagram, if_neg (by omega)]
  simp only [hk, ho, hs, ne_eq, not_true_eq_false, if_false, and_self, if_true]

end DosMcp
