/-
  DosMcp.System.Link — one bridge and one agent server over a network that loses nothing.

  `Link` is both sides: every datagram of the bridge is handled by the server at once, and
  what the server sends back waits at the bridge's socket. `Link.request` is `_request`, with
  the handshake before the first one, and the programs of `Client.Api` run over it.

  `Link.Synced` is the state between two requests of a session. In it a request of one packet
  is answered with what the operation returns (`Link.Synced.request`): the bridge gets the
  reply's bytes, or an `AgentOperationError`.
-/

import DosMcp.Client.Api
import DosMcp.Client.UdpProofs
import DosMcp.System.AtMostOnce
import DosMcp.System.Handshake

namespace DosMcp

open Lib

structure Link where
  client : UdpBackend
  /-- The client's endpoint, as the server sees it. -/
  address : Address
  server : UdpAgentServer
  /-- No exception has ended `serve_forever`. -/
  serving : Bool
  /-- The datagrams at the client's socket. -/
  inbox : List Bytes
  /-- What the outside answers during the server's next calls. -/
  envs : Nat → Env
  /-- `secrets.randbits(32)` of the next handshakes. -/
  nonces : Nat → UInt32

/-! ## Exchanges -/

/-- A datagram of the client, handled by the server at once. -/
def Link.send (l : Link) (d : Bytes) : Link :=
  if l.serving then
    let r := l.server.handleDatagram (l.envs 0) d l.address
    { l with server := r.server, serving := r.raised.isNone
             inbox := l.inbox ++ (r.sent.filter (·.1 = l.address)).map Prod.snd, envs := fun n => l.envs (n + 1) }
  else l

/-- The client reads its socket until the exchange is over or nothing is left; the rest stays. -/
def receiveAll (target : Address) : Exchange → List Bytes → Progress × List Bytes
  | x, [] => (.waiting x, [])
  | x, d :: ds => match x.receive target target d with
    | .waiting x => receiveAll target x ds
    | .done r => (.done r, ds)

/-- One attempt and the retries that are left. -/
def Link.attempt : Nat → Exchange → Link → Except Exc (Bytes × Packet) × Link
  | retries, x, l =>
    let l := x.encoded.foldl Link.send l
    match receiveAll l.client.target x l.inbox with
    | (.done r, rest) => (r, { l with inbox := rest })
    | (.waiting x, rest) => match retries with
      | 0 => (.error (.timeoutError x.timeoutText), { l with inbox := rest })
      | retries + 1 => Link.attempt retries { x with attempts := retries } { l with inbox := rest }

/-- `_exchange_with_packet`. -/
def Link.exchange (packets : List Packet) (key : Key) : Fallible Link Exc (Bytes × Packet) := fun l =>
  match Exchange.start packets key l.client.retries with
  | none => (.error .other, l)
  | some x => l.attempt l.client.retries x

/-- `self._request_id = (self._request_id + 1) & 0xFFFF or 1`. -/
def Link.advance (l : Link) : Link := { l with client := { l.client with requestId := nextRequestId l.client.requestId } }

/-- The client with another random nonce drawn. -/
def Link.drawn (l : Link) : Link := { l with nonces := fun n => l.nonces (n + 1) }

/-- The end of `_handshake`: the client takes over the session of the response. -/
def Link.takeOver (clientNonce : Nat) (payload : Bytes) (packet : Packet) : Fallible Link Exc Key := fun l =>
  match l.client.finishHandshake clientNonce payload packet with
  | .error e => (.error e, l)
  | .ok client => match client.sessionKey with
    | none => (.error .other, { l with client := client })
    | some key => (.ok key, { l with client := client })

def Link.handshake : Fallible Link Exc Key := fun l =>
  match helloPacket (nextRequestId l.client.requestId) (l.nonces 0).toNat with
  | .error e => (.error e, l.drawn.advance)
  | .ok hello => match Link.exchange [hello] l.client.baseKey l.drawn.advance with
    | (.error e, l) => (.error e, l)
    | (.ok (payload, packet), l') => Link.takeOver (l.nonces 0).toNat payload packet l'

/-- `_request` in a session. -/
def Link.requestWith (key : Key) (opcode : Opcode) (payload : Bytes) : Fallible Link Exc Bytes := fun l =>
  match requestPackets opcode l.client.sessionId (nextRequestId l.client.requestId) payload with
  | .error e => (.error e, l.advance)
  | .ok packets => match Link.exchange packets key l.advance with
    | (.error e, l) => (.error e, l)
    | (.ok (answer, _), l) => (.ok answer, l)

def Link.request (opcode : Opcode) (payload : Bytes) : Fallible Link Exc Bytes := fun l =>
  if l.client.closed then (.error (.runtimeError "UDP backend is closed"), l)
  else match l.client.sessionKey with
    | some key => Link.requestWith key opcode payload l
    | none => match Link.handshake l with
      | (.error e, l) => (.error e, l)
      | (.ok key, l) => Link.requestWith key opcode payload l

/-! ## One packet each way -/

/-- The only packet of a short message. -/
def onlyPacket (kind : MessageKind) (opcode : Opcode) {sessionId requestId : Nat} (payload : Bytes) (hs : sessionId ≤ 0xFFFF)
    (hr : requestId ≤ 0xFFFF) (hp : payload.length ≤ maxFragmentPayload) : Packet where
  kind := kind
  opcode := opcode
  sessionId := sessionId
  requestId := requestId
  fragmentIndex := 0
  fragmentCount := 1
  payload := payload
  flags := 0
  flags_zero := Packet.flags_none
  sessionId_le := hs
  requestId_le := hr
  fragmentCount_range := Packet.single_range
  fragmentIndex_lt := Packet.single_index
  payload_le := hp

theorem fragmentMessage_single {kind : MessageKind} {opcode : Opcode} {sessionId requestId : Nat} {payload : Bytes}
    (hs : sessionId ≤ 0xFFFF) (hr : requestId ≤ 0xFFFF) (hp : payload.length ≤ maxFragmentPayload) :
    fragmentMessage kind opcode sessionId requestId payload = .ok [onlyPacket kind opcode payload hs hr hp] := by
  obtain ⟨packets, hok⟩ := fragmentMessage_isOk kind opcode
    (Nat.le_trans hp (show maxFragmentPayload ≤ maxMessageSize by decide)) hs hr
  have hcount : numFragments payload = 1 := by
    simp only [numFragments, maxFragmentPayload] at hp ⊢
    omega
  have hall := fragmentMessage_eq_ok hok
  rw [hcount] at hall
  cases hall with
  | cons hp1 hrest =>
    rename_i p ps
    cases hrest
    obtain ⟨hindex, hfragment⟩ := hp1
    rw [hok]
    have hpayload : p.payload = payload := by
      rw [hfragment.payload_eq, hindex, Nat.zero_mul, slice_zero_eq_take, List.take_of_length_le hp]
    have hmake := Packet.make_self p
    rw [hfragment.kind_eq, hfragment.opcode_eq, hfragment.sessionId_eq, hfragment.requestId_eq, hfragment.count_eq, hcount,
      hindex, hpayload, p.flags_zero, Packet.make_ok hs hr (by decide) (by decide) hp] at hmake
    rw [← Except.ok.inj hmake]
    rfl

/-- The reply of `_dispatch`: its kind and bytes, and the transfer it leaves. -/
structure Reply where
  kind : MessageKind
  bytes : Bytes
  transfer : Option Transfer

def replyOf (env : Env) (active : Option Transfer) (opcode : Opcode) (payload : Bytes) : Reply :=
  match operate env active opcode payload with
  | none => ⟨.error, encodeError .unsupportedOperation "operation is not implemented", active⟩
  | some outcome => match outcome.reply with
    | .ok response => ⟨.response, response, outcome.transfer⟩
    | .error e => match e.valueText? with
      | some text => ⟨.error, encodeError .invalidArgument text, outcome.transfer⟩
      | none => ⟨.error, encodeError .internalFailure "target operation failed", outcome.transfer⟩

/-- What `_request` makes of a reply. -/
def Reply.result (r : Reply) : Except Exc Bytes :=
  match r.kind with
  | .response => .ok r.bytes
  | _ => match decodeError r.bytes with
    | .error e => .error e
    | .ok (code, message) => .error (.agentOperationError s!"{code.name}: {message}")

theorem dispatch_eq (s : UdpAgentServer) (session : Session) (env : Env) (opcode : Opcode) (requestId : Nat) (payload : Bytes) :
    let reply := replyOf env s.transfer opcode payload
    let sent := { s with transfer := reply.transfer }.sendResponse session reply.kind opcode requestId reply.bytes
    (s.dispatch session env opcode requestId payload).server = sent.server ∧
      (s.dispatch session env opcode requestId payload).sent = sent.sent ∧
      (s.dispatch session env opcode requestId payload).raised = sent.raised := by
  unfold UdpAgentServer.dispatch replyOf
  cases operate env s.transfer opcode payload with
  | none => exact ⟨rfl, rfl, rfl⟩
  | some outcome =>
    dsimp only
    cases outcome.reply with
    | ok response => exact ⟨rfl, rfl, rfl⟩
    | error e =>
      dsimp only
      cases e.valueText? with
      | none => exact ⟨rfl, rfl, rfl⟩
      | some text => exact ⟨rfl, rfl, rfl⟩

theorem replyOf_kind (env : Env) (active : Option Transfer) (opcode : Opcode) (payload : Bytes) :
    (replyOf env active opcode payload).kind ≠ .request := by
  unfold replyOf
  split
  · nofun
  split
  · nofun
  split <;> nofun

theorem decodeError_encodeError (code : ErrorCode) (message : String) :
    ∃ text, decodeError (encodeError code message) = .ok (code, text) := by
  have hvalue : code.value < 256 ^ 2 := by cases code <;> decide
  have hslice : slice (encodeError code message) 0 2 = leBytes 2 code.value := slice_leBytes_append 2 code.value _
  have hlen : ¬ (encodeError code message).length < 2 := by
    rw [encodeError, List.length_append, leBytes_length]
    omega
  rw [decodeError, raiseIf_false hlen, ok_bind, hslice, leNat_leBytes hvalue, enumOf, ErrorCode.ofValue?_value]
  exact ⟨_, rfl⟩

theorem errorReply_result (code : ErrorCode) (message : String) (transfer : Option Transfer) :
    ∃ text, Reply.result ⟨.error, encodeError code message, transfer⟩ = .error (.agentOperationError text) := by
  obtain ⟨text, h⟩ := decodeError_encodeError code message
  simp only [Reply.result, h]
  exact ⟨_, rfl⟩

/-- A request is answered with the reply's bytes, or with an `AgentOperationError`. -/
theorem replyOf_result (env : Env) (active : Option Transfer) (opcode : Opcode) (payload : Bytes) :
    (∃ bytes, (replyOf env active opcode payload).result = .ok bytes ∧
        ∃ outcome, operate env active opcode payload = some outcome ∧ outcome.reply = .ok bytes) ∨
      ∃ text, (replyOf env active opcode payload).result = .error (.agentOperationError text) := by
  unfold replyOf
  split
  · exact Or.inr (errorReply_result _ _ _)
  · rename_i outcome ho
    split
    · rename_i response hr
      exact Or.inl ⟨response, rfl, outcome, ho, hr⟩
    · split
      · exact Or.inr (errorReply_result _ _ _)
      · exact Or.inr (errorReply_result _ _ _)

/-! ## Between two requests -/

/-- The IDs of the last `c` requests, up to the `m`-th. -/
def recentIds (b m c : Nat) : List Nat := (List.range c).map fun j => Serial.stamp 0x10000 b (m - c + 1 + j)

/-- The session knows the client's last request, has the answers to the last ones, and waits
    for no fragments. -/
structure Session.Follows (session : Session) (client : UdpBackend) (address : Address) : Prop where
  address_eq : session.address = address
  sessionId_eq : session.sessionId = client.sessionId
  sessionId_range : 1 ≤ session.sessionId ∧ session.sessionId ≤ 0xFFFF
  key_eq : client.sessionKey = some session.key
  pending_eq : session.pending = []
  last_eq : ∀ x, session.lastRequestId = some x → x = client.requestId
  recent : ∃ b m c, client.requestId = Serial.stamp 0x10000 b m ∧ c ≤ 4 ∧ c ≤ m ∧
    session.responseCache.keys = recentIds b m c

/-- The two sides between two requests of a session. -/
structure Link.Synced (l : Link) : Prop where
  closed_eq : l.client.closed = false
  serving_eq : l.serving = true
  inbox_eq : l.inbox = []
  undropped : l.server.dropFirstResponse = true → l.server.droppedResponse = true
  session : ∃ session, l.server.session = some session ∧ session.Follows l.client l.address

section

variable {session : Session} {client : UdpBackend} {address : Address}

/-- The next request is new to the session. -/
theorem Session.Follows.fresh (h : session.Follows client address) :
    session.responseCache.has (nextRequestId client.requestId) = false ∧
      session.refuses (nextRequestId client.requestId) = false := by
  obtain ⟨b, m, c, hid, hc, hm, hkeys⟩ := h.recent
  have hnext : nextRequestId client.requestId = Serial.stamp 0x10000 b (m + 1) := by
    rw [nextRequestId_eq, hid, Serial.next_stamp (by decide)]
  rw [hnext]
  constructor
  · rw [← Bool.not_eq_true, Dict.has_iff, hkeys, recentIds, List.mem_map]
    rintro ⟨j, hj, heq⟩
    have hj := List.mem_range.mp hj
    have := Serial.stamp_inj (by decide) b (by omega) (by omega) heq
    omega
  · cases hlast : session.lastRequestId with
    | none => simp [Session.refuses, hlast]
    | some x =>
      have hx := h.last_eq x hlast
      simp only [Session.refuses, hlast, Bool.not_eq_false']
      rw [hx, hid, requestIsNewer_eq, Serial.newer_stamp (by decide) b (by omega) (by omega)]
      exact decide_eq_true (Nat.lt_succ_self m)

theorem recentIds_succ {b m c : Nat} (hc : c ≤ 4) (hm : c ≤ m) :
    (recentIds b m c ++ [Serial.stamp 0x10000 b (m + 1)]).drop (c + 1 - 4) = recentIds b (m + 1) (min (c + 1) 4) := by
  apply List.ext_getElem
  · simp [recentIds]
    omega
  · intro i h1 h2
    simp only [recentIds, List.length_drop, List.length_append, List.length_map, List.length_range, List.length_singleton] at h1 h2
    rw [List.getElem_drop]
    by_cases hi : c + 1 - 4 + i < c
    · rw [List.getElem_append_left (by simpa [recentIds] using hi)]
      simp only [recentIds, List.getElem_map, List.getElem_range]
      congr 1
      omega
    · rw [List.getElem_append_right (by simpa [recentIds] using Nat.not_lt.mp hi)]
      simp only [recentIds, List.getElem_singleton, List.getElem_map, List.getElem_range]
      congr 1
      omega

/-- Recording the answer keeps the session in step with the client. -/
theorem Session.Follows.record (h : session.Follows client address) (encoded : List Bytes) :
    (session.record (nextRequestId client.requestId) encoded).Follows
      { client with requestId := nextRequestId client.requestId } address := by
  have hfresh := h.fresh.1
  obtain ⟨b, m, c, hid, hc, hm, hkeys⟩ := h.recent
  have hnext : nextRequestId client.requestId = Serial.stamp 0x10000 b (m + 1) := by
    rw [nextRequestId_eq, hid, Serial.next_stamp (by decide)]
  refine ⟨h.address_eq, h.sessionId_eq, h.sessionId_range, h.key_eq, h.pending_eq, fun x hx => ?_, b, m + 1, min (c + 1) 4,
    hnext, by omega, by omega, ?_⟩
  · exact (Option.some.inj hx).symm
  · have hnew : nextRequestId client.requestId ∉ session.responseCache.keys := fun hmem => by
      rw [Dict.has_iff.mpr hmem] at hfresh
      cases hfresh
    have hlen : session.responseCache.length = c := by
      have := congrArg List.length hkeys
      simpa [Dict.keys, recentIds] using this
    rw [← recentIds_succ hc hm, ← hkeys, ← hnext]
    simp only [Session.record, trimCache, Dict.set_of_not_mem hnew, Dict.keys, List.map_drop, List.map_append, List.map_cons,
      List.map_nil, List.length_append, List.length_singleton, hlen]

end

/-! ## A request and its answer -/

section

variable {s : UdpAgentServer} {session : Session}

/-- A reply of one packet is recorded and sent. -/
theorem sendResponse_single (hdrop : s.dropFirstResponse = true → s.droppedResponse = true) (kind : MessageKind)
    (opcode : Opcode) {requestId : Nat} {payload : Bytes} (hs : session.sessionId ≤ 0xFFFF) (hr : requestId ≤ 0xFFFF)
    (hp : payload.length ≤ maxFragmentPayload) :
    s.sendResponse session kind opcode requestId payload =
      ⟨{ s with session := some (session.record requestId [(onlyPacket kind opcode payload hs hr hp).encode session.key]) },
        [(session.address, (onlyPacket kind opcode payload hs hr hp).encode session.key)], [], none, none⟩ := by
  have hno : ¬ (s.dropFirstResponse = true ∧ ¬ s.droppedResponse = true) := fun h => h.2 (hdrop h.1)
  simp only [UdpAgentServer.sendResponse, fragmentMessage_single hs hr hp, if_neg hno]
  rfl

/-- A request of one packet that passes the replay check is dispatched. -/
theorem handlePacket_single {env : Env} {p : Packet} (hs : s.session = some session) (hpending : session.pending = [])
    (hindex : p.fragmentIndex = 0) (hcount : p.fragmentCount = 1) (hcached : session.responseCache.has p.requestId = false)
    (hrefuse : session.refuses p.requestId = false) :
    s.handlePacket session env p.requestId p = s.dispatch session env p.opcode p.requestId p.payload := by
  have hsame : { session with pending := [] } = session := by
    rw [← hpending]
  have hserver : { s with session := some session } = s := by
    rw [← hs]
  have hfor : session.pendingFor p.requestId = [] := by simp [Session.pendingFor, hpending]
  rw [UdpAgentServer.handlePacket, hcached, hrefuse]
  simp only [Bool.false_eq_true, if_false, UdpAgentServer.acceptFragment, hfor, hindex, Dict.get?, Option.getD_none, Dict.set,
    List.length_singleton, hcount, ne_eq, not_true_eq_false, Dict.values, List.map_cons, List.map_nil,
    reassemble_single hindex hcount, Dict.erase, if_true, hsame, hserver]

/-- It is answered with one packet, recorded under its ID. -/
theorem dispatch_single (hdrop : s.dropFirstResponse = true → s.droppedResponse = true) {env : Env} {opcode : Opcode}
    {requestId : Nat} {payload : Bytes} (hsid : session.sessionId ≤ 0xFFFF) (hid : requestId ≤ 0xFFFF)
    (hreply : (replyOf env s.transfer opcode payload).bytes.length ≤ maxFragmentPayload) :
    let reply := replyOf env s.transfer opcode payload
    let answer := (onlyPacket reply.kind opcode reply.bytes hsid hid hreply).encode session.key
    (s.dispatch session env opcode requestId payload).server =
        { s with session := some (session.record requestId [answer]), transfer := reply.transfer } ∧
      (s.dispatch session env opcode requestId payload).sent = [(session.address, answer)] ∧
      (s.dispatch session env opcode requestId payload).raised = none := by
  have hdispatch := dispatch_eq s session env opcode requestId payload
  dsimp only at hdispatch ⊢
  have hsend := sendResponse_single (s := { s with transfer := (replyOf env s.transfer opcode payload).transfer })
    hdrop (replyOf env s.transfer opcode payload).kind opcode hsid hid hreply
  rw [hsend] at hdispatch
  exact hdispatch

end

/-- The client accepts the only packet of an answer. -/
theorem receive_single {x : Exchange} {p : Packet} {key : Key} (target : Address) (hkey : x.key = key)
    (hreceived : x.received = []) (hmatch : x.matches p = true) (hindex : p.fragmentIndex = 0) (hcount : p.fragmentCount = 1)
    (hkind : p.kind ≠ .request) :
    ∃ packet, x.receive target target (p.encode key) =
      .done ((Reply.mk p.kind p.payload none).result.map fun bytes => (bytes, packet)) := by
  have hlen : (p.encode key).length ≤ maxDatagram := by
    have hp := p.payload_le
    rw [Packet.encode_length]
    simp only [headerSize, maxFragmentPayload, maxDatagram] at *
    omega
  refine ⟨p, ?_⟩
  rw [Exchange.receive, if_neg (not_or.mpr ⟨not_not.mpr rfl, Nat.not_lt.mpr hlen⟩), hkey, p.decode_encode key]
  simp only [Exchange.receivePacket, hmatch, not_true_eq_false, if_false]
  cases hk : p.kind with
  | request => exact absurd hk hkind
  | error =>
    simp only [Reply.result]
    cases decodeError p.payload with
    | error e => rfl
    | ok r => rfl
  | response =>
    have hset : x.received.set p.fragmentIndex p = [(p.fragmentIndex, p)] := by
      rw [hreceived]
      rfl
    simp only [hset, List.length_singleton, hcount, if_true, Dict.values, List.map_cons, List.map_nil,
      reassemble_single hindex hcount, Reply.result]
    rfl

/-- The link after a request that the server has answered at its next call. -/
def Link.answered (l : Link) (server : UdpAgentServer) : Link :=
  { l with server := server, envs := fun n => l.envs (n + 1) }

/-- One packet, handled by the server and answered with one packet. -/
theorem attempt_single {l : Link} {x : Exchange} {d answer : Bytes} {r : Except Exc (Bytes × Packet)} {server : UdpAgentServer}
    (henc : x.encoded = [d]) (hserving : l.serving = true) (hinbox : l.inbox = [])
    (hserver : (l.server.handleDatagram (l.envs 0) d l.address).server = server)
    (hsent : (l.server.handleDatagram (l.envs 0) d l.address).sent = [(l.address, answer)])
    (hraised : (l.server.handleDatagram (l.envs 0) d l.address).raised = none)
    (hreceive : x.receive l.client.target l.client.target answer = .done r) (retries : Nat) :
    l.attempt retries x = (r, l.answered server) := by
  have hsend : l.send d = { l with server := server, inbox := [answer], envs := fun n => l.envs (n + 1) } := by
    simp [Link.send, hserving, hserver, hsent, hraised, hinbox]
  rw [Link.attempt.eq_def]
  simp only [henc, List.foldl_cons, List.foldl_nil, hsend, receiveAll, hreceive, hinbox, Link.answered]

/-- In a session a request of one packet gets the answer of its operation. -/
theorem Link.Synced.request {l : Link} (h : l.Synced) {opcode : Opcode} {payload : Bytes}
    (hp : payload.length ≤ maxFragmentPayload)
    (hreply : (replyOf (l.envs 0) l.server.transfer opcode payload).bytes.length ≤ maxFragmentPayload) :
    ∃ l', Link.request opcode payload l = ((replyOf (l.envs 0) l.server.transfer opcode payload).result, l') ∧ l'.Synced ∧
      l'.server.transfer = (replyOf (l.envs 0) l.server.transfer opcode payload).transfer ∧
      l'.envs = (fun n => l.envs (n + 1)) := by
  obtain ⟨session, hs, hfollows⟩ := h.session
  have hid := nextRequestId_le l.client.requestId
  have hsid := hfollows.sessionId_range
  obtain ⟨hcached, hrefuse⟩ := hfollows.fresh
  generalize hreq : onlyPacket .request opcode payload hsid.2 hid hp = p
  generalize hans : onlyPacket (replyOf (l.envs 0) l.server.transfer opcode payload).kind opcode
    (replyOf (l.envs 0) l.server.transfer opcode payload).bytes hsid.2 hid hreply = a
  have hpackets : requestPackets opcode l.client.sessionId (nextRequestId l.client.requestId) payload = .ok [p] := by
    rw [requestPackets, ← hfollows.sessionId_eq, fragmentMessage_single hsid.2 hid hp, hreq]
  -- the server's side
  have hhandle : l.server.handleDatagram (l.envs 0) (dosTransportDatagram (p.encode session.key)) l.address =
      l.server.dispatch session (l.envs 0) opcode (nextRequestId l.client.requestId) payload := by
    rw [← hfollows.address_eq, handleDatagram_session hs (l.envs 0) (dosTransport_decode p session.key)
      (dosTransport_length p session.key) (by rw [← hreq]; rfl) (by rw [← hreq]; rfl) (by omega)]
    rw [handlePacket_single hs hfollows.pending_eq (by rw [← hreq]; rfl) (by rw [← hreq]; rfl) (by rw [← hreq]; exact hcached)
      (by rw [← hreq]; exact hrefuse), ← hreq]
    rfl
  obtain ⟨hserver, hsent, hraised⟩ := dispatch_single h.undropped hsid.2 hid hreply
  rw [hans, ← hhandle] at hserver hsent
  rw [← hhandle] at hraised
  rw [hfollows.address_eq] at hsent
  -- the client's side
  let x : Exchange := ⟨p, [dosTransportDatagram (p.encode session.key)], session.key, l.client.retries, l.client.retries, [], 0, ""⟩
  have hmatch : x.matches a = true := by
    simp only [Exchange.matches, x, ← hreq, ← hans, onlyPacket, true_and, decide_eq_true_eq, or_true]
  have hkind : a.kind ≠ .request := by
    rw [← hans]
    exact replyOf_kind _ _ _ _
  obtain ⟨packet, hreceive⟩ := receive_single (x := x) l.client.target rfl rfl hmatch (by rw [← hans]; rfl) (by rw [← hans]; rfl)
    hkind
  have hresult : (Reply.mk a.kind a.payload none).result = (replyOf (l.envs 0) l.server.transfer opcode payload).result := by
    rw [← hans]
    rfl
  rw [hresult] at hreceive
  have hattempt := attempt_single (l := l.advance) (x := x) rfl h.serving_eq h.inbox_eq hserver hsent hraised hreceive
    l.client.retries
  have hrequest : Link.request opcode payload l = ((replyOf (l.envs 0) l.server.transfer opcode payload).result,
      l.advance.answered
        { l.server with
          session := some (session.record (nextRequestId l.client.requestId) [a.encode session.key])
          transfer := (replyOf (l.envs 0) l.server.transfer opcode payload).transfer }) := by
    have hexchange : Link.exchange [p] session.key l.advance = l.advance.attempt l.client.retries x := rfl
    rw [Link.request, h.closed_eq, if_neg Bool.false_ne_true, hfollows.key_eq]
    simp only [Link.requestWith, hpackets, hexchange, hattempt]
    cases (replyOf (l.envs 0) l.server.transfer opcode payload).result with
    | ok bytes => rfl
    | error e => rfl
  refine ⟨_, hrequest, ⟨h.closed_eq, h.serving_eq, h.inbox_eq, h.undropped, _, rfl, hfollows.record _⟩, rfl, rfl⟩

/-! ## The first request -/

/-- A client that has not connected yet, and a server with its key. -/
structure Link.Unconnected (l : Link) : Prop where
  closed_eq : l.client.closed = false
  serving_eq : l.serving = true
  inbox_eq : l.inbox = []
  undropped : l.server.dropFirstResponse = true → l.server.droppedResponse = true
  sessionKey_eq : l.client.sessionKey = none
  key_eq : l.server.key = l.client.baseKey

/-- The handshake of the link. -/
def Link.Unconnected.meeting {l : Link} (h : l.Unconnected) : Meeting where
  server := l.server
  client := l.client
  address := l.address
  clientNonce := (l.nonces 0).toNat
  key_eq := h.key_eq
  clientNonce_lt := (l.nonces 0).toNat_lt

theorem stamp_of_range {r : Nat} (h : 1 ≤ r ∧ r ≤ 0xFFFF) : Serial.stamp 0x10000 (r - 1) 0 = r := by
  rw [Serial.stamp, Nat.mod_eq_of_lt (by omega)]
  omega

theorem nextRequestId_pos (r : Nat) : 1 ≤ nextRequestId r := by
  simp only [nextRequestId]
  split <;> omega

/-- The server after a HELLO. -/
def UdpAgentServer.opened (s : UdpAgentServer) (session : Session) : UdpAgentServer :=
  { s with session := some session, transfer := none }

/-- The client after the handshake. -/
def UdpBackend.connected (client : UdpBackend) (sessionId : Nat) (key : Key) : UdpBackend :=
  { client with requestId := nextRequestId client.requestId, sessionId := sessionId, sessionKey := some key }

def Link.withClient (l : Link) (client : UdpBackend) : Link := { l with client := client }

/-- The handshake succeeds, and the session it opens has no transfer. -/
theorem Link.Unconnected.handshake {l : Link} (h : l.Unconnected) :
    ∃ key l', Link.handshake l = (.ok key, l') ∧ l'.Synced ∧ l'.client.sessionKey = some key ∧ l'.server.transfer = none ∧
      l'.envs = fun n => l.envs (n + 1) := by
  generalize hm : h.meeting = m
  have hserver : m.server = l.server := by rw [← hm]; rfl
  have hclient : m.client = l.client := by rw [← hm]; rfl
  have haddress : m.address = l.address := by rw [← hm]; rfl
  have hclientNonce : m.clientNonce = (l.nonces 0).toNat := by rw [← hm]; rfl
  generalize hn : (l.envs 0).serverNonce = n
  have hnonce : n < 256 ^ 4 := hn ▸ serverNonce_lt (l.envs 0)
  -- the server's side
  have hd : Packet.decode m.helloDatagram l.server.key = .ok m.hello := by
    rw [h.key_eq, ← hclient]
    exact helloDatagram_decode m
  have hhandle := (handleDatagram_hello (l.envs 0) l.address hd (dosTransport_length _ _) rfl rfl rfl).trans
    (handleHello_eq (l.envs 0) l.address hd (hello_nonce m))
  rw [hn] at hhandle
  have hfresh : Session.fresh l.address (helloSessionId m.clientNonce n) (deriveSessionKey l.server.key m.clientNonce n) =
      m.sessionOf n := by
    rw [h.key_eq, ← hclient, ← haddress]
    rfl
  have hopened : (l.server.handleDatagram (l.envs 0) m.helloDatagram l.address).server = l.server.opened (m.sessionOf n) := by
    rw [hhandle, ← hfresh]
    rfl
  have hsent : (l.server.handleDatagram (l.envs 0) m.helloDatagram l.address).sent =
      [(l.address, (m.reply n).encode m.client.baseKey)] := by
    rw [hhandle, hclient, ← h.key_eq]
    rfl
  have hraised : (l.server.handleDatagram (l.envs 0) m.helloDatagram l.address).raised = none := by rw [hhandle]
  -- the client's side
  have hreceive : m.exchange.receive l.client.target l.client.target ((m.reply n).encode m.client.baseKey) =
      .done (.ok ((m.reply n).payload, m.reply n)) := by
    rw [← hclient]
    exact receive_reply m n m.client.retries
  have hattempt := attempt_single (l := l.drawn.advance) (x := m.exchange) rfl h.serving_eq h.inbox_eq hopened hsent hraised
    hreceive l.client.retries
  have hstart : Exchange.start [m.hello] l.client.baseKey l.client.retries = some m.exchange := by
    rw [← hclient]
    exact m.handshake_eq.2
  have hexchange : Link.exchange [m.hello] l.client.baseKey l.drawn.advance =
      l.drawn.advance.attempt l.client.retries m.exchange := by
    rw [Link.exchange, show l.drawn.advance.client.retries = l.client.retries from rfl, hstart]
  have hpacket : helloPacket (nextRequestId l.client.requestId) (l.nonces 0).toNat = .ok m.hello := by
    rw [← hclient, ← hclientNonce]
    exact m.handshake_eq.1
  have hfinish : (l.drawn.advance.answered (l.server.opened (m.sessionOf n))).client.finishHandshake (l.nonces 0).toNat
      (m.reply n).payload (m.reply n) =
        .ok (l.client.connected (helloSessionId m.clientNonce n) (deriveSessionKey l.client.baseKey m.clientNonce n)) := by
    have hreply := finish_reply m hnonce
    rw [hclient] at hreply
    rw [← hclientNonce]
    exact hreply
  refine ⟨deriveSessionKey l.client.baseKey m.clientNonce n,
    (l.drawn.advance.answered (l.server.opened (m.sessionOf n))).withClient
      (l.client.connected (helloSessionId m.clientNonce n) (deriveSessionKey l.client.baseKey m.clientNonce n)),
    ?_, ⟨h.closed_eq, h.serving_eq, h.inbox_eq, h.undropped, m.sessionOf n, rfl, ?_⟩, rfl, rfl, rfl⟩
  · rw [Link.handshake, hpacket]
    simp only [hexchange, hattempt, Link.takeOver, hfinish]
    rfl
  · rw [← hclient]
    exact ⟨haddress, rfl, helloSessionId_range _ _, rfl, rfl, nofun, nextRequestId m.client.requestId - 1, 0, 0,
      (stamp_of_range ⟨nextRequestId_pos _, nextRequestId_le _⟩).symm, by omega, by omega, rfl⟩

/-- The link before a call of the client: closed, not connected yet, or between two requests. -/
def Link.Ready (l : Link) : Prop := l.client.closed = true ∨ l.Unconnected ∨ l.Synced

/-- What the outside answers while the server handles the next request. -/
def Link.nextEnv (l : Link) : Env := if l.client.sessionKey.isNone then l.envs 1 else l.envs 0

/-- The first request of a call, when the server has no transfer. -/
theorem Link.Ready.request {l : Link} (h : l.Ready) (hopen : l.client.closed = false) (htransfer : l.server.transfer = none)
    {opcode : Opcode} {payload : Bytes} (hp : payload.length ≤ maxFragmentPayload)
    (hreply : (replyOf l.nextEnv none opcode payload).bytes.length ≤ maxFragmentPayload) :
    ∃ l', Link.request opcode payload l = ((replyOf l.nextEnv none opcode payload).result, l') ∧ l'.Synced ∧
      l'.server.transfer = (replyOf l.nextEnv none opcode payload).transfer := by
  rcases h with hclosed | hunconnected | hsynced
  · rw [hopen] at hclosed
    cases hclosed
  · obtain ⟨key, l', hhandshake, hsynced, hkey, hnone, henvs⟩ := hunconnected.handshake
    have henv : l.nextEnv = l'.envs 0 := by
      rw [Link.nextEnv, hunconnected.sessionKey_eq, henvs]
      rfl
    rw [henv, ← hnone] at hreply ⊢
    obtain ⟨l'', hrequest, hsynced', htransfer', -⟩ := hsynced.request hp hreply
    refine ⟨l'', ?_, hsynced', htransfer'⟩
    rw [← hrequest]
    simp only [Link.request, hopen, hsynced.closed_eq, Bool.false_eq_true, if_false, hunconnected.sessionKey_eq, hhandshake, hkey]
  · have henv : l.nextEnv = l.envs 0 := by
      obtain ⟨session, -, hfollows⟩ := hsynced.session
      rw [Link.nextEnv, hfollows.key_eq]
      rfl
    rw [henv, ← htransfer] at hreply ⊢
    obtain ⟨l', hrequest, hsynced', htransfer', -⟩ := hsynced.request hp hreply
    exact ⟨l', hrequest, hsynced', htransfer'⟩

end DosMcp
