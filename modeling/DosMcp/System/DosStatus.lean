/-
  DosMcp.System.DosStatus — a connected bridge asks RA-TSR for its status.

  The past is a run of the session (`DosNet`), with any requests, over any network. From then
  on nothing is lost: what is on its way reaches the receive buffer in order, as it becomes
  free, and what the worker sends reaches the bridge (`Asking`). The deadline of an attempt
  may pass in between, though not more often than there are retries.

  The bridge never shakes hands again, so the answer depends on the session at the agent.

  - `expired_session_times_out`: the worker ends the session after 546 idle ticks, and
    `get_status` exhausts its retries.
  - `get_status_returns`: where no entry of the worker ends the session, `get_status` returns
    a status after a bounded number of entries.
-/

import DosMcp.System.Delivery
import DosMcp.System.Link

namespace DosMcp.Dos

open Lib

/-! ## Asking for the status -/

/-- `_exchange_with_packet` at work: what the client has sent and the agent has not received
    yet, in order, and the agent. -/
structure Asking where
  progress : Progress
  queue : List Bytes
  agent : State

inductive Asking.Turn where
  /-- The next datagram reaches the receive buffer, if it is free; the worker is entered, and
      what it sends is read by the client. -/
  | entry (e : Entry)
  /-- The deadline of the attempt passes. -/
  | deadline

def Asking.arrived (o : DosOpening) (a : Asking) : Asking :=
  match a.agent.slot, a.queue with
  | none, d :: ds => { a with agent := arrive a.agent ⟨d, o.peer⟩, queue := ds }
  | _, _ => a

/-- What the agent has sent to the client in a step. -/
def sentBetween (o : DosOpening) (before after : State) : List Bytes :=
  ((after.sent.drop before.sent.length).filter (·.1 = o.peer)).map Prod.snd

def readAll (target : Address) : Progress → List Bytes → Progress
  | .waiting x, ds => (receiveAll target x ds).1
  | .done r, _ => .done r

def Asking.turn (o : DosOpening) (target : Address) (a : Asking) : Asking.Turn → Asking
  | .entry e =>
    let a := a.arrived o
    let agent := ratsrIdleWorker o.config a.agent e
    { a with agent := agent, progress := readAll target a.progress (sentBetween o a.agent agent) }
  | .deadline => match a.progress with
    | .done _ => a
    | .waiting x => match x.timeout with
      | .done r => { a with progress := .done r }
      | .waiting x => { a with progress := .waiting x, queue := a.queue ++ x.encoded }

def Asking.run (o : DosOpening) (target : Address) (a : Asking) (turns : List Asking.Turn) : Asking :=
  turns.foldl (Asking.turn o target) a

/-- `_request(GET_STATUS)` of a connected client, with `queue` still on its way to the agent
    and `late` at the client's socket. -/
def askStatus (client : UdpBackend) (agent : State) (queue late : List Bytes) : Option Asking :=
  match client.closed, client.sessionKey with
  | false, some key => match requestPackets .getStatus client.sessionId (nextRequestId client.requestId) [] with
    | .error _ => none
    | .ok packets => match Exchange.start packets key client.retries with
      | none => none
      | some x => some ⟨readAll client.target (.waiting x) late, queue ++ x.encoded, agent⟩
  | _, _ => none

/-- What `get_status` has returned or raised. -/
def Asking.returned (target : Address) (a : Asking) : Option (Except Exc BridgeStatus) :=
  match a.progress with
  | .waiting _ => none
  | .done r => some (getStatus (fun _ _ => Fallible.lift (r.map Prod.fst)) target ()).1

/-! ## The condition -/

/-- The entry ends the session. -/
def State.expires (s : State) (e : Entry) : Bool :=
  s.enabled && s.session.active && (enterWorker s e).ticks - s.session.lastActivityTick ≥ sessionIdleTicks

/-- No entry of the run ends the session. -/
def staysActive (o : DosOpening) : DosNet → List DosEvent → Bool
  | _, [] => true
  | n, .work e :: events => !n.state.expires e && staysActive o (n.step o (.work e)) events
  | n, event :: events => staysActive o (n.step o event) events

def Asking.waits (a : Asking) : Bool :=
  match a.progress with
  | .waiting _ => true
  | .done _ => false

/-- No entry of the worker ends the session while the client waits. -/
def Asking.staysActive (o : DosOpening) (target : Address) : Asking → List Asking.Turn → Bool
  | _, [] => true
  | a, .entry e :: turns =>
    !(a.waits && a.agent.expires e) && Asking.staysActive o target (a.turn o target (.entry e)) turns
  | a, .deadline :: turns => Asking.staysActive o target (a.turn o target .deadline) turns

/-- The ID and the opcode that a datagram carries. -/
def datagramId (d : Bytes) : UInt16 := dmGetU16 d 8

def datagramOpcode (d : Bytes) : UInt8 := byteAt d 4

/-- Nothing is left under the ID of the next request, or under one that it is not newer than:
    IDs repeat after 65535 requests. -/
structure Current (id : UInt16) (s : State) (queue late : List Bytes) : Prop where
  last : ∀ last, s.session.last = some last → requestIsNewer id last = true
  reassembly : s.reassembly.requestId ≠ id
  response : s.session.responseRequestId ≠ id
  slot : ∀ d, s.slot = some d → requestIsNewer id (datagramId d.payload) = true
  queue : ∀ d ∈ queue, requestIsNewer id (datagramId d) = true
  late : ∀ d ∈ late, datagramId d ≠ id ∨ datagramOpcode d = dmOpHello

/-- The client of the session. -/
structure Connected (o : DosOpening) (client : UdpBackend) (n : DosNet) : Prop where
  closed_eq : client.closed = false
  sessionId_eq : client.sessionId = o.sessionId.toNat
  sessionKey_eq : client.sessionKey = some o.key
  requestId_eq : client.requestId = n.requestId

/-! ## Fields of a datagram -/

theorem dmPacketDecode_requestId {datagram key : Bytes} {packet : DmPacket} (h : dmPacketDecode datagram key = .ok packet) :
    packet.requestId = datagramId datagram := by
  rw [(dmPacketDecode_accepted h).packet_eq]
  rfl

/-- What the client reads from a datagram of the agent. -/
theorem decode_fields {d : Bytes} {key : Key} {p : Packet} (h : Packet.decode d key = .ok p) :
    p.requestId = (datagramId d).toNat ∧ p.opcode.value = (datagramOpcode d).toNat := by
  have hdecode := dmPacketDecode_of_decode h
  obtain ⟨-, hopcode, -, -, hid, -⟩ := ofPacket_values p
  rw [← dmPacketDecode_requestId hdecode, hid, datagramOpcode, ← (dmPacketDecode_opcode hdecode).1, hopcode]
  exact ⟨rfl, rfl⟩

theorem dmPacketEncode_fields {p : DmPacket} {key d : Bytes} {capacity : UInt16} (h : dmPacketEncode p key capacity = .ok d) :
    datagramId d = p.requestId ∧ datagramOpcode d = p.opcode ∧ p.fragmentIndex < p.fragmentCount := by
  unfold dmPacketEncode at h
  dsimp only at h
  split at h
  · cases h
  split at h
  · cases h
  split at h
  · cases h
  rename_i hfragment
  split at h
  · cases h
  split at h
  · cases h
  obtain rfl : _ = d := by simpa using h
  simp only [not_or, ge_iff_le, UInt8.not_le] at hfragment
  refine ⟨?_, rfl, hfragment.2.2⟩
  change (p.requestId.toUInt8.toUInt16 ||| ((p.requestId >>> 8).toUInt8.toUInt16 <<< 8)) = p.requestId
  rw [← UInt16.toNat_inj, byte_word16]
  have hlt := p.requestId.toNat_lt
  simp only [UInt16.toNat_toUInt8, UInt16.toNat_shiftRight, UInt16.reduceToNat, Nat.shiftRight_eq_div_pow, Nat.reduceMod,
    Nat.reducePow]
  omega

/-! ## The client -/

/-- The exchange with other notes on what it has ignored. -/
structure SameExchange (x y : Exchange) : Prop where
  expected_eq : y.expected = x.expected
  encoded_eq : y.encoded = x.encoded
  key_eq : y.key = x.key
  attempts_eq : y.attempts = x.attempts
  received_eq : y.received = x.received

theorem SameExchange.trans {x y z : Exchange} (h : SameExchange x y) (k : SameExchange y z) : SameExchange x z where
  expected_eq := k.expected_eq.trans h.expected_eq
  encoded_eq := k.encoded_eq.trans h.encoded_eq
  key_eq := k.key_eq.trans h.key_eq
  attempts_eq := k.attempts_eq.trans h.attempts_eq
  received_eq := k.received_eq.trans h.received_eq

/-- The datagram answers a request under an ID with `Q`, or a HELLO. -/
def Answers (Q : UInt16 → Prop) (d : Bytes) : Prop := Q (datagramId d) ∨ datagramOpcode d = dmOpHello

/-- It cannot answer a request under the ID that is no HELLO. -/
abbrev Unrelated (id : UInt16) : Bytes → Prop := Answers fun other => other ≠ id

theorem receive_unrelated {x : Exchange} {id : UInt16} (hid : x.expected.requestId = id.toNat)
    (hopcode : x.expected.opcode = .getStatus) {d : Bytes} (h : Unrelated id d) (target : Address) :
    ∃ y, x.receive target target d = .waiting y ∧ SameExchange x y := by
  unfold Exchange.receive
  split
  · exact ⟨x, rfl, rfl, rfl, rfl, rfl, rfl⟩
  · split
    · exact ⟨_, rfl, rfl, rfl, rfl, rfl, rfl⟩
    · rename_i p hdecode
      obtain ⟨hpid, hpopcode⟩ := decode_fields hdecode
      have hno : ¬ x.matches p = true := by
        simp only [Exchange.matches, decide_eq_true_eq]
        rintro ⟨hsame, hop, -⟩
        rcases h with hne | hhello
        · exact hne (UInt16.toNat_inj.mp (by rw [← hpid, hsame, hid]))
        · rw [hop, hopcode, hhello] at hpopcode
          exact absurd hpopcode (by decide)
      rw [Exchange.receivePacket, if_pos hno]
      exact ⟨_, rfl, rfl, rfl, rfl, rfl, rfl⟩

theorem readAll_unrelated {x : Exchange} {id : UInt16} (hid : x.expected.requestId = id.toNat)
    (hopcode : x.expected.opcode = .getStatus) {ds : List Bytes} (h : ∀ d ∈ ds, Unrelated id d) (target : Address) :
    ∃ y, readAll target (.waiting x) ds = .waiting y ∧ SameExchange x y := by
  induction ds generalizing x with
  | nil => exact ⟨x, rfl, rfl, rfl, rfl, rfl, rfl⟩
  | cons d ds ih =>
    obtain ⟨y, hy, hsame⟩ := receive_unrelated hid hopcode (h d List.mem_cons_self) target
    obtain ⟨z, hz, hsame'⟩ := ih (x := y) (by rw [hsame.expected_eq, hid]) (by rw [hsame.expected_eq, hopcode])
      fun d' hd' => h d' (List.mem_cons_of_mem _ hd')
    refine ⟨z, ?_, hsame.trans hsame'⟩
    rw [← hz]
    simp only [readAll, receiveAll, hy]

/-! ## The worker -/

/-- RA-TSR has the answer to request `id` ready, or the one it had; nothing is sent yet. -/
structure Answering (s t : State) (id : UInt16) : Prop where
  response : t.session.responseRequestId = s.session.responseRequestId ∨ t.session.responseRequestId = id
  count : t.session.responseCount = s.session.responseCount ∨ t.session.responseCount.toNat ≤ 16
  helloPending_eq : t.session.helloPending = s.session.helloPending
  helloDatagram_eq : t.session.helloDatagram = s.session.helloDatagram
  sent_eq : t.sent = s.sent

theorem answering_sendResponse (s : State) (kind opcode : UInt8) (id : UInt16) (source : Source) :
    Answering s (sendResponse .ratsr s kind opcode id source) id := by
  unfold sendResponse
  dsimp only
  split
  · exact ⟨Or.inl rfl, Or.inl rfl, rfl, rfl, rfl⟩
  · rename_i hcount
    cases source with
    | screen n => exact ⟨Or.inr rfl, Or.inr (Nat.not_lt.mp hcount), rfl, rfl, rfl⟩
    | array bytes => exact ⟨Or.inr rfl, Or.inr (Nat.not_lt.mp hcount), rfl, rfl, rfl⟩

theorem answering_processRequest (c : Config) (s : State) (opcode : UInt8) (id : UInt16) (payload : Bytes) :
    Answering s (processRequest .ratsr c s opcode id payload) id := by
  have hop := operate_operated .ratsr c { s with requests := s.requests ++ [⟨opcode, id, payload⟩] } opcode payload
  unfold processRequest
  generalize operate .ratsr c { s with requests := s.requests ++ [⟨opcode, id, payload⟩] } opcode payload = r at hop ⊢
  obtain ⟨reply, t⟩ := r
  have hsession : t.session = s.session := hop.session_eq
  have hsent : t.sent = s.sent := hop.sent_eq
  have hfrom : ∀ {u v : State}, u.session = t.session → u.sent = t.sent → Answering u v id → Answering s v id := by
    rintro u v hu hu' ⟨h1, h2, h3, h4, h5⟩
    rw [hu, hsession] at h1 h2 h3 h4
    exact ⟨h1, h2, h3, h4, by rw [h5, hu', hsent]⟩
  cases reply with
  | error code message => exact hfrom rfl rfl (answering_sendResponse t _ _ _ _)
  | screen bytes => exact hfrom (u := t.putScreen .ratsr bytes) rfl rfl (answering_sendResponse _ _ _ _ _)
  | capture length => exact hfrom rfl rfl (answering_sendResponse t _ _ _ _)

/-- `t` is `s` after a packet of the session under `id`. -/
structure Handled (s t : State) (id : UInt16) : Prop extends Answering s t id where
  active_eq : t.session.active = s.session.active
  id_eq : t.session.id = s.session.id
  key_eq : t.session.key = s.session.key
  peer_eq : t.session.peer = s.session.peer
  last : t.session.last = s.session.last ∨ t.session.last = some id
  current : t.reassembly.requestId = s.reassembly.requestId ∨ t.reassembly.requestId = id
  enabled_eq : t.enabled = s.enabled
  slot_eq : t.slot = s.slot

theorem processSessionPacket_handled (c : Config) (s : State) {p : DmPacket} (hopcode : 1 ≤ p.opcode ∧ p.opcode ≤ 18) :
    Handled s (processSessionPacket .ratsr c s p) p.requestId := by
  obtain ⟨hactive, hlast, hcurrent⟩ := processSessionPacket_ids .ratsr c s hopcode
  obtain ⟨reassembly, workspace, hstore⟩ := storeFragment_session s p
  rcases processSessionPacket_cases .ratsr c s p with ⟨-, e⟩ | ⟨-, e⟩ | ⟨-, ⟨-, e⟩ | ⟨payload, -, e⟩⟩
  · rw [e] at hlast hcurrent ⊢
    exact ⟨⟨Or.inl rfl, Or.inl rfl, rfl, rfl, rfl⟩, rfl, rfl, rfl, rfl, hlast, hcurrent, rfl, rfl⟩
  · have hr := sendError_responded .ratsr s hopcode p.requestId 4 "replayed request"
    rw [e] at hlast hcurrent ⊢
    exact ⟨answering_sendResponse _ _ _ _ _, hr.active_eq, hr.id_eq, hr.key_eq, hr.peer_eq, hlast, hcurrent, hr.enabled_eq,
      hr.slot_eq⟩
  · rw [e, hstore] at hlast hcurrent ⊢
    exact ⟨⟨Or.inl rfl, Or.inl rfl, rfl, rfl, rfl⟩, rfl, rfl, rfl, rfl, hlast, hcurrent, rfl, rfl⟩
  · have hr := processRequest_processed .ratsr c (s.storeFragment p) hopcode p.requestId payload
    have ha := answering_processRequest c (s.storeFragment p) p.opcode p.requestId payload
    rw [e] at hlast hcurrent ⊢
    generalize processRequest .ratsr c (s.storeFragment p) p.opcode p.requestId payload = t at *
    rw [hstore] at hr ha
    exact ⟨⟨ha.response, ha.count, ha.helloPending_eq, ha.helloDatagram_eq, ha.sent_eq⟩, hr.active_eq, hr.id_eq, hr.key_eq, hr.peer_eq,
      hlast, hcurrent, hr.enabled_eq, hr.slot_eq⟩

/-- An entry that does not end the session only counts. -/
theorem beforePoll_active_eq {s : State} (hactive : s.session.active = true) {e : Entry} (henabled : s.enabled = true)
    (hno : s.expires e = false) (c : Config) : beforePoll c s e = enterWorker s e := by
  have hexpire : expireSession (enterWorker s e) = enterWorker s e := by
    refine if_neg fun h => ?_
    have hidle : (enterWorker s e).ticks - s.session.lastActivityTick ≥ sessionIdleTicks := h.2
    simp [State.expires, henabled, hactive, hidle] at hno
  have hsession : (enterWorker s e).session.active = true := hactive
  rw [beforePoll, hexpire, cleanTransfer, if_neg fun h => h.1 hsession, advertise, if_neg fun h => h.1 hsession]

/-- The datagrams that the worker still has to send. -/
def AgentSession.unsent (session : AgentSession) : Nat :=
  (if session.responsePending then max 1 (session.responseCount.toNat - session.responseNext.toNat) else 0) +
    session.helloPending.toNat

theorem AgentSession.unsent_le {session : AgentSession} (hcount : session.responseCount.toNat ≤ 16)
    (hhello : session.helloPending = false) : session.unsent ≤ 16 := by
  unfold AgentSession.unsent
  rw [hhello]
  split
  · simp only [Bool.toNat_false]
    omega
  · simp

/-- `t` is `s` after an entry that sends `sent` or nothing. -/
structure Emitted (s t : State) (sent : List (Peer × Bytes)) : Prop where
  active_eq : t.session.active = s.session.active
  id_eq : t.session.id = s.session.id
  key_eq : t.session.key = s.session.key
  peer_eq : t.session.peer = s.session.peer
  last_eq : t.session.last = s.session.last
  response_eq : t.session.responseRequestId = s.session.responseRequestId
  count_eq : t.session.responseCount = s.session.responseCount
  helloDatagram_eq : t.session.helloDatagram = s.session.helloDatagram
  helloPending : t.session.helloPending = true → s.session.helloPending = true
  reassembly_eq : t.reassembly = s.reassembly
  enabled_eq : t.enabled = s.enabled
  slot_eq : t.slot = s.slot
  sent_eq : t.sent = s.sent ++ sent

theorem emitFragment_emitted {s : State} (hpending : s.session.responsePending = true) :
    ∃ sent, Emitted s (emitFragment s) sent ∧ (∀ x ∈ sent, datagramId x.2 = s.session.responseRequestId) ∧
      (emitFragment s).session.unsent < s.session.unsent := by
  have hunsent : s.session.unsent = max 1 (s.session.responseCount.toNat - s.session.responseNext.toNat) +
      s.session.helloPending.toNat := by
    rw [AgentSession.unsent, if_pos hpending]
  unfold emitFragment
  dsimp only
  split
  · refine ⟨[], ⟨rfl, rfl, rfl, rfl, rfl, rfl, rfl, rfl, id, rfl, rfl, rfl, (List.append_nil _).symm⟩, nofun, ?_⟩
    rw [hunsent]
    simp only [AgentSession.unsent, Bool.false_eq_true, if_false]
    omega
  · rename_i datagram hencode
    obtain ⟨hid, -, hlt⟩ := dmPacketEncode_fields hencode
    refine ⟨[(s.session.peer, datagram)], ⟨rfl, rfl, rfl, rfl, rfl, rfl, rfl, rfl, id, rfl, rfl, rfl, rfl⟩, ?_, ?_⟩
    · intro x hx
      rw [List.mem_singleton.mp hx]
      exact hid
    · have hnext : s.session.responseNext.toNat < s.session.responseCount.toNat := UInt8.lt_iff_toNat_lt.mp hlt
      have hcount := s.session.responseCount.toNat_lt
      rw [hunsent]
      have hstep : (s.session.responseNext + 1).toNat = s.session.responseNext.toNat + 1 := by
        rw [UInt8.toNat_add]
        exact Nat.mod_eq_of_lt (by simp only [UInt8.reduceToNat]; omega)
      simp only [AgentSession.unsent, State.transmit, decide_eq_true_eq, UInt8.lt_iff_toNat_lt, hstep]
      split <;> omega

theorem emitHello_emitted {s : State} (hpending : s.session.responsePending = false) (hhello : s.session.helloPending = true) :
    Emitted s (emitHello s) [(s.session.peer, s.session.helloDatagram)] ∧ (emitHello s).session.unsent < s.session.unsent := by
  refine ⟨⟨rfl, rfl, rfl, rfl, rfl, rfl, rfl, rfl, fun h => ?_, rfl, rfl, rfl, rfl⟩, ?_⟩
  · cases h
  · simp [AgentSession.unsent, emitHello, State.transmit, hpending, hhello]

/-! ## The status request -/

/-- The only packet of `GET_STATUS` under the ID. -/
def statusRequest (o : DosOpening) (id : UInt16) : Packet :=
  onlyPacket .request .getStatus []
    (Nat.le_of_lt_succ o.sessionId.toNat_lt) (Nat.le_of_lt_succ id.toNat_lt) (Nat.zero_le _)

def statusDatagram (o : DosOpening) (id : UInt16) : Bytes := dosTransportDatagram ((statusRequest o id).encode o.key)

/-- The exchange waits for the answer to it. -/
structure Asks (o : DosOpening) (id : UInt16) (x : Exchange) : Prop where
  expected_eq : x.expected = statusRequest o id
  encoded_eq : x.encoded = [statusDatagram o id]
  key_eq : x.key = o.key
  received_eq : x.received = []

theorem Asks.same {o : DosOpening} {id : UInt16} {x y : Exchange} (h : Asks o id x) (hsame : SameExchange x y) : Asks o id y where
  expected_eq := hsame.expected_eq.trans h.expected_eq
  encoded_eq := hsame.encoded_eq.trans h.encoded_eq
  key_eq := hsame.key_eq.trans h.key_eq
  received_eq := hsame.received_eq.trans h.received_eq

theorem Asks.readAll {o : DosOpening} {id : UInt16} {x : Exchange} (h : Asks o id x) {ds : List Bytes}
    (hds : ∀ d ∈ ds, Unrelated id d) (target : Address) :
    ∃ y, Dos.readAll target (.waiting x) ds = .waiting y ∧ Asks o id y ∧ y.attempts = x.attempts := by
  obtain ⟨y, hy, hsame⟩ := readAll_unrelated (by rw [h.expected_eq]; rfl) (by rw [h.expected_eq]; rfl) hds target
  exact ⟨y, hy, h.same hsame, hsame.attempts_eq⟩

/-- The agent is in the session; `P` holds of the ID it goes by in the replay check, `Q` of those
    it reassembles and answers. -/
structure Tracks (o : DosOpening) (P Q : UInt16 → Prop) (s : State) : Prop extends s.Serves o where
  enabled_eq : s.enabled = true
  last : ∀ last, s.session.last = some last → P last
  reassembly : Q s.reassembly.requestId
  response : Q s.session.responseRequestId
  count : s.session.responseCount.toNat ≤ 16
  hello : s.session.helloPending = true → datagramOpcode s.session.helloDatagram = dmOpHello

section

variable {o : DosOpening} {P Q : UInt16 → Prop} {s t : State}

theorem Tracks.emitted (h : Tracks o P Q s) {sent : List (Peer × Bytes)} (ht : Emitted s t sent) : Tracks o P Q t where
  active_eq := ht.active_eq.trans h.active_eq
  id_eq := ht.id_eq.trans h.id_eq
  key_eq := ht.key_eq.trans h.key_eq
  peer_eq := ht.peer_eq.trans h.peer_eq
  enabled_eq := ht.enabled_eq.trans h.enabled_eq
  last := fun last hlast => h.last last (ht.last_eq ▸ hlast)
  reassembly := ht.reassembly_eq ▸ h.reassembly
  response := ht.response_eq ▸ h.response
  count := ht.count_eq ▸ h.count
  hello := fun hpending => by
    rw [ht.helloDatagram_eq]
    exact h.hello (ht.helloPending hpending)

theorem Tracks.handled (h : Tracks o P Q s) {id : UInt16} (ht : Handled s t id) (hP : P id) (hQ : Q id) : Tracks o P Q t where
  active_eq := ht.active_eq.trans h.active_eq
  id_eq := ht.id_eq.trans h.id_eq
  key_eq := ht.key_eq.trans h.key_eq
  peer_eq := ht.peer_eq.trans h.peer_eq
  enabled_eq := ht.enabled_eq.trans h.enabled_eq
  last := fun last hlast => by
    rcases ht.last with e | e
    · exact h.last last (e.symm.trans hlast)
    · obtain rfl := Option.some.inj (e.symm.trans hlast)
      exact hP
  reassembly := by
    rcases ht.current with e | e <;> rw [e]
    · exact h.reassembly
    · exact hQ
  response := by
    rcases ht.response with e | e <;> rw [e]
    · exact h.response
    · exact hQ
  count := by
    rcases ht.count with e | e
    · rw [e]
      exact h.count
    · exact e
  hello := fun hpending => by
    rw [ht.helloDatagram_eq]
    exact h.hello (ht.helloPending_eq ▸ hpending)

theorem Tracks.entered (h : Tracks o P Q s) (e : Entry) : Tracks o P Q (enterWorker s e) :=
  ⟨⟨h.active_eq, h.id_eq, h.key_eq, h.peer_eq⟩, h.enabled_eq, h.last, h.reassembly, h.response, h.count, h.hello⟩

/-- What the receive buffer holds does not matter. -/
theorem Tracks.withSlot (h : Tracks o P Q s) (slot : Option Datagram) : Tracks o P Q { s with slot := slot } :=
  ⟨⟨h.active_eq, h.id_eq, h.key_eq, h.peer_eq⟩, h.enabled_eq, h.last, h.reassembly, h.response, h.count, h.hello⟩

/-- An entry that does not end the session sends something, or polls and sends nothing. -/
theorem Tracks.entry (h : Tracks o P Q s) {e : Entry} (hlives : s.expires e = false) (c : Config) :
    (∃ sent, (ratsrIdleWorker c s e).sent = s.sent ++ sent ∧ (∀ x ∈ sent, Answers Q x.2) ∧
        Tracks o P Q (ratsrIdleWorker c s e) ∧ (ratsrIdleWorker c s e).slot = s.slot ∧
        (ratsrIdleWorker c s e).session.unsent < s.session.unsent) ∨
      (s.session.unsent = 0 ∧ s.session.helloPending = false ∧
        ratsrIdleWorker c s e = pollDatagram c (enterWorker s e) e) := by
  unfold ratsrIdleWorker
  rw [if_neg (not_not.mpr h.enabled_eq), beforePoll_active_eq h.active_eq h.enabled_eq hlives]
  dsimp only
  have hentered := h.entered e
  split
  · rename_i hpending
    obtain ⟨sent, hemitted, hids, hunsent⟩ := emitFragment_emitted hpending
    refine Or.inl ⟨sent, hemitted.sent_eq, fun x hx => Or.inl ?_, hentered.emitted hemitted, hemitted.slot_eq, hunsent⟩
    rw [hids x hx]
    exact hentered.response
  · rename_i hpending
    split
    · rename_i hhello
      obtain ⟨hemitted, hunsent⟩ := emitHello_emitted (by simpa using hpending) hhello
      refine Or.inl ⟨_, hemitted.sent_eq, fun x hx => Or.inr ?_, hentered.emitted hemitted, hemitted.slot_eq, hunsent⟩
      rw [List.mem_singleton.mp hx]
      exact hentered.hello hhello
    · rename_i hhello
      have hpending' : s.session.responsePending = false := Bool.eq_false_of_not_eq_true hpending
      have hhello' : s.session.helloPending = false := Bool.eq_false_of_not_eq_true hhello
      exact Or.inr ⟨by simp [AgentSession.unsent, hpending', hhello'], hhello', rfl⟩

/-- A datagram of the session is polled: it may have to wait for DOS. -/
theorem Tracks.poll (h : Tracks o P Q s) {d : Datagram} (hslot : s.slot = some d) {p : DmPacket} (hheard : Heard o d p)
    (hP : P p.requestId) (hQ : Q p.requestId) (c : Config) (e : Entry) :
    (pollDatagram c s e).sent = s.sent ∧ Tracks o P Q (pollDatagram c s e) ∧
      (((pollDatagram c s e).slot = none ∧ (pollDatagram c s e).session.helloPending = s.session.helloPending) ∨
        ((pollDatagram c s e).slot = some d ∧ (pollDatagram c s e).session.unsent = s.session.unsent ∧
          dosOperation s d.payload = true ∧ e.dosSafe = false)) := by
  rcases pollDatagram_cases c s e with ⟨hnone, -⟩ | ⟨d', result, hd', hdefer, hpoll⟩ | ⟨d', hd', -, hpoll⟩
  · rw [hslot] at hnone
    cases hnone
  · obtain rfl : d = d' := Option.some.inj (hslot.symm.trans hd')
    have hkept : Tracks o P Q { s with lastProtocolResult := result } :=
      ⟨⟨h.active_eq, h.id_eq, h.key_eq, h.peer_eq⟩, h.enabled_eq, h.last, h.reassembly, h.response, h.count, h.hello⟩
    rcases hpoll with hpoll | hpoll
    · rw [hpoll]
      exact ⟨rfl, hkept, Or.inr ⟨hslot, rfl, hdefer.1, Bool.eq_false_of_not_eq_true hdefer.2⟩⟩
    · rw [hpoll]
      exact ⟨rfl, hkept.withSlot none, Or.inl ⟨rfl, rfl⟩⟩
  · obtain rfl : d = d' := Option.some.inj (hslot.symm.trans hd')
    rw [hpoll, hheard.active h.active_eq h.id_eq h.key_eq h.peer_eq]
    have hhandled := processSessionPacket_handled c (s.heard p) (dmPacketDecode_opcode hheard.decode_eq).2
    have hs : Tracks o P Q (s.heard p) :=
      ⟨⟨h.active_eq, h.id_eq, h.key_eq, h.peer_eq⟩, h.enabled_eq, h.last, h.reassembly, h.response, h.count, h.hello⟩
    exact ⟨hhandled.sent_eq, (hs.handled hhandled hP hQ).withSlot none, Or.inl ⟨rfl, hhandled.helloPending_eq⟩⟩

end

/-- The agent is in the session and has not seen the request yet. -/
abbrev Unanswered (o : DosOpening) (id : UInt16) : State → Prop :=
  Tracks o (fun last => requestIsNewer id last = true) (fun other => other ≠ id)

theorem requestIsNewer_ne {a b : UInt16} (h : requestIsNewer a b = true) : b ≠ a := by
  rintro rfl
  simp [requestIsNewer] at h

section

variable {o : DosOpening} {id : UInt16} {s t : State}

/-- What the agent decodes from a datagram that the client has sent. -/
theorem DosSentAs.heard {k : Nat} {d : Datagram} (h : DosSentAs o k d.payload) (hpeer : d.peer = o.peer) :
    ∃ p, Heard o d p ∧ p.requestId = datagramId d.payload := by
  obtain ⟨p, hd, hkind, hhello, hsid, -⟩ := h
  have hheard := heard_ofPacket hd hpeer hkind hhello hsid
  exact ⟨ofPacket p, hheard, dmPacketDecode_requestId hheard.decode_eq⟩

/-- A datagram of the session that was sent before the request; `dos`: it may be a file
    operation. -/
structure Earlier (o : DosOpening) (id : UInt16) (dos : Bool) (d : Bytes) : Prop where
  sent : ∃ k, DosSentAs o k d
  newer : requestIsNewer id (datagramId d) = true
  noDos : dos = false → ¬ (8 ≤ datagramOpcode d ∧ datagramOpcode d ≤ 14)

/-- An earlier datagram is polled. -/
theorem Earlier.poll {dos : Bool} {d : Datagram} (h : Earlier o id dos d.payload) (hpeer : d.peer = o.peer)
    (hs : Unanswered o id s) (hslot : s.slot = some d) (c : Config) (e : Entry) :
    (pollDatagram c s e).sent = s.sent ∧ Unanswered o id (pollDatagram c s e) ∧
      (((pollDatagram c s e).slot = none ∧ (pollDatagram c s e).session.helloPending = s.session.helloPending) ∨
        ((pollDatagram c s e).slot = some d ∧ (pollDatagram c s e).session.unsent = s.session.unsent ∧ dos = true ∧
          e.dosSafe = false)) := by
  obtain ⟨k, hsent⟩ := h.sent
  obtain ⟨p, hheard, hid⟩ := hsent.heard hpeer
  have hnewer : requestIsNewer id p.requestId = true := hid ▸ h.newer
  obtain ⟨hsame, htracks, hkept⟩ := hs.poll hslot hheard hnewer (requestIsNewer_ne hnewer) c e
  refine ⟨hsame, htracks, hkept.imp_right fun ⟨hslot', hunsent, hdos, hunsafe⟩ => ⟨hslot', hunsent, ?_, hunsafe⟩⟩
  by_contra hno
  simp only [dosOperation, decide_eq_true_eq] at hdos
  exact h.noDos (Bool.eq_false_of_not_eq_true hno) ⟨hdos.2.1, hdos.2.2.1⟩

/-- The answer to the request is the next that the worker sends. -/
structure Prepared (o : DosOpening) (id : UInt16) (s : State) : Prop extends s.Serves o where
  enabled_eq : s.enabled = true
  pending : s.session.responsePending = true
  next_eq : s.session.responseNext = 0
  count_eq : s.session.responseCount = 1
  kind_eq : s.session.responseKind = dmKindResponse
  opcode_eq : s.session.responseOpcode = 2
  requestId_eq : s.session.responseRequestId = id
  length_eq : s.session.responsePayloadLength = 12
  status : ∃ m, StatusMessage.decode (s.workspace.load 0 12) = .ok m

theorem buildStatus_decode (c : Config) (m : Machine) :
    (buildStatus .ratsr c m).length = 12 ∧ ∃ message, StatusMessage.decode (buildStatus .ratsr c m) = .ok message := by
  refine ⟨rfl, ?_⟩
  have hphase : slice (buildStatus .ratsr c m) 5 1 = [2] := rfl
  have hlen : (buildStatus .ratsr c m).length = 12 := rfl
  rw [StatusMessage.decode, requireSize, raiseIf_false (by simp [hlen]), ok_bind, hphase]
  exact ⟨_, rfl⟩

/-- A request of one packet without payload is complete at once. -/
theorem completedRequest_single {p : DmPacket} (hid : s.reassembly.requestId ≠ p.requestId) (hindex : p.fragmentIndex = 0)
    (hcount : p.fragmentCount = 1) (hpayload : p.payload = []) : s.completedRequest p = some ⟨p.opcode, p.requestId, []⟩ := by
  have hfor : s.reassembly.forPacket p = ⟨p.requestId, p.opcode, 1, 0, List.replicate 32 0⟩ := by
    rw [Reassembly.forPacket, if_pos (Ne.symm hid), hcount]
  have haccept : (s.reassembly.forPacket p).refuses p = false := by
    simp [hfor, Reassembly.refuses, hcount, hindex, hpayload, requestBufferSize]
  have hlength : p.payloadLength = 0 := by rw [DmPacket.payloadLength, hpayload]; rfl
  have hstored : (s.storeFragment p).reassembly = ⟨p.requestId, p.opcode, 1, 1, List.replicate 32 0⟩ := by
    rw [State.storeFragment, haccept]
    simp only [hfor, Reassembly.add, hindex, hlength]
    rfl
  rw [State.completedRequest, haccept]
  have hmask : expectedMask 1 = 1 := by decide
  have hcomplete : (Reassembly.mk p.requestId p.opcode 1 1 (List.replicate 32 0)).complete = true := by
    simp [Reassembly.complete, hmask]
  have hfinal : (Reassembly.mk p.requestId p.opcode 1 1 (List.replicate 32 0)).finalLength = 0 := by
    simp [Reassembly.finalLength]
  simp only [hstored, hcomplete, hfinal, Bool.false_eq_true, if_false, if_true, Memory.load_zero]

theorem processRequest_status (id : UInt16) (c : Config) (h : s.Serves o) (henabled : s.enabled = true) :
    Prepared o id (processRequest .ratsr c s 2 id []) := by
  obtain ⟨hlen, hdecode⟩ := buildStatus_decode c s.machine
  have hprocess : processRequest .ratsr c s 2 id [] = sendResponse .ratsr
      ((s.logRequest ⟨2, id, []⟩).putScreen .ratsr (buildStatus .ratsr c s.machine)) dmKindResponse 2 id (.screen 12) := rfl
  rw [hprocess]
  refine ⟨⟨h.active_eq, h.id_eq, h.key_eq, h.peer_eq⟩, henabled, rfl, rfl, rfl, rfl, rfl, rfl, rfl, ?_⟩
  have hload : (s.workspace.store 0 (buildStatus .ratsr c s.machine)).load 0 12 = buildStatus .ratsr c s.machine := by
    rw [← hlen]
    exact Memory.load_store_same _ _ _
  obtain ⟨message, hmessage⟩ := hdecode
  exact ⟨message, by rw [← hmessage, ← hload]; rfl⟩

theorem statusRequest_fields (o : DosOpening) (id : UInt16) :
    (ofPacket (statusRequest o id)).requestId = id ∧ (ofPacket (statusRequest o id)).opcode = 2 ∧
      (ofPacket (statusRequest o id)).fragmentIndex = 0 ∧ (ofPacket (statusRequest o id)).fragmentCount = 1 ∧
      (ofPacket (statusRequest o id)).payload = [] :=
  ⟨UInt16.ofNat_toNat, rfl, rfl, rfl, rfl⟩

theorem statusDatagram_heard (o : DosOpening) (id : UInt16) :
    Heard o ⟨statusDatagram o id, o.peer⟩ (ofPacket (statusRequest o id)) := by
  have hopcode : (statusRequest o id).opcode ≠ .hello := show Opcode.getStatus ≠ .hello by decide
  have hd : (Datagram.mk (statusDatagram o id) o.peer).payload = dosTransportDatagram ((statusRequest o id).encode o.key) := by
    simp only [statusDatagram]
  exact heard_ofPacket hd rfl rfl hopcode rfl

/-- The request itself is polled. -/
theorem Tracks.pollStatus (h : Unanswered o id s) (hslot : s.slot = some ⟨statusDatagram o id, o.peer⟩) (c : Config)
    (e : Entry) : Prepared o id (pollDatagram c s e) ∧ (pollDatagram c s e).sent = s.sent ∧ (pollDatagram c s e).slot = none := by
  obtain ⟨hid, hopcode, hindex, hcount, hpayload⟩ := statusRequest_fields o id
  have hheard := statusDatagram_heard o id
  have hbyte := (dmPacketDecode_opcode hheard.decode_eq).1
  rw [hopcode] at hbyte
  unfold pollDatagram
  rw [hslot]
  dsimp only
  rw [if_neg fun hdefer => by simp [dosOperation, ← hbyte] at hdefer, hheard.active h.active_eq h.id_eq h.key_eq h.peer_eq]
  generalize ofPacket (statusRequest o id) = p at *
  -- it is newer than the last one and complete with its only packet
  have hdone : (s.heard p).completedRequest p = some ⟨2, id, []⟩ := by
    rw [completedRequest_single (by rw [hid]; exact h.reassembly) hindex hcount hpayload, hopcode, hid]
  have hprocess : processSessionPacket .ratsr c (s.heard p) p = processRequest .ratsr c ((s.heard p).storeFragment p) 2 id [] := by
    rcases processSessionPacket_cases .ratsr c (s.heard p) p with ⟨hlast, -⟩ | ⟨hrefuse, -⟩ | ⟨-, ⟨hnone, -⟩ | ⟨payload, hsome, e⟩⟩
    · rw [hid] at hlast
      exact absurd rfl (requestIsNewer_ne (h.last id hlast))
    · simp only [AgentSession.refuses, Bool.and_eq_true, Bool.not_eq_true', decide_eq_true_eq] at hrefuse
      obtain ⟨⟨hhas, -⟩, hold⟩ := hrefuse
      have hnewer := h.last (s.heard p).session.lastRequestId (if_pos hhas)
      rw [hid, hnewer] at hold
      cases hold
    · rw [hdone] at hnone
      cases hnone
    · obtain ⟨-, -, rfl⟩ := Request.mk.inj (Option.some.inj (hdone.symm.trans hsome))
      rw [e, hopcode, hid]
  rw [hprocess]
  obtain ⟨reassembly, workspace, hstore⟩ := storeFragment_session (s.heard p) p
  rw [hstore]
  generalize ht : ({ s.heard p with reassembly := reassembly, workspace := workspace } : State) = t
  have hserves : t.Serves o := ht ▸ ⟨h.active_eq, h.id_eq, h.key_eq, h.peer_eq⟩
  have hprepared := processRequest_status id c hserves (by rw [← ht]; exact h.enabled_eq)
  refine ⟨⟨⟨hprepared.active_eq, hprepared.id_eq, hprepared.key_eq, hprepared.peer_eq⟩, hprepared.enabled_eq, hprepared.pending,
    hprepared.next_eq, hprepared.count_eq, hprepared.kind_eq, hprepared.opcode_eq, hprepared.requestId_eq, hprepared.length_eq,
    hprepared.status⟩, ?_, rfl⟩
  have hsent := (answering_processRequest c t 2 id []).sent_eq
  rw [← ht] at hsent ⊢
  exact hsent

/-- The packet that answers the request. -/
def statusReply (o : DosOpening) (id : UInt16) (bytes : Bytes) (hlen : bytes.length = 12) : Packet :=
  onlyPacket .response .getStatus bytes
    (Nat.le_of_lt_succ o.sessionId.toNat_lt) (Nat.le_of_lt_succ id.toNat_lt) (by rw [hlen]; decide)

/-- The next entry sends the answer. -/
theorem Prepared.entry (h : Prepared o id s) {e : Entry} (hlives : s.expires e = false) (c : Config) :
    (ratsrIdleWorker c s e).sent =
      s.sent ++ [(o.peer, (statusReply o id (s.workspace.load 0 12) (Memory.load_length _ _ _)).encode o.key)] := by
  have hpending : (enterWorker s e).session.responsePending = true := h.pending
  unfold ratsrIdleWorker
  rw [if_neg (not_not.mpr h.enabled_eq), beforePoll_active_eq h.active_eq h.enabled_eq hlives]
  dsimp only
  rw [if_pos hpending]
  have hpacket : nextFragment (enterWorker s e) =
      (ofPacket (statusReply o id (s.workspace.load 0 12) (Memory.load_length _ _ _)), s.workspace) := by
    have hsession : (enterWorker s e).session = s.session := rfl
    have hworkspace : (enterWorker s e).workspace = s.workspace := rfl
    have hcapture : ¬ (2 : UInt8) = 4 := by decide
    have hlength : min (12 - (0 : UInt8).toNat * Build.ratsr.fragmentPayload) Build.ratsr.fragmentPayload = 12 := by decide
    have hstart : Build.ratsr.screenBase + (0 : UInt8).toNat * Build.ratsr.fragmentPayload = 0 := by decide
    simp only [nextFragment, hsession, hworkspace, h.kind_eq, h.opcode_eq, h.id_eq, h.requestId_eq, h.next_eq, h.count_eq,
      h.length_eq, hcapture, if_false, hlength, hstart]
    simp only [statusReply, onlyPacket, ofPacket, UInt16.ofNat_toNat]
    rfl
  have hkey : (enterWorker s e).session.key = o.key.bytes := h.key_eq
  have hencode := dmPacketEncode_ofPacket (statusReply o id (s.workspace.load 0 12) (Memory.load_length _ _ _)) o.key
    (show headerSize + _ ≤ responseDatagramSize.toNat by simp [statusReply, onlyPacket, headerSize, responseDatagramSize])
  simp only [emitFragment, hpacket, hkey, hencode, State.transmit]
  rw [show (enterWorker s e).session.peer = o.peer from h.peer_eq]
  rfl

end

/-! ## Turns -/

/-- The entries that bring the request closer to its answer: a file operation in front of it
    waits for DOS. -/
def Asking.Turn.counts (dos : Bool) : Asking.Turn → Bool
  | .entry e => e.dosSafe || !dos
  | .deadline => false

def deadlines (turns : List Asking.Turn) : Nat := turns.countP fun
  | .entry _ => false
  | .deadline => true

/-- The request is on its way, behind what was sent before it; the answer takes no more than
    `entries` entries of the worker that count. -/
structure Sought (o : DosOpening) (id : UInt16) (dos : Bool) (entries : Nat) (a : Asking) (x : Exchange) : Prop where
  progress_eq : a.progress = .waiting x
  asks : Asks o id x
  agent : Unanswered o id a.agent
  coming : ∃ earlier copies, a.queue = earlier ++ List.replicate copies (statusDatagram o id) ∧
    (∀ d ∈ earlier, Earlier o id dos d) ∧
    ((a.agent.slot = some ⟨statusDatagram o id, o.peer⟩ ∧ earlier = [] ∧ entries = a.agent.session.unsent + 2) ∨
      (1 ≤ copies ∧ (∀ d, a.agent.slot = some d → d.peer = o.peer ∧ Earlier o id dos d.payload) ∧
        entries = 17 * (earlier.length + a.agent.slot.toList.length) + a.agent.session.unsent + 2))

theorem Sought.two_le {o : DosOpening} {id : UInt16} {dos : Bool} {entries : Nat} {a : Asking} {x : Exchange}
    (h : Sought o id dos entries a x) : 2 ≤ entries := by
  obtain ⟨_, _, -, -, hslots⟩ := h.coming
  rcases hslots with ⟨-, -, hentries⟩ | ⟨-, -, hentries⟩ <;> omega

/-- The answer is ready at the agent. -/
structure Primed (o : DosOpening) (id : UInt16) (a : Asking) (x : Exchange) : Prop where
  progress_eq : a.progress = .waiting x
  asks : Asks o id x
  agent : Prepared o id a.agent

section

variable {o : DosOpening} {id : UInt16} {dos : Bool} {entries : Nat} {a : Asking} {x : Exchange}

theorem sentBetween_eq (o : DosOpening) {s t : State} {sent : List (Peer × Bytes)} (h : t.sent = s.sent ++ sent) :
    sentBetween o s t = (sent.filter (·.1 = o.peer)).map Prod.snd := by
  rw [sentBetween, h, List.drop_left]

/-- Arrival changes the receive buffer only. -/
theorem arrived_agent (o : DosOpening) (a : Asking) :
    ∃ slot, (a.arrived o).agent = { a.agent with slot := slot } ∧ (a.arrived o).progress = a.progress := by
  unfold Asking.arrived arrive
  split
  · split
    · exact ⟨_, rfl, rfl⟩
    · exact ⟨_, rfl, rfl⟩
  · exact ⟨_, rfl, rfl⟩

/-- What reaches the receive buffer is the next datagram. -/
theorem Sought.arrived (h : Sought o id dos entries a x) :
    Sought o id dos entries (a.arrived o) x ∧ ∃ d, (a.arrived o).agent.slot = some d := by
  obtain ⟨earlier, copies, hq, hearlier, hslots⟩ := h.coming
  unfold Asking.arrived
  split
  · rename_i d ds hslot hqueue
    have harrive : arrive a.agent ⟨d, o.peer⟩ = { a.agent with slot := some ⟨d, o.peer⟩ } := by
      rw [arrive, hslot]
    rw [harrive]
    refine ⟨⟨h.progress_eq, h.asks, h.agent.withSlot _, ?_⟩, ⟨d, o.peer⟩, rfl⟩
    rcases hslots with ⟨hsome, -⟩ | ⟨hcopies, -, hentries⟩
    · rw [hslot] at hsome
      cases hsome
    rw [hqueue] at hq
    rw [hslot] at hentries
    cases earlier with
    | nil =>
      obtain ⟨n, rfl⟩ : ∃ n, copies = n + 1 := ⟨copies - 1, by omega⟩
      rw [List.nil_append, List.replicate_succ] at hq
      obtain ⟨rfl, rfl⟩ := List.cons.inj hq
      refine ⟨[], n, rfl, by simp, Or.inl ⟨rfl, rfl, ?_⟩⟩
      simpa using hentries
    | cons d' earlier =>
      obtain ⟨rfl, rfl⟩ := List.cons.inj hq
      refine ⟨earlier, copies, rfl, fun d' hd' => hearlier d' (List.mem_cons_of_mem _ hd'), Or.inr ⟨hcopies, fun d' hd' => ?_, ?_⟩⟩
      · obtain rfl := Option.some.inj hd'
        exact ⟨rfl, hearlier d List.mem_cons_self⟩
      · simpa using hentries
  · rename_i hnone
    refine ⟨h, ?_⟩
    cases hslot : a.agent.slot with
    | some d => exact ⟨d, rfl⟩
    | none =>
      rcases hslots with ⟨hsome, -⟩ | ⟨hcopies, -, -⟩
      · rw [hslot] at hsome
        cases hsome
      · cases hqueue : a.queue with
        | cons d ds => exact absurd hqueue (hnone d ds hslot)
        | nil =>
          have := congrArg List.length (hqueue.symm.trans hq)
          simp only [List.length_nil, List.length_append, List.length_replicate] at this
          omega

/-- What is sent in a turn is nothing that the client waits for. -/
theorem Sought.read (h : Sought o id dos entries a x) {t : State} {sent : List (Peer × Bytes)}
    (hsent : t.sent = a.agent.sent ++ sent) (hunrelated : ∀ y ∈ sent, Unrelated id y.2) (target : Address) :
    ∃ y, readAll target a.progress (sentBetween o a.agent t) = .waiting y ∧ Asks o id y ∧ y.attempts = x.attempts := by
  rw [h.progress_eq, sentBetween_eq o hsent]
  refine h.asks.readAll (fun d hd => ?_) target
  obtain ⟨y, hy, rfl⟩ := List.mem_map.mp hd
  exact hunrelated y (List.mem_filter.mp hy).1

/-- An entry while the request is on its way brings it closer to its answer, or a file
    operation goes on waiting for DOS. -/
theorem Sought.entry (h : Sought o id dos entries a x) {e : Entry} (hlives : a.agent.expires e = false) (target : Address) :
    ∃ y, y.attempts = x.attempts ∧
      (Primed o id (a.turn o target (.entry e)) y ∨
        ∃ left, Sought o id dos left (a.turn o target (.entry e)) y ∧
          (left < entries ∨ (left = entries ∧ Asking.Turn.counts dos (.entry e) = false))) := by
  obtain ⟨harrived, d, hslot⟩ := h.arrived
  have hlives' : (a.arrived o).agent.expires e = false := by
    obtain ⟨slot, hagent, -⟩ := arrived_agent o a
    rw [hagent]
    exact hlives
  rw [Asking.turn]
  generalize a.arrived o = b at harrived hslot hlives' ⊢
  obtain ⟨earlier, copies, hqueue, hearlier, hslots⟩ := harrived.coming
  rcases harrived.agent.entry hlives' o.config with
    ⟨sent, hsent, hunrelated, hagent, hslot', hunsent⟩ | ⟨hunsent, hhello, hpoll⟩
  · -- something is sent: the receive buffer waits
    obtain ⟨y, hy, hasks, hsame⟩ := harrived.read hsent hunrelated target
    rcases hslots with ⟨hstatus, hnil, hentries⟩ | ⟨hcopies, hold, hentries⟩
    · refine ⟨y, hsame, Or.inr ⟨_, ⟨hy, hasks, hagent, earlier, copies, hqueue, hearlier,
        Or.inl ⟨hslot'.trans hstatus, hnil, rfl⟩⟩, Or.inl ?_⟩⟩
      dsimp only
      omega
    · refine ⟨y, hsame, Or.inr ⟨_, ⟨hy, hasks, hagent, earlier, copies, hqueue, hearlier,
        Or.inr ⟨hcopies, hslot'.symm ▸ hold, rfl⟩⟩, Or.inl ?_⟩⟩
      simp only [hslot']
      omega
  · -- nothing to send: the worker polls
    rw [hpoll]
    have hentered := harrived.agent.entered e
    rcases hslots with ⟨hstatus, -, hentries⟩ | ⟨hcopies, hold, hentries⟩
    · obtain ⟨hprepared, hsent, -⟩ := hentered.pollStatus hstatus o.config e
      obtain ⟨y, hy, hasks, hsame⟩ := harrived.read (hsent.trans (List.append_nil _).symm) nofun target
      exact ⟨y, hsame, Or.inl ⟨hy, hasks, hprepared⟩⟩
    · obtain ⟨hpeer, hd⟩ := hold d hslot
      obtain ⟨hsent, hagent, hkept⟩ := hd.poll hpeer hentered hslot o.config e
      obtain ⟨y, hy, hasks, hsame⟩ := harrived.read (hsent.trans (List.append_nil _).symm) nofun target
      rw [hslot] at hentries
      rcases hkept with ⟨hempty, hquiet⟩ | ⟨hkept, hsameUnsent, hdos, hunsafe⟩
      · have hle := AgentSession.unsent_le hagent.count (hquiet.trans hhello)
        refine ⟨y, hsame, Or.inr ⟨_, ⟨hy, hasks, hagent, earlier, copies, hqueue, hearlier, Or.inr ⟨hcopies, ?_, rfl⟩⟩,
          Or.inl ?_⟩⟩
        · intro d' hd'
          rw [hempty] at hd'
          cases hd'
        · simp only [hempty, Option.toList_none, Option.toList_some, List.length_nil, List.length_singleton] at hentries ⊢
          omega
      · refine ⟨y, hsame, Or.inr ⟨_, ⟨hy, hasks, hagent, earlier, copies, hqueue, hearlier, Or.inr ⟨hcopies, ?_, rfl⟩⟩,
          Or.inr ⟨?_, ?_⟩⟩⟩
        · intro d' hd'
          obtain rfl := Option.some.inj (hkept.symm.trans hd')
          exact ⟨hpeer, hd⟩
        · simp only [hkept, hsameUnsent]
          exact hentries.symm
        · simp [Asking.Turn.counts, hunsafe, hdos]

theorem Prepared.withSlot {s : State} (h : Prepared o id s) (slot : Option Datagram) : Prepared o id { s with slot := slot } :=
  ⟨⟨h.active_eq, h.id_eq, h.key_eq, h.peer_eq⟩, h.enabled_eq, h.pending, h.next_eq, h.count_eq, h.kind_eq, h.opcode_eq,
    h.requestId_eq, h.length_eq, h.status⟩

/-- The client reads the answer. -/
theorem Primed.entry (h : Primed o id a x) {e : Entry} (hlives : a.agent.expires e = false) (target : Address) :
    ∃ status, (a.turn o target (.entry e)).returned target = some (.ok status) := by
  obtain ⟨slot, hagent, hprogress⟩ := arrived_agent o a
  have hprepared := h.agent.withSlot slot
  rw [← hagent] at hprepared
  have hlives' : (a.arrived o).agent.expires e = false := by
    rw [hagent]
    exact hlives
  have hsent := hprepared.entry hlives' o.config
  obtain ⟨message, hmessage⟩ := hprepared.status
  generalize hreply : statusReply o id ((a.arrived o).agent.workspace.load 0 12) (Memory.load_length _ _ _) = reply at hsent
  have hmatch : x.matches reply = true := by
    rw [Exchange.matches, h.asks.expected_eq, ← hreply]
    simp [statusReply, statusRequest, onlyPacket]
  obtain ⟨packet, hreceive⟩ := receive_single target h.asks.key_eq h.asks.received_eq hmatch (by rw [← hreply]; rfl)
    (by rw [← hreply]; rfl) (by rw [← hreply]; intro hempty; cases hempty)
  have hresult : (Reply.mk reply.kind reply.payload none).result = .ok ((a.arrived o).agent.workspace.load 0 12) := by
    rw [← hreply]
    rfl
  rw [hresult] at hreceive
  refine ⟨bridgeStatus target message, ?_⟩
  have hread : readAll target (a.arrived o).progress
      (sentBetween o (a.arrived o).agent (ratsrIdleWorker o.config (a.arrived o).agent e)) =
        .done (.ok ((a.arrived o).agent.workspace.load 0 12, packet)) := by
    rw [hprogress, h.progress_eq, sentBetween_eq o hsent]
    simp [readAll, receiveAll, hreceive, Except.map]
  simp only [Asking.turn, Asking.returned, hread, getStatus, Fallible.bind_apply, Fallible.lift_apply, Except.map, hmessage]
  rfl

/-- The next attempt sends the request again. -/
theorem deadline_again (hprogress : a.progress = .waiting x) (hasks : Asks o id x) (hattempts : 1 ≤ x.attempts) (target : Address) :
    ∃ y, a.turn o target .deadline = ⟨.waiting y, a.queue ++ [statusDatagram o id], a.agent⟩ ∧ Asks o id y ∧
      y.attempts + 1 = x.attempts := by
  have htimeout : x.timeout = .waiting { x with attempts := x.attempts - 1 } := if_neg (by omega)
  refine ⟨{ x with attempts := x.attempts - 1 }, ?_, ⟨hasks.expected_eq, hasks.encoded_eq, hasks.key_eq, hasks.received_eq⟩, ?_⟩
  · simp only [Asking.turn, hprogress, htimeout, hasks.encoded_eq]
  · simp only
    omega

/-- The copies are behind the first: the answer is as far away as before. -/
theorem Sought.deadline (h : Sought o id dos entries a x) (hattempts : 1 ≤ x.attempts) (target : Address) :
    ∃ y, Sought o id dos entries (a.turn o target .deadline) y ∧ y.attempts + 1 = x.attempts := by
  obtain ⟨y, hturn, hasks, hy⟩ := deadline_again h.progress_eq h.asks hattempts target
  rw [hturn]
  refine ⟨y, ⟨rfl, hasks, h.agent, ?_⟩, hy⟩
  obtain ⟨earlier, copies, hqueue, hearlier, hslots⟩ := h.coming
  refine ⟨earlier, copies + 1, ?_, hearlier, hslots.imp_right fun ⟨hcopies, hold⟩ => ⟨by omega, hold⟩⟩
  simp only [hqueue, List.append_assoc, List.replicate_succ']

theorem Primed.deadline (h : Primed o id a x) (hattempts : 1 ≤ x.attempts) (target : Address) :
    ∃ y, Primed o id (a.turn o target .deadline) y ∧ y.attempts + 1 = x.attempts := by
  obtain ⟨y, hturn, hasks, hy⟩ := deadline_again h.progress_eq h.asks hattempts target
  rw [hturn]
  exact ⟨y, ⟨rfl, hasks, h.agent⟩, hy⟩

/-- What has returned has returned. -/
theorem run_returned {target : Address} {result : Except Exc BridgeStatus} (h : a.returned target = some result)
    (turns : List Asking.Turn) : (a.run o target turns).returned target = some result := by
  induction turns generalizing a with
  | nil => exact h
  | cons turn turns ih =>
    refine ih ?_
    cases hprogress : a.progress with
    | waiting x => simp [Asking.returned, hprogress] at h
    | done r =>
      cases turn with
      | deadline =>
        simp only [Asking.turn, hprogress]
        exact h
      | entry e =>
        obtain ⟨slot, -, hsame⟩ := arrived_agent o a
        simp only [Asking.returned, Asking.turn, hsame, hprogress, readAll] at h ⊢
        exact h

/-- The answer comes within the entries that it takes. -/
theorem asked_returns {turns : List Asking.Turn}
    (h : (Sought o id dos entries a x ∧ entries ≤ turns.countP (Asking.Turn.counts dos)) ∨
      (Primed o id a x ∧ 1 ≤ turns.countP (Asking.Turn.counts dos)))
    {target : Address} (hlives : a.staysActive o target turns = true) (hdeadlines : deadlines turns ≤ x.attempts) :
    ∃ status, (a.run o target turns).returned target = some (.ok status) := by
  induction turns generalizing a x entries with
  | nil =>
    rcases h with ⟨hsought, hentries⟩ | ⟨-, hentries⟩
    · have := hsought.two_le
      simp only [List.countP_nil] at hentries
      omega
    · cases hentries
  | cons turn turns ih =>
    have hprogress : a.progress = .waiting x := h.elim (fun h => h.1.progress_eq) fun h => h.1.progress_eq
    cases turn with
    | entry e =>
      simp only [Asking.staysActive, Asking.waits, hprogress, Bool.true_and, Bool.and_eq_true, Bool.not_eq_true'] at hlives
      obtain ⟨hno, hlives⟩ := hlives
      have hdeadlines' : deadlines turns ≤ x.attempts := by simpa [deadlines] using hdeadlines
      rw [List.countP_cons] at h
      rcases h with ⟨hsought, hentries⟩ | ⟨hprimed, -⟩
      · have htwo := hsought.two_le
        obtain ⟨y, hattempts, hprimed | ⟨left, hnext, hless⟩⟩ := hsought.entry hno target
        · refine @ih 0 _ _ (Or.inr ⟨hprimed, ?_⟩) hlives (hattempts ▸ hdeadlines')
          split at hentries <;> omega
        · refine ih (Or.inl ⟨hnext, ?_⟩) hlives (hattempts ▸ hdeadlines')
          rcases hless with hless | ⟨rfl, hcounts⟩
          · split at hentries <;> omega
          · simpa [hcounts] using hentries
      · obtain ⟨status, hstatus⟩ := hprimed.entry hno target
        exact ⟨status, run_returned hstatus turns⟩
    | deadline =>
      simp only [Asking.staysActive] at hlives
      have hcount : deadlines (Asking.Turn.deadline :: turns) = deadlines turns + 1 := by simp [deadlines]
      have hsame : (Asking.Turn.deadline :: turns).countP (Asking.Turn.counts dos) = turns.countP (Asking.Turn.counts dos) := by
        simp [Asking.Turn.counts]
      rw [hsame] at h
      rcases h with ⟨hsought, hentries⟩ | ⟨hprimed, hentries⟩
      · obtain ⟨y, hnext, hattempts⟩ := hsought.deadline (by omega) target
        exact ih (Or.inl ⟨hnext, hentries⟩) hlives (by omega)
      · obtain ⟨y, hnext, hattempts⟩ := hprimed.deadline (by omega) target
        exact @ih 0 _ _ (Or.inr ⟨hnext, hentries⟩) hlives (by omega)

end

/-! ## The session until then -/

theorem DosSentAs.datagramId_eq {o : DosOpening} {k : Nat} {d : Bytes} (h : DosSentAs o k d) :
    (datagramId d).toNat = Serial.stamp 0x10000 (o.hello.requestId.toNat - 1) k := by
  obtain ⟨p, rfl, -, -, -, hid⟩ := h
  rw [← hid, (decode_fields (dosTransport_decode p o.key)).1]

/-- The session after part of a run. -/
structure InSession (o : DosOpening) (P Q : UInt16 → Prop) (n : DosNet) : Prop where
  requestId_eq : n.requestId = Serial.stamp 0x10000 (o.hello.requestId.toNat - 1) n.issued
  sent_as : ∀ d ∈ n.sent, ∃ k, 1 ≤ k ∧ k ≤ n.issued ∧ DosSentAs o k d
  slot_sent : ∀ d, n.state.slot = some d → d.peer = o.peer ∧ ∃ k, 1 ≤ k ∧ k ≤ n.issued ∧ DosSentAs o k d.payload
  tracks : Tracks o P Q n.state
  answered : ∃ new, n.state.sent = o.opened.sent ++ new ∧ ∀ x ∈ new, Answers Q x.2

section

variable {o : DosOpening} {P Q : UInt16 → Prop} {n : DosNet}

theorem helloReply_opcode (clientNonce serverNonce : UInt32) (id : UInt16) (key : Bytes) :
    ∃ d, dmPacketEncode (helloReply clientNonce serverNonce id) key 32 = .ok d ∧ datagramOpcode d = dmOpHello := by
  obtain ⟨d, hd⟩ := @dmPacketEncode_isOk (helloReply clientNonce serverNonce id) key 32 rfl
    ⟨show (1 : UInt8) ≤ dmKindResponse by decide, show dmKindResponse ≤ (3 : UInt8) by decide⟩
    ⟨show (1 : UInt8) ≤ dmOpHello by decide, show dmOpHello ≤ (18 : UInt8) by decide⟩
    ⟨show (1 : UInt8) ≤ 1 by decide, show (1 : UInt8) ≤ 32 by decide⟩ (show (0 : UInt8) < 1 by decide)
    (show 12 ≤ 1024 by decide) (show 32 ≤ 32 by decide)
  exact ⟨d, hd, (dmPacketEncode_fields hd).2.1⟩

theorem DosOpening.inSession_start (hb : o.build = .ratsr) (henabled : o.state.enabled = true)
    (hreassembly : Q o.state.reassembly.requestId) (hresponse : Q o.state.session.responseRequestId) :
    InSession o P Q o.start := by
  obtain ⟨d, hd, hopcode⟩ := helloReply_opcode (dmGetU32 o.hello.payload 0) o.state.machine.makeNonce o.hello.requestId
    o.config.baseKey
  obtain ⟨hslot, -, hid, hkey, hpeer, hlast⟩ := o.opened_session
  have hrest : o.opened.enabled = o.state.enabled ∧ o.opened.session.responseRequestId = o.state.session.responseRequestId ∧
      o.opened.session.responseCount = 0 ∧ o.opened.session.helloDatagram = d := by
    have hpass : ¬ (o.hello.payloadLength ≠ 4 ∨ o.hello.fragmentCount ≠ 1) := by
      simp [o.payloadLength_eq, o.fragmentCount_eq]
    unfold DosOpening.opened processHello
    rw [if_neg hpass, hb]
    dsimp only
    rw [hd]
    exact ⟨rfl, rfl, rfl, rfl⟩
  have hinv := o.inv_start
  refine ⟨hinv.requestId_eq, hinv.sent_as, hinv.serving.slot_sent, ⟨⟨o.opened_active, hid, hkey, hpeer⟩, ?_, ?_, ?_, ?_, ?_, ?_⟩, [],
    (List.append_nil _).symm, nofun⟩
  · exact hrest.1.trans henabled
  · intro last h
    cases hlast.symm.trans h
  · rw [show o.start.state = o.opened from rfl, o.opened_reassembly]
    exact hreassembly
  · rw [show o.start.state = o.opened from rfl, hrest.2.1]
    exact hresponse
  · rw [show o.start.state = o.opened from rfl, hrest.2.2.1]
    exact Nat.zero_le 16
  · intro _
    rw [show o.start.state = o.opened from rfl, hrest.2.2.2]
    exact hopcode

theorem InSession.issue (h : InSession o P Q n) {opcode : Opcode} {payload : Bytes} (notHello : opcode ≠ .hello) :
    InSession o P Q (n.step o (.issue opcode payload notHello)) := by
  have hid : nextRequestId n.requestId = Serial.stamp 0x10000 (o.hello.requestId.toNat - 1) (n.issued + 1) := by
    rw [nextRequestId_eq, h.requestId_eq, Serial.next_stamp (by decide)]
  refine ⟨hid, fun d hd => ?_, fun d hd => ?_, h.tracks, h.answered⟩
  · rcases List.mem_append.mp hd with hd | hd
    · obtain ⟨k, h1, h2, h3⟩ := h.sent_as d hd
      exact ⟨k, h1, Nat.le_succ_of_le h2, h3⟩
    · rw [hid] at hd
      exact ⟨n.issued + 1, Nat.le_add_left _ _, Nat.le_refl _, issueDatagrams_dosSentAs notHello hd⟩
  · obtain ⟨hpeer, k, h1, h2, h3⟩ := h.slot_sent d hd
    exact ⟨hpeer, k, h1, Nat.le_succ_of_le h2, h3⟩

theorem InSession.arrive (h : InSession o P Q n) (index : Nat) : InSession o P Q (n.step o (.arrive index)) := by
  simp only [DosNet.step]
  split
  · exact h
  · rename_i d hd
    unfold Dos.arrive
    split
    · refine ⟨h.requestId_eq, h.sent_as, fun d' hd' => ?_, h.tracks.withSlot _, h.answered⟩
      obtain rfl := Option.some.inj hd'
      exact ⟨rfl, h.sent_as d (List.mem_of_getElem? hd)⟩
    · exact h

/-- An entry of the worker, with `P` and `Q` true of the issued IDs. -/
theorem InSession.work (h : InSession o P Q n) (hb : o.build = .ratsr)
    (hids : ∀ k id, 1 ≤ k → k ≤ n.issued → id.toNat = Serial.stamp 0x10000 (o.hello.requestId.toNat - 1) k → P id ∧ Q id)
    {e : Entry}
    (hlives : n.state.expires e = false) : InSession o P Q (n.step o (.work e)) := by
  have hrun : (n.step o (.work e)).state = ratsrIdleWorker o.config n.state e := by
    simp only [DosNet.step, runAgent, hb]
  obtain ⟨new, hnew, hanswers⟩ := h.answered
  rcases h.tracks.entry hlives o.config with ⟨sent, hsent, hsentAnswers, htracks, hslot, -⟩ | ⟨-, -, hpoll⟩
  · refine ⟨h.requestId_eq, h.sent_as, ?_, hrun ▸ htracks, new ++ sent, ?_, ?_⟩
    · rw [hrun, hslot]
      exact h.slot_sent
    · rw [hrun, hsent, hnew, List.append_assoc]
    · intro x hx
      exact (List.mem_append.mp hx).elim (hanswers x) (hsentAnswers x)
  · rw [hpoll] at hrun
    have hentered := h.tracks.entered e
    cases hslot : n.state.slot with
    | none =>
      have hidle : pollDatagram o.config (enterWorker n.state e) e = enterWorker n.state e := by
        unfold pollDatagram
        rw [show (enterWorker n.state e).slot = none from hslot]
      rw [hidle] at hrun
      refine ⟨h.requestId_eq, h.sent_as, fun d hd => ?_, hrun ▸ hentered, new, ?_, hanswers⟩
      · rw [hrun] at hd
        exact h.slot_sent d hd
      · rw [hrun]
        exact hnew
    | some d =>
      obtain ⟨hpeer, k, hk1, hk2, hsentAs⟩ := h.slot_sent d hslot
      obtain ⟨p, hheard, hid⟩ := hsentAs.heard hpeer
      obtain ⟨hP, hQ⟩ := hids k p.requestId hk1 hk2 (by rw [hid]; exact hsentAs.datagramId_eq)
      obtain ⟨hsent, htracks, hkept⟩ := hentered.poll hslot hheard hP hQ o.config e
      refine ⟨h.requestId_eq, h.sent_as, fun d' hd' => ?_, hrun ▸ htracks, new, ?_, hanswers⟩
      · rw [hrun] at hd'
        rcases hkept with ⟨hempty, -⟩ | ⟨hkept, -⟩
        · rw [hempty] at hd'
          cases hd'
        · obtain rfl := Option.some.inj (hkept.symm.trans hd')
          exact ⟨hpeer, k, hk1, hk2, hsentAs⟩
      · rw [hrun, hsent]
        exact hnew

theorem staysActive_cons {e : DosEvent} {events : List DosEvent} (h : staysActive o n (e :: events) = true) :
    (∀ entry, e = .work entry → n.state.expires entry = false) ∧ staysActive o (n.step o e) events = true := by
  cases e with
  | issue opcode payload notHello => exact ⟨by simp, h⟩
  | arrive index => exact ⟨by simp, h⟩
  | work entry =>
    simp only [staysActive, Bool.and_eq_true, Bool.not_eq_true'] at h
    exact ⟨fun entry' he => by cases he; exact h.1, h.2⟩

/-- A run in which no entry ends the session. -/
theorem InSession.run {events : List DosEvent} (h : InSession o P Q n) (hb : o.build = .ratsr)
    (hids : ∀ k id, 1 ≤ k → k ≤ (n.run o events).issued →
      id.toNat = Serial.stamp 0x10000 (o.hello.requestId.toNat - 1) k → P id ∧ Q id)
    (hlives : staysActive o n events = true) : InSession o P Q (n.run o events) := by
  induction events generalizing n with
  | nil => exact h
  | cons e events ih =>
    obtain ⟨hentry, hrest⟩ := staysActive_cons hlives
    refine ih ?_ hids hrest
    have hissued := Nat.le_trans (n.step_issued o e) (DosNet.run_issued o (n.step o e) events)
    cases e with
    | issue opcode payload notHello => exact h.issue notHello
    | arrive index => exact h.arrive index
    | work entry => exact h.work hb (fun k id h1 h2 => hids k id h1 (Nat.le_trans h2 hissued)) (hentry entry rfl)

/-- The ID of one of the first `limit` requests. -/
def DosOpening.Issued (o : DosOpening) (limit : Nat) (id : UInt16) : Prop :=
  ∃ k, 1 ≤ k ∧ k ≤ limit ∧ id.toNat = Serial.stamp 0x10000 (o.hello.requestId.toNat - 1) k

/-- Over fewer than 0x8000 requests nothing old gets in the way of the next one. -/
theorem current_of_few {events : List DosEvent} (hb : o.build = .ratsr) (henabled : o.state.enabled = true)
    (hreassembly : o.state.reassembly.requestId = 0) (hresponse : o.state.session.responseRequestId = 0)
    (hlives : staysActive o o.start events = true) (hfew : (o.start.run o events).issued + 1 < 0x8000) (queue late : List Bytes)
    (hqueue : ∀ d ∈ queue, d ∈ (o.start.run o events).sent)
    (hlate : ∀ d ∈ late, ∃ peer, (peer, d) ∈ (o.start.run o events).state.sent.drop o.opened.sent.length) :
    Current (.ofNat (nextRequestId (o.start.run o events).requestId)) (o.start.run o events).state queue late := by
  have hstart : InSession o (o.Issued (o.start.run o events).issued) (fun x => x = 0 ∨ o.Issued (o.start.run o events).issued x)
      o.start := o.inSession_start hb henabled (Or.inl hreassembly) (Or.inl hresponse)
  have hsession := hstart.run hb (fun k id h1 h2 hid => ⟨⟨k, h1, h2, hid⟩, Or.inr ⟨k, h1, h2, hid⟩⟩) hlives
  generalize hn : o.start.run o events = n at *
  have hid : nextRequestId n.requestId = Serial.stamp 0x10000 (o.hello.requestId.toNat - 1) (n.issued + 1) := by
    rw [nextRequestId_eq, hsession.requestId_eq, Serial.next_stamp (by decide)]
  have htoNat : (UInt16.ofNat (nextRequestId n.requestId)).toNat = nextRequestId n.requestId := by
    rw [UInt16.toNat_ofNat', hid]
    exact Nat.mod_eq_of_lt (Serial.stamp_lt (by decide) _ _)
  have hnewer : ∀ x, o.Issued n.issued x → requestIsNewer (.ofNat (nextRequestId n.requestId)) x = true := by
    rintro x ⟨k, h1, h2, hx⟩
    rw [requestIsNewer_toNat, htoNat, hx, hid, Serial.newer_stamp (by decide) _ (by omega) (by omega)]
    exact decide_eq_true (by omega)
  have hne : ∀ x, x = 0 ∨ o.Issued n.issued x → x ≠ .ofNat (nextRequestId n.requestId) := by
    rintro x (rfl | hx)
    · intro hzero
      have hz := congrArg UInt16.toNat hzero
      rw [htoNat, hid, Serial.stamp] at hz
      simp only [UInt16.toNat_zero] at hz
      omega
    · exact requestIsNewer_ne (hnewer x hx)
  have hsent : ∀ k d, 1 ≤ k → k ≤ n.issued → DosSentAs o k d → o.Issued n.issued (datagramId d) :=
    fun k d h1 h2 h3 => ⟨k, h1, h2, h3.datagramId_eq⟩
  refine ⟨fun last h => hnewer last (hsession.tracks.last last h), hne _ hsession.tracks.reassembly,
    hne _ hsession.tracks.response, fun d hd => ?_, fun d hd => ?_, fun d hd => ?_⟩
  · obtain ⟨-, k, h1, h2, h3⟩ := hsession.slot_sent d hd
    exact hnewer _ (hsent k _ h1 h2 h3)
  · obtain ⟨k, h1, h2, h3⟩ := hsession.sent_as d (hqueue d hd)
    exact hnewer _ (hsent k _ h1 h2 h3)
  · obtain ⟨peer, hmem⟩ := hlate d hd
    obtain ⟨new, hnew, hanswers⟩ := hsession.answered
    rw [hnew, List.drop_left] at hmem
    exact (hanswers _ hmem).imp_left (hne _)

/-- A file operation may be waiting in front of the request. -/
def filesWaiting (s : State) (queue : List Bytes) : Bool :=
  (s.slot.toList.map Datagram.payload ++ queue).any fun d => 8 ≤ datagramOpcode d ∧ datagramOpcode d ≤ 14

/-- The client sends the request behind what is on its way. -/
theorem askStatus_sought (hsession : InSession o P Q n) {client : UdpBackend} (hclient : Connected o client n)
    {queue late : List Bytes} (hqueue : ∀ d ∈ queue, d ∈ n.sent)
    (hcurrent : Current (.ofNat (nextRequestId client.requestId)) n.state queue late) :
    ∃ a x, askStatus client n.state queue late = some a ∧
      Sought o (.ofNat (nextRequestId client.requestId)) (filesWaiting n.state queue)
        (17 * (queue.length + n.state.slot.toList.length) + n.state.session.unsent + 2) a x ∧
      x.attempts = client.retries := by
  have hid := nextRequestId_le client.requestId
  have htoNat : (UInt16.ofNat (nextRequestId client.requestId)).toNat = nextRequestId client.requestId := by
    rw [UInt16.toNat_ofNat']
    omega
  generalize hu : UInt16.ofNat (nextRequestId client.requestId) = id at *
  have hpackets : requestPackets .getStatus client.sessionId (nextRequestId client.requestId) [] = .ok [statusRequest o id] := by
    rw [hclient.sessionId_eq, ← htoNat]
    exact fragmentMessage_single _ _ _
  let x : Exchange := ⟨statusRequest o id, [statusDatagram o id], o.key, client.retries, client.retries, [], 0, ""⟩
  have hasks : Asks o id x := ⟨rfl, rfl, rfl, rfl⟩
  obtain ⟨y, hy, hasks', hattempts⟩ := hasks.readAll hcurrent.late client.target
  have hask : askStatus client n.state queue late = some ⟨.waiting y, queue ++ [statusDatagram o id], n.state⟩ := by
    have hstart : Exchange.start [statusRequest o id] o.key client.retries = some x := rfl
    rw [askStatus, hclient.closed_eq, hclient.sessionKey_eq]
    simp only [hpackets, hstart, hy]
    rfl
  have hearlier : ∀ d k, DosSentAs o k d → requestIsNewer id (datagramId d) = true →
      d ∈ n.state.slot.toList.map Datagram.payload ++ queue → Earlier o id (filesWaiting n.state queue) d := by
    intro d k hsent hnewer hmem
    refine ⟨⟨k, hsent⟩, hnewer, fun hno hdos => ?_⟩
    have hany : filesWaiting n.state queue = true := by
      rw [filesWaiting, List.any_eq_true]
      exact ⟨d, hmem, decide_eq_true hdos⟩
    rw [hno] at hany
    cases hany
  refine ⟨_, y, hask, ⟨rfl, hasks', ⟨hsession.tracks.toServes, hsession.tracks.enabled_eq, hcurrent.last, hcurrent.reassembly,
    hcurrent.response, hsession.tracks.count, hsession.tracks.hello⟩, queue, 1, rfl, fun d hd => ?_,
    Or.inr ⟨Nat.le_refl 1, fun d hd => ?_, rfl⟩⟩, hattempts⟩
  · obtain ⟨k, -, -, hsent⟩ := hsession.sent_as d (hqueue d hd)
    exact hearlier d k hsent (hcurrent.queue d hd) (List.mem_append_right _ hd)
  · obtain ⟨hpeer, k, -, -, hsent⟩ := hsession.slot_sent d hd
    refine ⟨hpeer, hearlier d.payload k hsent (hcurrent.slot d hd) (List.mem_append_left _ ?_)⟩
    rw [show n.state.slot = some d from hd]
    exact List.mem_singleton.mpr rfl

/-- Where no entry of the worker ends the session, `get_status` returns: nothing that is left
    from earlier requests goes under the new ID, the deadline passes no more often than there
    are retries, and the worker is entered often enough, from DOS idle if a file operation is
    waiting. -/
theorem get_status_returns (hb : o.build = .ratsr) (henabled : o.state.enabled = true) (events : List DosEvent)
    (hactive : staysActive o o.start events = true) {client : UdpBackend} (hclient : Connected o client (o.start.run o events))
    {queue late : List Bytes} (hqueue : ∀ d ∈ queue, d ∈ (o.start.run o events).sent)
    (hcurrent : Current (.ofNat (nextRequestId client.requestId)) (o.start.run o events).state queue late) :
    ∃ a, askStatus client (o.start.run o events).state queue late = some a ∧
      ∀ turns, a.staysActive o client.target turns = true → deadlines turns ≤ client.retries →
        17 * (queue.length + (o.start.run o events).state.slot.toList.length) + (o.start.run o events).state.session.unsent + 2 ≤
          turns.countP (Asking.Turn.counts (filesWaiting (o.start.run o events).state queue)) →
        ∃ status, (a.run o client.target turns).returned client.target = some (.ok status) := by
  have hstart : InSession o (fun _ => True) (fun _ => True) o.start := o.inSession_start hb henabled trivial trivial
  have hsession := hstart.run hb (fun _ _ _ _ _ => ⟨trivial, trivial⟩) hactive
  obtain ⟨a, x, hask, hsought, hattempts⟩ := askStatus_sought hsession hclient hqueue hcurrent
  refine ⟨a, hask, fun turns hlives hdeadlines hcount => ?_⟩
  exact asked_returns (Or.inl ⟨hsought, hcount⟩) hlives (by omega)

end

/-- The client of the session after its request `requestId`. -/
def statusClient (o : DosOpening) (requestId : Nat) : UdpBackend :=
  ⟨("10.0.0.1", 21300), zeroKey, 3, false, false, o.sessionId.toNat, some o.key, requestId, false⟩

def timerTurn : Asking.Turn := .entry ⟨false, false, blankMachine⟩

/-- Four attempts of 0.35 s at 18.2 ticks a second. -/
def patientTurns : List Asking.Turn := (List.replicate 4 (List.replicate 6 timerTurn ++ [.deadline])).flatten

/-- The request is retransmitted once. -/
def promptTurns : List Asking.Turn := [timerTurn, .deadline, timerTurn, timerTurn]

theorem get_status_returns_ping :
    ∃ a, askStatus (statusClient (lateOpening .ratsr) 2)
        ((lateOpening .ratsr).start.run (lateOpening .ratsr) (pingEvent :: deliver 0)).state [] [] = some a ∧
      ∃ status, (a.run (lateOpening .ratsr) ("10.0.0.1", 21300) promptTurns).returned ("10.0.0.1", 21300) = some (.ok status) := by
  have hactive : staysActive (lateOpening .ratsr) (lateOpening .ratsr).start (pingEvent :: deliver 0) = true := by decide +kernel
  have hcurrent := current_of_few rfl rfl rfl rfl hactive (by decide +kernel) [] [] nofun nofun
  have hid : ((lateOpening .ratsr).start.run (lateOpening .ratsr) (pingEvent :: deliver 0)).requestId = 2 := by decide +kernel
  rw [hid] at hcurrent
  have hclient : Connected (lateOpening .ratsr) (statusClient (lateOpening .ratsr) 2)
      ((lateOpening .ratsr).start.run (lateOpening .ratsr) (pingEvent :: deliver 0)) := ⟨rfl, rfl, rfl, hid.symm⟩
  obtain ⟨a, hask, hreturns⟩ := get_status_returns (o := lateOpening .ratsr) rfl rfl (pingEvent :: deliver 0) hactive hclient
    (fun d hd => absurd hd List.not_mem_nil) hcurrent
  refine ⟨a, hask, hreturns promptTurns ?_ (by decide) (by decide +kernel)⟩
  have hrun : (askStatus (statusClient (lateOpening .ratsr) 2)
      ((lateOpening .ratsr).start.run (lateOpening .ratsr) (pingEvent :: deliver 0)).state [] []).all
        (fun a => a.staysActive (lateOpening .ratsr) ("10.0.0.1", 21300) promptTurns) = true := by decide +kernel
  rw [hask] at hrun
  exact hrun

def timedOut : Option (Except Exc BridgeStatus) → Bool
  | some (.error (.timeoutError _)) => true
  | _ => false

/-- The worker ends the session after 546 idle ticks, and the client goes on asking under it. -/
theorem expired_session_times_out :
    Connected (lateOpening .ratsr) (statusClient (lateOpening .ratsr) 1)
        ((lateOpening .ratsr).start.run (lateOpening .ratsr) (List.replicate 546 timerWork)) ∧
      ((lateOpening .ratsr).start.run (lateOpening .ratsr) (List.replicate 546 timerWork)).state.enabled = true ∧
      ∃ a, askStatus (statusClient (lateOpening .ratsr) 1)
          ((lateOpening .ratsr).start.run (lateOpening .ratsr) (List.replicate 546 timerWork)).state [] [] = some a ∧
        timedOut ((a.run (lateOpening .ratsr) ("10.0.0.1", 21300) patientTurns).returned ("10.0.0.1", 21300)) = true := by
  refine ⟨⟨rfl, rfl, rfl, by decide +kernel⟩, by decide +kernel, ?_⟩
  have hrun : (askStatus (statusClient (lateOpening .ratsr) 1)
      ((lateOpening .ratsr).start.run (lateOpening .ratsr) (List.replicate 546 timerWork)).state [] []).any
        (fun a => timedOut ((a.run (lateOpening .ratsr) ("10.0.0.1", 21300) patientTurns).returned ("10.0.0.1", 21300))) = true := by
    decide +kernel
  exact Option.any_eq_true .. |>.mp hrun

end DosMcp.Dos
