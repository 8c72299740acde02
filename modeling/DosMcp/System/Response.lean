/-
  DosMcp.System.Response — the responses of the DOS agents, collected by the bridge.

  `send_response` cuts a payload into blocks, 1024 bytes at once in RAGENT and 256 bytes a
  worker entry in RA-TSR; the bridge keeps fragments by index and does not know the width.
  `Intact` says what the bridge gets out of the datagrams, in any order and with any copies.

  - `Blocks.intact`: the encodings of all blocks of a payload are intact.
  - `Emitting.resident`: RA-TSR sends one of them an entry, whatever arrives meanwhile, and
    the session does not expire in between.
  - `responses_reach_bridge`: both agents send such datagrams.
-/

import DosMcp.Client.UdpProofs
import DosMcp.Dos.ProtoProofs
import DosMcp.Dos.WorkerProofs
import DosMcp.System.DosAtMostOnce

namespace DosMcp.Dos

open Lib

/-! ## What the bridge collects -/

/-- The packet belongs to the response: same kind, opcode, session and request. -/
structure Bears (kind opcode : UInt8) (sessionId requestId : UInt16) (p : Packet) : Prop where
  kind_eq : p.kind.value = kind.toNat
  opcode_eq : p.opcode.value = opcode.toNat
  sessionId_eq : p.sessionId = sessionId.toNat
  requestId_eq : p.requestId = requestId.toNat

/-- The exchange has just sent the request that the response answers. -/
structure Awaits (key : Key) (opcode : UInt8) (sessionId requestId : UInt16) (x : Exchange) : Prop where
  key_eq : x.key = key
  opcode_eq : x.expected.opcode.value = opcode.toNat
  sessionId_eq : x.expected.sessionId = sessionId.toNat
  requestId_eq : x.expected.requestId = requestId.toNat
  received_eq : x.received = []

/-- The datagrams bring a response to the bridge: each decodes, and whatever their order and
    however often each arrives, they make up the payload. A response ends the exchange with
    it; an error, which `send_error` keeps to 122 bytes, is raised. -/
structure Intact (key : Key) (kind opcode : UInt8) (sessionId requestId : UInt16) (payload : Bytes)
    (datagrams : List Bytes) : Prop where
  decodes : ∀ d ∈ datagrams, ∃ p, Packet.decode d key = .ok p ∧ Bears kind opcode sessionId requestId p
  reassembles : ∀ (arrival : List Bytes) (packets : List Packet), (∀ d, d ∈ arrival ↔ d ∈ datagrams) →
    arrival.mapM (Packet.decode · key) = .ok packets → reassemblePackets (byIndex packets).values = .ok payload
  collected : kind = dmKindResponse → ∀ x target arrival, Awaits key opcode sessionId requestId x →
    (∀ d, d ∈ arrival ↔ d ∈ datagrams) →
    ∃ p, x.collect target arrival = .done (.ok (payload, p)) ∧ Bears kind opcode sessionId requestId p
  raised : kind = dmKindError → payload.length ≤ 122 → ∀ x target arrival, Awaits key opcode sessionId requestId x →
    (∀ d, d ∈ arrival ↔ d ∈ datagrams) → x.collect target arrival = .done (.error (errorRaised payload))

theorem encode_length_le (p : Packet) (key : Key) : (p.encode key).length ≤ maxDatagram := by
  have hp := p.payload_le
  rw [Packet.encode_length]
  unfold headerSize maxDatagram maxFragmentPayload at *
  omega

/-- The datagrams are the encoded blocks of the payload, in order. -/
structure Blocks (width count : Nat) (key : Key) (kind : MessageKind) (opcode : Opcode) (sessionId requestId : UInt16)
    (payload : Bytes) (datagrams : List Bytes) : Prop where
  length_eq : datagrams.length = count
  block : ∀ i < count, ∃ p, datagrams[i]? = some (p.encode key) ∧ p.fragmentIndex = i ∧
    IsBlock width count kind opcode sessionId.toNat requestId.toNat payload p

section Blocks

variable {width count : Nat} {key : Key} {kind : MessageKind} {opcode : Opcode} {sessionId requestId : UInt16}
  {payload : Bytes} {datagrams : List Bytes}

theorem exists_blocks (key : Key) (kind : MessageKind) (opcode : Opcode) (sessionId requestId : UInt16) (payload : Bytes)
    (hcount : 1 ≤ count ∧ count ≤ maxFragments) (hwidth : width ≤ maxFragmentPayload) :
    ∃ datagrams, Blocks width count key kind opcode sessionId requestId payload datagrams := by
  have hle : ∀ i, (slice payload (i * width) width).length ≤ maxFragmentPayload := fun i => by
    rw [slice_length]
    exact (Nat.min_le_left _ _).trans hwidth
  have hexists : ∀ i : Fin count, ∃ p : Packet, p.fragmentIndex = i ∧
      IsBlock width count kind opcode sessionId.toNat requestId.toNat payload p := fun i =>
    ⟨⟨kind, opcode, sessionId.toNat, requestId.toNat, i, count, slice payload (i * width) width, 0, rfl,
      Nat.le_of_lt_succ sessionId.toNat_lt, Nat.le_of_lt_succ requestId.toNat_lt, hcount, i.2, hle i⟩,
      rfl, ⟨rfl, rfl, rfl, rfl, rfl, rfl⟩⟩
  choose f hindex hblock using hexists
  refine ⟨List.ofFn fun i => (f i).encode key, List.length_ofFn, fun i hi => ⟨f ⟨i, hi⟩, ?_, hindex _, hblock _⟩⟩
  rw [List.getElem?_ofFn, dif_pos hi]

variable (h : Blocks width count key kind opcode sessionId requestId payload datagrams)

include h

theorem Blocks.of_mem {d : Bytes} (hd : d ∈ datagrams) :
    ∃ p, d = p.encode key ∧ IsBlock width count kind opcode sessionId.toNat requestId.toNat payload p := by
  obtain ⟨i, hi, rfl⟩ := List.getElem_of_mem hd
  obtain ⟨p, hp, -, hblock⟩ := h.block i (h.length_eq ▸ hi)
  rw [List.getElem?_eq_getElem hi] at hp
  exact ⟨p, Option.some.inj hp, hblock⟩

/-- Every index is among the datagrams that arrive. -/
theorem Blocks.arrives {arrival : List Bytes} (harrival : ∀ d, d ∈ arrival ↔ d ∈ datagrams) {i : Nat} (hi : i < count) :
    ∃ d ∈ arrival, ∃ p, Packet.decode d key = .ok p ∧ p.fragmentIndex = i := by
  obtain ⟨p, hp, hindex, -⟩ := h.block i hi
  exact ⟨_, (harrival _).mpr (List.mem_of_getElem? hp), p, Packet.decode_encode p key, hindex⟩

theorem Blocks.reassembles (hpos : 1 ≤ count) (hcover : payload.length ≤ count * width) {arrival : List Bytes}
    {packets : List Packet} (harrival : ∀ d, d ∈ arrival ↔ d ∈ datagrams)
    (hdecoded : arrival.mapM (Packet.decode · key) = .ok packets) :
    reassemblePackets (byIndex packets).values = .ok payload := by
  obtain ⟨hfrom, hinto⟩ := mem_of_mapM hdecoded
  have hblocks : ∀ p ∈ packets, IsBlock width count kind opcode sessionId.toNat requestId.toNat payload p := by
    intro p hp
    obtain ⟨d, hd, hdp⟩ := hfrom p hp
    obtain ⟨q, rfl, hq⟩ := h.of_mem ((harrival d).mp hd)
    rw [Packet.decode_encode] at hdp
    cases hdp
    exact hq
  obtain ⟨hgathered, hkeys⟩ := gathered_byIndex hblocks
  refine hgathered.reassembles (hgathered.length_of_keys fun i hi => ?_) hpos hcover
  obtain ⟨d, hd, p, hp, rfl⟩ := h.arrives harrival hi
  obtain ⟨q, hq, hdq⟩ := hinto d hd
  rw [hp] at hdq
  cases hdq
  exact hkeys p hq

theorem Blocks.collected (hkind : kind = .response) (hpos : 1 ≤ count) (hcover : payload.length ≤ count * width)
    {x : Exchange} (hkey : x.key = key) (hopcode : x.expected.opcode = opcode)
    (hsession : x.expected.sessionId = sessionId.toNat) (hrequest : x.expected.requestId = requestId.toNat)
    (hreceived : x.received = []) (target : Address) {arrival : List Bytes}
    (harrival : ∀ d, d ∈ arrival ↔ d ∈ datagrams) :
    ∃ p, x.collect target arrival = .done (.ok (payload, p)) ∧
      IsBlock width count kind opcode sessionId.toNat requestId.toNat payload p := by
  subst hkind
  subst hkey
  refine Exchange.collect_response hpos hcover arrival (by rw [hreceived]; exact gathered_nil) ?_ hrequest hopcode hsession
    (fun d hd => ?_) (fun i hi => Or.inr (h.arrives harrival hi))
  · rw [hreceived, List.length_nil]
    omega
  · obtain ⟨p, rfl, hp⟩ := h.of_mem ((harrival d).mp hd)
    exact ⟨encode_length_le p x.key, p, Packet.decode_encode p x.key, hp⟩

theorem Blocks.raised (hkind : kind = .error) (hcount : count = 1) (hcover : payload.length ≤ width)
    {x : Exchange} (hkey : x.key = key) (hopcode : x.expected.opcode = opcode)
    (hsession : x.expected.sessionId = sessionId.toNat) (hrequest : x.expected.requestId = requestId.toNat)
    (target : Address) {arrival : List Bytes} (harrival : ∀ d, d ∈ arrival ↔ d ∈ datagrams) :
    x.collect target arrival = .done (.error (errorRaised payload)) := by
  subst hkey
  cases arrival with
  | nil =>
    obtain ⟨d, hd, -⟩ := h.arrives harrival (hcount ▸ Nat.one_pos : 0 < count)
    cases hd
  | cons d arrival =>
    obtain ⟨p, rfl, hp⟩ := h.of_mem ((harrival d).mp List.mem_cons_self)
    have hmatches : x.matches p = true := by
      simp only [Exchange.matches, hp.requestId_eq, hp.opcode_eq, hp.sessionId_eq, hrequest, hopcode, hsession, true_and,
        or_true, decide_true]
    have hpayload : p.payload = payload := by
      have hindex : p.fragmentIndex = 0 := by
        have := p.fragmentIndex_lt
        rw [hp.count_eq] at this
        omega
      rw [hp.payload_eq, hindex, Nat.zero_mul, slice_zero_eq_take, List.take_of_length_le hcover]
    rw [Exchange.collect_error (encode_length_le p x.key) (Packet.decode_encode p x.key) hmatches
      (hp.kind_eq.trans hkind), hpayload]

end Blocks

theorem Bears.of_block {width count : Nat} {kind : MessageKind} {opcode : Opcode} {k o : UInt8} {sessionId requestId : UInt16}
    {payload : Bytes} {p : Packet} (hp : IsBlock width count kind opcode sessionId.toNat requestId.toNat payload p)
    (hk : kind.value = k.toNat) (ho : opcode.value = o.toNat) : Bears k o sessionId requestId p :=
  ⟨by rw [hp.kind_eq, hk], by rw [hp.opcode_eq, ho], hp.sessionId_eq, hp.requestId_eq⟩

/-- Blocks that cover the payload bring it to the bridge. -/
theorem Blocks.intact {width count : Nat} {key : Key} {kind : MessageKind} {opcode : Opcode} {k o : UInt8}
    {sessionId requestId : UInt16} {payload : Bytes} {datagrams : List Bytes}
    (h : Blocks width count key kind opcode sessionId requestId payload datagrams) (hk : kind.value = k.toNat)
    (ho : opcode.value = o.toNat) (hpos : 1 ≤ count) (hcover : payload.length ≤ count * width)
    (hsingle : payload.length ≤ 122 → count = 1) : Intact key k o sessionId requestId payload datagrams where
  decodes d hd := by
    obtain ⟨p, rfl, hp⟩ := h.of_mem hd
    exact ⟨p, Packet.decode_encode p key, Bears.of_block hp hk ho⟩
  reassembles arrival packets harrival hdecoded := h.reassembles hpos hcover harrival hdecoded
  collected hkind x target arrival hx harrival := by
    have hresponse : kind = .response := MessageKind.value_inj (by rw [hk, hkind]; rfl)
    obtain ⟨p, hp, hblock⟩ := h.collected hresponse hpos hcover hx.key_eq (Opcode.value_inj (hx.opcode_eq.trans ho.symm))
      hx.sessionId_eq hx.requestId_eq hx.received_eq target harrival
    exact ⟨p, hp, Bears.of_block hblock hk ho⟩
  raised hkind hlen x target arrival hx harrival := by
    have herror : kind = .error := MessageKind.value_inj (by rw [hk, hkind]; rfl)
    have hone := hsingle hlen
    rw [hone, Nat.one_mul] at hcover
    exact h.raised herror hone hcover hx.key_eq (Opcode.value_inj (hx.opcode_eq.trans ho.symm)) hx.sessionId_eq
      hx.requestId_eq target harrival

/-! ## What the agents send -/

/-- Each packet is encoded to its datagram. -/
def Encoded (key : Bytes) : List DmPacket → List Bytes → Prop :=
  List.Forall₂ fun packet datagram => dmPacketEncode packet key responseDatagramSize = .ok datagram

/-- The packets of a response. -/
def responsePackets (b : Build) (session : AgentSession) (kind opcode : UInt8) (id : UInt16) (count : UInt8)
    (payload : Bytes) : List DmPacket :=
  (List.range count.toNat).map (responsePacket b session kind opcode id count payload)

/-- The packet that C fills in is the block that Python would send. -/
theorem responsePacket_eq {b : Build} {session : AgentSession} {kind : MessageKind} {opcode : Opcode} {k o : UInt8}
    {id : UInt16} {count : UInt8} {payload : Bytes} {p : Packet} (hk : kind.value = k.toNat) (ho : opcode.value = o.toNat)
    (hp : IsBlock b.fragmentPayload count.toNat kind opcode session.id.toNat id.toNat payload p) :
    responsePacket b session k o id count payload p.fragmentIndex = ofPacket p := by
  simp only [responsePacket, ofPacket, hp.kind_eq, hp.opcode_eq, hp.sessionId_eq, hp.requestId_eq, hp.count_eq, hk, ho,
    UInt8.ofNat_toNat, UInt16.ofNat_toNat, ← hp.payload_eq, p.flags_zero]
  rfl

theorem Blocks.encoded (b : Build) (session : AgentSession) {key : Key} {kind : MessageKind} {opcode : Opcode} {k o : UInt8}
    {id : UInt16} {count : UInt8} {payload : Bytes} {datagrams : List Bytes} (hk : kind.value = k.toNat)
    (ho : opcode.value = o.toNat)
    (h : Blocks b.fragmentPayload count.toNat key kind opcode session.id id payload datagrams) :
    Encoded key.bytes (responsePackets b session k o id count payload) datagrams := by
  refine List.forall₂_iff_get.mpr ⟨?_, fun i hi hd => ?_⟩
  · rw [responsePackets, List.length_map, List.length_range, h.length_eq]
  obtain ⟨p, hp, hindex, hblock⟩ := h.block i (h.length_eq ▸ hd)
  rw [List.getElem?_eq_getElem hd] at hp
  have hcapacity : headerSize + p.payload.length ≤ responseDatagramSize.toNat := by
    have hle := p.payload_le
    have hsize : responseDatagramSize.toNat = 1044 := rfl
    unfold headerSize maxFragmentPayload at *
    omega
  simp only [List.get_eq_getElem, responsePackets, List.getElem_map, List.getElem_range]
  rw [Option.some.inj hp, ← hindex, responsePacket_eq hk ho hblock, dmPacketEncode_ofPacket p key hcapacity]

theorem encodeResponses_eq {key : Bytes} {packets : List DmPacket} {datagrams : List Bytes}
    (h : Encoded key packets datagrams) (index : Nat) (responses : List Bytes)
    (hfits : index + packets.length ≤ responses.length) :
    encodeResponses key packets index responses =
      (true, responses.take index ++ datagrams ++ responses.drop (index + packets.length)) := by
  induction h generalizing index responses with
  | nil => simp [encodeResponses]
  | @cons packet datagram packets datagrams hd _ ih =>
    rw [List.length_cons] at hfits
    have hindex : index < responses.length := by omega
    rw [encodeResponses, hd]
    simp only
    rw [ih (index + 1) _ (by rw [List.length_set]; omega)]
    have htake : (responses.set index datagram).take (index + 1) = responses.take index ++ [datagram] := by
      rw [List.set_eq_take_append_cons_drop, if_pos hindex, List.take_append, List.length_take, Nat.min_eq_left hindex.le,
        List.take_of_length_le (by rw [List.length_take]; omega), Nat.add_sub_cancel_left]
      rfl
    have hdrop : (responses.set index datagram).drop (index + 1 + packets.length) =
        responses.drop (index + 1 + packets.length) := List.drop_set_of_lt (by omega)
    rw [htake, hdrop, List.length_cons, Nat.add_comm packets.length 1, ← Nat.add_assoc]
    simp

/-- The sizes C gives the arrays of a session. -/
structure AgentSession.Sized (session : AgentSession) : Prop where
  key : session.key.length = 16
  responses : session.responses.length = 5

def AgentSession.Sized.sessionKey {session : AgentSession} (h : session.Sized) : Key := ⟨session.key, h.key⟩

/-- RAGENT sends the encoded packets of a response at once. -/
theorem sendResponse_ragent_sent {s : State} {kind opcode : UInt8} {id : UInt16} {source : Source} {datagrams : List Bytes}
    (hresponses : s.session.responses.length = 5) (hcount : (responseFragmentCount .ragent source.length).toNat ≤ 5)
    (hencoded : Encoded s.session.key (responsePackets .ragent s.session kind opcode id
      (responseFragmentCount .ragent source.length) (s.payloadBytes .ragent source)) datagrams) :
    (sendResponse .ragent s kind opcode id source).sent = s.sent ++ datagrams.map (s.session.peer, ·) := by
  have hlength := hencoded.length_eq
  rw [responsePackets, List.length_map, List.length_range] at hlength
  have hloop := encodeResponses_eq hencoded 0 s.session.responses (by rw [hencoded.length_eq, ← hlength]; omega)
  rw [List.take_zero, List.nil_append] at hloop
  unfold sendResponse
  dsimp only
  rw [if_neg (by simpa [Build.maxFragments] using hcount)]
  have hpackets : (List.range (responseFragmentCount .ragent source.length).toNat).map
      (responsePacket .ragent { s.session with responseCount := responseFragmentCount .ragent source.length } kind opcode id
        (responseFragmentCount .ragent source.length)
        (State.payloadBytes .ragent { s with session :=
          { s.session with responseCount := responseFragmentCount .ragent source.length } } source)) =
      responsePackets .ragent s.session kind opcode id (responseFragmentCount .ragent source.length)
        (s.payloadBytes .ragent source) := by
    cases source <;> rfl
  rw [hpackets, hloop]
  simp only [resendCached, State.recordRequest, hlength, List.take_left']

theorem encodeResponses_length (key : Bytes) (packets : List DmPacket) (index : Nat) (responses : List Bytes) :
    (encodeResponses key packets index responses).2.length = responses.length := by
  induction packets generalizing index responses with
  | nil => rfl
  | cons packet packets ih =>
    rw [encodeResponses]
    split
    · rfl
    · rw [ih, List.length_set]

theorem sized_resendCached {b : Build} {s : State} (h : s.session.Sized) : (resendCached b s).session.Sized := by
  cases b <;> exact ⟨h.key, h.responses⟩

theorem sized_sendResponse {b : Build} {s : State} (h : s.session.Sized) (kind opcode : UInt8) (id : UInt16)
    (source : Source) : (sendResponse b s kind opcode id source).session.Sized := by
  unfold sendResponse
  dsimp only
  split
  · exact h
  cases b with
  | ratsr =>
    refine sized_resendCached ?_
    cases source <;> exact ⟨h.key, h.responses⟩
  | ragent =>
    dsimp only
    split
    · rename_i responses e
      have hlength := congrArg (fun r => r.2.length) e
      rw [encodeResponses_length] at hlength
      exact ⟨h.key, hlength.symm.trans h.responses⟩
    · rename_i responses e
      have hlength := congrArg (fun r => r.2.length) e
      rw [encodeResponses_length] at hlength
      exact sized_resendCached ⟨h.key, hlength.symm.trans h.responses⟩

theorem sized_processRequest {b : Build} {s : State} (h : s.session.Sized) (c : Config) (opcode : UInt8) (id : UInt16)
    (payload : Bytes) : (processRequest b c s opcode id payload).session.Sized := by
  have hoperated := operate_operated b c { s with requests := s.requests ++ [⟨opcode, id, payload⟩] } opcode payload
  unfold processRequest
  generalize operate b c { s with requests := s.requests ++ [⟨opcode, id, payload⟩] } opcode payload = r at hoperated ⊢
  obtain ⟨reply, t⟩ := r
  have ht : t.session.Sized := by
    rw [hoperated.session_eq]
    exact h
  cases reply with
  | error code message => exact sized_sendResponse ht _ _ _ _
  | screen bytes => exact sized_sendResponse (s := t.putScreen b bytes) ht _ _ _ _
  | capture length => exact sized_sendResponse ht _ _ _ _

theorem sized_processHello {b : Build} {s : State} (h : s.session.Sized) (c : Config) (packet : DmPacket) (peer : Peer) :
    (processHello b c s packet peer).session.Sized := by
  unfold processHello
  split
  · exact h
  dsimp only
  refine ⟨rfl, ?_⟩
  dsimp only
  split <;> exact h.responses

theorem sized_processSessionPacket {b : Build} {s : State} (h : s.session.Sized) (c : Config) (packet : DmPacket) :
    (processSessionPacket b c s packet).session.Sized := by
  have hstored : (s.storeFragment packet).session.Sized := by
    obtain ⟨reassembly, workspace, e⟩ := storeFragment_session s packet
    rw [e]
    exact h
  rcases processSessionPacket_cases b c s packet with ⟨-, e⟩ | ⟨-, e⟩ | ⟨-, ⟨-, e⟩ | ⟨payload, -, e⟩⟩ <;> rw [e]
  · exact sized_resendCached h
  · exact sized_sendResponse h _ _ _ _
  · exact hstored
  · exact sized_processRequest hstored c _ _ _

theorem sized_processPacket {b : Build} {s : State} (h : s.session.Sized) (c : Config) (packet : DmPacket) (peer : Peer) :
    (processPacket b c s packet peer).session.Sized := by
  unfold processPacket
  split
  · exact h
  split
  · exact sized_processHello h c packet peer
  split
  · exact h
  · exact sized_processSessionPacket (s := { s with session := { s.session with lastActivityTick := s.ticks } })
      ⟨h.key, h.responses⟩ c packet

/-- The arrays of a session keep their sizes, whatever datagram is processed. -/
theorem sized_processDatagram {b : Build} {s : State} (h : s.session.Sized) (c : Config) (d : Datagram) :
    (processDatagram b c s d).session.Sized := by
  unfold processDatagram
  split
  · exact h
  split
  · exact h
  · rename_i packet _
    exact sized_processPacket (s := { s with lastProtocolResult := 0, lastOpcode := packet.opcode }) h c packet d.peer

theorem sized_beforePoll {s : State} (h : s.session.Sized) (c : Config) (e : Entry) : (beforePoll c s e).session.Sized := by
  rw [(beforePoll_session c s e).1]
  unfold expireSession
  split <;> exact ⟨h.key, h.responses⟩

/-- The sizes hold in every state of either agent: at the start, and after each step. -/
theorem sized_runAgent {b : Build} {s : State} (h : s.session.Sized) (c : Config) (e : Entry) :
    (runAgent b c s e).session.Sized := by
  cases b with
  | ragent =>
    rw [runAgent, ragentTurn]
    dsimp only
    rw [(processShellKeyboard_operated c _).session_eq]
    split
    · exact h
    · exact sized_processDatagram (s := { s with machine := e.machine }) h c _
  | ratsr =>
    have hbefore := sized_beforePoll h c e
    rw [runAgent, ratsrIdleWorker]
    split
    · exact h
    dsimp only
    split
    · unfold emitFragment
      dsimp only
      split <;> exact ⟨hbefore.key, hbefore.responses⟩
    split
    · exact ⟨hbefore.key, hbefore.responses⟩
    rcases pollDatagram_cases c (beforePoll c s e) e with ⟨-, hpoll⟩ | ⟨d, result, -, -, hpoll | hpoll⟩ | ⟨d, -, -, hpoll⟩
    all_goals rw [hpoll]
    · exact hbefore
    · exact hbefore
    · exact hbefore
    · exact sized_processDatagram hbefore c d

/-! ## One fragment a worker entry -/

def ResidentEvent.isEntry : ResidentEvent → Bool
  | .arrive _ => false
  | .enter _ => true

/-- The worker entries of a run. -/
def entries (events : List ResidentEvent) : Nat := events.countP ResidentEvent.isEntry

/-- The packets of the response, had it the payload. -/
def packetsOf (session : AgentSession) (payload : Bytes) : List DmPacket :=
  responsePackets .ratsr session session.responseKind session.responseOpcode session.responseRequestId session.responseCount
    payload

/-- The packets of the response that RA-TSR has pending. -/
def pendingPackets (s : State) : List DmPacket :=
  responsePackets .ratsr s.session s.session.responseKind s.session.responseOpcode s.session.responseRequestId
    s.session.responseCount (s.workspace.load 0 s.session.responsePayloadLength)

/-- RA-TSR has sent the first `i` of the datagrams of a pending response, one an entry. -/
structure Paced (before : List (Peer × Bytes)) (peer : Peer) (datagrams : List Bytes) (i : Nat) (s : State) : Prop where
  enabled_eq : s.enabled = true
  peer_eq : s.session.peer = peer
  length_eq : datagrams.length = s.session.responseCount.toNat
  count_le : s.session.responseCount.toNat ≤ 16
  next_eq : s.session.responseNext.toNat = i
  pending_eq : s.session.responsePending = decide (i < datagrams.length)
  -- one tick an entry at most
  idle_le : (s.ticks - s.session.lastActivityTick).toNat ≤ i
  sent_eq : s.sent = before ++ (datagrams.take i).map (peer, ·)

/-- RA-TSR has sent the first `i` of the datagrams, and sends the next ones from its buffers. -/
structure Emitting (before : List (Peer × Bytes)) (peer : Peer) (datagrams : List Bytes) (i : Nat) (s : State) : Prop where
  enabled_eq : s.enabled = true
  peer_eq : s.session.peer = peer
  opcode_ne : s.session.responseOpcode ≠ 4
  encoded : Encoded s.session.key (pendingPackets s) datagrams
  count_le : s.session.responseCount.toNat ≤ 16
  next_eq : s.session.responseNext.toNat = i
  pending_eq : s.session.responsePending = decide (i < datagrams.length)
  -- one tick an entry at most
  idle_le : (s.ticks - s.session.lastActivityTick).toNat ≤ i
  sent_eq : s.sent = before ++ (datagrams.take i).map (peer, ·)

/-- What an emission leaves, the datagram known. -/
def State.emits (s : State) (datagram : Bytes) : State :=
  { { s with workspace := (nextFragment s).2, lastProtocolResult := 0 }.transmit datagram with
    session := { s.session with responseNext := s.session.responseNext + 1
                                responsePending := s.session.responseNext + 1 < s.session.responseCount } }

theorem emitFragment_encoded {s : State} {d : Bytes}
    (hencode : dmPacketEncode (nextFragment s).1 s.session.key responseDatagramSize = .ok d) :
    emitFragment s = s.emits d := by
  unfold emitFragment State.emits
  generalize nextFragment s = r at hencode ⊢
  obtain ⟨packet, workspace⟩ := r
  simp only at hencode
  simp only [hencode, State.transmit]
  rfl

section Emitting

variable {before : List (Peer × Bytes)} {peer : Peer} {datagrams : List Bytes} {i : Nat} {s : State}

theorem Emitting.length_eq (h : Emitting before peer datagrams i s) :
    datagrams.length = s.session.responseCount.toNat := by
  have hlength := h.encoded.length_eq
  rw [pendingPackets, responsePackets, List.length_map, List.length_range] at hlength
  exact hlength.symm

theorem Emitting.paced (h : Emitting before peer datagrams i s) : Paced before peer datagrams i s :=
  ⟨h.enabled_eq, h.peer_eq, h.length_eq, h.count_le, h.next_eq, h.pending_eq, h.idle_le, h.sent_eq⟩

theorem Paced.emitting (h : Paced before peer datagrams i s) (hopcode : s.session.responseOpcode ≠ 4)
    (hencoded : Encoded s.session.key (pendingPackets s) datagrams) : Emitting before peer datagrams i s :=
  ⟨h.enabled_eq, h.peer_eq, hopcode, hencoded, h.count_le, h.next_eq, h.pending_eq, h.idle_le, h.sent_eq⟩

/-- Time passes, and nothing else a pending response depends on. -/
theorem beforePoll_sent (c : Config) (s : State) (e : Entry) :
    (beforePoll c s e).sent = s.sent ∧ (beforePoll c s e).enabled = s.enabled ∧
      (beforePoll c s e).ticks = (enterWorker s e).ticks := by
  have hexpire : ∀ t : State,
      (expireSession t).sent = t.sent ∧ (expireSession t).enabled = t.enabled ∧ (expireSession t).ticks = t.ticks := by
    intro t
    unfold expireSession
    split <;> exact ⟨rfl, rfl, rfl⟩
  have hclean : ∀ t : State, (cleanTransfer t e).sent = t.sent ∧ (cleanTransfer t e).enabled = t.enabled ∧
      (cleanTransfer t e).ticks = t.ticks := by
    intro t
    unfold cleanTransfer
    split <;> exact ⟨rfl, rfl, rfl⟩
  have hadvertise : ∀ t : State, (advertise c t).sent = t.sent ∧ (advertise c t).enabled = t.enabled ∧
      (advertise c t).ticks = t.ticks := by
    intro t
    unfold advertise
    split <;> exact ⟨rfl, rfl, rfl⟩
  rw [beforePoll, (hadvertise _).1, (hadvertise _).2.1, (hadvertise _).2.2, (hclean _).1, (hclean _).2.1, (hclean _).2.2,
    (hexpire _).1, (hexpire _).2.1, (hexpire _).2.2]
  exact ⟨rfl, rfl, rfl⟩

/-- A response of at most sixteen fragments is out long before the session expires. -/
theorem Paced.beforePoll (h : Paced before peer datagrams i s) (hi : i < datagrams.length) (c : Config) (e : Entry) :
    (beforePoll c s e).session = s.session ∧
      ((beforePoll c s e).ticks - s.session.lastActivityTick).toNat ≤ i + 1 := by
  have hidle := h.idle_le
  have hcount := h.count_le
  rw [h.length_eq] at hi
  have hnow : ((enterWorker s e).ticks - s.session.lastActivityTick).toNat ≤ i + 1 := by
    unfold enterWorker
    cases e.dosIdle with
    | true => exact Nat.le_succ_of_le hidle
    | false =>
      have hnext : s.ticks + 1 - s.session.lastActivityTick = s.ticks - s.session.lastActivityTick + 1 := by grind
      have hone : (1 : UInt16).toNat = 1 := rfl
      simp only [Bool.false_eq_true, if_false]
      rw [hnext, UInt16.toNat_add]
      omega
  refine ⟨?_, by rw [(beforePoll_sent c s e).2.2]; exact hnow⟩
  rw [(beforePoll_session c s e).1, expireSession, if_neg]
  · rfl
  rintro ⟨-, hexpired⟩
  rw [ge_iff_le, UInt16.le_iff_toNat_le] at hexpired
  have hlimit : sessionIdleTicks.toNat = 546 := rfl
  have hsession : (enterWorker s e).session = s.session := rfl
  rw [hsession] at hexpired
  omega

/-- An entry sends the next datagram, if that is what the fragment is encoded to. -/
theorem Paced.enter (h : Paced before peer datagrams i s) (hi : i < datagrams.length) (c : Config) (e : Entry)
    (hencode : dmPacketEncode (nextFragment (Dos.beforePoll c s e)).1 s.session.key responseDatagramSize =
      .ok datagrams[i]) :
    ratsrIdleWorker c s e = (Dos.beforePoll c s e).emits datagrams[i] ∧
      Paced before peer datagrams (i + 1) (ratsrIdleWorker c s e) := by
  obtain ⟨hsession, hidle⟩ := h.beforePoll hi c e
  obtain ⟨hsent, henabled, -⟩ := beforePoll_sent c s e
  have hpending : (Dos.beforePoll c s e).session.responsePending = true := by
    rw [hsession, h.pending_eq, decide_eq_true hi]
  have hworker : ratsrIdleWorker c s e = (Dos.beforePoll c s e).emits datagrams[i] := by
    rw [ratsrIdleWorker, if_neg (by simp [h.enabled_eq])]
    dsimp only
    rw [if_pos hpending]
    exact emitFragment_encoded (by rw [hsession]; exact hencode)
  refine ⟨hworker, ?_⟩
  rw [hworker]
  generalize Dos.beforePoll c s e = t at hsession hidle hsent henabled ⊢
  have hcount := h.count_le
  have hlength := h.length_eq
  have hsmall : (s.session.responseNext + 1).toNat = i + 1 := by
    rw [UInt8.toNat_add, h.next_eq]
    have hone : (1 : UInt8).toNat = 1 := rfl
    omega
  unfold State.emits State.transmit
  simp only [hsession, hsent]
  exact
    { enabled_eq := henabled.trans h.enabled_eq
      peer_eq := h.peer_eq
      length_eq := h.length_eq
      count_le := h.count_le
      next_eq := hsmall
      pending_eq := by
        rw [h.length_eq]
        simp only [UInt8.lt_iff_toNat_lt, hsmall]
      idle_le := hidle
      sent_eq := by
        simp only [h.sent_eq, h.peer_eq, List.append_assoc, List.take_succ_eq_append_getElem hi, List.map_append, List.map_cons,
          List.map_nil] }

theorem Paced.arrive (h : Paced before peer datagrams i s) (d : Datagram) : Paced before peer datagrams i (arrive s d) := by
  unfold Dos.arrive
  split
  · exact ⟨h.enabled_eq, h.peer_eq, h.length_eq, h.count_le, h.next_eq, h.pending_eq, h.idle_le, h.sent_eq⟩
  · exact h

/-- The next fragment, as the packet of its index. -/
theorem nextFragment_eq (hopcode : s.session.responseOpcode ≠ 4)
    (hnext : s.session.responseNext.toNat < s.session.responseCount.toNat) :
    (pendingPackets s)[s.session.responseNext.toNat]? = some (nextFragment s).1 ∧ (nextFragment s).2 = s.workspace := by
  refine ⟨?_, by simp [nextFragment, hopcode]⟩
  rw [pendingPackets, responsePackets, List.getElem?_map, List.getElem?_range hnext]
  simp only [nextFragment, hopcode, if_false, responsePacket, Memory.slice_load, UInt8.ofNat_toNat, Option.map_some,
    Build.screenBase, Nat.zero_add]

/-- The packet of an index is encoded to the datagram of that index. -/
theorem Encoded.getElem {key : Bytes} {packets : List DmPacket} (h : Encoded key packets datagrams) {packet : DmPacket}
    {d : Bytes} (hpacket : packets[i]? = some packet) (hd : datagrams[i]? = some d) :
    dmPacketEncode packet key responseDatagramSize = .ok d := by
  obtain ⟨hp, rfl⟩ := List.getElem?_eq_some_iff.mp hpacket
  obtain ⟨hi, rfl⟩ := List.getElem?_eq_some_iff.mp hd
  exact h.get hp hi

/-- The next fragment of the response that is pending goes out. -/
theorem emitFragment_sends {d : Bytes} (hopcode : s.session.responseOpcode ≠ 4)
    (hencoded : Encoded s.session.key (pendingPackets s) datagrams)
    (hd : datagrams[s.session.responseNext.toNat]? = some d) :
    emitFragment s = { { s with lastProtocolResult := 0 }.transmit d with
      session := { s.session with responseNext := s.session.responseNext + 1
                                  responsePending := s.session.responseNext + 1 < s.session.responseCount } } := by
  have hlength := hencoded.length_eq
  rw [pendingPackets, responsePackets, List.length_map, List.length_range] at hlength
  obtain ⟨hnext, -⟩ := List.getElem?_eq_some_iff.mp hd
  obtain ⟨hget, hsame⟩ := nextFragment_eq hopcode (by rw [hlength]; exact hnext)
  rw [emitFragment_encoded (hencoded.getElem hget hd), State.emits, hsame]

/-- An entry sends the next fragment. -/
theorem Emitting.enter (h : Emitting before peer datagrams i s) (hi : i < datagrams.length) (c : Config) (e : Entry) :
    Emitting before peer datagrams (i + 1) (ratsrIdleWorker c s e) := by
  have hsession := (h.paced.beforePoll hi c e).1
  have hpackets : pendingPackets (beforePoll c s e) = pendingPackets s := by
    rw [pendingPackets, pendingPackets, hsession, (beforePoll_session c s e).2.2.2.2]
  have hnext : (beforePoll c s e).session.responseNext.toNat = i := by rw [hsession, h.next_eq]
  have hopcode : (beforePoll c s e).session.responseOpcode ≠ 4 := by
    rw [hsession]
    exact h.opcode_ne
  obtain ⟨hget, hsame⟩ := nextFragment_eq hopcode (by rw [hnext, hsession, ← h.length_eq]; exact hi)
  rw [hpackets, hnext] at hget
  obtain ⟨hworker, hpaced⟩ := h.paced.enter hi c e (h.encoded.getElem hget (List.getElem?_eq_getElem hi))
  refine hpaced.emitting ?_ ?_
  all_goals rw [hworker]
  · exact hopcode
  · have hpending : pendingPackets ((beforePoll c s e).emits datagrams[i]) = pendingPackets (beforePoll c s e) := by
      unfold State.emits
      rw [hsame]
      rfl
    have hkey : ((beforePoll c s e).emits datagrams[i]).session.key = (beforePoll c s e).session.key := rfl
    rw [hpending, hpackets, hkey, hsession]
    exact h.encoded

theorem Emitting.arrive (h : Emitting before peer datagrams i s) (d : Datagram) :
    Emitting before peer datagrams i (arrive s d) := by
  unfold Dos.arrive
  split
  · exact ⟨h.enabled_eq, h.peer_eq, h.opcode_ne, h.encoded, h.count_le, h.next_eq, h.pending_eq, h.idle_le, h.sent_eq⟩
  · exact h

/-- A run sends one fragment an entry. -/
theorem Emitting.resident (h : Emitting before peer datagrams i s) (c : Config) (events : List ResidentEvent)
    (hevents : i + entries events ≤ datagrams.length) :
    Emitting before peer datagrams (i + entries events) (s.resident c events) := by
  induction events generalizing s i with
  | nil => exact h
  | cons event events ih =>
    cases event with
    | arrive d => exact ih (h.arrive d) hevents
    | enter e =>
      have hcons : entries (.enter e :: events) = entries events + 1 := List.countP_cons_of_pos rfl
      rw [hcons] at hevents ⊢
      rw [← Nat.add_assoc, Nat.add_right_comm]
      exact ih (h.enter (by omega) c e) (by omega)

end Emitting

/-- `send_response` of RA-TSR leaves the whole response pending, whatever is in the receive buffer. -/
theorem sendResponse_paced {s : State} (kind opcode : UInt8) (id : UInt16) {source : Source} {datagrams : List Bytes}
    (henabled : s.enabled = true) (hfresh : s.session.lastActivityTick = s.ticks)
    (hcount : 1 ≤ (responseFragmentCount .ratsr source.length).toNat ∧
      (responseFragmentCount .ratsr source.length).toNat ≤ 16)
    (hlength : datagrams.length = (responseFragmentCount .ratsr source.length).toNat) (slot : Option Datagram) :
    Paced s.sent s.session.peer datagrams 0 { sendResponse .ratsr s kind opcode id source with slot := slot } := by
  have hne : responseFragmentCount .ratsr source.length ≠ 0 := by
    intro h0
    rw [h0] at hcount
    exact absurd hcount.1 (by decide)
  have hidle : (s.ticks - s.session.lastActivityTick).toNat ≤ 0 := by
    rw [hfresh, UInt16.sub_self]
    exact Nat.le_refl 0
  have hpending : (decide (responseFragmentCount .ratsr source.length ≠ 0)) = decide (0 < datagrams.length) := by
    rw [decide_eq_true hne, decide_eq_true (by omega)]
  have hunsent : s.sent = s.sent ++ (datagrams.take 0).map (s.session.peer, ·) := by simp
  unfold sendResponse
  dsimp only
  rw [if_neg (by simpa [Build.maxFragments] using hcount.2)]
  cases source <;> exact ⟨henabled, rfl, hlength, hcount.2, rfl, hpending, hidle, hunsent⟩

theorem sendResponse_emitting {s : State} {kind opcode : UInt8} {id : UInt16} {source : Source} {datagrams : List Bytes}
    (henabled : s.enabled = true) (hfresh : s.session.lastActivityTick = s.ticks) (hopcode : opcode ≠ 4)
    (hcount : 1 ≤ (responseFragmentCount .ratsr source.length).toNat ∧
      (responseFragmentCount .ratsr source.length).toNat ≤ 16)
    (hencoded : Encoded s.session.key (responsePackets .ratsr s.session kind opcode id
      (responseFragmentCount .ratsr source.length) (s.payloadBytes .ratsr source)) datagrams) (slot : Option Datagram) :
    Emitting s.sent s.session.peer datagrams 0 { sendResponse .ratsr s kind opcode id source with slot := slot } := by
  have hlength := hencoded.length_eq
  rw [responsePackets, List.length_map, List.length_range] at hlength
  refine (sendResponse_paced kind opcode id henabled hfresh hcount hlength.symm slot).emitting ?_ ?_
  all_goals
    unfold sendResponse
    dsimp only
    rw [if_neg (by simpa [Build.maxFragments] using hcount.2)]
  · cases source <;> exact hopcode
  cases source with
  | screen n => exact hencoded
  | array bytes =>
    have hstored : (s.workspace.store 0 bytes).load 0 bytes.length = bytes := Memory.load_store_same _ _ _
    have hpackets : responsePackets .ratsr s.session kind opcode id (responseFragmentCount .ratsr bytes.length)
        ((s.workspace.store 0 bytes).load 0 bytes.length) =
          responsePackets .ratsr s.session kind opcode id (responseFragmentCount .ratsr bytes.length) bytes := by rw [hstored]
    have hencoded' := hencoded
    simp only [State.payloadBytes, Source.length] at hencoded'
    rw [← hpackets] at hencoded'
    exact hencoded'

/-- The datagrams of a response of at most five blocks of 1024 bytes, or sixteen of 256. -/
theorem exists_intact (b : Build) {session : AgentSession} (hsized : session.Sized) {kind opcode : UInt8} (id : UInt16)
    {length : Nat} (hlength : length ≤ 5120) {payload : Bytes} (hpayload : payload.length = length)
    (hkind : kind = dmKindResponse ∨ kind = dmKindError) (hopcode : dmOpHello ≤ opcode ∧ opcode ≤ dmOpMax) :
    ∃ datagrams, Intact hsized.sessionKey kind opcode session.id id payload datagrams ∧
      Encoded session.key (responsePackets b session kind opcode id (responseFragmentCount b length) payload) datagrams := by
  obtain ⟨k, hk⟩ : ∃ k : MessageKind, k.value = kind.toNat := by
    rcases hkind with rfl | rfl
    · exact ⟨.response, rfl⟩
    · exact ⟨.error, rfl⟩
  obtain ⟨o, ho⟩ : ∃ o : Opcode, o.value = opcode.toNat := by
    have hmin : dmOpHello.toNat = 1 := rfl
    have hmax : dmOpMax.toNat = 18 := rfl
    rw [UInt8.le_iff_toNat_le, UInt8.le_iff_toNat_le, hmin, hmax] at hopcode
    obtain ⟨o, ho⟩ := Option.isSome_iff_exists.mp ((Opcode.ofValue?_isSome_iff opcode.toNat).mpr hopcode)
    exact ⟨o, Opcode.value_of_ofValue? ho⟩
  have hcount := responseFragmentCount_toNat b hlength
  have hwidth : b.fragmentPayload ≤ maxFragmentPayload := by cases b <;> decide
  have hrange : 1 ≤ (responseFragmentCount b length).toNat ∧ (responseFragmentCount b length).toNat ≤ maxFragments := by
    rw [hcount]
    unfold maxFragments
    cases b <;> simp only [Build.fragmentPayload] <;> omega
  have hcover : payload.length ≤ (responseFragmentCount b length).toNat * b.fragmentPayload := by
    rw [hcount]
    cases b <;> simp only [Build.fragmentPayload] <;> omega
  have hsingle : payload.length ≤ 122 → (responseFragmentCount b length).toNat = 1 := by
    rw [hcount]
    cases b <;> simp only [Build.fragmentPayload] <;> omega
  obtain ⟨datagrams, hblocks⟩ := exists_blocks hsized.sessionKey k o session.id id payload hrange hwidth
  have hencoded := Blocks.encoded b session hk ho hblocks
  have hkey : hsized.sessionKey.bytes = session.key := rfl
  rw [hkey] at hencoded
  exact ⟨datagrams, hblocks.intact hk ho hrange.1 hcover hsingle, hencoded⟩

/-- Every response or error sent through `send_response` reaches the bridge: RAGENT sends
    its datagrams at once, RA-TSR one a worker entry until the response is out. -/
theorem responses_reach_bridge (s : State) (hsized : s.session.Sized) {kind opcode : UInt8} (id : UInt16) (source : Source)
    (hkind : kind = dmKindResponse ∨ kind = dmKindError) (hopcode : dmOpHello ≤ opcode ∧ opcode ≤ dmOpMax) :
    (source.length ≤ 5120 →
      ∃ datagrams, Intact hsized.sessionKey kind opcode s.session.id id (s.payloadBytes .ragent source) datagrams ∧
        (sendResponse .ragent s kind opcode id source).sent = s.sent ++ datagrams.map (s.session.peer, ·)) ∧
    (source.length ≤ 4096 → opcode ≠ 4 → s.enabled = true → s.session.lastActivityTick = s.ticks →
      ∃ datagrams, Intact hsized.sessionKey kind opcode s.session.id id (s.payloadBytes .ratsr source) datagrams ∧
        ∀ (c : Config) (slot : Option Datagram) (events : List ResidentEvent), entries events ≤ datagrams.length →
          let t := State.resident c { sendResponse .ratsr s kind opcode id source with slot := slot } events
          t.sent = s.sent ++ (datagrams.take (entries events)).map (s.session.peer, ·) ∧
            t.session.responsePending = decide (entries events < datagrams.length)) := by
  have hpayload : ∀ b, (s.payloadBytes b source).length = source.length := by
    intro b
    cases source with
    | screen n => exact Memory.load_length _ _ _
    | array bytes => rfl
  constructor
  · intro hlength
    obtain ⟨datagrams, hintact, hencoded⟩ := exists_intact .ragent hsized id hlength (hpayload .ragent) hkind hopcode
    refine ⟨datagrams, hintact, sendResponse_ragent_sent hsized.responses ?_ hencoded⟩
    rw [responseFragmentCount_toNat .ragent hlength]
    simp only [Build.fragmentPayload]
    omega
  · intro hlength hcapture henabled hfresh
    have hlength' : source.length ≤ 5120 := hlength.trans (by decide)
    obtain ⟨datagrams, hintact, hencoded⟩ := exists_intact .ratsr hsized id hlength' (hpayload .ratsr) hkind hopcode
    refine ⟨datagrams, hintact, fun c slot events hevents => ?_⟩
    have hcount : 1 ≤ (responseFragmentCount .ratsr source.length).toNat ∧
        (responseFragmentCount .ratsr source.length).toNat ≤ 16 := by
      rw [responseFragmentCount_toNat .ratsr hlength']
      simp only [Build.fragmentPayload]
      omega
    have hrun := (sendResponse_emitting henabled hfresh hcapture hcount hencoded slot).resident c events (by omega)
    rw [Nat.zero_add] at hrun
    exact ⟨hrun.sent_eq, hrun.pending_eq⟩

theorem sized_start (m : Machine) (store : Store) : (State.start m store).session.Sized := ⟨rfl, rfl⟩

def freshAgent : State := .start blankMachine (dosStore (fun _ => none) fun _ => ⟨true, 0⟩)

theorem freshAgent_sized : freshAgent.session.Sized := sized_start _ _

theorem responses_reach_bridge_start :
    (∃ datagrams, Intact freshAgent_sized.sessionKey dmKindResponse 2 0 1 [5, 6] datagrams ∧
      (sendResponse .ragent freshAgent dmKindResponse 2 1 (.array [5, 6])).sent =
        datagrams.map (freshAgent.session.peer, ·)) ∧
    ∃ datagrams, Intact freshAgent_sized.sessionKey dmKindResponse 2 0 1 [5, 6] datagrams ∧
      ∀ (c : Config) (slot : Option Datagram) (events : List ResidentEvent), entries events ≤ datagrams.length →
        let t := State.resident c
          { sendResponse .ratsr freshAgent dmKindResponse 2 1 (.array [5, 6]) with slot := slot } events
        t.sent = (datagrams.take (entries events)).map (freshAgent.session.peer, ·) ∧
          t.session.responsePending = decide (entries events < datagrams.length) := by
  obtain ⟨hragent, hratsr⟩ := @responses_reach_bridge freshAgent freshAgent_sized dmKindResponse 2 1 (.array [5, 6])
    (Or.inl rfl) ⟨by decide, by decide⟩
  exact ⟨hragent (by decide), hratsr (by decide) (by decide) rfl rfl⟩

end DosMcp.Dos
