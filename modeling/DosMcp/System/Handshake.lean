/-
  DosMcp.System.Handshake — one `_handshake` against one agent server.

  The client sends one HELLO and repeats the same datagram at each deadline; the network
  delivers copies of it to the server, and the server's replies to the client, in any
  order and any number of times. Every copy installs a new session with a nonce of its
  own, and the client takes the first reply that reaches it.

  - `two_copies_disagree`: two copies processed, the first reply accepted: the server's
    session is not the client's.
  - `handshake_agrees_iff`: when `_handshake` has returned, the two sides agree exactly if
    the nonce drawn for the accepted copy is the nonce drawn for the last copy processed.
-/

import DosMcp.Client.Udp
import DosMcp.Protocol.CryptoProofs
import DosMcp.Server.AgentProofs

namespace DosMcp

open Lib

/-! ## Runs -/

/-- The two sides when `_handshake` is called: they share the base key. -/
structure Meeting where
  server : UdpAgentServer
  client : UdpBackend
  /-- The client's endpoint, as the server sees it. -/
  address : Address
  clientNonce : Nat
  key_eq : server.key = client.baseKey
  clientNonce_lt : clientNonce < 256 ^ 4

theorem nextRequestId_le (r : Nat) : nextRequestId r ≤ 0xFFFF := by
  have h : (r + 1) &&& 0xFFFF ≤ 0xFFFF := Nat.and_le_right
  simp only [nextRequestId]
  split <;> omega

/-- The HELLO packet (`helloPacket`, whose fields always fit). -/
def Meeting.hello (m : Meeting) : Packet where
  kind := .request
  opcode := .hello
  sessionId := 0
  requestId := nextRequestId m.client.requestId
  fragmentIndex := 0
  fragmentCount := 1
  payload := leBytes 4 m.clientNonce
  flags := 0
  flags_zero := Packet.flags_none
  sessionId_le := Packet.session_none
  requestId_le := nextRequestId_le _
  fragmentCount_range := Packet.single_range
  fragmentIndex_lt := Packet.single_index
  payload_le := by simp [maxFragmentPayload]

def Meeting.helloDatagram (m : Meeting) : Bytes := dosTransportDatagram (m.hello.encode m.client.baseKey)

/-- The exchange `_handshake` starts. -/
def Meeting.exchange (m : Meeting) : Exchange where
  expected := m.hello
  encoded := [m.helloDatagram]
  key := m.client.baseKey
  attempts := m.client.retries
  retries := m.client.retries
  received := []
  ignored := 0
  lastIgnored := ""

/-- The packet and the exchange are those of the client's `_handshake`. -/
theorem Meeting.handshake_eq (m : Meeting) :
    helloPacket (nextRequestId m.client.requestId) m.clientNonce = .ok m.hello ∧
      Exchange.start [m.hello] m.client.baseKey m.client.retries = some m.exchange := by
  have henc : HelloRequest.encode ⟨m.clientNonce⟩ = .ok (leBytes 4 m.clientNonce ++ []) := by
    rw [HelloRequest.encode, structPack_eq_ok, pack_cons m.clientNonce_lt, pack_nil]
    rfl
  rw [List.append_nil] at henc
  refine ⟨?_, rfl⟩
  rw [helloPacket, henc]
  exact Packet.make_self m.hello

structure Handshake where
  server : UdpAgentServer
  client : Progress
  replies : List Bytes

def Meeting.start (m : Meeting) : Handshake := ⟨m.server, .waiting m.exchange, []⟩

inductive Handshake.Event where
  /-- A copy of the HELLO reaches the server. -/
  | hello (env : Env)
  /-- The `index`-th reply of the server reaches the client. -/
  | reply (index : Nat)
  /-- The deadline of an attempt passes. -/
  | timeout

def Handshake.step (m : Meeting) (h : Handshake) : Handshake.Event → Handshake
  | .hello env =>
    let r := h.server.handleDatagram env m.helloDatagram m.address
    { h with server := r.server, replies := h.replies ++ r.sent.map Prod.snd }
  | .reply index => match h.client, h.replies[index]? with
    | .waiting x, some d => { h with client := x.receive m.client.target m.client.target d }
    | _, _ => h
  | .timeout => match h.client with
    | .waiting x => { h with client := x.timeout }
    | .done _ => h

def Handshake.run (m : Meeting) (h : Handshake) (events : List Handshake.Event) : Handshake :=
  events.foldl (Handshake.step m) h

/-- The client after `_handshake`, once it has returned. -/
def Handshake.returned (m : Meeting) (h : Handshake) : Option UdpBackend :=
  match h.client with
  | .done (.ok (payload, packet)) =>
    match { m.client with requestId := nextRequestId m.client.requestId }.finishHandshake m.clientNonce payload packet with
    | .ok b => some b
    | .error _ => none
  | _ => none

/-- The server's session is the client's. -/
def Agree (server : UdpAgentServer) (client : UdpBackend) : Prop :=
  ∃ session, server.session = some session ∧ session.sessionId = client.sessionId ∧
    some session.key = client.sessionKey

/-! ## The condition -/

/-- The nonces drawn for the copies processed so far, and the one of the accepted reply. -/
structure Nonces where
  drawn : List Nat
  accepted : Option Nat

def Nonces.step (s : Nonces) : Handshake.Event → Nonces
  | .hello env => { s with drawn := s.drawn ++ [env.serverNonce] }
  | .reply index => { s with accepted := s.accepted.or s.drawn[index]? }
  | .timeout => s

/-- The nonce of the reply that reaches the client first, and the nonces in the order of the copies. -/
def nonces (events : List Handshake.Event) : Nonces := events.foldl Nonces.step ⟨[], none⟩

/-! ## One copy, one reply -/

/-- The server's reply to a copy for which it draws `n`. -/
def Meeting.reply (m : Meeting) (n : Nat) : Packet :=
  helloReply (nextRequestId m.client.requestId) m.clientNonce n (helloSessionId m.clientNonce n) (nextRequestId_le _)
    (helloSessionId_range _ _).2

def Meeting.sessionOf (m : Meeting) (n : Nat) : Session :=
  .fresh m.address (helloSessionId m.clientNonce n) (deriveSessionKey m.client.baseKey m.clientNonce n)

theorem helloDatagram_decode (m : Meeting) : Packet.decode m.helloDatagram m.client.baseKey = .ok m.hello :=
  dosTransport_decode m.hello m.client.baseKey

theorem hello_nonce (m : Meeting) : HelloRequest.decode m.hello.payload = .ok ⟨m.clientNonce⟩ :=
  HelloRequest.decode_leBytes m.clientNonce_lt

/-- Every copy of the HELLO is answered with a session of its own. -/
theorem hello_step {m : Meeting} {s : UdpAgentServer} (hkey : s.key = m.client.baseKey) (env : Env) :
    let r := s.handleDatagram env m.helloDatagram m.address
    r.server.session = some (m.sessionOf env.serverNonce) ∧ r.server.key = m.client.baseKey ∧
      r.sent.map Prod.snd = [(m.reply env.serverNonce).encode m.client.baseKey] := by
  have hd : Packet.decode m.helloDatagram s.key = .ok m.hello := by rw [hkey]; exact helloDatagram_decode m
  have h1 := handleDatagram_hello env m.address hd (dosTransport_length _ _) rfl rfl rfl
  have h2 := handleHello_eq env m.address hd (hello_nonce m)
  simp only [h1, h2, hkey]
  exact ⟨rfl, trivial, rfl⟩

theorem reassemble_single {p : Packet} (hi : p.fragmentIndex = 0) (hc : p.fragmentCount = 1) :
    reassemblePackets [p] = .ok p.payload := by
  simp [reassemblePackets, byIndex, Dict.set, hc, hi, partAt, Dict.get?, List.range_succ, bind, Except.bind, pure,
    Except.pure]

/-- The client accepts whichever reply reaches it. -/
theorem receive_reply (m : Meeting) (n k : Nat) :
    { m.exchange with attempts := k }.receive m.client.target m.client.target ((m.reply n).encode m.client.baseKey) =
      .done (.ok ((m.reply n).payload, m.reply n)) := by
  have hd := (m.reply n).decode_encode m.client.baseKey
  have hlen : ((m.reply n).encode m.client.baseKey).length ≤ maxDatagram := by
    have hp := (m.reply n).payload_le
    rw [Packet.encode_length]
    simp only [headerSize, maxFragmentPayload, maxDatagram] at *
    omega
  have hcond : ¬ (m.client.target ≠ m.client.target ∨ ((m.reply n).encode m.client.baseKey).length > maxDatagram) :=
    not_or.mpr ⟨not_not.mpr rfl, Nat.not_lt.mpr hlen⟩
  have hmatch : { m.exchange with attempts := k }.matches (m.reply n) = true := by
    simp [Exchange.matches, Meeting.exchange, Meeting.hello, Meeting.reply, helloReply]
  have hkind : (m.reply n).kind = .response := rfl
  have hre := reassemble_single (p := m.reply n) rfl rfl
  rw [Exchange.receive, if_neg hcond]
  simp only [Meeting.exchange] at hd hmatch ⊢
  rw [hd]
  simp only [Exchange.receivePacket, hmatch, not_true_eq_false, if_false, hkind]
  have hset : Dict.set [] (m.reply n).fragmentIndex (m.reply n) = [((m.reply n).fragmentIndex, m.reply n)] := rfl
  have hcount : [((m.reply n).fragmentIndex, m.reply n)].length = (m.reply n).fragmentCount := rfl
  rw [hset, if_pos hcount]
  simp only [Dict.values, List.map_cons, List.map_nil, hre, bind, Except.bind]

/-- The client takes over the session of the accepted reply. -/
theorem finish_reply (m : Meeting) {n : Nat} (hn : n < 256 ^ 4) :
    { m.client with requestId := nextRequestId m.client.requestId }.finishHandshake m.clientNonce (m.reply n).payload
        (m.reply n) =
      .ok { m.client with requestId := nextRequestId m.client.requestId
                          sessionId := helloSessionId m.clientNonce n
                          sessionKey := some (deriveSessionKey m.client.baseKey m.clientNonce n) } := by
  have hs := helloSessionId_range m.clientNonce n
  have hdec := HelloResponse.decode_bytes m.clientNonce_lt hn hs
  have hpay : (m.reply n).payload = helloResponseBytes m.clientNonce n (helloSessionId m.clientNonce n) := rfl
  have hsid : (m.reply n).sessionId = helloSessionId m.clientNonce n := rfl
  simp only [UdpBackend.finishHandshake, hpay, hdec, hsid, raiseIf, ne_eq, not_true_eq_false, or_self, if_false, bind,
    Except.bind, pure, Except.pure]

/-! ## The run -/

structure Handshake.Inv (m : Meeting) (h : Handshake) (s : Nonces) : Prop where
  key_eq : h.server.key = m.client.baseKey
  drawn_lt : ∀ n ∈ s.drawn, n < 256 ^ 4
  replies_eq : h.replies = s.drawn.map fun n => (m.reply n).encode m.client.baseKey
  session_eq : ∀ n, s.drawn.getLast? = some n → h.server.session = some (m.sessionOf n)
  accepted_mem : ∀ n, s.accepted = some n → n ∈ s.drawn
  client_eq : (∃ e, h.client = .done (.error e)) ∨
    (s.accepted = none ∧ ∃ k, h.client = .waiting { m.exchange with attempts := k }) ∨
    ∃ n, s.accepted = some n ∧ h.client = .done (.ok ((m.reply n).payload, m.reply n))

theorem Meeting.inv_start (m : Meeting) : m.start.Inv m ⟨[], none⟩ where
  key_eq := m.key_eq
  drawn_lt := fun _ h => absurd h List.not_mem_nil
  replies_eq := rfl
  session_eq := fun _ h => by cases h
  accepted_mem := fun _ h => by cases h
  client_eq := Or.inr (Or.inl ⟨rfl, _, rfl⟩)

theorem Handshake.Inv.step {m : Meeting} {h : Handshake} {s : Nonces} (hi : h.Inv m s) (e : Handshake.Event) :
    (h.step m e).Inv m (s.step e) := by
  cases e with
  | hello env =>
    obtain ⟨h1, h2, h3⟩ := hello_step hi.key_eq env
    simp only [Handshake.step, Nonces.step]
    generalize h.server.handleDatagram env m.helloDatagram m.address = r at h1 h2 h3
    refine ⟨h2, ?_, ?_, ?_, ?_, hi.client_eq⟩
    · intro n hn
      rcases List.mem_append.mp hn with hn | hn
      · exact hi.drawn_lt n hn
      · rw [List.mem_singleton.mp hn]
        exact serverNonce_lt env
    · simp only [h3, hi.replies_eq, List.map_append, List.map_cons, List.map_nil]
    · intro n hn
      obtain rfl : env.serverNonce = n := by simpa using hn
      exact h1
    · intro n hn
      exact List.mem_append_left _ (hi.accepted_mem n hn)
  | timeout =>
    rcases hi.client_eq with ⟨e, hc⟩ | ⟨ha, k, hc⟩ | ⟨n, ha, hc⟩
    · simp only [Handshake.step, hc, Nonces.step]
      exact hi
    · simp only [Handshake.step, hc, Nonces.step]
      refine ⟨hi.key_eq, hi.drawn_lt, hi.replies_eq, hi.session_eq, hi.accepted_mem, ?_⟩
      unfold Exchange.timeout
      split
      · exact Or.inl ⟨_, rfl⟩
      · exact Or.inr (Or.inl ⟨ha, _, rfl⟩)
    · simp only [Handshake.step, hc, Nonces.step]
      exact hi
  | reply index =>
    rcases hi.client_eq with ⟨e, hc⟩ | ⟨ha, k, hc⟩ | ⟨n, ha, hc⟩
    · simp only [Handshake.step, hc]
      refine ⟨hi.key_eq, hi.drawn_lt, hi.replies_eq, hi.session_eq, ?_, Or.inl ⟨e, hc⟩⟩
      intro n hn
      rcases Option.or_eq_some_iff.mp hn with hn | ⟨-, hn⟩
      · exact hi.accepted_mem n hn
      · exact List.mem_of_getElem? hn
    · cases hidx : s.drawn[index]? with
      | none =>
        have hr : h.replies[index]? = none := by rw [hi.replies_eq, List.getElem?_map, hidx]; rfl
        simp only [Handshake.step, hc, hr, Nonces.step, hidx, Option.or_none]
        exact hi
      | some n =>
        have hr : h.replies[index]? = some ((m.reply n).encode m.client.baseKey) := by
          rw [hi.replies_eq, List.getElem?_map, hidx]; rfl
        simp only [Handshake.step, hc, hr, Nonces.step, hidx, ha, Option.none_or, receive_reply]
        refine ⟨hi.key_eq, hi.drawn_lt, hi.replies_eq, hi.session_eq, ?_, Or.inr (Or.inr ⟨n, rfl, rfl⟩)⟩
        intro n' hn'
        cases hn'
        exact List.mem_of_getElem? hidx
    · simp only [Handshake.step, hc, Nonces.step, ha, Option.some_or]
      exact ⟨hi.key_eq, hi.drawn_lt, hi.replies_eq, hi.session_eq, fun n' hn' => hi.accepted_mem n' (ha ▸ hn'),
        Or.inr (Or.inr ⟨n, rfl, hc⟩)⟩

theorem Handshake.Inv.run {m : Meeting} {h : Handshake} {s : Nonces} (hi : h.Inv m s) (events : List Handshake.Event) :
    (h.run m events).Inv m (events.foldl Nonces.step s) := by
  induction events generalizing h s with
  | nil => exact hi
  | cons e events ih => exact ih (hi.step e)

/-- The sides agree exactly if the accepted reply belongs to a copy with the last nonce. -/
theorem handshake_agrees_iff (m : Meeting) (events : List Handshake.Event) (b : UdpBackend)
    (hret : (m.start.run m events).returned m = some b) :
    Agree (m.start.run m events).server b ↔ (nonces events).accepted = (nonces events).drawn.getLast? := by
  have hi : (m.start.run m events).Inv m (nonces events) := m.inv_start.run events
  generalize m.start.run m events = h at hi hret
  rcases hi.client_eq with ⟨e, hc⟩ | ⟨-, k, hc⟩ | ⟨n, ha, hc⟩
  · simp [Handshake.returned, hc] at hret
  · simp [Handshake.returned, hc] at hret
  have hmem := hi.accepted_mem n ha
  have hn := hi.drawn_lt n hmem
  simp only [Handshake.returned, hc, finish_reply m hn, Option.some.injEq] at hret
  subst hret
  obtain ⟨l, hl⟩ : ∃ l, (nonces events).drawn.getLast? = some l := by
    cases hlast : (nonces events).drawn.getLast? with
    | none => rw [List.getLast?_eq_none_iff.mp hlast] at hmem; cases hmem
    | some l => exact ⟨l, rfl⟩
  have hll : l < 256 ^ 4 := hi.drawn_lt l (List.mem_of_getLast? hl)
  rw [ha, hl, Option.some.injEq]
  constructor
  · rintro ⟨session, hs, -, hk⟩
    rw [hi.session_eq l hl] at hs
    obtain rfl := Option.some.inj hs
    exact deriveSessionKey_inj hn hll (Option.some.inj hk).symm
  · rintro rfl
    exact ⟨_, hi.session_eq n hl, rfl, rfl⟩

/-! ## Two copies -/

def quietBackend : Backend where
  getStatus := .error .other
  getCapabilities := .error .other
  captureScreen := .error .other
  captureGraphics := .error .other
  sendKeys := fun _ _ _ _ => .error .other
  downloadFile := fun _ => .error .other
  uploadFile := fun _ _ _ => .error .other

def zeroKey : Key := ⟨List.replicate 16 0, zeros_length⟩

def plainMeeting : Meeting where
  server := .start zeroKey false
  client := ⟨("10.0.0.1", 21300), zeroKey, 3, false, false, 0, none, 1, false⟩
  address := ("10.0.0.2", 40000)
  clientNonce := 0
  key_eq := rfl
  clientNonce_lt := nonce_zero

/-- One copy, one reply: the sides agree. -/
theorem handshake_agrees_single :
    ∃ b, (plainMeeting.start.run plainMeeting [.hello ⟨quietBackend, 7, 0⟩, .reply 0]).returned plainMeeting = some b ∧
      Agree (plainMeeting.start.run plainMeeting [.hello ⟨quietBackend, 7, 0⟩, .reply 0]).server b := by
  have hsome : ((plainMeeting.start.run plainMeeting [.hello ⟨quietBackend, 7, 0⟩, .reply 0]).returned
      plainMeeting).isSome = true := by decide +kernel
  obtain ⟨b, hb⟩ := Option.isSome_iff_exists.mp hsome
  exact ⟨b, hb, (handshake_agrees_iff plainMeeting _ b hb).mpr (by decide +kernel)⟩

/-- The deadline passes, the HELLO is sent again, and both copies are processed before the
    reply to the first one arrives. -/
def twoCopies : List Handshake.Event :=
  [.timeout, .hello ⟨quietBackend, 1, 0⟩, .hello ⟨quietBackend, 2, 0⟩, .reply 0]

/-- `_handshake` has returned and no copy is left, but the server holds another session. -/
theorem two_copies_disagree :
    ((plainMeeting.start.run plainMeeting twoCopies).returned plainMeeting).map (·.sessionId) = some 1 ∧
      (plainMeeting.start.run plainMeeting twoCopies).server.session.map (·.sessionId) = some 2 ∧
      ∀ b, (plainMeeting.start.run plainMeeting twoCopies).returned plainMeeting = some b →
        ¬ Agree (plainMeeting.start.run plainMeeting twoCopies).server b := by
  have h1 : ((plainMeeting.start.run plainMeeting twoCopies).returned plainMeeting).map (·.sessionId) = some 1 := by
    decide +kernel
  have h2 : (plainMeeting.start.run plainMeeting twoCopies).server.session.map (·.sessionId) = some 2 := by
    decide +kernel
  refine ⟨h1, h2, ?_⟩
  rintro b hb ⟨session, hs, hid, -⟩
  rw [hb] at h1
  rw [hs] at h2
  simp only [Option.map_some, Option.some.injEq] at h1 h2
  omega

end DosMcp
