/-
  DosMcp.System.AtMostOnce — one session of the agent server under a lossy, reordering,
  duplicating network: how often a request is dispatched.

  A run starts with the one HELLO of the session (`Opening`). The client then issues
  requests under advancing IDs, and the network delivers any datagram the client has
  sent, at any time and any number of times (`Event`). `Net.log` records what `_dispatch`
  was run for.

  - `late_copies_dispatch_again`: the replay guard does not give at-most-once. The reply
    to a refused replay goes through `_send_response`, which records the stale ID as the
    last one; a late copy of a request between the two is then newer, no longer cached,
    and dispatched again.
  - `dispatch_at_most_once`: in every run in which no delivered datagram is refused as a
    replay (and no text screen exceeds a message, which would raise before the reply is
    recorded) each request ID is dispatched at most once.
-/

import DosMcp.Client.UdpProofs
import DosMcp.Server.AgentProofs

namespace DosMcp

open Lib

/-! ## Runs -/

/-- The handshake of a session: the server it meets and the HELLO of the client. -/
structure Opening where
  server : UdpAgentServer
  env : Env
  address : Address
  requestId : Nat
  clientNonce : Nat
  requestId_range : 1 ≤ requestId ∧ requestId ≤ 0xFFFF
  clientNonce_lt : clientNonce < 256 ^ 4

/-- The HELLO packet of `_handshake`. -/
def Opening.hello (o : Opening) : Packet where
  kind := .request
  opcode := .hello
  sessionId := 0
  requestId := o.requestId
  fragmentIndex := 0
  fragmentCount := 1
  payload := leBytes 4 o.clientNonce
  flags := 0
  flags_zero := Packet.flags_none
  sessionId_le := Packet.session_none
  requestId_le := o.requestId_range.2
  fragmentCount_range := Packet.single_range
  fragmentIndex_lt := Packet.single_index
  payload_le := by simp [maxFragmentPayload]

def Opening.sessionId (o : Opening) : Nat := helloSessionId o.clientNonce o.env.serverNonce

def Opening.key (o : Opening) : Key := deriveSessionKey o.server.key o.clientNonce o.env.serverNonce

structure Net where
  server : UdpAgentServer
  requestId : Nat
  issued : Nat
  sent : List Bytes
  log : List Dispatch

def Opening.start (o : Opening) : Net where
  server := (o.server.handleDatagram o.env (dosTransportDatagram (o.hello.encode o.server.key)) o.address).server
  requestId := o.requestId
  issued := 0
  sent := []
  log := []

inductive Event where
  /-- `_request`: the next ID, fragments, first transmission. -/
  | issue (opcode : Opcode) (payload : Bytes)
  /-- The network hands the server the `index`-th datagram the client has sent. -/
  | deliver (env : Env) (index : Nat)

def Net.step (o : Opening) (n : Net) : Event → Net
  | .issue opcode payload =>
    let id := nextRequestId n.requestId
    { n with requestId := id, issued := n.issued + 1,
             sent := n.sent ++ issueDatagrams o.key o.sessionId id opcode payload }
  | .deliver env index =>
    match n.sent[index]? with
    | none => n
    | some d =>
      let r := n.server.handleDatagram env d o.address
      { n with server := r.server, log := n.log ++ r.dispatched.toList }

def Net.run (o : Opening) (n : Net) (events : List Event) : Net := events.foldl (Net.step o) n

def Net.executed (n : Net) : List Nat := n.log.map Dispatch.requestId

/-! ## The condition -/

/-- The session's replay check refuses the datagram: its ID is neither cached nor newer. -/
def UdpAgentServer.refusesDatagram (s : UdpAgentServer) (d : Bytes) : Bool :=
  match s.session with
  | none => false
  | some session => match Packet.decode d session.key with
    | .error _ => false
    | .ok packet => !session.responseCache.has packet.requestId && session.refuses packet.requestId

def Net.clean (n : Net) : Event → Bool
  | .issue _ _ => true
  | .deliver env index => env.screenFits && match n.sent[index]? with
    | none => true
    | some d => !n.server.refusesDatagram d

/-- No step of the run is a refused replay or an oversized screen. -/
def cleanRun (o : Opening) : Net → List Event → Bool
  | _, [] => true
  | n, e :: es => n.clean e && cleanRun o (n.step o e) es

/-! ## Request IDs -/

theorem requestIsNewer_eq (c p : Nat) : requestIsNewer c p = Serial.newer 0x10000 c p := by
  simp only [requestIsNewer, Serial.newer, decide_eq_decide]
  omega

/-! ## The session of a run -/

/-- A datagram of the session: a request packet under the `k`-th issued ID. -/
def SentAs (o : Opening) (k : Nat) (d : Bytes) : Prop :=
  ∃ p : Packet, d = dosTransportDatagram (p.encode o.key) ∧ p.kind = .request ∧ p.sessionId = o.sessionId ∧
    p.requestId = Serial.stamp 0x10000 (o.requestId - 1) k

structure Net.Inv (o : Opening) (n : Net) : Prop where
  requestId_eq : n.requestId = Serial.stamp 0x10000 (o.requestId - 1) n.issued
  sent_as : ∀ d ∈ n.sent, ∃ k, 1 ≤ k ∧ k ≤ n.issued ∧ SentAs o k d
  guarded : ∃ session, n.server.session = some session ∧ session.address = o.address ∧
    session.sessionId = o.sessionId ∧ session.key = o.key ∧
      Serial.Guarded 0x10000 (o.requestId - 1) n.issued session.lastRequestId n.executed

/-- The HELLO installs the session the client computes from the response. -/
theorem Opening.start_session (o : Opening) :
    o.start.server.session = some (.fresh o.address o.sessionId o.key) := by
  have hd := dosTransport_decode o.hello o.server.key
  have hp : HelloRequest.decode o.hello.payload = .ok ⟨o.clientNonce⟩ := HelloRequest.decode_leBytes o.clientNonce_lt
  rw [Opening.start, handleDatagram_hello o.env o.address hd (dosTransport_length _ _) rfl rfl rfl,
    handleHello_eq o.env o.address hd hp]
  rfl

theorem Opening.inv_start (o : Opening) : Net.Inv o o.start where
  requestId_eq := by
    have h := o.requestId_range
    rw [Serial.stamp, show o.start.issued = 0 from rfl, show o.start.requestId = o.requestId from rfl,
      Nat.mod_eq_of_lt (by omega)]
    omega
  sent_as := fun d h => absurd h List.not_mem_nil
  guarded := ⟨_, o.start_session, rfl, rfl, rfl, Serial.guarded_nil _ _ _⟩

theorem issueDatagrams_sentAs {o : Opening} {k : Nat} {opcode : Opcode} {payload d : Bytes}
    (h : d ∈ issueDatagrams o.key o.sessionId (Serial.stamp 0x10000 (o.requestId - 1) k) opcode payload) :
    SentAs o k d := by
  obtain ⟨p, hd, hp⟩ := mem_issueDatagrams h
  exact ⟨p, hd, hp.kind_eq, hp.sessionId_eq, hp.requestId_eq⟩

theorem Net.step_issued (o : Opening) (n : Net) (e : Event) : n.issued ≤ (n.step o e).issued := by
  cases e with
  | issue opcode payload => exact Nat.le_succ _
  | deliver env index =>
    simp only [Net.step]
    split <;> exact Nat.le_refl _

/-- One step keeps the invariant when it is no refused replay. -/
theorem Net.Inv.step {o : Opening} {n : Net} (h : n.Inv o) {e : Event} (hclean : n.clean e = true)
    (hwin : (n.step o e).issued < 0x8000) : (n.step o e).Inv o := by
  have hwin : n.issued < 0x8000 := Nat.lt_of_le_of_lt (n.step_issued o e) hwin
  cases e with
  | issue opcode payload =>
    have hid : nextRequestId n.requestId = Serial.stamp 0x10000 (o.requestId - 1) (n.issued + 1) := by
      rw [nextRequestId_eq, h.requestId_eq, Serial.next_stamp (by decide)]
    refine ⟨hid, fun d hd => ?_, ?_⟩
    · rcases List.mem_append.mp hd with hd | hd
      · obtain ⟨k, h1, h2, h3⟩ := h.sent_as d hd
        exact ⟨k, h1, Nat.le_succ_of_le h2, h3⟩
      · rw [hid] at hd
        exact ⟨n.issued + 1, Nat.le_add_left _ _, Nat.le_refl _, issueDatagrams_sentAs hd⟩
    · obtain ⟨session, h1, h2, h3, h4, h5⟩ := h.guarded
      exact ⟨session, h1, h2, h3, h4, h5.issue⟩
  | deliver env index =>
    simp only [Net.step, Net.clean, Bool.and_eq_true] at hclean ⊢
    split
    · exact h
    rename_i d hd
    simp only [hd, Bool.not_eq_true'] at hclean
    obtain ⟨session, hs, haddr, hsid, hkey, hguard⟩ := h.guarded
    obtain ⟨k, hk1, hk2, p, rfl, hkind, hpsid, hpid⟩ := h.sent_as d (List.mem_of_getElem? hd)
    have hdec := dosTransport_decode p o.key
    have hsne : session.sessionId ≠ 0 := by
      have := helloSessionId_range o.clientNonce o.env.serverNonce
      rw [hsid, Opening.sessionId]
      omega
    have hhandle := handleDatagram_session hs env (by rw [hkey]; exact hdec) (dosTransport_length p o.key) hkind
      (hpsid.trans hsid.symm) hsne
    have hrefuse := hclean.2
    simp only [UdpAgentServer.refusesDatagram, hs, hkey, hdec, Bool.and_eq_false_iff, Bool.not_eq_false'] at hrefuse
    rw [haddr] at hhandle
    rw [hhandle]
    have hsle : session.sessionId ≤ 0xFFFF := hpsid.trans hsid.symm ▸ p.sessionId_le
    rcases handlePacket_cases n.server session env p with ⟨-, e⟩ | ⟨hc, hr, -⟩ | ⟨-, -, table, e⟩ | ⟨-, hr, table, payload, hlen, e⟩
    · -- answered from the cache
      rw [e]
      exact ⟨h.requestId_eq, h.sent_as, session, hs, haddr, hsid, hkey, by
        simpa [Net.executed, UdpAgentServer.sendCached] using hguard⟩
    · -- refused: excluded
      rw [hc, hr] at hrefuse
      simp at hrefuse
    · -- a fragment is stored
      rw [e]
      exact ⟨h.requestId_eq, h.sent_as, _, rfl, haddr, hsid, hkey, by
        simpa [Net.executed, UdpAgentServer.idle] using hguard⟩
    · -- dispatched: the ID is newer than the last one
      rw [e]
      obtain ⟨hd1, -, -, encoded, hrec⟩ := dispatch_recorded
        (s := { n.server with session := some { session with pending := table } })
        { session with pending := table } hclean.1 p.opcode hsle p.requestId_le hlen
      refine ⟨h.requestId_eq, h.sent_as, _, hrec, haddr, hsid, hkey, ?_⟩
      have hnew : ∀ l, session.lastRequestId = some l →
          Serial.newer 0x10000 (Serial.stamp 0x10000 (o.requestId - 1) k) l = true := by
        intro l hl
        rw [← hpid, ← requestIsNewer_eq]
        simpa [Session.refuses, hl] using hr
      have hexec := hguard.execute (by decide) (by omega) ⟨hk1, hk2⟩ hnew
      rw [← hpid] at hexec
      simpa [Net.executed, hd1, Session.record] using hexec

theorem Net.run_issued (o : Opening) (n : Net) (events : List Event) : n.issued ≤ (n.run o events).issued := by
  induction events generalizing n with
  | nil => exact Nat.le_refl _
  | cons e events ih => exact Nat.le_trans (n.step_issued o e) (ih _)

theorem Net.Inv.run {o : Opening} {n : Net} (h : n.Inv o) {events : List Event} (hclean : cleanRun o n events = true)
    (hwin : (n.run o events).issued < 0x8000) : (n.run o events).Inv o := by
  induction events generalizing n with
  | nil => exact h
  | cons e events ih =>
    simp only [cleanRun, Bool.and_eq_true] at hclean
    have hstep := Net.run_issued o (n.step o e) events
    exact ih (h.step hclean.1 (Nat.lt_of_le_of_lt hstep hwin)) hclean.2 hwin

/-- Without refused replays every request is dispatched at most once. -/
theorem dispatch_at_most_once (o : Opening) (events : List Event) (hclean : cleanRun o o.start events = true)
    (hwin : (o.start.run o events).issued < 0x8000) : (o.start.run o events).executed.Nodup := by
  obtain ⟨session, -, -, -, -, hguard⟩ := (o.inv_start.run hclean hwin).guarded
  exact hguard.nodup (by decide) (by omega)

/-! ## Late copies -/

/-- A backend that accepts every key and nothing else. -/
def keyboardBackend : Backend where
  getStatus := .error .other
  getCapabilities := .error .other
  captureScreen := .error .other
  captureGraphics := .error .other
  sendKeys := fun text keys _ _ => .ok ⟨text.length, keys.length, 0⟩
  downloadFile := fun _ => .error .other
  uploadFile := fun _ _ _ => .error .other

def keyboardEnv : Env := ⟨keyboardBackend, 1, 0⟩

def keyboardOpening : Opening where
  server := .start ⟨List.replicate 16 0, zeros_length⟩ false
  env := keyboardEnv
  address := ("10.0.0.2", 40000)
  requestId := 1
  clientNonce := 0
  requestId_range := by decide
  clientNonce_lt := nonce_zero

/-- `SEND_KEYS` with the text `A`. -/
def typeA : Event := .issue .sendKeys [1, 0, 0, 0, 0, 0x41]

/-- A request that meets its own copy is answered from the cache. -/
theorem dispatch_at_most_once_retry :
    (keyboardOpening.start.run keyboardOpening
      [typeA, .deliver keyboardEnv 0, .deliver keyboardEnv 0, typeA, .deliver keyboardEnv 1]).executed.Nodup :=
  dispatch_at_most_once keyboardOpening _ (by decide +kernel) (by decide +kernel)

/-- Five requests, each executed in order; then late copies of the first and the second. -/
def lateCopies : List Event :=
  [typeA, .deliver keyboardEnv 0, typeA, .deliver keyboardEnv 1, typeA, .deliver keyboardEnv 2, typeA,
    .deliver keyboardEnv 3, typeA, .deliver keyboardEnv 4, .deliver keyboardEnv 0, .deliver keyboardEnv 1]

/-- The refused copy of the first request makes the copy of the second one execute again. -/
theorem late_copies_dispatch_again :
    (keyboardOpening.start.run keyboardOpening lateCopies).issued < 0x8000 ∧
      (keyboardOpening.start.run keyboardOpening lateCopies).executed = [2, 3, 4, 5, 6, 3] ∧
      ¬ (keyboardOpening.start.run keyboardOpening lateCopies).executed.Nodup := by
  have h : (keyboardOpening.start.run keyboardOpening lateCopies).executed = [2, 3, 4, 5, 6, 3] := by decide +kernel
  exact ⟨by decide +kernel, h, by rw [h]; decide⟩

end DosMcp
