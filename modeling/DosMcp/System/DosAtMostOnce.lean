/-
  DosMcp.System.DosAtMostOnce — one session of a DOS agent, RAGENT or RA-TSR, under a lossy,
  reordering, duplicating network: how often a request is processed.

  A run starts when `process_hello` has opened the session (`DosOpening`). The client then
  issues requests under advancing IDs, the network puts any datagram the client has sent
  into the receive buffer, at any time and any number of times, and the agent runs
  (`DosEvent`): a worker entry of RA-TSR, a turn of RAGENT's main loop.

  - `refused_copy_reprocesses`: the replay check does not give at-most-once. `send_error`
    answers a refused copy through `send_response`, which makes the stale ID the last one;
    a late copy of a request between the two is then newer and is processed again.
  - `process_request_at_most_once`: in every run in which no datagram is refused each request
    ID is processed at most once, in both builds.
-/

import DosMcp.Client.UdpProofs
import DosMcp.Dos.ProtoProofs
import DosMcp.Dos.WorkerProofs

namespace DosMcp.Dos

open Lib

/-! ## Runs -/

/-- The handshake of a session: the agent it meets and the HELLO of the client. -/
structure DosOpening where
  build : Build
  config : Config
  state : State
  peer : Peer
  hello : DmPacket
  payloadLength_eq : hello.payloadLength = 4
  fragmentCount_eq : hello.fragmentCount = 1
  requestId_pos : hello.requestId ≠ 0

/-- The agent when `process_hello` has returned and the receive buffer is free again. -/
def DosOpening.opened (o : DosOpening) : State :=
  { (processHello o.build o.config o.state o.hello o.peer).release with requests := [] }

def DosOpening.sessionId (o : DosOpening) : UInt16 :=
  helloSessionId (dmGetU32 o.hello.payload 0) o.state.machine.makeNonce

def DosOpening.key (o : DosOpening) : Key :=
  ⟨dmDeriveSessionKey o.config.baseKey (dmGetU32 o.hello.payload 0) o.state.machine.makeNonce, rfl⟩

structure DosNet where
  state : State
  requestId : Nat
  issued : Nat
  sent : List Bytes

def DosOpening.start (o : DosOpening) : DosNet := ⟨o.opened, o.hello.requestId.toNat, 0, []⟩

inductive DosEvent where
  /-- `_request`: the next ID, fragments, first transmission. -/
  | issue (opcode : Opcode) (payload : Bytes) (notHello : opcode ≠ .hello)
  /-- The `index`-th datagram the client has sent arrives at the agent. -/
  | arrive (index : Nat)
  /-- The agent runs. -/
  | work (e : Entry)

/-- The agent's next step: a worker entry, or a turn of the main loop. -/
def runAgent (b : Build) (c : Config) (s : State) (e : Entry) : State :=
  match b with
  | .ratsr => ratsrIdleWorker c s e
  | .ragent => ragentTurn c s e.machine

def DosNet.step (o : DosOpening) (n : DosNet) : DosEvent → DosNet
  | .issue opcode payload _ =>
    let id := nextRequestId n.requestId
    { n with requestId := id, issued := n.issued + 1
             sent := n.sent ++ issueDatagrams o.key o.sessionId.toNat id opcode payload }
  | .arrive index => match n.sent[index]? with
    | none => n
    | some d => { n with state := arrive n.state ⟨d, o.peer⟩ }
  | .work e => { n with state := runAgent o.build o.config n.state e }

def DosNet.run (o : DosOpening) (n : DosNet) (events : List DosEvent) : DosNet := events.foldl (DosNet.step o) n

/-- The IDs `process_request` was called for. -/
def State.executed (s : State) : List Nat := s.requests.map fun r => r.id.toNat

/-! ## The condition -/

/-- The replay check refuses the datagram: its ID is neither the last one nor newer. -/
def State.refusesDatagram (s : State) (d : Datagram) : Bool :=
  s.session.active && match dmPacketDecode d.payload s.session.key with
    | .error _ => false
    | .ok packet => s.session.refuses packet.requestId

/-- The step of the agent meets a datagram it refuses. -/
def refusesAt (b : Build) (c : Config) (s : State) (e : Entry) : Bool :=
  match b with
  | .ratsr => ((polledDatagram c s e).map (beforePoll c s e).refusesDatagram).getD false
  | .ragent => (s.slot.map s.refusesDatagram).getD false

/-- No step of the run refuses a datagram. -/
def noRefusal (o : DosOpening) : DosNet → List DosEvent → Bool
  | _, [] => true
  | n, .work e :: events => !refusesAt o.build o.config n.state e && noRefusal o (n.step o (.work e)) events
  | n, event :: events => noRefusal o (n.step o event) events

/-! ## The session of a run -/

theorem requestIsNewer_toNat (a b : UInt16) : requestIsNewer a b = Serial.newer 0x10000 a.toNat b.toNat := by
  have ha := a.toNat_lt
  have hb := b.toNat_lt
  simp only [requestIsNewer, Serial.newer, decide_eq_decide, ne_eq, ← UInt16.toNat_inj, UInt16.lt_iff_toNat_lt,
    UInt16.toNat_sub, UInt16.reduceToNat]
  omega

/-- A datagram of the session: a request packet under the `k`-th issued ID. -/
def DosSentAs (o : DosOpening) (k : Nat) (d : Bytes) : Prop :=
  ∃ p : Packet, d = dosTransportDatagram (p.encode o.key) ∧ p.kind = .request ∧ p.opcode ≠ .hello ∧
    p.sessionId = o.sessionId.toNat ∧ p.requestId = Serial.stamp 0x10000 (o.hello.requestId.toNat - 1) k

/-- The agent's side of the session after `issued` requests. -/
structure Serving (o : DosOpening) (issued : Nat) (s : State) : Prop where
  slot_sent : ∀ d, s.slot = some d → d.peer = o.peer ∧ ∃ k, 1 ≤ k ∧ k ≤ issued ∧ DosSentAs o k d.payload
  guarded : ∃ last, Serial.Guarded 0x10000 (o.hello.requestId.toNat - 1) issued last s.executed ∧
    (s.session.active = true → s.session.id = o.sessionId ∧ s.session.key = o.key.bytes ∧ s.session.peer = o.peer ∧
      last = s.session.last.map UInt16.toNat)

structure DosNet.Inv (o : DosOpening) (n : DosNet) : Prop where
  requestId_eq : n.requestId = Serial.stamp 0x10000 (o.hello.requestId.toNat - 1) n.issued
  sent_as : ∀ d ∈ n.sent, ∃ k, 1 ≤ k ∧ k ≤ n.issued ∧ DosSentAs o k d
  serving : Serving o n.issued n.state

theorem DosOpening.opened_session (o : DosOpening) :
    o.opened.slot = none ∧ o.opened.requests = [] ∧ o.opened.session.id = o.sessionId ∧
      o.opened.session.key = o.key.bytes ∧ o.opened.session.peer = o.peer ∧ o.opened.session.last = none := by
  have hpass : ¬ (o.hello.payloadLength ≠ 4 ∨ o.hello.fragmentCount ≠ 1) := by
    simp [o.payloadLength_eq, o.fragmentCount_eq]
  unfold DosOpening.opened processHello
  rw [if_neg hpass]
  dsimp only
  split <;> exact ⟨rfl, rfl, rfl, rfl, rfl, rfl⟩

theorem DosOpening.inv_start (o : DosOpening) : DosNet.Inv o o.start where
  requestId_eq := by
    have hpos : o.hello.requestId.toNat ≠ 0 := fun h => o.requestId_pos (UInt16.toNat_inj.mp h)
    have hlt := o.hello.requestId.toNat_lt
    rw [Serial.stamp, show o.start.issued = 0 from rfl, show o.start.requestId = o.hello.requestId.toNat from rfl,
      Nat.mod_eq_of_lt (by omega)]
    omega
  sent_as := fun d h => absurd h List.not_mem_nil
  serving := by
    obtain ⟨hslot, hrequests, hid, hkey, hpeer, hlast⟩ := o.opened_session
    refine ⟨fun d h => ?_, none, ?_, fun _ => ⟨hid, hkey, hpeer, ?_⟩⟩
    · rw [show o.start.state = o.opened from rfl, hslot] at h
      cases h
    · rw [State.executed, show o.start.state = o.opened from rfl, hrequests]
      exact Serial.guarded_nil _ _ _
    · rw [show o.start.state = o.opened from rfl, hlast]
      rfl

/-! ## Steps -/

/-- What the agent decodes from a datagram of the session. -/
structure Heard (o : DosOpening) (d : Datagram) (p : DmPacket) : Prop where
  decode_eq : dmPacketDecode d.payload o.key.bytes = .ok p
  peer_eq : d.peer = o.peer
  kind_eq : p.kind = dmKindRequest
  opcode_ne : p.opcode ≠ dmOpHello
  sessionId_eq : p.sessionId = o.sessionId

theorem heard_ofPacket {o : DosOpening} {d : Datagram} {p : Packet} (hd : d.payload = dosTransportDatagram (p.encode o.key))
    (hpeer : d.peer = o.peer) (hkind : p.kind = .request) (hhello : p.opcode ≠ .hello) (hsid : p.sessionId = o.sessionId.toNat) :
    Heard o d (ofPacket p) := by
  obtain ⟨ekind, eopcode, -, esid, -, -, -, -⟩ := ofPacket_values p
  have hdecode := dmPacketDecode_of_decode (dosTransport_decode p o.key)
  rw [← hd] at hdecode
  refine ⟨hdecode, hpeer, ?_, fun heq => ?_, UInt16.toNat_inj.mp (esid.trans hsid)⟩
  · apply UInt8.toNat_inj.mp
    rw [ekind, hkind]
    rfl
  · rw [heq] at eopcode
    exact hhello (Opcode.value_inj (eopcode.symm.trans rfl))

/-- Without a session a datagram of the client is not looked at. -/
theorem Heard.inactive {o : DosOpening} {d : Datagram} {p : DmPacket} (h : Heard o d p) {s : State}
    (hactive : s.session.active = false) (b : Build) (c : Config) : processDatagram b c s d = s := by
  have hbyte : byteAt d.payload 4 ≠ dmOpHello := by
    rw [← (dmPacketDecode_opcode h.decode_eq).1]
    exact h.opcode_ne
  have hkey : s.datagramKey c d.payload = none := by
    rw [State.datagramKey, if_pos ⟨dmPacketDecode_length h.decode_eq, hbyte⟩, if_neg (by simp [hactive])]
  simp only [processDatagram, hkey]

/-- In the session it reaches the replay check. -/
theorem Heard.active {o : DosOpening} {d : Datagram} {p : DmPacket} (h : Heard o d p) {s : State}
    (hactive : s.session.active = true) (hid : s.session.id = o.sessionId) (hkey : s.session.key = o.key.bytes)
    (hpeer : s.session.peer = o.peer) (b : Build) (c : Config) :
    processDatagram b c s d = processSessionPacket b c (s.heard p) p :=
  processDatagram_session hactive (dmPacketDecode_length h.decode_eq) (hkey ▸ h.decode_eq) h.kind_eq h.opcode_ne
    (h.sessionId_eq.trans hid.symm) (h.peer_eq.trans hpeer.symm)

section

variable {o : DosOpening} {issued : Nat} {s t : State}

/-- A step that processes nothing keeps what is served. -/
theorem Serving.keep (h : Serving o issued s) (hslot : t.slot = s.slot ∨ t.slot = none) (hrequests : t.requests = s.requests)
    (hsession : t.session.active = true → s.session.active = true ∧ t.session.id = s.session.id ∧
      t.session.key = s.session.key ∧ t.session.peer = s.session.peer ∧ t.session.last = s.session.last) :
    Serving o issued t := by
  refine ⟨fun d hd => ?_, ?_⟩
  · rcases hslot with e | e <;> rw [e] at hd
    · exact h.slot_sent d hd
    · cases hd
  · obtain ⟨last, hguard, hsame⟩ := h.guarded
    refine ⟨last, ?_, fun hactive => ?_⟩
    · rwa [State.executed, hrequests]
    · obtain ⟨ha, hid, hkey, hpeer, hlast⟩ := hsession hactive
      obtain ⟨h1, h2, h3, h4⟩ := hsame ha
      exact ⟨hid.trans h1, hkey.trans h2, hpeer.trans h3, by rw [hlast]; exact h4⟩

theorem Serving.quiet (h : Serving o issued s) (hq : Quiet s t) : Serving o issued t :=
  h.keep (Or.inl hq.slot_eq) hq.requests_eq fun hactive =>
    ⟨hq.active_eq ▸ hactive, hq.id_eq, hq.key_eq, hq.peer_eq, hq.last_eq⟩

theorem Serving.release (h : Serving o issued s) : Serving o issued s.release :=
  h.keep (Or.inr rfl) rfl fun hactive => ⟨hactive, rfl, rfl, rfl, rfl⟩

theorem Serving.operated (h : Serving o issued s) (hop : Operated s t) : Serving o issued t :=
  h.keep (Or.inl hop.slot_eq) hop.requests_eq fun hactive => by
    rw [hop.session_eq] at hactive ⊢
    exact ⟨hactive, rfl, rfl, rfl, rfl⟩

theorem Serving.beforePoll (h : Serving o issued s) (c : Config) (e : Entry) : Serving o issued (beforePoll c s e) := by
  obtain ⟨-, hslot, hrequests, -, -⟩ := beforePoll_session c s e
  refine h.keep (Or.inl hslot) hrequests fun hactive => ?_
  rcases beforePoll_active c s e with e | e
  · rw [e] at hactive ⊢
    exact ⟨hactive, rfl, rfl, rfl, rfl⟩
  · rw [e] at hactive
    cases hactive

/-- A datagram of the client that is not refused. -/
theorem Serving.process {b : Build} {c : Config} (h : Serving o issued s) {d : Datagram} (hslot : s.slot = some d)
    (hwin : issued < 0x8000) (hrefuse : s.refusesDatagram d = false) :
    Serving o issued (processDatagram b c s d) := by
  obtain ⟨hpeer, k, hk1, hk2, p, hd, hkind, hhello, hpsid, hpid⟩ := h.slot_sent d hslot
  have erid := (ofPacket_values p).2.2.2.2.1
  have hheard : Heard o d (ofPacket p) := heard_ofPacket hd hpeer hkind hhello hpsid
  cases hactive : s.session.active with
  | false =>
    -- the session has expired: the datagram is not looked at
    rw [hheard.inactive hactive]
    exact h
  | true =>
    obtain ⟨last, hguard, hsame⟩ := h.guarded
    obtain ⟨hid, hkey, hspeer, hlast⟩ := hsame hactive
    rw [hheard.active hactive hid hkey hspeer]
    have hdecode := hheard.decode_eq
    have hrange := (dmPacketDecode_opcode hdecode).2
    simp only [State.refusesDatagram, hactive, hkey, hdecode, Bool.true_and] at hrefuse
    rcases processSessionPacket_cases b c (s.heard (ofPacket p)) (ofPacket p) with ⟨-, e⟩ | ⟨hr, -⟩ | ⟨hnewer, hrest⟩
    · rw [e]
      exact (h.quiet (heard_quiet s _)).quiet (resendCached_quiet b _)
    · have hr' : s.session.refuses (ofPacket p).requestId = true := hr
      rw [hrefuse] at hr'
      cases hr'
    rcases hrest with ⟨-, e⟩ | ⟨payload, -, e⟩
    · rw [e]
      exact (h.quiet (heard_quiet s _)).quiet (storeFragment_quiet _ _)
    · -- processed: the ID is newer than the last one
      rw [e]
      have hdone := processRequest_processed b c ((s.heard (ofPacket p)).storeFragment (ofPacket p)) hrange
        (ofPacket p).requestId payload
      have hq : Quiet s ((s.heard (ofPacket p)).storeFragment (ofPacket p)) := by
        obtain ⟨reassembly, workspace, estore⟩ := storeFragment_session (s.heard (ofPacket p)) (ofPacket p)
        rw [estore]
        exact ⟨rfl, rfl, rfl, rfl, rfl, rfl, rfl, rfl⟩
      have hnew : ∀ l, last = some l → Serial.newer 0x10000 (Serial.stamp 0x10000 (o.hello.requestId.toNat - 1) k) l = true := by
        intro l hl
        rw [hlast, Option.map_eq_some_iff] at hl
        obtain ⟨l', hl', rfl⟩ := hl
        rw [← hpid, ← erid, ← requestIsNewer_toNat]
        exact hnewer l' hl'
      have hexec := hguard.execute (by decide) (by omega) ⟨hk1, hk2⟩ hnew
      rw [← hpid, ← erid] at hexec
      refine ⟨fun d' hd' => ?_, some (ofPacket p).requestId.toNat, ?_, fun _ => ⟨?_, ?_, ?_, ?_⟩⟩
      · rw [hdone.slot_eq, hq.slot_eq] at hd'
        exact h.slot_sent d' hd'
      · rw [State.executed, hdone.requests_eq, hq.requests_eq, List.map_append]
        exact hexec
      · rw [hdone.id_eq, hq.id_eq, hid]
      · rw [hdone.key_eq, hq.key_eq, hkey]
      · rw [hdone.peer_eq, hq.peer_eq, hspeer]
      · simp [AgentSession.last, hdone.hasLastRequest_eq, hdone.lastRequestId_eq]

theorem Serving.runAgent (h : Serving o issued s) (hwin : issued < 0x8000) {b : Build} {c : Config} {e : Entry}
    (hrefuse : refusesAt b c s e = false) : Serving o issued (runAgent b c s e) := by
  cases b with
  | ratsr =>
    simp only [Dos.runAgent]
    rcases ratsrIdleWorker_cases c s e with ⟨-, -, hw⟩ | ⟨-, t, hquiet, hw⟩ | ⟨d, hpolled, hslot, hw⟩
    · rw [hw]
      exact h
    · rcases hw with hw | hw <;> rw [hw]
      · exact (h.beforePoll c e).quiet hquiet
      · exact ((h.beforePoll c e).quiet hquiet).release
    · rw [hw]
      refine ((h.beforePoll c e).process ?_ hwin ?_).release
      · rw [(beforePoll_session c s e).2.1, hslot]
      · simpa [refusesAt, hpolled] using hrefuse
  | ragent =>
    simp only [Dos.runAgent, ragentTurn]
    have hm : Serving o issued { s with machine := e.machine } := h.operated ⟨rfl, rfl, rfl, rfl, rfl, rfl, rfl, rfl⟩
    refine Serving.operated ?_ (processShellKeyboard_operated c _)
    split
    · exact hm
    · rename_i d hslot
      refine (hm.process hslot hwin ?_).release
      have hslot' : s.slot = some d := hslot
      have href : s.refusesDatagram d = false := by simpa [refusesAt, hslot'] using hrefuse
      exact href

end

/-! ## Whole runs -/

theorem issueDatagrams_dosSentAs {o : DosOpening} {k : Nat} {opcode : Opcode} {payload d : Bytes} (hhello : opcode ≠ .hello)
    (h : d ∈ issueDatagrams o.key o.sessionId.toNat (Serial.stamp 0x10000 (o.hello.requestId.toNat - 1) k) opcode payload) :
    DosSentAs o k d := by
  obtain ⟨p, hd, hp⟩ := mem_issueDatagrams h
  exact ⟨p, hd, hp.kind_eq, hp.opcode_eq ▸ hhello, hp.sessionId_eq, hp.requestId_eq⟩

theorem DosNet.step_issued (o : DosOpening) (n : DosNet) (e : DosEvent) : n.issued ≤ (n.step o e).issued := by
  cases e with
  | issue opcode payload notHello => exact Nat.le_succ _
  | arrive index =>
    simp only [DosNet.step]
    split <;> exact Nat.le_refl _
  | work e => exact Nat.le_refl _

theorem DosNet.Inv.issue {o : DosOpening} {n : DosNet} (h : n.Inv o) {opcode : Opcode} {payload : Bytes}
    (notHello : opcode ≠ .hello) : (n.step o (.issue opcode payload notHello)).Inv o := by
  have hid : nextRequestId n.requestId = Serial.stamp 0x10000 (o.hello.requestId.toNat - 1) (n.issued + 1) := by
    rw [nextRequestId_eq, h.requestId_eq, Serial.next_stamp (by decide)]
  refine ⟨hid, fun d hd => ?_, fun d hd => ?_, ?_⟩
  · rcases List.mem_append.mp hd with hd | hd
    · obtain ⟨k, h1, h2, h3⟩ := h.sent_as d hd
      exact ⟨k, h1, Nat.le_succ_of_le h2, h3⟩
    · rw [hid] at hd
      exact ⟨n.issued + 1, Nat.le_add_left _ _, Nat.le_refl _, issueDatagrams_dosSentAs notHello hd⟩
  · obtain ⟨hpeer, k, h1, h2, h3⟩ := h.serving.slot_sent d hd
    exact ⟨hpeer, k, h1, Nat.le_succ_of_le h2, h3⟩
  · obtain ⟨last, hguard, hsame⟩ := h.serving.guarded
    exact ⟨last, hguard.issue, hsame⟩

/-- What arrives fills the receive buffer only while it is free. -/
theorem Serving.arrive {o : DosOpening} {issued : Nat} {s : State} (h : Serving o issued s) {d : Bytes}
    (hd : ∃ k, 1 ≤ k ∧ k ≤ issued ∧ DosSentAs o k d) : Serving o issued (arrive s ⟨d, o.peer⟩) := by
  unfold Dos.arrive
  split
  · refine ⟨fun d' hd' => ?_, h.guarded⟩
    obtain rfl : ⟨d, o.peer⟩ = d' := Option.some.inj hd'
    exact ⟨rfl, hd⟩
  · exact h

/-- The step of a run in which nothing is refused keeps the invariant. -/
theorem DosNet.Inv.step {o : DosOpening} {n : DosNet} (h : n.Inv o) {e : DosEvent}
    (hclean : ∀ entry, e = .work entry → refusesAt o.build o.config n.state entry = false)
    (hwin : n.issued < 0x8000) : (n.step o e).Inv o := by
  cases e with
  | issue opcode payload notHello => exact h.issue notHello
  | arrive index =>
    simp only [DosNet.step]
    split
    · exact h
    · rename_i d hd
      exact ⟨h.requestId_eq, h.sent_as, h.serving.arrive (h.sent_as d (List.mem_of_getElem? hd))⟩
  | work entry => exact ⟨h.requestId_eq, h.sent_as, h.serving.runAgent hwin (hclean entry rfl)⟩

theorem noRefusal_cons {o : DosOpening} {n : DosNet} {e : DosEvent} {events : List DosEvent}
    (h : noRefusal o n (e :: events) = true) :
    (∀ entry, e = .work entry → refusesAt o.build o.config n.state entry = false) ∧
      noRefusal o (n.step o e) events = true := by
  cases e with
  | issue opcode payload notHello => exact ⟨by simp, h⟩
  | arrive index => exact ⟨by simp, h⟩
  | work entry =>
    simp only [noRefusal, Bool.and_eq_true, Bool.not_eq_true'] at h
    exact ⟨fun entry' he => by cases he; exact h.1, h.2⟩

theorem DosNet.run_issued (o : DosOpening) (n : DosNet) (events : List DosEvent) : n.issued ≤ (n.run o events).issued := by
  induction events generalizing n with
  | nil => exact Nat.le_refl _
  | cons e events ih => exact Nat.le_trans (n.step_issued o e) (ih _)

theorem DosNet.Inv.run {o : DosOpening} {n : DosNet} (h : n.Inv o) {events : List DosEvent}
    (hclean : noRefusal o n events = true) (hwin : (n.run o events).issued < 0x8000) : (n.run o events).Inv o := by
  induction events generalizing n with
  | nil => exact h
  | cons e events ih =>
    obtain ⟨he, hrest⟩ := noRefusal_cons hclean
    have hissued := Nat.le_trans (n.step_issued o e) (DosNet.run_issued o (n.step o e) events)
    exact ih (h.step he (Nat.lt_of_le_of_lt hissued hwin)) hrest hwin

/-- A copy of a processed request is answered from the cache or refused. -/
theorem Serving.completed {o : DosOpening} {issued : Nat} {s : State} (h : Serving o issued s) (hwin : issued < 0x8000)
    (hactive : s.session.active = true) (b : Build) (c : Config) {packet : DmPacket}
    (hdone : packet.requestId.toNat ∈ s.executed) :
    processSessionPacket b c s packet = resendCached b s ∨ s.session.refuses packet.requestId = true := by
  obtain ⟨last, hguard, hsame⟩ := h.guarded
  obtain ⟨l, hl, hold⟩ := hguard.not_newer (by decide) (by omega) hdone
  obtain ⟨-, -, -, hlast⟩ := hsame hactive
  rcases processSessionPacket_cases b c s packet with ⟨-, e⟩ | ⟨hr, -⟩ | ⟨hnewer, -⟩
  · exact Or.inl e
  · exact Or.inr hr
  · rw [hlast, Option.map_eq_some_iff] at hl
    obtain ⟨l', hl', rfl⟩ := hl
    have hnew := hnewer l' hl'
    rw [requestIsNewer_toNat, hold] at hnew
    cases hnew

/-- Where nothing is refused every request is processed at most once, and a late copy of it
    never again. -/
theorem process_request_at_most_once (o : DosOpening) (events : List DosEvent)
    (hclean : noRefusal o o.start events = true) (hwin : (o.start.run o events).issued < 0x8000) :
    (o.start.run o events).state.executed.Nodup ∧
      ∀ packet : DmPacket, (o.start.run o events).state.session.active = true →
        packet.requestId.toNat ∈ (o.start.run o events).state.executed →
          processSessionPacket o.build o.config (o.start.run o events).state packet =
              resendCached o.build (o.start.run o events).state ∨
            (o.start.run o events).state.session.refuses packet.requestId = true := by
  have hserving := (o.inv_start.run hclean hwin).serving
  refine ⟨?_, fun packet hactive hdone => hserving.completed hwin hactive _ _ hdone⟩
  obtain ⟨last, hguard, -⟩ := hserving.guarded
  exact hguard.nodup (by decide) (by omega)

/-! ## Late copies -/

def lateOpening (b : Build) : DosOpening where
  build := b
  config := sampleConfig
  state := .start blankMachine (dosStore (fun _ => none) fun _ => ⟨true, 0⟩)
  peer := ⟨[2, 0, 0, 0, 0, 2], [10, 0, 0, 2], 40000⟩
  hello := ⟨1, 1, 0, 0, 1, 0, 1, [0, 0, 0, 0]⟩
  payloadLength_eq := rfl
  fragmentCount_eq := rfl
  requestId_pos := by decide

theorem ping_ne_hello : Opcode.ping ≠ .hello := by decide

def pingEvent : DosEvent := .issue .ping [] ping_ne_hello

def timerWork : DosEvent := .work ⟨false, false, blankMachine⟩

/-- The `index`-th datagram arrives and is processed; RA-TSR sends its reply an entry later. -/
def deliver (index : Nat) : List DosEvent := [.arrive index, timerWork, timerWork]

/-- A request that meets its own copy is answered from the cache. -/
def retriedPing : List DosEvent := pingEvent :: deliver 0 ++ deliver 0 ++ pingEvent :: deliver 1

theorem process_request_at_most_once_retry :
    ((lateOpening .ratsr).start.run (lateOpening .ratsr) retriedPing).state.executed.Nodup ∧
      ((lateOpening .ragent).start.run (lateOpening .ragent) retriedPing).state.executed.Nodup :=
  ⟨(process_request_at_most_once (lateOpening .ratsr) retriedPing (by decide +kernel) (by decide +kernel)).1,
    (process_request_at_most_once (lateOpening .ragent) retriedPing (by decide +kernel) (by decide +kernel)).1⟩

/-- Three requests in order, then late copies of the first and the second. -/
def latePings : List DosEvent :=
  pingEvent :: deliver 0 ++ pingEvent :: deliver 1 ++ pingEvent :: deliver 2 ++ deliver 0 ++ deliver 1

/-- The refused copy of the first request makes both agents process the second one again. -/
theorem refused_copy_reprocesses :
    (∀ b, ((lateOpening b).start.run (lateOpening b) latePings).issued = 3) ∧
      (∀ b, ((lateOpening b).start.run (lateOpening b) latePings).state.executed = [2, 3, 4, 3]) ∧
      ∀ b, ¬ ((lateOpening b).start.run (lateOpening b) latePings).state.executed.Nodup := by
  have h : ∀ b, ((lateOpening b).start.run (lateOpening b) latePings).state.executed = [2, 3, 4, 3] := by
    intro b
    cases b <;> decide +kernel
  refine ⟨fun b => by cases b <;> decide +kernel, h, fun b => ?_⟩
  rw [h b]
  decide

end DosMcp.Dos
