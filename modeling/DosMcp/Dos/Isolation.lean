/-
  DosMcp.Dos.Isolation — what earlier sessions of RAGENT leave for the next one.

  `process_hello` replaces the session and leaves the reassembly statics. Two agents that
  differ in what earlier sessions left are run side by side through the same HELLO and the
  same turns.

  - `new_session_ignores_old_fragments`: they process the same requests, as long as the first
    request packet of the new session carries an ID that neither of them has left over.
  - `old_fragment_drops_new_request`: a request under the ID of an old partial one is dropped.
-/

import DosMcp.Dos.Ownership
import DosMcp.Dos.Reassembly

namespace DosMcp.Dos

open Lib

/-! ## Runs -/

/-- A turn of the main loop: what has happened to the machine since the last one, and the
    datagram that has arrived. -/
structure Turn where
  evolve : Machine → Machine
  arrival : Option Datagram

/-- The agent with the arrival in its receive buffer. -/
def State.receive (s : State) : Option Datagram → State
  | none => s
  | some d => arrive s d

def State.turn (c : Config) (s : State) (turn : Turn) : State :=
  ragentTurn c (s.receive turn.arrival) (turn.evolve s.machine)

def State.turns (c : Config) (s : State) (turns : List Turn) : State := turns.foldl (State.turn c) s

/-- The agent after the turn that processes a HELLO. -/
def State.greeted (c : Config) (s : State) (hello : Datagram) : State := (processDatagram .ragent c s hello).release

/-- `s` and `t` differ at most in the session, the reassembly and the request buffer. -/
def SameDevice (s t : State) : Prop :=
  t = { s with session := t.session, reassembly := t.reassembly, workspace := t.workspace } ∧
    ∀ i, requestBufferSize ≤ i → t.workspace i = s.workspace i

/-- The request packet of the session that a turn processes. -/
def turnPacket (c : Config) (s : State) (turn : Turn) : Option DmPacket :=
  (s.receive turn.arrival).slot.bind (sessionPacket c s)

/-- The first request packet that a run processes. -/
def firstPacket (c : Config) : State → List Turn → Option DmPacket
  | _, [] => none
  | s, turn :: turns => match turnPacket c s turn with
    | some packet => some packet
    | none => firstPacket c (s.turn c turn) turns

/-! ## Two runs -/

/-- The same machine, the same log and the same session, up to the cached response. -/
structure Alike (s t : State) : Prop where
  machine_eq : s.machine = t.machine
  shell_eq : s.shell = t.shell
  slot_eq : s.slot = t.slot
  requests_eq : s.requests = t.requests
  active_eq : s.session.active = t.session.active
  id_eq : s.session.id = t.session.id
  key_eq : s.session.key = t.session.key
  peer_eq : s.session.peer = t.session.peer
  last_eq : s.session.last = t.session.last

/-- The same request in reassembly, with the same fragments. -/
structure SameTable (s t : State) : Prop where
  reassembly_eq : s.reassembly = t.reassembly
  fragment_eq : ∀ i, s.reassembly.fragment s.workspace i = t.reassembly.fragment t.workspace i
  sound : s.reassembly.Sound

/-- The packet belongs to a request that is new to both, or that both have got as far. -/
def Meets (s t : State) (p : DmPacket) : Prop :=
  (p.requestId ≠ s.reassembly.requestId ∧ p.requestId ≠ t.reassembly.requestId) ∨ SameTable s t

section

variable {s t : State}

theorem Meets.forPacket {p : DmPacket} (h : Meets s t p) :
    s.reassembly.forPacket p = t.reassembly.forPacket p ∧ (s.reassembly.forPacket p).Sound ∧
      ∀ i, (s.reassembly.forPacket p).fragment s.workspace i = (t.reassembly.forPacket p).fragment t.workspace i := by
  rcases h with ⟨hs, ht⟩ | h
  · refine ⟨by simp [Reassembly.forPacket, hs, ht], ?_, fun i => ?_⟩
    · rw [Reassembly.forPacket, if_pos hs]
      exact Reassembly.sound_fresh _ _ _
    · rw [Reassembly.fragment_forPacket_ne hs, Reassembly.fragment_forPacket_ne ht]
  · refine ⟨by rw [h.reassembly_eq], Reassembly.sound_forPacket h.sound p, fun i => ?_⟩
    by_cases hid : p.requestId = s.reassembly.requestId
    · have hid' : p.requestId = t.reassembly.requestId := h.reassembly_eq ▸ hid
      rw [Reassembly.forPacket, Reassembly.forPacket, if_neg (not_not.mpr hid), if_neg (not_not.mpr hid')]
      exact h.fragment_eq i
    · have hid' : p.requestId ≠ t.reassembly.requestId := h.reassembly_eq ▸ hid
      rw [Reassembly.fragment_forPacket_ne hid, Reassembly.fragment_forPacket_ne hid']

theorem Meets.store {p : DmPacket} (h : Meets s t p) (hp : p.Sound) :
    SameTable (s.storeFragment p) (t.storeFragment p) := by
  obtain ⟨hreassembly, hsound, hfragment⟩ := h.forPacket
  by_cases hrefuse : (s.reassembly.forPacket p).refuses p = true
  · have hrefuse' : (t.reassembly.forPacket p).refuses p = true := hreassembly ▸ hrefuse
    simp only [State.storeFragment, if_pos hrefuse, if_pos hrefuse']
    exact ⟨hreassembly, hfragment, hsound⟩
  · have hrefuse' : ¬ (t.reassembly.forPacket p).refuses p = true := hreassembly ▸ hrefuse
    have hfits : p.fragmentIndex.toNat * 1024 + p.payload.length ≤ requestBufferSize := by
      by_contra hno
      exact hrefuse (by simp [Reassembly.refuses, Nat.lt_of_not_le hno])
    simp only [State.storeFragment, if_neg hrefuse, if_neg hrefuse']
    refine ⟨by rw [hreassembly], fun i => ?_, Reassembly.sound_add hsound hp hfits⟩
    rw [Reassembly.fragment_add hsound hp, Reassembly.fragment_add (hreassembly ▸ hsound) hp, hfragment]

theorem Meets.completed {p : DmPacket} (h : Meets s t p) (hp : p.Sound) : s.completedRequest p = t.completedRequest p := by
  have htable := h.store hp
  have hsome : (s.completedRequest p).isSome = (t.completedRequest p).isSome := by
    unfold State.completedRequest
    rw [h.forPacket.1]
    split
    · rfl
    · dsimp only
      rw [htable.reassembly_eq]
      split <;> rfl
  cases hs : s.completedRequest p with
  | none =>
    rw [hs, Option.isSome_none] at hsome
    cases ht : t.completedRequest p with
    | none => rfl
    | some request => simp [ht] at hsome
  | some request =>
    rw [hs, Option.isSome_some] at hsome
    obtain ⟨request', ht⟩ := Option.isSome_iff_exists.mp hsome.symm
    rw [ht, (completedRequest_table hp hs).1, (completedRequest_table hp ht).1]
    simp only [htable.fragment_eq]

end

/-! ## The machine under the operations of RAGENT -/

/-- The same machine and the same shell. -/
structure SameHost (s t : State) : Prop where
  machine_eq : s.machine = t.machine
  shell_eq : s.shell = t.shell

section

variable {s t : State}

theorem SameHost.processShellKeyboard (h : SameHost s t) (c : Config) :
    SameHost (processShellKeyboard c s) (processShellKeyboard c t) := by
  obtain ⟨hmachine, hshell⟩ := h
  unfold Dos.processShellKeyboard
  simp only [hmachine, hshell]
  split_ifs <;> exact ⟨by first | rfl | assumption, by first | rfl | assumption⟩

theorem SameHost.queueWords (h : SameHost s t) (c : Config) (words : List UInt16) :
    (queueWords .ragent c words s).1 = (queueWords .ragent c words t).1 ∧
      SameHost (queueWords .ragent c words s).2 (queueWords .ragent c words t).2 := by
  induction words generalizing s t with
  | nil => exact ⟨rfl, h⟩
  | cons word words ih =>
    simp only [Dos.queueWords, h.machine_eq]
    cases t.machine.biosQueueWord word with
    | none => exact ⟨rfl, h⟩
    | some machine =>
      have hnext : SameHost { s with machine := machine } { t with machine := machine } := ⟨rfl, h.shell_eq⟩
      obtain ⟨haccepted, hhost⟩ := ih (hnext.processShellKeyboard c)
      exact ⟨congrArg (· + 1) haccepted, hhost⟩

theorem SameHost.injectKeys (h : SameHost s t) (c : Config) (payload : Bytes) :
    SameHost (injectKeys .ragent c s payload).2 (injectKeys .ragent c t payload).2 := by
  unfold Dos.injectKeys
  split
  · exact h
  dsimp only
  split
  · exact h
  · have htext := h.queueWords c ((slice payload 5 (dmGetU16 payload 0).toNat).map fun ascii =>
      ((asciiScan ascii).toUInt16 <<< 8) ||| ascii.toUInt16)
    have hkeys := htext.2.queueWords c (((slice payload (5 + (dmGetU16 payload 0).toNat) (byteAt payload 2).toNat).map
      namedKeyWord).takeWhile (· ≠ 0))
    exact ⟨hkeys.2.machine_eq, hkeys.2.shell_eq⟩

theorem SameHost.operate (h : SameHost s t) (c : Config) (opcode : UInt8) (payload : Bytes) :
    SameHost (operate .ragent c s opcode payload).2 (operate .ragent c t opcode payload).2 := by
  have hpair : ∀ {message : String} {r r' : Reply × State}, SameHost r.2 r'.2 →
      SameHost (withoutPayload payload message s r).2 (withoutPayload payload message t r').2 := by
    intro message r r' hr
    unfold withoutPayload
    split
    · exact h
    · exact hr
  unfold Dos.operate
  split
  · exact hpair h
  · exact hpair h
  · exact hpair ⟨h.machine_eq, h.shell_eq⟩
  · unfold operateKeys
    rw [if_neg (by simp), if_neg (by simp)]
    have hkeys := h.injectKeys c payload
    generalize Dos.injectKeys .ragent c s payload = r at hkeys ⊢
    generalize Dos.injectKeys .ragent c t payload = r' at hkeys ⊢
    obtain ⟨a | a, r⟩ := r <;> obtain ⟨a' | a', r'⟩ := r' <;> exact hkeys
  · split <;> exact h
  · exact h
  · cases TransferOp.ofOpcode opcode <;> exact h

end

/-! ## One datagram -/

section

variable {s t : State}

theorem Alike.datagramKey (h : Alike s t) (c : Config) (payload : Bytes) : s.datagramKey c payload = t.datagramKey c payload := by
  simp only [State.datagramKey, h.active_eq, h.key_eq]

theorem Alike.sessionPacket (h : Alike s t) (c : Config) (d : Datagram) : sessionPacket c s d = sessionPacket c t d := by
  have howns : ∀ p, s.session.owns p d.peer = t.session.owns p d.peer := fun p => by
    simp only [AgentSession.owns, h.active_eq, h.id_eq, h.peer_eq]
  simp only [Dos.sessionPacket, h.datagramKey, howns]

theorem Alike.helloPacket (h : Alike s t) (c : Config) (d : Datagram) : helloPacket c s d = helloPacket c t d := by
  simp only [Dos.helloPacket, h.datagramKey]

theorem Alike.heard (h : Alike s t) (p : DmPacket) : Alike (s.heard p) (t.heard p) :=
  ⟨h.machine_eq, h.shell_eq, h.slot_eq, h.requests_eq, h.active_eq, h.id_eq, h.key_eq, h.peer_eq, h.last_eq⟩

theorem SameTable.heard (h : SameTable s t) (p : DmPacket) : SameTable (s.heard p) (t.heard p) :=
  ⟨h.reassembly_eq, h.fragment_eq, h.sound⟩

/-- States with the session, the machine and the log of `s` and of `t`. -/
theorem Alike.congr {s' t' : State} (h : Alike s t) (hs : Quiet s s') (ht : Quiet t t') (hhost : SameHost s' t') : Alike s' t' where
  machine_eq := hhost.machine_eq
  shell_eq := hhost.shell_eq
  slot_eq := by rw [hs.slot_eq, ht.slot_eq, h.slot_eq]
  requests_eq := by rw [hs.requests_eq, ht.requests_eq, h.requests_eq]
  active_eq := by rw [hs.active_eq, ht.active_eq, h.active_eq]
  id_eq := by rw [hs.id_eq, ht.id_eq, h.id_eq]
  key_eq := by rw [hs.key_eq, ht.key_eq, h.key_eq]
  peer_eq := by rw [hs.peer_eq, ht.peer_eq, h.peer_eq]
  last_eq := by rw [hs.last_eq, ht.last_eq, h.last_eq]

theorem Alike.host (h : Alike s t) : SameHost s t := ⟨h.machine_eq, h.shell_eq⟩

theorem Alike.storeFragment (h : Alike s t) (p : DmPacket) : Alike (s.storeFragment p) (t.storeFragment p) := by
  refine h.congr (storeFragment_quiet s p) (storeFragment_quiet t p) ?_
  obtain ⟨r, w, es⟩ := storeFragment_session s p
  obtain ⟨r', w', et⟩ := storeFragment_session t p
  rw [es, et]
  exact ⟨h.machine_eq, h.shell_eq⟩

theorem Alike.processRequest (h : Alike s t) (c : Config) {opcode : UInt8} (hopcode : 1 ≤ opcode ∧ opcode ≤ 18) (id : UInt16)
    (payload : Bytes) :
    Alike (processRequest .ragent c s opcode id payload) (processRequest .ragent c t opcode id payload) := by
  have hs := processRequest_processed .ragent c s hopcode id payload
  have ht := processRequest_processed .ragent c t hopcode id payload
  obtain ⟨hsm, hss, -⟩ := processRequest_ragent c s opcode id payload
  obtain ⟨htm, hts, -⟩ := processRequest_ragent c t opcode id payload
  have hlogged : SameHost (s.logRequest ⟨opcode, id, payload⟩) (t.logRequest ⟨opcode, id, payload⟩) :=
    ⟨h.machine_eq, h.shell_eq⟩
  have hhost := hlogged.operate c opcode payload
  exact {
    machine_eq := by rw [hsm, htm, hhost.machine_eq]
    shell_eq := by rw [hss, hts, hhost.shell_eq]
    slot_eq := by rw [hs.slot_eq, ht.slot_eq, h.slot_eq]
    requests_eq := by rw [hs.requests_eq, ht.requests_eq, h.requests_eq]
    active_eq := by rw [hs.active_eq, ht.active_eq, h.active_eq]
    id_eq := by rw [hs.id_eq, ht.id_eq, h.id_eq]
    key_eq := by rw [hs.key_eq, ht.key_eq, h.key_eq]
    peer_eq := by rw [hs.peer_eq, ht.peer_eq, h.peer_eq]
    last_eq := by
      simp [AgentSession.last, hs.hasLastRequest_eq, ht.hasLastRequest_eq, hs.lastRequestId_eq, ht.lastRequestId_eq] }

theorem SameTable.processRequest (h : SameTable s t) (c : Config) {opcode : UInt8} (hopcode : 1 ≤ opcode ∧ opcode ≤ 18)
    (id : UInt16) (payload : Bytes) :
    SameTable (processRequest .ragent c s opcode id payload) (processRequest .ragent c t opcode id payload) := by
  have hs := (processRequest_processed .ragent c s hopcode id payload).reassembly_eq
  have ht := (processRequest_processed .ragent c t hopcode id payload).reassembly_eq
  obtain ⟨-, -, hsw⟩ := processRequest_ragent c s opcode id payload
  obtain ⟨-, -, htw⟩ := processRequest_ragent c t opcode id payload
  refine ⟨by rw [hs, ht, h.reassembly_eq], fun i => ?_, hs ▸ h.sound⟩
  rw [hs, ht, fragment_congr h.sound hsw, fragment_congr (h.reassembly_eq ▸ h.sound) htw]
  exact h.fragment_eq i

theorem Alike.sendError (h : Alike s t) {opcode : UInt8} (hopcode : 1 ≤ opcode ∧ opcode ≤ 18) (id code : UInt16)
    (message : String) : Alike (sendError .ragent s opcode id code message) (sendError .ragent t opcode id code message) := by
  have hs := sendError_responded .ragent s hopcode id code message
  have ht := sendError_responded .ragent t hopcode id code message
  obtain ⟨hsm, hss, -⟩ := sendResponse_ragent s dmKindError opcode id (.array (dmPutU16 code ++ (messageBytes message).take 120))
  obtain ⟨htm, hts, -⟩ := sendResponse_ragent t dmKindError opcode id (.array (dmPutU16 code ++ (messageBytes message).take 120))
  exact {
    machine_eq := hsm.trans (h.machine_eq.trans htm.symm)
    shell_eq := hss.trans (h.shell_eq.trans hts.symm)
    slot_eq := by rw [hs.slot_eq, ht.slot_eq, h.slot_eq]
    requests_eq := by rw [hs.requests_eq, ht.requests_eq, h.requests_eq]
    active_eq := by rw [hs.active_eq, ht.active_eq, h.active_eq]
    id_eq := by rw [hs.id_eq, ht.id_eq, h.id_eq]
    key_eq := by rw [hs.key_eq, ht.key_eq, h.key_eq]
    peer_eq := by rw [hs.peer_eq, ht.peer_eq, h.peer_eq]
    last_eq := by
      simp [AgentSession.last, hs.hasLastRequest_eq, ht.hasLastRequest_eq, hs.lastRequestId_eq, ht.lastRequestId_eq] }

theorem SameTable.sendError (h : SameTable s t) {opcode : UInt8} (hopcode : 1 ≤ opcode ∧ opcode ≤ 18) (id code : UInt16)
    (message : String) : SameTable (sendError .ragent s opcode id code message) (sendError .ragent t opcode id code message) := by
  have hs := (sendError_responded .ragent s hopcode id code message).reassembly_eq
  have ht := (sendError_responded .ragent t hopcode id code message).reassembly_eq
  have hsw : (Dos.sendError .ragent s opcode id code message).workspace = s.workspace := (sendResponse_ragent s _ _ _ _).2.2
  have htw : (Dos.sendError .ragent t opcode id code message).workspace = t.workspace := (sendResponse_ragent t _ _ _ _).2.2
  refine ⟨by rw [hs, ht, h.reassembly_eq], fun i => ?_, hs ▸ h.sound⟩
  rw [hs, ht, hsw, htw]
  exact h.fragment_eq i

theorem Alike.acceptFragment (h : Alike s t) (c : Config) {p : DmPacket} (hp : p.Sound) (hmeet : Meets s t p) :
    Alike (acceptFragment .ragent c s p) (acceptFragment .ragent c t p) ∧
      SameTable (acceptFragment .ragent c s p) (acceptFragment .ragent c t p) := by
  have hstored := hmeet.store hp
  unfold Dos.acceptFragment
  rw [← hmeet.completed hp]
  cases hdone : s.completedRequest p with
  | none => exact ⟨h.storeFragment p, hstored⟩
  | some request =>
    have hrange : 1 ≤ request.opcode ∧ request.opcode ≤ 18 := by
      rw [(completedRequest_eq_some hdone).2]
      exact hp.opcode_range
    exact ⟨(h.storeFragment p).processRequest c hrange _ _, hstored.processRequest c hrange _ _⟩

/-- A request packet of the session, before which nothing was processed or both have the same
    fragments. -/
theorem Alike.processSessionPacket (h : Alike s t) (c : Config) {p : DmPacket} (hp : p.Sound) (hmeet : Meets s t p)
    (hfirst : s.session.last = none ∨ SameTable s t) :
    Alike (processSessionPacket .ragent c s p) (processSessionPacket .ragent c t p) ∧
      SameTable (processSessionPacket .ragent c s p) (processSessionPacket .ragent c t p) := by
  have hlast := h.last_eq
  unfold Dos.processSessionPacket
  cases hhas : s.session.hasLastRequest with
  | false =>
    have hhas' : t.session.hasLastRequest = false := by
      by_contra hne
      simp [AgentSession.last, hhas, hne] at hlast
    simp only [hhas', Bool.false_eq_true, false_and, if_false]
    exact h.acceptFragment c hp hmeet
  | true =>
    have hhas' : t.session.hasLastRequest = true := by
      by_contra hne
      simp [AgentSession.last, hhas, hne] at hlast
    have hid : s.session.lastRequestId = t.session.lastRequestId := by
      simpa [AgentSession.last, hhas, hhas'] using hlast
    have htable : SameTable s t := hfirst.resolve_left (by simp [AgentSession.last, hhas])
    simp only [hhas', hid, true_and]
    split
    · exact ⟨⟨h.machine_eq, h.shell_eq, h.slot_eq, h.requests_eq, h.active_eq, h.id_eq, h.key_eq, h.peer_eq, h.last_eq⟩,
        ⟨htable.reassembly_eq, htable.fragment_eq, htable.sound⟩⟩
    split
    · exact ⟨h.sendError hp.opcode_range _ _ _, htable.sendError hp.opcode_range _ _ _⟩
    · exact h.acceptFragment c hp hmeet

/-- What a HELLO that is accepted does to the agent. -/
theorem processHello_session (c : Config) (s : State) {p : DmPacket} (hlength : p.payloadLength = 4)
    (hcount : p.fragmentCount = 1) (peer : Peer) :
    ∃ sent, processHello .ragent c s p peer =
      { s with sent := sent
               session := { s.session with
                 id := helloSessionId (dmGetU32 p.payload 0) s.machine.makeNonce
                 key := dmDeriveSessionKey c.baseKey (dmGetU32 p.payload 0) s.machine.makeNonce
                 peer := peer, active := true, lastActivityTick := s.ticks, hasLastRequest := false, responseCount := 0 } } := by
  unfold processHello
  rw [if_neg (by simp [hlength, hcount])]
  dsimp only
  split
  · exact ⟨_, rfl⟩
  · rename_i hbuild _
    cases hbuild
  · exact ⟨_, rfl⟩

theorem Alike.processHello {s t : State} (hhost : SameHost s t) (hslot : s.slot = t.slot) (hrequests : s.requests = t.requests)
    (c : Config) {p : DmPacket} (hlength : p.payloadLength = 4) (hcount : p.fragmentCount = 1) (peer : Peer) :
    Alike (processHello .ragent c s p peer) (processHello .ragent c t p peer) ∧
      (processHello .ragent c s p peer).session.last = none := by
  obtain ⟨sent, hs⟩ := processHello_session c s hlength hcount peer
  obtain ⟨sent', ht⟩ := processHello_session c t hlength hcount peer
  rw [hs, ht, hhost.machine_eq]
  exact ⟨⟨rfl, hhost.shell_eq, hslot, hrequests, rfl, rfl, rfl, rfl, rfl⟩, rfl⟩

/-- The reassembly is as it was, and nothing of the session was processed. -/
def Untouched (s s' : State) : Prop := s'.reassembly = s.reassembly ∧ s'.workspace = s.workspace

/-- A datagram that is no request packet of the session leaves the reassembly. -/
theorem processDatagram_untouched (c : Config) {d : Datagram} (h : Dos.sessionPacket c s d = none) :
    Untouched s (processDatagram .ragent c s d) ∧
      (s.session.last = none → (processDatagram .ragent c s d).session.last = none) := by
  rcases processDatagram_cases .ragent c s d with ⟨p, hsome, -⟩ | ⟨p, -, -, hlength, hcount, e⟩ | ⟨-, -, result, opcode, e⟩
  · rw [h] at hsome
    cases hsome
  · obtain ⟨sent, hs⟩ := processHello_session c { s with lastProtocolResult := 0, lastOpcode := p.opcode } hlength hcount d.peer
    rw [e, hs]
    exact ⟨⟨rfl, rfl⟩, fun _ => rfl⟩
  · rw [e]
    exact ⟨⟨rfl, rfl⟩, id⟩

/-- One datagram in both agents. -/
theorem Alike.processDatagram (h : Alike s t) (c : Config) {d : Datagram}
    (hmeet : ∀ p, Dos.sessionPacket c s d = some p → Meets s t p) (hfirst : s.session.last = none ∨ SameTable s t) :
    Alike (processDatagram .ragent c s d) (processDatagram .ragent c t d) ∧
      ((Dos.sessionPacket c s d).isSome ∨ SameTable s t →
        SameTable (processDatagram .ragent c s d) (processDatagram .ragent c t d)) := by
  have hpacket := h.sessionPacket c d
  have hhello := h.helloPacket c d
  rcases processDatagram_cases .ragent c s d with ⟨p, hp, -, hsound, e⟩ | ⟨p, hp, hq, hlength, hcount, e⟩ | ⟨hp, hq, result, opcode, e⟩
  · -- a request of the session
    rcases processDatagram_cases .ragent c t d with ⟨p', hp', -, -, e'⟩ | ⟨p', hp', -⟩ | ⟨hp', -⟩
    · obtain rfl : p = p' := by
        rw [hp, hp'] at hpacket
        exact Option.some.inj hpacket
      rw [e, e']
      have hm : Meets (s.heard p) (t.heard p) p := (hmeet p hp).imp id fun htable => htable.heard p
      obtain ⟨halike, htable⟩ := (h.heard p).processSessionPacket c hsound hm (hfirst.imp id fun htable => htable.heard p)
      exact ⟨halike, fun _ => htable⟩
    · rw [hp, hp'] at hpacket
      cases hpacket
    · rw [hp, hp'] at hpacket
      cases hpacket
  all_goals
    have hkept : Untouched s (Dos.processDatagram .ragent c s d) := (processDatagram_untouched c hp).1
    have hkept' : Untouched t (Dos.processDatagram .ragent c t d) := (processDatagram_untouched c (hpacket ▸ hp)).1
    refine ⟨?_, fun hany => ?_⟩
    rotate_left
    · have htable : SameTable s t := hany.resolve_left (by simp [hp])
      exact ⟨by rw [hkept.1, hkept'.1, htable.reassembly_eq], fun i => by rw [hkept.1, hkept.2, hkept'.1, hkept'.2, htable.fragment_eq],
        hkept.1 ▸ htable.sound⟩
  · -- a HELLO
    rcases processDatagram_cases .ragent c t d with ⟨p', hp', hq', -⟩ | ⟨p', -, hq', -, -, e'⟩ | ⟨-, hq', -⟩
    · rw [hq, hq'] at hhello
      cases hhello
    · obtain rfl : p = p' := by
        rw [hq, hq'] at hhello
        exact Option.some.inj hhello
      rw [e, e']
      exact (Alike.processHello (by exact ⟨h.machine_eq, h.shell_eq⟩) (by exact h.slot_eq) (by exact h.requests_eq) c
        hlength hcount d.peer).1
    · rw [hq, hq'] at hhello
      cases hhello
  · -- anything else
    rcases processDatagram_cases .ragent c t d with ⟨p', hp', -⟩ | ⟨p', -, hq', -⟩ | ⟨-, -, result', opcode', e'⟩
    · rw [hp, hp'] at hpacket
      cases hpacket
    · rw [hq, hq'] at hhello
      cases hhello
    · rw [e, e']
      exact ⟨h.machine_eq, h.shell_eq, h.slot_eq, h.requests_eq, h.active_eq, h.id_eq, h.key_eq, h.peer_eq, h.last_eq⟩

end

/-! ## Turns -/

section

variable {s t : State}

theorem Alike.receive (h : Alike s t) (arrival : Option Datagram) : Alike (s.receive arrival) (t.receive arrival) := by
  cases arrival with
  | none => exact h
  | some d =>
    simp only [State.receive, arrive, h.slot_eq]
    cases t.slot with
    | none => exact ⟨h.machine_eq, h.shell_eq, rfl, h.requests_eq, h.active_eq, h.id_eq, h.key_eq, h.peer_eq, h.last_eq⟩
    | some _ => exact h

/-- What a turn keeps when an arrival is put into the receive buffer. -/
theorem receive_kept (s : State) (arrival : Option Datagram) :
    (s.receive arrival).session = s.session ∧ (s.receive arrival).reassembly = s.reassembly ∧
      (s.receive arrival).workspace = s.workspace := by
  cases arrival with
  | none => exact ⟨rfl, rfl, rfl⟩
  | some d =>
    simp only [State.receive, arrive]
    split <;> exact ⟨rfl, rfl, rfl⟩

theorem SameTable.congr {s' t' : State} (h : SameTable s t) (hs : s'.reassembly = s.reassembly) (hs' : s'.workspace = s.workspace)
    (ht : t'.reassembly = t.reassembly) (ht' : t'.workspace = t.workspace) : SameTable s' t' := by
  refine ⟨by rw [hs, ht, h.reassembly_eq], fun i => ?_, hs ▸ h.sound⟩
  rw [hs, hs', ht, ht']
  exact h.fragment_eq i

/-- The state of a turn before the receive buffer is looked at. -/
def State.turnStart (s : State) (turn : Turn) : State := { s.receive turn.arrival with machine := turn.evolve s.machine }

/-- The state of a turn before the shell looks at the keyboard. -/
def State.polled (c : Config) (s : State) (turn : Turn) : State :=
  match (s.turnStart turn).slot with
  | none => s.turnStart turn
  | some d => (processDatagram .ragent c (s.turnStart turn) d).release

theorem turn_eq (c : Config) (s : State) (turn : Turn) : s.turn c turn = processShellKeyboard c (s.polled c turn) := rfl

theorem turnStart_packet (c : Config) (s : State) (turn : Turn) (d : Datagram) :
    sessionPacket c (s.turnStart turn) d = sessionPacket c s d := by
  unfold sessionPacket State.datagramKey State.turnStart
  simp only [(receive_kept s turn.arrival).1]

theorem Alike.turnStart (h : Alike s t) (turn : Turn) : Alike (s.turnStart turn) (t.turnStart turn) := by
  have hr := h.receive turn.arrival
  exact ⟨congrArg turn.evolve h.machine_eq, hr.shell_eq, hr.slot_eq, hr.requests_eq, hr.active_eq, hr.id_eq, hr.key_eq,
    hr.peer_eq, hr.last_eq⟩

theorem Alike.release (h : Alike s t) : Alike s.release t.release :=
  ⟨h.machine_eq, h.shell_eq, rfl, h.requests_eq, h.active_eq, h.id_eq, h.key_eq, h.peer_eq, h.last_eq⟩

theorem Alike.processShellKeyboard (h : Alike s t) (c : Config) :
    Alike (processShellKeyboard c s) (processShellKeyboard c t) := by
  have hs := processShellKeyboard_operated c s
  have ht := processShellKeyboard_operated c t
  have hhost := h.host.processShellKeyboard c
  exact {
    machine_eq := hhost.machine_eq
    shell_eq := hhost.shell_eq
    slot_eq := by rw [hs.slot_eq, ht.slot_eq, h.slot_eq]
    requests_eq := by rw [hs.requests_eq, ht.requests_eq, h.requests_eq]
    active_eq := by rw [hs.session_eq, ht.session_eq, h.active_eq]
    id_eq := by rw [hs.session_eq, ht.session_eq, h.id_eq]
    key_eq := by rw [hs.session_eq, ht.session_eq, h.key_eq]
    peer_eq := by rw [hs.session_eq, ht.session_eq, h.peer_eq]
    last_eq := by rw [hs.session_eq, ht.session_eq, h.last_eq] }

theorem Alike.turn (h : Alike s t) (c : Config) (turn : Turn) (hmeet : ∀ p, turnPacket c s turn = some p → Meets s t p)
    (hfirst : s.session.last = none ∨ SameTable s t) :
    Alike (s.turn c turn) (t.turn c turn) ∧
      ((turnPacket c s turn).isSome ∨ SameTable s t → SameTable (s.turn c turn) (t.turn c turn)) := by
  obtain ⟨hsession, hreassembly, hworkspace⟩ := receive_kept s turn.arrival
  obtain ⟨-, hreassembly', hworkspace'⟩ := receive_kept t turn.arrival
  have hstart := h.turnStart turn
  have hslot : (s.turnStart turn).slot = (t.turnStart turn).slot := hstart.slot_eq
  have htable : SameTable s t → SameTable (s.turnStart turn) (t.turnStart turn) := fun hst =>
    hst.congr hreassembly hworkspace hreassembly' hworkspace'
  have hpolled : Alike (s.polled c turn) (t.polled c turn) ∧
      ((turnPacket c s turn).isSome ∨ SameTable s t → SameTable (s.polled c turn) (t.polled c turn)) := by
    unfold State.polled
    rw [← hslot]
    cases hd : (s.turnStart turn).slot with
    | none =>
      have hd' : (s.receive turn.arrival).slot = none := hd
      refine ⟨hstart, fun hany => htable (hany.resolve_left ?_)⟩
      simp [turnPacket, hd']
    | some d =>
      have hd' : (s.receive turn.arrival).slot = some d := hd
      have hpacket : turnPacket c s turn = Dos.sessionPacket c (s.turnStart turn) d := by
        rw [turnStart_packet, turnPacket, hd', Option.bind_some]
      have hlast : (s.turnStart turn).session.last = s.session.last := congrArg AgentSession.last hsession
      obtain ⟨halike, hsame⟩ := hstart.processDatagram c (d := d)
        (fun p hp => (hmeet p (hpacket.trans hp)).imp (fun hne => by
          rwa [show (s.turnStart turn).reassembly = s.reassembly from hreassembly,
            show (t.turnStart turn).reassembly = t.reassembly from hreassembly']) htable)
        (hfirst.imp hlast.trans htable)
      refine ⟨halike.release, fun hany => ?_⟩
      exact (hsame (hany.imp (fun hp => hpacket ▸ hp) htable)).congr rfl rfl rfl rfl
  rw [turn_eq, turn_eq]
  have hs := processShellKeyboard_operated c (s.polled c turn)
  have ht := processShellKeyboard_operated c (t.polled c turn)
  exact ⟨hpolled.1.processShellKeyboard c, fun hany =>
    (hpolled.2 hany).congr hs.reassembly_eq hs.workspace_eq ht.reassembly_eq ht.workspace_eq⟩

/-- A turn without a request packet of the session leaves the reassembly. -/
theorem turn_untouched (c : Config) {turn : Turn} (h : turnPacket c s turn = none) :
    (s.turn c turn).reassembly = s.reassembly ∧ (s.session.last = none → (s.turn c turn).session.last = none) := by
  obtain ⟨hsession, hreassembly, -⟩ := receive_kept s turn.arrival
  have hop := processShellKeyboard_operated c (s.polled c turn)
  rw [turn_eq, hop.reassembly_eq, hop.session_eq]
  unfold State.polled
  cases hd : (s.turnStart turn).slot with
  | none => exact ⟨hreassembly, fun hlast => (congrArg AgentSession.last hsession).trans hlast⟩
  | some d =>
    have hd' : (s.receive turn.arrival).slot = some d := hd
    have hpacket : Dos.sessionPacket c (s.turnStart turn) d = none := by
      rw [turnStart_packet]
      rwa [turnPacket, hd', Option.bind_some] at h
    obtain ⟨huntouched, hlast⟩ := processDatagram_untouched c hpacket
    exact ⟨huntouched.1.trans hreassembly, fun hnone => hlast ((congrArg AgentSession.last hsession).trans hnone)⟩

/-! ## Runs -/

theorem Alike.turns (h : Alike s t) (htable : SameTable s t) (c : Config) (turns : List Turn) :
    Alike (s.turns c turns) (t.turns c turns) := by
  induction turns generalizing s t with
  | nil => exact h
  | cons turn turns ih =>
    obtain ⟨halike, hsame⟩ := h.turn c turn (fun _ _ => Or.inr htable) (Or.inr htable)
    exact ih halike (hsame (Or.inr htable))

theorem Alike.turns_first (h : Alike s t) (hlast : s.session.last = none) (c : Config) {turns : List Turn}
    (hfirst : ∀ p, firstPacket c s turns = some p →
      p.requestId ≠ s.reassembly.requestId ∧ p.requestId ≠ t.reassembly.requestId) :
    Alike (s.turns c turns) (t.turns c turns) := by
  induction turns generalizing s t with
  | nil => exact h
  | cons turn turns ih =>
    cases hpacket : turnPacket c s turn with
    | some p =>
      -- from the first packet on, both have the same fragments
      have hne := hfirst p (by simp only [firstPacket, hpacket])
      obtain ⟨halike, hsame⟩ := h.turn c turn (fun q hq => by
        obtain rfl : p = q := Option.some.inj (hpacket.symm.trans hq)
        exact Or.inl hne) (Or.inl hlast)
      exact halike.turns (hsame (Or.inl (by simp [hpacket]))) c turns
    | none =>
      obtain ⟨halike, -⟩ := h.turn c turn (fun q hq => by rw [hpacket] at hq; cases hq) (Or.inl hlast)
      have hpacket' : turnPacket c t turn = none := by
        rw [← hpacket, turnPacket, turnPacket, ← (h.receive turn.arrival).slot_eq]
        cases (s.receive turn.arrival).slot with
        | none => rfl
        | some d => exact (h.sessionPacket c d).symm
      obtain ⟨hr, hl⟩ := turn_untouched c hpacket
      obtain ⟨hr', -⟩ := turn_untouched c hpacket'
      refine ih halike (hl hlast) fun p hp => ?_
      rw [hr, hr']
      exact hfirst p (by simpa only [firstPacket, hpacket] using hp)

end

/-- A HELLO is checked with the base key, whatever the session. -/
theorem helloPacket_base {c : Config} {s : State} {d : Datagram} {p : DmPacket} (h : helloPacket c s d = some p) (t : State) :
    helloPacket c t d = some p := by
  have hkey : s.datagramKey c d.payload = some c.baseKey ∧ byteAt d.payload 4 = dmOpHello := by
    unfold helloPacket at h
    split at h
    · cases h
    rename_i key hkey
    split at h
    · cases h
    rename_i packet hdecode
    split at h
    · rename_i hcond
      have hbyte : byteAt d.payload 4 = dmOpHello := by
        rw [← (dmPacketDecode_opcode hdecode).1]
        exact hcond.2.1.1
      refine ⟨?_, hbyte⟩
      rw [State.datagramKey, if_neg fun hne => hne.2 hbyte]
    · cases h
  have hkey' : t.datagramKey c d.payload = some c.baseKey := by
    rw [State.datagramKey, if_neg fun hne => hne.2 hkey.2]
  rw [← h, helloPacket, helloPacket, hkey.1, hkey']

/-- Two agents that differ only in what earlier sessions left process the same requests in the
    session that a HELLO opens, if its first request packet has an ID that neither has left. -/
theorem new_session_ignores_old_fragments (c : Config) (s t : State) (hello : Datagram) (turns : List Turn)
    (hdevice : SameDevice s t) (hhello : (helloPacket c s hello).isSome)
    (hfirst : ∀ p, firstPacket c (s.greeted c hello) turns = some p →
      p.requestId ≠ s.reassembly.requestId ∧ p.requestId ≠ t.reassembly.requestId) :
    ((s.greeted c hello).turns c turns).requests = ((t.greeted c hello).turns c turns).requests := by
  obtain ⟨p, hp⟩ := Option.isSome_iff_exists.mp hhello
  have hp' := helloPacket_base hp t
  have hsame : SameHost s t ∧ s.slot = t.slot ∧ s.requests = t.requests := by
    rw [hdevice.1]
    exact ⟨⟨rfl, rfl⟩, rfl, rfl⟩
  obtain ⟨hhost, hslot, hrequests⟩ := hsame
  rcases processDatagram_cases .ragent c s hello with ⟨q, -, hq, -⟩ | ⟨q, -, hq, hlength, hcount, e⟩ | ⟨-, hq, -⟩
  · rw [hp] at hq
    cases hq
  swap
  · rw [hp] at hq
    cases hq
  rcases processDatagram_cases .ragent c t hello with ⟨q', -, hq', -⟩ | ⟨q', -, hq', -, -, e'⟩ | ⟨-, hq', -⟩
  · rw [hp'] at hq'
    cases hq'
  swap
  · rw [hp'] at hq'
    cases hq'
  obtain rfl : p = q := Option.some.inj (hp.symm.trans hq)
  obtain rfl : p = q' := Option.some.inj (hp'.symm.trans hq')
  have halike : Alike (s.greeted c hello) (t.greeted c hello) ∧ (s.greeted c hello).session.last = none := by
    unfold State.greeted
    rw [e, e']
    obtain ⟨ha, hl⟩ := Alike.processHello (s := { s with lastProtocolResult := 0, lastOpcode := p.opcode })
      (t := { t with lastProtocolResult := 0, lastOpcode := p.opcode }) ⟨hhost.machine_eq, hhost.shell_eq⟩ hslot hrequests c
      hlength hcount hello.peer
    exact ⟨ha.release, hl⟩
  have hleft : (s.greeted c hello).reassembly = s.reassembly ∧ (t.greeted c hello).reassembly = t.reassembly := by
    constructor
    · obtain ⟨sent, es⟩ := processHello_session c { s with lastProtocolResult := 0, lastOpcode := p.opcode } hlength hcount hello.peer
      rw [State.greeted, e, es]
      rfl
    · obtain ⟨sent, es⟩ := processHello_session c { t with lastProtocolResult := 0, lastOpcode := p.opcode } hlength hcount hello.peer
      rw [State.greeted, e', es]
      rfl
  refine (halike.1.turns_first halike.2 c fun q hq => ?_).requests_eq
  rw [hleft.1, hleft.2]
  exact hfirst q hq

/-! ## A request left half received -/

/-- A request packet of the client whose HELLO had the given nonce. -/
def requestPacket (nonce : UInt8) (requestId : UInt16) (index count : UInt8) (payload : Bytes) : Option Datagram :=
  let packet : DmPacket := ⟨1, 6, 0, helloSessionId nonce.toUInt32 blankMachine.makeNonce, requestId, index, count, payload⟩
  match dmPacketEncode packet (dmDeriveSessionKey sampleConfig.baseKey nonce.toUInt32 blankMachine.makeNonce) 1044 with
  | .ok datagram => some ⟨datagram, ⟨[2, 0, 0, 0, 0, 2], [10, 0, 0, 2], 40000⟩⟩
  | .error _ => none

def helloDatagram (nonce : UInt8) (requestId : UInt16) : Datagram :=
  match dmPacketEncode ⟨1, 1, 0, 0, requestId, 0, 1, [nonce, 0, 0, 0]⟩ sampleConfig.baseKey 1044 with
  | .ok datagram => ⟨datagram, ⟨[2, 0, 0, 0, 0, 2], [10, 0, 0, 2], 40000⟩⟩
  | .error _ => ⟨[], ⟨[], [], 0⟩⟩

/-- A turn on a machine where nothing happens. -/
def quietTurn (arrival : Option Datagram) : Turn := ⟨id, arrival⟩

/-- An agent that has got the first of two fragments of a ping under ID 2. -/
def halfReceived : State :=
  ((State.start blankMachine (dosStore (fun _ => none) fun _ => ⟨true, 0⟩)).greeted sampleConfig (helloDatagram 0 1)).turns
    sampleConfig [quietTurn (requestPacket 0 2 0 2 [0x41])]

/-- The agent without what its sessions have left. -/
def State.forgotten (s : State) : State :=
  { s with session := .start, reassembly := ⟨0, 0, 0, 0, List.replicate 32 0⟩
           workspace := fun i => if i < requestBufferSize then 0 else s.workspace i }

theorem forgotten_device (s : State) : SameDevice s s.forgotten := ⟨rfl, fun _ hi => if_neg (by omega)⟩

/-- The next session's ping under ID 3 is processed by both agents. -/
theorem new_session_ignores_old_fragments_ping :
    ((halfReceived.greeted sampleConfig (helloDatagram 1 1)).turns sampleConfig
        [quietTurn (requestPacket 1 3 0 1 [0x42])]).requests =
      ((halfReceived.forgotten.greeted sampleConfig (helloDatagram 1 1)).turns sampleConfig
        [quietTurn (requestPacket 1 3 0 1 [0x42])]).requests := by
  refine new_session_ignores_old_fragments sampleConfig halfReceived halfReceived.forgotten (helloDatagram 1 1)
    [quietTurn (requestPacket 1 3 0 1 [0x42])] (forgotten_device _) (by decide +kernel) ?_
  have hid : ((firstPacket sampleConfig (halfReceived.greeted sampleConfig (helloDatagram 1 1))
      [quietTurn (requestPacket 1 3 0 1 [0x42])]).map DmPacket.requestId) = some 3 := by decide +kernel
  have hleft : halfReceived.reassembly.requestId = 2 := by decide +kernel
  intro p hp
  rw [hp, Option.map_some, Option.some.injEq] at hid
  rw [hid, hleft]
  exact ⟨by decide, by decide⟩

/-- Its ping under ID 2 is dropped by the agent that has half of the old one. -/
theorem old_fragment_drops_new_request :
    SameDevice halfReceived halfReceived.forgotten ∧
      ((halfReceived.greeted sampleConfig (helloDatagram 1 1)).turns sampleConfig
        [quietTurn (requestPacket 1 2 0 1 [0x42])]).requests = [] ∧
      ((halfReceived.forgotten.greeted sampleConfig (helloDatagram 1 1)).turns sampleConfig
        [quietTurn (requestPacket 1 2 0 1 [0x42])]).requests = [⟨6, 2, [0x42]⟩] := by
  refine ⟨forgotten_device _, ?_, ?_⟩ <;> decide +kernel

end DosMcp.Dos
