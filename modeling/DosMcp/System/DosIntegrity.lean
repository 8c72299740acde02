/-
  DosMcp.System.DosIntegrity — one session of a DOS agent under a lossy, reordering,
  duplicating network: what a request is processed with.

  The runs are those of `DosAtMostOnce`. RAGENT keeps requests and responses apart, RA-TSR
  has one buffer for both: there a refused copy's error reply, or a text screen sent again,
  overwrites fragments that the mask still counts as received.

  - `processes_what_was_sent`: in every run that spares the fragments of a request of several
    packets (RAGENT always does), every processed payload is the one the client sent.
  - `refused_copy_spoils_fragment`: RA-TSR executes an error reply, written between two
    fragments, as part of the request.
-/

import DosMcp.Dos.Reassembly
import DosMcp.System.DosAtMostOnce

namespace DosMcp.Dos

open Lib

/-! ## What was sent -/

/-- The requests of a run, in the order they were issued. -/
def issuedRequests (events : List DosEvent) : List (Opcode × Bytes) :=
  events.filterMap fun
    | .issue opcode payload _ => some (opcode, payload)
    | _ => none

/-- The ID of the request issued after `k` others. -/
def DosOpening.idOf (o : DosOpening) (k : Nat) : Nat := Serial.stamp 0x10000 (o.hello.requestId.toNat - 1) (k + 1)

/-- A datagram of the client: a fragment of an issued request. -/
def SentOf (o : DosOpening) (issued : List (Opcode × Bytes)) (d : Bytes) : Prop :=
  ∃ k q p, issued[k]? = some q ∧ q.1 ≠ .hello ∧ d = dosTransportDatagram (p.encode o.key) ∧
    IsFragment .request q.1 o.sessionId.toNat (o.idOf k) q.2 p

/-- A processed request is one the client has issued, with its ID, opcode and payload. -/
def Faithful (o : DosOpening) (issued : List (Opcode × Bytes)) (r : Request) : Prop :=
  ∃ k q, issued[k]? = some q ∧ r.id.toNat = o.idOf k ∧ r.opcode.toNat = q.1.value ∧ r.payload = q.2

theorem idOf_inj {o : DosOpening} {issued : List (Opcode × Bytes)} (hperiod : issued.length ≤ 0xFFFF) {k k' : Nat}
    {q q' : Opcode × Bytes} (hk : issued[k]? = some q) (hk' : issued[k']? = some q') (h : o.idOf k = o.idOf k') : q = q' := by
  have h1 := (List.getElem?_eq_some_iff.mp hk).1
  have h2 := (List.getElem?_eq_some_iff.mp hk').1
  have hkk := Serial.stamp_inj_period (by decide) _ (by omega) (by omega) h
  obtain rfl : k = k' := by omega
  rw [hk] at hk'
  exact Option.some.inj hk'

/-! ## The table of a request -/

/-- The fragments that are there are those of the payload. -/
def State.Stores (s : State) (payload : Bytes) : Prop :=
  ∀ i bytes, s.reassembly.fragment s.workspace i = some bytes → bytes = slice payload (i * 1024) 1024

/-- The buffer is free for a response: no session, a request of one packet, or one that was
    processed last. -/
def State.BufferFree (s : State) : Prop :=
  s.session.active = false ∨ s.reassembly.fragmentCount.toNat ≤ 1 ∨ s.session.last = some s.reassembly.requestId

/-- The table belongs to a request with the payload; RA-TSR may have used a free buffer. -/
structure State.TableOf (b : Build) (s : State) (payload : Bytes) : Prop where
  sound : s.reassembly.Sound
  within : ∀ i, s.reassembly.has i = true → i < s.reassembly.fragmentCount.toNat
  stores : (b = .ratsr ∧ s.BufferFree) ∨ s.Stores payload

/-- A packet of the client as the agent sees it. -/
structure Carries (payload : Bytes) (p : DmPacket) : Prop where
  sound : p.Sound
  count_eq : p.fragmentCount.toNat = numFragments payload
  payload_eq : p.payload = slice payload (p.fragmentIndex.toNat * 1024) 1024

theorem carries_ofPacket {opcode : Opcode} {sessionId requestId : Nat} {payload d : Bytes} {key : Bytes} {p : Packet}
    (hp : IsFragment .request opcode sessionId requestId payload p) (hdecode : dmPacketDecode d key = .ok (ofPacket p)) :
    Carries payload (ofPacket p) := by
  obtain ⟨-, -, -, -, -, eindex, ecount, -⟩ := ofPacket_values p
  exact ⟨dmPacketDecode_sound hdecode, ecount.trans hp.count_eq, by rw [eindex]; exact hp.payload_eq⟩

section

variable {s : State} {p : DmPacket} {payload : Bytes} {b : Build}

/-- A fragment stored in a table of its request, or in a new one. -/
theorem Carries.store (hp : Carries payload p) (hactive : s.session.active = true) (hlast : s.session.last ≠ some p.requestId)
    (htable : s.reassembly.requestId = p.requestId → s.TableOf b payload) :
    (s.storeFragment p).reassembly.requestId = p.requestId ∧ (s.storeFragment p).TableOf b payload ∧
      ((s.reassembly.forPacket p).refuses p = false → (s.storeFragment p).Stores payload) := by
  have hid := Reassembly.forPacket_requestId s.reassembly p
  -- the table that the packet goes to
  have hbefore : (s.reassembly.forPacket p).Sound ∧
      (∀ i, (s.reassembly.forPacket p).has i = true → i < (s.reassembly.forPacket p).fragmentCount.toNat) ∧
      ((b = .ratsr ∧ (s.reassembly.forPacket p).fragmentCount.toNat ≤ 1) ∨
        ∀ i bytes, (s.reassembly.forPacket p).fragment s.workspace i = some bytes → bytes = slice payload (i * 1024) 1024) := by
    by_cases hsame : p.requestId = s.reassembly.requestId
    · have ht := htable hsame.symm
      rw [Reassembly.forPacket, if_neg (not_not.mpr hsame)]
      refine ⟨ht.sound, ht.within, ht.stores.imp (fun hfree => ⟨hfree.1, ?_⟩) fun hstores => hstores⟩
      rcases hfree.2 with h | h | h
      · rw [hactive] at h
        cases h
      · exact h
      · exact absurd (hsame ▸ h) hlast
    · refine ⟨?_, fun i hi => ?_, Or.inr fun i bytes hfragment => ?_⟩
      · rw [Reassembly.forPacket, if_pos hsame]
        exact Reassembly.sound_fresh _ _ _
      · simp [Reassembly.forPacket, hsame, Reassembly.has] at hi
      · rw [Reassembly.fragment_forPacket_ne hsame] at hfragment
        cases hfragment
  obtain ⟨hsound, hwithin, hstores⟩ := hbefore
  by_cases hrefuse : (s.reassembly.forPacket p).refuses p = true
  · simp only [State.storeFragment, if_pos hrefuse]
    refine ⟨hid, ⟨hsound, hwithin, hstores.imp (fun h => ⟨h.1, Or.inr (Or.inl h.2)⟩) fun h => h⟩, fun hno => ?_⟩
    rw [hrefuse] at hno
    cases hno
  have hcount : (s.reassembly.forPacket p).fragmentCount = p.fragmentCount := by
    by_contra hne
    exact hrefuse (by simp [Reassembly.refuses, Ne.symm hne])
  have hfits : p.fragmentIndex.toNat * 1024 + p.payload.length ≤ requestBufferSize := by
    by_contra hno
    exact hrefuse (by simp [Reassembly.refuses, Nat.lt_of_not_le hno])
  simp only [State.storeFragment, if_neg hrefuse]
  have hall : ∀ i bytes, ((s.reassembly.forPacket p).add p).fragment
      (s.workspace.store (p.fragmentIndex.toNat * 1024) p.payload) i = some bytes → bytes = slice payload (i * 1024) 1024 := by
    intro i bytes hfragment
    rw [Reassembly.fragment_add hsound hp.sound] at hfragment
    split at hfragment
    · rename_i hi
      rw [hi, ← hp.payload_eq]
      exact (Option.some.inj hfragment).symm
    · rename_i hi
      rcases hstores with ⟨-, hone⟩ | hstores
      · -- a request of one packet has no other fragment
        have hhas : (s.reassembly.forPacket p).has i = true := by
          by_contra hno
          simp [Reassembly.fragment, hno] at hfragment
        have hlt := hwithin i hhas
        have hindex := hp.sound.fragmentIndex_lt
        rw [← hcount] at hindex
        omega
      · exact hstores i bytes hfragment
  refine ⟨hid, ⟨Reassembly.sound_add hsound hp.sound hfits, fun i hi => ?_, Or.inr hall⟩, fun _ => hall⟩
  rw [has_add hp.sound, Bool.or_eq_true, decide_eq_true_eq] at hi
  rcases hi with hi | rfl
  · exact hwithin i hi
  · show p.fragmentIndex.toNat < (s.reassembly.forPacket p).fragmentCount.toNat
    rw [hcount]
    exact hp.sound.fragmentIndex_lt

/-- What a fragment completes is the request it belongs to. -/
theorem Carries.completed (hp : Carries payload p) (hstores : (s.reassembly.forPacket p).refuses p = false →
    (s.storeFragment p).Stores payload) {request : Request} (h : s.completedRequest p = some request) :
    request = ⟨p.opcode, p.requestId, payload⟩ := by
  obtain ⟨hrequest, hthere⟩ := completedRequest_table hp.sound h
  have haccept : (s.reassembly.forPacket p).refuses p = false := by
    by_contra hno
    rw [State.completedRequest, if_pos (by simpa using hno)] at h
    cases h
  have hblocks : ∀ i ∈ List.range (numFragments payload),
      ((s.storeFragment p).reassembly.fragment (s.storeFragment p).workspace i).getD [] =
        slice payload (i * maxFragmentPayload) maxFragmentPayload := by
    intro i hi
    rw [List.mem_range, ← hp.count_eq] at hi
    obtain ⟨bytes, hbytes⟩ := Option.isSome_iff_exists.mp (hthere i hi)
    rw [hbytes]
    exact hstores haccept i bytes hbytes
  rw [hrequest, hp.count_eq, Request.mk.injEq]
  refine ⟨rfl, rfl, ?_⟩
  rw [List.flatMap_congr hblocks, List.flatMap_def, flatten_slices,
    List.take_of_length_le (length_le_numFragments payload)]

end

/-! ## The agent of a run -/

/-- The agent's side of the session: what it may receive, what it has processed, and the table
    of the request in reassembly. -/
structure Holding (o : DosOpening) (issued : List (Opcode × Bytes)) (s : State) : Prop where
  slot_sent : ∀ d, s.slot = some d → d.peer = o.peer ∧ SentOf o issued d.payload
  session_eq : s.session.active = true → s.session.id = o.sessionId ∧ s.session.key = o.key.bytes ∧ s.session.peer = o.peer
  faithful : ∀ r ∈ s.requests, Faithful o issued r
  table : ∀ k q, issued[k]? = some q → s.reassembly.requestId.toNat = o.idOf k → s.TableOf o.build q.2

section

variable {o : DosOpening} {issued : List (Opcode × Bytes)} {s t : State}

/-- A step that processes nothing and leaves the fragments, or uses a free buffer. -/
theorem Holding.keep (h : Holding o issued s) (hslot : t.slot = s.slot ∨ t.slot = none) (hrequests : t.requests = s.requests)
    (hsession : t.session.active = true → s.session.active = true ∧ t.session.id = s.session.id ∧
      t.session.key = s.session.key ∧ t.session.peer = s.session.peer)
    (hreassembly : t.reassembly = s.reassembly)
    (hbuffer : (o.build = .ratsr ∧ t.BufferFree) ∨ ((∀ i, i < requestBufferSize → t.workspace i = s.workspace i) ∧
      (o.build = .ratsr → s.BufferFree → t.BufferFree))) : Holding o issued t := by
  refine ⟨fun d hd => ?_, fun hactive => ?_, ?_, fun k q hk hid => ?_⟩
  · rcases hslot with e | e <;> rw [e] at hd
    · exact h.slot_sent d hd
    · cases hd
  · obtain ⟨ha, hid, hkey, hpeer⟩ := hsession hactive
    obtain ⟨h1, h2, h3⟩ := h.session_eq ha
    exact ⟨hid.trans h1, hkey.trans h2, hpeer.trans h3⟩
  · rw [hrequests]
    exact h.faithful
  · have ht := h.table k q hk (hreassembly ▸ hid)
    refine ⟨hreassembly ▸ ht.sound, hreassembly ▸ ht.within, ?_⟩
    rcases hbuffer with hfree | ⟨hsame, hfree⟩
    · exact Or.inl hfree
    · refine ht.stores.imp (fun hs => ⟨hs.1, hfree hs.1 hs.2⟩) fun hs i bytes hfragment => hs i bytes ?_
      rw [← hfragment, hreassembly]
      exact (fragment_congr ht.sound hsame i).symm

/-- The session stays as it was for the replay check, and so does the buffer. -/
theorem Holding.same (h : Holding o issued s) (hq : Quiet s t) (hreassembly : t.reassembly = s.reassembly)
    (hworkspace : t.workspace = s.workspace) : Holding o issued t := by
  refine h.keep (Or.inl hq.slot_eq) hq.requests_eq (fun hactive => ⟨hq.active_eq ▸ hactive, hq.id_eq, hq.key_eq, hq.peer_eq⟩)
    hreassembly (Or.inr ⟨fun i _ => congrFun hworkspace i, fun _ hfree => ?_⟩)
  unfold State.BufferFree
  rw [hq.active_eq, hreassembly, hq.last_eq]
  exact hfree

theorem Holding.release (h : Holding o issued s) : Holding o issued s.release :=
  h.keep (Or.inr rfl) rfl (fun hactive => ⟨hactive, rfl, rfl, rfl⟩) rfl (Or.inr ⟨fun _ _ => rfl, fun _ hfree => hfree⟩)

theorem Holding.operated (h : Holding o issued s) (hop : Operated s t) : Holding o issued t := by
  refine h.keep (Or.inl hop.slot_eq) hop.requests_eq (fun hactive => ?_) hop.reassembly_eq
    (Or.inr ⟨fun i _ => congrFun hop.workspace_eq i, fun _ hfree => ?_⟩)
  · rw [hop.session_eq] at hactive ⊢
    exact ⟨hactive, rfl, rfl, rfl⟩
  · unfold State.BufferFree
    rw [hop.session_eq, hop.reassembly_eq]
    exact hfree

theorem Holding.beforePoll (h : Holding o issued s) (c : Config) (e : Entry) : Holding o issued (beforePoll c s e) := by
  obtain ⟨-, hslot, hrequests, hreassembly, hworkspace⟩ := beforePoll_session c s e
  rcases beforePoll_active c s e with hsession | hinactive
  · refine h.keep (Or.inl hslot) hrequests (fun hactive => ?_) hreassembly
      (Or.inr ⟨fun i _ => congrFun hworkspace i, fun _ hfree => ?_⟩)
    · rw [hsession] at hactive ⊢
      exact ⟨hactive, rfl, rfl, rfl⟩
    · unfold State.BufferFree
      rw [hsession, hreassembly]
      exact hfree
  · refine h.keep (Or.inl hslot) hrequests (fun hactive => ?_) hreassembly
      (Or.inr ⟨fun i _ => congrFun hworkspace i, fun _ _ => Or.inl hinactive⟩)
    rw [hinactive] at hactive
    cases hactive

theorem resendCached_table (b : Build) (s : State) :
    (resendCached b s).reassembly = s.reassembly ∧ (resendCached b s).workspace = s.workspace := by
  obtain ⟨next, pending, sent, e⟩ := resendCached_session b s
  rw [e]
  exact ⟨rfl, rfl⟩

/-- The reply to a refused copy goes through the buffer in RA-TSR. -/
theorem Holding.refused (h : Holding o issued s) {opcode : UInt8} (hopcode : 1 ≤ opcode ∧ opcode ≤ 18) (id code : UInt16)
    (message : String) (hspare : o.build = .ratsr → s.reassembly.fragmentCount.toNat ≤ 1) :
    Holding o issued (sendError o.build s opcode id code message) := by
  have hr := sendError_responded o.build s hopcode id code message
  refine h.keep (Or.inl hr.slot_eq) hr.requests_eq (fun hactive => ⟨hr.active_eq ▸ hactive, hr.id_eq, hr.key_eq, hr.peer_eq⟩)
    hr.reassembly_eq ?_
  cases hb : o.build with
  | ratsr => exact Or.inl ⟨rfl, Or.inr (Or.inl (by rw [← hb, hr.reassembly_eq]; exact hspare hb))⟩
  | ragent =>
    exact Or.inr ⟨fun i _ => congrFun (sendResponse_ragent s _ _ _ _).2.2 i, fun hratsr => by cases hratsr⟩

/-- A request that the agent processes with the payload the client sent. -/
theorem Holding.processed (h : Holding o issued s) (hperiod : issued.length ≤ 0xFFFF) (c : Config) {k : Nat} {q : Opcode × Bytes}
    (hk : issued[k]? = some q) {opcode : UInt8} {id : UInt16} (hopcode : 1 ≤ opcode ∧ opcode ≤ 18)
    (hop : opcode.toNat = q.1.value) (hid : id.toNat = o.idOf k) (hreassembly : s.reassembly.requestId = id)
    (htable : s.TableOf o.build q.2) : Holding o issued (processRequest o.build c s opcode id q.2) := by
  have hr := processRequest_processed o.build c s hopcode id q.2
  refine ⟨fun d hd => ?_, fun hactive => ?_, fun r hr' => ?_, fun k' q' hk' hid' => ?_⟩
  · rw [hr.slot_eq] at hd
    exact h.slot_sent d hd
  · rw [hr.active_eq] at hactive
    rw [hr.id_eq, hr.key_eq, hr.peer_eq]
    exact h.session_eq hactive
  · rw [hr.requests_eq, List.mem_append, List.mem_singleton] at hr'
    rcases hr' with hold | rfl
    · exact h.faithful r hold
    · exact ⟨k, q, hk, hid, hop, rfl⟩
  · rw [hr.reassembly_eq, hreassembly, hid] at hid'
    obtain rfl := idOf_inj hperiod hk hk' hid'
    refine ⟨hr.reassembly_eq ▸ htable.sound, hr.reassembly_eq ▸ htable.within, ?_⟩
    cases hb : o.build with
    | ratsr =>
      refine Or.inl ⟨rfl, Or.inr (Or.inr ?_)⟩
      rw [← hb, hr.reassembly_eq, hreassembly]
      simp [AgentSession.last, hr.hasLastRequest_eq, hr.lastRequestId_eq]
    | ragent =>
      -- the response went to the other buffer
      refine Or.inr fun i bytes hfragment => ?_
      rw [← hb, hr.reassembly_eq, hb, fragment_congr htable.sound (processRequest_ragent c s opcode id q.2).2.2] at hfragment
      exact (htable.stores.resolve_left fun hratsr => by rw [hb] at hratsr; cases hratsr.1) i bytes hfragment

/-- A datagram of the client; when it is refused, RA-TSR must have its buffer free. -/
theorem Holding.process (h : Holding o issued s) (hperiod : issued.length ≤ 0xFFFF) (c : Config) {d : Datagram}
    (hslot : s.slot = some d)
    (hspare : o.build = .ratsr → s.refusesDatagram d = true → s.reassembly.fragmentCount.toNat ≤ 1) :
    Holding o issued (processDatagram o.build c s d) := by
  obtain ⟨hpeer, k, q, p, hk, hhello, hd, hp⟩ := h.slot_sent d hslot
  obtain ⟨-, eopcode, -, -, erid, -, -, -⟩ := ofPacket_values p
  have hheardPacket : Heard o d (ofPacket p) := heard_ofPacket hd hpeer hp.kind_eq (hp.opcode_eq ▸ hhello) hp.sessionId_eq
  cases hactive : s.session.active with
  | false =>
    rw [hheardPacket.inactive hactive]
    exact h
  | true =>
    obtain ⟨hid, hkey, hspeer⟩ := h.session_eq hactive
    rw [hheardPacket.active hactive hid hkey hspeer]
    have hdecode := hheardPacket.decode_eq
    have hrange := (dmPacketDecode_opcode hdecode).2
    have hcarries : Carries q.2 (ofPacket p) := carries_ofPacket hp hdecode
    have hheard : Holding o issued (s.heard (ofPacket p)) := h.same (heard_quiet s _) rfl rfl
    have hpid : (ofPacket p).requestId.toNat = o.idOf k := erid.trans hp.requestId_eq
    rcases processSessionPacket_cases o.build c (s.heard (ofPacket p)) (ofPacket p) with ⟨-, e⟩ | ⟨hr, e⟩ | ⟨hnewer, hrest⟩
    · rw [e]
      obtain ⟨hreassembly, hworkspace⟩ := resendCached_table o.build (s.heard (ofPacket p))
      exact hheard.same (resendCached_quiet o.build _) hreassembly hworkspace
    · rw [e]
      refine hheard.refused hrange _ _ _ fun hratsr => hspare hratsr ?_
      simp only [State.refusesDatagram, hactive, hkey, hdecode, Bool.true_and]
      exact hr
    -- newer than the last request: the fragment is stored
    have hlast : (s.heard (ofPacket p)).session.last ≠ some (ofPacket p).requestId := by
      intro hl
      have hself := hnewer _ hl
      simp [requestIsNewer] at hself
    obtain ⟨hrid, htable, hstores⟩ := hcarries.store (s := s.heard (ofPacket p)) (b := o.build) hactive hlast
      fun hsame => hheard.table k q hk (by rw [hsame]; exact hpid)
    have hstored : Holding o issued ((s.heard (ofPacket p)).storeFragment (ofPacket p)) := by
      have hq := storeFragment_quiet (s.heard (ofPacket p)) (ofPacket p)
      refine ⟨fun d' hd' => ?_, fun ha => ?_, ?_, fun k' q' hk' hid' => ?_⟩
      · rw [hq.slot_eq] at hd'
        exact hheard.slot_sent d' hd'
      · rw [hq.active_eq] at ha
        rw [hq.id_eq, hq.key_eq, hq.peer_eq]
        exact hheard.session_eq ha
      · rw [hq.requests_eq]
        exact hheard.faithful
      · rw [hrid, hpid] at hid'
        obtain rfl := idOf_inj hperiod hk hk' hid'
        exact htable
    rcases hrest with ⟨-, e⟩ | ⟨payload, hdone, e⟩
    · rw [e]
      exact hstored
    · rw [e]
      obtain rfl : payload = q.2 := by
        have hr := hcarries.completed hstores hdone
        exact congrArg Request.payload hr
      exact hstored.processed hperiod c hk hrange (eopcode.trans (by rw [hp.opcode_eq])) hpid hrid htable

end

/-! ## The condition -/

/-- The step of RA-TSR writes a response over the fragments of a request of several packets:
    it refuses a datagram, or sends a part of a text screen that is not the answer to it. -/
def spoilsAt (b : Build) (c : Config) (s : State) (e : Entry) : Bool :=
  match b with
  | .ragent => false
  | .ratsr =>
    let t := beforePoll c s e
    t.reassembly.fragmentCount > 1 &&
      (refusesAt .ratsr c s e ||
        (s.enabled && t.session.responsePending && t.session.responseOpcode = 4 &&
          t.session.last ≠ some t.reassembly.requestId))

/-- No step of the run spoils a request of several packets. -/
def sparesFragments (o : DosOpening) : DosNet → List DosEvent → Bool
  | _, [] => true
  | n, .work e :: events => !spoilsAt o.build o.config n.state e && sparesFragments o (n.step o (.work e)) events
  | n, event :: events => sparesFragments o (n.step o event) events

/-! ## Steps -/

/-- The buffer under the emission of a fragment. -/
theorem emitFragment_table (s : State) :
    (emitFragment s).reassembly = s.reassembly ∧
      ((emitFragment s).workspace = s.workspace ∨ s.session.responseOpcode = 4) := by
  by_cases hcapture : s.session.responseOpcode = 4
  · refine ⟨?_, Or.inr hcapture⟩
    unfold emitFragment
    dsimp only
    split <;> rfl
  · have hsame : (nextFragment s).2 = s.workspace := by simp [nextFragment, hcapture]
    unfold emitFragment
    simp only [hsame]
    split <;> exact ⟨rfl, Or.inl rfl⟩

section

variable {o : DosOpening} {issued : List (Opcode × Bytes)} {s t : State}

theorem Holding.emit (h : Holding o issued s) (hratsr : o.build = .ratsr)
    (hspare : s.session.responseOpcode = 4 → s.reassembly.fragmentCount.toNat ≤ 1 ∨ s.session.last = some s.reassembly.requestId) :
    Holding o issued (emitFragment s) := by
  obtain ⟨hreassembly, hworkspace⟩ := emitFragment_table s
  have hq := emitFragment_quiet s
  rcases hworkspace with hsame | hcapture
  · exact h.same hq hreassembly hsame
  · refine h.keep (Or.inl hq.slot_eq) hq.requests_eq (fun hactive => ⟨hq.active_eq ▸ hactive, hq.id_eq, hq.key_eq, hq.peer_eq⟩)
      hreassembly (Or.inl ⟨hratsr, Or.inr ?_⟩)
    rw [hreassembly, hq.last_eq]
    exact hspare hcapture

theorem Holding.poll (h : Holding o issued s) (hratsr : o.build = .ratsr) (hperiod : issued.length ≤ 0xFFFF) {c : Config}
    {e : Entry} (hspare : ∀ d, s.slot = some d → ¬ (dosOperation s d.payload = true ∧ ¬ e.dosSafe = true) →
      s.refusesDatagram d = true → s.reassembly.fragmentCount.toNat ≤ 1) : Holding o issued (pollDatagram c s e) := by
  rcases pollDatagram_cases c s e with ⟨-, hpoll⟩ | ⟨d, result, -, -, hpoll⟩ | ⟨d, hslot, hnow, hpoll⟩
  · rw [hpoll]
    exact h
  · -- deferred
    have hnoted : Holding o issued { s with lastProtocolResult := result } := h.same ⟨rfl, rfl, rfl, rfl, rfl, rfl, rfl, rfl⟩ rfl rfl
    rcases hpoll with hpoll | hpoll
    · rw [hpoll]
      exact hnoted
    · rw [hpoll]
      exact hnoted.release
  · have hprocess := h.process hperiod c hslot fun _ => hspare d hslot hnow
    rw [hratsr] at hprocess
    rw [hpoll]
    exact hprocess.release

/-- One step of the agent. -/
theorem Holding.runAgent (h : Holding o issued s) (hperiod : issued.length ≤ 0xFFFF) {c : Config} {e : Entry}
    (hspare : spoilsAt o.build c s e = false) : Holding o issued (runAgent o.build c s e) := by
  cases hb : o.build with
  | ragent =>
    simp only [Dos.runAgent, ragentTurn]
    have hm : Holding o issued { s with machine := e.machine } := h.operated ⟨rfl, rfl, rfl, rfl, rfl, rfl, rfl, rfl⟩
    refine Holding.operated ?_ (processShellKeyboard_operated c _)
    split
    · exact hm
    · rename_i d hslot
      have hprocess := hm.process hperiod c hslot fun hratsr => by rw [hb] at hratsr; cases hratsr
      rw [hb] at hprocess
      exact hprocess.release
  | ratsr =>
    have hbefore := h.beforePoll c e
    simp only [hb, spoilsAt, Bool.and_eq_false_iff, decide_eq_false_iff_not, Bool.or_eq_false_iff] at hspare
    have hone : ¬ (Dos.beforePoll c s e).reassembly.fragmentCount > 1 →
        (Dos.beforePoll c s e).reassembly.fragmentCount.toNat ≤ 1 := fun hno => by
      rw [gt_iff_lt, UInt8.not_lt, UInt8.le_iff_toNat_le] at hno
      exact hno
    simp only [Dos.runAgent, ratsrIdleWorker]
    split
    · exact h
    rename_i henabled
    split
    · rename_i hpending
      refine hbefore.emit hb fun hcapture => ?_
      rcases hspare with hno | ⟨-, hno⟩
      · exact Or.inl (hone hno)
      · right
        simp only [not_not] at henabled
        by_contra hlast
        simp [henabled, hpending, hcapture, hlast] at hno
    rename_i hpending
    split
    · exact hbefore.same (emitHello_quiet _) rfl rfl
    rename_i hhello
    refine hbefore.poll hb hperiod fun d hslot hnow hrefuse => ?_
    rcases hspare with hno | ⟨hno, -⟩
    · exact hone hno
    · -- the datagram is polled, so it would be refused here
      simp only [not_not] at henabled
      have hpolled : polledDatagram c s e = some d := by
        simp only [polledDatagram, henabled, hpending, hhello, hslot, Bool.true_and, Bool.not_false, if_true, if_neg hnow]
      simp [refusesAt, hpolled, hrefuse] at hno

end

/-! ## Whole runs -/

/-- A run whose requests are, in the end, the given ones. -/
structure DosNet.Holds (o : DosOpening) (issued : List (Opcode × Bytes)) (n : DosNet) : Prop where
  requestId_eq : n.requestId = Serial.stamp 0x10000 (o.hello.requestId.toNat - 1) n.issued
  sent_of : ∀ d ∈ n.sent, SentOf o issued d
  holding : Holding o issued n.state

theorem Holding.arrive {o : DosOpening} {issued : List (Opcode × Bytes)} {s : State} (h : Holding o issued s) {d : Bytes}
    (hd : SentOf o issued d) : Holding o issued (arrive s ⟨d, o.peer⟩) := by
  unfold Dos.arrive
  split
  · refine ⟨fun d' hd' => ?_, h.session_eq, h.faithful, fun k q hk hid => ?_⟩
    · obtain rfl : ⟨d, o.peer⟩ = d' := Option.some.inj hd'
      exact ⟨rfl, hd⟩
    · exact ⟨(h.table k q hk hid).sound, (h.table k q hk hid).within, (h.table k q hk hid).stores⟩
  · exact h

theorem DosNet.Holds.issue {o : DosOpening} {issued : List (Opcode × Bytes)} {n : DosNet} (h : n.Holds o issued)
    {opcode : Opcode} {payload : Bytes} (notHello : opcode ≠ .hello) (hk : issued[n.issued]? = some (opcode, payload)) :
    (n.step o (.issue opcode payload notHello)).Holds o issued := by
  have hid : nextRequestId n.requestId = o.idOf n.issued := by
    rw [nextRequestId_eq, h.requestId_eq, Serial.next_stamp (by decide)]
    rfl
  refine ⟨hid, fun d hd => ?_, h.holding⟩
  rcases List.mem_append.mp hd with hd | hd
  · exact h.sent_of d hd
  · rw [hid] at hd
    obtain ⟨p, hd, hp⟩ := mem_issueDatagrams hd
    exact ⟨n.issued, (opcode, payload), p, hk, notHello, hd, hp⟩

theorem DosNet.Holds.arrive {o : DosOpening} {issued : List (Opcode × Bytes)} {n : DosNet} (h : n.Holds o issued) (index : Nat) :
    (n.step o (.arrive index)).Holds o issued := by
  simp only [DosNet.step]
  split
  · exact h
  · rename_i d hd
    exact ⟨h.requestId_eq, h.sent_of, h.holding.arrive (h.sent_of d (List.mem_of_getElem? hd))⟩

theorem DosNet.Holds.work {o : DosOpening} {issued : List (Opcode × Bytes)} {n : DosNet} (h : n.Holds o issued)
    (hperiod : issued.length ≤ 0xFFFF) {e : Entry} (hspare : spoilsAt o.build o.config n.state e = false) :
    (n.step o (.work e)).Holds o issued :=
  ⟨h.requestId_eq, h.sent_of, h.holding.runAgent hperiod hspare⟩

theorem sparesFragments_cons {o : DosOpening} {n : DosNet} {e : DosEvent} {events : List DosEvent}
    (h : sparesFragments o n (e :: events) = true) :
    (∀ entry, e = .work entry → spoilsAt o.build o.config n.state entry = false) ∧
      sparesFragments o (n.step o e) events = true := by
  cases e with
  | issue opcode payload notHello => exact ⟨by simp, h⟩
  | arrive index => exact ⟨by simp, h⟩
  | work entry =>
    simp only [sparesFragments, Bool.and_eq_true, Bool.not_eq_true'] at h
    exact ⟨fun entry' he => by cases he; exact h.1, h.2⟩

theorem DosNet.Holds.run {o : DosOpening} {n : DosNet} {events : List DosEvent} (before : List (Opcode × Bytes))
    (h : n.Holds o (before ++ issuedRequests events)) (hn : n.issued = before.length)
    (hperiod : (before ++ issuedRequests events).length ≤ 0xFFFF) (hspare : sparesFragments o n events = true) :
    (n.run o events).Holds o (before ++ issuedRequests events) := by
  induction events generalizing n before with
  | nil => exact h
  | cons e events ih =>
    obtain ⟨he, hrest⟩ := sparesFragments_cons hspare
    cases e with
    | issue opcode payload notHello =>
      have hall : before ++ issuedRequests (.issue opcode payload notHello :: events) =
          (before ++ [(opcode, payload)]) ++ issuedRequests events := by simp [issuedRequests]
      rw [hall] at h hperiod ⊢
      refine ih (before ++ [(opcode, payload)]) (h.issue notHello ?_) ?_ hperiod hrest
      · simp [hn]
      · simp [DosNet.step, hn]
    | arrive index =>
      have hissued : (n.step o (.arrive index)).issued = n.issued := by
        simp only [DosNet.step]
        split <;> rfl
      exact ih before (h.arrive index) (hissued.trans hn) hperiod hrest
    | work entry => exact ih before (h.work hperiod (he entry rfl)) hn hperiod hrest

/-- The request ID that earlier sessions have left is none of the session's. -/
def leftAlone (o : DosOpening) (events : List DosEvent) : Bool :=
  (List.range (issuedRequests events).length).all fun k => o.state.reassembly.requestId.toNat ≠ o.idOf k

theorem DosOpening.opened_active (o : DosOpening) : o.opened.session.active = true := by
  have hpass : ¬ (o.hello.payloadLength ≠ 4 ∨ o.hello.fragmentCount ≠ 1) := by
    simp [o.payloadLength_eq, o.fragmentCount_eq]
  unfold DosOpening.opened processHello
  rw [if_neg hpass]
  rfl

theorem DosOpening.opened_reassembly (o : DosOpening) : o.opened.reassembly = o.state.reassembly := by
  unfold DosOpening.opened processHello
  split
  · rfl
  · dsimp only
    split <;> rfl

theorem DosOpening.holds_start {o : DosOpening} {events : List DosEvent} (hleft : leftAlone o events = true) :
    o.start.Holds o (issuedRequests events) where
  requestId_eq := o.inv_start.requestId_eq
  sent_of := fun d h => absurd h List.not_mem_nil
  holding := by
    obtain ⟨hslot, hrequests, hid, hkey, hpeer, -⟩ := o.opened_session
    refine ⟨fun d h => ?_, fun _ => ⟨hid, hkey, hpeer⟩, fun r hr => ?_, fun k q hk hsame => ?_⟩
    · rw [show o.start.state = o.opened from rfl, hslot] at h
      cases h
    · rw [show o.start.state = o.opened from rfl, hrequests] at hr
      cases hr
    · rw [show o.start.state = o.opened from rfl, o.opened_reassembly] at hsame
      simp only [leftAlone, List.all_eq_true, List.mem_range, decide_eq_true_eq] at hleft
      exact absurd hsame (hleft k (List.getElem?_eq_some_iff.mp hk).1)

/-- Every request that a DOS agent processes is one the client issued, byte for byte, in every
    run that spares the fragments of its requests. -/
theorem faithful_run {o : DosOpening} {events : List DosEvent} (hperiod : (issuedRequests events).length ≤ 0xFFFF)
    (hleft : leftAlone o events = true) (hspare : sparesFragments o o.start events = true) :
    ∀ r ∈ (o.start.run o events).state.requests, Faithful o (issuedRequests events) r :=
  (DosNet.Holds.run [] (DosOpening.holds_start hleft) rfl hperiod hspare).holding.faithful

/-- What a DOS agent processes in a session is what the client sent: in every run that spares
    the fragments (in RAGENT every run does), with IDs that do not repeat and are not the one
    that earlier sessions have left. -/
theorem processes_what_was_sent (o : DosOpening) (events : List DosEvent) (hperiod : (issuedRequests events).length ≤ 0xFFFF)
    (hleft : leftAlone o events = true) (hspare : sparesFragments o o.start events = true) :
    ∀ r ∈ (o.start.run o events).state.requests, Faithful o (issuedRequests events) r :=
  faithful_run hperiod hleft hspare

theorem processes_what_was_sent_retry :
    ((lateOpening .ratsr).start.run (lateOpening .ratsr) retriedPing).state.requests ≠ [] ∧
      ∀ r ∈ ((lateOpening .ratsr).start.run (lateOpening .ratsr) retriedPing).state.requests,
        Faithful (lateOpening .ratsr) (issuedRequests retriedPing) r := by
  refine ⟨by decide +kernel, ?_⟩
  exact processes_what_was_sent (lateOpening .ratsr) retriedPing (by decide) (by decide +kernel) (by decide +kernel)

/-! ## An error reply between two fragments -/

/-- RA-TSR has nothing to send, in the session of the opening. -/
def ready (o : DosOpening) (s : State) : Bool :=
  !s.session.responsePending ∧ !s.session.helloPending ∧ s.session.active ∧ s.session.id = o.sessionId ∧
    s.session.key = o.key.bytes ∧ s.session.peer = o.peer

/-- A DOS-idle entry that polls a datagram of the session. -/
theorem ratsrIdleWorker_heard {o : DosOpening} {s : State} {e : Entry} {d : Datagram} {p : DmPacket} (h : Heard o d p)
    (hsafe : e.dosSafe = true) (hslot : s.slot = some d) (henabled : s.enabled = true)
    (hready : ready o (beforePoll o.config s e) = true) :
    ratsrIdleWorker o.config s e =
      (processSessionPacket .ratsr o.config ((beforePoll o.config s e).heard p) p).release := by
  simp only [ready, decide_eq_true_eq, Bool.not_eq_true'] at hready
  obtain ⟨hpending, hhello, hactive, hid, hkey, hpeer⟩ := hready
  have hslot' : (beforePoll o.config s e).slot = some d := by rw [(beforePoll_session o.config s e).2.1, hslot]
  rw [ratsrIdleWorker, if_neg (by simp [henabled])]
  dsimp only
  rw [if_neg (by simp [hpending]), if_neg (by simp [hhello]), pollDatagram, hslot']
  dsimp only
  rw [if_neg (by simp [hsafe]), h.active hactive hid hkey hpeer]

/-- The agent with a datagram in its receive buffer. -/
def State.withSlot (s : State) (d : Datagram) : State := { s with slot := some d }

theorem withSlot_slot (s : State) (d : Datagram) : (s.withSlot d).slot = some d := rfl

theorem withSlot_enabled (s : State) (d : Datagram) : (s.withSlot d).enabled = s.enabled := rfl

def dosIdleEntry : Entry := ⟨true, false, blankMachine⟩

def idleWork : DosEvent := .work dosIdleEntry

def twoPings : List DosEvent := pingEvent :: deliver 0 ++ pingEvent :: deliver 1 ++ [timerWork]

def bigPayload : Bytes := List.replicate 1025 0x41

/-- A ping of two packets. -/
def bigPing : DosEvent := .issue .ping bigPayload ping_ne_hello

/-- The packets of the big ping under ID 4. -/
def bigFragment (index : Nat) (hindex : index < 2) : Packet where
  kind := .request
  opcode := .ping
  sessionId := (lateOpening .ratsr).sessionId.toNat
  requestId := 4
  fragmentIndex := index
  fragmentCount := 2
  payload := slice bigPayload (index * maxFragmentPayload) maxFragmentPayload
  flags := 0
  flags_zero := Packet.flags_none
  sessionId_le := Nat.le_of_lt_succ (UInt16.toNat_lt _)
  requestId_le := by decide
  fragmentCount_range := by decide
  fragmentIndex_lt := hindex
  payload_le := by rw [slice_length]; exact Nat.min_le_left _ _

def bigDatagram (index : Nat) (hindex : index < 2) : Datagram :=
  ⟨dosTransportDatagram ((bigFragment index hindex).encode (lateOpening .ratsr).key), (lateOpening .ratsr).peer⟩

theorem issue_bigPing : issueDatagrams (lateOpening .ratsr).key (lateOpening .ratsr).sessionId.toNat 4 .ping bigPayload =
    [(bigDatagram 0 (by decide)).payload, (bigDatagram 1 (by decide)).payload] := by
  have hlength : bigPayload.length = 1025 := List.length_replicate
  have hmake : ∀ index (hindex : index < 2), Packet.make .request .ping (lateOpening .ratsr).sessionId.toNat 4 index 2
      (slice bigPayload (index * maxFragmentPayload) maxFragmentPayload) 0 = .ok (bigFragment index hindex) := fun index hindex =>
    Packet.make_ok _ _ (by decide) hindex _
  have hpackets : requestPackets .ping (lateOpening .ratsr).sessionId.toNat 4 bigPayload =
      .ok [bigFragment 0 (by decide), bigFragment 1 (by decide)] := by
    rw [requestPackets, fragmentMessage, hlength, if_neg (by decide)]
    show (List.range 2).mapM _ = _
    rw [mapM_eq_ok_iff]
    exact .cons (hmake 0 (by decide)) (.cons (hmake 1 (by decide)) .nil)
  simp only [issueDatagrams, hpackets, requestDatagrams, List.map_cons, List.map_nil, bigDatagram]

/-- RA-TSR after the pings under IDs 2 and 3. -/
def pinged : DosNet := (lateOpening .ratsr).start.run (lateOpening .ratsr) twoPings

/-- It gets the first packet of the big ping from DOS idle. -/
def halfBig : State :=
  (processSessionPacket .ratsr (lateOpening .ratsr).config
    ((beforePoll (lateOpening .ratsr).config (pinged.state.withSlot (bigDatagram 0 (by decide))) dosIdleEntry).heard
      (ofPacket (bigFragment 0 (by decide)))) (ofPacket (bigFragment 0 (by decide)))).release

/-- A late copy of ping 2 arrives; two timer entries refuse it and send the reply. -/
def refusedBetween : State :=
  ratsrIdleWorker (lateOpening .ratsr).config (ratsrIdleWorker (lateOpening .ratsr).config
    (match pinged.sent[0]? with
      | none => halfBig
      | some d => arrive halfBig ⟨d, (lateOpening .ratsr).peer⟩) ⟨false, false, blankMachine⟩) ⟨false, false, blankMachine⟩

/-- The second packet of the big ping. -/
def spoiled : State :=
  (processSessionPacket .ratsr (lateOpening .ratsr).config
    ((beforePoll (lateOpening .ratsr).config (refusedBetween.withSlot (bigDatagram 1 (by decide))) dosIdleEntry).heard
      (ofPacket (bigFragment 1 (by decide)))) (ofPacket (bigFragment 1 (by decide)))).release

def spoiledRun : List DosEvent := twoPings ++ ([bigPing] ++ ([.arrive 2, idleWork] ++ (deliver 0 ++ [.arrive 3, idleWork])))

theorem bigDatagram_heard (index : Nat) (hindex : index < 2) :
    Heard (lateOpening .ratsr) (bigDatagram index hindex) (ofPacket (bigFragment index hindex)) := by
  refine heard_ofPacket ?_ ?_ ?_ ?_ ?_
  · simp only [bigDatagram]
  · simp only [bigDatagram]
  · simp only [bigFragment]
  · simp only [bigFragment]
    decide
  · simp only [bigFragment]

theorem DosNet.run_append (o : DosOpening) (n : DosNet) (a b : List DosEvent) : n.run o (a ++ b) = (n.run o a).run o b :=
  List.foldl_append

/-- A datagram arrives in the free buffer, and the worker is entered. -/
theorem DosNet.run_deliver {o : DosOpening} (hb : o.build = .ratsr) {n : DosNet} {k : Nat} {d : Datagram}
    (hd : n.sent[k]? = some d.payload) (hpeer : d.peer = o.peer) (hslot : n.state.slot = none) (e : Entry) :
    (n.run o [.arrive k, .work e]).state = ratsrIdleWorker o.config (n.state.withSlot d) e ∧
      (n.run o [.arrive k, .work e]).sent = n.sent := by
  simp only [DosNet.run, List.foldl_cons, List.foldl_nil, DosNet.step, hd, arrive, hslot, runAgent, hb, ← hpeer, and_true]
  rfl

theorem pinged_ready : pinged.sent.length = 2 ∧ pinged.requestId = 3 ∧ pinged.state.slot = none ∧ pinged.state.enabled = true ∧
    ready (lateOpening .ratsr) (beforePoll (lateOpening .ratsr).config
      (pinged.state.withSlot (bigDatagram 0 (by decide))) dosIdleEntry) = true := by
  decide +kernel

theorem refusedBetween_ready : refusedBetween.slot = none ∧ refusedBetween.enabled = true ∧
    ready (lateOpening .ratsr) (beforePoll (lateOpening .ratsr).config
      (refusedBetween.withSlot (bigDatagram 1 (by decide))) dosIdleEntry) = true := by
  decide +kernel

theorem spoiledRun_state : ((lateOpening .ratsr).start.run (lateOpening .ratsr) spoiledRun).state = spoiled := by
  obtain ⟨hlength, hrequestId, hslot, henabled, hready⟩ := pinged_ready
  obtain ⟨hslot', henabled', hready'⟩ := refusedBetween_ready
  have hissue : (pinged.run (lateOpening .ratsr) [bigPing]).state = pinged.state ∧
      (pinged.run (lateOpening .ratsr) [bigPing]).sent =
        pinged.sent ++ [(bigDatagram 0 (by decide)).payload, (bigDatagram 1 (by decide)).payload] := by
    simp only [DosNet.run, List.foldl_cons, List.foldl_nil, bigPing, DosNet.step, hrequestId, true_and]
    rw [show nextRequestId 3 = 4 by decide, issue_bigPing]
  have hfirst : ∀ n : DosNet, n.state = pinged.state → n.sent[2]? = some (bigDatagram 0 (by decide)).payload →
      (n.run (lateOpening .ratsr) [.arrive 2, idleWork]).state = halfBig ∧
        (n.run (lateOpening .ratsr) [.arrive 2, idleWork]).sent = n.sent := by
    intro n hstate hsent
    obtain ⟨hnext, hkept⟩ := DosNet.run_deliver rfl hsent (bigDatagram_heard 0 (by decide)).peer_eq (by rw [hstate]; exact hslot)
      dosIdleEntry
    refine ⟨hnext.trans ?_, hkept⟩
    rw [hstate, halfBig]
    exact ratsrIdleWorker_heard (bigDatagram_heard 0 (by decide)) (by decide) (withSlot_slot _ _)
      ((withSlot_enabled _ _).trans henabled) hready
  have hbetween : ∀ n : DosNet, n.state = halfBig → n.sent[0]? = pinged.sent[0]? →
      (n.run (lateOpening .ratsr) (deliver 0)).state = refusedBetween ∧
        (n.run (lateOpening .ratsr) (deliver 0)).sent = n.sent := by
    intro n hstate hsent
    simp only [deliver, timerWork, DosNet.run, List.foldl_cons, List.foldl_nil, DosNet.step, hsent]
    rw [refusedBetween, ← hstate]
    cases pinged.sent[0]? <;> exact ⟨rfl, rfl⟩
  have hsecond : ∀ n : DosNet, n.state = refusedBetween → n.sent[3]? = some (bigDatagram 1 (by decide)).payload →
      (n.run (lateOpening .ratsr) [.arrive 3, idleWork]).state = spoiled := by
    intro n hstate hsent
    obtain ⟨hnext, -⟩ := DosNet.run_deliver rfl hsent (bigDatagram_heard 1 (by decide)).peer_eq (by rw [hstate]; exact hslot')
      dosIdleEntry
    refine hnext.trans ?_
    rw [hstate, spoiled]
    exact ratsrIdleWorker_heard (bigDatagram_heard 1 (by decide)) (by decide) (withSlot_slot _ _)
      ((withSlot_enabled _ _).trans henabled') hready'
  have hpinged : (lateOpening .ratsr).start.run (lateOpening .ratsr) twoPings = pinged := rfl
  rw [spoiledRun, DosNet.run_append, hpinged, DosNet.run_append, DosNet.run_append, DosNet.run_append]
  obtain ⟨hstate1, hsent1⟩ := hissue
  obtain ⟨hstate2, hsent2⟩ := hfirst _ hstate1 (by simp [hsent1, hlength])
  obtain ⟨hstate3, hsent3⟩ := hbetween _ hstate2 (by simp [hsent2, hsent1, hlength])
  exact hsecond _ hstate3 (by simp [hsent3, hsent2, hsent1, hlength])

theorem spoiled_requests : spoiled.requests.map (fun r => (r.id, byteAt r.payload 0)) = [(2, 0), (3, 0), (4, 4)] := by
  decide +kernel

/-- RA-TSR processes the big ping with the error reply in place of its first bytes. -/
theorem refused_copy_spoils_fragment :
    ¬ ∀ r ∈ ((lateOpening .ratsr).start.run (lateOpening .ratsr) spoiledRun).state.requests,
      Faithful (lateOpening .ratsr) (issuedRequests spoiledRun) r := by
  intro hall
  rw [spoiledRun_state] at hall
  have hmem : ((4 : UInt16), (4 : UInt8)) ∈ spoiled.requests.map fun r => (r.id, byteAt r.payload 0) := by
    rw [spoiled_requests]
    simp
  obtain ⟨r, hr, hpair⟩ := List.mem_map.mp hmem
  obtain ⟨hid, hbyte⟩ := Prod.mk.inj hpair
  obtain ⟨k, q, hk, hidOf, -, hpayload⟩ := hall r hr
  have hissued : issuedRequests spoiledRun = [(.ping, []), (.ping, []), (.ping, bigPayload)] := rfl
  rw [hissued] at hk
  rw [hid] at hidOf
  -- the ID is that of the third request
  match k, hk with
  | 0, _ => exact absurd hidOf (by decide)
  | 1, _ => exact absurd hidOf (by decide)
  | 2, hk =>
    obtain rfl := Option.some.inj hk
    rw [hpayload] at hbyte
    exact absurd hbyte (by decide)
  | k + 3, hk => simp at hk

end DosMcp.Dos
