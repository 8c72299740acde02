/-
  DosMcp.System.Delivery — what the two agents dispatch of a client's requests.

  The agent server keeps fragments in dictionaries, RAGENT in one buffer with a mask that a
  new request ID starts over. Over the runs of `Integrity` and `DosIntegrity` both give the
  client the same: what is dispatched is what was sent, and a request newer than everything
  seen, delivered with nothing else in between, is dispatched once
  (`requests_reassembled`).
-/

import DosMcp.System.DosIntegrity
import DosMcp.System.Integrity

namespace DosMcp.Dos

open Lib

/-! ## A full buffer -/

/-- A fragment before the last one is full. -/
theorem slice_full {payload : Bytes} {i : Nat} (hi : i + 1 < numFragments payload) :
    (slice payload (i * 1024) 1024).length = 1024 := by
  rw [slice_length]
  simp only [numFragments, maxFragmentPayload] at hi
  omega

/-- A table in which all fragments of the payload are stored is complete. -/
theorem Reassembly.complete_of_fragments {r : Reassembly} {m : Memory} {payload : Bytes}
    (hcount : r.fragmentCount.toNat = numFragments payload) (hle : r.fragmentCount.toNat ≤ 32)
    (hwithin : ∀ i, r.has i = true → i < r.fragmentCount.toNat)
    (hstores : ∀ i bytes, r.fragment m i = some bytes → bytes = slice payload (i * 1024) 1024)
    (hall : ∀ i < r.fragmentCount.toNat, r.has i = true) : r.complete = true := by
  simp only [Reassembly.complete, Bool.and_eq_true, decide_eq_true_eq, List.all_eq_true, List.mem_range]
  constructor
  · apply UInt32.toNat_inj.mp
    apply Nat.eq_of_testBit_eq
    intro i
    rw [expectedMask_testBit hle]
    by_cases hi : i < r.fragmentCount.toNat
    · rw [decide_eq_true hi]
      exact hall i hi
    · rw [decide_eq_false hi, ← Bool.not_eq_true]
      exact fun hhas => hi (hwithin i hhas)
  · intro i hi
    have hfragment : r.fragment m i = some (m.load (i * 1024) (r.fragmentLengths.getD i 0).toNat) := by
      rw [Reassembly.fragment, if_pos (hall i (by omega))]
    have hlength := congrArg List.length (hstores i _ hfragment)
    rw [slice_full (by omega)] at hlength
    apply UInt16.toNat_inj.mp
    simpa [Memory.load, dmMaxFragmentPayload] using hlength

/-- The reassembly holds a request: its opcode and number of fragments, and some of them. -/
structure State.Collects (s : State) (payload : Bytes) (p : DmPacket) : Prop where
  table : s.TableOf .ragent payload
  count_eq : s.reassembly.fragmentCount = p.fragmentCount
  opcode_eq : s.reassembly.opcode = p.opcode

section

variable {s : State} {p : DmPacket} {payload : Bytes}

/-- A fragment of a request that fits the buffer is stored, and completes the request when
    all the others are there. -/
theorem Carries.collect (hp : Carries payload p) (hfits : payload.length ≤ requestBufferSize)
    (hactive : s.session.active = true) (hlast : s.session.last ≠ some p.requestId)
    (hcollects : s.reassembly.requestId = p.requestId → s.Collects payload p) :
    (s.storeFragment p).reassembly.requestId = p.requestId ∧ (s.storeFragment p).Collects payload p ∧
      (∀ i, (s.storeFragment p).reassembly.has i =
        ((s.reassembly.forPacket p).has i || decide (p.fragmentIndex.toNat = i))) ∧
      ((∀ i < numFragments payload, (s.storeFragment p).reassembly.has i = true) →
        s.completedRequest p = some ⟨p.opcode, p.requestId, payload⟩) := by
  have hbefore : (s.reassembly.forPacket p).fragmentCount = p.fragmentCount ∧
      (s.reassembly.forPacket p).opcode = p.opcode := by
    by_cases hsame : p.requestId = s.reassembly.requestId
    · rw [Reassembly.forPacket, if_neg (not_not.mpr hsame)]
      exact ⟨(hcollects hsame.symm).count_eq, (hcollects hsame.symm).opcode_eq⟩
    · rw [Reassembly.forPacket, if_pos hsame]
      exact ⟨rfl, rfl⟩
  have haccept : (s.reassembly.forPacket p).refuses p = false := by
    have hlen := congrArg List.length hp.payload_eq
    rw [slice_length] at hlen
    have hindex := hp.sound.fragmentIndex_lt
    rw [hp.count_eq] at hindex
    have hin : p.fragmentIndex.toNat * 1024 + p.payload.length ≤ requestBufferSize := by
      simp only [numFragments, maxFragmentPayload] at hindex
      omega
    simp only [Reassembly.refuses, hbefore.1, hbefore.2, ne_eq, not_true_eq_false, false_or, decide_eq_false_iff_not]
    omega
  obtain ⟨hid, htable, hstores⟩ := hp.store (b := .ragent) hactive hlast fun hsame => (hcollects hsame).table
  have hreassembly : (s.storeFragment p).reassembly = (s.reassembly.forPacket p).add p := by
    simp only [State.storeFragment, haccept, Bool.false_eq_true, if_false]
  have hcount : (s.storeFragment p).reassembly.fragmentCount = p.fragmentCount := by
    rw [hreassembly]
    exact hbefore.1
  have hopcode : (s.storeFragment p).reassembly.opcode = p.opcode := by
    rw [hreassembly]
    exact hbefore.2
  refine ⟨hid, ⟨htable, hcount, hopcode⟩, fun i => ?_, fun hall => ?_⟩
  · rw [hreassembly]
    exact has_add hp.sound i
  · have hcomplete : (s.storeFragment p).reassembly.complete = true := by
      refine Reassembly.complete_of_fragments (m := (s.storeFragment p).workspace) ?_ ?_ htable.within
        (hstores haccept) ?_
      · rw [hcount, hp.count_eq]
      · rw [hcount]
        exact hp.sound.fragmentCount_le
      · rw [hcount, hp.count_eq]
        exact hall
    cases hdone : s.completedRequest p with
    | none =>
      rw [State.completedRequest, haccept] at hdone
      simp [hcomplete] at hdone
    | some request => rw [hp.completed hstores hdone]

end

/-! ## Turns of RAGENT -/

/-- The datagrams of the request issued after `k` others. -/
def DosOpening.datagramsOf (o : DosOpening) (k : Nat) (q : Opcode × Bytes) : List Bytes :=
  issueDatagrams o.key o.sessionId.toNat (o.idOf k) q.1 q.2

/-- That request as the agent processes it. -/
def DosOpening.requestOf (o : DosOpening) (k : Nat) (q : Opcode × Bytes) : Request :=
  ⟨.ofNat q.1.value, .ofNat (o.idOf k), q.2⟩

/-- The agent is in the session of the opening. -/
structure State.Serves (o : DosOpening) (s : State) : Prop where
  active_eq : s.session.active = true
  id_eq : s.session.id = o.sessionId
  key_eq : s.session.key = o.key.bytes
  peer_eq : s.session.peer = o.peer

/-- A turn of the main loop with a datagram of the session in the receive buffer. -/
theorem ragentTurn_heard {o : DosOpening} {s : State} (hserves : s.Serves o) {d : Datagram} {p : DmPacket}
    (hslot : s.slot = some d) (hheard : Heard o d p) (c : Config) (m : Machine) :
    Operated (processSessionPacket .ragent c (State.heard { s with machine := m } p) p).release (ragentTurn c s m) := by
  have hprocess := hheard.active (s := { s with machine := m }) hserves.active_eq hserves.id_eq hserves.key_eq hserves.peer_eq
    .ragent c
  unfold ragentTurn
  dsimp only
  split
  · rename_i hnone
    rw [hslot] at hnone
    cases hnone
  · rename_i d' hsome
    rw [hslot] at hsome
    obtain rfl := Option.some.inj hsome
    rw [hprocess]
    exact processShellKeyboard_operated c _

theorem ragentTurn_idle {s : State} (hslot : s.slot = none) (c : Config) (m : Machine) : Operated s (ragentTurn c s m) := by
  unfold ragentTurn
  dsimp only
  split
  · have hmachine : Operated s { s with machine := m } := ⟨rfl, rfl, rfl, rfl, rfl, rfl, rfl, rfl⟩
    exact hmachine.trans (processShellKeyboard_operated c _)
  · rename_i d hsome
    rw [hslot] at hsome
    cases hsome

/-- The agent waits for the rest of a request, the fragments `got` being there. -/
structure State.Gathering (o : DosOpening) (k : Nat) (q : Opcode × Bytes) (got : List Nat) (s : State) : Prop where
  serves : s.Serves o
  slot_of : ∀ d, s.slot = some d → d.peer = o.peer ∧ d.payload ∈ o.datagramsOf k q
  newer : ∀ l, s.session.last = some l → requestIsNewer (.ofNat (o.idOf k)) l = true
  table : s.reassembly.requestId = .ofNat (o.idOf k) → s.TableOf .ragent q.2 ∧ s.reassembly.opcode = .ofNat q.1.value ∧
    s.reassembly.fragmentCount.toNat = numFragments q.2 ∧ ∃ i < numFragments q.2, s.reassembly.has i = false
  got_has : ∀ i ∈ got, s.reassembly.requestId = .ofNat (o.idOf k) ∧ s.reassembly.has i = true

/-- The agent has processed a request, and nothing since. -/
structure State.Answered (o : DosOpening) (k : Nat) (q : Opcode × Bytes) (s : State) : Prop where
  serves : s.Serves o
  slot_of : ∀ d, s.slot = some d → d.peer = o.peer ∧ d.payload ∈ o.datagramsOf k q
  last_eq : s.session.last = some (.ofNat (o.idOf k))

/-- A datagram of a request, as the agent decodes it. -/
structure HeardOf (o : DosOpening) (k : Nat) (q : Opcode × Bytes) (d : Datagram) (p : Packet) : Prop where
  payload_eq : d.payload = dosTransportDatagram (p.encode o.key)
  heard : Heard o d (ofPacket p)
  carries : Carries q.2 (ofPacket p)
  requestId_eq : (ofPacket p).requestId = .ofNat (o.idOf k)
  opcode_eq : (ofPacket p).opcode = .ofNat q.1.value

theorem tableOf_ragent {s t : State} {payload : Bytes} (h : s.TableOf .ragent payload) (hreassembly : t.reassembly = s.reassembly)
    (hworkspace : t.workspace = s.workspace) : t.TableOf .ragent payload := by
  have hstores := h.stores.resolve_left nofun
  refine ⟨hreassembly ▸ h.sound, hreassembly ▸ h.within, Or.inr ?_⟩
  rw [State.Stores, hreassembly, hworkspace]
  exact hstores

section

variable {o : DosOpening} {k : Nat} {q : Opcode × Bytes} {s t : State} {got : List Nat} {d : Datagram} {p : Packet}

theorem heardOf_mem (hhello : q.1 ≠ .hello) (hpeer : d.peer = o.peer) (hd : d.payload ∈ o.datagramsOf k q) :
    ∃ p, HeardOf o k q d p := by
  obtain ⟨p, hpayload, hp⟩ := mem_issueDatagrams hd
  obtain ⟨-, eopcode, -, -, erid, -, -, -⟩ := ofPacket_values p
  have hheard : Heard o d (ofPacket p) :=
    heard_ofPacket hpayload hpeer hp.kind_eq (hp.opcode_eq ▸ hhello) hp.sessionId_eq
  refine ⟨p, hpayload, hheard, carries_ofPacket hp hheard.decode_eq, ?_, ?_⟩
  · have hlt : o.idOf k < UInt16.size := Serial.stamp_lt (by decide) _ _
    apply UInt16.toNat_inj.mp
    rw [erid, hp.requestId_eq, UInt16.toNat_ofNat_of_lt' hlt]
  · apply UInt8.toNat_inj.mp
    rw [eopcode, hp.opcode_eq, UInt8.toNat_ofNat_of_lt']
    cases q.1 <;> decide

theorem State.Serves.quiet (h : s.Serves o) (hq : Quiet s t) : t.Serves o :=
  ⟨hq.active_eq.trans h.active_eq, hq.id_eq.trans h.id_eq, hq.key_eq.trans h.key_eq, hq.peer_eq.trans h.peer_eq⟩

theorem State.Serves.operated (h : s.Serves o) (hop : Operated s t) : t.Serves o := by
  refine ⟨?_, ?_, ?_, ?_⟩ <;> rw [hop.session_eq]
  · exact h.active_eq
  · exact h.id_eq
  · exact h.key_eq
  · exact h.peer_eq

theorem State.Gathering.operated (h : s.Gathering o k q got) (hop : Operated s t) : t.Gathering o k q got where
  serves := h.serves.operated hop
  slot_of := by
    rw [hop.slot_eq]
    exact h.slot_of
  newer := by
    rw [hop.session_eq]
    exact h.newer
  table := by
    intro hid
    rw [hop.reassembly_eq] at hid ⊢
    obtain ⟨htable, hrest⟩ := h.table hid
    exact ⟨tableOf_ragent htable hop.reassembly_eq hop.workspace_eq, hrest⟩
  got_has := by
    rw [hop.reassembly_eq]
    exact h.got_has

theorem State.Answered.operated (h : s.Answered o k q) (hop : Operated s t) : t.Answered o k q where
  serves := h.serves.operated hop
  slot_of := by
    rw [hop.slot_eq]
    exact h.slot_of
  last_eq := by
    rw [hop.session_eq]
    exact h.last_eq

/-- A copy of the request processed last is answered again. -/
theorem State.Answered.hear (h : s.Answered o k q) (hd : HeardOf o k q d p) (c : Config) :
    (processSessionPacket .ragent c s (ofPacket p)).Answered o k q ∧
      (processSessionPacket .ragent c s (ofPacket p)).requests = s.requests := by
  rcases processSessionPacket_cases .ragent c s (ofPacket p) with ⟨-, e⟩ | ⟨hrefuse, -⟩ | ⟨hnewer, -⟩
  · have hq := resendCached_quiet .ragent s
    rw [e]
    exact ⟨⟨h.serves.quiet hq, by rw [hq.slot_eq]; exact h.slot_of, hq.last_eq.trans h.last_eq⟩, hq.requests_eq⟩
  · have hlast := h.last_eq
    simp only [AgentSession.last] at hlast
    split at hlast
    · rw [← hd.requestId_eq] at hlast
      simp [AgentSession.refuses, Option.some.inj hlast] at hrefuse
    · cases hlast
  · have hself := hnewer _ h.last_eq
    simp [requestIsNewer, hd.requestId_eq] at hself

/-- One more fragment of the request: it is still waited for, or it is processed. -/
theorem State.Gathering.hear (h : s.Gathering o k q got) (hd : HeardOf o k q d p) (hfits : q.2.length ≤ requestBufferSize)
    (c : Config) :
    ((processSessionPacket .ragent c s (ofPacket p)).Gathering o k q ((ofPacket p).fragmentIndex.toNat :: got) ∧
        (processSessionPacket .ragent c s (ofPacket p)).requests = s.requests) ∨
      ((processSessionPacket .ragent c s (ofPacket p)).Answered o k q ∧
        (processSessionPacket .ragent c s (ofPacket p)).requests = s.requests ++ [o.requestOf k q]) := by
  have hself : ¬ requestIsNewer (.ofNat (o.idOf k)) (.ofNat (o.idOf k)) = true := by simp [requestIsNewer]
  have hlast : s.session.last ≠ some (ofPacket p).requestId := by
    rw [hd.requestId_eq]
    exact fun hl => hself (h.newer _ hl)
  have hrange := (dmPacketDecode_opcode hd.heard.decode_eq).2
  obtain ⟨hid, hcollects, hhas, hdone⟩ := hd.carries.collect (s := s) hfits h.serves.active_eq hlast fun hsame => by
    obtain ⟨htable, hopcode, hcount, -⟩ := h.table (hsame.trans hd.requestId_eq)
    exact ⟨htable, UInt8.toNat_inj.mp (hcount.trans hd.carries.count_eq.symm), hopcode.trans hd.opcode_eq.symm⟩
  have hq := storeFragment_quiet s (ofPacket p)
  rcases processSessionPacket_cases .ragent c s (ofPacket p) with ⟨hl, -⟩ | ⟨hrefuse, -⟩ | ⟨-, ⟨hnone, e⟩ | ⟨payload, hsome, e⟩⟩
  · exact absurd hl hlast
  · exfalso
    simp only [AgentSession.refuses, Bool.and_eq_true, Bool.not_eq_true'] at hrefuse
    have hl : s.session.last = some s.session.lastRequestId := by simp [AgentSession.last, hrefuse.1.1]
    rw [hd.requestId_eq, h.newer _ hl] at hrefuse
    cases hrefuse.2
  · left
    rw [e]
    refine ⟨⟨h.serves.quiet hq, by rw [hq.slot_eq]; exact h.slot_of, by rw [hq.last_eq]; exact h.newer, fun _ => ?_,
      fun i hi => ?_⟩, hq.requests_eq⟩
    · refine ⟨hcollects.table, hcollects.opcode_eq.trans hd.opcode_eq, ?_, ?_⟩
      · rw [hcollects.count_eq, hd.carries.count_eq]
      · by_contra hno
        push Not at hno
        rw [hdone fun i hi => by simpa using hno i hi] at hnone
        cases hnone
    · refine ⟨hid.trans hd.requestId_eq, ?_⟩
      rw [hhas, Bool.or_eq_true, decide_eq_true_eq]
      rcases List.mem_cons.mp hi with rfl | hi
      · exact Or.inr rfl
      · obtain ⟨hsame, hthere⟩ := h.got_has i hi
        left
        rw [Reassembly.forPacket, if_neg (by simp [hsame, hd.requestId_eq])]
        exact hthere
  · right
    obtain rfl : payload = q.2 := by
      refine congrArg Request.payload (hd.carries.completed (s := s) (fun _ => ?_) hsome)
      exact hcollects.table.stores.resolve_left (by simp)
    have hr := processRequest_processed .ragent c (s.storeFragment (ofPacket p)) hrange (ofPacket p).requestId q.2
    rw [e]
    refine ⟨⟨⟨hr.active_eq.trans (hq.active_eq.trans h.serves.active_eq), hr.id_eq.trans (hq.id_eq.trans h.serves.id_eq),
      hr.key_eq.trans (hq.key_eq.trans h.serves.key_eq), hr.peer_eq.trans (hq.peer_eq.trans h.serves.peer_eq)⟩,
      by rw [hr.slot_eq, hq.slot_eq]; exact h.slot_of, ?_⟩, ?_⟩
    · simp only [AgentSession.last, hr.hasLastRequest_eq, hr.lastRequestId_eq, if_true]
      rw [hd.requestId_eq]
    · rw [hr.requests_eq, hq.requests_eq, hd.requestId_eq, hd.opcode_eq, DosOpening.requestOf]

end

/-! ## Runs of RAGENT -/

/-- The datagrams that the receive buffer takes during the events; one that arrives at a full
    buffer is lost. -/
def DosNet.delivered (o : DosOpening) : DosNet → List DosEvent → List Bytes
  | _, [] => []
  | n, .issue opcode payload notHello :: events => DosNet.delivered o (n.step o (.issue opcode payload notHello)) events
  | n, .arrive i :: events =>
    (if n.state.slot.isNone then n.sent[i]?.toList else []) ++ DosNet.delivered o (n.step o (.arrive i)) events
  | n, .work e :: events => DosNet.delivered o (n.step o (.work e)) events

section

variable {o : DosOpening} {k : Nat} {q : Opcode × Bytes} {s t : State} {got : List Nat} {d : Datagram} {p : Packet}
  {n : DosNet}

theorem State.Gathering.withMachine (h : s.Gathering o k q got) (m : Machine) (p : DmPacket) :
    (State.heard { s with machine := m } p).Gathering o k q got :=
  ⟨⟨h.serves.active_eq, h.serves.id_eq, h.serves.key_eq, h.serves.peer_eq⟩, h.slot_of, h.newer, fun hid =>
    ⟨tableOf_ragent (h.table hid).1 rfl rfl, (h.table hid).2⟩, h.got_has⟩

theorem State.Gathering.release (h : s.Gathering o k q got) : s.release.Gathering o k q got :=
  ⟨⟨h.serves.active_eq, h.serves.id_eq, h.serves.key_eq, h.serves.peer_eq⟩, nofun, h.newer, fun hid =>
    ⟨tableOf_ragent (h.table hid).1 rfl rfl, (h.table hid).2⟩, h.got_has⟩

/-- A turn while the request is waited for. -/
theorem State.Gathering.turn (h : s.Gathering o k q got) (hslot : s.slot = some d) (hd : HeardOf o k q d p)
    (hfits : q.2.length ≤ requestBufferSize) (c : Config) (m : Machine) :
    (ragentTurn c s m).slot = none ∧
      (((ragentTurn c s m).Gathering o k q ((ofPacket p).fragmentIndex.toNat :: got) ∧
          (ragentTurn c s m).requests = s.requests) ∨
        ((ragentTurn c s m).Answered o k q ∧ (ragentTurn c s m).requests = s.requests ++ [o.requestOf k q])) := by
  have hop := ragentTurn_heard h.serves hslot hd.heard c m
  refine ⟨hop.slot_eq, ?_⟩
  rw [hop.requests_eq]
  rcases (h.withMachine m (ofPacket p)).hear hd hfits c with ⟨hnext, hrequests⟩ | ⟨hnext, hrequests⟩
  · exact Or.inl ⟨hnext.release.operated hop, hrequests⟩
  · exact Or.inr ⟨State.Answered.operated (s := State.release _)
      ⟨⟨hnext.serves.active_eq, hnext.serves.id_eq, hnext.serves.key_eq, hnext.serves.peer_eq⟩, nofun, hnext.last_eq⟩ hop,
      hrequests⟩

/-- A turn with a copy of the request processed last. -/
theorem State.Answered.turn (h : s.Answered o k q) (hslot : s.slot = some d) (hd : HeardOf o k q d p) (c : Config)
    (m : Machine) : (ragentTurn c s m).Answered o k q ∧ (ragentTurn c s m).requests = s.requests := by
  have hop := ragentTurn_heard h.serves hslot hd.heard c m
  have hheard : (State.heard { s with machine := m } (ofPacket p)).Answered o k q :=
    ⟨⟨h.serves.active_eq, h.serves.id_eq, h.serves.key_eq, h.serves.peer_eq⟩, h.slot_of, h.last_eq⟩
  obtain ⟨hnext, hrequests⟩ := hheard.hear hd c
  refine ⟨State.Answered.operated (s := State.release _)
    ⟨⟨hnext.serves.active_eq, hnext.serves.id_eq, hnext.serves.key_eq, hnext.serves.peer_eq⟩, nofun, hnext.last_eq⟩ hop, ?_⟩
  rw [hop.requests_eq]
  exact hrequests

/-- A datagram of the request arrives. -/
theorem arrive_slot (s : State) (d : Datagram) : ∃ slot, arrive s d = { s with slot := slot } ∧
    ((s.slot = none ∧ slot = some d) ∨ (s.slot ≠ none ∧ slot = s.slot)) := by
  unfold arrive
  cases hslot : s.slot with
  | none => exact ⟨_, rfl, Or.inl ⟨rfl, rfl⟩⟩
  | some d' => exact ⟨s.slot, rfl, Or.inr ⟨by simp, hslot⟩⟩

/-- Copies of the request processed last process nothing. -/
theorem DosNet.run_answered {events : List DosEvent} (hb : o.build = .ragent) (hhello : q.1 ≠ .hello)
    (h : n.state.Answered o k q) (honly : ∀ d ∈ n.delivered o events, d ∈ o.datagramsOf k q) :
    (n.run o events).state.requests = n.state.requests := by
  induction events generalizing n with
  | nil => rfl
  | cons e events ih =>
    cases e with
    | issue opcode payload notHello => exact ih (n := n.step o (.issue opcode payload notHello)) h honly
    | arrive i =>
      simp only [DosNet.delivered, List.mem_append] at honly
      have hrequests : (n.step o (.arrive i)).state.requests = n.state.requests := by
        simp only [DosNet.step]
        split
        · rfl
        · rename_i d _
          obtain ⟨slot, e, -⟩ := arrive_slot n.state ⟨d, o.peer⟩
          rw [e]
      rw [← hrequests]
      refine ih ?_ fun d hd => honly d (Or.inr hd)
      simp only [DosNet.step]
      split
      · exact h
      · rename_i d hd
        obtain ⟨slot, e, hslot⟩ := arrive_slot n.state ⟨d, o.peer⟩
        rw [e]
        refine ⟨⟨h.serves.active_eq, h.serves.id_eq, h.serves.key_eq, h.serves.peer_eq⟩, fun d' hd' => ?_, h.last_eq⟩
        rcases hslot with ⟨hnone, rfl⟩ | ⟨-, rfl⟩
        · obtain rfl := Option.some.inj hd'
          exact ⟨rfl, honly d (Or.inl (by simp [hnone, hd]))⟩
        · exact h.slot_of d' hd'
    | work e =>
      have hstep : (n.step o (.work e)).state = ragentTurn o.config n.state e.machine := by
        simp only [DosNet.step, runAgent, hb]
      have hnext : (n.step o (.work e)).state.Answered o k q ∧ (n.step o (.work e)).state.requests = n.state.requests := by
        rw [hstep]
        cases hslot : n.state.slot with
        | none =>
          have hop := ragentTurn_idle hslot o.config e.machine
          exact ⟨h.operated hop, hop.requests_eq⟩
        | some d =>
          obtain ⟨hpeer, hmem⟩ := h.slot_of d hslot
          obtain ⟨p, hd⟩ := heardOf_mem hhello hpeer hmem
          exact h.turn hslot hd o.config e.machine
      rw [← hnext.2]
      exact ih hnext.1 honly

end

/-- Fragment `i` of the request is there, in the receive buffer, or still to be delivered. -/
def DosNet.Coming (o : DosOpening) (n : DosNet) (events : List DosEvent) (got : List Nat) (i : Nat) : Prop :=
  i ∈ got ∨ (∃ d, ∃ p : Packet, n.state.slot = some d ∧ d.payload = dosTransportDatagram (p.encode o.key) ∧
      p.fragmentIndex = i) ∨
    ∃ p : Packet, dosTransportDatagram (p.encode o.key) ∈ n.delivered o events ∧ p.fragmentIndex = i

theorem dosTransport_inj {p p' : Packet} {key : Key} (h : dosTransportDatagram (p.encode key) = dosTransportDatagram (p'.encode key)) :
    p = p' := by
  have hdecode := dosTransport_decode p key
  rw [h, dosTransport_decode p' key] at hdecode
  exact (Except.ok.inj hdecode).symm

/-- The rest of a request is delivered: it is processed once. -/
theorem DosNet.run_gathering {o : DosOpening} {k : Nat} {q : Opcode × Bytes} {got : List Nat} {n : DosNet}
    {events : List DosEvent} (hb : o.build = .ragent) (hhello : q.1 ≠ .hello) (hfits : q.2.length ≤ requestBufferSize)
    (h : n.state.Gathering o k q got) (honly : ∀ d ∈ n.delivered o events, d ∈ o.datagramsOf k q)
    (hall : ∀ i < numFragments q.2, n.Coming o events got i) (hend : (n.run o events).state.slot = none) :
    (n.run o events).state.requests = n.state.requests ++ [o.requestOf k q] := by
  induction events generalizing n got with
  | nil =>
    -- everything would be there
    exfalso
    have hgot : ∀ i < numFragments q.2, i ∈ got := by
      intro i hi
      rcases hall i hi with hgot | ⟨d, p, hslot, -⟩ | ⟨p, hp, -⟩
      · exact hgot
      · rw [show n.run o [] = n from rfl, hslot] at hend
        cases hend
      · cases hp
    have hpos : 0 < numFragments q.2 := by
      simp only [numFragments]
      omega
    obtain ⟨-, -, -, i, hi, hno⟩ := h.table (h.got_has 0 (hgot 0 hpos)).1
    rw [(h.got_has i (hgot i hi)).2] at hno
    cases hno
  | cons e events ih =>
    cases e with
    | issue opcode payload notHello => exact ih (n := n.step o (.issue opcode payload notHello)) h honly hall hend
    | arrive i =>
      simp only [DosNet.delivered, List.mem_append] at honly
      cases hd : n.sent[i]? with
      | none =>
        have hsame : n.step o (.arrive i) = n := by simp only [DosNet.step, hd]
        rw [show n.run o (.arrive i :: events) = (n.step o (.arrive i)).run o events from rfl, hsame] at hend ⊢
        refine ih h (fun d hmem => honly d (Or.inr (by rw [hsame]; exact hmem))) (fun j hj => ?_) hend
        simpa [DosNet.Coming, DosNet.delivered, hd, hsame] using hall j hj
      | some d =>
        obtain ⟨slot, earrive, hslot⟩ := arrive_slot n.state ⟨d, o.peer⟩
        have hstep : n.step o (.arrive i) = { n with state := { n.state with slot := slot } } := by
          simp only [DosNet.step, hd, earrive]
        rw [show n.state.requests = (n.step o (.arrive i)).state.requests by rw [hstep]]
        refine @ih got _ ?_ (fun d hmem => honly d (Or.inr hmem)) (fun j hj => ?_) hend
        · rw [hstep]
          refine ⟨⟨h.serves.active_eq, h.serves.id_eq, h.serves.key_eq, h.serves.peer_eq⟩, fun d' hd' => ?_, h.newer,
            fun hid => ⟨tableOf_ragent (h.table hid).1 rfl rfl, (h.table hid).2⟩, h.got_has⟩
          rcases hslot with ⟨hnone, rfl⟩ | ⟨-, rfl⟩
          · obtain rfl := Option.some.inj hd'
            exact ⟨rfl, honly d (Or.inl (by simp [hnone, hd]))⟩
          · exact h.slot_of d' hd'
        · rcases hall j hj with hgot | ⟨d', p, hd', hpayload, hindex⟩ | ⟨p, hmem, hindex⟩
          · exact Or.inl hgot
          · -- what the buffer holds stays
            rcases hslot with ⟨hnone, -⟩ | ⟨-, rfl⟩
            · rw [hnone] at hd'
              cases hd'
            · exact Or.inr (Or.inl ⟨d', p, by rw [hstep]; exact hd', hpayload, hindex⟩)
          · simp only [DosNet.delivered, List.mem_append] at hmem
            rcases hmem with hmem | hmem
            · rcases hslot with ⟨hnone, rfl⟩ | ⟨hfull, -⟩
              · refine Or.inr (Or.inl ⟨⟨d, o.peer⟩, p, by rw [hstep], ?_, hindex⟩)
                simp only [hnone, hd, Option.isNone_none, if_true, Option.toList_some, List.mem_singleton] at hmem
                exact hmem.symm
              · simp [hfull] at hmem
            · exact Or.inr (Or.inr ⟨p, hmem, hindex⟩)
    | work e =>
      have hstep : (n.step o (.work e)).state = ragentTurn o.config n.state e.machine := by
        simp only [DosNet.step, runAgent, hb]
      cases hslot : n.state.slot with
      | none =>
        have hop := ragentTurn_idle hslot o.config e.machine
        rw [show n.state.requests = (n.step o (.work e)).state.requests by rw [hstep, hop.requests_eq]]
        refine ih (by rw [hstep]; exact h.operated hop) honly (fun j hj => ?_) hend
        rcases hall j hj with hgot | ⟨d, p, hd, -⟩ | hmem
        · exact Or.inl hgot
        · rw [hslot] at hd
          cases hd
        · exact Or.inr (Or.inr hmem)
      | some d =>
        obtain ⟨hpeer, hmem⟩ := h.slot_of d hslot
        obtain ⟨p, hd⟩ := heardOf_mem hhello hpeer hmem
        obtain ⟨hfree, ⟨hnext, hrequests⟩ | ⟨hnext, hrequests⟩⟩ := h.turn hslot hd hfits o.config e.machine
        · rw [← hrequests, ← hstep]
          refine ih (by rw [hstep]; exact hnext) honly (fun j hj => ?_) hend
          rcases hall j hj with hgot | ⟨d', p', hd', hpayload, hindex⟩ | hmem
          · exact Or.inl (List.mem_cons_of_mem _ hgot)
          · left
            rw [hslot] at hd'
            obtain rfl := Option.some.inj hd'
            obtain rfl := dosTransport_inj (hd.payload_eq.symm.trans hpayload)
            have eindex := (ofPacket_values p).2.2.2.2.2.1
            exact List.mem_cons.mpr (Or.inl (hindex.symm.trans eindex.symm))
          · exact Or.inr (Or.inr hmem)
        · rw [← hrequests, ← hstep]
          exact DosNet.run_answered (n := n.step o (.work e)) hb hhello (by rw [hstep]; exact hnext) honly

/-! ## Newer than everything seen -/

/-- The IDs that RAGENT knows: the last one, the one in reassembly, that of the datagram in
    the receive buffer. -/
structure State.Knows (o : DosOpening) (P : Nat → Prop) (s : State) : Prop where
  active_eq : s.session.active = true
  last : ∀ l, s.session.last = some l → P l.toNat
  current : s.reassembly.requestId = 0 ∨ P s.reassembly.requestId.toNat
  slot : ∀ d, s.slot = some d → ∀ p, Packet.decode d.payload o.key = .ok p → P p.requestId

section

variable {o : DosOpening} {s t : State} {P : Nat → Prop}

/-- A session packet adds its own ID to those the agent knows. -/
theorem processSessionPacket_ids (b : Build) (c : Config) (s : State) {p : DmPacket} (hopcode : 1 ≤ p.opcode ∧ p.opcode ≤ 18) :
    (processSessionPacket b c s p).session.active = s.session.active ∧
      ((processSessionPacket b c s p).session.last = s.session.last ∨
        (processSessionPacket b c s p).session.last = some p.requestId) ∧
      ((processSessionPacket b c s p).reassembly.requestId = s.reassembly.requestId ∨
        (processSessionPacket b c s p).reassembly.requestId = p.requestId) := by
  have hstored : (s.storeFragment p).reassembly.requestId = p.requestId := by
    unfold State.storeFragment
    dsimp only
    split <;> exact Reassembly.forPacket_requestId s.reassembly p
  have hq := storeFragment_quiet s p
  rcases processSessionPacket_cases b c s p with ⟨-, e⟩ | ⟨-, e⟩ | ⟨-, ⟨-, e⟩ | ⟨payload, -, e⟩⟩
  · have hr := resendCached_quiet b s
    rw [e]
    exact ⟨hr.active_eq, Or.inl hr.last_eq, Or.inl (by rw [(resendCached_table b s).1])⟩
  · have hr := sendError_responded b s hopcode p.requestId 4 "replayed request"
    rw [e]
    refine ⟨hr.active_eq, Or.inr ?_, Or.inl (by rw [hr.reassembly_eq])⟩
    simp only [AgentSession.last, hr.hasLastRequest_eq, hr.lastRequestId_eq, if_true]
  · rw [e]
    exact ⟨hq.active_eq, Or.inl hq.last_eq, Or.inr hstored⟩
  · have hr := processRequest_processed b c (s.storeFragment p) hopcode p.requestId payload
    rw [e]
    refine ⟨hr.active_eq.trans hq.active_eq, Or.inr ?_, Or.inr (by rw [hr.reassembly_eq, hstored])⟩
    simp only [AgentSession.last, hr.hasLastRequest_eq, hr.lastRequestId_eq, if_true]

theorem State.Knows.operated (h : s.Knows o P) (hop : Operated s t) : t.Knows o P := by
  refine ⟨?_, ?_, ?_, ?_⟩
  · rw [hop.session_eq]
    exact h.active_eq
  · rw [hop.session_eq]
    exact h.last
  · rw [hop.reassembly_eq]
    exact h.current
  · rw [hop.slot_eq]
    exact h.slot

/-- A turn of RAGENT. -/
theorem State.Knows.turn {issued : List (Opcode × Bytes)} (h : s.Knows o P) (hholding : Holding o issued s) (c : Config)
    (m : Machine) : (ragentTurn c s m).Knows o P := by
  cases hslot : s.slot with
  | none => exact h.operated (ragentTurn_idle hslot c m)
  | some d =>
    obtain ⟨hpeer, k, q, p, hk, hhello, hd, hp⟩ := hholding.slot_sent d hslot
    obtain ⟨hid, hkey, hspeer⟩ := hholding.session_eq h.active_eq
    have hheard : Heard o d (ofPacket p) := heard_ofPacket hd hpeer hp.kind_eq (hp.opcode_eq ▸ hhello) hp.sessionId_eq
    have hP : P (ofPacket p).requestId.toNat := by
      rw [(ofPacket_values p).2.2.2.2.1]
      exact h.slot d hslot p (by rw [hd]; exact dosTransport_decode p o.key)
    obtain ⟨hactive, hlast, hcurrent⟩ := processSessionPacket_ids .ragent c (State.heard { s with machine := m } (ofPacket p))
      (dmPacketDecode_opcode hheard.decode_eq).2
    refine State.Knows.operated ?_ (ragentTurn_heard ⟨h.active_eq, hid, hkey, hspeer⟩ hslot hheard c m)
    refine ⟨hactive.trans h.active_eq, fun l hl => ?_, ?_, nofun⟩
    · rcases hlast with e | e
      · exact h.last l (e.symm.trans hl)
      · obtain rfl := Option.some.inj (e.symm.trans hl)
        exact hP
    · rcases hcurrent with e | e
      · simp only [State.release, e]
        exact h.current
      · simp only [State.release, e]
        exact Or.inr hP

/-- What RAGENT knows after a run are IDs of delivered datagrams. -/
theorem DosNet.knows_run {n : DosNet} {events : List DosEvent} (hb : o.build = .ragent) (before : List (Opcode × Bytes))
    (h : n.Holds o (before ++ issuedRequests events)) (hn : n.issued = before.length)
    (hperiod : (before ++ issuedRequests events).length ≤ 0xFFFF)
    (hdelivered : ∀ d ∈ n.delivered o events, ∀ p, Packet.decode d o.key = .ok p → P p.requestId)
    (hknows : n.state.Knows o P) : (n.run o events).state.Knows o P := by
  induction events generalizing n before with
  | nil => exact hknows
  | cons e events ih =>
    cases e with
    | issue opcode payload notHello =>
      have hall : before ++ issuedRequests (.issue opcode payload notHello :: events) =
          (before ++ [(opcode, payload)]) ++ issuedRequests events := by simp [issuedRequests]
      rw [hall] at h hperiod
      exact ih (before ++ [(opcode, payload)]) (h.issue notHello (by simp [hn])) (by simp [DosNet.step, hn]) hperiod hdelivered
        hknows
    | arrive i =>
      simp only [DosNet.delivered, List.mem_append] at hdelivered
      have hissued : (n.step o (.arrive i)).issued = n.issued := by
        simp only [DosNet.step]
        split <;> rfl
      refine ih before (h.arrive i) (hissued.trans hn) hperiod (fun d hd => hdelivered d (Or.inr hd)) ?_
      simp only [DosNet.step]
      split
      · exact hknows
      · rename_i d hd
        obtain ⟨slot, earrive, hslot⟩ := arrive_slot n.state ⟨d, o.peer⟩
        rw [earrive]
        refine ⟨hknows.active_eq, hknows.last, hknows.current, fun d' hd' => ?_⟩
        rcases hslot with ⟨hnone, rfl⟩ | ⟨-, rfl⟩
        · obtain rfl := Option.some.inj hd'
          exact hdelivered d (Or.inl (by simp [hnone, hd]))
        · exact hknows.slot d' hd'
    | work e =>
      have hstep : (n.step o (.work e)).state = ragentTurn o.config n.state e.machine := by
        simp only [DosNet.step, runAgent, hb]
      refine ih before (h.work hperiod (by simp [spoilsAt, hb])) hn hperiod hdelivered ?_
      rw [hstep]
      exact hknows.turn h.holding o.config e.machine

end

theorem sparesFragments_ragent {o : DosOpening} (hb : o.build = .ragent) (n : DosNet) (events : List DosEvent) :
    sparesFragments o n events = true := by
  induction events generalizing n with
  | nil => rfl
  | cons e events ih =>
    cases e with
    | issue opcode payload notHello => exact ih _
    | arrive index => exact ih _
    | work entry =>
      simp only [sparesFragments, spoilsAt, hb, Bool.not_false, Bool.true_and]
      exact ih _

/-- No ID of a session is the one of an empty reassembly. -/
theorem leftAlone_fresh {o : DosOpening} (hfresh : o.state.reassembly.requestId = 0) (events : List DosEvent) :
    leftAlone o events = true := by
  simp only [leftAlone, List.all_eq_true, decide_eq_true_eq, hfresh]
  intro k _ heq
  have hpos : 1 ≤ o.idOf k := Nat.le_add_right _ _
  rw [← heq] at hpos
  cases hpos

theorem issuedRequests_notHello {events : List DosEvent} {q : Opcode × Bytes} (h : q ∈ issuedRequests events) : q.1 ≠ .hello := by
  obtain ⟨e, -, he⟩ := List.mem_filterMap.mp h
  cases e with
  | issue opcode payload notHello =>
    obtain rfl := Option.some.inj he
    exact notHello
  | arrive index => cases he
  | work entry => cases he

/-- Every request RAGENT processes is one the client issued. -/
theorem processed_as_issued {o : DosOpening} (hb : o.build = .ragent) (hfresh : o.state.reassembly.requestId = 0)
    {events : List DosEvent} (hwin : (issuedRequests events).length < 0x8000) :
    ∀ r ∈ (o.start.run o events).state.requests, ∃ k q, (issuedRequests events)[k]? = some q ∧ r = o.requestOf k q := by
  intro r hr
  obtain ⟨k, q, hk, hid, hopcode, hpayload⟩ :=
    faithful_run (by omega) (leftAlone_fresh hfresh events) (sparesFragments_ragent hb _ events) r hr
  refine ⟨k, q, hk, ?_⟩
  obtain ⟨opcode, id, payload⟩ := r
  simp only at hid hopcode hpayload
  rw [DosOpening.requestOf, ← hid, ← hopcode, hpayload, UInt8.ofNat_toNat, UInt16.ofNat_toNat]

/-- A request newer than everything RAGENT has seen is processed once when its datagrams are
    delivered, in any order, with copies, and nothing else between them. -/
theorem processed_once {o : DosOpening} (hb : o.build = .ragent) (hfresh : o.state.reassembly.requestId = 0)
    {before during : List DosEvent} {k : Nat} {q : Opcode × Bytes} (hwin : (issuedRequests before).length < 0x8000)
    (hhello : q.1 ≠ .hello) (hfits : q.2.length ≤ requestBufferSize)
    (hnewer : NewerThan o.key (o.idOf k) (o.start.delivered o before))
    (hfree : (o.start.run o before).state.slot = none)
    (honly : ∀ d ∈ (o.start.run o before).delivered o during, d ∈ o.datagramsOf k q)
    (hall : ∀ d ∈ o.datagramsOf k q, d ∈ (o.start.run o before).delivered o during)
    (hdone : ((o.start.run o before).run o during).state.slot = none) :
    ((o.start.run o before).run o during).state.requests = (o.start.run o before).state.requests ++ [o.requestOf k q] := by
  have hstart := DosOpening.holds_start (leftAlone_fresh hfresh before)
  have hholds := DosNet.Holds.run [] hstart rfl (by simp only [List.nil_append]; omega) (sparesFragments_ragent hb _ before)
  have hlt : o.idOf k < UInt16.size := Serial.stamp_lt (by decide) _ _
  have hknows : (o.start.run o before).state.Knows o fun id => DosMcp.requestIsNewer (o.idOf k) id = true := by
    refine DosNet.knows_run hb [] hstart rfl (by simp only [List.nil_append]; omega) hnewer ?_
    obtain ⟨hslot, -, -, -, -, hlast⟩ := o.opened_session
    refine ⟨o.opened_active, fun l hl => ?_, Or.inl ?_, fun d hd => ?_⟩
    · rw [show o.start.state = o.opened from rfl, hlast] at hl
      cases hl
    · rw [show o.start.state = o.opened from rfl, o.opened_reassembly, hfresh]
    · rw [show o.start.state = o.opened from rfl, hslot] at hd
      cases hd
  have hself : DosMcp.requestIsNewer (o.idOf k) (o.idOf k) = false := by simp [DosMcp.requestIsNewer]
  obtain ⟨hid, hkey, hpeer⟩ := hholds.holding.session_eq hknows.active_eq
  have hcurrent : (o.start.run o before).state.reassembly.requestId ≠ .ofNat (o.idOf k) := by
    intro heq
    have hnat : (o.start.run o before).state.reassembly.requestId.toNat = o.idOf k := by
      rw [heq, UInt16.toNat_ofNat_of_lt' hlt]
    rcases hknows.current with hzero | hcurrent
    · rw [hzero] at hnat
      have hpos : 1 ≤ o.idOf k := Nat.le_add_right _ _
      rw [← hnat] at hpos
      cases hpos
    · rw [hnat, hself] at hcurrent
      cases hcurrent
  have hgathering : (o.start.run o before).state.Gathering o k q [] := by
    refine ⟨⟨hknows.active_eq, hid, hkey, hpeer⟩, fun d hd => ?_, fun l hl => ?_, fun hsame => absurd hsame hcurrent,
      fun i hi => absurd hi List.not_mem_nil⟩
    · rw [hfree] at hd
      cases hd
    · rw [requestIsNewer_toNat, UInt16.toNat_ofNat_of_lt' hlt, ← requestIsNewer_eq]
      exact hknows.last l hl
  refine DosNet.run_gathering hb hhello hfits hgathering honly (fun i hi => Or.inr (Or.inr ?_)) hdone
  have hmax : q.2.length ≤ maxMessageSize := Nat.le_trans hfits (by decide)
  obtain ⟨p, hmem, -, hindex⟩ := exists_datagramOf o.key q.1
    (Nat.le_of_lt_succ o.sessionId.toNat_lt) (Nat.le_of_lt_succ hlt) hmax hi
  exact ⟨p, hall _ hmem, hindex⟩

end DosMcp.Dos

namespace DosMcp

open Lib

/-- Request reassembly in the agent server and in RAGENT. Each payload dispatched is the one
    the client sent under that ID, whatever the network did; and a request newer than
    everything seen, of which all datagrams are then delivered and nothing else, is
    dispatched exactly once. -/
theorem requests_reassembled :
    (∀ (o : Opening) (events : List Event), (requestsOf events).length < 0x8000 →
      ∀ x ∈ (o.start.run o events).log, ∃ k q, (requestsOf events)[k]? = some q ∧ x = ⟨q.1, o.idOf k, q.2⟩) ∧
    (∀ (o : Opening) (before during : List Event) (k : Nat) (q : Opcode × Bytes),
      (requestsOf (before ++ during)).length < 0x8000 → (requestsOf (before ++ during))[k]? = some q →
      q.2.length ≤ maxMessageSize → NewerThan o.key (o.idOf k) (o.start.delivered o before) →
      (∀ d, d ∈ (o.start.run o before).delivered o during ↔ d ∈ o.datagramsOf k q) →
        ((o.start.run o before).serve o during).log = (o.start.run o before).log ++ [⟨q.1, o.idOf k, q.2⟩]) ∧
    (∀ (o : Dos.DosOpening) (events : List Dos.DosEvent), o.build = .ragent → o.state.reassembly.requestId = 0 →
      (Dos.issuedRequests events).length < 0x8000 → ∀ r ∈ (o.start.run o events).state.requests,
        ∃ k q, (Dos.issuedRequests events)[k]? = some q ∧ r = o.requestOf k q) ∧
    (∀ (o : Dos.DosOpening) (before during : List Dos.DosEvent) (k : Nat) (q : Opcode × Bytes),
      o.build = .ragent → o.state.reassembly.requestId = 0 →
      (Dos.issuedRequests (before ++ during)).length < 0x8000 → (Dos.issuedRequests (before ++ during))[k]? = some q →
      q.2.length ≤ 4229 → NewerThan o.key (o.idOf k) (o.start.delivered o before) →
      (o.start.run o before).state.slot = none →
      (∀ d, d ∈ (o.start.run o before).delivered o during ↔ d ∈ o.datagramsOf k q) →
      ((o.start.run o before).run o during).state.slot = none →
        ((o.start.run o before).run o during).state.requests =
          (o.start.run o before).state.requests ++ [o.requestOf k q]) := by
  refine ⟨fun o events hwin => dispatched_as_issued o hwin, ?_, fun o events hb hfresh hwin =>
    Dos.processed_as_issued hb hfresh hwin, ?_⟩
  · intro o before during k q hwin _ hlen hnewer hdelivered
    refine dispatched_once o ?_ hlen hnewer (fun d => (hdelivered d).mp) fun d => (hdelivered d).mpr
    simp only [requestsOf, List.filterMap_append, List.length_append] at hwin ⊢
    omega
  · intro o before during k q hb hfresh hwin hk hfits hnewer hfree hdelivered hdone
    refine Dos.processed_once hb hfresh ?_ (Dos.issuedRequests_notHello (List.mem_of_getElem? hk)) hfits hnewer hfree
      (fun d => (hdelivered d).mp) (fun d => (hdelivered d).mpr) hdone
    simp only [Dos.issuedRequests, List.filterMap_append, List.length_append] at hwin ⊢
    omega

/-! ## A request and its copy -/

theorem newerThan_datagrams {key : Key} {sessionId id id' : Nat} {opcode : Opcode} {payload : Bytes}
    (h : requestIsNewer id' id = true) : NewerThan key id' (issueDatagrams key sessionId id opcode payload) := by
  intro d hd p hdecode
  obtain ⟨p', rfl, hp'⟩ := mem_issueDatagrams hd
  rw [dosTransport_decode] at hdecode
  obtain rfl := Except.ok.inj hdecode
  rw [hp'.requestId_eq]
  exact h

/-- The server has answered one request; the client issues the next. -/
def oneAnswered : List Event := [typeA, .deliver keyboardEnv 0, typeA]

def copies : List Event := [.deliver keyboardEnv 1, .deliver keyboardEnv 1]

/-- RAGENT has answered one request; the client issues the next. -/
def onePinged : List Dos.DosEvent := [Dos.pingEvent, .arrive 0, Dos.timerWork, Dos.pingEvent]

def pingCopies : List Dos.DosEvent := [.arrive 1, Dos.timerWork, .arrive 1, Dos.timerWork]

theorem requests_reassembled_copies :
    (∀ x ∈ (keyboardOpening.start.run keyboardOpening oneAnswered).log, ∃ k q, (requestsOf oneAnswered)[k]? = some q ∧
        x = ⟨q.1, keyboardOpening.idOf k, q.2⟩) ∧
      ((keyboardOpening.start.run keyboardOpening oneAnswered).serve keyboardOpening copies).log =
        (keyboardOpening.start.run keyboardOpening oneAnswered).log ++ [⟨.sendKeys, 3, [1, 0, 0, 0, 0, 0x41]⟩] ∧
      (∀ r ∈ ((Dos.lateOpening .ragent).start.run (Dos.lateOpening .ragent) onePinged).state.requests,
        ∃ k q, (Dos.issuedRequests onePinged)[k]? = some q ∧ r = (Dos.lateOpening .ragent).requestOf k q) ∧
      (((Dos.lateOpening .ragent).start.run (Dos.lateOpening .ragent) onePinged).run (Dos.lateOpening .ragent)
          pingCopies).state.requests =
        ((Dos.lateOpening .ragent).start.run (Dos.lateOpening .ragent) onePinged).state.requests ++ [⟨6, 3, []⟩] := by
  obtain ⟨hserver, hserverOnce, hragent, hragentOnce⟩ := requests_reassembled
  have hseen : keyboardOpening.start.delivered keyboardOpening oneAnswered =
      keyboardOpening.datagramsOf 0 (.sendKeys, [1, 0, 0, 0, 0, 0x41]) := by decide +kernel
  have hcopies : (keyboardOpening.start.run keyboardOpening oneAnswered).delivered keyboardOpening copies =
      keyboardOpening.datagramsOf 1 (.sendKeys, [1, 0, 0, 0, 0, 0x41]) ++
        keyboardOpening.datagramsOf 1 (.sendKeys, [1, 0, 0, 0, 0, 0x41]) := by decide +kernel
  have hpinged : (Dos.lateOpening .ragent).start.delivered (Dos.lateOpening .ragent) onePinged =
      (Dos.lateOpening .ragent).datagramsOf 0 (.ping, []) := by decide +kernel
  have hpings : ((Dos.lateOpening .ragent).start.run (Dos.lateOpening .ragent) onePinged).delivered (Dos.lateOpening .ragent)
      pingCopies = (Dos.lateOpening .ragent).datagramsOf 1 (.ping, []) ++ (Dos.lateOpening .ragent).datagramsOf 1 (.ping, []) := by
    decide +kernel
  refine ⟨hserver _ _ (by decide), ?_, hragent _ _ rfl rfl (by decide), ?_⟩
  · refine hserverOnce keyboardOpening oneAnswered copies 1 (.sendKeys, [1, 0, 0, 0, 0, 0x41]) (by decide) rfl (by decide) ?_ ?_
    · rw [hseen]
      exact newerThan_datagrams (by decide)
    · simp [hcopies]
  · refine hragentOnce (Dos.lateOpening .ragent) onePinged pingCopies 1 (.ping, []) rfl rfl (by decide) rfl (by decide) ?_
      (by decide +kernel) ?_ (by decide +kernel)
    · rw [hpinged]
      exact newerThan_datagrams (by decide)
    · simp [hpings]

end DosMcp
