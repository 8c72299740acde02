/-
  DosMcp.System.Integrity — one session of the agent server under a lossy, reordering,
  duplicating network: what a request is dispatched with, and when.

  The runs are those of `AtMostOnce`. The server keeps the fragments of up to four requests,
  each request's fragments under their indices.

  - `dispatched_as_issued`: every dispatched request is one the client issued, with its
    opcode, ID and payload.
  - `dispatched_once`: a request newer than everything the server has seen, whose datagrams
    are then delivered in any order, with copies and with nothing between them, is dispatched
    exactly once.
-/

import DosMcp.System.AtMostOnce

namespace DosMcp

open Lib

/-! ## What was sent -/

/-- The requests of a run, in the order they were issued. -/
def requestsOf (events : List Event) : List (Opcode × Bytes) :=
  events.filterMap fun
    | .issue opcode payload => some (opcode, payload)
    | .deliver _ _ => none

/-- The ID of the request issued after `k` others. -/
def Opening.idOf (o : Opening) (k : Nat) : Nat := Serial.stamp 0x10000 (o.requestId - 1) (k + 1)

/-- The datagrams of the request issued after `k` others. -/
def Opening.datagramsOf (o : Opening) (k : Nat) (q : Opcode × Bytes) : List Bytes :=
  issueDatagrams o.key o.sessionId (o.idOf k) q.1 q.2

/-- A packet of the request issued after `k` others. -/
def Opening.PacketOf (o : Opening) (k : Nat) (q : Opcode × Bytes) (p : Packet) : Prop :=
  IsFragment .request q.1 o.sessionId (o.idOf k) q.2 p

theorem mem_datagramsOf {o : Opening} {k : Nat} {q : Opcode × Bytes} {d : Bytes} (h : d ∈ o.datagramsOf k q) :
    ∃ p, d = dosTransportDatagram (p.encode o.key) ∧ o.PacketOf k q p :=
  mem_issueDatagrams h

theorem idOf_unique {o : Opening} {issued : List (Opcode × Bytes)} (hwin : issued.length < 0x8000) {k k' : Nat}
    {q q' : Opcode × Bytes} (hk : issued[k]? = some q) (hk' : issued[k']? = some q') (h : o.idOf k = o.idOf k') : k = k' := by
  have h1 := (List.getElem?_eq_some_iff.mp hk).1
  have h2 := (List.getElem?_eq_some_iff.mp hk').1
  have := Serial.stamp_inj (by decide) _ (by omega) (by omega) h
  omega

/-! ## The pending table -/

/-- The fragments of one issued request, each under its index. -/
def Opening.TableOf (o : Opening) (k : Nat) (q : Opcode × Bytes) (fragments : Dict Nat Packet) : Prop :=
  IndexTable fragments ∧ ∀ e ∈ fragments, o.PacketOf k q e.2

/-- Every pending entry is a table of the request its key names. -/
def Session.Pends (o : Opening) (issued : List (Opcode × Bytes)) (session : Session) : Prop :=
  ∀ e ∈ session.pending, ∃ k q, issued[k]? = some q ∧ e.1 = o.idOf k ∧ o.TableOf k q e.2

/-- The session of the opening. -/
structure Session.Opened (o : Opening) (session : Session) : Prop where
  address_eq : session.address = o.address
  sessionId_eq : session.sessionId = o.sessionId
  key_eq : session.key = o.key

section

variable {o : Opening} {issued : List (Opcode × Bytes)} {session : Session} {k : Nat} {q : Opcode × Bytes} {p : Packet}

theorem mem_pendingFor {id : Nat} {e : Nat × Dict Nat Packet} (h : e ∈ session.pendingFor id) : e ∈ session.pending := by
  unfold Session.pendingFor at h
  split at h
  · exact List.mem_of_mem_tail h
  · exact h

/-- The fragments that a packet joins are those of its own request. -/
theorem Session.Pends.gathered (h : session.Pends o issued) (hwin : issued.length < 0x8000) (hk : issued[k]? = some q)
    (hp : o.PacketOf k q p) : o.TableOf k q (session.gathered p) := by
  have hbefore : o.TableOf k q (((session.pendingFor p.requestId).get? p.requestId).getD []) := by
    cases hget : (session.pendingFor p.requestId).get? p.requestId with
    | none => exact ⟨indexTable_nil, fun _ he => absurd he List.not_mem_nil⟩
    | some fragments =>
      obtain ⟨k', q', hk', hid, htable⟩ := h _ (mem_pendingFor (Dict.mem_of_get? hget))
      obtain rfl := idOf_unique hwin hk hk' (hp.requestId_eq.symm.trans hid)
      rw [hk] at hk'
      obtain rfl := Option.some.inj hk'
      exact htable
  refine ⟨indexTable_set hbefore.1 p, fun e he => ?_⟩
  rcases Dict.mem_set he with he | rfl
  · exact hbefore.2 e he
  · exact hp

theorem Session.Pends.stored (h : session.Pends o issued) (hwin : issued.length < 0x8000) (hk : issued[k]? = some q)
    (hp : o.PacketOf k q p) : ∀ e ∈ session.stored p, ∃ k q, issued[k]? = some q ∧ e.1 = o.idOf k ∧ o.TableOf k q e.2 := by
  intro e he
  rcases Dict.mem_set he with he | rfl
  · exact h e (mem_pendingFor he)
  · exact ⟨k, q, hk, hp.requestId_eq, h.gathered hwin hk hp⟩

/-- A full table is the request. -/
theorem Opening.TableOf.reassemble {fragments : Dict Nat Packet} (h : o.TableOf k q fragments)
    (hlen : q.2.length ≤ maxMessageSize) (hfull : fragments.length = numFragments q.2) :
    reassemblePackets fragments.values = .ok q.2 :=
  reassemblePackets_of_fragments h.1 hlen hfull h.2

theorem Opening.TableOf.keys_lt {fragments : Dict Nat Packet} (h : o.TableOf k q fragments) :
    ∀ i ∈ fragments.keys, i < numFragments q.2 := by
  intro i hi
  obtain ⟨e, he, rfl⟩ := List.mem_map.mp hi
  rw [← h.1.2 e he, ← (h.2 e he).count_eq]
  exact e.2.fragmentIndex_lt

theorem Opening.TableOf.length_le {fragments : Dict Nat Packet} (h : o.TableOf k q fragments) :
    fragments.length ≤ numFragments q.2 := by
  have hsub : fragments.keys ⊆ List.range (numFragments q.2) := fun i hi => List.mem_range.mpr (h.keys_lt i hi)
  have hle := (List.subperm_of_subset h.1.1 hsub).length_le
  rwa [Dict.keys, List.length_map, List.length_range] at hle

end

/-! ## Steps -/

/-- The server of a run: its session, what is pending, what it has dispatched. -/
structure Net.Holds (o : Opening) (issued : List (Opcode × Bytes)) (n : Net) : Prop where
  requestId_eq : n.requestId = Serial.stamp 0x10000 (o.requestId - 1) n.issued
  sent_of : ∀ d ∈ n.sent, ∃ k q, issued[k]? = some q ∧ d ∈ o.datagramsOf k q
  session : ∃ session, n.server.session = some session ∧ session.Opened o ∧ session.Pends o issued
  log_of : ∀ x ∈ n.log, ∃ k q, issued[k]? = some q ∧ x = ⟨q.1, o.idOf k, q.2⟩

section

variable {o : Opening} {issued : List (Opcode × Bytes)} {n : Net} {session : Session} {k : Nat} {q : Opcode × Bytes}
  {p : Packet}

/-- A datagram of the client reaches the replay check. -/
theorem Session.Opened.handle (h : session.Opened o) {s : UdpAgentServer} (hs : s.session = some session) (env : Env)
    (hp : o.PacketOf k q p) :
    s.handleDatagram env (dosTransportDatagram (p.encode o.key)) o.address =
      s.handlePacket session env p.requestId p := by
  have hne : session.sessionId ≠ 0 := by
    have := helloSessionId_range o.clientNonce o.env.serverNonce
    rw [h.sessionId_eq, Opening.sessionId]
    omega
  rw [← h.address_eq]
  exact handleDatagram_session hs env (by rw [h.key_eq]; exact dosTransport_decode p o.key) (dosTransport_length p o.key)
    hp.kind_eq (hp.sessionId_eq.trans h.sessionId_eq.symm) hne

/-- A delivery of one of the client's packets. -/
theorem Net.step_deliver (hs : n.server.session = some session) (hopened : session.Opened o) (env : Env) {i : Nat}
    (hd : n.sent[i]? = some (dosTransportDatagram (p.encode o.key))) (hp : o.PacketOf k q p) :
    n.step o (.deliver env i) =
      { n with server := (n.server.handlePacket session env p.requestId p).server
               log := n.log ++ (n.server.handlePacket session env p.requestId p).dispatched.toList } := by
  simp only [Net.step, hd, hopened.handle hs env hp]

/-- What is recorded for a reply leaves the session's identity and the pending table. -/
theorem Session.Replied.kept {id : Nat} {r : Result} (h : session.Replied id r) :
    ∃ session', r.server.session = some session' ∧ session'.pending = session.pending ∧
      (session.Opened o → session'.Opened o) := by
  rcases h with ⟨-, hs⟩ | ⟨-, encoded, hs⟩
  · exact ⟨session, hs, rfl, fun ho => ho⟩
  · exact ⟨_, hs, rfl, fun ho => ⟨ho.address_eq, ho.sessionId_eq, ho.key_eq⟩⟩

/-- The session after a packet of the client, and what it was dispatched as. -/
theorem handlePacket_holds {s : UdpAgentServer} (hs : s.session = some session) (hopened : session.Opened o)
    (hpends : session.Pends o issued) (hwin : issued.length < 0x8000) (hk : issued[k]? = some q)
    (hlen : q.2.length ≤ maxMessageSize) (env : Env) (hp : o.PacketOf k q p) :
    (∃ session', (s.handlePacket session env p.requestId p).server.session = some session' ∧ session'.Opened o ∧
        session'.Pends o issued) ∧
      ∀ x ∈ (s.handlePacket session env p.requestId p).dispatched, x = ⟨q.1, o.idOf k, q.2⟩ := by
  unfold UdpAgentServer.handlePacket
  split
  · refine ⟨⟨session, hs, hopened, hpends⟩, ?_⟩
    intro x hx
    cases hx
  split
  · obtain ⟨hnone, hreplied⟩ := sendResponse_replied s session .error p.opcode p.requestId
      (encodeError .replayedRequest "request ID is outside the replay window")
    obtain ⟨session', hs', hpending, ho⟩ := hreplied.kept (o := o)
    refine ⟨⟨session', hs', ho hopened, ?_⟩, ?_⟩
    · rw [Session.Pends, hpending]
      exact hpends
    · rw [UdpAgentServer.sendError, hnone]
      simp
  have hstored := hpends.stored hwin hk hp
  have hrest : ∀ e ∈ (session.stored p).erase p.requestId,
      ∃ k q, issued[k]? = some q ∧ e.1 = o.idOf k ∧ o.TableOf k q e.2 := fun e he => hstored e (Dict.mem_of_mem_erase he)
  have hkept : ∀ table, Session.Opened o { session with pending := table } :=
    fun table => ⟨hopened.address_eq, hopened.sessionId_eq, hopened.key_eq⟩
  rcases acceptFragment_cases s session env p with ⟨-, hnone, -, hs'⟩ | ⟨hfull, ⟨-, hnone, -, hs'⟩ | ⟨payload, hok, hsome, hreplied⟩⟩
  · exact ⟨⟨_, hs', hkept _, hstored⟩, by simp [hnone]⟩
  · exact ⟨⟨_, hs', hkept _, hrest⟩, by simp [hnone]⟩
  · obtain ⟨session', hs', hpending, ho⟩ := hreplied.kept (o := o)
    refine ⟨⟨session', hs', ho (hkept _), ?_⟩, fun x hx => ?_⟩
    · rw [Session.Pends, hpending]
      exact hrest
    · rw [(hpends.gathered hwin hk hp).reassemble hlen (hfull.trans hp.count_eq)] at hok
      obtain rfl := Except.ok.inj hok
      rw [hsome, Option.mem_some_iff] at hx
      rw [← hx, hp.opcode_eq, hp.requestId_eq]

theorem length_of_datagramsOf {d : Bytes} (h : d ∈ o.datagramsOf k q) : q.2.length ≤ maxMessageSize := by
  unfold Opening.datagramsOf issueDatagrams at h
  split at h
  · rename_i packets hok
    exact fragmentMessage_length_le hok
  · cases h

theorem Net.Holds.deliver (h : n.Holds o issued) (hwin : issued.length < 0x8000) (env : Env) (i : Nat) :
    (n.step o (.deliver env i)).Holds o issued := by
  cases hd : n.sent[i]? with
  | none =>
    simp only [Net.step, hd]
    exact h
  | some d =>
    obtain ⟨k, q, hk, hdk⟩ := h.sent_of d (List.mem_of_getElem? hd)
    obtain ⟨p, rfl, hp⟩ := mem_datagramsOf hdk
    obtain ⟨session, hs, hopened, hpends⟩ := h.session
    obtain ⟨hsession, hdispatched⟩ := handlePacket_holds hs hopened hpends hwin hk (length_of_datagramsOf hdk) env hp
    rw [Net.step_deliver hs hopened _ hd hp]
    refine ⟨h.requestId_eq, h.sent_of, hsession, fun x hx => ?_⟩
    rcases List.mem_append.mp hx with hx | hx
    · exact h.log_of x hx
    · exact ⟨k, q, hk, hdispatched x (Option.mem_toList.mp hx)⟩

theorem Net.Holds.issue (h : n.Holds o issued) {opcode : Opcode} {payload : Bytes}
    (hk : issued[n.issued]? = some (opcode, payload)) : (n.step o (.issue opcode payload)).Holds o issued := by
  have hid : nextRequestId n.requestId = o.idOf n.issued := by
    rw [nextRequestId_eq, h.requestId_eq, Serial.next_stamp (by decide)]
    rfl
  refine ⟨hid, fun d hd => ?_, h.session, h.log_of⟩
  rcases List.mem_append.mp hd with hd | hd
  · exact h.sent_of d hd
  · rw [hid] at hd
    exact ⟨n.issued, (opcode, payload), hk, hd⟩

end

/-! ## Whole runs -/

theorem Net.Holds.run {o : Opening} {n : Net} {events : List Event} (before : List (Opcode × Bytes))
    (h : n.Holds o (before ++ requestsOf events)) (hn : n.issued = before.length)
    (hwin : (before ++ requestsOf events).length < 0x8000) :
    (n.run o events).Holds o (before ++ requestsOf events) := by
  induction events generalizing n before with
  | nil => exact h
  | cons e events ih =>
    cases e with
    | issue opcode payload =>
      have hall : before ++ requestsOf (.issue opcode payload :: events) =
          (before ++ [(opcode, payload)]) ++ requestsOf events := by simp [requestsOf]
      rw [hall] at h hwin ⊢
      exact ih (before ++ [(opcode, payload)]) (h.issue (by simp [hn])) (by simp [Net.step, hn]) hwin
    | deliver env i =>
      have hissued : (n.step o (.deliver env i)).issued = n.issued := by
        simp only [Net.step]
        split <;> rfl
      exact ih before (h.deliver hwin env i) (hissued.trans hn) hwin

theorem Opening.holds_start (o : Opening) (issued : List (Opcode × Bytes)) : o.start.Holds o issued where
  requestId_eq := o.inv_start.requestId_eq
  sent_of := fun _ h => absurd h List.not_mem_nil
  session := ⟨_, o.start_session, ⟨rfl, rfl, rfl⟩, fun _ he => absurd he List.not_mem_nil⟩
  log_of := fun _ h => absurd h List.not_mem_nil

theorem holds_run (o : Opening) {events : List Event} (hwin : (requestsOf events).length < 0x8000) :
    (o.start.run o events).Holds o (requestsOf events) :=
  Net.Holds.run [] (o.holds_start _) rfl hwin

/-- Every dispatched request is one the client issued, whatever the network did. -/
theorem dispatched_as_issued (o : Opening) {events : List Event} (hwin : (requestsOf events).length < 0x8000) :
    ∀ x ∈ (o.start.run o events).log, ∃ k q, (requestsOf events)[k]? = some q ∧ x = ⟨q.1, o.idOf k, q.2⟩ :=
  (holds_run o hwin).log_of

/-! ## Newer than everything seen -/

/-- The datagrams that the events of a run deliver. -/
def Net.delivered (o : Opening) : Net → List Event → List Bytes
  | _, [] => []
  | n, .issue opcode payload :: events => Net.delivered o (n.step o (.issue opcode payload)) events
  | n, .deliver env i :: events => n.sent[i]?.toList ++ Net.delivered o (n.step o (.deliver env i)) events

/-- `requestId` is newer than the IDs of the datagrams. -/
def NewerThan (key : Key) (requestId : Nat) (ds : List Bytes) : Prop :=
  ∀ d ∈ ds, ∀ p, Packet.decode d key = .ok p → requestIsNewer requestId p.requestId = true

/-- The IDs that the session knows: of the last reply, the cached ones, the pending ones. -/
structure Session.Knows (P : Nat → Prop) (session : Session) : Prop where
  last : ∀ l, session.lastRequestId = some l → P l
  cached : ∀ a ∈ session.responseCache.keys, P a
  pending : ∀ a ∈ session.pending.keys, P a

theorem keys_trimCache (cache : Dict Nat (List Bytes)) (id : Nat) (encoded : List Bytes) :
    ∀ a ∈ Dict.keys (trimCache (cache.set id encoded)), a ∈ cache.keys ∨ a = id := by
  intro a ha
  obtain ⟨e, he, rfl⟩ := List.mem_map.mp ha
  rcases Dict.mem_set (List.mem_of_mem_drop he) with he | rfl
  · exact Or.inl (List.mem_map.mpr ⟨e, he, rfl⟩)
  · exact Or.inr rfl

section

variable {o : Opening} {issued : List (Opcode × Bytes)} {n : Net} {session : Session} {k : Nat} {q : Opcode × Bytes}
  {p : Packet} {P : Nat → Prop}

theorem Session.Knows.replied (h : session.Knows P) {id : Nat} (hid : P id) {r : Result} (hr : session.Replied id r) :
    ∃ session', r.server.session = some session' ∧ session'.Knows P := by
  rcases hr with ⟨-, hs⟩ | ⟨-, encoded, hs⟩
  · exact ⟨session, hs, h⟩
  · refine ⟨_, hs, fun l hl => ?_, fun a ha => ?_, h.pending⟩
    · obtain rfl := Option.some.inj hl
      exact hid
    · rcases keys_trimCache _ _ _ a ha with ha | rfl
      · exact h.cached a ha
      · exact hid

/-- A packet adds its own ID to those the session knows. -/
theorem handlePacket_knows {s : UdpAgentServer} (hs : s.session = some session) (h : session.Knows P) (env : Env)
    (hid : P p.requestId) :
    ∃ session', (s.handlePacket session env p.requestId p).server.session = some session' ∧ session'.Knows P := by
  unfold UdpAgentServer.handlePacket
  split
  · exact ⟨session, hs, h⟩
  split
  · exact h.replied hid (sendResponse_replied s session _ _ _ _).2
  have hstored : ∀ a ∈ (session.stored p).keys, P a := by
    intro a ha
    obtain ⟨e, he, rfl⟩ := List.mem_map.mp ha
    rcases Dict.mem_set he with he | rfl
    · exact h.pending _ (List.mem_map.mpr ⟨e, mem_pendingFor he, rfl⟩)
    · exact hid
  have hrest : Session.Knows P { session with pending := (session.stored p).erase p.requestId } :=
    ⟨h.last, h.cached, fun a ha => hstored a ((Dict.keys_erase_sublist _ _).subset ha)⟩
  rcases acceptFragment_cases s session env p with ⟨-, -, -, hs'⟩ | ⟨-, ⟨-, -, -, hs'⟩ | ⟨-, -, -, hreplied⟩⟩
  · exact ⟨_, hs', h.last, h.cached, hstored⟩
  · exact ⟨_, hs', hrest⟩
  · exact hrest.replied hid hreplied

/-- What the session knows after a run are IDs of delivered datagrams. -/
theorem Net.knows_run {events : List Event} (before : List (Opcode × Bytes))
    (h : n.Holds o (before ++ requestsOf events)) (hn : n.issued = before.length)
    (hwin : (before ++ requestsOf events).length < 0x8000)
    (hdelivered : ∀ d ∈ n.delivered o events, ∀ p, Packet.decode d o.key = .ok p → P p.requestId)
    (hknows : ∀ session, n.server.session = some session → session.Knows P) :
    ∀ session, (n.run o events).server.session = some session → session.Knows P := by
  induction events generalizing n before with
  | nil => exact hknows
  | cons e events ih =>
    cases e with
    | issue opcode payload =>
      have hall : before ++ requestsOf (.issue opcode payload :: events) =
          (before ++ [(opcode, payload)]) ++ requestsOf events := by simp [requestsOf]
      rw [hall] at h hwin
      exact ih (before ++ [(opcode, payload)]) (h.issue (by simp [hn])) (by simp [Net.step, hn]) hwin hdelivered hknows
    | deliver env i =>
      have hissued : (n.step o (.deliver env i)).issued = n.issued := by
        simp only [Net.step]
        split <;> rfl
      simp only [Net.delivered, List.mem_append] at hdelivered
      refine ih before (h.deliver hwin env i) (hissued.trans hn) hwin (fun d hd => hdelivered d (Or.inr hd)) ?_
      cases hd : n.sent[i]? with
      | none =>
        simp only [Net.step, hd]
        exact hknows
      | some d =>
        obtain ⟨k, q, hk, hdk⟩ := h.sent_of d (List.mem_of_getElem? hd)
        obtain ⟨p, rfl, hp⟩ := mem_datagramsOf hdk
        obtain ⟨session, hs, hopened, -⟩ := h.session
        have hid : P p.requestId := hdelivered _ (Or.inl (by rw [hd]; exact List.mem_singleton_self _)) p
          (dosTransport_decode p o.key)
        obtain ⟨session', hs', hknows'⟩ := handlePacket_knows hs (hknows session hs) env hid
        rw [Net.step_deliver hs hopened _ hd hp]
        intro session'' hs''
        rw [hs'] at hs''
        obtain rfl := Option.some.inj hs''
        exact hknows'

end

/-! ## Nothing else in between -/

/-- `handle_datagram` raises at the delivery. -/
def Net.raisesAt (o : Opening) (n : Net) : Event → Bool
  | .issue _ _ => false
  | .deliver env i => match n.sent[i]? with
    | none => false
    | some d => (n.server.handleDatagram env d o.address).raised.isSome

/-- `serve_forever`: the loop ends with the first exception. -/
def Net.serve (o : Opening) : Net → List Event → Net
  | n, [] => n
  | n, e :: events => if n.raisesAt o e then n.step o e else Net.serve o (n.step o e) events

/-- The session waits for the rest of a request, the fragments `got` being there. -/
structure Session.Gathering (o : Opening) (k : Nat) (q : Opcode × Bytes) (got : List Nat) (session : Session) : Prop where
  opened : session.Opened o
  uncached : session.responseCache.has (o.idOf k) = false
  admitted : session.refuses (o.idOf k) = false
  table : o.TableOf k q ((session.pending.get? (o.idOf k)).getD [])
  missing : ((session.pending.get? (o.idOf k)).getD []).length < numFragments q.2
  got_mem : ∀ i ∈ got, i ∈ Dict.keys ((session.pending.get? (o.idOf k)).getD [])

section

variable {o : Opening} {n : Net} {session : Session} {k : Nat} {q : Opcode × Bytes} {p : Packet} {got : List Nat}

/-- Making room for a request takes nothing from it. -/
theorem get?_pendingFor (session : Session) (id : Nat) : (session.pendingFor id).get? id = session.pending.get? id := by
  unfold Session.pendingFor
  split
  · rename_i h
    have hnone : session.pending.get? id = none := by
      rw [Dict.has] at h
      simpa using h.1
    rw [hnone, Dict.get?_eq_none_iff]
    exact fun hmem => Dict.get?_eq_none_iff.mp hnone ((List.tail_sublist _).map Prod.fst |>.subset hmem)
  · rfl

theorem has_trimCache_set {cache : Dict Nat (List Bytes)} {id : Nat} (h : cache.has id = false) (encoded : List Bytes) :
    (trimCache (cache.set id encoded)).has id = true := by
  have hnew : id ∉ cache.keys := fun hmem => by
    rw [Dict.has_iff.mpr hmem] at h
    cases h
  have hlast : (id, encoded) ∈ trimCache (cache.set id encoded) := by
    rw [trimCache, Dict.set_of_not_mem hnew, List.drop_append_of_le_length (by simp)]
    exact List.mem_append_right _ (List.mem_singleton_self _)
  exact Dict.has_iff.mpr (List.mem_map.mpr ⟨_, hlast, rfl⟩)

theorem mem_keys_set {d : Dict Nat Packet} {i j : Nat} {p : Packet} (h : i ∈ d.keys ∨ i = j) : i ∈ (d.set j p).keys := by
  by_cases hj : j ∈ d.keys
  · rw [Dict.keys_set_of_mem hj]
    rcases h with h | rfl
    · exact h
    · exact hj
  · rw [Dict.keys_set_of_not_mem hj, List.mem_append, List.mem_singleton]
    exact h

/-- One more packet of the request: it is still waited for, or it is dispatched and answered
    from the cache from then on, unless the call raised. -/
theorem Session.Gathering.deliver (h : session.Gathering o k q got) (s : UdpAgentServer) (env : Env)
    (hlen : q.2.length ≤ maxMessageSize) (hp : o.PacketOf k q p) :
    let r := s.handlePacket session env p.requestId p
    (r.dispatched = none ∧ r.raised = none ∧
        ∃ session', r.server.session = some session' ∧ session'.Gathering o k q (p.fragmentIndex :: got)) ∨
      (r.dispatched = some ⟨q.1, o.idOf k, q.2⟩ ∧
        (r.raised ≠ none ∨ ∃ session', r.server.session = some session' ∧ session'.Opened o ∧
          session'.responseCache.has (o.idOf k) = true)) := by
  have hid := hp.requestId_eq
  have hgathered : session.gathered p = ((session.pending.get? (o.idOf k)).getD []).set p.fragmentIndex p := by
    rw [Session.gathered, get?_pendingFor, hid]
  have htable : o.TableOf k q (session.gathered p) := by
    rw [hgathered]
    refine ⟨indexTable_set h.table.1 p, fun e he => ?_⟩
    rcases Dict.mem_set he with he | rfl
    · exact h.table.2 e he
    · exact hp
  have hpass : s.handlePacket session env p.requestId p = s.acceptFragment session env p.requestId p := by
    rw [UdpAgentServer.handlePacket, hid, h.uncached, h.admitted]
    rfl
  rw [hpass]
  rcases acceptFragment_cases s session env p with ⟨hmore, hnone, hraised, hs'⟩ | ⟨hfull, ⟨⟨e, herror⟩, -⟩ | ⟨payload, hok, hsome, hreplied⟩⟩
  · refine Or.inl ⟨hnone, hraised, _, hs', ?_⟩
    have hget : (session.stored p).get? (o.idOf k) = some (session.gathered p) := by
      rw [Session.stored, hid]
      exact Dict.get?_set_same _ _ _
    refine ⟨⟨h.opened.address_eq, h.opened.sessionId_eq, h.opened.key_eq⟩, h.uncached, h.admitted, ?_, ?_, ?_⟩
    · simpa [hget] using htable
    · have hle := htable.length_le
      have hne : (session.gathered p).length ≠ numFragments q.2 := by
        rw [← hp.count_eq]
        exact hmore
      simp only [hget, Option.getD_some]
      omega
    · intro i hi
      simp only [hget, Option.getD_some, hgathered]
      rcases List.mem_cons.mp hi with rfl | hi
      · exact mem_keys_set (Or.inr rfl)
      · exact mem_keys_set (Or.inl (h.got_mem i hi))
  · rw [htable.reassemble hlen (hfull.trans hp.count_eq)] at herror
    cases herror
  · rw [htable.reassemble hlen (hfull.trans hp.count_eq)] at hok
    obtain rfl := Except.ok.inj hok
    refine Or.inr ⟨by rw [hsome, hp.opcode_eq, hid], ?_⟩
    rcases hreplied with ⟨hraised, -⟩ | ⟨-, encoded, hs'⟩
    · exact Or.inl hraised
    · refine Or.inr ⟨_, hs', ⟨h.opened.address_eq, h.opened.sessionId_eq, h.opened.key_eq⟩, ?_⟩
      rw [hid]
      exact has_trimCache_set h.uncached encoded

theorem raisesAt_deliver (hs : n.server.session = some session) (hopened : session.Opened o) {env : Env} {i : Nat}
    (hd : n.sent[i]? = some (dosTransportDatagram (p.encode o.key))) (hp : o.PacketOf k q p) :
    n.raisesAt o (.deliver env i) = (n.server.handlePacket session env p.requestId p).raised.isSome := by
  simp only [Net.raisesAt, hd, hopened.handle hs env hp]

/-- Copies of an answered request dispatch nothing. -/
theorem Net.serve_cached {events : List Event} (hs : n.server.session = some session) (hopened : session.Opened o)
    (hcached : session.responseCache.has (o.idOf k) = true) (honly : ∀ d ∈ n.delivered o events, d ∈ o.datagramsOf k q) :
    (n.serve o events).log = n.log := by
  induction events generalizing n with
  | nil => rfl
  | cons e events ih =>
    cases e with
    | issue opcode payload =>
      simp only [Net.serve, Net.raisesAt, Bool.false_eq_true, if_false]
      exact ih (n := n.step o (.issue opcode payload)) hs honly
    | deliver env i =>
      simp only [Net.delivered, List.mem_append] at honly
      cases hd : n.sent[i]? with
      | none =>
        have hsame : n.step o (.deliver env i) = n := by simp only [Net.step, hd]
        simp only [Net.serve, Net.raisesAt, hd, Bool.false_eq_true, if_false, hsame]
        refine ih hs fun d hmem => honly d (Or.inr ?_)
        rw [hsame]
        exact hmem
      | some d =>
        obtain ⟨p, rfl, hp⟩ := mem_datagramsOf (honly d (Or.inl (by rw [hd]; exact List.mem_singleton_self _)))
        have hcopy : n.server.handlePacket session env p.requestId p = n.server.sendCached session p.requestId := by
          rw [UdpAgentServer.handlePacket, hp.requestId_eq, hcached]
          rfl
        have hsame : n.step o (.deliver env i) = n := by
          rw [Net.step_deliver hs hopened _ hd hp, hcopy]
          simp [UdpAgentServer.sendCached]
        rw [Net.serve, raisesAt_deliver hs hopened hd hp, hcopy, if_neg (by simp [UdpAgentServer.sendCached]), hsame]
        refine ih hs fun d hmem => honly d (Or.inr ?_)
        rw [hsame]
        exact hmem

/-- The rest of a request is delivered: it is dispatched once. -/
theorem Net.serve_gathering (got : List Nat) {events : List Event} (hlen : q.2.length ≤ maxMessageSize)
    (hs : n.server.session = some session) (hgathering : session.Gathering o k q got)
    (honly : ∀ d ∈ n.delivered o events, d ∈ o.datagramsOf k q)
    (hall : ∀ i < numFragments q.2, i ∈ got ∨
      ∃ p : Packet, dosTransportDatagram (p.encode o.key) ∈ n.delivered o events ∧ p.fragmentIndex = i) :
    (n.serve o events).log = n.log ++ [⟨q.1, o.idOf k, q.2⟩] := by
  induction events generalizing n session got with
  | nil =>
    -- everything would be there
    exfalso
    have hsub : List.range (numFragments q.2) ⊆ Dict.keys ((session.pending.get? (o.idOf k)).getD []) := by
      intro i hi
      rcases hall i (List.mem_range.mp hi) with hgot | ⟨p, hp, -⟩
      · exact hgathering.got_mem i hgot
      · cases hp
    have hle := (List.subperm_of_subset List.nodup_range hsub).length_le
    rw [List.length_range, Dict.keys, List.length_map] at hle
    have := hgathering.missing
    omega
  | cons e events ih =>
    cases e with
    | issue opcode payload =>
      simp only [Net.serve, Net.raisesAt, Bool.false_eq_true, if_false]
      exact ih (n := n.step o (.issue opcode payload)) got hs hgathering honly hall
    | deliver env i =>
      simp only [Net.delivered, List.mem_append] at honly hall
      cases hd : n.sent[i]? with
      | none =>
        have hsame : n.step o (.deliver env i) = n := by simp only [Net.step, hd]
        simp only [hsame, hd, Option.toList_none, List.not_mem_nil, false_or] at honly hall
        simp only [Net.serve, Net.raisesAt, hd, Bool.false_eq_true, if_false, hsame]
        exact ih got hs hgathering honly hall
      | some d =>
        obtain ⟨p, rfl, hp⟩ := mem_datagramsOf (honly d (Or.inl (by rw [hd]; exact List.mem_singleton_self _)))
        have hstep := Net.step_deliver hs hgathering.opened env hd hp
        rw [Net.serve, raisesAt_deliver hs hgathering.opened hd hp]
        rcases hgathering.deliver n.server env hlen hp with ⟨hnone, hraised, session', hs', hnext⟩ | ⟨hsome, hdone⟩
        · -- one more fragment
          rw [hraised, if_neg (by simp)]
          rw [@ih _ session' (p.fragmentIndex :: got) (by rw [hstep]; exact hs') hnext
            (fun d hmem => honly d (Or.inr hmem)) ?_]
          · rw [hstep, hnone]
            simp
          · intro j hj
            rcases hall j hj with hgot | ⟨p', hp' | hp', hindex⟩
            · exact Or.inl (List.mem_cons_of_mem _ hgot)
            · rw [hd, Option.toList_some, List.mem_singleton] at hp'
              have hdecode := dosTransport_decode p' o.key
              rw [hp', dosTransport_decode p o.key] at hdecode
              obtain rfl := Except.ok.inj hdecode
              exact Or.inl (hindex ▸ List.mem_cons_self)
            · exact Or.inr ⟨p', hp', hindex⟩
        · -- the last fragment
          have hlog : (n.step o (.deliver env i)).log = n.log ++ [⟨q.1, o.idOf k, q.2⟩] := by
            rw [hstep, hsome]
            rfl
          split
          · exact hlog
          · rename_i hno
            rcases hdone with hraised | ⟨session', hs', hopened, hcached⟩
            · exact absurd (Option.isSome_iff_ne_none.mpr hraised) hno
            · rw [← hlog]
              exact Net.serve_cached (by rw [hstep]; exact hs') hopened hcached fun d hmem => honly d (Or.inr hmem)

end

/-- A request newer than everything seen is dispatched once when its datagrams are delivered,
    in any order, with copies, and nothing else between them. -/
theorem dispatched_once (o : Opening) {before during : List Event} {k : Nat} {q : Opcode × Bytes}
    (hwin : (requestsOf before).length < 0x8000) (hlen : q.2.length ≤ maxMessageSize)
    (hnewer : NewerThan o.key (o.idOf k) (o.start.delivered o before))
    (honly : ∀ d ∈ (o.start.run o before).delivered o during, d ∈ o.datagramsOf k q)
    (hall : ∀ d ∈ o.datagramsOf k q, d ∈ (o.start.run o before).delivered o during) :
    ((o.start.run o before).serve o during).log = (o.start.run o before).log ++ [⟨q.1, o.idOf k, q.2⟩] := by
  obtain ⟨session, hs, hopened, -⟩ := (holds_run o hwin).session
  have hknows := Net.knows_run (P := fun id => requestIsNewer (o.idOf k) id = true) [] (o.holds_start _) rfl hwin hnewer
    (fun session hs => by
      rw [o.start_session] at hs
      obtain rfl := Option.some.inj hs
      exact ⟨nofun, fun a ha => absurd ha List.not_mem_nil, fun a ha => absurd ha List.not_mem_nil⟩) session hs
  have hself : requestIsNewer (o.idOf k) (o.idOf k) = false := by simp [requestIsNewer]
  have hpending : session.pending.get? (o.idOf k) = none := by
    rw [Dict.get?_eq_none_iff]
    intro hmem
    have := hknows.pending _ hmem
    rw [hself] at this
    cases this
  refine Net.serve_gathering [] hlen hs ⟨hopened, ?_, ?_, ?_, ?_, fun i hi => absurd hi List.not_mem_nil⟩ honly ?_
  · rw [← Bool.not_eq_true, Dict.has_iff]
    intro hmem
    have := hknows.cached _ hmem
    rw [hself] at this
    cases this
  · cases hlast : session.lastRequestId with
    | none => simp [Session.refuses, hlast]
    | some l => simp [Session.refuses, hlast, hknows.last l hlast]
  · rw [hpending]
    exact ⟨indexTable_nil, fun _ he => absurd he List.not_mem_nil⟩
  · rw [hpending]
    exact (numFragments_range hlen).1
  · intro i hi
    obtain ⟨p, hmem, -, hindex⟩ := exists_datagramOf o.key q.1 (helloSessionId_range _ _).2
      (Nat.le_of_lt_succ (Serial.stamp_lt (by decide) (o.requestId - 1) (k + 1))) hlen hi
    exact Or.inr ⟨p, hall _ hmem, hindex⟩

end DosMcp
