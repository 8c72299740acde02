/-
  DosMcp.System.Wire — one bridge and one agent server over a lossy, reordering, duplicating
  network, both ways.

  `Wire` is a session of `AtMostOnce` with the client's side: what the network does is a
  script, and `Wire.request` is `_request` against it. The programs of `Client.Api` run over
  it. The log of served requests keeps, for each, the transfer it met, so that the reply and
  the backend calls are known from it.

  In a run without refused replays a request that returns was served once, with the payload
  the client gave, after everything served before it, and its answer is that reply
  (`Wire.Inv.request`).
-/

import DosMcp.System.Integrity
import DosMcp.System.Link
import DosMcp.Server.TransferProofs

namespace DosMcp

open Lib

/-- A request that `_dispatch` was run for: what the outside answered, the transfer it met. -/
structure Served where
  env : Env
  active : Option Transfer
  opcode : Opcode
  requestId : Nat
  payload : Bytes

def Served.reply (e : Served) : Reply := replyOf e.env e.active e.opcode e.payload

def Served.calls (e : Served) : List Call := ((operate e.env e.active e.opcode e.payload).map Outcome.calls).getD []

def Served.dispatch (e : Served) : Dispatch := ⟨e.opcode, e.requestId, e.payload⟩

inductive Action where
  /-- The network hands the server the `index`-th datagram the client has sent. -/
  | deliver (env : Env) (index : Nat)
  /-- The network hands the client the `index`-th datagram the server has sent. -/
  | answer (index : Nat)
  /-- The deadline of the attempt passes. The datagrams sent again are copies of the first. -/
  | deadline

structure Wire where
  client : UdpBackend
  net : Net
  events : List Event
  /-- What the server has sent to the client. -/
  replies : List Bytes
  calls : List Call
  served : List Served
  script : List Action

/-- The session as the handshake leaves it, the HELLO's answer being sent. -/
def Wire.start (o : Opening) (client : UdpBackend) (script : List Action) : Wire where
  client := client
  net := o.start
  events := []
  replies := (o.server.handleDatagram o.env (dosTransportDatagram (o.hello.encode o.server.key)) o.address).sent.map Prod.snd
  calls := []
  served := []
  script := script

/-- The `index`-th datagram of the client reaches the server. -/
def Wire.deliver (o : Opening) (w : Wire) (env : Env) (index : Nat) : Wire :=
  match w.net.sent[index]? with
  | none => w
  | some d =>
    let r := w.net.server.handleDatagram env d o.address
    { w with net := w.net.step o (.deliver env index)
             events := w.events ++ [.deliver env index]
             replies := w.replies ++ (r.sent.filter (·.1 = o.address)).map Prod.snd
             calls := w.calls ++ r.calls
             served := w.served ++ r.dispatched.toList.map fun d =>
               ⟨env, w.net.server.transfer, d.opcode, d.requestId, d.payload⟩ }

/-- `_exchange_with_packet`. Where the script ends nothing arrives any more, and the deadlines
    pass. -/
def Wire.exchange (o : Opening) : List Action → Exchange → Wire → Except Exc (Bytes × Packet) × Wire
  | [], x, w => (.error (.timeoutError x.timeoutText), { w with script := [] })
  | .deliver env index :: script, x, w => Wire.exchange o script x (w.deliver o env index)
  | .answer index :: script, x, w => match w.replies[index]? with
    | none => Wire.exchange o script x w
    | some d => match x.receive w.client.target w.client.target d with
      | .waiting x => Wire.exchange o script x w
      | .done r => (r, { w with script := script })
  | .deadline :: script, x, w => match x.timeout with
    | .waiting x => Wire.exchange o script x w
    | .done r => (r, { w with script := script })

/-- The next request ID, and the first transmission. -/
def Wire.issue (o : Opening) (w : Wire) (opcode : Opcode) (payload : Bytes) : Wire :=
  { w with client := { w.client with requestId := nextRequestId w.client.requestId }
           net := w.net.step o (.issue opcode payload)
           events := w.events ++ [.issue opcode payload] }

/-- `_request` in the session. -/
def Wire.request (o : Opening) (opcode : Opcode) (payload : Bytes) : Fallible Wire Exc Bytes := fun w =>
  match w.client.closed, w.client.sessionKey with
  | true, _ => (.error (.runtimeError "UDP backend is closed"), w)
  | false, none => (.error .other, w)
  | false, some key =>
    let w := w.issue o opcode payload
    match requestPackets opcode w.client.sessionId w.client.requestId payload with
    | .error e => (.error e, w)
    | .ok packets => match Exchange.start packets key w.client.retries with
      | none => (.error .other, w)
      | some x => match Wire.exchange o w.script x w with
        | (.error e, w) => (.error e, w)
        | (.ok (answer, _), w) => (.ok answer, w)

/-- The session after any requests of the client. -/
def Wire.after (o : Opening) (w : Wire) (history : List (Opcode × Bytes)) : Wire :=
  history.foldl (fun w q => (Wire.request o q.1 q.2 w).2) w

/-! ## The condition -/

/-- No delivery so far was a refused replay or met an oversized screen, and the session has
    not run through half of the request IDs. -/
structure Wire.Clean (o : Opening) (w : Wire) : Prop where
  clean : cleanRun o o.start w.events = true
  few : w.net.issued < 0x8000

/-! ## What only grows -/

structure Wire.Grows (w w' : Wire) : Prop where
  events : w.events <+: w'.events
  served : w.served <+: w'.served
  calls : w.calls <+: w'.calls
  replies : w.replies <+: w'.replies

theorem Wire.Grows.refl (w : Wire) : w.Grows w :=
  ⟨List.prefix_refl _, List.prefix_refl _, List.prefix_refl _, List.prefix_refl _⟩

theorem Wire.Grows.trans {u v w : Wire} (h : u.Grows v) (k : v.Grows w) : u.Grows w :=
  ⟨h.events.trans k.events, h.served.trans k.served, h.calls.trans k.calls, h.replies.trans k.replies⟩

section

variable {o : Opening} {w : Wire}

theorem Wire.grows_deliver (o : Opening) (w : Wire) (env : Env) (index : Nat) : w.Grows (w.deliver o env index) := by
  unfold Wire.deliver
  split
  · exact .refl w
  · exact ⟨List.prefix_append _ _, List.prefix_append _ _, List.prefix_append _ _, List.prefix_append _ _⟩

theorem Wire.grows_issue (o : Opening) (w : Wire) (opcode : Opcode) (payload : Bytes) : w.Grows (w.issue o opcode payload) :=
  ⟨List.prefix_append _ _, List.prefix_refl _, List.prefix_refl _, List.prefix_refl _⟩

theorem Wire.grows_exchange (o : Opening) (script : List Action) (x : Exchange) (w : Wire) :
    w.Grows (Wire.exchange o script x w).2 := by
  induction script generalizing x w with
  | nil => exact ⟨List.prefix_refl _, List.prefix_refl _, List.prefix_refl _, List.prefix_refl _⟩
  | cons action script ih =>
    cases action with
    | deliver env index => exact (w.grows_deliver o env index).trans (ih x _)
    | answer index =>
      simp only [Wire.exchange]
      split
      · exact ih x w
      · split
        · exact ih _ w
        · exact ⟨List.prefix_refl _, List.prefix_refl _, List.prefix_refl _, List.prefix_refl _⟩
    | deadline =>
      simp only [Wire.exchange]
      split
      · exact ih _ w
      · exact ⟨List.prefix_refl _, List.prefix_refl _, List.prefix_refl _, List.prefix_refl _⟩

theorem Wire.grows_request (o : Opening) (opcode : Opcode) (payload : Bytes) (w : Wire) :
    w.Grows (Wire.request o opcode payload w).2 := by
  have hissue := w.grows_issue o opcode payload
  unfold Wire.request
  split
  · exact .refl w
  · exact .refl w
  · dsimp only
    split
    · exact hissue
    · split
      · exact hissue
      · rename_i x _
        have hexchange := Wire.grows_exchange o (w.issue o opcode payload).script x (w.issue o opcode payload)
        split
        · rename_i e heq
          rw [heq] at hexchange
          exact hissue.trans hexchange
        · rename_i answer heq
          rw [heq] at hexchange
          exact hissue.trans hexchange

end

/-! ## What is served -/

/-- A packet of the reply to a served request. -/
structure Served.Sends (o : Opening) (e : Served) (p : Packet) : Prop where
  fragment : IsFragment e.reply.kind e.opcode o.sessionId e.requestId e.reply.bytes p
  length_le : e.reply.bytes.length ≤ maxMessageSize

/-- The datagram carries such a packet. -/
def Served.SendsDatagram (o : Opening) (e : Served) (d : Bytes) : Prop := ∃ p, d = p.encode o.key ∧ e.Sends o p

/-- Each served request met the transfer that the one before it left. -/
def Chained : Option Transfer → List Served → Option Transfer → Prop
  | t, [], t' => t' = t
  | t, e :: es, t' => e.active = t ∧ Chained e.reply.transfer es t'

theorem chained_append {t t' : Option Transfer} {es es' : List Served} :
    Chained t (es ++ es') t' ↔ ∃ u, Chained t es u ∧ Chained u es' t' := by
  induction es generalizing t with
  | nil => exact ⟨fun h => ⟨t, rfl, h⟩, fun ⟨u, hu, h⟩ => hu ▸ h⟩
  | cons e es ih =>
    simp only [List.cons_append, Chained, ih]
    exact ⟨fun ⟨ha, u, h⟩ => ⟨u, ⟨ha, h.1⟩, h.2⟩, fun ⟨u, h⟩ => ⟨h.1.1, u, h.1.2, h.2⟩⟩

theorem chained_unique {t u v : Option Transfer} {es : List Served} (hu : Chained t es u) (hv : Chained t es v) : u = v := by
  induction es generalizing t with
  | nil => exact hu.trans hv.symm
  | cons e es ih => exact ih hu.2 hv.2

/-- The request served last left the transfer. -/
theorem chained_last {t t' : Option Transfer} {es : List Served} {e : Served} (h : Chained t (es ++ [e]) t') :
    Chained t es e.active ∧ t' = e.reply.transfer := by
  obtain ⟨u, hes, hactive, hlast⟩ := chained_append.mp h
  exact ⟨hactive ▸ hes, hlast⟩

theorem replyOf_length {env : Env} (hscreen : env.screenFits) {active : Option Transfer} {opcode : Opcode} {payload : Bytes}
    (hp : payload.length ≤ maxMessageSize) : (replyOf env active opcode payload).bytes.length ≤ maxMessageSize := by
  have herror : ∀ code message, (encodeError code message).length ≤ maxMessageSize :=
    fun code message => Nat.le_trans (encodeError_length code message) (by decide)
  unfold replyOf
  split
  · exact herror _ _
  · rename_i outcome ho
    split
    · rename_i response hr
      exact operate_reply_length hscreen hp ho hr
    · split
      · exact herror _ _
      · exact herror _ _

theorem dispatch_calls (s : UdpAgentServer) (session : Session) (env : Env) (opcode : Opcode) (requestId : Nat) (payload : Bytes) :
    (s.dispatch session env opcode requestId payload).calls =
      ((operate env s.transfer opcode payload).map Outcome.calls).getD [] := by
  unfold UdpAgentServer.dispatch
  cases operate env s.transfer opcode payload with
  | none => exact (sendResponse_effect s session .error opcode requestId _).2
  | some outcome => rfl

/-- What `_dispatch` does with a request: the reply is sent or dropped, and cached. -/
theorem dispatch_served {o : Opening} {s : UdpAgentServer} (session : Session) {env : Env} (hscreen : env.screenFits)
    (opcode : Opcode) {requestId : Nat} {payload : Bytes} (hsid : session.sessionId = o.sessionId) (hkey : session.key = o.key)
    (hr : requestId ≤ 0xFFFF) (hp : payload.length ≤ maxMessageSize) :
    let e : Served := ⟨env, s.transfer, opcode, requestId, payload⟩
    let r := s.dispatch session env opcode requestId payload
    r.calls = e.calls ∧ r.server.transfer = e.reply.transfer ∧
      ∃ encoded, (∀ d ∈ encoded, e.SendsDatagram o d) ∧ (∀ x ∈ r.sent, x.2 ∈ encoded) ∧
        r.server.session = some (session.record requestId encoded) := by
  intro e r
  obtain ⟨hserver, hsent, -⟩ := dispatch_eq s session env opcode requestId payload
  have hlen : e.reply.bytes.length ≤ maxMessageSize := replyOf_length hscreen hp
  have hs : session.sessionId ≤ 0xFFFF := hsid ▸ (helloSessionId_range _ _).2
  obtain ⟨packets, hpackets, hsession, -, htransfer, -, -, -, hsends⟩ := sendResponse_recorded
    (s := { s with transfer := e.reply.transfer }) e.reply.kind opcode hs hr hlen
  refine ⟨dispatch_calls s session env opcode requestId payload, ?_, packets.map (·.encode session.key), fun d hd => ?_,
    fun x hx => ?_, ?_⟩
  · exact (congrArg UdpAgentServer.transfer hserver).trans htransfer
  · obtain ⟨p, hp, rfl⟩ := List.mem_map.mp hd
    refine ⟨p, by rw [hkey], ?_, hlen⟩
    rw [← hsid]
    exact isFragment_of_mem hpackets hp
  · rcases hsends with hnone | hall
    · rw [show r.sent = [] from hsent.trans hnone] at hx
      cases hx
    · rw [show r.sent = _ from hsent.trans hall] at hx
      obtain ⟨d, hd, rfl⟩ := List.mem_map.mp hx
      exact hd
  · exact (congrArg UdpAgentServer.session hserver).trans hsession

/-- What a delivery does that is no refused replay. -/
theorem Net.Inv.delivered {o : Opening} {n : Net} (h : n.Inv o) {env : Env} {index : Nat}
    (hclean : n.clean (.deliver env index) = true) {d : Bytes} (hd : n.sent[index]? = some d) :
    let r := n.server.handleDatagram env d o.address
    ∃ session session', n.server.session = some session ∧ r.server.session = some session' ∧
      ((r.dispatched = none ∧ r.calls = [] ∧ r.server.transfer = n.server.transfer ∧
          (∀ x ∈ r.sent, ∃ c ∈ session.responseCache, x.2 ∈ c.2) ∧ session'.responseCache = session.responseCache) ∨
        ∃ e : Served, e.active = n.server.transfer ∧ e.env = env ∧ r.dispatched = some e.dispatch ∧ r.calls = e.calls ∧
          r.server.transfer = e.reply.transfer ∧ ∃ encoded, (∀ d ∈ encoded, e.SendsDatagram o d) ∧
            (∀ x ∈ r.sent, x.2 ∈ encoded) ∧
            session'.responseCache = trimCache (session.responseCache.set e.requestId encoded)) := by
  simp only [Net.clean, hd, Bool.and_eq_true, Bool.not_eq_true'] at hclean
  obtain ⟨session, hs, haddr, hsid, hkey, -⟩ := h.guarded
  obtain ⟨k, -, -, p, hdatagram, hkind, hpsid, -⟩ := h.sent_as d (List.mem_of_getElem? hd)
  subst hdatagram
  have hdec := dosTransport_decode p o.key
  have hsne : session.sessionId ≠ 0 := by
    have := helloSessionId_range o.clientNonce o.env.serverNonce
    rw [hsid, Opening.sessionId]
    omega
  have hhandle := handleDatagram_session hs env (by rw [hkey]; exact hdec) (dosTransport_length p o.key) hkind
    (hpsid.trans hsid.symm) hsne
  have hrefuse := hclean.2
  simp only [UdpAgentServer.refusesDatagram, hs, hkey, hdec, Bool.and_eq_false_iff, Bool.not_eq_false'] at hrefuse
  rw [haddr] at hhandle
  rw [hhandle]
  rcases handlePacket_cases n.server session env p with
    ⟨hc, e⟩ | ⟨hc, hr, -⟩ | ⟨-, -, table, e⟩ | ⟨-, -, table, payload, hlen, e⟩
  · -- answered from the cache
    rw [e]
    refine ⟨session, session, hs, hs, Or.inl ⟨rfl, rfl, rfl, fun x hx => ?_, rfl⟩⟩
    obtain ⟨d, hd, rfl⟩ := List.mem_map.mp hx
    cases hget : session.responseCache.get? p.requestId with
    | none =>
      rw [hget] at hd
      cases hd
    | some encoded =>
      rw [hget] at hd
      exact ⟨_, Dict.mem_of_get? hget, hd⟩
  · -- refused: excluded
    rw [hc, hr] at hrefuse
    simp at hrefuse
  · -- a fragment is stored
    rw [e]
    refine ⟨session, _, hs, rfl, Or.inl ⟨rfl, rfl, rfl, ?_, rfl⟩⟩
    intro x hx
    cases hx
  · -- dispatched
    rw [e]
    have hserved := dispatch_served (o := o) (s := { n.server with session := some { session with pending := table } })
      { session with pending := table } hclean.1 p.opcode hsid hkey p.requestId_le hlen
    obtain ⟨hcalls, htransfer, encoded, hencoded, hsent, hsession⟩ := hserved
    refine ⟨session, _, hs, hsession, Or.inr ⟨⟨env, n.server.transfer, p.opcode, p.requestId, payload⟩, rfl, rfl, ?_, hcalls,
      htransfer, encoded, hencoded, hsent, rfl⟩⟩
    exact (dispatch_replied _ _ _ _ _ _).1

/-! ## The two sides -/

/-- The client is in the session, and the events are those of the network. -/
structure Wire.Linked (o : Opening) (w : Wire) : Prop where
  closed_eq : w.client.closed = false
  sessionKey_eq : w.client.sessionKey = some o.key
  sessionId_eq : w.client.sessionId = o.sessionId
  requestId_eq : w.client.requestId = w.net.requestId
  net_eq : w.net = o.start.run o w.events

/-- What is served, called and sent in a run without refused replays. -/
structure Wire.Inv (o : Opening) (w : Wire) : Prop where
  log_eq : w.net.log = w.served.map Served.dispatch
  calls_eq : w.calls = w.served.flatMap Served.calls
  chained : Chained none w.served w.net.server.transfer
  replies_of : ∀ d ∈ w.replies, (∃ e ∈ w.served, e.SendsDatagram o d) ∨ ∀ p, Packet.decode d o.key = .ok p → p.opcode = .hello
  cached_of : ∀ session, w.net.server.session = some session → ∀ c ∈ session.responseCache, ∀ d ∈ c.2,
    ∃ e ∈ w.served, e.SendsDatagram o d

/-- A state of the session; the invariant holds as long as the run is clean. -/
structure Wire.Sound (o : Opening) (w : Wire) : Prop extends w.Linked o where
  inv : w.Clean o → w.Inv o

theorem cleanRun_append {o : Opening} {n : Net} {events more : List Event} :
    cleanRun o n (events ++ more) = true ↔ cleanRun o n events = true ∧ cleanRun o (n.run o events) more = true := by
  induction events generalizing n with
  | nil => simp [cleanRun, Net.run]
  | cons e events ih =>
    simp only [List.cons_append, cleanRun, Bool.and_eq_true, ih, and_assoc]
    rfl

theorem Net.run_append (o : Opening) (n : Net) (events more : List Event) :
    n.run o (events ++ more) = (n.run o events).run o more := List.foldl_append

section

variable {o : Opening} {w w' : Wire}

/-- What was clean later was clean before. -/
theorem Wire.Grows.clean (h : w.Grows w') (hlinked : w.Linked o) (hlinked' : w'.Linked o) (hclean : w'.Clean o) : w.Clean o := by
  obtain ⟨more, hmore⟩ := h.events
  have hrun := hclean.clean
  rw [← hmore, cleanRun_append] at hrun
  have hissued := Net.run_issued o (o.start.run o w.events) more
  rw [← Net.run_append, hmore, ← hlinked.net_eq, ← hlinked'.net_eq] at hissued
  exact ⟨hrun.1, Nat.lt_of_le_of_lt hissued hclean.few⟩

theorem Wire.Linked.netInv (h : w.Linked o) (hclean : w.Clean o) : w.net.Inv o := by
  have hfew := hclean.few
  rw [h.net_eq] at hfew ⊢
  exact o.inv_start.run hclean.clean hfew

theorem Wire.Linked.deliver (h : w.Linked o) (env : Env) (index : Nat) : (w.deliver o env index).Linked o := by
  unfold Wire.deliver
  split
  · exact h
  · rename_i d hd
    refine ⟨h.closed_eq, h.sessionKey_eq, h.sessionId_eq, h.requestId_eq.trans ?_, ?_⟩
    · simp only [Net.step, hd]
    · simp only [Net.run_append, ← h.net_eq]
      rfl

theorem Wire.Linked.issue (h : w.Linked o) (opcode : Opcode) (payload : Bytes) : (w.issue o opcode payload).Linked o := by
  refine ⟨h.closed_eq, h.sessionKey_eq, h.sessionId_eq, ?_, ?_⟩
  · simp only [Wire.issue, Net.step, h.requestId_eq]
  · simp only [Wire.issue, Net.run_append, ← h.net_eq]
    rfl

theorem Wire.Sound.issue (h : w.Sound o) (opcode : Opcode) (payload : Bytes) : (w.issue o opcode payload).Sound o := by
  refine ⟨h.toLinked.issue opcode payload, fun hclean => ?_⟩
  obtain ⟨hlog, hcalls, hchained, hreplies, hcached⟩ :=
    h.inv ((w.grows_issue o opcode payload).clean h.toLinked (h.toLinked.issue opcode payload) hclean)
  exact ⟨hlog, hcalls, hchained, hreplies, hcached⟩

/-- A delivery serves at most one request. -/
theorem Wire.Sound.deliver (h : w.Sound o) (env : Env) (index : Nat) : (w.deliver o env index).Sound o := by
  refine ⟨h.toLinked.deliver env index, fun hclean => ?_⟩
  have hbefore := (w.grows_deliver o env index).clean h.toLinked (h.toLinked.deliver env index) hclean
  have hinv := h.inv hbefore
  have hevents := hclean.clean
  unfold Wire.deliver at hevents ⊢
  split
  · exact hinv
  rename_i d hd
  simp only [hd, cleanRun_append, cleanRun, Bool.and_true, ← h.net_eq] at hevents
  have hstep : (w.net.step o (.deliver env index)).server = (w.net.server.handleDatagram env d o.address).server ∧
      (w.net.step o (.deliver env index)).log =
        w.net.log ++ (w.net.server.handleDatagram env d o.address).dispatched.toList := by
    simp only [Net.step, hd, and_self]
  obtain ⟨session, session', hs, hs', hquiet | ⟨e, hactive, henv, hdispatched, hcalls, htransfer, encoded, hencoded, hsent, hcache⟩⟩ :=
    (h.toLinked.netInv hbefore).delivered hevents.2 hd
  · obtain ⟨hnone, hcalls, htransfer, hsent, hcache⟩ := hquiet
    refine ⟨?_, ?_, ?_, ?_, ?_⟩
    · simp [hstep.2, hnone, hinv.log_eq]
    · simp [hcalls, hnone, hinv.calls_eq]
    · simpa [hstep.1, htransfer, hnone] using hinv.chained
    · intro d' hd'
      simp only [hnone, Option.toList_none, List.map_nil, List.append_nil]
      rcases List.mem_append.mp hd' with hd' | hd'
      · exact hinv.replies_of d' hd'
      · obtain ⟨x, hx, rfl⟩ := List.mem_map.mp hd'
        obtain ⟨c, hc, hmem⟩ := hsent x (List.mem_filter.mp hx).1
        exact Or.inl (hinv.cached_of session hs c hc x.2 hmem)
    · intro session'' hs'' c hc d' hd'
      simp only [hnone, Option.toList_none, List.map_nil, List.append_nil]
      rw [hstep.1, hs'] at hs''
      obtain rfl := Option.some.inj hs''
      exact hinv.cached_of session hs c (hcache ▸ hc) d' hd'
  · have he : (⟨env, w.net.server.transfer, e.dispatch.opcode, e.dispatch.requestId, e.dispatch.payload⟩ : Served) = e := by
      rw [← hactive, ← henv]
      rfl
    have hserved : w.served ++ (w.net.server.handleDatagram env d o.address).dispatched.toList.map (fun d =>
        (⟨env, w.net.server.transfer, d.opcode, d.requestId, d.payload⟩ : Served)) = w.served ++ [e] := by
      rw [hdispatched, Option.toList_some, List.map_singleton, he]
    have hlater : ∀ d', (∃ e' ∈ w.served, e'.SendsDatagram o d') → ∃ e' ∈ w.served ++ [e], e'.SendsDatagram o d' := by
      rintro d' ⟨e', he', hsends⟩
      exact ⟨e', List.mem_append_left _ he', hsends⟩
    have hnow : ∀ d' ∈ encoded, ∃ e' ∈ w.served ++ [e], e'.SendsDatagram o d' :=
      fun d' hd' => ⟨e, List.mem_append_right _ List.mem_cons_self, hencoded d' hd'⟩
    simp only [hserved]
    refine ⟨?_, ?_, ?_, ?_, ?_⟩
    · simp [hstep.2, hdispatched, hinv.log_eq]
    · simp [hcalls, hinv.calls_eq]
    · rw [hstep.1, htransfer]
      exact chained_append.mpr ⟨_, hinv.chained, hactive, rfl⟩
    · intro d' hd'
      rcases List.mem_append.mp hd' with hd' | hd'
      · exact (hinv.replies_of d' hd').imp_left (hlater d')
      · obtain ⟨x, hx, rfl⟩ := List.mem_map.mp hd'
        exact Or.inl (hnow x.2 (hsent x (List.mem_filter.mp hx).1))
    · intro session'' hs'' c hc d' hd'
      rw [hstep.1, hs'] at hs''
      obtain rfl := Option.some.inj hs''
      rw [hcache] at hc
      rcases Dict.mem_set (List.mem_of_mem_drop hc) with hc | rfl
      · exact hlater d' (hinv.cached_of session hs c hc d' hd')
      · exact hnow d' hd'

/-- The opcode is read from the header, whatever the key. -/
theorem decode_opcode {p q : Packet} {key key' : Key} (h : Packet.decode (q.encode key') key = .ok p) : p.opcode = q.opcode := by
  have hheader : (unpackHeader (q.encode key')).rawOpcode = p.opcode.value := by
    rcases Packet.encode_of_decode h with e | e
    · rw [e, ← List.append_nil (p.encode key), p.unpackHeader_encode key []]
      rfl
    · rw [e, p.unpackHeader_encode key [0]]
      rfl
  rw [← List.append_nil (q.encode key'), q.unpackHeader_encode key' []] at hheader
  exact (Opcode.value_inj hheader).symm

/-- The client of the session, after the handshake. -/
structure Opening.Client (o : Opening) (client : UdpBackend) : Prop where
  closed_eq : client.closed = false
  sessionKey_eq : client.sessionKey = some o.key
  sessionId_eq : client.sessionId = o.sessionId
  requestId_eq : client.requestId = o.requestId

theorem Wire.sound_start {client : UdpBackend} (h : o.Client client) (script : List Action) : (Wire.start o client script).Sound o := by
  have hd := dosTransport_decode o.hello o.server.key
  have hp : HelloRequest.decode o.hello.payload = .ok ⟨o.clientNonce⟩ := HelloRequest.decode_leBytes o.clientNonce_lt
  have hhandle := (handleDatagram_hello o.env o.address hd (dosTransport_length _ _) rfl rfl rfl).trans
    (handleHello_eq o.env o.address hd hp)
  refine ⟨⟨h.closed_eq, h.sessionKey_eq, h.sessionId_eq, h.requestId_eq, rfl⟩, fun _ => ⟨rfl, rfl, ?_, fun d hd => Or.inr ?_, ?_⟩⟩
  · simp only [Wire.start, Opening.start, hhandle]
    rfl
  · simp only [Wire.start, hhandle, List.map_cons, List.map_nil, List.mem_singleton] at hd
    intro p hp
    rw [hd] at hp
    exact decode_opcode hp
  · intro session hs c hc
    rw [show (Wire.start o client script).net.server.session = _ from o.start_session] at hs
    obtain rfl := Option.some.inj hs
    cases hc

theorem Wire.Sound.withScript (h : w.Sound o) (script : List Action) : Wire.Sound o { w with script := script } := by
  refine ⟨⟨h.closed_eq, h.sessionKey_eq, h.sessionId_eq, h.requestId_eq, h.net_eq⟩, fun hclean => ?_⟩
  obtain ⟨hlog, hcalls, hchained, hreplies, hcached⟩ := h.inv ⟨hclean.clean, hclean.few⟩
  exact ⟨hlog, hcalls, hchained, hreplies, hcached⟩

theorem Wire.Sound.exchange (h : w.Sound o) (script : List Action) (x : Exchange) : (Wire.exchange o script x w).2.Sound o := by
  induction script generalizing x w with
  | nil => exact h.withScript []
  | cons action script ih =>
    cases action with
    | deliver env index => exact ih (h.deliver env index) x
    | answer index =>
      simp only [Wire.exchange]
      split
      · exact ih h x
      · split
        · exact ih h _
        · exact h.withScript script
    | deadline =>
      simp only [Wire.exchange]
      split
      · exact ih h _
      · exact h.withScript script

theorem Wire.Sound.request (h : w.Sound o) (opcode : Opcode) (payload : Bytes) : (Wire.request o opcode payload w).2.Sound o := by
  have hissue := h.issue opcode payload
  unfold Wire.request
  split
  · exact h
  · exact h
  · dsimp only
    split
    · exact hissue
    · split
      · exact hissue
      · rename_i x _
        have hexchange := hissue.exchange (w.issue o opcode payload).script x
        split
        · rename_i e heq
          rw [heq] at hexchange
          exact hexchange
        · rename_i answer heq
          rw [heq] at hexchange
          exact hexchange

theorem Wire.Sound.after (h : w.Sound o) (history : List (Opcode × Bytes)) : (w.after o history).Sound o := by
  induction history generalizing w with
  | nil => exact h
  | cons q history ih => exact ih (h.request q.1 q.2)

/-! ## Answers -/

/-- The request under the ID was served, and answered with these bytes. -/
def Answered (served : List Served) (id : Nat) (answer : Bytes) : Prop :=
  ∃ e ∈ served, e.requestId = id ∧ e.reply.kind = .response ∧ e.reply.bytes = answer

/-- What the client has collected are fragments of the answer to its request. -/
structure Exchange.Collects (o : Opening) (served : List Served) (x : Exchange) : Prop where
  key_eq : x.key = o.key
  notHello : x.expected.opcode ≠ .hello
  table : IndexTable x.received
  received_of : ∀ c ∈ x.received, ∃ e ∈ served, e.requestId = x.expected.requestId ∧ e.reply.kind = .response ∧ e.Sends o c.2

theorem Exchange.Collects.grow {x : Exchange} {served served' : List Served} (h : x.Collects o served) (hgrow : served <+: served') :
    x.Collects o served' :=
  ⟨h.key_eq, h.notHello, h.table, fun c hc => by
    obtain ⟨e, he, hsends⟩ := h.received_of c hc
    exact ⟨e, hgrow.subset he, hsends⟩⟩

theorem Exchange.Collects.ignore {x : Exchange} {served : List Served} (h : x.Collects o served) (reason : String) :
    (x.ignore reason).Collects o served := ⟨h.key_eq, h.notHello, h.table, h.received_of⟩

/-- A packet of the answer is collected; the last one completes it. -/
theorem Exchange.Collects.receivePacket {x : Exchange} {served : List Served} (h : x.Collects o served)
    (hnodup : (served.map Served.requestId).Nodup) {e : Served} (he : e ∈ served) {p : Packet} (hp : e.Sends o p) :
    (∀ y, x.receivePacket p = .waiting y → y.Collects o served ∧ y.expected = x.expected) ∧
      ∀ answer packet, x.receivePacket p = .done (.ok (answer, packet)) → Answered served x.expected.requestId answer := by
  unfold Exchange.receivePacket
  split
  · refine ⟨fun y hy => ?_, fun _ _ hdone => Progress.noConfusion hdone⟩
    obtain rfl := Progress.waiting.inj hy
    exact ⟨h.ignore _, rfl⟩
  rename_i hmatch
  simp only [not_not, Exchange.matches, decide_eq_true_eq] at hmatch
  have hid : e.requestId = x.expected.requestId := hp.fragment.requestId_eq.symm.trans hmatch.1
  cases hkind : p.kind with
  | error =>
    dsimp only
    cases decodeError p.payload with
    | error err => exact ⟨fun y hy => Progress.noConfusion hy, fun answer packet hdone => by cases Progress.done.inj hdone⟩
    | ok r => exact ⟨fun y hy => Progress.noConfusion hy, fun answer packet hdone => by cases Progress.done.inj hdone⟩
  | request =>
    refine ⟨fun y hy => ?_, fun _ _ hdone => Progress.noConfusion hdone⟩
    obtain rfl := Progress.waiting.inj hy
    exact ⟨h, rfl⟩
  | response =>
    have hresponse : e.reply.kind = .response := hp.fragment.kind_eq.symm.trans hkind
    -- every fragment is one of this reply: no other was served under the ID
    have hall : ∀ c ∈ x.received.set p.fragmentIndex p, e.Sends o c.2 := by
      intro c hc
      rcases Dict.mem_set hc with hc | rfl
      · obtain ⟨e', he', hid', -, hsends⟩ := h.received_of c hc
        rwa [← List.inj_on_of_nodup_map hnodup he' he (hid'.trans hid.symm)]
      · exact hp
    have htable := indexTable_set h.table p
    dsimp only
    split
    · rename_i hfull
      refine ⟨fun y hy => Progress.noConfusion hy, fun answer packet hdone => ⟨e, he, hid, hresponse, ?_⟩⟩
      rw [reassemblePackets_of_fragments htable hp.length_le (hfull.trans hp.fragment.count_eq) fun c hc => (hall c hc).fragment] at hdone
      exact (Prod.mk.inj (Except.ok.inj (Progress.done.inj hdone))).1
    · refine ⟨fun y hy => ?_, fun _ _ hdone => Progress.noConfusion hdone⟩
      obtain rfl := Progress.waiting.inj hy
      exact ⟨⟨h.key_eq, h.notHello, htable, fun c hc => ⟨e, he, hid, hresponse, hall c hc⟩⟩, rfl⟩

/-- A datagram that the server has sent. -/
theorem Exchange.Collects.receive {x : Exchange} {served : List Served} (h : x.Collects o served)
    (hnodup : (served.map Served.requestId).Nodup) {d : Bytes}
    (hd : (∃ e ∈ served, e.SendsDatagram o d) ∨ ∀ p, Packet.decode d o.key = .ok p → p.opcode = .hello) (target : Address) :
    (∀ y, x.receive target target d = .waiting y → y.Collects o served ∧ y.expected = x.expected) ∧
      ∀ answer packet, x.receive target target d = .done (.ok (answer, packet)) →
        Answered served x.expected.requestId answer := by
  unfold Exchange.receive
  split
  · refine ⟨fun y hy => ?_, fun _ _ hdone => Progress.noConfusion hdone⟩
    obtain rfl := Progress.waiting.inj hy
    exact ⟨h, rfl⟩
  split
  · refine ⟨fun y hy => ?_, fun _ _ hdone => Progress.noConfusion hdone⟩
    obtain rfl := Progress.waiting.inj hy
    exact ⟨h.ignore _, rfl⟩
  rename_i p hdecode
  rw [h.key_eq] at hdecode
  rcases hd with ⟨e, he, q, rfl, hq⟩ | hhello
  · rw [q.decode_encode] at hdecode
    obtain rfl := Except.ok.inj hdecode
    exact h.receivePacket hnodup he hq
  · -- a late copy of the HELLO's answer
    have hno : ¬ x.matches p = true := by
      simp only [Exchange.matches, decide_eq_true_eq]
      rintro ⟨-, hopcode, -⟩
      exact h.notHello (hopcode.symm.trans (hhello p hdecode))
    rw [Exchange.receivePacket, if_pos hno]
    refine ⟨fun y hy => ?_, fun _ _ hdone => Progress.noConfusion hdone⟩
    obtain rfl := Progress.waiting.inj hy
    exact ⟨h.ignore _, rfl⟩

/-- No ID is served twice. -/
theorem Wire.Sound.nodup (h : w.Sound o) (hclean : w.Clean o) : (w.served.map Served.requestId).Nodup := by
  obtain ⟨session, -, -, -, -, hguard⟩ := (h.toLinked.netInv hclean).guarded
  have hfew := hclean.few
  have hnodup := hguard.nodup (by decide) (by omega)
  rwa [Net.executed, (h.inv hclean).log_eq, List.map_map] at hnodup

/-- An exchange that returns has the answer to its request. -/
theorem Wire.Sound.answered (h : w.Sound o) {script : List Action} {x : Exchange} (hx : x.Collects o w.served) {answer : Bytes}
    {packet : Packet} (hreturn : Wire.exchange o script x w = (.ok (answer, packet), w')) (hclean : w'.Clean o) :
    Answered w'.served x.expected.requestId answer := by
  have hgrows := Wire.grows_exchange o script x w
  have hsound := h.exchange script x
  rw [hreturn] at hgrows hsound
  have hbefore := hgrows.clean h.toLinked hsound.toLinked hclean
  induction script generalizing x w with
  | nil => cases hreturn
  | cons action script ih =>
    cases action with
    | deliver env index =>
      have hstep := w.grows_deliver o env index
      have hnext := Wire.grows_exchange o script x (w.deliver o env index)
      simp only [Wire.exchange] at hreturn
      rw [hreturn] at hnext
      have hsound' := h.deliver env index
      exact ih hsound' (hx.grow hstep.served) hreturn hnext (hnext.clean hsound'.toLinked hsound.toLinked hclean)
    | answer index =>
      simp only [Wire.exchange] at hreturn
      split at hreturn
      · exact ih h hx hreturn hgrows hbefore
      rename_i d hd
      obtain ⟨hwaiting, hdone⟩ := hx.receive (h.nodup hbefore) ((h.inv hbefore).replies_of d (List.mem_of_getElem? hd)) w.client.target
      split at hreturn
      · rename_i y hy
        obtain ⟨hcollects, hexpected⟩ := hwaiting y hy
        rw [← hexpected]
        exact ih h hcollects hreturn hgrows hbefore
      · rename_i r hr
        obtain ⟨rfl, rfl⟩ := Prod.mk.inj hreturn
        exact hdone answer packet hr
    | deadline =>
      simp only [Wire.exchange, Exchange.timeout] at hreturn
      split at hreturn
      · rename_i y hy
        split at hy
        · cases hy
        · obtain rfl := Progress.waiting.inj hy
          exact ih h (x := { x with attempts := x.attempts - 1 }) ⟨hx.key_eq, hx.notHello, hx.table, hx.received_of⟩ hreturn
            hgrows hbefore
      · rename_i r hr
        split at hr
        · obtain rfl := Progress.done.inj hr
          cases hreturn
        · cases hr

/-! ## Requests -/

theorem requestsOf_append (events more : List Event) : requestsOf (events ++ more) = requestsOf events ++ requestsOf more :=
  List.filterMap_append

theorem Net.issued_run (o : Opening) (n : Net) (events : List Event) :
    (n.run o events).issued = n.issued + (requestsOf events).length := by
  induction events generalizing n with
  | nil => rfl
  | cons e events ih =>
    rw [show n.run o (e :: events) = (n.step o e).run o events from rfl, ih]
    cases e with
    | issue opcode payload =>
      simp only [Net.step, requestsOf, List.filterMap_cons, List.length_cons]
      omega
    | deliver env index =>
      have hsame : (n.step o (.deliver env index)).issued = n.issued := by
        simp only [Net.step]
        split <;> rfl
      rw [hsame]
      rfl

theorem requestsOf_exchange (o : Opening) (script : List Action) (x : Exchange) (w : Wire) :
    requestsOf (Wire.exchange o script x w).2.events = requestsOf w.events := by
  induction script generalizing x w with
  | nil => rfl
  | cons action script ih =>
    cases action with
    | deliver env index =>
      rw [Wire.exchange, ih]
      unfold Wire.deliver
      split
      · rfl
      · exact (requestsOf_append _ _).trans (List.append_nil _)
    | answer index =>
      simp only [Wire.exchange]
      split
      · exact ih x w
      · split
        · exact ih _ w
        · rfl
    | deadline =>
      simp only [Wire.exchange]
      split
      · exact ih _ w
      · rfl

/-- The request issued last has been served: nothing older is served any more. -/
def Wire.CaughtUp (w : Wire) : Prop := ∃ before e, w.served = before ++ [e] ∧ e.requestId = w.net.requestId

/-- The steps of a request that returns. -/
theorem Wire.Linked.request_eq (h : w.Linked o) {opcode : Opcode} {payload answer : Bytes}
    (hreturn : Wire.request o opcode payload w = (.ok answer, w')) :
    ∃ x packet, x.key = o.key ∧ x.received = [] ∧ x.expected.opcode = opcode ∧
      x.expected.requestId = nextRequestId w.client.requestId ∧
      Wire.exchange o w.script x (w.issue o opcode payload) = (.ok (answer, packet), w') := by
  unfold Wire.request at hreturn
  rw [h.closed_eq, h.sessionKey_eq] at hreturn
  dsimp only at hreturn
  split at hreturn
  · cases hreturn
  rename_i packets hpackets
  split at hreturn
  · cases hreturn
  rename_i x hstart
  cases packets with
  | nil => cases hstart
  | cons p ps =>
    obtain rfl := Option.some.inj hstart
    have hp := isFragment_of_mem hpackets List.mem_cons_self
    split at hreturn
    · cases hreturn
    · rename_i bytes packet w'' heq
      obtain ⟨hbytes, rfl⟩ := Prod.mk.inj hreturn
      obtain rfl := Except.ok.inj hbytes
      exact ⟨_, packet, rfl, rfl, hp.opcode_eq, hp.requestId_eq, heq⟩

/-- A request is answered with a RESPONSE where its operation returns. -/
theorem operate_of_response {env : Env} {active : Option Transfer} {opcode : Opcode} {payload : Bytes}
    (h : (replyOf env active opcode payload).kind = .response) :
    ∃ outcome, operate env active opcode payload = some outcome ∧
      outcome.reply = .ok (replyOf env active opcode payload).bytes ∧
        (replyOf env active opcode payload).transfer = outcome.transfer := by
  unfold replyOf at h ⊢
  cases ho : operate env active opcode payload with
  | none =>
    rw [ho] at h
    cases h
  | some outcome =>
    rw [ho] at h
    dsimp only at h ⊢
    cases hr : outcome.reply with
    | ok response => exact ⟨outcome, rfl, hr, rfl⟩
    | error e =>
      rw [hr] at h
      dsimp only at h
      split at h <;> cases h

/-- What was served are requests the client issued, at increasing positions. -/
theorem Wire.Sound.issued (h : w.Sound o) (hclean : w.Clean o) :
    w.net.issued = (requestsOf w.events).length ∧ w.net.requestId = Serial.stamp 0x10000 (o.requestId - 1) w.net.issued ∧
      (∀ e ∈ w.served, ∃ k q, (requestsOf w.events)[k]? = some q ∧ e.dispatch = ⟨q.1, o.idOf k, q.2⟩) ∧
      ∃ last, Serial.Guarded 0x10000 (o.requestId - 1) w.net.issued last (w.served.map Served.requestId) := by
  have hcount : w.net.issued = (requestsOf w.events).length := by
    rw [h.net_eq, Net.issued_run]
    exact Nat.zero_add _
  have hholds := holds_run o (hcount ▸ hclean.few)
  rw [← h.net_eq] at hholds
  have hlog := (h.inv hclean).log_eq
  obtain ⟨session, -, -, -, -, hguard⟩ := (h.toLinked.netInv hclean).guarded
  rw [Net.executed, hlog, List.map_map] at hguard
  exact ⟨hcount, hholds.requestId_eq, fun e he => hholds.log_of _ (hlog ▸ List.mem_map_of_mem he), _, hguard⟩

/-- What is served under the ID of the request issued last is that request, after everything
    else; and at once, where everything before it was served. -/
theorem Wire.Sound.served_last (h : w.Sound o) (h' : w'.Sound o) (hgrows : w.Grows w') (hclean : w'.Clean o) {opcode : Opcode}
    {payload : Bytes} (hissued : requestsOf w'.events = requestsOf w.events ++ [(opcode, payload)]) {e : Served}
    (he : e ∈ w'.served) (hid : e.requestId = nextRequestId w.net.requestId) :
    e.opcode = opcode ∧ e.payload = payload ∧ e.requestId = w'.net.requestId ∧
      ∃ earlier, w'.served = w.served ++ earlier ++ [e] ∧ (w.CaughtUp → earlier = []) := by
  obtain ⟨hcount, hrequestId, hserved, -⟩ := h.issued (hgrows.clean h.toLinked h'.toLinked hclean)
  obtain ⟨hcount', hrequestId', hserved', last, hguard⟩ := h'.issued hclean
  have hfew := hclean.few
  rw [hissued] at hserved'
  rw [hissued, List.length_append, List.length_singleton, ← hcount] at hcount'
  have hlength : (requestsOf w.events ++ [(opcode, payload)]).length < 0x8000 := by
    rw [List.length_append, List.length_singleton]
    omega
  have hlast : (requestsOf w.events ++ [(opcode, payload)])[w.net.issued]? = some (opcode, payload) := by
    rw [hcount, List.getElem?_append_right (Nat.le_refl _), Nat.sub_self]
    rfl
  have hstamp : e.requestId = Serial.stamp 0x10000 (o.requestId - 1) (w.net.issued + 1) := by
    rw [hid, nextRequestId_eq, hrequestId, Serial.next_stamp (by decide)]
  have hposition : ∀ {k q}, (requestsOf w.events ++ [(opcode, payload)])[k]? = some q → e.dispatch = ⟨q.1, o.idOf k, q.2⟩ →
      k = w.net.issued :=
    fun hk hdispatch => idOf_unique hlength hk hlast ((congrArg Dispatch.requestId hdispatch).symm.trans hstamp)
  obtain ⟨k, q, hk, hdispatch⟩ := hserved' e he
  obtain rfl := hposition hk hdispatch
  obtain rfl := Option.some.inj (hk.symm.trans hlast)
  -- nothing was served after it
  rw [hcount'] at hguard
  obtain ⟨before, after, hsplit⟩ := List.append_of_mem he
  have hafter : after = [] := by
    rw [hsplit, List.map_append, List.map_cons, hstamp] at hguard
    exact List.map_eq_nil_iff.mp (hguard.nothing_after (by decide) (by omega) rfl)
  rw [hafter] at hsplit
  -- and it was not served before it was issued
  have hnew : e ∉ w.served := by
    intro hold
    obtain ⟨k, q, hk, hdispatch⟩ := hserved e hold
    have hlt := (List.getElem?_eq_some_iff.mp hk).1
    have := hposition ((List.getElem?_append_left hlt).trans hk) hdispatch
    omega
  obtain ⟨grown, hgrown⟩ := hgrows.served
  obtain ⟨earlier, rfl⟩ : ∃ earlier, grown = earlier ++ [e] := by
    rcases List.eq_nil_or_concat grown with rfl | ⟨earlier, e', rfl⟩
    · rw [List.append_nil, hsplit] at hgrown
      exact absurd (hgrown ▸ List.mem_append_right _ List.mem_cons_self) hnew
    · have hend := hgrown.trans hsplit
      rw [List.concat_eq_append, ← List.append_assoc] at hend
      exact ⟨earlier, by rw [List.concat_eq_append, (List.append_inj' hend rfl).2]⟩
  refine ⟨congrArg Dispatch.opcode hdispatch, congrArg Dispatch.payload hdispatch, ?_, earlier, ?_, ?_⟩
  · rw [hstamp, hrequestId', hcount']
  · rw [← hgrown, List.append_assoc]
  · rintro ⟨before', e₀, hcaught, he₀⟩
    obtain ⟨k, q, hk, -⟩ := hserved e₀ (hcaught ▸ List.mem_append_right _ List.mem_cons_self)
    have hpos := (List.getElem?_eq_some_iff.mp hk).1
    refine List.map_eq_nil_iff.mp (hguard.nothing_between (by decide) (by omega) (i := w.net.issued) ⟨by omega, Nat.le_refl _⟩
      (before'.map Served.requestId) (earlier.map Served.requestId) [] ?_)
    rw [← hgrown, hcaught, ← hrequestId, ← he₀, ← hstamp]
    simp

/-- What a request that returns was served as. -/
structure Wire.Returned (w w' : Wire) (opcode : Opcode) (payload answer : Bytes) (e : Served) (outcome : Outcome) : Prop where
  served : ∃ earlier, w'.served = w.served ++ earlier ++ [e]
  opcode_eq : e.opcode = opcode
  payload_eq : e.payload = payload
  operated : operate e.env e.active opcode payload = some outcome
  reply_eq : outcome.reply = .ok answer
  transfer_eq : w'.net.server.transfer = outcome.transfer
  calls : ∃ earlier, w'.calls = w.calls ++ earlier ++ outcome.calls
  caughtUp : w'.CaughtUp
  active : w.CaughtUp → e.active = w.net.server.transfer

/-- A request that returns was served with the client's payload; where everything before it
    was served, it met the transfer the client left. -/
theorem Wire.Sound.returned (h : w.Sound o) {opcode : Opcode} {payload answer : Bytes} (hop : opcode ≠ .hello)
    (hreturn : Wire.request o opcode payload w = (.ok answer, w')) (hclean : w'.Clean o) :
    ∃ e outcome, w.Returned w' opcode payload answer e outcome := by
  obtain ⟨x, packet, hkey, hreceived, hopcode, hid, hexchange⟩ := h.toLinked.request_eq hreturn
  have hgrows := Wire.grows_request o opcode payload w
  have hsound := h.request opcode payload
  have hevents := requestsOf_exchange o w.script x (w.issue o opcode payload)
  rw [hreturn] at hgrows hsound
  rw [hexchange] at hevents
  have hissued : requestsOf w'.events = requestsOf w.events ++ [(opcode, payload)] := by
    rw [hevents]
    exact requestsOf_append _ _
  have hcollects : x.Collects o (w.issue o opcode payload).served := by
    refine ⟨hkey, hopcode ▸ hop, ?_, ?_⟩ <;> rw [hreceived]
    · exact indexTable_nil
    · nofun
  obtain ⟨e, he, heid, hkind, hbytes⟩ := (h.issue opcode payload).answered hcollects hexchange hclean
  obtain ⟨hopcode', hpayload, hrequestId, earlier, hserved, hcaught⟩ :=
    h.served_last hsound hgrows hclean hissued he (by rw [heid, hid, h.requestId_eq])
  have hinv := h.inv (hgrows.clean h.toLinked hsound.toLinked hclean)
  have hinv' := hsound.inv hclean
  have hchained := hinv'.chained
  rw [hserved] at hchained
  obtain ⟨hactive, htransfer⟩ := chained_last hchained
  obtain ⟨outcome, hoperate, hreply, hleft⟩ := operate_of_response hkind
  have hcalls : e.calls = outcome.calls := by
    rw [Served.calls, hoperate]
    rfl
  refine ⟨e, outcome, ⟨earlier, hserved⟩, hopcode', hpayload, ?_, ?_, htransfer.trans hleft,
    ⟨earlier.flatMap Served.calls, ?_⟩, ⟨_, e, hserved, hrequestId⟩, fun hcaughtUp => ?_⟩
  · rw [← hopcode', ← hpayload]
    exact hoperate
  · rw [hreply]
    exact congrArg Except.ok hbytes
  · rw [hinv'.calls_eq, hserved, hinv.calls_eq, ← hcalls]
    simp
  · rw [hcaught hcaughtUp, List.append_nil] at hactive
    exact chained_unique hactive hinv.chained

end

end DosMcp
