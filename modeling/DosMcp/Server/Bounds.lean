/-
  DosMcp.Server.Bounds — what the agent server keeps, whatever is sent to it.

  Fragments of requests that are not complete, the datagrams of the last replies and the data of
  an upload are the parts of its state that datagrams make grow.
  - `Session.Bounded`: four requests and four replies, each of at most 32 datagrams.
  - `server_memory_bounded`: so all of it stays within constants in every state it can reach.
-/

import DosMcp.Server.ReplyProofs

namespace DosMcp

open Lib

/-! ## Tables -/

section

variable {α β : Type} [DecidableEq α] {d : Dict α β} {a : α} {b : β}

theorem Dict.length_set_le : (d.set a b).length ≤ d.length + 1 := by
  have hkeys : ∀ d : Dict α β, d.keys.length = d.length := fun d => List.length_map ..
  by_cases hmem : a ∈ d.keys
  · have heq := congrArg List.length (Dict.keys_set_of_mem (b := b) hmem)
    rw [hkeys, hkeys] at heq
    omega
  · rw [Dict.set_of_not_mem hmem, List.length_append]
    exact Nat.le_refl _

theorem Dict.length_set_of_has (h : d.has a = true) : (d.set a b).length = d.length := by
  have heq := congrArg List.length (Dict.keys_set_of_mem (b := b) (Dict.has_iff.mp h))
  rwa [Dict.keys, Dict.keys, List.length_map, List.length_map] at heq

end

/-- As many as there are values below `n`. -/
theorem length_le_of_keys_lt {β : Type} {n : Nat} {d : Dict Nat β} (hunique : d.Unique) (hlt : ∀ e ∈ d, e.1 < n) : d.length ≤ n := by
  have hsub : d.keys ⊆ List.range n := fun k hk => by
    obtain ⟨e, he, rfl⟩ := List.mem_map.mp hk
    exact List.mem_range.mpr (hlt e he)
  have hle := (List.subperm_of_subset hunique hsub).length_le
  rwa [Dict.keys, List.length_map, List.length_range] at hle

/-- A sum of at most `n` numbers, each at most `m`. -/
theorem sum_map_le {α : Type} {f : α → Nat} {m n : Nat} {xs : List α} (hlength : xs.length ≤ n) (h : ∀ x ∈ xs, f x ≤ m) :
    (xs.map f).sum ≤ n * m := by
  refine Nat.le_trans ?_ (Nat.mul_le_mul_right m hlength)
  clear hlength
  induction xs with
  | nil => exact Nat.zero_le _
  | cons x xs ih =>
    have hx := h x List.mem_cons_self
    have hxs := ih fun y hy => h y (List.mem_cons_of_mem _ hy)
    rw [List.map_cons, List.sum_cons, List.length_cons, Nat.succ_mul]
    omega

/-! ## A session -/

/-- The fragments of a request: one under each index, so no more than there can be. -/
structure ByIndex (fragments : Dict Nat Packet) : Prop where
  unique : fragments.Unique
  index_eq : ∀ e ∈ fragments, e.1 = e.2.fragmentIndex

structure Session.Bounded (session : Session) : Prop where
  pending_le : session.pending.length ≤ 4
  gathered : ∀ e ∈ session.pending, ByIndex e.2
  cache_le : session.responseCache.length ≤ 4
  replies : ∀ e ∈ session.responseCache, e.2.length ≤ maxFragments ∧ ∀ d ∈ e.2, d.length ≤ headerSize + maxFragmentPayload

/-- The bytes of the fragments that wait. -/
def Session.pendingBytes (session : Session) : Nat :=
  (session.pending.map fun e => (e.2.map fun f => f.2.payload.length).sum).sum

/-- The bytes of the replies that are kept. -/
def Session.cachedBytes (session : Session) : Nat :=
  (session.responseCache.map fun e => (e.2.map List.length).sum).sum

section

variable {s : UdpAgentServer} {session : Session} {fragments : Dict Nat Packet} {packet : Packet}

theorem ByIndex.length_le (h : ByIndex fragments) : fragments.length ≤ maxFragments :=
  length_le_of_keys_lt h.unique fun e he => by
    rw [h.index_eq e he]
    exact Nat.lt_of_lt_of_le e.2.fragmentIndex_lt e.2.fragmentCount_range.2

theorem ByIndex.set (h : ByIndex fragments) (packet : Packet) : ByIndex (fragments.set packet.fragmentIndex packet) where
  unique := Dict.unique_set h.unique _ _
  index_eq := by
    intro e he
    rcases Dict.mem_set he with he | rfl
    · exact h.index_eq e he
    · rfl

theorem Session.Bounded.pendingBytes_le (h : session.Bounded) : session.pendingBytes ≤ 4 * (maxFragments * maxFragmentPayload) := by
  refine sum_map_le h.pending_le fun e he => ?_
  exact sum_map_le (h.gathered e he).length_le fun f _ => f.2.payload_le

theorem Session.Bounded.cachedBytes_le (h : session.Bounded) :
    session.cachedBytes ≤ 4 * (maxFragments * (headerSize + maxFragmentPayload)) :=
  sum_map_le h.cache_le fun e he => sum_map_le (h.replies e he).1 (h.replies e he).2

/-- The table of a bounded session takes any packet. -/
theorem Session.Bounded.stored (h : session.Bounded) (packet : Packet) :
    (session.stored packet).length ≤ 4 ∧ ∀ e ∈ session.stored packet, ByIndex e.2 := by
  have hroom : ∀ e ∈ session.pendingFor packet.requestId, e ∈ session.pending := by
    intro e he
    unfold Session.pendingFor at he
    split at he
    · exact List.mem_of_mem_tail he
    · exact he
  have hgathered : ByIndex (session.gathered packet) := by
    refine ByIndex.set ?_ packet
    cases hget : (session.pendingFor packet.requestId).get? packet.requestId with
    | none => exact ⟨List.nodup_nil, fun _ h => absurd h List.not_mem_nil⟩
    | some fragments => exact h.gathered _ (hroom _ (Dict.mem_of_get? hget))
  constructor
  · unfold Session.stored Session.pendingFor
    split
    · -- the oldest request has made room
      rename_i hfull
      refine Nat.le_trans Dict.length_set_le ?_
      have := h.pending_le
      rw [List.length_tail]
      omega
    · rename_i hroom
      by_cases hhas : session.pending.has packet.requestId = true
      · rw [Dict.length_set_of_has hhas]
        exact h.pending_le
      · have hshort : session.pending.length < 4 := by
          by_contra hlong
          exact hroom ⟨hhas, Nat.le_of_not_lt hlong⟩
        exact Nat.le_trans Dict.length_set_le hshort
  · intro e he
    rcases Dict.mem_set he with he | rfl
    · exact h.gathered e (hroom e he)
    · exact hgathered

theorem Session.Bounded.withPending (h : session.Bounded) {table : Dict Nat (Dict Nat Packet)} (hlength : table.length ≤ 4)
    (hgathered : ∀ e ∈ table, ByIndex e.2) : { session with pending := table }.Bounded :=
  ⟨hlength, hgathered, h.cache_le, h.replies⟩

theorem trimCache_length_le (cache : Dict Nat (List Bytes)) : (trimCache cache).length ≤ 4 := by
  rw [trimCache, List.length_drop]
  omega

/-- A reply takes the place of the oldest of four. -/
theorem Session.Bounded.sendResponse (h : session.Bounded) (s : UdpAgentServer) (kind : MessageKind) (opcode : Opcode)
    (requestId : Nat) (payload : Bytes) :
    ∀ v, (s.sendResponse session kind opcode requestId payload).server.session = some v → v.Bounded := by
  intro v hv
  cases hpackets : fragmentMessage kind opcode session.sessionId requestId payload with
  | error e =>
    rw [UdpAgentServer.sendResponse, hpackets] at hv
    cases hv
    exact h
  | ok packets =>
    have hcount : (packets.map (·.encode session.key)).length ≤ maxFragments := by
      rw [List.length_map, fragmentMessage_length hpackets]
      exact (numFragments_range (fragmentMessage_length_le hpackets)).2
    have hreply : (session.record requestId (packets.map (·.encode session.key))).Bounded := by
      refine ⟨h.pending_le, h.gathered, trimCache_length_le _, fun e he => ?_⟩
      rcases Dict.mem_set (List.mem_of_mem_drop he) with he | rfl
      · exact h.replies e he
      · refine ⟨hcount, fun d hd => ?_⟩
        obtain ⟨p, -, rfl⟩ := List.mem_map.mp hd
        rw [p.encode_length]
        exact Nat.add_le_add_left p.payload_le headerSize
    rw [UdpAgentServer.sendResponse, hpackets] at hv
    dsimp only at hv
    split at hv
    · cases hv
      exact hreply
    · cases hv
      exact hreply

theorem Session.Bounded.dispatch (h : session.Bounded) (s : UdpAgentServer) (env : Env) (opcode : Opcode) (requestId : Nat)
    (payload : Bytes) : ∀ v, (s.dispatch session env opcode requestId payload).server.session = some v → v.Bounded := by
  intro v hv
  unfold UdpAgentServer.dispatch at hv
  cases hrun : operate env s.transfer opcode payload with
  | none =>
    rw [hrun] at hv
    exact h.sendResponse s _ _ _ _ v hv
  | some outcome =>
    rw [hrun] at hv
    dsimp only at hv
    split at hv
    · exact h.sendResponse _ _ _ _ _ v hv
    · split at hv
      · exact h.sendResponse _ _ _ _ _ v hv
      · exact h.sendResponse _ _ _ _ _ v hv

theorem bounded_erase {table : Dict Nat (Dict Nat Packet)} (requestId : Nat) (hlength : table.length ≤ 4)
    (hindex : ∀ e ∈ table, ByIndex e.2) : (table.erase requestId).length ≤ 4 ∧ ∀ e ∈ table.erase requestId, ByIndex e.2 := by
  have hkeys := (Dict.keys_erase_sublist table requestId).length_le
  rw [Dict.keys, Dict.keys, List.length_map, List.length_map] at hkeys
  exact ⟨Nat.le_trans hkeys hlength, fun e he => hindex e (Dict.mem_of_mem_erase he)⟩

theorem Session.Bounded.acceptFragment (h : session.Bounded) (s : UdpAgentServer) (env : Env) (packet : Packet) :
    ∀ v, (s.acceptFragment session env packet.requestId packet).server.session = some v → v.Bounded := by
  intro v hv
  obtain ⟨hlength, hindex⟩ := h.stored packet
  simp only [UdpAgentServer.acceptFragment, ← Session.gathered.eq_def, ← Session.stored.eq_def] at hv
  split at hv
  · cases hv
    exact h.withPending hlength hindex
  · obtain ⟨hlength', hindex'⟩ := bounded_erase packet.requestId hlength hindex
    have hrest := h.withPending hlength' hindex'
    split at hv
    · cases hv
      exact hrest
    · exact hrest.dispatch _ env _ _ _ v hv

theorem Session.Bounded.handlePacket (h : session.Bounded) (hsession : s.session = some session) (env : Env) (packet : Packet) :
    ∀ v, (s.handlePacket session env packet.requestId packet).server.session = some v → v.Bounded := by
  intro v hv
  unfold UdpAgentServer.handlePacket at hv
  split at hv
  · cases hsession.symm.trans hv
    exact h
  split at hv
  · exact h.sendResponse s _ _ _ _ v hv
  · exact h.acceptFragment s env packet v hv

end

/-! ## The server -/

/-- The transfer is one that the requests of some ledger have built. -/
structure UdpAgentServer.Bounded (s : UdpAgentServer) : Prop where
  session : ∀ session, s.session = some session → session.Bounded
  transfer : ∃ l : Ledger, l.Matches s.transfer

section

variable {s : UdpAgentServer} {session : Session}

theorem dispatch_matches (h : ∃ l : Ledger, l.Matches s.transfer) (env : Env) (opcode : Opcode) (requestId : Nat) (payload : Bytes) :
    ∃ l : Ledger, l.Matches (s.dispatch session env opcode requestId payload).server.transfer := by
  obtain ⟨l, hl⟩ := h
  rw [(dispatch_outcome s session env opcode requestId payload).1]
  cases hrun : operate env s.transfer opcode payload with
  | none => exact ⟨l, hl⟩
  | some outcome => exact ⟨l.record s.transfer ⟨env, opcode, requestId, payload⟩, hl.step hrun⟩

theorem UdpAgentServer.Bounded.handlePacket (h : s.Bounded) (hsession : s.session = some session) (env : Env) (packet : Packet) :
    (s.handlePacket session env packet.requestId packet).server.Bounded := by
  refine ⟨(h.session session hsession).handlePacket hsession env packet, ?_⟩
  obtain ⟨-, heq⟩ | ⟨-, -, heq⟩ | ⟨-, -, table, heq⟩ | ⟨-, -, table, payload, -, heq⟩ := handlePacket_cases s session env packet
  · rw [heq]
    exact h.transfer
  · rw [heq, UdpAgentServer.sendError, (sendResponse_effect s session _ _ _ _).1]
    exact h.transfer
  · rw [heq]
    exact h.transfer
  · rw [heq]
    exact dispatch_matches (s := { s with session := some { session with pending := table } }) h.transfer env _ _ _

theorem UdpAgentServer.Bounded.handleHello (h : s.Bounded) (env : Env) (d : Bytes) (address : Address) :
    (s.handleHello env d address).server.Bounded := by
  cases hdecode : Packet.decode d s.key with
  | error e =>
    rw [UdpAgentServer.handleHello, hdecode]
    exact h
  | ok packet =>
    cases hrequest : HelloRequest.decode packet.payload with
    | error e =>
      simp only [UdpAgentServer.handleHello, hdecode, hrequest]
      exact h
    | ok request =>
      rw [handleHello_eq env address hdecode hrequest]
      refine ⟨fun v hv => ?_, .empty, .none _⟩
      cases hv
      exact ⟨Nat.zero_le 4, fun _ h => absurd h List.not_mem_nil, Nat.zero_le 4, fun _ h => absurd h List.not_mem_nil⟩

theorem UdpAgentServer.Bounded.handleDatagram (h : s.Bounded) (env : Env) (d : Bytes) (address : Address) :
    (s.handleDatagram env d address).server.Bounded := by
  unfold UdpAgentServer.handleDatagram
  split
  · exact h
  dsimp only
  split
  · exact h
  split
  · exact h.handleHello env d address
  split
  · exact h
  rename_i session hsession
  split
  · exact h
  split
  · exact h
  rename_i packet hdecode
  have hheader : unpackHeader d = packet.header session.key := by
    rcases Packet.encode_of_decode hdecode with rfl | rfl
    · simpa using packet.unpackHeader_encode session.key []
    · exact packet.unpackHeader_encode session.key [0]
  rw [hheader]
  exact h.handlePacket hsession env packet

theorem UdpAgentServer.Reached.bounded {key : Key} {drop : Bool} (h : Reached key drop s) : s.Bounded := by
  induction h with
  | start => exact ⟨nofun, .empty, .none _⟩
  | datagram env d address _ ih => exact ih.handleDatagram env d address

end

/-- Whatever datagrams have come: at most 128 KiB of fragments wait, at most 130.5 KiB of replies are
    kept, and an upload has at most a mebibyte. -/
theorem server_memory_bounded {key : Key} {drop : Bool} {s : UdpAgentServer} (h : s.Reached key drop) :
    (∀ session, s.session = some session → session.pendingBytes ≤ 131072 ∧ session.cachedBytes ≤ 133632) ∧
      ∀ t, s.transfer = some t → t.kind = .fileWrite → t.data.length ≤ 1048576 := by
  have hbounded := h.bounded
  refine ⟨fun session hsession => ?_, fun t ht hkind => ?_⟩
  · have hs := hbounded.session session hsession
    exact ⟨hs.pendingBytes_le, hs.cachedBytes_le⟩
  · obtain ⟨l, hl⟩ := hbounded.transfer
    have huploads := (hl t ht).uploads hkind
    rw [← huploads.offset_eq]
    exact huploads.offset_le

theorem server_memory_bounded_open : helloSession.pendingBytes ≤ 131072 ∧ helloSession.cachedBytes ≤ 133632 :=
  (server_memory_bounded openServer_reached).1 helloSession openServer_session

end DosMcp
