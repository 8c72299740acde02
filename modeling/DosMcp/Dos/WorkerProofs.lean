/-
  DosMcp.Dos.WorkerProofs — when RA-TSR calls DOS.

  A worker entry either hands one datagram to `process_datagram` or does nothing to the
  request state (`ratsrIdleWorker_cases`), and the files change only through a transfer
  operation or the cleanup of an abandoned transfer (`ratsrIdleWorker_files`).

  - `calls_outside_idle_iff`: an entry that may not call DOS makes no file call, in every
    run in which no such entry ends a file read with `GRAPHICS_END`.
  - `graphics_end_closes_file_from_timer`: the opcode gate lets `GRAPHICS_END` through, its
    handler is shared with `FILE_READ_END`, and so a timer entry closes the file.
-/

import DosMcp.Dos.AgentProofs
import DosMcp.Dos.TransferProofs
import DosMcp.Dos.Worker

namespace DosMcp.Dos

open Lib

/-! ## One entry -/

theorem beforePoll_session (c : Config) (s : State) (e : Entry) :
    (beforePoll c s e).session = (expireSession (enterWorker s e)).session ∧
      (beforePoll c s e).slot = s.slot ∧ (beforePoll c s e).requests = s.requests ∧
      (beforePoll c s e).reassembly = s.reassembly ∧ (beforePoll c s e).workspace = s.workspace := by
  unfold beforePoll advertise cleanTransfer expireSession enterWorker
  split_ifs <;> exact ⟨rfl, rfl, rfl, rfl, rfl⟩

theorem beforePoll_capture (c : Config) (s : State) (e : Entry) :
    (beforePoll c s e).textCapture = s.textCapture ∧ (beforePoll c s e).machine = e.machine := by
  unfold beforePoll advertise cleanTransfer expireSession enterWorker
  split_ifs <;> exact ⟨rfl, rfl⟩

/-- Expiry takes the session away or leaves it. -/
theorem beforePoll_active (c : Config) (s : State) (e : Entry) :
    (beforePoll c s e).session = s.session ∨ (beforePoll c s e).session.active = false := by
  rw [(beforePoll_session c s e).1]
  unfold expireSession
  split
  · exact Or.inr rfl
  · exact Or.inl rfl

theorem beforePoll_files (c : Config) (s : State) (e : Entry) :
    (beforePoll c s e).files = s.files ∨
      ((beforePoll c s e).files = closeTransfer s.files true ∧ e.dosSafe = true ∧
        (beforePoll c s e).session.active = false) := by
  have hsession := (beforePoll_session c s e).1
  have hexpire : (expireSession (enterWorker s e)).files = s.files := by
    unfold expireSession
    split <;> rfl
  have hadvertise : ∀ t : State, (advertise c t).files = t.files := by
    intro t
    unfold advertise
    split <;> rfl
  by_cases hclean : ¬ (expireSession (enterWorker s e)).session.active ∧
      (expireSession (enterWorker s e)).files.transfer.kind ≠ .none ∧ e.dosSafe
  · right
    refine ⟨?_, hclean.2.2, by rw [hsession]; simpa using hclean.1⟩
    rw [beforePoll, hadvertise, cleanTransfer, if_pos hclean, hexpire]
  · left
    rw [beforePoll, hadvertise, cleanTransfer, if_neg hclean, hexpire]

/-- The datagram an entry hands to `process_datagram`. -/
def polledDatagram (c : Config) (s : State) (e : Entry) : Option Datagram :=
  let t := beforePoll c s e
  if s.enabled && !t.session.responsePending && !t.session.helloPending then
    match t.slot with
    | none => none
    | some d => if dosOperation t d.payload ∧ ¬ e.dosSafe then none else some d
  else none

theorem emitFragment_quiet (s : State) : Quiet s (emitFragment s) := by
  unfold emitFragment
  dsimp only
  split <;> exact ⟨rfl, rfl, rfl, rfl, rfl, rfl, rfl, rfl⟩

theorem emitHello_quiet (s : State) : Quiet s (emitHello s) := ⟨rfl, rfl, rfl, rfl, rfl, rfl, rfl, rfl⟩

/-- The validation of a deferred datagram notes its result. -/
theorem validateDeferredDatagram_noted (c : Config) (s : State) (payload : Bytes) :
    ∃ result, (validateDeferredDatagram c s payload).2 = { s with lastProtocolResult := result } := by
  unfold validateDeferredDatagram
  split
  · exact ⟨_, rfl⟩
  · split <;> exact ⟨_, rfl⟩

/-- A poll finds nothing, validates a datagram that waits for DOS, or hands one to
    `process_datagram`. -/
theorem pollDatagram_cases (c : Config) (s : State) (e : Entry) :
    (s.slot = none ∧ pollDatagram c s e = s) ∨
      (∃ d result, s.slot = some d ∧ (dosOperation s d.payload = true ∧ ¬ e.dosSafe = true) ∧
        (pollDatagram c s e = { s with lastProtocolResult := result } ∨
          pollDatagram c s e = State.release { s with lastProtocolResult := result })) ∨
      ∃ d, s.slot = some d ∧ ¬ (dosOperation s d.payload = true ∧ ¬ e.dosSafe = true) ∧
        pollDatagram c s e = (processDatagram .ratsr c s d).release := by
  rcases Option.eq_none_or_eq_some s.slot with hslot | ⟨d, hslot⟩
  · exact Or.inl ⟨hslot, by simp only [pollDatagram, hslot]⟩
  right
  simp only [pollDatagram, hslot]
  by_cases hdefer : dosOperation s d.payload = true ∧ ¬ e.dosSafe = true
  · left
    obtain ⟨result, hnoted⟩ := validateDeferredDatagram_noted c s d.payload
    refine ⟨d, result, rfl, hdefer, ?_⟩
    rw [if_pos hdefer]
    generalize validateDeferredDatagram c s d.payload = r at hnoted ⊢
    obtain ⟨valid, t⟩ := r
    obtain rfl : t = { s with lastProtocolResult := result } := hnoted
    rw [← hslot]
    cases valid with
    | false => exact Or.inr rfl
    | true => exact Or.inl rfl
  · right
    refine ⟨d, rfl, hdefer, ?_⟩
    rw [if_neg hdefer]

/-- An entry does nothing to requests and files, or processes the polled datagram. -/
theorem ratsrIdleWorker_cases (c : Config) (s : State) (e : Entry) :
    (polledDatagram c s e = none ∧ s.enabled = false ∧ ratsrIdleWorker c s e = s) ∨
      (polledDatagram c s e = none ∧ ∃ t, Quiet (beforePoll c s e) t ∧
        (ratsrIdleWorker c s e = t ∨ ratsrIdleWorker c s e = t.release)) ∨
      ∃ d, polledDatagram c s e = some d ∧ s.slot = some d ∧
        ratsrIdleWorker c s e = (processDatagram .ratsr c (beforePoll c s e) d).release := by
  unfold ratsrIdleWorker polledDatagram
  by_cases henabled : s.enabled = true
  swap
  · left
    simp [henabled]
  right
  simp only [henabled, not_true, if_false, Bool.true_and]
  by_cases hpending : (beforePoll c s e).session.responsePending = true
  · left
    simp only [hpending, Bool.not_true, Bool.false_and, Bool.false_eq_true, if_false, if_true, true_and]
    exact ⟨_, emitFragment_quiet _, Or.inl rfl⟩
  by_cases hhello : (beforePoll c s e).session.helloPending = true
  · left
    simp only [hpending, hhello, Bool.not_true, Bool.and_false, Bool.false_eq_true, if_false, if_true, true_and]
    exact ⟨_, emitHello_quiet _, Or.inl rfl⟩
  simp only [hpending, hhello, Bool.not_false, Bool.and_true, Bool.false_eq_true, if_false, if_true]
  rcases pollDatagram_cases c (beforePoll c s e) e with ⟨hslot, hpoll⟩ | ⟨d, result, hslot, hdefer, hpoll⟩ |
    ⟨d, hslot, hnow, hpoll⟩
  · left
    rw [hslot, hpoll]
    exact ⟨rfl, _, ⟨rfl, rfl, rfl, rfl, rfl, rfl, rfl, rfl⟩, Or.inl rfl⟩
  · left
    rw [hslot]
    dsimp only
    rw [if_pos hdefer]
    exact ⟨rfl, { beforePoll c s e with lastProtocolResult := result }, ⟨rfl, rfl, rfl, rfl, rfl, rfl, rfl, rfl⟩, hpoll⟩
  · right
    have hs : s.slot = some d := by rw [← (beforePoll_session c s e).2.1, hslot]
    rw [hslot]
    dsimp only
    rw [if_neg hnow]
    exact ⟨d, rfl, hs, hpoll⟩

/-! ## The files -/

/-- The request that `process_datagram` processes for a datagram. -/
def sessionRequest (c : Config) (s : State) (d : Datagram) : Option Request :=
  match s.datagramKey c d.payload with
  | none => none
  | some key => match dmPacketDecode d.payload key with
    | .error _ => none
    | .ok packet =>
      if packet.kind = dmKindRequest ∧ ¬ (packet.opcode = dmOpHello ∧ packet.sessionId = 0) ∧
          s.session.owns packet d.peer ∧ s.session.last ≠ some packet.requestId ∧
          ¬ s.session.refuses packet.requestId then s.completedRequest packet
      else none

theorem processHello_files (b : Build) (c : Config) (s : State) (packet : DmPacket) (peer : Peer) :
    (processHello b c s packet peer).files = s.files := by
  unfold processHello
  split
  · rfl
  · dsimp only
    split <;> rfl

/-- A datagram acts on the files through the operation of the request it completes. -/
theorem processDatagram_files (c : Config) (s : State) (d : Datagram) :
    (processDatagram .ratsr c s d).files =
      match sessionRequest c s d with
      | none => s.files
      | some request => operatedFiles c s request.opcode request.payload := by
  unfold processDatagram sessionRequest
  cases hkey : s.datagramKey c d.payload with
  | none => rfl
  | some key =>
  dsimp only
  cases hdecode : dmPacketDecode d.payload key with
  | error e => rfl
  | ok packet =>
  dsimp only
  obtain ⟨-, hopcode⟩ := dmPacketDecode_opcode hdecode
  by_cases hkind : packet.kind = dmKindRequest
  swap
  · rw [processPacket, if_pos hkind, if_neg fun h => hkind h.1]
  by_cases hhello : packet.opcode = dmOpHello ∧ packet.sessionId = 0
  · rw [processPacket, if_neg (not_not.mpr hkind), if_pos hhello, processHello_files, if_neg fun h => h.2.1 hhello]
  by_cases howns : s.session.owns packet d.peer = true
  swap
  · rw [processPacket, if_neg (not_not.mpr hkind), if_neg hhello, if_pos howns, if_neg fun h => howns h.2.2.1]
  rw [processPacket_session hkind hhello howns]
  have hfiles : (s.heard packet).files = s.files := rfl
  have hlast : (s.heard packet).session.last = s.session.last := rfl
  have hrefuses : (s.heard packet).session.refuses packet.requestId = s.session.refuses packet.requestId := rfl
  rcases processSessionPacket_cases .ratsr c (s.heard packet) packet with ⟨hl, e⟩ | ⟨hr, e⟩ | ⟨hnewer, h⟩
  · rw [e, (resendCached_quiet .ratsr _).files_eq, hfiles, if_neg fun h => h.2.2.2.1 (hlast ▸ hl)]
  · rw [e, (sendError_responded .ratsr _ hopcode _ _ _).files_eq, hfiles, if_neg fun h => h.2.2.2.2 (hrefuses ▸ hr)]
  obtain ⟨hne, hno⟩ := AgentSession.fresh_of_newer hnewer
  rw [hlast] at hne
  rw [hrefuses] at hno
  rw [if_pos ⟨hkind, hhello, howns, hne, hno⟩, ← heard_completedRequest]
  rcases h with ⟨hnone, e⟩ | ⟨payload, hsome, e⟩
  · rw [e, hnone, (storeFragment_quiet _ packet).files_eq, hfiles]
  · obtain ⟨reassembly, workspace, estore⟩ := storeFragment_session (s.heard packet) packet
    rw [e, hsome, processRequest_files c _ hopcode, estore]
    rfl

/-- The request was sent in the active session, under the opcode byte of the datagram. -/
theorem sessionRequest_eq_some {c : Config} {s : State} {d : Datagram} {request : Request}
    (h : sessionRequest c s d = some request) :
    s.session.active = true ∧ 20 ≤ d.payload.length ∧ request.opcode = byteAt d.payload 4 := by
  unfold sessionRequest at h
  split at h
  · cases h
  split at h
  · cases h
  rename_i packet hdecode
  split at h
  · rename_i hcond
    have howns := hcond.2.2.1
    simp only [AgentSession.owns, decide_eq_true_eq] at howns
    refine ⟨howns.1, dmPacketDecode_length hdecode, ?_⟩
    rw [(completedRequest_eq_some h).2, (dmPacketDecode_opcode hdecode).1]
  · cases h

/-- The request an entry processes. -/
def entryRequest (c : Config) (s : State) (e : Entry) : Option Request :=
  match polledDatagram c s e with
  | none => none
  | some d => sessionRequest c (beforePoll c s e) d

/-- An entry that processes a request hands it to `process_request`, and frees the slot. -/
theorem entryRequest_worker {c : Config} {s : State} {e : Entry} {request : Request} (h : entryRequest c s e = some request) :
    s.enabled = true ∧ ∃ packet reassembly workspace, ratsrIdleWorker c s e =
      (processRequest .ratsr c { (beforePoll c s e).heard packet with reassembly := reassembly, workspace := workspace }
        request.opcode request.id request.payload).release := by
  unfold entryRequest at h
  cases hd : polledDatagram c s e with
  | none =>
    rw [hd] at h
    cases h
  | some d =>
  rw [hd] at h
  have henabled : s.enabled = true := by
    by_contra hdisabled
    simp [polledDatagram, hdisabled] at hd
  refine ⟨henabled, ?_⟩
  have hworker : ratsrIdleWorker c s e = (processDatagram .ratsr c (beforePoll c s e) d).release := by
    rcases ratsrIdleWorker_cases c s e with ⟨hnone, -⟩ | ⟨hnone, -⟩ | ⟨d', hsome, -, heq⟩
    · rw [hd] at hnone
      cases hnone
    · rw [hd] at hnone
      cases hnone
    · rw [hd] at hsome
      cases hsome
      exact heq
  rw [hworker]
  generalize beforePoll c s e = t at h ⊢
  dsimp only [sessionRequest] at h
  unfold processDatagram
  cases hkey : t.datagramKey c d.payload with
  | none =>
    rw [hkey] at h
    cases h
  | some key =>
  rw [hkey] at h
  dsimp only at h ⊢
  cases hdecode : dmPacketDecode d.payload key with
  | error error =>
    rw [hdecode] at h
    cases h
  | ok packet =>
  rw [hdecode] at h
  dsimp only at h ⊢
  split at h
  swap
  · cases h
  rename_i hsession
  obtain ⟨hkind, hhello, howns, hlast, hrefuses⟩ := hsession
  rw [processPacket_session hkind hhello howns]
  rcases processSessionPacket_cases .ratsr c (t.heard packet) packet with ⟨hl, -⟩ | ⟨hr, -⟩ | ⟨-, ⟨hnone, -⟩ | ⟨payload, hsome, e⟩⟩
  · cases hlast hl
  · cases hrefuses hr
  · rw [heard_completedRequest, h] at hnone
    cases hnone
  · rw [heard_completedRequest, h] at hsome
    cases hsome
    obtain ⟨reassembly, workspace, hstore⟩ := storeFragment_session (t.heard packet) packet
    exact ⟨packet, reassembly, workspace, by rw [e, hstore]⟩

/-- An entry that processes a request runs its operation on the files; any other leaves them
    or, in DOS idle, cleans an abandoned transfer up. -/
theorem ratsrIdleWorker_files (c : Config) (s : State) (e : Entry) :
    match entryRequest c s e with
    | some request => (ratsrIdleWorker c s e).files =
        (match TransferOp.ofOpcode request.opcode with
          | some op => (op.run c (beforePoll c s e).machine s.files request.payload).files
          | none => s.files)
    | none => (ratsrIdleWorker c s e).files = s.files ∨
        (e.dosSafe = true ∧ (ratsrIdleWorker c s e).files = closeTransfer s.files true) := by
  have hbefore : ∀ t : State, t.files = (beforePoll c s e).files →
      t.files = s.files ∨ (e.dosSafe = true ∧ t.files = closeTransfer s.files true) := by
    intro t ht
    rcases beforePoll_files c s e with h | ⟨h, hsafe, -⟩
    · exact Or.inl (ht.trans h)
    · exact Or.inr ⟨hsafe, ht.trans h⟩
  unfold entryRequest
  rcases ratsrIdleWorker_cases c s e with ⟨hpolled, -, h⟩ | ⟨hpolled, t, hquiet, h⟩ | ⟨d, hpolled, -, h⟩
  · simp only [hpolled]
    exact Or.inl (by rw [h])
  · simp only [hpolled]
    refine hbefore _ ?_
    rcases h with h | h <;> rw [h]
    · exact hquiet.files_eq
    · exact hquiet.files_eq
  have hfiles : (ratsrIdleWorker c s e).files = (processDatagram .ratsr c (beforePoll c s e) d).files := by rw [h]; rfl
  rw [processDatagram_files] at hfiles
  simp only [hpolled]
  cases hrequest : sessionRequest c (beforePoll c s e) d with
  | none =>
    simp only [hrequest] at hfiles
    exact hbefore _ hfiles
  | some request =>
    -- the session is active, so nothing was cleaned up
    have hkept : (beforePoll c s e).files = s.files := by
      rcases beforePoll_files c s e with hf | ⟨-, -, hinactive⟩
      · exact hf
      · rw [(sessionRequest_eq_some hrequest).1] at hinactive
        cases hinactive
    simp only [hrequest, operatedFiles, hkept] at hfiles
    exact hfiles

/-! ## Runs -/

/-- What happens to the resident program: a datagram arrives, or it is entered. -/
inductive ResidentEvent where
  | arrive (d : Datagram)
  | enter (e : Entry)

def State.residentStep (c : Config) (s : State) : ResidentEvent → State
  | .arrive d => arrive s d
  | .enter e => ratsrIdleWorker c s e

def State.resident (c : Config) (s : State) (events : List ResidentEvent) : State := events.foldl (State.residentStep c) s

theorem arrive_files (s : State) (d : Datagram) : (arrive s d).files = s.files := by
  unfold arrive
  split <;> rfl

theorem residentStep_inv {c : Config} {s : State} (hi : s.files.Inv fun _ _ _ => True) (event : ResidentEvent) :
    (s.residentStep c event).files.Inv fun _ _ _ => True := by
  cases event with
  | arrive d =>
    simp only [State.residentStep, arrive_files]
    exact hi
  | enter e =>
    simp only [State.residentStep]
    have hfiles := ratsrIdleWorker_files c s e
    split at hfiles
    · rw [hfiles]
      split
      · exact TransferOp.run_inv (fun _ _ _ _ => trivial) hi (fun _ _ _ _ _ => trivial) c _
      · exact hi
    · rcases hfiles with h | ⟨-, h⟩ <;> rw [h]
      · exact hi
      · exact closeTransfer_inv _ _

theorem resident_inv {c : Config} {s : State} (hi : s.files.Inv fun _ _ _ => True) (events : List ResidentEvent) :
    (s.resident c events).files.Inv fun _ _ _ => True := by
  induction events generalizing s with
  | nil => exact hi
  | cons event events ih => exact ih (residentStep_inv hi event)

/-! ## Calls outside DOS idle -/

/-- The entry may not call DOS, and the request it processes is a `GRAPHICS_END` that ends the
    active file read. -/
def endsReadOutsideIdle (c : Config) (s : State) (e : Entry) : Bool :=
  !e.dosSafe && match entryRequest c s e with
    | none => false
    | some request =>
      let t := s.files.transfer
      request.opcode = 17 ∧ t.kind = .read ∧ request.payload.length = 2 ∧ dmGetU16 request.payload 0 = t.id ∧
        t.offset = t.size

/-- No entry of the run ends a file read outside DOS idle. -/
def readsEndInIdle (c : Config) : State → List ResidentEvent → Bool
  | _, [] => true
  | s, .arrive d :: events => readsEndInIdle c (s.residentStep c (.arrive d)) events
  | s, .enter e :: events => !endsReadOutsideIdle c s e && readsEndInIdle c (s.residentStep c (.enter e)) events

/-- The DOS calls that entries of the run make although they may not call DOS. -/
def callsOutsideIdle (c : Config) : State → List ResidentEvent → List FileCall
  | _, [] => []
  | s, .arrive d :: events => callsOutsideIdle c (s.residentStep c (.arrive d)) events
  | s, .enter e :: events =>
    (if e.dosSafe then [] else (ratsrIdleWorker c s e).files.store.log.drop s.files.store.log.length) ++
      callsOutsideIdle c (s.residentStep c (.enter e)) events

/-- Closing a transfer without a file makes no call. -/
theorem closeTransfer_store {f : Files} (b : Bool) (hhandle : f.transfer.handle = none)
    (hkind : f.transfer.kind ≠ .write) : (closeTransfer f b).store = f.store := by
  simp [closeTransfer, hhandle, hkind]

theorem beginGraphics_store (c : Config) (m : Machine) (f : Files) : (beginGraphics c m f).2.store = f.store := by
  unfold beginGraphics
  split
  · rfl
  split <;> rfl

theorem readGraphicsBlock_store (m : Machine) (f : Files) (payload : Bytes) :
    (readGraphicsBlock m f payload).2.1.store = f.store := by
  unfold readGraphicsBlock
  split <;> rfl

/-- The operations that pass the gate make no call, `GRAPHICS_END` on a file read apart. -/
theorem ungated_store {f : Files} (hi : f.Inv fun _ _ _ => True) {op : TransferOp} (c : Config) (m : Machine)
    {payload : Bytes}
    (hop : op = .graphicsBegin ∨ op = .graphicsBlock ∨ op = .graphicsEnd ∨
      (op = .fileAbort ∧ f.transfer.kind = .graphics))
    (hend : op = .graphicsEnd → ¬ (f.transfer.kind = .read ∧ payload.length = 2 ∧
      dmGetU16 payload 0 = f.transfer.id ∧ f.transfer.offset = f.transfer.size)) :
    (op.run c m f payload).files.store = f.store := by
  rcases hop with rfl | rfl | rfl | ⟨rfl, hkind⟩
  · simp only [TransferOp.run]
    split
    · rfl
    · exact beginGraphics_store c m f
  · exact readGraphicsBlock_store m f payload
  · simp only [TransferOp.run, endReadTransfer]
    split
    · rfl
    rename_i hpass
    simp only [not_or, not_and, not_not, ne_eq] at hpass
    obtain ⟨hkind, hlen, hid, hoff⟩ := hpass
    have hgraphics : f.transfer.kind = .graphics :=
      hkind fun hread => hend rfl ⟨hread, hlen, hid, hoff⟩
    exact closeTransfer_store false (hi.idle (Or.inr hgraphics)) (by simp [hgraphics])
  · simp only [TransferOp.run, abortTransfer]
    split
    · rfl
    · exact closeTransfer_store true (hi.idle (Or.inr hkind)) (by simp [hkind])

/-- The opcode gate: what is processed outside DOS idle. -/
theorem ungated_op {s : State} {payload : Bytes} {op : TransferOp} (hlen : 20 ≤ payload.length)
    (hgate : dosOperation s payload = false) (hop : TransferOp.ofOpcode (byteAt payload 4) = some op) :
    op = .graphicsBegin ∨ op = .graphicsBlock ∨ op = .graphicsEnd ∨
      (op = .fileAbort ∧ s.files.transfer.kind = .graphics) := by
  have hfile : ∀ n, (byteAt payload 4).toNat = n → 8 ≤ n → n ≤ 14 → n = 14 ∧ s.files.transfer.kind = .graphics := by
    intro n hn hlow hhigh
    by_contra hno
    have hin : dosOperation s payload = true := by
      simp only [dosOperation, UInt8.le_iff_toNat_le, decide_eq_true_eq]
      refine ⟨hlen, ?_, ?_, fun habort => hno ⟨?_, habort.2⟩⟩
      · rw [hn]
        exact hlow
      · rw [hn]
        exact hhigh
      · rw [← hn, habort.1]
        rfl
    rw [hin] at hgate
    cases hgate
  unfold TransferOp.ofOpcode at hop
  split at hop <;> rename_i hn <;> cases hop
  · exact absurd (hfile _ hn (by decide) (by decide)).1 (by decide)
  · exact absurd (hfile _ hn (by decide) (by decide)).1 (by decide)
  · exact absurd (hfile _ hn (by decide) (by decide)).1 (by decide)
  · exact absurd (hfile _ hn (by decide) (by decide)).1 (by decide)
  · exact absurd (hfile _ hn (by decide) (by decide)).1 (by decide)
  · exact absurd (hfile _ hn (by decide) (by decide)).1 (by decide)
  · exact Or.inr (Or.inr (Or.inr ⟨rfl, (hfile _ hn (by decide) (by decide)).2⟩))
  · exact Or.inl rfl
  · exact Or.inr (Or.inl rfl)
  · exact Or.inr (Or.inr (Or.inl rfl))

theorem polledDatagram_gate {c : Config} {s : State} {e : Entry} {d : Datagram} (h : polledDatagram c s e = some d)
    (hsafe : e.dosSafe = false) : dosOperation (beforePoll c s e) d.payload = false := by
  simp only [polledDatagram] at h
  split at h
  swap
  · cases h
  split at h
  · cases h
  split at h
  · cases h
  · rename_i hgate
    cases h
    by_contra hdos
    exact hgate ⟨by simpa using hdos, by simp [hsafe]⟩

/-- The requests processed outside DOS idle have passed the gate. -/
theorem entryRequest_ungated {c : Config} {s : State} {e : Entry} {request : Request} {op : TransferOp}
    (h : entryRequest c s e = some request) (hsafe : e.dosSafe = false)
    (hop : TransferOp.ofOpcode request.opcode = some op) :
    op = .graphicsBegin ∨ op = .graphicsBlock ∨ op = .graphicsEnd ∨
      (op = .fileAbort ∧ s.files.transfer.kind = .graphics) := by
  unfold entryRequest at h
  split at h
  · cases h
  rename_i d hpolled
  obtain ⟨hactive, hlen, hbyte⟩ := sessionRequest_eq_some h
  have hungated := ungated_op hlen (polledDatagram_gate hpolled hsafe) (hbyte ▸ hop)
  rcases beforePoll_files c s e with hf | ⟨-, -, hinactive⟩
  · rwa [hf] at hungated
  · rw [hactive] at hinactive
    cases hinactive

/-- One entry that may not call DOS does not, if it ends no file read. -/
theorem ratsrIdleWorker_store {c : Config} {s : State} (hi : s.files.Inv fun _ _ _ => True) {e : Entry}
    (hsafe : e.dosSafe = false) (hend : endsReadOutsideIdle c s e = false) :
    (ratsrIdleWorker c s e).files.store = s.files.store := by
  have hfiles := ratsrIdleWorker_files c s e
  cases hrequest : entryRequest c s e with
  | none =>
    simp only [hrequest, hsafe, Bool.false_eq_true, false_and, or_false] at hfiles
    rw [hfiles]
  | some request =>
    simp only [hrequest] at hfiles
    cases hop : TransferOp.ofOpcode request.opcode with
    | none =>
      simp only [hop] at hfiles
      rw [hfiles]
    | some op =>
      simp only [hop] at hfiles
      rw [hfiles]
      refine ungated_store hi c _ (entryRequest_ungated hrequest hsafe hop) fun hgraphics hread => ?_
      have hopcode : request.opcode = 17 := by
        subst hgraphics
        unfold TransferOp.ofOpcode at hop
        split at hop <;> rename_i hn <;> cases hop
        exact UInt8.toNat_inj.mp hn
      simp [endsReadOutsideIdle, hsafe, hrequest, hopcode, hread] at hend

/-- An entry that ends a file read closes the file. -/
theorem endsReadOutsideIdle_log {c : Config} {s : State} (hi : s.files.Inv fun _ _ _ => True) {e : Entry}
    (hend : endsReadOutsideIdle c s e = true) :
    (ratsrIdleWorker c s e).files.store.log = s.files.store.log ++ [.close] := by
  have hfiles := ratsrIdleWorker_files c s e
  cases hrequest : entryRequest c s e with
  | none => simp [endsReadOutsideIdle, hrequest] at hend
  | some request =>
    simp only [endsReadOutsideIdle, hrequest, Bool.and_eq_true, decide_eq_true_eq] at hend
    obtain ⟨-, hopcode, hkind, hlen, hid, hoff⟩ := hend
    have hop : TransferOp.ofOpcode request.opcode = some .graphicsEnd := by rw [hopcode]; rfl
    have hhandle := hi.reading hkind
    simp only [hrequest, hop, TransferOp.run, endReadTransfer] at hfiles
    rw [hfiles, if_neg (by simp [hkind, hlen, hid, hoff])]
    simp [closeTransfer, hhandle]

/-- The DOS calls of a run are all made from DOS idle, outside a critical error, exactly when
    every file read that ends with `GRAPHICS_END` does so there. -/
theorem calls_outside_idle_iff (c : Config) (m : Machine) (store : Store) (events : List ResidentEvent) :
    callsOutsideIdle c (.start m store) events = [] ↔ readsEndInIdle c (.start m store) events = true := by
  have hrun : ∀ (events : List ResidentEvent) (s : State), (s.files.Inv fun _ _ _ => True) →
      (callsOutsideIdle c s events = [] ↔ readsEndInIdle c s events = true) := by
    intro events
    induction events with
    | nil => exact fun _ _ => by simp [callsOutsideIdle, readsEndInIdle]
    | cons event events ih =>
      intro s hi
      have hrest := ih (s.residentStep c event) (residentStep_inv hi event)
      cases event with
      | arrive d => exact hrest
      | enter e =>
        simp only [callsOutsideIdle, readsEndInIdle, List.append_eq_nil_iff, Bool.and_eq_true, Bool.not_eq_true', hrest]
        refine and_congr_left fun _ => ?_
        cases hend : endsReadOutsideIdle c s e with
        | true =>
          have hsafe : e.dosSafe = false := by
            simp only [endsReadOutsideIdle, Bool.and_eq_true, Bool.not_eq_true'] at hend
            exact hend.1
          simp [hsafe, endsReadOutsideIdle_log hi hend]
        | false =>
          cases hsafe : e.dosSafe with
          | true => simp
          | false => simp [ratsrIdleWorker_store hi hsafe hend]
  exact hrun events _ (Files.inv_start store)

/-! ## A read that ends from the timer -/

def readKey : Bytes := dmDeriveSessionKey sampleConfig.baseKey 0 blankMachine.makeNonce

/-- A one-packet request of the client, under the given key. -/
def clientDatagram (key : Bytes) (opcode : UInt8) (sessionId requestId : UInt16) (payload : Bytes) : ResidentEvent :=
  match dmPacketEncode ⟨1, opcode, 0, sessionId, requestId, 0, 1, payload⟩ key 1044 with
  | .ok datagram => .arrive ⟨datagram, ⟨[2, 0, 0, 0, 0, 2], [10, 0, 0, 2], 40000⟩⟩
  | .error _ => .arrive ⟨[], ⟨[], [], 0⟩⟩

def timerEntry : ResidentEvent := .enter ⟨false, false, blankMachine⟩

def idleEntry : ResidentEvent := .enter ⟨true, false, blankMachine⟩

/-- HELLO, `FILE_READ_BEGIN` of the empty file `A` from DOS idle, and `GRAPHICS_END` of its
    transfer, 1, from the timer. -/
def endFromTimer : List ResidentEvent :=
  [clientDatagram sampleConfig.baseKey 1 0 1 [0, 0, 0, 0], timerEntry, timerEntry,
    clientDatagram readKey 8 (helloSessionId 0 blankMachine.makeNonce) 2 [1, 0x41], idleEntry, timerEntry,
    clientDatagram readKey 17 (helloSessionId 0 blankMachine.makeNonce) 3 [1, 0], timerEntry]

/-- The timer entry closes the file. -/
theorem graphics_end_closes_file_from_timer :
    callsOutsideIdle sampleConfig (.start blankMachine (dosStore (fun _ => some []) fun _ => ⟨true, 0⟩))
      endFromTimer = [.close] := by
  decide +kernel

end DosMcp.Dos
