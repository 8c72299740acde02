/-
  DosMcp.System.ErrorReplies — the errors of RA-TSR as the bridge reads them.

  `send_error` queues a reply of kind ERROR; a later worker entry emits it, and takes its
  payload from video memory when the queued opcode is `CAPTURE_TEXT_SCREEN`, whatever the kind.

  - `entryError`: the `send_error` call of a worker entry.
  - `TextCapture.Headed`: the header of the text screen is empty or announces 25 rows, so it is
    never the code of an error.
  - `error_replies_iff`: what the worker emits after `send_error` is read by the bridge as that
    error exactly when the request is not `CAPTURE_TEXT_SCREEN`.
  - `capture_error_misread`: a `CAPTURE_TEXT_SCREEN` request with a payload.
-/

import DosMcp.Protocol.MessageProofs
import DosMcp.System.Response

namespace DosMcp.Dos

open Lib

/-! ## The calls of `send_error` -/

structure ErrorCall where
  opcode : UInt8
  id : UInt16
  code : UInt16
  message : String
  deriving DecidableEq, Repr

/-- The call of `process_request`. -/
def requestError (c : Config) (s : State) (request : Request) : Option ErrorCall :=
  match (operate .ratsr c (s.logRequest request) request.opcode request.payload).1 with
  | .error code message => some ⟨request.opcode, request.id, code, message⟩
  | .screen _ => none
  | .capture _ => none

/-- The call for a packet of the session. -/
def packetError (c : Config) (s : State) (packet : DmPacket) : Option ErrorCall :=
  if s.session.hasLastRequest ∧ packet.requestId = s.session.lastRequestId then none
  else if s.session.hasLastRequest ∧ ¬ requestIsNewer packet.requestId s.session.lastRequestId then
    some ⟨packet.opcode, packet.requestId, 4, "replayed request"⟩
  else match s.completedRequest packet with
    | none => none
    | some request => requestError c (s.storeFragment packet) request

/-- The call of `process_datagram`. -/
def datagramError (c : Config) (s : State) (d : Datagram) : Option ErrorCall :=
  match s.datagramKey c d.payload with
  | none => none
  | some key => match dmPacketDecode d.payload key with
    | .error _ => none
    | .ok packet =>
      if packet.kind = dmKindRequest ∧ ¬ (packet.opcode = dmOpHello ∧ packet.sessionId = 0) ∧ s.session.owns packet d.peer then
        packetError c (s.heard packet) packet
      else none

/-- The call of a worker entry. -/
def entryError (c : Config) (s : State) (e : Entry) : Option ErrorCall :=
  match polledDatagram c s e with
  | none => none
  | some d => datagramError c (beforePoll c s e) d

/-! ## Codes and texts -/

/-- An error code of the protocol, and at most 120 characters of ASCII. -/
def plainError (code : UInt16) (message : String) : Bool :=
  (ErrorCode.ofValue? code.toNat).isSome && message.toList.length ≤ 120 && message.toList.all fun ch => ch.toNat < 0x80

theorem withoutPayload_plain {payload : Bytes} {message : String} {s : State} {run : Reply × State} {code : UInt16} {text : String}
    (hmessage : plainError 6 message = true) (hrun : run.1 ≠ .error code text)
    (h : (withoutPayload payload message s run).1 = .error code text) : plainError code text = true := by
  unfold withoutPayload at h
  split at h
  · cases h
    exact hmessage
  · exact absurd h hrun

theorem failure_plain (op : TransferOp) : plainError op.failure.1 op.failure.2 = true := by
  cases op <;> decide

/-- The errors of `process_request`. -/
theorem operate_plain {c : Config} {s : State} {opcode : UInt8} {payload : Bytes} {code : UInt16} {message : String}
    (h : (operate .ratsr c s opcode payload).1 = .error code message) : plainError code message = true := by
  unfold operate at h
  split at h
  · refine withoutPayload_plain (by decide) ?_ h
    nofun
  · refine withoutPayload_plain (by decide) ?_ h
    nofun
  · refine withoutPayload_plain (by decide) ?_ h
    nofun
  · unfold operateKeys at h
    split at h
    · cases h
    split at h
    · cases h
      decide
    · cases h
  · split at h
    · cases h
      decide
    · cases h
  · refine withoutPayload_plain (by decide) ?_ h
    nofun
  · split at h
    · rename_i op _ _
      unfold operateTransfer at h
      dsimp only at h
      split at h
      · cases h
        exact failure_plain op
      · cases h
    · cases h
      decide

theorem packetError_plain {c : Config} {s : State} {packet : DmPacket} {call : ErrorCall} (h : packetError c s packet = some call) :
    plainError call.code call.message = true := by
  unfold packetError at h
  split at h
  · cases h
  split at h
  · cases h
    show plainError 4 "replayed request" = true
    decide
  split at h
  · cases h
  unfold requestError at h
  split at h
  · rename_i herror
    cases h
    exact operate_plain herror
  · cases h
  · cases h

/-! ## The header of a text screen -/

/-- No header yet, or one of `prepare_text_capture`, which has 25 rows. -/
def TextCapture.Headed (t : TextCapture) : Prop := byteAt t.header 0 = 0 ∨ byteAt t.header 1 = 25

theorem queueWords_textCapture (c : Config) (words : List UInt16) (s : State) :
    (queueWords .ratsr c words s).2.textCapture = s.textCapture := by
  induction words generalizing s with
  | nil => rfl
  | cons word words ih =>
    rw [queueWords]
    split
    · rfl
    · exact ih _

theorem operateKeys_textCapture (c : Config) (s : State) (payload : Bytes) :
    (operateKeys .ratsr c s payload).2.textCapture = s.textCapture := by
  have hinject : (injectKeys .ratsr c s payload).2.textCapture = s.textCapture := by
    unfold injectKeys
    split
    · rfl
    dsimp only
    split
    · rfl
    · exact (queueWords_textCapture c _ _).trans (queueWords_textCapture c _ _)
  unfold operateKeys
  split
  · rfl
  split
  · rename_i heq
    rwa [heq] at hinject
  · rename_i heq
    rwa [heq] at hinject

theorem withoutPayload_headed {payload : Bytes} {message : String} {s : State} {run : Reply × State} (hs : s.textCapture.Headed)
    (hrun : run.2.textCapture.Headed) : (withoutPayload payload message s run).2.textCapture.Headed := by
  unfold withoutPayload
  split
  · exact hs
  · exact hrun

theorem operate_headed {s : State} (h : s.textCapture.Headed) (c : Config) (opcode : UInt8) (payload : Bytes) :
    (operate .ratsr c s opcode payload).2.textCapture.Headed := by
  unfold operate
  split
  · exact withoutPayload_headed h h
  · exact withoutPayload_headed h h
  · exact withoutPayload_headed h (Or.inr rfl)
  · rw [operateKeys_textCapture]
    exact h
  · split <;> exact h
  · exact withoutPayload_headed h h
  · split
    · unfold operateTransfer
      dsimp only
      split <;> exact h
    · exact h

theorem sendResponse_textCapture (s : State) (kind opcode : UInt8) (id : UInt16) (source : Source) :
    (sendResponse .ratsr s kind opcode id source).textCapture = s.textCapture := by
  unfold sendResponse
  dsimp only
  split
  · rfl
  · cases source <;> rfl

theorem storeFragment_headed {s : State} (h : s.textCapture.Headed) (packet : DmPacket) :
    (s.storeFragment packet).textCapture.Headed := by
  obtain ⟨reassembly, workspace, e⟩ := storeFragment_session s packet
  rw [e]
  exact h

theorem processRequest_headed {s : State} (h : s.textCapture.Headed) (c : Config) (opcode : UInt8) (id : UInt16) (payload : Bytes) :
    (processRequest .ratsr c s opcode id payload).textCapture.Headed := by
  have hoperated := operate_headed (s := { s with requests := s.requests ++ [⟨opcode, id, payload⟩] }) h c opcode payload
  unfold processRequest
  split
  · rename_i heq
    rw [heq] at hoperated
    rw [sendError, sendResponse_textCapture]
    exact hoperated
  · rename_i heq
    rw [heq] at hoperated
    rw [sendResponse_textCapture]
    exact hoperated
  · rename_i heq
    rw [heq] at hoperated
    rw [sendResponse_textCapture]
    exact hoperated

theorem processSessionPacket_headed {s : State} (h : s.textCapture.Headed) (c : Config) (packet : DmPacket) :
    (processSessionPacket .ratsr c s packet).textCapture.Headed := by
  rcases processSessionPacket_cases .ratsr c s packet with ⟨-, e⟩ | ⟨-, e⟩ | ⟨-, ⟨-, e⟩ | ⟨payload, -, e⟩⟩ <;> rw [e]
  · exact h
  · rw [sendError, sendResponse_textCapture]
    exact h
  · exact storeFragment_headed h packet
  · exact processRequest_headed (storeFragment_headed h packet) c _ _ _

theorem processDatagram_headed {s : State} (h : s.textCapture.Headed) (c : Config) (d : Datagram) :
    (processDatagram .ratsr c s d).textCapture.Headed := by
  unfold processDatagram
  split
  · exact h
  split
  · exact h
  rename_i packet _
  unfold processPacket
  split
  · exact h
  split
  · unfold processHello
    split
    · exact h
    · dsimp only
      split <;> exact h
  split
  · exact h
  · refine processSessionPacket_headed ?_ c packet
    exact h

theorem ratsrIdleWorker_headed {s : State} (h : s.textCapture.Headed) (c : Config) (e : Entry) :
    (ratsrIdleWorker c s e).textCapture.Headed := by
  have hbefore : (beforePoll c s e).textCapture.Headed := by
    rw [(beforePoll_capture c s e).1]
    exact h
  unfold ratsrIdleWorker
  split
  · exact h
  dsimp only
  split
  · unfold emitFragment
    dsimp only
    split <;> exact hbefore
  split
  · exact hbefore
  rcases pollDatagram_cases c (beforePoll c s e) e with ⟨-, hpoll⟩ | ⟨d, result, -, -, hpoll | hpoll⟩ | ⟨d, -, -, hpoll⟩
  all_goals rw [hpoll]
  · exact hbefore
  · exact hbefore
  · exact hbefore
  · exact processDatagram_headed hbefore c d

theorem residentStep_sized {s : State} (h : s.session.Sized) (c : Config) (event : ResidentEvent) :
    (s.residentStep c event).session.Sized := by
  cases event with
  | arrive d =>
    show (arrive s d).session.Sized
    unfold arrive
    split <;> exact h
  | enter e => exact @sized_runAgent .ratsr s h c e

theorem resident_sized {s : State} (h : s.session.Sized) (c : Config) (events : List ResidentEvent) :
    (s.resident c events).session.Sized := by
  induction events generalizing s with
  | nil => exact h
  | cons event events ih => exact ih (residentStep_sized h c event)

theorem resident_headed {s : State} (h : s.textCapture.Headed) (c : Config) (events : List ResidentEvent) :
    (s.resident c events).textCapture.Headed := by
  induction events generalizing s with
  | nil => exact h
  | cons event events ih =>
    refine ih ?_
    cases event with
    | arrive d =>
      show (arrive s d).textCapture.Headed
      unfold arrive
      split <;> exact h
    | enter e => exact ratsrIdleWorker_headed h c e

/-! ## The state of a call -/

/-- A state in which `send_error` is called: the request has just been heard. -/
structure Answerable (s : State) : Prop where
  enabled_eq : s.enabled = true
  fresh : s.session.lastActivityTick = s.ticks
  sized : s.session.Sized
  headed : s.textCapture.Headed

theorem Answerable.storeFragment {s : State} (h : Answerable s) (packet : DmPacket) : Answerable (s.storeFragment packet) := by
  obtain ⟨reassembly, workspace, e⟩ := storeFragment_session s packet
  rw [e]
  exact ⟨h.enabled_eq, h.fresh, h.sized, h.headed⟩

theorem Answerable.logRequest {s : State} (h : Answerable s) (request : Request) : Answerable (s.logRequest request) :=
  ⟨h.enabled_eq, h.fresh, h.sized, h.headed⟩

theorem Answerable.operate {s : State} (h : Answerable s) (c : Config) (opcode : UInt8) (payload : Bytes) :
    Answerable (operate .ratsr c s opcode payload).2 := by
  have hoperated := operate_operated .ratsr c s opcode payload
  refine ⟨hoperated.enabled_eq.trans h.enabled_eq, ?_, ?_, operate_headed h.headed c opcode payload⟩
  · rw [hoperated.session_eq, hoperated.ticks_eq]
    exact h.fresh
  · rw [hoperated.session_eq]
    exact h.sized

theorem packetError_sendError {c : Config} {s : State} {packet : DmPacket} {call : ErrorCall} (hs : Answerable s)
    (h : packetError c s packet = some call) :
    call.opcode = packet.opcode ∧ ∃ t, Answerable t ∧
      processSessionPacket .ratsr c s packet = sendError .ratsr t call.opcode call.id call.code call.message := by
  unfold packetError at h
  unfold processSessionPacket
  split at h
  · cases h
  rename_i hlast
  rw [if_neg hlast]
  split at h
  · rename_i hreplayed
    cases h
    rw [if_pos hreplayed]
    exact ⟨rfl, s, hs, rfl⟩
  rename_i hnewer
  rw [if_neg hnewer, acceptFragment]
  cases hdone : s.completedRequest packet with
  | none =>
    rw [hdone] at h
    cases h
  | some request =>
    rw [hdone] at h
    obtain ⟨-, hopcode⟩ := completedRequest_eq_some hdone
    dsimp only [requestError] at h ⊢
    split at h
    · rename_i code message herror
      cases h
      refine ⟨hopcode, _, ((hs.storeFragment packet).logRequest request).operate c request.opcode request.payload, ?_⟩
      unfold processRequest
      generalize hoperate : operate .ratsr c ((s.storeFragment packet).logRequest request) request.opcode
        request.payload = r at herror ⊢
      obtain ⟨reply, t⟩ := r
      obtain rfl : reply = .error code message := herror
      rw [State.logRequest] at hoperate
      simp only [hoperate]
    · cases h
    · cases h

/-- A worker entry that calls `send_error` queues the reply and frees the slot. -/
theorem entryError_sendError {c : Config} {s : State} {e : Entry} {call : ErrorCall} (hsized : s.session.Sized)
    (hheaded : s.textCapture.Headed) (h : entryError c s e = some call) :
    (1 ≤ call.opcode ∧ call.opcode ≤ 18) ∧ plainError call.code call.message = true ∧
      ∃ t, Answerable t ∧ ratsrIdleWorker c s e = (sendError .ratsr t call.opcode call.id call.code call.message).release := by
  unfold entryError at h
  split at h
  · cases h
  rename_i d hpolled
  have henabled : s.enabled = true := by
    simp only [polledDatagram] at hpolled
    split at hpolled
    · rename_i hcond
      simp only [Bool.and_eq_true] at hcond
      exact hcond.1.1
    · cases hpolled
  have hworker : ratsrIdleWorker c s e = (processDatagram .ratsr c (beforePoll c s e) d).release := by
    rcases ratsrIdleWorker_cases c s e with ⟨hnone, -⟩ | ⟨hnone, -⟩ | ⟨d', hsome, -, heq⟩
    · rw [hpolled] at hnone
      cases hnone
    · rw [hpolled] at hnone
      cases hnone
    · rw [hpolled] at hsome
      cases hsome
      exact heq
  rw [hworker]
  unfold datagramError at h
  unfold processDatagram
  cases hkey : (beforePoll c s e).datagramKey c d.payload with
  | none =>
    rw [hkey] at h
    cases h
  | some key =>
    rw [hkey] at h
    dsimp only at h ⊢
    cases hdecode : dmPacketDecode d.payload key with
    | error error =>
      rw [hdecode] at h
      cases h
    | ok packet =>
      rw [hdecode] at h
      dsimp only at h ⊢
      split at h
      swap
      · cases h
      rename_i hsession
      have hheard : Answerable ((beforePoll c s e).heard packet) := by
        refine ⟨(beforePoll_sent c s e).2.1.trans henabled, rfl, ?_, ?_⟩
        · exact ⟨(sized_beforePoll hsized c e).key, (sized_beforePoll hsized c e).responses⟩
        · show (beforePoll c s e).textCapture.Headed
          rw [(beforePoll_capture c s e).1]
          exact hheaded
      obtain ⟨hopcode, t, ht, hsend⟩ := packetError_sendError hheard h
      refine ⟨hopcode ▸ (dmPacketDecode_opcode hdecode).2, packetError_plain h, t, ht, ?_⟩
      rw [processPacket_session hsession.1 hsession.2.1 hsession.2.2, hsend]

/-! ## Emission -/

/-- The payload that `send_error` queues. -/
def errorPayload (code : UInt16) (message : String) : Bytes := dmPutU16 code ++ (messageBytes message).take 120

theorem errorPayload_length (code : UInt16) (message : String) :
    2 ≤ (errorPayload code message).length ∧ (errorPayload code message).length ≤ 122 := by
  simp only [errorPayload, List.length_append, dmPutU16_length, List.length_take]
  omega

/-- The payload on the wire: the queued one, or as many bytes of the text screen. -/
def wirePayload (t : TextCapture) (m : Machine) (opcode : UInt8) (payload : Bytes) : Bytes :=
  if opcode = 4 then fillTextCaptureFragment t m 0 payload.length else payload

theorem wirePayload_length (t : TextCapture) (m : Machine) (opcode : UInt8) (payload : Bytes) :
    (wirePayload t m opcode payload).length = payload.length := by
  unfold wirePayload
  split
  · simp [fillTextCaptureFragment]
  · rfl

/-- The session with the reply queued. -/
def AgentSession.queueError (session : AgentSession) (opcode : UInt8) (id : UInt16) (length : Nat) : AgentSession :=
  { session with responseCount := 1, responseKind := dmKindError, responseOpcode := opcode, responseRequestId := id
                 responsePayloadLength := length, lastRequestId := id, hasLastRequest := true, responseNext := 0
                 responsePending := true }

theorem sendError_eq (t : State) (opcode : UInt8) (id code : UInt16) (message : String) :
    sendError .ratsr t opcode id code message =
      { t with workspace := t.workspace.store 0 (errorPayload code message)
               session := t.session.queueError opcode id (errorPayload code message).length } := by
  obtain ⟨hlow, hhigh⟩ := errorPayload_length code message
  have hcount : responseFragmentCount .ratsr (errorPayload code message).length = 1 := by
    apply UInt8.toNat_inj.mp
    rw [responseFragmentCount_toNat .ratsr (hhigh.trans (by decide))]
    show max 1 (((errorPayload code message).length + 256 - 1) / 256) = 1
    omega
  show sendResponse .ratsr t dmKindError opcode id (.array (errorPayload code message)) = _
  unfold sendResponse
  simp only [Source.length, hcount]
  rfl

/-- The fragment that goes out: all of the payload. -/
theorem nextFragment_error {s : State} {session : AgentSession} {opcode : UInt8} {id : UInt16} {payload : Bytes}
    (hsession : s.session = session.queueError opcode id payload.length) (hlength : payload.length ≤ 122)
    (hworkspace : s.workspace.load 0 payload.length = payload) :
    (nextFragment s).1 =
      responsePacket .ratsr session dmKindError opcode id 1 (wirePayload s.textCapture s.machine opcode payload) 0 := by
  have hwire := wirePayload_length s.textCapture s.machine opcode payload
  have hslice : slice (wirePayload s.textCapture s.machine opcode payload) (0 * Build.ratsr.fragmentPayload)
      Build.ratsr.fragmentPayload = wirePayload s.textCapture s.machine opcode payload := by
    rw [Nat.zero_mul, slice_zero_eq_take]
    exact List.take_of_length_le (by rw [hwire]; exact hlength.trans (by decide))
  have hmin : min payload.length Build.ratsr.fragmentPayload = payload.length :=
    Nat.min_eq_left (hlength.trans (by decide))
  rw [responsePacket, hslice]
  unfold nextFragment
  simp only [hsession, AgentSession.queueError, UInt8.toNat_zero, Nat.zero_mul, Nat.sub_zero, hmin]
  by_cases hcapture : opcode = 4
  · have hfill : (fillTextCaptureFragment s.textCapture s.machine 0 payload.length).length = payload.length := by
      simp [fillTextCaptureFragment]
    have hload := Memory.load_store_same s.workspace 0 (fillTextCaptureFragment s.textCapture s.machine 0 payload.length)
    rw [hfill] at hload
    simp only [wirePayload, hcapture, if_true, Build.screenBase, Nat.add_zero, hload]
    rfl
  · simp only [wirePayload, hcapture, if_false, Build.screenBase, Nat.add_zero, hworkspace]
    rfl

theorem entries_one {events : List ResidentEvent} (h : entries events = 1) :
    ∃ before e after, events = before ++ .enter e :: after ∧ entries before = 0 ∧ entries after = 0 := by
  induction events with
  | nil => cases h
  | cons event events ih =>
    cases event with
    | arrive d =>
      obtain ⟨before, e, after, rfl, hbefore, hafter⟩ := ih h
      exact ⟨.arrive d :: before, e, after, rfl, hbefore, hafter⟩
    | enter e =>
      have hcons : entries (.enter e :: events) = entries events + 1 := List.countP_cons_of_pos rfl
      rw [hcons] at h
      exact ⟨[], e, events, rfl, rfl, by omega⟩

/-- Arrivals fill the slot at most. -/
theorem resident_arrivals (c : Config) (s : State) {events : List ResidentEvent} (h : entries events = 0) :
    ∃ slot, s.resident c events = { s with slot := slot } := by
  induction events generalizing s with
  | nil => exact ⟨s.slot, rfl⟩
  | cons event events ih =>
    cases event with
    | arrive d =>
      obtain ⟨slot, hslot⟩ := ih (arrive s d) h
      refine ⟨slot, hslot.trans ?_⟩
      unfold arrive
      split <;> rfl
    | enter e =>
      have hcons : entries (.enter e :: events) = entries events + 1 := List.countP_cons_of_pos rfl
      rw [hcons] at h
      omega

/-- The session does not expire right after a request. -/
theorem beforePoll_fresh {s : State} (h : s.session.lastActivityTick = s.ticks) (c : Config) (e : Entry) :
    (beforePoll c s e).session = s.session := by
  rw [(beforePoll_session c s e).1, expireSession, if_neg]
  · rfl
  rintro ⟨-, hexpired⟩
  have hlast : (enterWorker s e).session.lastActivityTick = s.ticks := h
  rw [hlast] at hexpired
  unfold enterWorker at hexpired
  by_cases hidle : e.dosIdle = true
  · rw [if_pos hidle, UInt16.sub_self] at hexpired
    exact absurd hexpired (by decide)
  · have hone : s.ticks + 1 - s.ticks = 1 := by grind
    rw [if_neg hidle, hone] at hexpired
    exact absurd hexpired (by decide)

/-- The worker entry after `send_error` sends the reply, in one datagram. -/
theorem sendError_emits {t : State} (ht : Answerable t) {opcode : UInt8} (hopcode : 1 ≤ opcode ∧ opcode ≤ 18) (id code : UInt16)
    (message : String) (c : Config) {later : List ResidentEvent} (hlater : entries later = 1) :
    ∃ (m : Machine) (d : Bytes),
      Intact ht.sized.sessionKey dmKindError opcode t.session.id id
        (wirePayload t.textCapture m opcode (errorPayload code message)) [d] ∧
      ((sendError .ratsr t opcode id code message).release.resident c later).sent = t.sent ++ [(t.session.peer, d)] := by
  obtain ⟨before, e, after, rfl, hbefore, hafter⟩ := entries_one hlater
  obtain ⟨-, hlength⟩ := errorPayload_length code message
  generalize hpayload : errorPayload code message = payload at hlength ⊢
  -- what the entry finds
  obtain ⟨slot, hslot⟩ := resident_arrivals c (sendError .ratsr t opcode id code message).release hbefore
  obtain ⟨s, hs⟩ : ∃ s, (sendError .ratsr t opcode id code message).release.resident c before = s := ⟨_, rfl⟩
  rw [hs, sendError_eq, hpayload] at hslot
  have hsession : s.session = t.session.queueError opcode id payload.length := by rw [hslot]; rfl
  have hfresh : s.session.lastActivityTick = s.ticks := by
    rw [hslot]
    exact ht.fresh
  have hpoll := beforePoll_fresh hfresh c e
  obtain ⟨hsent, henabled, -⟩ := beforePoll_sent c s e
  obtain ⟨hcapture, hmachine⟩ := beforePoll_capture c s e
  have hworkspace : (beforePoll c s e).workspace = t.workspace.store 0 payload := by
    rw [(beforePoll_session c s e).2.2.2.2, hslot]
    rfl
  have hpacket := @nextFragment_error (beforePoll c s e) t.session opcode id payload (hpoll.trans hsession) hlength (by
    rw [hworkspace]
    exact Memory.load_store_same _ _ _)
  have htext : s.textCapture = t.textCapture := by rw [hslot]; rfl
  rw [hcapture, htext] at hpacket
  -- its encoding
  have hcount : responseFragmentCount .ratsr payload.length = 1 := by
    apply UInt8.toNat_inj.mp
    rw [responseFragmentCount_toNat .ratsr (hlength.trans (by decide))]
    show max 1 ((payload.length + 256 - 1) / 256) = 1
    omega
  obtain ⟨datagrams, hintact, hencoded⟩ := exists_intact .ratsr ht.sized id (hlength.trans (by decide))
    (wirePayload_length t.textCapture (beforePoll c s e).machine opcode payload) (Or.inr rfl : dmKindError = _ ∨ _) hopcode
  rw [hcount] at hencoded
  have hone : responsePackets .ratsr t.session dmKindError opcode id 1
      (wirePayload t.textCapture (beforePoll c s e).machine opcode payload) = [(nextFragment (beforePoll c s e)).1] := by
    rw [hpacket]
    rfl
  rw [hone] at hencoded
  obtain ⟨d, hdatagrams, hencode⟩ : ∃ d, datagrams = [d] ∧
      dmPacketEncode (nextFragment (beforePoll c s e)).1 t.session.key responseDatagramSize = .ok d := by
    cases hencoded with
    | cons hd hnil =>
      cases hnil
      exact ⟨_, rfl, hd⟩
  subst hdatagrams
  refine ⟨(beforePoll c s e).machine, d, hintact, ?_⟩
  have hemit : (ratsrIdleWorker c s e).sent = t.sent ++ [(t.session.peer, d)] := by
    have hkept : s.enabled = true ∧ s.sent = t.sent := by
      rw [hslot]
      exact ⟨ht.enabled_eq, rfl⟩
    have hpending : (beforePoll c s e).session.responsePending = true := by
      rw [hpoll, hsession]
      rfl
    have hkey : (beforePoll c s e).session.key = t.session.key ∧ (beforePoll c s e).session.peer = t.session.peer := by
      rw [hpoll, hsession]
      exact ⟨rfl, rfl⟩
    rw [ratsrIdleWorker, if_neg (by simp [hkept.1])]
    dsimp only
    rw [if_pos hpending]
    rw [← hkey.1] at hencode
    rw [emitFragment_encoded hencode]
    simp only [State.emits, State.transmit, hsent, hkept.2, hkey.2]
  obtain ⟨slot', hslot'⟩ := resident_arrivals c (ratsrIdleWorker c s e) hafter
  have hrun : (sendError .ratsr t opcode id code message).release.resident c (before ++ .enter e :: after) =
      (ratsrIdleWorker c s e).resident c after := by
    rw [← hs]
    exact List.foldl_append
  rw [hrun, hslot']
  exact hemit

/-! ## What the bridge reads -/

/-- `reassemble_packets` and `decode_error` on the datagrams: whether they are an ERROR message
    with the code and the text. -/
def readsError (key : Key) (datagrams : List Bytes) (code : UInt16) (message : String) : Bool :=
  let read : Except Exc Bool := do
    let packets ← datagrams.mapM (Packet.decode · key)
    let payload ← reassemblePackets (byIndex packets).values
    let (error, text) ← decodeError payload
    return packets.all (fun p => decide (p.kind = .error)) && decide (error.value = code.toNat ∧ text = message)
  match read with
  | .ok matched => matched
  | .error _ => false

theorem readsError_intact {key : Key} {opcode : UInt8} {sessionId requestId : UInt16} {payload d : Bytes}
    (h : Intact key dmKindError opcode sessionId requestId payload [d]) (code : UInt16) (message : String) :
    readsError key [d] code message = true ↔
      ∃ error, decodeError payload = .ok (error, message) ∧ error.value = code.toNat := by
  obtain ⟨p, hdecode, hbears⟩ := h.decodes d (List.mem_singleton_self d)
  have hpackets : [d].mapM (Packet.decode · key) = .ok [p] := by
    simp only [List.mapM_cons, List.mapM_nil, hdecode]
    rfl
  have hkind : p.kind = .error := MessageKind.value_inj hbears.kind_eq
  have hwhole := h.reassembles [d] [p] (fun _ => Iff.rfl) hpackets
  unfold readsError
  simp only [hpackets, ok_bind, hwhole]
  cases hread : decodeError payload with
  | error e =>
    refine iff_of_false (fun h => by cases h) ?_
    rintro ⟨error, heq, -⟩
    cases heq
  | ok value =>
    obtain ⟨error, text⟩ := value
    simp only [ok_bind, List.all_cons, List.all_nil, hkind, decide_true, Bool.true_and, Bool.and_true]
    constructor
    · intro hmatch
      obtain ⟨hvalue, rfl⟩ := of_decide_eq_true hmatch
      exact ⟨error, rfl, hvalue⟩
    · rintro ⟨error', heq, hvalue⟩
      cases heq
      exact decide_eq_true ⟨hvalue, rfl⟩

theorem ErrorCode.value_of_ofValue? {n : Nat} {code : ErrorCode} (h : ErrorCode.ofValue? n = some code) : code.value = n := by
  unfold ErrorCode.ofValue? at h
  split at h <;> cases h <;> rfl

/-- The queued payload of an error in ASCII is read as that error. -/
theorem decodeError_errorPayload {code : UInt16} {message : String} (h : plainError code message = true) :
    ∃ error, decodeError (errorPayload code message) = .ok (error, message) ∧ error.value = code.toNat := by
  simp only [plainError, Bool.and_eq_true, decide_eq_true_eq, List.all_eq_true] at h
  obtain ⟨⟨hcode, hlength⟩, hascii⟩ := h
  obtain ⟨error, herror⟩ := Option.isSome_iff_exists.mp hcode
  have hslice : slice (errorPayload code message) 0 2 = leBytes 2 code.toNat := by
    rw [errorPayload, dmPutU16_eq]
    exact slice_leBytes_append 2 code.toNat _
  have hdrop : (errorPayload code message).drop 2 = messageBytes message := by
    have htake : (messageBytes message).take 120 = messageBytes message :=
      List.take_of_length_le (by simpa [messageBytes] using hlength)
    rw [errorPayload, htake]
    exact List.drop_left' (dmPutU16_length code)
  have htext : (messageBytes message).map (fun b => if b.toNat < 0x80 then Char.ofNat b.toNat else Char.ofNat 0xFFFD) =
      message.toList := by
    rw [messageBytes, List.map_map]
    refine (List.map_congr_left fun ch hch => ?_).trans (List.map_id _)
    have hsmall : ch.toNat < 0x80 := hascii ch hch
    have hbyte : (UInt8.ofNat ch.toNat).toNat = ch.toNat := by
      rw [UInt8.toNat_ofNat']
      omega
    simp only [Function.comp_apply, hbyte, hsmall, if_true, id_eq, Char.ofNat_toNat]
  refine ⟨error, ?_, ErrorCode.value_of_ofValue? herror⟩
  have hlow := (errorPayload_length code message).1
  have hread : enumOf ErrorCode.ofValue? "ErrorCode" code.toNat = .ok error := enumOf_eq_ok.mpr herror
  rw [decodeError, raiseIf_false (by omega), ok_bind, hslice, leNat_leBytes code.toNat_lt, hread, ok_bind]
  dsimp only
  rw [hdrop, htext, String.ofList_toList]
  rfl

/-- The first bytes of a text screen are no error code. -/
theorem decodeError_capture {t : TextCapture} (ht : t.Headed) (m : Machine) {n : Nat} (hn : 2 ≤ n) {error : ErrorCode}
    {text : String} : decodeError (fillTextCaptureFragment t m 0 n) ≠ .ok (error, text) := by
  intro h
  have hfront : slice (fillTextCaptureFragment t m 0 n) 0 2 = [byteAt t.header 0, byteAt t.header 1] := by
    rw [slice_zero_eq_take, fillTextCaptureFragment, ← List.map_take, List.take_range, Nat.min_eq_left hn]
    rfl
  have hlength : (fillTextCaptureFragment t m 0 n).length = n := by simp [fillTextCaptureFragment]
  rw [decodeError, raiseIf_false (by omega), ok_bind, hfront] at h
  obtain ⟨code, hcode, hrest⟩ := bind_eq_ok.mp h
  cases hrest
  have hvalue := ErrorCode.value_of_ofValue? (enumOf_eq_ok.mp hcode)
  have hrange : 1 ≤ error.value ∧ error.value ≤ 12 := by cases error <;> decide
  simp only [leNat] at hvalue
  rcases ht with hzero | hrows
  · rw [hzero, UInt8.toNat_zero] at hvalue
    omega
  · rw [hrows] at hvalue
    have hrows' : (25 : UInt8).toNat = 25 := rfl
    omega

/-! ## The replies of a run -/

theorem headed_start (m : Machine) (store : Store) : (State.start m store).textCapture.Headed := Or.inl rfl

/-- The key of the session after a run. -/
def residentKey (c : Config) (m : Machine) (store : Store) (events : List ResidentEvent) : Key :=
  (resident_sized (sized_start m store) c events).sessionKey

/-- The datagrams sent in the second part of a run. -/
def emitted (c : Config) (s : State) (events : List ResidentEvent) : List Bytes :=
  ((s.resident c events).sent.drop s.sent.length).map Prod.snd

/-- In every run: the reply that a worker entry queues with `send_error` goes out in the next
    entry, whatever arrives meanwhile and whatever is on the screen, and the bridge reads the
    code and the message from it exactly when the request is not `CAPTURE_TEXT_SCREEN`. -/
theorem error_replies_iff (c : Config) (m : Machine) (store : Store) (events : List ResidentEvent) (e : Entry) (call : ErrorCall)
    (hcall : entryError c ((State.start m store).resident c events) e = some call) (later : List ResidentEvent)
    (hlater : entries later = ((State.start m store).resident c (events ++ [.enter e])).session.responseCount.toNat) :
    readsError (residentKey c m store (events ++ [.enter e]))
      (emitted c ((State.start m store).resident c (events ++ [.enter e])) later) call.code call.message = true ↔
        call.opcode ≠ 4 := by
  have hsized := resident_sized (sized_start m store) c events
  have hheaded := resident_headed (headed_start m store) c events
  obtain ⟨hopcode, hplain, t, ht, hworker⟩ := entryError_sendError hsized hheaded hcall
  have hstep : (State.start m store).resident c (events ++ [.enter e]) =
      (sendError .ratsr t call.opcode call.id call.code call.message).release := by
    rw [← hworker]
    exact List.foldl_append
  have hqueued := sendError_eq t call.opcode call.id call.code call.message
  have hone : entries later = 1 := by
    rw [hlater, hstep, hqueued]
    rfl
  obtain ⟨machine, d, hintact, hsent⟩ := sendError_emits ht hopcode call.id call.code call.message c hone
  have hemitted : emitted c ((State.start m store).resident c (events ++ [.enter e])) later = [d] := by
    have hbefore : (sendError .ratsr t call.opcode call.id call.code call.message).release.sent = t.sent := by
      rw [hqueued]
      rfl
    rw [emitted, hstep, hsent, hbefore, List.drop_left]
    rfl
  have hkey : residentKey c m store (events ++ [.enter e]) = ht.sized.sessionKey := by
    have hbytes : ((State.start m store).resident c (events ++ [.enter e])).session.key = t.session.key := by
      rw [hstep, hqueued]
      rfl
    unfold residentKey AgentSession.Sized.sessionKey
    simp only [hbytes]
  rw [hemitted, hkey, readsError_intact hintact]
  unfold wirePayload
  split
  · rename_i hcapture
    refine iff_of_false ?_ (not_not.mpr hcapture)
    rintro ⟨error, hread, -⟩
    exact decodeError_capture ht.headed machine (errorPayload_length call.code call.message).1 hread
  · rename_i hother
    exact iff_of_true (decodeError_errorPayload hplain) hother

/-- A session in which a request with one byte of payload arrives. -/
def byteRequest (opcode : UInt8) : List ResidentEvent :=
  [clientDatagram sampleConfig.baseKey 1 0 1 [0, 0, 0, 0], timerEntry, timerEntry,
    clientDatagram readKey opcode (helloSessionId 0 blankMachine.makeNonce) 2 [0]]

def emptyStore : Store := dosStore (fun _ => none) fun _ => ⟨true, 0⟩

/-- GET_STATUS with a payload. -/
theorem error_replies_iff_status :
    readsError (residentKey sampleConfig blankMachine emptyStore (byteRequest 2 ++ [timerEntry]))
      (emitted sampleConfig ((State.start blankMachine emptyStore).resident sampleConfig (byteRequest 2 ++ [timerEntry]))
        [timerEntry]) 6 "status payload must be empty" = true :=
  (error_replies_iff sampleConfig blankMachine emptyStore (byteRequest 2) ⟨false, false, blankMachine⟩
    ⟨2, 2, 6, "status payload must be empty"⟩ (by decide +kernel) [timerEntry] (by decide +kernel)).mpr (by decide)

/-- CAPTURE_TEXT_SCREEN with a payload: the reply of kind ERROR carries the empty header of
    the text screen, and no error code. -/
theorem capture_error_misread :
    entryError sampleConfig ((State.start blankMachine emptyStore).resident sampleConfig (byteRequest 4))
        ⟨false, false, blankMachine⟩ = some ⟨4, 2, 6, "screen payload must be empty"⟩ ∧
      entries [timerEntry] = ((State.start blankMachine emptyStore).resident sampleConfig
        (byteRequest 4 ++ [timerEntry])).session.responseCount.toNat ∧
      readsError (residentKey sampleConfig blankMachine emptyStore (byteRequest 4 ++ [timerEntry]))
        (emitted sampleConfig ((State.start blankMachine emptyStore).resident sampleConfig (byteRequest 4 ++ [timerEntry]))
          [timerEntry]) 6 "screen payload must be empty" = false := by
  refine ⟨?_, ?_, ?_⟩ <;> decide +kernel

end DosMcp.Dos
