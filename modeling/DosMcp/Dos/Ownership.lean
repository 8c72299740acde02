/-
  DosMcp.Dos.Ownership — whose transfer RA-TSR serves.

  The transfer statics are not part of the session. `process_hello` leaves them alone; an
  abandoned transfer goes away in DOS idle, once its session has expired.

  - `transfers_stay_in_session`: in every run whose HELLOs are accepted only by entries that
    find no transfer, or clean up after an expired session, a transfer is used only by the
    session that began it.
  - `old_transfer_serves_new_session`: a HELLO during a file read hands the read to the new
    session.
-/

import DosMcp.Dos.WorkerProofs

namespace DosMcp.Dos

open Lib

/-! ## Operations without a transfer -/

/-- The operations that start a transfer. -/
def TransferOp.begins : TransferOp → Bool
  | .fileReadBegin | .fileWriteBegin | .graphicsBegin => true
  | _ => false

section

variable {f : Files}

/-- Without a transfer, only a begin is answered. -/
theorem TransferOp.run_idle (hidle : f.transfer.kind = .none) {op : TransferOp} (hop : op.begins = false) (c : Config)
    (m : Machine) (payload : Bytes) : op.run c m f payload = ⟨none, f, m⟩ := by
  cases op with
  | fileReadBegin => cases hop
  | fileWriteBegin => cases hop
  | graphicsBegin => cases hop
  | fileReadBlock => simp [TransferOp.run, readTransferBlock, blockRequest, hidle]
  | fileReadEnd => simp [TransferOp.run, endReadTransfer, hidle]
  | fileWriteBlock => simp [TransferOp.run, writeTransferBlock, hidle]
  | fileWriteCommit => simp [TransferOp.run, commitFileWrite, hidle]
  | fileAbort => simp [TransferOp.run, abortTransfer, hidle]
  | graphicsBlock => simp [TransferOp.run, readGraphicsBlock, blockRequest, hidle]
  | graphicsEnd => simp [TransferOp.run, endReadTransfer, hidle]

theorem beginFileRead_refused (hidle : f.transfer.kind = .none) {c : Config} {m : Machine} {payload : Bytes}
    (h : (beginFileRead c m f payload).1 = none) : (beginFileRead c m f payload).2.transfer.kind = .none := by
  unfold beginFileRead at h ⊢
  split
  · exact hidle
  split
  · exact hidle
  dsimp only
  split
  · exact hidle
  split
  · rfl
  split
  · rfl
  split
  · rfl
  · rename_i hguard _ _ hpath _ _ _ hopen _ _ _ hseek hsize _ _ hstart
    simp only [if_neg hguard, hpath, hopen, hseek, if_neg hsize, hstart] at h
    cases h

theorem startFileWrite_refused (hidle : f.transfer.kind = .none) {c : Config} {m : Machine} {payload : Bytes}
    (h : (startFileWrite c m f payload).1 = none) : (startFileWrite c m f payload).2.transfer.kind = .none := by
  unfold startFileWrite at h ⊢
  dsimp only at h ⊢
  split
  · rename_i g hcreate
    obtain ⟨temp, htemp⟩ := createTransferTemp_false hcreate
    simp [htemp, hidle]
  · rename_i g hcreate
    simp [hcreate] at h

theorem beginFileWrite_refused (hidle : f.transfer.kind = .none) {c : Config} {m : Machine} {payload : Bytes}
    (h : (beginFileWrite c m f payload).1 = none) : (beginFileWrite c m f payload).2.transfer.kind = .none := by
  unfold beginFileWrite at h ⊢
  split at h
  · rename_i hguard
    rw [if_pos hguard]
    exact hidle
  rename_i hguard
  rw [if_neg hguard]
  split at h
  · rename_i hfields
    rw [if_pos hfields]
    exact hidle
  rename_i hfields
  rw [if_neg hfields]
  cases hpath : buildSandboxPath c (payload.drop 10) with
  | none => exact hidle
  | some path =>
    simp only [hpath] at h ⊢
    split at h
    · rename_i hover
      rw [if_pos hover]
      exact startFileWrite_refused (by exact hidle) h
    · rename_i hover
      rw [if_neg hover]
      split at h
      · exact hidle
      · exact startFileWrite_refused (by exact hidle) h

theorem beginGraphics_refused (hidle : f.transfer.kind = .none) {c : Config} {m : Machine}
    (h : (beginGraphics c m f).1 = none) : (beginGraphics c m f).2.transfer.kind = .none := by
  unfold beginGraphics at h ⊢
  simp only [hidle, ne_eq, not_true, if_false] at h ⊢
  cases hinfo : graphicsInfo m f.transfer.graphics with
  | mk found g =>
    cases found with
    | false => rfl
    | true => simp [hinfo] at h

/-- An operation without a reply starts no transfer. -/
theorem TransferOp.run_refused (hidle : f.transfer.kind = .none) {op : TransferOp} {c : Config} {m : Machine}
    {payload : Bytes} (h : (op.run c m f payload).reply = none) : (op.run c m f payload).files.transfer.kind = .none := by
  cases hop : op.begins with
  | false =>
    rw [TransferOp.run_idle hidle hop]
    exact hidle
  | true =>
    cases op with
    | fileReadBegin => exact beginFileRead_refused hidle h
    | fileWriteBegin => exact beginFileWrite_refused hidle h
    | graphicsBegin =>
      simp only [TransferOp.run] at h ⊢
      split at h
      · rename_i hlength
        rw [if_pos hlength]
        exact hidle
      · rename_i hlength
        rw [if_neg hlength]
        exact beginGraphics_refused hidle h
    | fileReadBlock | fileReadEnd | fileWriteBlock | fileWriteCommit | fileAbort | graphicsBlock | graphicsEnd => cases hop

end

/-! ## Sessions -/

/-- The entry opens a session. -/
def opensSession (c : Config) (s : State) (e : Entry) : Bool :=
  match polledDatagram c s e with
  | none => false
  | some d => (helloPacket c (beforePoll c s e) d).isSome

/-- The transfer operation the entry answers with success. -/
def entryOperation (c : Config) (s : State) (e : Entry) : Option TransferOp :=
  match entryRequest c s e with
  | none => none
  | some request => (TransferOp.ofOpcode request.opcode).filter fun op =>
      (op.run c (beforePoll c s e).machine s.files request.payload).reply.isSome

/-- The sessions opened so far, and the one that began the last transfer. -/
structure Ownership where
  session : Nat
  owner : Nat
  deriving DecidableEq, Repr

def Ownership.step (c : Config) (s : State) (o : Ownership) : ResidentEvent → Ownership
  | .arrive _ => o
  | .enter e =>
    if opensSession c s e then { o with session := o.session + 1 }
    else if (entryOperation c s e).any TransferOp.begins then { o with owner := o.session }
    else o

/-- The session is over when the entry looks at it. -/
def sessionOver (s : State) (e : Entry) : Bool :=
  let t := enterWorker s e
  !t.session.active || t.ticks - t.session.lastActivityTick ≥ sessionIdleTicks

/-- No transfer is active, or the entry may call DOS and finds its session over. -/
def releases (s : State) (e : Entry) : Bool := s.files.transfer.kind = .none || (e.dosSafe && sessionOver s e)

/-- Every entry of the run that opens a session releases the transfer before. -/
def releasesBeforeHello (c : Config) : State → List ResidentEvent → Bool
  | _, [] => true
  | s, .arrive d :: events => releasesBeforeHello c (s.residentStep c (.arrive d)) events
  | s, .enter e :: events =>
    (!opensSession c s e || releases s e) && releasesBeforeHello c (s.residentStep c (.enter e)) events

/-- The ownership after a run from `s`. -/
def Ownership.run (c : Config) : State → Ownership → List ResidentEvent → Ownership
  | _, o, [] => o
  | s, o, event :: events => Ownership.run c (s.residentStep c event) (o.step c s event) events

/-- An active transfer belongs to the session. -/
def Owned (s : State) (o : Ownership) : Prop := s.files.transfer.kind ≠ .none → o.owner = o.session

/-! ## One entry -/

theorem releases_beforePoll {c : Config} {s : State} {e : Entry} (h : releases s e = true) :
    (beforePoll c s e).files.transfer.kind = .none := by
  have hadvertise : ∀ t : State, (advertise c t).files = t.files := by
    intro t
    unfold advertise
    split <;> rfl
  have hexpire : (expireSession (enterWorker s e)).files = s.files := by
    unfold expireSession
    split <;> rfl
  rw [beforePoll, hadvertise, cleanTransfer]
  split
  · rfl
  rename_i hkept
  rw [hexpire] at hkept ⊢
  by_contra hkind
  simp only [releases, hkind, decide_false, Bool.false_or, Bool.and_eq_true] at h
  have hover : (expireSession (enterWorker s e)).session.active = false := by
    unfold expireSession
    split
    · rfl
    · rename_i hfresh
      have hover := h.2
      simp only [sessionOver, Bool.or_eq_true, Bool.not_eq_true', decide_eq_true_eq] at hover
      by_contra hactive
      exact hfresh ⟨by simpa using hactive, hover.resolve_left hactive⟩
  exact hkept ⟨by simp [hover], hkind, h.1⟩

/-- A HELLO is no request of a session. -/
theorem helloPacket_sessionRequest {c : Config} {s : State} {d : Datagram} (h : (helloPacket c s d).isSome) :
    sessionRequest c s d = none := by
  unfold helloPacket at h
  unfold sessionRequest
  cases hkey : s.datagramKey c d.payload with
  | none => rfl
  | some key =>
    simp only [hkey] at h ⊢
    cases hdecode : dmPacketDecode d.payload key with
    | error e => rfl
    | ok packet =>
      simp only [hdecode] at h ⊢
      split at h
      · rename_i hhello
        rw [if_neg fun hc => hc.2.1 hhello.2.1]
      · cases h

theorem opensSession_files {c : Config} {s : State} {e : Entry} (h : opensSession c s e = true) :
    (ratsrIdleWorker c s e).files = (beforePoll c s e).files := by
  unfold opensSession at h
  rcases ratsrIdleWorker_cases c s e with ⟨hpolled, -, -⟩ | ⟨hpolled, -, -⟩ | ⟨d, hpolled, -, hrun⟩
  · simp [hpolled] at h
  · simp [hpolled] at h
  simp only [hpolled] at h
  have hfiles : (ratsrIdleWorker c s e).files = (processDatagram .ratsr c (beforePoll c s e) d).files := by rw [hrun]; rfl
  rw [hfiles, processDatagram_files, helloPacket_sessionRequest h]

/-- A session that is opened finds no transfer. -/
theorem opensSession_idle {c : Config} {s : State} {e : Entry} (h : opensSession c s e = true)
    (hrelease : releases s e = true) : (ratsrIdleWorker c s e).files.transfer.kind = .none := by
  rw [opensSession_files h]
  exact releases_beforePoll hrelease

/-- An operation that succeeds, other than a begin, has a transfer. -/
theorem entryOperation_active {c : Config} {s : State} {e : Entry} {op : TransferOp}
    (h : entryOperation c s e = some op) (hop : op.begins = false) : s.files.transfer.kind ≠ .none := by
  intro hidle
  unfold entryOperation at h
  cases hrequest : entryRequest c s e with
  | none => simp [hrequest] at h
  | some request =>
    simp only [hrequest, Option.filter_eq_some_iff] at h
    rw [TransferOp.run_idle hidle hop] at h
    cases h.2

theorem Owned.enter {c : Config} {s : State} {o : Ownership} (h : Owned s o) {e : Entry}
    (hrelease : opensSession c s e = true → releases s e = true) :
    Owned (ratsrIdleWorker c s e) (o.step c s (.enter e)) := by
  intro hkind
  simp only [Ownership.step]
  split
  · rename_i hopen
    exact absurd (opensSession_idle hopen (hrelease hopen)) hkind
  rename_i hopen
  split
  · rfl
  rename_i hbegin
  refine h fun hidle => hkind ?_
  -- without a transfer before, and without a begin that succeeds, there is none after
  have hfiles := ratsrIdleWorker_files c s e
  cases hrequest : entryRequest c s e with
  | none =>
    simp only [hrequest] at hfiles
    rcases hfiles with hf | ⟨-, hf⟩ <;> rw [hf]
    · exact hidle
    · rfl
  | some request =>
    simp only [hrequest] at hfiles
    rw [hfiles]
    cases hop : TransferOp.ofOpcode request.opcode with
    | none => exact hidle
    | some op =>
      cases hreply : (op.run c (beforePoll c s e).machine s.files request.payload).reply with
      | none => exact TransferOp.run_refused hidle hreply
      | some bytes =>
        have hentry : entryOperation c s e = some op := by
          simp [entryOperation, hrequest, hop, Option.filter, hreply]
        have hno : op.begins = false := by simpa [hentry] using hbegin
        exact absurd hidle (entryOperation_active hentry hno)

/-! ## Runs -/

theorem Owned.step {c : Config} {s : State} {o : Ownership} (h : Owned s o) {event : ResidentEvent}
    {events : List ResidentEvent} (hrelease : releasesBeforeHello c s (event :: events) = true) :
    Owned (s.residentStep c event) (o.step c s event) ∧
      releasesBeforeHello c (s.residentStep c event) events = true := by
  cases event with
  | arrive d =>
    refine ⟨fun hkind => h ?_, hrelease⟩
    rwa [State.residentStep, arrive_files] at hkind
  | enter e =>
    simp only [releasesBeforeHello, Bool.and_eq_true, Bool.or_eq_true, Bool.not_eq_true'] at hrelease
    exact ⟨h.enter fun hopen => hrelease.1.resolve_left (by simp [hopen]), hrelease.2⟩

theorem Owned.run {c : Config} {s : State} {o : Ownership} (h : Owned s o) {before after : List ResidentEvent}
    (hrelease : releasesBeforeHello c s (before ++ after) = true) :
    Owned (s.resident c before) (Ownership.run c s o before) ∧ releasesBeforeHello c (s.resident c before) after = true := by
  induction before generalizing s o with
  | nil => exact ⟨h, hrelease⟩
  | cons event before ih =>
    obtain ⟨howned, hrest⟩ := h.step hrelease
    exact ih howned hrest

/-- In every run whose HELLOs come after the release of the last transfer: a transfer
    operation other than a begin succeeds only in the session that began the transfer, and
    every session starts without one. -/
theorem transfers_stay_in_session (c : Config) (m : Machine) (store : Store) (before after : List ResidentEvent) (e : Entry)
    (hrelease : releasesBeforeHello c (.start m store) (before ++ .enter e :: after) = true) :
    (∀ op, entryOperation c ((State.start m store).resident c before) e = some op → op.begins = false →
        (Ownership.run c (.start m store) ⟨0, 0⟩ before).owner =
          (Ownership.run c (.start m store) ⟨0, 0⟩ before).session) ∧
      (opensSession c ((State.start m store).resident c before) e = true →
        (ratsrIdleWorker c ((State.start m store).resident c before) e).files.transfer.kind = .none) := by
  have hstart : Owned (State.start m store) ⟨0, 0⟩ := fun hkind => absurd rfl hkind
  obtain ⟨howned, hrest⟩ := hstart.run hrelease
  refine ⟨fun op hop hbegins => howned (entryOperation_active hop hbegins), fun hopen => ?_⟩
  simp only [releasesBeforeHello, Bool.and_eq_true, Bool.or_eq_true, Bool.not_eq_true'] at hrest
  exact opensSession_idle hopen (hrest.1.resolve_left (by simp [hopen]))

/-! ## A HELLO during a file read -/

/-- The store of one file. -/
def oneFile : Store := dosStore (fun _ => some [0x58]) fun _ => ⟨true, 1⟩

/-- HELLO with a client nonce. -/
def helloEvent (nonce : UInt8) (requestId : UInt16) : ResidentEvent :=
  clientDatagram sampleConfig.baseKey 1 0 requestId [nonce, 0, 0, 0]

/-- A request of the session that a client nonce opened. -/
def sessionEvent (nonce : UInt8) (opcode : UInt8) (requestId : UInt16) (payload : Bytes) : ResidentEvent :=
  clientDatagram (dmDeriveSessionKey sampleConfig.baseKey nonce.toUInt32 blankMachine.makeNonce) opcode
    (helloSessionId nonce.toUInt32 blankMachine.makeNonce) requestId payload

/-- A HELLO, its answer, and `FILE_READ_BEGIN` of `A` from DOS idle, with its answer. -/
def readBegun : List ResidentEvent :=
  [helloEvent 0 1, timerEntry, timerEntry, sessionEvent 0 8 2 [1, 0x41], idleEntry, timerEntry]

/-- The first block of transfer 1. -/
def firstBlock (nonce : UInt8) (requestId : UInt16) : ResidentEvent := sessionEvent nonce 9 requestId [1, 0, 0, 0, 0, 0, 1, 0]

/-- The session that began the read reads its block. -/
theorem transfers_stay_in_session_read :
    entryOperation sampleConfig ((State.start blankMachine oneFile).resident sampleConfig (readBegun ++ [firstBlock 0 3]))
        ⟨true, false, blankMachine⟩ = some .fileReadBlock ∧
      (Ownership.run sampleConfig (.start blankMachine oneFile) ⟨0, 0⟩ (readBegun ++ [firstBlock 0 3])).owner =
        (Ownership.run sampleConfig (.start blankMachine oneFile) ⟨0, 0⟩ (readBegun ++ [firstBlock 0 3])).session := by
  have hop : entryOperation sampleConfig
      ((State.start blankMachine oneFile).resident sampleConfig (readBegun ++ [firstBlock 0 3]))
      ⟨true, false, blankMachine⟩ = some .fileReadBlock := by decide +kernel
  exact ⟨hop, (transfers_stay_in_session sampleConfig blankMachine oneFile (readBegun ++ [firstBlock 0 3]) []
    ⟨true, false, blankMachine⟩ (by decide +kernel)).1 _ hop rfl⟩

/-- The second session, opened while the read is active, reads the block of the first. -/
theorem old_transfer_serves_new_session :
    entryOperation sampleConfig ((State.start blankMachine oneFile).resident sampleConfig
        (readBegun ++ [helloEvent 1 3, timerEntry, timerEntry, firstBlock 1 4]))
        ⟨true, false, blankMachine⟩ = some .fileReadBlock ∧
      Ownership.run sampleConfig (.start blankMachine oneFile) ⟨0, 0⟩
        (readBegun ++ [helloEvent 1 3, timerEntry, timerEntry, firstBlock 1 4]) = ⟨2, 1⟩ := by
  constructor <;> decide +kernel

end DosMcp.Dos
