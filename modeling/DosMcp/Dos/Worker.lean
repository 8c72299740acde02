/-
  DosMcp.Dos.Worker — the loops around the DOS agents: `ratsr_idle_worker`, the resident
  step of RA-TSR run from the timer (`dosIdle` false) and from DOS idle, and one turn of
  RAGENT's main loop.

  The receive buffer holds one datagram: what arrives while it is full is dropped. Frames
  that `dm_net_poll` does not hand out never become a datagram.
-/

import DosMcp.Dos.Agent

namespace DosMcp.Dos

open Lib

def sessionIdleTicks : UInt16 := 546
def discoveryIntervalTicks : UInt16 := 91

/-- What one entry finds: the caller, the critical-error flag and the machine. -/
structure Entry where
  dosIdle : Bool
  criticalError : Bool
  machine : Machine

/-- DOS may be called from the entry. -/
def Entry.dosSafe (e : Entry) : Bool := e.dosIdle && !e.criticalError

/-- `send_discovery`: the advertisement. -/
def discoveryPayload (c : Config) : Bytes :=
  let body := [0x44, 0x4D, 0x44, 0x32, 1, dmVersion, if c.discoveryOpenMode then 1 else 0, .ofNat c.agentName.length] ++
    dmPutU16 c.advertisedPort ++ dmPutU32 (agentCapabilities .ratsr c) ++ c.address ++ c.agentName
  body ++ dmPutU16 (dmCrc16Ccitt body)

/-- The counters of an entry: its tick and the BIOS time. -/
def enterWorker (s : State) (e : Entry) : State :=
  { s with machine := e.machine, lastWorkerBiosTick := e.machine.readBiosTicks.toUInt16
           ticks := if e.dosIdle then s.ticks else s.ticks + 1 }

def expireSession (s : State) : State :=
  if s.session.active ∧ s.ticks - s.session.lastActivityTick ≥ sessionIdleTicks then
    { s with session := { s.session with active := false, responsePending := false, hasLastRequest := false } }
  else s

/-- An abandoned transfer is closed once DOS can be called. -/
def cleanTransfer (s : State) (e : Entry) : State :=
  if ¬ s.session.active ∧ s.files.transfer.kind ≠ .none ∧ e.dosSafe then { s with files := closeTransfer s.files true } else s

def advertise (c : Config) (s : State) : State :=
  if ¬ s.session.active ∧ s.ticks - s.discoveryLastTick ≥ discoveryIntervalTicks then
    { s with discoveryLastTick := s.ticks, broadcasts := s.broadcasts ++ [discoveryPayload c] }
  else s

def State.transmit (s : State) (datagram : Bytes) : State :=
  { s with sent := s.sent ++ [(s.session.peer, datagram)], lastSendResult := s.machine.sendResult }

/-- The fragment of the pending response that is next, with the buffer it was read from: a
    text screen is read from video memory into the front of the screen buffer. -/
def nextFragment (s : State) : DmPacket × Memory :=
  let session := s.session
  let offset := session.responseNext.toNat * Build.ratsr.fragmentPayload
  let length := min (session.responsePayloadLength - offset) Build.ratsr.fragmentPayload
  let captured := session.responseOpcode = 4
  let workspace := if captured then
      s.workspace.store Build.ratsr.screenBase (fillTextCaptureFragment s.textCapture s.machine offset length)
    else s.workspace
  let payload := workspace.load (Build.ratsr.screenBase + if captured then 0 else offset) length
  (⟨session.responseKind, session.responseOpcode, 0, session.id, session.responseRequestId, session.responseNext,
    session.responseCount, payload⟩, workspace)

def emitFragment (s : State) : State :=
  let (packet, workspace) := nextFragment s
  let s := { s with workspace := workspace }
  match dmPacketEncode packet s.session.key responseDatagramSize with
  | .error e => { s with lastProtocolResult := e.code, session := { s.session with responsePending := false } }
  | .ok datagram =>
    let s := { s with lastProtocolResult := 0 }.transmit datagram
    let next : UInt8 := s.session.responseNext + 1
    { s with session := { s.session with responseNext := next, responsePending := next < s.session.responseCount } }

def emitHello (s : State) : State :=
  let s := s.transmit s.session.helloDatagram
  { s with session := { s.session with helloPending := false } }

/-- The datagram's opcode byte names an operation that calls DOS. -/
def dosOperation (s : State) (payload : Bytes) : Bool :=
  payload.length ≥ 20 ∧ 8 ≤ byteAt payload 4 ∧ byteAt payload 4 ≤ 14 ∧
    ¬ (byteAt payload 4 = 14 ∧ s.files.transfer.kind = .graphics)

/-- Whether the deferred datagram passes CRC and MAC, with the result noted. -/
def validateDeferredDatagram (c : Config) (s : State) (payload : Bytes) : Bool × State :=
  match s.datagramKey c payload with
  | none => (false, s)
  | some key => match dmPacketDecode payload key with
    | .error e => (false, { s with lastProtocolResult := e.code })
    | .ok _ => (true, { s with lastProtocolResult := 0 })

def State.release (s : State) : State := { s with slot := none }

def pollDatagram (c : Config) (s : State) (e : Entry) : State :=
  match s.slot with
  | none => s
  | some datagram =>
    if dosOperation s datagram.payload ∧ ¬ e.dosSafe then
      match validateDeferredDatagram c s datagram.payload with
      | (false, s) => s.release
      | (true, s) => s
    else (processDatagram .ratsr c s datagram).release

/-- The first part of `ratsr_idle_worker`: time, expiry, cleanup and discovery. -/
def beforePoll (c : Config) (s : State) (e : Entry) : State :=
  advertise c (cleanTransfer (expireSession (enterWorker s e)) e)

def ratsrIdleWorker (c : Config) (s : State) (e : Entry) : State :=
  if ¬ s.enabled then s
  else
    let s := beforePoll c s e
    if s.session.responsePending then emitFragment s
    else if s.session.helloPending then emitHello s
    else pollDatagram c s e

/-- The packet driver completes a frame with a datagram for this agent. -/
def arrive (s : State) (datagram : Datagram) : State :=
  match s.slot with
  | none => { s with slot := some datagram }
  | some _ => s

/-- One turn of RAGENT's main loop, with the machine as the turn finds it. -/
def ragentTurn (c : Config) (s : State) (m : Machine) : State :=
  let s := { s with machine := m }
  let s := match s.slot with
    | none => s
    | some datagram => (processDatagram .ragent c s datagram).release
  processShellKeyboard c s

end DosMcp.Dos
