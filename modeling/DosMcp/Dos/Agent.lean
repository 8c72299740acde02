/-
  DosMcp.Dos.Agent — `ragent.c`: sessions, request reassembly, operations and responses of
  the two DOS agents built from it, RAGENT and RA-TSR (`Build`).

  `State` holds the statics of the program together with the machine it runs on. The
  request and screen buffers are regions of one workspace memory; in RA-TSR they are the
  same region. `sent` and `requests` record what was sent and what `process_request` was
  called for. Statics that exist in one build only keep their initial value in the other.
-/

import DosMcp.Dos.Transfer

namespace DosMcp.Dos

open Lib

inductive Build where
  | ragent
  | ratsr
  deriving DecidableEq, Repr

structure Peer where
  mac : Bytes
  ip : Bytes
  port : UInt16
  deriving DecidableEq, Repr

/-- `dm_udp_datagram`. -/
structure Datagram where
  payload : Bytes
  peer : Peer
  deriving DecidableEq, Repr

structure AgentSession where
  active : Bool
  id : UInt16
  key : Bytes
  peer : Peer
  lastRequestId : UInt16
  hasLastRequest : Bool
  responseCount : UInt8
  /-- RAGENT: the encoded fragments of the last response. -/
  responses : List Bytes
  /-- RA-TSR from here on: the response is encoded one fragment a worker entry. -/
  responseNext : UInt8
  responsePending : Bool
  responseKind : UInt8
  responseOpcode : UInt8
  responseRequestId : UInt16
  responsePayloadLength : Nat
  lastActivityTick : UInt16
  helloPending : Bool
  helloDatagram : Bytes

/-- The `request_*` statics. -/
structure Reassembly where
  requestId : UInt16
  opcode : UInt8
  fragmentCount : UInt8
  fragmentMask : UInt32
  fragmentLengths : List UInt16
  deriving DecidableEq, Repr

/-- The `text_capture_*` statics of RA-TSR. -/
structure TextCapture where
  header : Bytes
  segment : UInt16
  offset : UInt16
  deriving DecidableEq, Repr

/-- The command line of RAGENT's shell. -/
structure Shell where
  command : Bytes
  running : Bool
  deriving DecidableEq, Repr

/-- A call of `process_request`. -/
structure Request where
  opcode : UInt8
  id : UInt16
  payload : Bytes
  deriving DecidableEq, Repr

structure State where
  session : AgentSession
  reassembly : Reassembly
  workspace : Memory
  files : Files
  machine : Machine
  textCapture : TextCapture
  captureGeneration : UInt16
  keyGeneration : UInt16
  shell : Shell
  enabled : Bool
  ticks : UInt16
  discoveryLastTick : UInt16
  lastWorkerBiosTick : UInt16
  lastProtocolResult : Int
  lastOpcode : UInt8
  lastSendResult : UInt16
  /-- The packet driver's receive buffer, while it holds a datagram. -/
  slot : Option Datagram
  sent : List (Peer × Bytes)
  broadcasts : List Bytes
  requests : List Request

def AgentSession.start : AgentSession where
  active := false
  id := 0
  key := List.replicate 16 0
  peer := ⟨List.replicate 6 0, List.replicate 4 0, 0⟩
  lastRequestId := 0
  hasLastRequest := false
  responseCount := 0
  responses := List.replicate 5 []
  responseNext := 0
  responsePending := false
  responseKind := 0
  responseOpcode := 0
  responseRequestId := 0
  responsePayloadLength := 0
  lastActivityTick := 0
  helloPending := false
  helloDatagram := []

/-- The program as it starts. -/
def State.start (m : Machine) (store : Store) : State where
  session := .start
  reassembly := ⟨0, 0, 0, 0, List.replicate 32 0⟩
  workspace := fun _ => 0
  files := ⟨.start, store⟩
  machine := m
  textCapture := ⟨List.replicate 13 0, 0, 0⟩
  captureGeneration := 0
  keyGeneration := 0
  shell := ⟨[], true⟩
  enabled := true
  ticks := 0
  discoveryLastTick := 0 - 91
  lastWorkerBiosTick := 0
  lastProtocolResult := 0
  lastOpcode := 0
  lastSendResult := 0
  slot := none
  sent := []
  broadcasts := []
  requests := []

def requestBufferSize : Nat := 4229
def screenBufferSize : Nat := 4013

/-- `RESPONSE_FRAGMENT_PAYLOAD`. -/
def Build.fragmentPayload : Build → Nat
  | .ragent => 1024
  | .ratsr => 256

/-- `MAX_RESPONSE_FRAGMENTS`. -/
def Build.maxFragments : Build → Nat
  | .ragent => 5
  | .ratsr => 16

/-- Where the screen buffer starts in the workspace; the request buffer starts at 0. -/
def Build.screenBase : Build → Nat
  | .ragent => requestBufferSize
  | .ratsr => 0

def State.putScreen (b : Build) (s : State) (bytes : Bytes) : State :=
  { s with workspace := s.workspace.store b.screenBase bytes }

/-! ## Responses -/

/-- Where the payload of a response lies: in the screen buffer, or in an array of the caller. -/
inductive Source where
  | screen (length : Nat)
  | array (bytes : Bytes)

def Source.length : Source → Nat
  | .screen n => n
  | .array bytes => bytes.length

def State.payloadBytes (b : Build) (s : State) : Source → Bytes
  | .screen n => s.workspace.load b.screenBase n
  | .array bytes => bytes

def resendCached (b : Build) (s : State) : State :=
  match b with
  | .ratsr => { s with session := { s.session with responseNext := 0, responsePending := s.session.responseCount ≠ 0 } }
  | .ragent =>
    { s with sent := s.sent ++ (s.session.responses.take s.session.responseCount.toNat).map (s.session.peer, ·) }

/-- Fragment `index` of a response payload. -/
def responsePacket (b : Build) (session : AgentSession) (kind opcode : UInt8) (id : UInt16) (count : UInt8)
    (payload : Bytes) (index : Nat) : DmPacket where
  kind := kind
  opcode := opcode
  flags := 0
  sessionId := session.id
  requestId := id
  fragmentIndex := .ofNat index
  fragmentCount := count
  payload := slice payload (index * b.fragmentPayload) b.fragmentPayload

/-- `sizeof(session.responses[0])`. -/
def responseDatagramSize : UInt16 := 1044

/-- The encoding loop of RAGENT: whether it ends, and the responses so far. -/
def encodeResponses (key : Bytes) : List DmPacket → Nat → List Bytes → Bool × List Bytes
  | [], _, responses => (true, responses)
  | packet :: packets, index, responses =>
    match dmPacketEncode packet key responseDatagramSize with
    | .error _ => (false, responses)
    | .ok datagram => encodeResponses key packets (index + 1) (responses.set index datagram)

def responseFragmentCount (b : Build) (length : Nat) : UInt8 :=
  let count := UInt8.ofNat ((length + b.fragmentPayload - 1) / b.fragmentPayload)
  if count = 0 then 1 else count

def State.recordRequest (s : State) (id : UInt16) : State :=
  { s with session := { s.session with lastRequestId := id, hasLastRequest := true } }

def sendResponse (b : Build) (s : State) (kind opcode : UInt8) (id : UInt16) (source : Source) : State :=
  let count := responseFragmentCount b source.length
  if count.toNat > b.maxFragments then s
  else
    let s := { s with session := { s.session with responseCount := count } }
    match b with
    | .ratsr =>
      let s := match source with
        | .screen _ => s
        | .array bytes => s.putScreen b bytes
      let session := { s.session with responseKind := kind, responseOpcode := opcode, responseRequestId := id,
                                      responsePayloadLength := source.length }
      resendCached b ({ s with session := session }.recordRequest id)
    | .ragent =>
      let packets := (List.range count.toNat).map
        (responsePacket b s.session kind opcode id count (s.payloadBytes b source))
      match encodeResponses s.session.key packets 0 s.session.responses with
      | (false, responses) => { s with session := { s.session with responses := responses } }
      | (true, responses) =>
        resendCached b ({ s with session := { s.session with responses := responses } }.recordRequest id)

def messageBytes (message : String) : Bytes := message.toList.map fun c => UInt8.ofNat c.toNat

def sendError (b : Build) (s : State) (opcode : UInt8) (id code : UInt16) (message : String) : State :=
  sendResponse b s dmKindError opcode id (.array (dmPutU16 code ++ (messageBytes message).take 120))

/-! ## Status, capabilities, diagnostics -/

def buildStatus (b : Build) (c : Config) (m : Machine) : Bytes :=
  let memoryKb := m.peek16 0x40 0x13
  let current := m.readBiosTicks
  let elapsed := if current ≥ c.agentStartTicks then current - c.agentStartTicks
    else (0x1800B0 - c.agentStartTicks) + current
  let head := match b with
    | .ratsr => [0, 3, c.cachedDosMajor, c.cachedDosMinor, 0, 2]
    | .ragent => [0, 1, m.dosVersion.1, m.dosVersion.2, 0, 3]
  head ++ dmPutU16 memoryKb ++ dmPutU32 elapsed

/-- `CAP_STATUS | CAP_TEXT | CAP_KEYBOARD`, in RA-TSR with graphics and the allowed file access. -/
def agentCapabilities (b : Build) (c : Config) : UInt32 :=
  match b with
  | .ragent => 0x00000007
  | .ratsr => 0x00000807 ||| (if c.allowFileRead then 0x00000008 else 0) ||| (if c.allowFileWrite then 0x00000010 else 0)

/-- `(dm_u8)(*columns > 80 ? 80 : *columns)`. -/
def screenColumns (m : Machine) : UInt8 :=
  let columns := m.peek16 0x40 0x4A
  if columns > 80 then 80 else columns.toUInt8

def currentAdapter (b : Build) (c : Config) (m : Machine) : UInt8 :=
  match b with
  | .ratsr => c.cachedAdapter
  | .ragent => m.detectAdapter m.videoMode

def buildCapabilities (b : Build) (c : Config) (m : Machine) : Bytes :=
  dmPutU32 (agentCapabilities b c) ++ [screenColumns m, 25, currentAdapter b c m] ++ dmPutU16 dmMaxFragmentPayload ++
    dmPutU16 15

def flag (condition : Bool) (value : UInt8) : UInt8 := if condition then value else 0

def buildDiagnostics (s : State) : Bytes :=
  let m := s.machine
  let k := m.counters
  let flags := flag k.ownsInt08 0x01 ||| flag k.ownsInt1c 0x02 ||| flag k.ownsInt28 0x04 ||| flag k.ownsInt2f 0x08 |||
    flag s.enabled 0x10 ||| flag s.slot.isSome 0x20 ||| flag s.session.active 0x40 ||| flag s.session.responsePending 0x80
  [2, flags] ++ dmPutU16 k.int08Entries ++ dmPutU16 k.int1cEntries ++ dmPutU16 k.int28Entries ++ dmPutU16 k.workerRuns ++
    dmPutU16 k.fallbackRuns ++ dmPutU16 k.busySkips ++ dmPutU16 k.receiveAllocations ++ dmPutU16 k.receiveCompletions ++
    dmPutU16 k.receiveDrops ++ dmPutU16 k.sendAttempts ++ dmPutU16 k.sendFailures ++ dmPutU16 k.receiveLastBiosTick ++
    dmPutU16 s.lastWorkerBiosTick ++ dmPutU16 s.ticks ++ dmPutU16 k.receiveLength ++ [m.inp 0x21, m.inp 0xA1] ++
    dmPutU16 (.ofNat (s.lastProtocolResult % 0x10000).toNat) ++ dmPutU16 s.lastSendResult ++ [s.lastOpcode, 0] ++
    dmPutU16 k.stackCapacity ++ dmPutU16 k.stackUsed ++ dmPutU16 k.residentParagraphs ++
    dmPutU16 (.ofNat requestBufferSize) ++ [if k.stackGuardOk then 0 else 1, 0]

/-! ## Text screens -/

/-- `store_cursor_metadata`: row, column, first and last scan line. -/
def cursorMetadata (cursor shape : UInt16) (columns rows : UInt8) : Bytes :=
  let row := (cursor >>> 8).toUInt8
  let column := cursor.toUInt8
  if row ≥ rows ∨ column ≥ columns then [0, 0, 1, 0] else [row, column, (shape >>> 8).toUInt8, shape.toUInt8]

/-- The columns of a captured screen. -/
def captureColumns (m : Machine) : UInt8 := if screenColumns m = 0 then 80 else screenColumns m

/-- The 13 bytes before the cells, with `page` as the page whose cursor is reported. -/
def captureHeader (b : Build) (c : Config) (m : Machine) (page : UInt8) (generation : UInt16) : Bytes :=
  let columns := captureColumns m
  [columns, 25, m.videoMode, page] ++
    cursorMetadata (m.peek16 0x40 (0x50 + 2 * page.toUInt16)) (m.peek16 0x40 0x60) columns 25 ++
    [currentAdapter b c m] ++ dmPutU16 437 ++ dmPutU16 generation

def captureSegment (m : Machine) : UInt16 := if m.videoMode = 7 then 0xB000 else 0xB800

def captureCells (m : Machine) : Nat := (captureColumns m).toNat * 25 * 2

/-- `capture_screen` of RAGENT. -/
def captureScreen (c : Config) (s : State) : Bytes × State :=
  let m := s.machine
  let generation := s.captureGeneration + 1
  let cells := (List.range (captureCells m)).map fun i => m.peek (captureSegment m) (m.peek16 0x40 0x4E + .ofNat i)
  (captureHeader .ragent c m (m.peek 0x40 0x62) generation ++ cells, { s with captureGeneration := generation })

/-- `prepare_text_capture` of RA-TSR: the length of the screen that will be read from video
    memory while it is sent. -/
def prepareTextCapture (c : Config) (s : State) : Nat × State :=
  let m := s.machine
  let page := if m.peek 0x40 0x62 ≤ 7 then m.peek 0x40 0x62 else 0
  let generation := s.captureGeneration + 1
  (13 + captureCells m,
    { s with captureGeneration := generation
             textCapture := ⟨captureHeader .ratsr c m page generation, captureSegment m, m.peek16 0x40 0x4E⟩ })

def fillTextCaptureFragment (t : TextCapture) (m : Machine) (offset length : Nat) : Bytes :=
  (List.range length).map fun i =>
    let position := offset + i
    if position < 13 then byteAt t.header position else m.peek t.segment (t.offset + .ofNat (position - 13))

/-! ## Keyboard -/

def asciiScan (value : UInt8) : UInt8 :=
  let letterScan : Bytes := [0x1E, 0x30, 0x2E, 0x20, 0x12, 0x21, 0x22, 0x23, 0x17, 0x24, 0x25, 0x26, 0x32, 0x31, 0x18,
    0x19, 0x10, 0x13, 0x1F, 0x14, 0x16, 0x2F, 0x11, 0x2D, 0x15, 0x2C]
  let digitScan : Bytes := [0x0B, 0x02, 0x03, 0x04, 0x05, 0x06, 0x07, 0x08, 0x09, 0x0A]
  if 0x61 ≤ value ∧ value ≤ 0x7A then byteAt letterScan (value - 0x61).toNat
  else if 0x41 ≤ value ∧ value ≤ 0x5A then byteAt letterScan (value - 0x41).toNat
  else if 0x30 ≤ value ∧ value ≤ 0x39 then byteAt digitScan (value - 0x30).toNat
  else match value.toNat with
    | 0x20 => 0x39
    | 0x2D => 0x0C
    | 0x3D => 0x0D
    | 0x5B => 0x1A
    | 0x5D => 0x1B
    | 0x3B => 0x27
    | 0x27 => 0x28
    | 0x60 => 0x29
    | 0x5C => 0x2B
    | 0x2C => 0x33
    | 0x2E => 0x34
    | 0x2F => 0x35
    | _ => 0

def namedKeyWord (key : UInt8) : UInt16 :=
  let values : List UInt16 := [0, 0x1C0D, 0x011B, 0x0F09, 0x0E08, 0x4800, 0x5000, 0x4D00, 0x4B00, 0x4700, 0x4F00, 0x5300,
    0x4900, 0x5100, 0x3B00, 0x3C00, 0x3D00, 0x3E00, 0x3F00, 0x4000, 0x4100, 0x4200, 0x4300, 0x4400, 0x8500, 0x8600,
    0x2E03, 0x2004]
  values.getD key.toNat 0

/-- `process_shell_keyboard` of RAGENT; a complete line is handed to `system`. -/
def processShellKeyboard (c : Config) (s : State) : State :=
  if s.machine.keybrdReady = 0 then s
  else
    let (key, machine) := s.machine.keybrdRead
    let s := { s with machine := machine }
    let ascii := key.toUInt8
    if ascii = 27 ∧ machine.keybrdShiftStatus &&& 0x0C = 0x0C then { s with shell := { s.shell with running := false } }
    else if ascii = 13 then
      if stricmpEqual s.shell.command [0x45, 0x58, 0x49, 0x54] then { s with shell := { s.shell with running := false } }
      else
        let machine := if s.shell.command = [] then machine else c.system s.shell.command machine
        { s with machine := machine, shell := { s.shell with command := [] } }
    else if ascii = 8 then { s with shell := { s.shell with command := s.shell.command.dropLast } }
    else if ascii ≥ 32 ∧ s.shell.command.length + 1 < 128 then
      { s with shell := { s.shell with command := s.shell.command ++ [ascii] } }
    else s

/-- A loop of `inject_keys`: the words accepted before the first that is not. RAGENT lets its
    shell take a key after each. -/
def queueWords (b : Build) (c : Config) : List UInt16 → State → Nat × State
  | [], s => (0, s)
  | word :: words, s => match s.machine.biosQueueWord word with
    | none => (0, s)
    | some machine =>
      let s := { s with machine := machine }
      let s := match b with
        | .ratsr => s
        | .ragent => processShellKeyboard c s
      let (accepted, s) := queueWords b c words s
      (accepted + 1, s)

def injectKeys (b : Build) (c : Config) (s : State) (payload : Bytes) : Option Bytes × State :=
  if payload.length < 5 then (none, s)
  else
    let textLength := (dmGetU16 payload 0).toNat
    let keyCount := (byteAt payload 2).toNat
    if textLength > 4096 ∨ keyCount > 128 ∨ dmGetU16 payload 3 > 1000 ∨ payload.length ≠ 5 + textLength + keyCount then
      (none, s)
    else
      let textWords := (slice payload 5 textLength).map fun ascii => ((asciiScan ascii).toUInt16 <<< 8) ||| ascii.toUInt16
      let keyWords := (slice payload (5 + textLength) keyCount).map namedKeyWord
      let (acceptedText, s) := queueWords b c textWords s
      let (acceptedKeys, s) := queueWords b c (keyWords.takeWhile (· ≠ 0)) s
      let generation := s.keyGeneration + 1
      (some (dmPutU16 (.ofNat acceptedText) ++ [.ofNat acceptedKeys] ++ dmPutU16 generation),
        { s with keyGeneration := generation })

/-! ## Operations -/

/-- How `process_request` answers: an error, bytes left in the screen buffer, or a text
    screen of the given length that is read while it is sent. -/
inductive Reply where
  | error (code : UInt16) (message : String)
  | screen (bytes : Bytes)
  | capture (length : Nat)

/-- The operations that take no payload. -/
def withoutPayload (payload : Bytes) (message : String) (s : State) (run : Reply × State) : Reply × State :=
  if payload.length ≠ 0 then (.error 6 message, s) else run

def unsupported (s : State) : Reply × State := (.error 5 "unsupported operation", s)

/-- A transfer operation of RA-TSR. -/
def operateTransfer (c : Config) (s : State) (op : TransferOp) (payload : Bytes) : Reply × State :=
  let r := op.run c s.machine s.files payload
  let s := { s with files := r.files, machine := r.machine }
  match r.reply with
  | none => (.error op.failure.1 op.failure.2, s)
  | some bytes => (.screen bytes, s)

def operateKeys (b : Build) (c : Config) (s : State) (payload : Bytes) : Reply × State :=
  -- RA-TSR answers the empty request itself, without a new generation
  if b = .ratsr ∧ payload.length = 5 ∧ dmGetU16 payload 0 = 0 ∧ byteAt payload 2 = 0 then (.screen [0, 0, 0, 0, 0], s)
  else match injectKeys b c s payload with
    | (none, s) => (.error 6 "invalid key request", s)
    | (some bytes, s) => (.screen bytes, s)

def operateCapture (b : Build) (c : Config) (s : State) : Reply × State :=
  match b with
  | .ragent =>
    let (bytes, s) := captureScreen c s
    (.screen bytes, s)
  | .ratsr =>
    let (length, s) := prepareTextCapture c s
    (.capture length, s)

/-- The branches of `process_request`. -/
def operate (b : Build) (c : Config) (s : State) (opcode : UInt8) (payload : Bytes) : Reply × State :=
  match opcode.toNat with
  | 2 => withoutPayload payload "status payload must be empty" s (.screen (buildStatus b c s.machine), s)
  | 3 => withoutPayload payload "capability payload must be empty" s (.screen (buildCapabilities b c s.machine), s)
  | 4 => withoutPayload payload "screen payload must be empty" s (operateCapture b c s)
  | 5 => operateKeys b c s payload
  | 6 => if payload.length > screenBufferSize then (.error 6 "ping payload too large", s) else (.screen payload, s)
  | 18 => match b with
    | .ratsr => withoutPayload payload "diagnostic payload must be empty" s (.screen (buildDiagnostics s), s)
    | .ragent => unsupported s
  | _ => match b, TransferOp.ofOpcode opcode with
    | .ratsr, some op => operateTransfer c s op payload
    | _, _ => unsupported s

def processRequest (b : Build) (c : Config) (s : State) (opcode : UInt8) (id : UInt16) (payload : Bytes) : State :=
  match operate b c { s with requests := s.requests ++ [⟨opcode, id, payload⟩] } opcode payload with
  | (.error code message, s) => sendError b s opcode id code message
  | (.screen bytes, s) => sendResponse b (s.putScreen b bytes) dmKindResponse opcode id (.screen bytes.length)
  | (.capture length, s) => sendResponse b s dmKindResponse opcode id (.screen length)

/-! ## Datagrams -/

def requestIsNewer (candidate previous : UInt16) : Bool :=
  let distance := candidate - previous
  distance ≠ 0 ∧ distance < 0x8000

/-- The session ID of a handshake. -/
def helloSessionId (clientNonce serverNonce : UInt32) : UInt16 :=
  let id := (clientNonce ^^^ serverNonce).toUInt16
  if id = 0 then 1 else id

/-- The response packet of `process_hello`. -/
def helloReply (clientNonce serverNonce : UInt32) (requestId : UInt16) : DmPacket where
  kind := dmKindResponse
  opcode := dmOpHello
  flags := 0
  sessionId := helloSessionId clientNonce serverNonce
  requestId := requestId
  fragmentIndex := 0
  fragmentCount := 1
  payload := dmPutU32 clientNonce ++ dmPutU32 serverNonce ++ dmPutU16 (helloSessionId clientNonce serverNonce) ++
    dmPutU16 dmMaxFragmentPayload

def processHello (b : Build) (c : Config) (s : State) (packet : DmPacket) (peer : Peer) : State :=
  if packet.payloadLength ≠ 4 ∨ packet.fragmentCount ≠ 1 then s
  else
    let clientNonce := dmGetU32 packet.payload 0
    let serverNonce := s.machine.makeNonce
    let s := match b, dmPacketEncode (helloReply clientNonce serverNonce packet.requestId) c.baseKey 32 with
      | _, .error _ => s
      | .ratsr, .ok datagram => { s with session := { s.session with helloDatagram := datagram, helloPending := true } }
      | .ragent, .ok datagram => { s with sent := s.sent ++ [(peer, datagram)] }
    { s with session := { s.session with id := helloSessionId clientNonce serverNonce, peer := peer
                                         key := dmDeriveSessionKey c.baseKey clientNonce serverNonce, active := true
                                         lastActivityTick := s.ticks, hasLastRequest := false, responseCount := 0 } }

/-- The mask of a request of which every fragment is there. -/
def expectedMask (count : UInt8) : UInt32 := if count = 32 then 0xFFFFFFFF else (1 <<< count.toUInt32) - 1

/-- The reassembly a packet goes to: a new request ID starts over. -/
def Reassembly.forPacket (r : Reassembly) (packet : DmPacket) : Reassembly :=
  if packet.requestId ≠ r.requestId then
    ⟨packet.requestId, packet.opcode, packet.fragmentCount, 0, List.replicate 32 0⟩
  else r

def Reassembly.add (r : Reassembly) (packet : DmPacket) : Reassembly :=
  { r with fragmentLengths := r.fragmentLengths.set packet.fragmentIndex.toNat packet.payloadLength
           fragmentMask := r.fragmentMask ||| (1 <<< packet.fragmentIndex.toUInt32) }

/-- Every fragment is there, and all but the last are full. -/
def Reassembly.complete (r : Reassembly) : Bool :=
  r.fragmentMask = expectedMask r.fragmentCount &&
    (List.range (r.fragmentCount.toNat - 1)).all fun i => r.fragmentLengths.getD i 0 = dmMaxFragmentPayload

def Reassembly.finalLength (r : Reassembly) : Nat :=
  (r.fragmentCount.toNat - 1) * 1024 + (r.fragmentLengths.getD (r.fragmentCount.toNat - 1) 0).toNat

/-- The packet does not fit the request it claims to belong to. -/
def Reassembly.refuses (r : Reassembly) (packet : DmPacket) : Bool :=
  packet.fragmentCount ≠ r.fragmentCount ∨ packet.opcode ≠ r.opcode ∨
    packet.fragmentIndex.toNat * 1024 + packet.payload.length > requestBufferSize

/-- The statics after `process_datagram` has stored the fragment, or refused it. -/
def State.storeFragment (s : State) (packet : DmPacket) : State :=
  let r := s.reassembly.forPacket packet
  if r.refuses packet then { s with reassembly := r }
  else { s with reassembly := r.add packet
                workspace := s.workspace.store (packet.fragmentIndex.toNat * 1024) packet.payload }

/-- The request that a fragment completes. -/
def State.completedRequest (s : State) (packet : DmPacket) : Option Request :=
  if (s.reassembly.forPacket packet).refuses packet then none
  else
    let s := s.storeFragment packet
    if s.reassembly.complete then
      some ⟨s.reassembly.opcode, s.reassembly.requestId, s.workspace.load 0 s.reassembly.finalLength⟩
    else none

/-- The last part of `process_datagram`: store the fragment, process a complete request. -/
def acceptFragment (b : Build) (c : Config) (s : State) (packet : DmPacket) : State :=
  match s.completedRequest packet with
  | none => s.storeFragment packet
  | some request => processRequest b c (s.storeFragment packet) request.opcode request.id request.payload

/-- The packet is the session's: same ID, same peer. -/
def AgentSession.owns (session : AgentSession) (packet : DmPacket) (peer : Peer) : Bool :=
  session.active ∧ packet.sessionId = session.id ∧ session.peer = peer

/-- A decoded request of the session, with its replay check. -/
def processSessionPacket (b : Build) (c : Config) (s : State) (packet : DmPacket) : State :=
  if s.session.hasLastRequest ∧ packet.requestId = s.session.lastRequestId then resendCached b s
  else if s.session.hasLastRequest ∧ ¬ requestIsNewer packet.requestId s.session.lastRequestId then
    sendError b s packet.opcode packet.requestId 4 "replayed request"
  else acceptFragment b c s packet

def processPacket (b : Build) (c : Config) (s : State) (packet : DmPacket) (peer : Peer) : State :=
  if packet.kind ≠ dmKindRequest then s
  else if packet.opcode = dmOpHello ∧ packet.sessionId = 0 then processHello b c s packet peer
  else if ¬ s.session.owns packet peer then s
  else processSessionPacket b c { s with session := { s.session with lastActivityTick := s.ticks } } packet

/-- The key a datagram is checked with; none for a session request without a session. -/
def State.datagramKey (c : Config) (s : State) (payload : Bytes) : Option Bytes :=
  if payload.length ≥ 20 ∧ byteAt payload 4 ≠ dmOpHello then
    if s.session.active then some s.session.key else none
  else some c.baseKey

def processDatagram (b : Build) (c : Config) (s : State) (datagram : Datagram) : State :=
  match s.datagramKey c datagram.payload with
  | none => s
  | some key => match dmPacketDecode datagram.payload key with
    | .error e => { s with lastProtocolResult := e.code }
    | .ok packet =>
      processPacket b c { s with lastProtocolResult := 0, lastOpcode := packet.opcode } packet datagram.peer

end DosMcp.Dos
