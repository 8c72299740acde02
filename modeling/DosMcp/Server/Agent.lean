/-
  DosMcp.Server.Agent — `agent_server.py`: the UDP agent server of the simulator.

  `UdpAgentServer.handleDatagram` is one call of `handle_datagram`: it takes the server's
  state, what the outside answers during the call (`Env`: backend, nonce, random transfer
  ID) and a datagram with its source, and returns the new state together with what the
  call did: the datagrams sent, the backend calls made, the request dispatched, and the
  exception that escaped, if one did. State changed before an exception stays changed.
-/

import DosMcp.Lib.Crc32
import DosMcp.Lib.Dict
import DosMcp.Protocol.Packet
import DosMcp.Server.Backend

namespace DosMcp

open Lib

structure Session where
  address : Address
  sessionId : Nat
  key : Key
  lastRequestId : Option Nat
  responseCache : Dict Nat (List Bytes)
  pending : Dict Nat (Dict Nat Packet)

inductive TransferKind where
  | fileRead
  | fileWrite
  | graphics
  deriving DecidableEq, Repr

structure Transfer where
  transferId : Nat
  kind : TransferKind
  data : Bytes
  offset : Nat
  crc32 : Nat
  path : List Char
  expectedSize : Nat
  expectedCrc32 : Nat
  overwrite : Bool
  deriving DecidableEq, Repr

structure UdpAgentServer where
  key : Key
  session : Option Session
  dropFirstResponse : Bool
  droppedResponse : Bool
  transfer : Option Transfer

/-- A server that has just been constructed. -/
def UdpAgentServer.start (key : Key) (dropFirstResponse : Bool) : UdpAgentServer where
  key := key
  session := none
  dropFirstResponse := dropFirstResponse
  droppedResponse := false
  transfer := none

instance neZero_draws : NeZero 0xFFFF := ⟨by decide⟩

/-- What one call takes from outside the server. -/
structure Env where
  backend : Backend
  /-- `self._nonce_factory()`. -/
  nonce : Int
  /-- `secrets.randbelow(0xFFFF)`. -/
  draw : Fin 0xFFFF

/-! ## Transfers -/

/-- What an operation leaves: its reply or exception, the transfer and the backend calls. -/
structure Outcome where
  reply : Except Exc Bytes
  transfer : Option Transfer
  calls : List Call

def startTransfer (env : Env) (active : Option Transfer) (kind : TransferKind) (data : Bytes) : Except Exc Transfer :=
  match active with
  | some _ => .error (.runtimeError "another transfer is active")
  | none => .ok
      { transferId := if env.draw.val = 0 then 1 else env.draw.val, kind := kind, data := data, offset := 0, crc32 := 0,
        path := [], expectedSize := 0, expectedCrc32 := 0, overwrite := false }

def requireTransfer (active : Option Transfer) (transferId : Nat) (kind : TransferKind) : Except Exc Transfer :=
  match active with
  | none => .error (.valueError "unknown transfer")
  | some transfer =>
    if transfer.transferId ≠ transferId ∨ transfer.kind ≠ kind then .error (.valueError "unknown transfer")
    else .ok transfer

def readTransferBlock (active : Option Transfer) (request : TransferBlockRequest) (kind : TransferKind) : Outcome :=
  match requireTransfer active request.transferId kind with
  | .error e => ⟨.error e, active, []⟩
  | .ok transfer =>
    if request.offset ≠ transfer.offset then ⟨.error (.valueError "non-sequential transfer offset"), active, []⟩
    else
      let block := slice transfer.data transfer.offset request.length
      let crc := Lib.crc32 block transfer.crc32
      ⟨TransferBlockResponse.encode ⟨transfer.transferId, request.offset, block, crc⟩,
        some { transfer with offset := transfer.offset + block.length, crc32 := crc }, []⟩

def endReadTransfer (active : Option Transfer) (request : TransferEndRequest) (kind : TransferKind) : Outcome :=
  match requireTransfer active request.transferId kind with
  | .error e => ⟨.error e, active, []⟩
  | .ok transfer =>
    if transfer.offset ≠ transfer.data.length then ⟨.error (.valueError "transfer is incomplete"), active, []⟩
    else match TransferEndResponse.encode ⟨transfer.offset, transfer.crc32⟩ with
      | .error e => ⟨.error e, active, []⟩
      | .ok response => ⟨.ok response, none, []⟩

def writeTransferBlock (active : Option Transfer) (request : TransferBlockRequest) : Outcome :=
  match requireTransfer active request.transferId .fileWrite with
  | .error e => ⟨.error e, active, []⟩
  | .ok transfer =>
    if request.offset ≠ transfer.offset ∨ transfer.offset + request.data.length > transfer.expectedSize then
      ⟨.error (.valueError "invalid upload offset or length"), active, []⟩
    else
      let crc := Lib.crc32 request.data transfer.crc32
      ⟨TransferBlockResponse.encode ⟨transfer.transferId, request.offset, [], crc⟩,
        some { transfer with data := transfer.data ++ request.data, offset := transfer.offset + request.data.length,
                             crc32 := crc }, []⟩

def commitWriteTransfer (env : Env) (active : Option Transfer) (request : TransferEndRequest) : Outcome :=
  match requireTransfer active request.transferId .fileWrite with
  | .error e => ⟨.error e, active, []⟩
  | .ok transfer =>
    if transfer.offset ≠ transfer.expectedSize ∨ transfer.crc32 ≠ transfer.expectedCrc32 then
      ⟨.error (.valueError "upload size or checksum mismatch"), active, []⟩
    else
      let calls := [Call.uploadFile transfer.path transfer.data transfer.overwrite]
      match env.backend.uploadFile transfer.path transfer.data transfer.overwrite with
      | .error e => ⟨.error e, active, calls⟩
      | .ok receipt => match TransferEndResponse.encode ⟨receipt.size, receipt.crc32⟩ with
        | .error e => ⟨.error e, active, calls⟩
        | .ok response => ⟨.ok response, none, calls⟩

/-! ## Operations -/

def requireEmpty (payload : Bytes) : Except Exc Unit :=
  raiseIf (payload ≠ []) (.valueError "operation takes no payload")

/-- The branches without a payload: check, one backend call, encode the answer. -/
def observe {α : Type} (active : Option Transfer) (payload : Bytes) (call : Call) (answer : Except Exc α)
    (encode : α → Except Exc Bytes) : Outcome :=
  match requireEmpty payload with
  | .error e => ⟨.error e, active, []⟩
  | .ok () => ⟨answer >>= encode, active, [call]⟩

def sendKeysOperation (env : Env) (active : Option Transfer) (payload : Bytes) : Outcome :=
  match KeyRequest.decode payload with
  | .error e => ⟨.error e, active, []⟩
  | .ok request =>
    let text := cp437Decode request.text
    let keys := request.keys.map KeyCode.name
    let reply : Except Exc Bytes := do
      let receipt ← env.backend.sendKeys text keys request.interKeyDelayMs 100
      KeyResponse.encode ⟨receipt.acceptedTextBytes, receipt.acceptedKeys, (receipt.screenGeneration % 0x10000).toNat⟩
    ⟨reply, active, [.sendKeys text keys request.interKeyDelayMs 100]⟩

def fileReadBegin (env : Env) (active : Option Transfer) (payload : Bytes) : Outcome :=
  match FileReadBeginRequest.decode payload with
  | .error e => ⟨.error e, active, []⟩
  | .ok request =>
    let path := cp437Decode request.path
    let calls := [Call.downloadFile path]
    match env.backend.downloadFile path with
    | .error e => ⟨.error e, active, calls⟩
    | .ok contents => match startTransfer env active .fileRead contents.data with
      | .error e => ⟨.error e, active, calls⟩
      | .ok transfer =>
        ⟨TransferBeginResponse.encode ⟨transfer.transferId, transfer.data.length⟩, some transfer, calls⟩

def maxUploadSize : Nat := 1048576

def fileWriteBegin (env : Env) (active : Option Transfer) (payload : Bytes) : Outcome :=
  match FileWriteBeginRequest.decode payload with
  | .error e => ⟨.error e, active, []⟩
  | .ok request =>
    if request.totalSize > maxUploadSize then
      ⟨.error (.valueError "upload exceeds simulator size limit"), active, []⟩
    else match startTransfer env active .fileWrite [] with
      | .error e => ⟨.error e, active, []⟩
      | .ok transfer =>
        ⟨TransferBeginResponse.encode ⟨transfer.transferId, request.totalSize⟩,
          some { transfer with path := cp437Decode request.path, expectedSize := request.totalSize,
                               expectedCrc32 := request.crc32, overwrite := request.overwrite }, []⟩

def fileAbort (active : Option Transfer) (payload : Bytes) : Outcome :=
  match TransferEndRequest.decode payload with
  | .error e => ⟨.error e, active, []⟩
  | .ok request => match active with
    | none => ⟨.ok [], none, []⟩
    | some transfer => ⟨.ok [], if transfer.transferId = request.transferId then none else active, []⟩

def graphicsBegin (env : Env) (active : Option Transfer) (payload : Bytes) : Outcome :=
  match requireEmpty payload with
  | .error e => ⟨.error e, active, []⟩
  | .ok () => match env.backend.captureGraphics with
    | .error e => ⟨.error e, active, [.captureGraphics]⟩
    | .ok graphics => match startTransfer env active .graphics graphics.data with
      | .error e => ⟨.error e, active, [.captureGraphics]⟩
      | .ok transfer =>
        ⟨graphicsBeginMessage graphics transfer.transferId >>= GraphicsBeginResponse.encode, some transfer,
          [.captureGraphics]⟩

/-- A decoded request handed to its operation, or the decoder's exception. -/
def withRequest {α : Type} (active : Option Transfer) (request : Except Exc α) (run : α → Outcome) : Outcome :=
  match request with
  | .error e => ⟨.error e, active, []⟩
  | .ok r => run r

/-- The branches of `_dispatch`; nothing where the operation is not implemented. -/
def operate (env : Env) (active : Option Transfer) (opcode : Opcode) (payload : Bytes) : Option Outcome :=
  match opcode with
  | .getStatus =>
    some (observe active payload .getStatus env.backend.getStatus fun status => statusMessage status >>= StatusMessage.encode)
  | .getCapabilities =>
    some (observe active payload .getCapabilities env.backend.getCapabilities fun c => (capabilitiesMessage c).encode)
  | .captureTextScreen =>
    some (observe active payload .captureScreen env.backend.captureScreen fun screen => (screenMessage screen).encode)
  | .sendKeys => some (sendKeysOperation env active payload)
  | .ping => some ⟨.ok payload, active, []⟩
  | .fileReadBegin => some (fileReadBegin env active payload)
  | .fileReadBlock =>
    some (withRequest active (TransferBlockRequest.decode payload false) fun r => readTransferBlock active r .fileRead)
  | .fileReadEnd => some (withRequest active (TransferEndRequest.decode payload) fun r => endReadTransfer active r .fileRead)
  | .fileWriteBegin => some (fileWriteBegin env active payload)
  | .fileWriteBlock =>
    some (withRequest active (TransferBlockRequest.decode payload true) fun r => writeTransferBlock active r)
  | .fileWriteCommit =>
    some (withRequest active (TransferEndRequest.decode payload) fun r => commitWriteTransfer env active r)
  | .fileAbort => some (fileAbort active payload)
  | .graphicsBegin => some (graphicsBegin env active payload)
  | .graphicsBlock =>
    some (withRequest active (TransferBlockRequest.decode payload false) fun r => readTransferBlock active r .graphics)
  | .graphicsEnd => some (withRequest active (TransferEndRequest.decode payload) fun r => endReadTransfer active r .graphics)
  | .hello | .cancel | .getDiagnostics => none

/-! ## Replies -/

/-- The request `_dispatch` was run for. -/
structure Dispatch where
  opcode : Opcode
  requestId : Nat
  payload : Bytes
  deriving DecidableEq, Repr

/-- What one call of `handle_datagram` did. -/
structure Result where
  server : UdpAgentServer
  sent : List (Address × Bytes)
  calls : List Call
  dispatched : Option Dispatch
  raised : Option Exc

def UdpAgentServer.idle (s : UdpAgentServer) : Result := ⟨s, [], [], none, none⟩

/-- `while len(cache) > 4: cache.pop(next(iter(cache)))`. -/
def trimCache (cache : Dict Nat (List Bytes)) : Dict Nat (List Bytes) := cache.drop (cache.length - 4)

def UdpAgentServer.sendResponse (s : UdpAgentServer) (session : Session) (kind : MessageKind) (opcode : Opcode)
    (requestId : Nat) (payload : Bytes) : Result :=
  match fragmentMessage kind opcode session.sessionId requestId payload with
  | .error e => ⟨{ s with session := some session }, [], [], none, some e⟩
  | .ok packets =>
    let encoded := packets.map (·.encode session.key)
    let session := { session with lastRequestId := some requestId
                                  responseCache := trimCache (session.responseCache.set requestId encoded) }
    if s.dropFirstResponse ∧ ¬ s.droppedResponse then
      ⟨{ s with session := some session, droppedResponse := true }, [], [], none, none⟩
    else ⟨{ s with session := some session }, encoded.map (session.address, ·), [], none, none⟩

def UdpAgentServer.sendError (s : UdpAgentServer) (session : Session) (opcode : Opcode) (requestId : Nat)
    (code : ErrorCode) (message : String) : Result :=
  s.sendResponse session .error opcode requestId (encodeError code message)

def UdpAgentServer.sendCached (s : UdpAgentServer) (session : Session) (requestId : Nat) : Result :=
  ⟨s, ((session.responseCache.get? requestId).getD []).map (session.address, ·), [], none, none⟩

def UdpAgentServer.dispatch (s : UdpAgentServer) (session : Session) (env : Env) (opcode : Opcode) (requestId : Nat)
    (payload : Bytes) : Result :=
  let dispatched := some ⟨opcode, requestId, payload⟩
  match operate env s.transfer opcode payload with
  | none =>
    { s.sendError session opcode requestId .unsupportedOperation "operation is not implemented" with
      dispatched := dispatched }
  | some outcome =>
    let s := { s with transfer := outcome.transfer }
    let result := match outcome.reply with
      | .ok response => s.sendResponse session .response opcode requestId response
      | .error e => match e.valueText? with
        | some text => s.sendError session opcode requestId .invalidArgument text
        | none => s.sendError session opcode requestId .internalFailure "target operation failed"
    { result with dispatched := dispatched, calls := outcome.calls }

/-! ## Datagrams -/

def requestIsNewer (candidate previous : Nat) : Bool :=
  let distance := ((candidate : Int) - previous) % 0x10000
  0 < distance ∧ distance < 0x8000

/-- The pending table with room for `requestId`: a fifth request pushes the oldest out. -/
def Session.pendingFor (session : Session) (requestId : Nat) : Dict Nat (Dict Nat Packet) :=
  if ¬ session.pending.has requestId ∧ session.pending.length ≥ 4 then session.pending.tail else session.pending

/-- The reassembly part of `handle_datagram`: store the fragment, dispatch a complete request. -/
def UdpAgentServer.acceptFragment (s : UdpAgentServer) (session : Session) (env : Env) (requestId : Nat)
    (packet : Packet) : Result :=
  let table := session.pendingFor requestId
  let fragments : Dict Nat Packet := ((table.get? requestId).getD []).set packet.fragmentIndex packet
  let table : Dict Nat (Dict Nat Packet) := table.set requestId fragments
  if fragments.length ≠ packet.fragmentCount then
    { s with session := some { session with pending := table } }.idle
  else
    let session := { session with pending := table.erase requestId }
    match reassemblePackets fragments.values with
    | .error _ => { s with session := some session }.idle
    | .ok payload => { s with session := some session }.dispatch session env packet.opcode requestId payload

/-- Whether the replay check refuses a request ID that has no cached response. -/
def Session.refuses (session : Session) (requestId : Nat) : Bool :=
  match session.lastRequestId with
  | none => false
  | some last => !requestIsNewer requestId last

def UdpAgentServer.handlePacket (s : UdpAgentServer) (session : Session) (env : Env) (requestId : Nat)
    (packet : Packet) : Result :=
  if session.responseCache.has packet.requestId then s.sendCached session packet.requestId
  else if session.refuses packet.requestId then
    s.sendError session packet.opcode packet.requestId .replayedRequest "request ID is outside the replay window"
  else s.acceptFragment session env requestId packet

def helloSessionId (clientNonce serverNonce : Nat) : Nat :=
  let sessionId := (serverNonce ^^^ clientNonce) &&& 0xFFFF
  if sessionId = 0 then 1 else sessionId

/-- `self._nonce_factory() & 0xFFFFFFFF`. -/
def Env.serverNonce (env : Env) : Nat := (env.nonce % 0x100000000).toNat

/-- A session as `_handle_hello` installs it. -/
def Session.fresh (address : Address) (sessionId : Nat) (key : Key) : Session where
  address := address
  sessionId := sessionId
  key := key
  lastRequestId := none
  responseCache := []
  pending := []

/-- The response packet of `_handle_hello`; its fields always fit (`helloResponsePacket_eq`). -/
def helloResponsePacket (requestId : Nat) (response : HelloResponse) : Except Exc Packet := do
  let payload ← response.encode
  Packet.make .response .hello response.sessionId requestId 0 1 payload 0

/-- `_handle_hello` behind its checks: answer, then replace the session and drop the transfer. -/
def UdpAgentServer.openSession (s : UdpAgentServer) (address : Address) (requestId : Nat) (response : HelloResponse) :
    Result :=
  match helloResponsePacket requestId response with
  | .error e => ⟨s, [], [], none, some e⟩
  | .ok p =>
    ⟨{ s with session := some (.fresh address response.sessionId
                (deriveSessionKey s.key response.clientNonce response.serverNonce)),
              transfer := none }, [(address, p.encode s.key)], [], none, none⟩

def UdpAgentServer.handleHello (s : UdpAgentServer) (env : Env) (datagram : Bytes) (address : Address) : Result :=
  match Packet.decode datagram s.key with
  | .error _ => s.idle
  | .ok packet => match HelloRequest.decode packet.payload with
    | .error _ => s.idle
    | .ok request =>
      s.openSession address packet.requestId
        ⟨request.clientNonce, env.serverNonce, helloSessionId request.clientNonce env.serverNonce, maxFragmentPayload⟩

def UdpAgentServer.handleDatagram (s : UdpAgentServer) (env : Env) (datagram : Bytes) (address : Address) : Result :=
  if datagram.length > maxDatagram ∨ datagram.length < headerSize then s.idle
  else
    let h := unpackHeader datagram
    if h.rawKind ≠ MessageKind.request.value then s.idle
    else if h.rawOpcode = Opcode.hello.value ∧ h.sessionId = 0 then s.handleHello env datagram address
    else match s.session with
      | none => s.idle
      | some session =>
        if session.address ≠ address ∨ session.sessionId ≠ h.sessionId then s.idle
        else match Packet.decode datagram session.key with
          | .error _ => s.idle
          | .ok packet => s.handlePacket session env h.requestId packet

end DosMcp
