/-
  DosMcp.Client.Udp — `backends/udp.py`: the bridge's side of a request.

  `UdpBackend` is the connection state. One run of `_exchange_with_packet` is the state
  machine `Exchange`: it starts by sending its datagrams, then takes one event at a time,
  a datagram received (`receive`) or the deadline passing (`timeout`), until it returns or
  raises (`Progress.done`). Time enters only as the order of these events.
-/

import DosMcp.Lib.Dict
import DosMcp.Lib.Serial
import DosMcp.Protocol.Messages
import DosMcp.Protocol.Packet

namespace DosMcp

open Lib

/-- `(request_id + 1) & 0xFFFF or 1`. -/
def nextRequestId (requestId : Nat) : Nat :=
  let id := (requestId + 1) &&& 0xFFFF
  if id = 0 then 1 else id

structure UdpBackend where
  target : Address
  baseKey : Key
  retries : Nat
  allowFileRead : Bool
  allowFileWrite : Bool
  sessionId : Nat
  sessionKey : Option Key
  requestId : Nat
  closed : Bool

/-! ## One exchange -/

/-- The variables of `_exchange_with_packet`: `attempts` counts the sends still allowed. -/
structure Exchange where
  expected : Packet
  encoded : List Bytes
  key : Key
  attempts : Nat
  retries : Nat
  received : Dict Nat Packet
  ignored : Nat
  lastIgnored : String

inductive Progress where
  | waiting (x : Exchange)
  | done (result : Except Exc (Bytes × Packet))

/-- The start of an exchange, which sends `encoded` once; `packets[0]` needs a packet. -/
def Exchange.start (packets : List Packet) (key : Key) (retries : Nat) : Option Exchange :=
  match packets with
  | [] => none
  | expected :: _ => some
      { expected := expected, encoded := packets.map fun p => dosTransportDatagram (p.encode key), key := key,
        attempts := retries, retries := retries, received := [], ignored := 0, lastIgnored := "" }

/-- Whether a decoded packet answers the request. -/
def Exchange.matches (x : Exchange) (packet : Packet) : Bool :=
  packet.requestId = x.expected.requestId ∧ packet.opcode = x.expected.opcode ∧
    (x.expected.opcode = .hello ∨ packet.sessionId = x.expected.sessionId)

def Exchange.ignore (x : Exchange) (reason : String) : Exchange := { x with ignored := x.ignored + 1, lastIgnored := reason }

def Exchange.receivePacket (x : Exchange) (packet : Packet) : Progress :=
  if ¬ x.matches packet then
    .waiting (x.ignore s!"unexpected packet {packet.opcode.name}/{packet.requestId}/{packet.sessionId}")
  else match packet.kind with
    | .error => match decodeError packet.payload with
      | .error e => .done (.error e)
      | .ok (code, message) => .done (.error (.agentOperationError s!"{code.name}: {message}"))
    | .request => .waiting x
    | .response =>
      let received := x.received.set packet.fragmentIndex packet
      if received.length = packet.fragmentCount then
        .done (reassemblePackets received.values >>= fun payload => .ok (payload, packet))
      else .waiting { x with received := received }

/-- One datagram from the socket. -/
def Exchange.receive (x : Exchange) (target address : Address) (datagram : Bytes) : Progress :=
  if address ≠ target ∨ datagram.length > maxDatagram then .waiting x
  else match Packet.decode datagram x.key with
    | .error e => .waiting (x.ignore (e.valueText?.getD ""))
    | .ok packet => x.receivePacket packet

def Exchange.timeoutText (x : Exchange) : String :=
  let reason := if x.lastIgnored = "" then "" else ": " ++ x.lastIgnored
  s!"DOS agent did not complete {x.expected.opcode.name} after {x.retries + 1} attempts " ++
    s!"({x.received.length} response fragments received, {x.ignored} ignored{reason})"

/-- The deadline of one attempt: `encoded` is sent again, or the last attempt has failed. -/
def Exchange.timeout (x : Exchange) : Progress :=
  if x.attempts = 0 then .done (.error (.timeoutError x.timeoutText)) else .waiting { x with attempts := x.attempts - 1 }

/-! ## Requests and the handshake -/

/-- The packets of one `_request` in an established session. -/
def requestPackets (opcode : Opcode) (sessionId requestId : Nat) (payload : Bytes) : Except Exc (List Packet) :=
  fragmentMessage .request opcode sessionId requestId payload

/-- The datagrams of one `_request`, as every attempt sends them. -/
def requestDatagrams (key : Key) (packets : List Packet) : List Bytes :=
  packets.map fun p => dosTransportDatagram (p.encode key)

/-- The packet of `_handshake`. -/
def helloPacket (requestId clientNonce : Nat) : Except Exc Packet := do
  let payload ← HelloRequest.encode ⟨clientNonce⟩
  Packet.make .request .hello 0 requestId 0 1 payload 0

/-- What `_handshake` does with the response: the session it takes over, or its exception. -/
def UdpBackend.finishHandshake (b : UdpBackend) (clientNonce : Nat) (responsePayload : Bytes) (responsePacket : Packet) :
    Except Exc UdpBackend := do
  let response ← HelloResponse.decode responsePayload
  raiseIf (response.clientNonce ≠ clientNonce ∨ response.sessionId ≠ responsePacket.sessionId)
    (.agentOperationError "invalid hello response")
  return { b with sessionId := response.sessionId
                  sessionKey := some (deriveSessionKey b.baseKey clientNonce response.serverNonce) }

end DosMcp
