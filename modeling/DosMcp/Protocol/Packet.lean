/-
  DosMcp.Protocol.Packet — `protocol/packet.py`: the version-2 datagram, its encoding
  and validation, fragmentation and reassembly.

  A `Packet` carries the checks of `__post_init__` as fields, so every value is one
  the constructor accepts; `Packet.make` is the constructor call with its errors.
  `Packet.decode` keeps the order of the source's checks and their messages.
-/

import DosMcp.Lib.Dict
import DosMcp.Protocol.Constants
import DosMcp.Protocol.Crypto

namespace DosMcp

open Lib

/-- A UDP endpoint: host and port. -/
abbrev Address := String × Nat

/-- `_HEADER.size`. -/
def headerSize : Nat := 20

structure Packet where
  kind : MessageKind
  opcode : Opcode
  sessionId : Nat
  requestId : Nat
  fragmentIndex : Nat
  fragmentCount : Nat
  payload : Bytes
  flags : Nat
  flags_zero : flags = 0
  sessionId_le : sessionId ≤ 0xFFFF
  requestId_le : requestId ≤ 0xFFFF
  fragmentCount_range : 1 ≤ fragmentCount ∧ fragmentCount ≤ maxFragments
  fragmentIndex_lt : fragmentIndex < fragmentCount
  payload_le : payload.length ≤ maxFragmentPayload
  deriving DecidableEq

/-! A packet without flags, outside a session, alone in its message, passes the checks. -/

theorem Packet.flags_none : 0 = 0 := rfl

theorem Packet.session_none : 0 ≤ 0xFFFF := by decide

theorem Packet.single_range : 1 ≤ 1 ∧ 1 ≤ maxFragments := by decide

theorem Packet.single_index : 0 < 1 := by decide

/-- The constructor call: `__post_init__`'s checks in order. -/
def Packet.make (kind : MessageKind) (opcode : Opcode) (sessionId requestId fragmentIndex fragmentCount : Nat)
    (payload : Bytes) (flags : Nat) : Except Exc Packet :=
  if h1 : flags = 0 then
    if h2 : sessionId ≤ 0xFFFF then
      if h3 : requestId ≤ 0xFFFF then
        if h4 : 1 ≤ fragmentCount ∧ fragmentCount ≤ maxFragments then
          if h5 : fragmentIndex < fragmentCount then
            if h6 : payload.length ≤ maxFragmentPayload then
              .ok ⟨kind, opcode, sessionId, requestId, fragmentIndex, fragmentCount, payload, flags, h1, h2, h3, h4, h5, h6⟩
            else .error (.valueError "fragment payload is too large")
          else .error (.valueError "fragment_index is outside fragment_count")
        else .error (.valueError "invalid fragment_count")
      else .error (.valueError "request_id must fit in two bytes")
    else .error (.valueError "session_id must fit in two bytes")
  else .error (.valueError "protocol version 2 defines no packet flags")

/-! ## The header -/

/-- The fields of `_HEADER` as `unpack_from` returns them. -/
structure Header where
  magic : Bytes
  version : Nat
  rawKind : Nat
  rawOpcode : Nat
  flags : Nat
  sessionId : Nat
  requestId : Nat
  fragmentIndex : Nat
  fragmentCount : Nat
  payloadLength : Nat
  checksum : Nat
  tag : Nat
  deriving DecidableEq, Repr

def unpackHeader (d : Bytes) : Header where
  magic := slice d 0 2
  version := leNat (slice d 2 1)
  rawKind := leNat (slice d 3 1)
  rawOpcode := leNat (slice d 4 1)
  flags := leNat (slice d 5 1)
  sessionId := leNat (slice d 6 2)
  requestId := leNat (slice d 8 2)
  fragmentIndex := leNat (slice d 10 1)
  fragmentCount := leNat (slice d 11 1)
  payloadLength := leNat (slice d 12 2)
  checksum := leNat (slice d 14 2)
  tag := leNat (slice d 16 4)

/-- `_PREFIX.pack`. -/
def packFields (h : Header) : Bytes :=
  h.magic ++ leBytes 1 h.version ++ leBytes 1 h.rawKind ++ leBytes 1 h.rawOpcode ++ leBytes 1 h.flags ++
    leBytes 2 h.sessionId ++ leBytes 2 h.requestId ++ leBytes 1 h.fragmentIndex ++ leBytes 1 h.fragmentCount ++
    leBytes 2 h.payloadLength

/-- `_AUTH.pack`: the prefix and the checksum. -/
def packAuth (h : Header) : Bytes := packFields h ++ leBytes 2 h.checksum

/-- The header of a packet before its checksum and tag are known. -/
def Packet.fields (p : Packet) : Header where
  magic := DosMcp.magic
  version := DosMcp.version
  rawKind := p.kind.value
  rawOpcode := p.opcode.value
  flags := p.flags
  sessionId := p.sessionId
  requestId := p.requestId
  fragmentIndex := p.fragmentIndex
  fragmentCount := p.fragmentCount
  payloadLength := p.payload.length
  checksum := 0
  tag := 0

def Packet.encode (p : Packet) (key : Key) : Bytes :=
  let checksum := crc16Ccitt (packFields p.fields ++ p.payload)
  let authenticated := packAuth { p.fields with checksum := checksum }
  let tag := packetMac (authenticated ++ p.payload) key
  authenticated ++ leBytes 4 tag ++ p.payload

/-- The datagram without its transport pad byte, or nothing when its length does not
    match the declared one. -/
def trimPad (d : Bytes) (packetLength : Nat) : Option Bytes :=
  if d.length = packetLength + 1 ∧ byteAt d (d.length - 1) = 0 then some (d.take packetLength)
  else if d.length = packetLength then some d else none

/-- The checks of `decode` after the length is known to match: `d` has no pad byte. -/
def Packet.decodeTrimmed (h : Header) (d : Bytes) (key : Key) : Except Exc Packet :=
  if ¬ (1 ≤ h.fragmentCount ∧ h.fragmentCount ≤ maxFragments) then .error (.packetError "invalid fragment count")
  else if h.fragmentIndex ≥ h.fragmentCount then .error (.packetError "invalid fragment index")
  else match MessageKind.ofValue? h.rawKind, Opcode.ofValue? h.rawOpcode with
    | some kind, some opcode =>
      let payload := d.drop headerSize
      if crc16Ccitt (d.take 14 ++ payload) ≠ h.checksum then .error (.packetError "packet CRC mismatch")
      else if packetMac (d.take 16 ++ payload) key ≠ h.tag then .error (.packetError "packet authentication failed")
      else Packet.make kind opcode h.sessionId h.requestId h.fragmentIndex h.fragmentCount payload h.flags
    | _, _ => .error (.packetError "unknown message kind or opcode")

def Packet.decode (datagram : Bytes) (key : Key) : Except Exc Packet :=
  if datagram.length < headerSize then .error (.packetError "truncated packet header")
  else
    let h := unpackHeader datagram
    if h.magic ≠ magic then .error (.packetError "invalid packet magic")
    else if h.version ≠ version then .error (.packetError s!"unsupported protocol version {h.version}")
    else if h.flags ≠ 0 then .error (.packetError "unknown packet flags")
    else if h.payloadLength > maxFragmentPayload then .error (.packetError "declared payload exceeds fragment limit")
    else match trimPad datagram (headerSize + h.payloadLength) with
      | none => .error (.packetError "datagram length does not match payload length")
      | some d => decodeTrimmed h d key

/-- `_dos_transport_datagram`: odd requests get one zero byte for word-wide NIC DMA. -/
def dosTransportDatagram (datagram : Bytes) : Bytes :=
  if datagram.length % 2 = 0 then datagram else datagram ++ [0]

/-! ## Fragments -/

def fragmentMessage (kind : MessageKind) (opcode : Opcode) (sessionId requestId : Nat) (payload : Bytes) :
    Except Exc (List Packet) :=
  if payload.length > maxMessageSize then .error (.valueError "message exceeds maximum reassembled size")
  else
    let fragments := max 1 ((payload.length + maxFragmentPayload - 1) / maxFragmentPayload)
    (List.range fragments).mapM fun index =>
      Packet.make kind opcode sessionId requestId index fragments
        (slice payload (index * maxFragmentPayload) maxFragmentPayload) 0

def Packet.identity (p : Packet) : MessageKind × Opcode × Nat × Nat × Nat :=
  (p.kind, p.opcode, p.sessionId, p.requestId, p.fragmentCount)

def byIndex (values : List Packet) : Dict Nat Packet :=
  values.foldl (fun d p => d.set p.fragmentIndex p) []

/-- `by_index[index].payload`; a missing index would be a `KeyError`. -/
def partAt (d : Dict Nat Packet) (index : Nat) : Except Exc Bytes :=
  match d.get? index with
  | some p => .ok p.payload
  | none => .error .other

def reassemblePackets (values : List Packet) : Except Exc Bytes :=
  match values with
  | [] => .error (.packetError "cannot reassemble an empty packet set")
  | first :: _ =>
    if values.any (fun p => p.identity ≠ first.identity) then .error (.packetError "fragment identity mismatch")
    else
      let d := byIndex values
      if values.length ≠ d.length ∨ d.length ≠ first.fragmentCount then
        .error (.packetError "message has missing or duplicate fragments")
      else do
        let parts ← (List.range first.fragmentCount).mapM (partAt d)
        return parts.flatten

end DosMcp
