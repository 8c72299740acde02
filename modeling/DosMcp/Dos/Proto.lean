/-
  DosMcp.Dos.Proto — `dmproto.c`: the DOS agents' packet codec, CRC-16, the Speck32/64
  CBC-MAC and the XTEA key derivation, in the source's 8, 16 and 32-bit words.

  A buffer and its length are one byte string (a `dm_u16` length, so at most 65535
  bytes); a result code is an `Except DmError`. `memcpy` into the scratch area and the
  writes into `output` are the concatenations they leave there.
-/

import DosMcp.Lib.Bytes
import Mathlib.Logic.Function.Iterate

namespace DosMcp.Dos

open Lib

/-- `DM_ERR_*`. -/
inductive DmError where
  | truncated
  | magic
  | version
  | length
  | fragment
  | crc
  | auth
  | buffer
  | enum
  deriving DecidableEq, Repr

def DmError.code : DmError → Int
  | .truncated => -1
  | .magic => -2
  | .version => -3
  | .length => -4
  | .fragment => -5
  | .crc => -6
  | .auth => -7
  | .buffer => -8
  | .enum => -9

def dmVersion : UInt8 := 2
def dmHeaderSize : UInt16 := 20
def dmMaxFragmentPayload : UInt16 := 1024
def dmMaxFragments : UInt8 := 32
def dmKindRequest : UInt8 := 1
def dmKindResponse : UInt8 := 2
def dmKindError : UInt8 := 3
def dmOpHello : UInt8 := 1
def dmOpMax : UInt8 := 18

/-- `dm_packet`; `payload` is the `payload_length` bytes at the pointer. -/
structure DmPacket where
  kind : UInt8
  opcode : UInt8
  flags : UInt8
  sessionId : UInt16
  requestId : UInt16
  fragmentIndex : UInt8
  fragmentCount : UInt8
  payload : Bytes
  deriving DecidableEq, Repr

def DmPacket.payloadLength (p : DmPacket) : UInt16 := .ofNat p.payload.length

/-! ## Words -/

def dmGetU16 (value : Bytes) (i : Nat) : UInt16 :=
  (byteAt value i).toUInt16 ||| ((byteAt value (i + 1)).toUInt16 <<< 8)

def dmGetU32 (value : Bytes) (i : Nat) : UInt32 :=
  (byteAt value i).toUInt32 ||| ((byteAt value (i + 1)).toUInt32 <<< 8) |||
    ((byteAt value (i + 2)).toUInt32 <<< 16) ||| ((byteAt value (i + 3)).toUInt32 <<< 24)

def dmPutU16 (value : UInt16) : Bytes := [value.toUInt8, (value >>> 8).toUInt8]

def dmPutU32 (value : UInt32) : Bytes :=
  [value.toUInt8, (value >>> 8).toUInt8, (value >>> 16).toUInt8, (value >>> 24).toUInt8]

/-! ## CRC-16 -/

def dmCrc16Bit (crc : UInt16) : UInt16 := if crc &&& 0x8000 ≠ 0 then (crc <<< 1) ^^^ 0x1021 else crc <<< 1

def dmCrc16Byte (crc : UInt16) (value : UInt8) : UInt16 := dmCrc16Bit^[8] (crc ^^^ (value.toUInt16 <<< 8))

def dmCrc16Ccitt (data : Bytes) : UInt16 := data.foldl dmCrc16Byte 0xFFFF

/-! ## XTEA -/

structure DmXtea where
  left : UInt32
  right : UInt32
  sum : UInt32
  deriving DecidableEq, Repr

def dmXteaRound (words : List UInt32) (s : DmXtea) : DmXtea :=
  let left := s.left + ((((s.right <<< 4) ^^^ (s.right >>> 5)) + s.right) ^^^
    (s.sum + words.getD (s.sum &&& 3).toNat 0))
  let sum := s.sum + 0x9E3779B9
  let right := s.right + ((((left <<< 4) ^^^ (left >>> 5)) + left) ^^^ (sum + words.getD ((sum >>> 11) &&& 3).toNat 0))
  ⟨left, right, sum⟩

def dmXteaEncrypt (block key : Bytes) : Bytes :=
  let words := [dmGetU32 key 0, dmGetU32 key 4, dmGetU32 key 8, dmGetU32 key 12]
  let s := (dmXteaRound words)^[32] ⟨dmGetU32 block 0, dmGetU32 block 4, 0⟩
  dmPutU32 s.left ++ dmPutU32 s.right

def dmDeriveSessionKey (key : Bytes) (clientNonce serverNonce : UInt32) : Bytes :=
  dmXteaEncrypt (dmPutU32 clientNonce ++ dmPutU32 serverNonce) key ++
    dmXteaEncrypt (dmPutU32 (serverNonce ^^^ 0xA5A5A5A5) ++ dmPutU32 (clientNonce ^^^ 0x5A5A5A5A)) key

/-! ## Speck32/64 -/

/-- The loop variables of `dm_speck32_expand`. -/
structure DmExpand where
  roundKey : UInt16
  schedule : List UInt16
  slot : Nat
  roundKeys : List UInt16
  deriving DecidableEq, Repr

def dmExpandStep (s : DmExpand) (round : Nat) : DmExpand :=
  let word := s.schedule.getD s.slot 0
  let nextWord := (((word >>> 7) ||| (word <<< 9)) + s.roundKey) ^^^ UInt16.ofNat round
  let roundKey := ((s.roundKey <<< 2) ||| (s.roundKey >>> 14)) ^^^ nextWord
  { roundKey
    schedule := s.schedule.set s.slot nextWord
    slot := if s.slot + 1 = 3 then 0 else s.slot + 1
    roundKeys := s.roundKeys ++ [roundKey] }

def dmExpandStart (key : Bytes) : DmExpand :=
  ⟨dmGetU16 key 0, [dmGetU16 key 2, dmGetU16 key 4, dmGetU16 key 6], 0, [dmGetU16 key 0]⟩

def dmSpeck32Expand (key : Bytes) : List UInt16 := ((List.range 21).foldl dmExpandStep (dmExpandStart key)).roundKeys

def dmSpeckRound (roundKeys : List UInt16) (s : UInt16 × UInt16) (round : Nat) : UInt16 × UInt16 :=
  let left := (((s.1 >>> 7) ||| (s.1 <<< 9)) + s.2) ^^^ roundKeys.getD round 0
  let right := ((s.2 <<< 2) ||| (s.2 >>> 14)) ^^^ left
  (left, right)

def dmSpeck32Encrypt (block : Bytes) (roundKeys : List UInt16) : Bytes :=
  let s := (List.range 22).foldl (dmSpeckRound roundKeys) (dmGetU16 block 0, dmGetU16 block 2)
  dmPutU16 s.1 ++ dmPutU16 s.2

/-! ## The packet MAC -/

/-- `dm_mac_context` (its `length` is never read). -/
structure DmMac where
  state : Bytes
  block : Bytes
  used : Nat
  roundKeys : List UInt16
  deriving DecidableEq, Repr

def dmMacBlock (c : DmMac) : DmMac :=
  { c with state := dmSpeck32Encrypt (c.state.zipWith (· ^^^ ·) c.block) c.roundKeys, used := 0 }

def dmMacFeed (c : DmMac) (value : UInt8) : DmMac :=
  let c := { c with block := c.block.set c.used value, used := c.used + 1 }
  if c.used = 4 then dmMacBlock c else c

/-- `while (context.used != 0) dm_mac_feed(&context, 0)`; the buffer holds four bytes, so
    four turns are always enough (`dmMacPad_used`). -/
def dmMacPad : Nat → DmMac → DmMac
  | 0, c => c
  | fuel + 1, c => if c.used ≠ 0 then dmMacPad fuel (dmMacFeed c 0) else c

def dmPacketMac (data key : Bytes) : UInt32 :=
  let c : DmMac := ⟨[0, 0, 0, 0], [0, 0, 0, 0], 0, dmSpeck32Expand key⟩
  let c := data.foldl dmMacFeed c
  let c := dmMacFeed c 0x80
  let c := dmMacPad 4 c
  let c := (dmPutU32 (UInt16.ofNat data.length).toUInt32).foldl dmMacFeed c
  dmGetU32 (dmSpeck32Encrypt c.state (dmSpeck32Expand (key.drop 8))) 0

/-! ## Packets -/

def dmPacketEncode (packet : DmPacket) (key : Bytes) (outputCapacity : UInt16) : Except DmError Bytes :=
  if packet.flags ≠ 0 then .error .enum
  else if packet.kind < dmKindRequest ∨ packet.kind > dmKindError ∨ packet.opcode < dmOpHello ∨
      packet.opcode > dmOpMax then .error .enum
  else if packet.fragmentCount = 0 ∨ packet.fragmentCount > dmMaxFragments ∨
      packet.fragmentIndex ≥ packet.fragmentCount then .error .fragment
  else if packet.payloadLength > dmMaxFragmentPayload then .error .length
  else if outputCapacity < dmHeaderSize + packet.payloadLength then .error .buffer
  else
    let head := [0x44, 0x4D, dmVersion, packet.kind, packet.opcode, packet.flags] ++ dmPutU16 packet.sessionId ++
      dmPutU16 packet.requestId ++ [packet.fragmentIndex, packet.fragmentCount] ++ dmPutU16 packet.payloadLength
    let auth := head ++ dmPutU16 (dmCrc16Ccitt (head ++ packet.payload))
    .ok (auth ++ dmPutU32 (dmPacketMac (auth ++ packet.payload) key) ++ packet.payload)

def dmPacketDecode (datagram key : Bytes) : Except DmError DmPacket :=
  let datagramLength : UInt16 := .ofNat datagram.length
  if datagramLength < dmHeaderSize then .error .truncated
  else if byteAt datagram 0 ≠ 0x44 ∨ byteAt datagram 1 ≠ 0x4D then .error .magic
  else if byteAt datagram 2 ≠ dmVersion then .error .version
  else if byteAt datagram 5 ≠ 0 then .error .enum
  else if byteAt datagram 3 < dmKindRequest ∨ byteAt datagram 3 > dmKindError ∨ byteAt datagram 4 < dmOpHello ∨
      byteAt datagram 4 > dmOpMax then .error .enum
  else
    let payloadLength := dmGetU16 datagram 12
    if payloadLength > dmMaxFragmentPayload ∨ (datagramLength ≠ dmHeaderSize + payloadLength ∧
        (datagramLength ≠ dmHeaderSize + payloadLength + 1 ∨ byteAt datagram (datagramLength - 1).toNat ≠ 0)) then
      .error .length
    else if byteAt datagram 11 = 0 ∨ byteAt datagram 11 > dmMaxFragments ∨ byteAt datagram 10 ≥ byteAt datagram 11 then
      .error .fragment
    else
      let payload := slice datagram 20 payloadLength.toNat
      if dmCrc16Ccitt (datagram.take 14 ++ payload) ≠ dmGetU16 datagram 14 then .error .crc
      else if dmPacketMac (datagram.take 16 ++ payload) key ≠ dmGetU32 datagram 16 then .error .auth
      else .ok {
        kind := byteAt datagram 3
        opcode := byteAt datagram 4
        flags := byteAt datagram 5
        sessionId := dmGetU16 datagram 6
        requestId := dmGetU16 datagram 8
        fragmentIndex := byteAt datagram 10
        fragmentCount := byteAt datagram 11
        payload }

/-- What `dm_packet_decode` has checked, and the packet it returns. -/
structure Accepted (datagram key : Bytes) (packet : DmPacket) : Prop where
  header : ¬ UInt16.ofNat datagram.length < dmHeaderSize
  magic : byteAt datagram 0 = 0x44 ∧ byteAt datagram 1 = 0x4D
  version : byteAt datagram 2 = dmVersion
  flags : byteAt datagram 5 = 0
  kind : ¬ byteAt datagram 3 < dmKindRequest ∧ ¬ byteAt datagram 3 > dmKindError
  opcode : ¬ byteAt datagram 4 < dmOpHello ∧ ¬ byteAt datagram 4 > dmOpMax
  payloadLength : ¬ dmGetU16 datagram 12 > dmMaxFragmentPayload
  length : UInt16.ofNat datagram.length ≠ dmHeaderSize + dmGetU16 datagram 12 →
    UInt16.ofNat datagram.length = dmHeaderSize + dmGetU16 datagram 12 + 1 ∧
      byteAt datagram (UInt16.ofNat datagram.length - 1).toNat = 0
  fragment : byteAt datagram 11 ≠ 0 ∧ ¬ byteAt datagram 11 > dmMaxFragments ∧ ¬ byteAt datagram 10 ≥ byteAt datagram 11
  crc : dmCrc16Ccitt (datagram.take 14 ++ slice datagram 20 (dmGetU16 datagram 12).toNat) = dmGetU16 datagram 14
  mac : dmPacketMac (datagram.take 16 ++ slice datagram 20 (dmGetU16 datagram 12).toNat) key = dmGetU32 datagram 16
  packet_eq : packet = {
    kind := byteAt datagram 3
    opcode := byteAt datagram 4
    flags := byteAt datagram 5
    sessionId := dmGetU16 datagram 6
    requestId := dmGetU16 datagram 8
    fragmentIndex := byteAt datagram 10
    fragmentCount := byteAt datagram 11
    payload := slice datagram 20 (dmGetU16 datagram 12).toNat }

theorem dmPacketDecode_accepted {datagram key : Bytes} {packet : DmPacket} (h : dmPacketDecode datagram key = .ok packet) :
    Accepted datagram key packet := by
  simp only [dmPacketDecode] at h
  split at h
  · cases h
  rename_i hheader
  split at h
  · cases h
  rename_i hmagic
  split at h
  · cases h
  rename_i hversion
  split at h
  · cases h
  rename_i hflags
  split at h
  · cases h
  rename_i hrange
  split at h
  · cases h
  rename_i hlength
  split at h
  · cases h
  rename_i hfragment
  split at h
  · cases h
  rename_i hcrc
  split at h
  · cases h
  rename_i hmac
  simp only [ne_eq, not_or, not_and, not_not] at hmagic hrange hlength hfragment
  obtain ⟨hlow, hhigh, hopcode⟩ := hrange
  exact ⟨hheader, hmagic, not_not.mp hversion, not_not.mp hflags, ⟨hlow, hhigh⟩, hopcode, hlength.1, hlength.2, hfragment,
    not_not.mp hcrc, not_not.mp hmac, (Except.ok.inj h).symm⟩

end DosMcp.Dos
