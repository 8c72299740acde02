/-
  DosMcp.Runtime.Discovery — `discovery.py`: the advertisement of RA-TSR as the bridge reads
  it, and what the listener hands out.
-/

import DosMcp.Protocol.Crypto
import DosMcp.Protocol.Constants
import DosMcp.Protocol.Messages
import DosMcp.Protocol.Packet

namespace DosMcp

open Lib

def discoveryPort : Nat := 21301
def discoveryVersion : Nat := 1
def maxTargetNameBytes : Nat := 31

/-- The size of `_HEADER`. -/
def discoveryHeaderSize : Nat := 20

/-- A visible ASCII byte. -/
def visibleByte (b : UInt8) : Bool := 33 ≤ b ∧ b ≤ 126

/-- `DiscoveryAdvertisement` with the checks of its constructor; the name in its ASCII form. -/
structure DiscoveryAdvertisement where
  name : Bytes
  port : Nat
  capabilities : Nat
  agentId : Bytes
  openMode : Bool
  protocolVersion : Nat
  name_range : 1 ≤ name.length ∧ name.length ≤ maxTargetNameBytes
  name_visible : ∀ b ∈ name, visibleByte b = true
  port_range : 1 ≤ port ∧ port ≤ 0xFFFF
  agentId_length : agentId.length = 6
  protocolVersion_le : protocolVersion ≤ 0xFF

def asciiString (bs : Bytes) : String := String.ofList (bs.map fun b => Char.ofNat b.toNat)

def hexDigitChar (n : Nat) : Char := if n < 10 then Char.ofNat (0x30 + n) else Char.ofNat (0x61 + (n - 10))

/-- `bytes.hex()`. -/
def hexString (bs : Bytes) : String :=
  String.ofList (bs.flatMap fun b => [hexDigitChar (b.toNat / 16), hexDigitChar (b.toNat % 16)])

def DiscoveryAdvertisement.stableId (a : DiscoveryAdvertisement) : String := hexString a.agentId

def DiscoveryAdvertisement.selector (a : DiscoveryAdvertisement) : String := asciiString a.name ++ "@" ++ a.stableId

instance (name : Bytes) : Decidable (∀ b ∈ name, visibleByte b = true) := List.decidableBAll (visibleByte · = true) name

/-- The constructor, where every check of `__post_init__` raises `ValueError`. -/
def DiscoveryAdvertisement.make (name : Bytes) (port capabilities : Nat) (agentId : Bytes) (openMode : Bool)
    (protocolVersion : Nat) : Except Exc DiscoveryAdvertisement :=
  if hname : 1 ≤ name.length ∧ name.length ≤ maxTargetNameBytes then
    if hvisible : ∀ b ∈ name, visibleByte b = true then
      if hport : 1 ≤ port ∧ port ≤ 0xFFFF then
        if hid : agentId.length = 6 then
          if hversion : protocolVersion ≤ 0xFF then
            .ok ⟨name, port, capabilities, agentId, openMode, protocolVersion, hname, hvisible, hport, hid, hversion⟩
          else .error (.valueError "protocol version must fit in one byte")
        else .error (.valueError "agent_id must be the six-byte adapter address")
      else .error (.valueError "target port is outside 1-65535")
    else .error (.valueError "target name must contain visible ASCII without spaces")
  else .error (.valueError "target name must contain 1-31 ASCII bytes")

def DiscoveryAdvertisement.encode (a : DiscoveryAdvertisement) : Except Exc Bytes := do
  let fields ← structPack [(1, discoveryVersion), (1, a.protocolVersion), (1, a.openMode.toNat), (1, a.name.length),
    (2, a.port), (4, a.capabilities)]
  let body := [0x44, 0x4D, 0x44, 0x32] ++ fields ++ a.agentId ++ a.name
  let crc ← structPack [(2, crc16Ccitt body)]
  pure (body ++ crc)

def DiscoveryAdvertisement.decode (datagram : Bytes) : Except Exc DiscoveryAdvertisement := do
  raiseIf (datagram.length < discoveryHeaderSize + 2) (.valueError "truncated discovery advertisement")
  let flags := leNat (slice datagram 6 1)
  let nameLength := leNat (slice datagram 7 1)
  let capabilities := leNat (slice datagram 10 4)
  raiseIf (slice datagram 0 4 ≠ [0x44, 0x4D, 0x44, 0x32]) (.valueError "invalid discovery magic")
  raiseIf (leNat (slice datagram 4 1) ≠ discoveryVersion) (.valueError "unsupported discovery format")
  raiseIf (leNat (slice datagram 5 1) ≠ version) (.valueError "unsupported agent protocol version")
  raiseIf (flags > 1) (.valueError "unknown discovery flags")
  raiseIf (capabilities &&& (0xFFFFFFFF ^^^ knownCapabilities) ≠ 0) (.valueError "unknown discovery capability flags")
  raiseIf (¬ (1 ≤ nameLength ∧ nameLength ≤ maxTargetNameBytes)) (.valueError "invalid discovery name length")
  raiseIf (datagram.length ≠ discoveryHeaderSize + nameLength + 2) (.valueError "discovery datagram length mismatch")
  let body := datagram.take (datagram.length - 2)
  raiseIf (crc16Ccitt body ≠ leNat (slice datagram body.length 2)) (.valueError "discovery CRC mismatch")
  let name := body.drop discoveryHeaderSize
  raiseIf (¬ name.all (· < 0x80)) (.valueError "invalid discovery fields")
  DiscoveryAdvertisement.make name (leNat (slice datagram 8 2)) capabilities (slice datagram 14 6) (flags = 1)
    (leNat (slice datagram 5 1))

structure DiscoveredTarget where
  advertisement : DiscoveryAdvertisement
  address : Address
  lastSeen : Nat

/-- A datagram on the discovery port: bytes, source host and the time it is read. -/
structure Announcement where
  datagram : Bytes
  host : String
  time : Nat

/-- One round of `DiscoveryListener.drain`: `recvfrom(256)` cuts the datagram, what does not
    decode is skipped. -/
def Announcement.target? (a : Announcement) : Option DiscoveredTarget :=
  match DiscoveryAdvertisement.decode (a.datagram.take 256) with
  | .error _ => none
  | .ok advertisement => some ⟨advertisement, (a.host, advertisement.port), a.time⟩

def drain (announcements : List Announcement) : List DiscoveredTarget := announcements.filterMap Announcement.target?

end DosMcp
