/-
  DosMcp.System.Discovery — the advertisement on the discovery port: `DiscoveryAdvertisement` of
  the bridge and `send_discovery` of RA-TSR.

  - `Announced`: the datagram with the fields of an advertisement.
  - `encode_iff` / `decode_iff`: what is encoded is the datagram with the fields; what is decoded,
    that of an advertisement of the bridge's protocol version with known capabilities.
  - `discovery_format_exact`: the codecs are inverse, and RA-TSR writes what the bridge would.
-/

import DosMcp.Dos.ProtoProofs
import DosMcp.Dos.TransferProofs
import DosMcp.Dos.Worker
import DosMcp.Protocol.Codecs
import DosMcp.Runtime.Discovery

namespace DosMcp

open Lib

/-! ## Capability bits -/

/-- Masking the unknown bits out of a word leaves all of it exactly when it has none of them. -/
theorem unknown_eq_zero_iff {flags : Nat} (h : flags < 2 ^ 32) :
    flags &&& (0xFFFFFFFF ^^^ knownCapabilities) = 0 ↔ flags &&& knownCapabilities = flags := by
  have hbit : ∀ i, (flags &&& (0xFFFFFFFF ^^^ knownCapabilities)).testBit i =
      (flags.testBit i && (decide (i < 32) ^^ decide (i < 12))) := by
    intro i
    rw [Nat.testBit_and, Nat.testBit_xor]
    exact congrArg₂ (fun x y => flags.testBit i && (x ^^ y)) (Nat.testBit_two_pow_sub_one 32 i) (Nat.testBit_two_pow_sub_one 12 i)
  have hknown : ∀ i, (flags &&& knownCapabilities).testBit i = (flags.testBit i && decide (i < 12)) := by
    intro i
    rw [Nat.testBit_and]
    exact congrArg (flags.testBit i && ·) (Nat.testBit_two_pow_sub_one 12 i)
  constructor
  · intro hnone
    apply Nat.eq_of_testBit_eq
    intro i
    have hi := hbit i
    rw [hnone, Nat.zero_testBit] at hi
    rw [hknown]
    by_cases hlow : i < 12
    · simp [hlow]
    by_cases hword : i < 32
    · simpa [hlow, hword] using hi
    · rw [Nat.testBit_lt_two_pow (Nat.lt_of_lt_of_le h (Nat.pow_le_pow_right (by decide) (Nat.not_lt.mp hword))), Bool.false_and]
  · intro hall
    apply Nat.eq_of_testBit_eq
    intro i
    have hi := hknown i
    rw [hall] at hi
    rw [hbit, Nat.zero_testBit, hi]
    by_cases hlow : i < 12
    · simp [hlow, show i < 32 by omega]
    · simp [hlow]

/-- The capabilities are flags the bridge has names for. -/
def DiscoveryAdvertisement.Known (v : DiscoveryAdvertisement) : Prop := v.capabilities &&& knownCapabilities = v.capabilities

theorem DiscoveryAdvertisement.Known.lt {v : DiscoveryAdvertisement} (h : v.Known) : v.capabilities < 2 ^ 32 := by
  have hle : v.capabilities &&& knownCapabilities ≤ knownCapabilities := Nat.and_le_right
  rw [h] at hle
  exact Nat.lt_of_le_of_lt hle (by decide)

namespace DiscoveryAdvertisement

/-! ## The datagram of an advertisement -/

/-- The numbers between the magic and the adapter address. -/
def fields (v : DiscoveryAdvertisement) : List (Nat × Int) :=
  [(1, discoveryVersion), (1, v.protocolVersion), (1, v.openMode.toNat), (1, v.name.length), (2, v.port), (4, v.capabilities)]

/-- `datagram` has the fields of `v` at their places. -/
structure Announced (datagram : Bytes) (v : DiscoveryAdvertisement) : Prop where
  length : datagram.length = 22 + v.name.length
  magic : slice datagram 0 4 = [0x44, 0x4D, 0x44, 0x32]
  numbers : fieldsAt datagram [1, 1, 1, 1, 2, 4] 4 = v.fields
  agentId : slice datagram 14 6 = v.agentId
  name : slice datagram 20 v.name.length = v.name
  crc : leNat (slice datagram (20 + v.name.length) 2) = crc16Ccitt (slice datagram 0 (20 + v.name.length))

variable {datagram : Bytes} {v : DiscoveryAdvertisement}

/-! ## Encoding -/

theorem encode_eq : v.encode = structPack v.fields >>= fun head =>
    structPack [(2, (crc16Ccitt ([0x44, 0x4D, 0x44, 0x32] ++ head ++ v.agentId ++ v.name) : Int))] >>= fun crc =>
      pure ([0x44, 0x4D, 0x44, 0x32] ++ head ++ v.agentId ++ v.name ++ crc) :=
  rfl

theorem Announced.encode (h : Announced datagram v) : v.encode = .ok datagram := by
  have hlen := h.length
  have hpack : structPack v.fields = .ok (slice datagram 4 10) := by
    rw [← h.numbers]
    exact structPack_eq_ok.mpr (pack_fieldsAt (by rw [hlen]; simp; omega))
  have hbody : [0x44, 0x4D, 0x44, 0x32] ++ slice datagram 4 10 ++ v.agentId ++ v.name = slice datagram 0 (20 + v.name.length) := by
    rw [← h.magic, ← h.agentId, slice_append_slice _ rfl rfl, slice_append_slice _ rfl rfl]
    nth_rewrite 1 [← h.name]
    exact slice_append_slice _ rfl rfl
  have hcrc : structPack [(2, (crc16Ccitt (slice datagram 0 (20 + v.name.length)) : Int))] =
      .ok (slice datagram (20 + v.name.length) 2) := by
    rw [← h.crc]
    exact structPack_eq_ok.mpr (@pack_fieldsAt datagram [2] _ (by rw [hlen]; simp; omega))
  rw [encode_eq, hpack, ok_bind, hbody, hcrc, ok_bind, slice_append_slice _ (Nat.zero_add _) rfl]
  exact congrArg Except.ok (slice_of_length (by omega))

theorem announced_of_encode (h : v.encode = .ok datagram) : Announced datagram v := by
  rw [encode_eq] at h
  obtain ⟨head, hhead, h⟩ := bind_eq_ok.mp h
  obtain ⟨crc, hcrc, h⟩ := bind_eq_ok.mp h
  obtain rfl := Except.ok.inj h
  have hlength : head.length = 10 := structPack_length hhead
  have hcrcLength : crc.length = 2 := structPack_length hcrc
  have hid := v.agentId_length
  have hbody : ([0x44, 0x4D, 0x44, 0x32] ++ head ++ v.agentId ++ v.name).length = 20 + v.name.length := by
    simp only [List.length_append, List.length_cons, List.length_nil, hlength, hid]
  have hfront : ([0x44, 0x4D, 0x44, 0x32] ++ head ++ v.agentId).length + 0 = 20 := by
    simp only [List.length_append, List.length_cons, List.length_nil, hlength, hid]
  have hcrcAt := @slice_append_right _ crc _ 2 0 ((Nat.add_zero _).trans hbody)
  rw [slice_of_length hcrcLength] at hcrcAt
  have hbodyAt := @slice_append_left _ crc 0 _ ((Nat.zero_add _).trans_le hbody.ge)
  rw [slice_of_length hbody] at hbodyAt
  refine ⟨?_, ?_, ?_, ?_, ?_, ?_⟩
  · rw [List.length_append, hbody, hcrcLength]
    omega
  · rfl
  · simp only [List.append_assoc]
    exact (@fieldsAt_append_right [0x44, 0x4D, 0x44, 0x32] _ _ 0).trans (structPack_fieldsAt hhead _)
  · rw [slice_append_left _ (by omega), slice_append_left _ (by omega)]
    rw [@slice_append_right _ _ _ _ 0 (by simp [hlength])]
    exact slice_of_length hid
  · rw [slice_append_left _ hbody.ge, slice_append_right _ hfront]
    exact slice_of_length rfl
  · rw [hcrcAt, hbodyAt]
    have hread := structPack_fieldsAt hcrc []
    simp only [List.append_nil, List.map_cons, List.map_nil, fieldsAt, List.cons.injEq, Prod.mk.injEq, and_true, true_and,
      Nat.cast_inj] at hread
    rwa [slice_of_length hcrcLength] at hread

/-- What is encoded is the datagram with the fields of the advertisement. -/
theorem encode_iff : v.encode = .ok datagram ↔ Announced datagram v := ⟨announced_of_encode, Announced.encode⟩

/-- Only a capability beyond the 32 bits of its field is not encoded. -/
theorem exists_encode (h : v.capabilities < 2 ^ 32) : ∃ datagram, v.encode = .ok datagram := by
  obtain ⟨head, hhead⟩ : ∃ head, structPack v.fields = .ok head := by
    refine structPack_isOk_iff.mpr ?_
    have hname := v.name_range.2
    have hport := v.port_range.2
    have hversion := v.protocolVersion_le
    have hopen := v.openMode.toNat_lt
    unfold maxTargetNameBytes at hname
    simp [fields, discoveryVersion]
    omega
  have hcrc := pack_cons (crc16Ccitt_lt ([0x44, 0x4D, 0x44, 0x32] ++ head ++ v.agentId ++ v.name)) []
  rw [encode_eq, hhead, ok_bind, structPack_eq_ok.mpr hcrc]
  exact ⟨_, rfl⟩

/-! ## Decoding -/

theorem make_self (v : DiscoveryAdvertisement) :
    make v.name v.port v.capabilities v.agentId v.openMode v.protocolVersion = .ok v := by
  rw [make, dif_pos v.name_range, dif_pos v.name_visible, dif_pos v.port_range, dif_pos v.agentId_length,
    dif_pos v.protocolVersion_le]

/-- The constructor keeps what it is given, or raises `ValueError`. -/
theorem make_cases (name : Bytes) (port capabilities : Nat) (agentId : Bytes) (openMode : Bool) (protocolVersion : Nat) :
    (∃ v, make name port capabilities agentId openMode protocolVersion = .ok v ∧ v.name = name ∧ v.port = port ∧
        v.capabilities = capabilities ∧ v.agentId = agentId ∧ v.openMode = openMode ∧ v.protocolVersion = protocolVersion) ∨
      ∃ text, make name port capabilities agentId openMode protocolVersion = .error (.valueError text) := by
  unfold make
  split
  · split
    · split
      · split
        · split
          · exact Or.inl ⟨_, rfl, rfl, rfl, rfl, rfl, rfl, rfl⟩
          · exact Or.inr ⟨_, rfl⟩
        · exact Or.inr ⟨_, rfl⟩
      · exact Or.inr ⟨_, rfl⟩
    · exact Or.inr ⟨_, rfl⟩
  · exact Or.inr ⟨_, rfl⟩

theorem make_eq_ok {name : Bytes} {port capabilities : Nat} {agentId : Bytes} {openMode : Bool} {protocolVersion : Nat}
    (h : make name port capabilities agentId openMode protocolVersion = .ok v) :
    v.name = name ∧ v.port = port ∧ v.capabilities = capabilities ∧ v.agentId = agentId ∧ v.openMode = openMode ∧
      v.protocolVersion = protocolVersion := by
  obtain ⟨w, hw, hfields⟩ | ⟨text, htext⟩ := make_cases name port capabilities agentId openMode protocolVersion
  · rw [h] at hw
    obtain rfl := Except.ok.inj hw
    exact hfields
  · rw [h] at htext
    cases htext

theorem fails_make {name : Bytes} {port capabilities : Nat} {agentId : Bytes} {openMode : Bool} {protocolVersion : Nat} :
    Fails IsValueError (make name port capabilities agentId openMode protocolVersion) := by
  intro e h
  obtain ⟨w, hw, -⟩ | ⟨text, htext⟩ := make_cases name port capabilities agentId openMode protocolVersion
  · rw [h] at hw
    cases hw
  · rw [h] at htext
    exact ⟨text, Except.error.inj htext⟩

theorem fails_decode : Fails IsValueError (decode datagram) :=
  .bind fails_raiseIf fun _ _ => .bind fails_raiseIf fun _ _ => .bind fails_raiseIf fun _ _ => .bind fails_raiseIf fun _ _ =>
    .bind fails_raiseIf fun _ _ => .bind fails_raiseIf fun _ _ => .bind fails_raiseIf fun _ _ => .bind fails_raiseIf fun _ _ =>
      .bind fails_raiseIf fun _ _ => .bind fails_raiseIf fun _ _ => fails_make

theorem announced_of_decode (h : decode datagram = .ok v) : Announced datagram v ∧ v.protocolVersion = version ∧ v.Known := by
  simp only [decode, bind_eq_ok, raiseIf_eq_ok, not_not, not_lt] at h
  obtain ⟨_, -, _, hmagic, _, hformat, _, hversion, _, hflags, _, hknown, _, -, _, hlength, _, hcrc, _, -, hmake⟩ := h
  obtain ⟨e1, e2, e3, e4, e5, e6⟩ := make_eq_ok hmake
  have hbody : datagram.length - 2 = 20 + leNat (slice datagram 7 1) := by
    rw [hlength]
    rfl
  have hnameAt : v.name = slice datagram 20 (leNat (slice datagram 7 1)) := by
    rw [e1, hbody, List.drop_take, discoveryHeaderSize, Nat.add_sub_cancel_left]
    rfl
  have hcount : v.name.length = leNat (slice datagram 7 1) := by
    rw [hnameAt, slice_length_of_le]
    rw [hlength]
    exact Nat.le_add_right _ 2
  have hopen : v.openMode.toNat = leNat (slice datagram 6 1) := by
    rw [e5]
    interval_cases leNat (slice datagram 6 1) <;> rfl
  have htake : datagram.take (datagram.length - 2) = slice datagram 0 (20 + v.name.length) := by
    rw [hcount, ← hbody]
    rfl
  have hbodyLength : (slice datagram 0 (20 + v.name.length)).length = 20 + v.name.length := by
    rw [slice_length_of_le]
    omega
  refine ⟨⟨?_, hmagic, ?_, e4.symm, ?_, ?_⟩, e6.trans hversion, ?_⟩
  · rw [hcount, hlength, discoveryHeaderSize]
    omega
  · simp only [fieldsAt, fields, hcount, hopen, e2, e3, e6, hformat]
  · rw [hcount]
    exact hnameAt.symm
  · rw [htake, hbodyLength] at hcrc
    exact hcrc.symm
  · refine (unknown_eq_zero_iff ?_).mp ?_
    · rw [e3]
      exact leNat_slice_lt datagram 10 4
    · rw [e3]
      exact hknown

theorem Announced.decode (h : Announced datagram v) (hversion : v.protocolVersion = version) (hknown : v.Known) :
    decode datagram = .ok v := by
  have hnumbers := h.numbers
  simp only [fieldsAt, fields, Nat.reduceAdd, List.cons.injEq, Prod.mk.injEq, true_and, and_true, Nat.cast_inj] at hnumbers
  obtain ⟨h4, h5, h6, h7, h8, h10⟩ := hnumbers
  have hlength : datagram.length = discoveryHeaderSize + v.name.length + 2 := by
    rw [h.length, discoveryHeaderSize]
    omega
  have hbody : datagram.take (datagram.length - 2) = slice datagram 0 (20 + v.name.length) := by
    rw [hlength]
    rfl
  have hbodyLength : (slice datagram 0 (20 + v.name.length)).length = 20 + v.name.length := by
    rw [slice_length_of_le]
    rw [h.length]
    omega
  have hname : (slice datagram 0 (20 + v.name.length)).drop discoveryHeaderSize = v.name := by
    rw [slice_zero_eq_take, List.drop_take, discoveryHeaderSize, Nat.add_sub_cancel_left]
    exact h.name
  have hascii : v.name.all (· < 0x80) := by
    rw [List.all_eq_true]
    intro b hb
    have hvisible := of_decide_eq_true (v.name_visible b hb)
    exact decide_eq_true (Nat.lt_of_le_of_lt hvisible.2 (by decide))
  have hopen : decide (v.openMode.toNat = 1) = v.openMode := by cases v.openMode <;> rfl
  unfold DiscoveryAdvertisement.decode
  simp only [hbody, hbodyLength, hname, h.magic, h.agentId, h.crc, h4, h5, h6, h7, h8, h10]
  rw [raiseIf_false (by rw [hlength]; omega), ok_bind, raiseIf_false (not_not.mpr rfl), ok_bind,
    raiseIf_false (not_not.mpr rfl), ok_bind, raiseIf_false (not_not.mpr hversion), ok_bind,
    raiseIf_false (Nat.not_lt.mpr v.openMode.toNat_le), ok_bind,
    raiseIf_false (not_not.mpr ((unknown_eq_zero_iff hknown.lt).mpr hknown)), ok_bind,
    raiseIf_false (not_not.mpr v.name_range), ok_bind, raiseIf_false (not_not.mpr hlength), ok_bind,
    raiseIf_false (not_not.mpr rfl), ok_bind, raiseIf_false (not_not.mpr hascii), ok_bind, hopen, make_self]

/-- What is decoded is the datagram of an advertisement that the bridge can use. -/
theorem decode_iff : decode datagram = .ok v ↔ Announced datagram v ∧ v.protocolVersion = version ∧ v.Known :=
  ⟨announced_of_decode, fun ⟨h, hversion, hknown⟩ => h.decode hversion hknown⟩

end DiscoveryAdvertisement

/-! ## RA-TSR -/

section

open Dos

/-- What `send_discovery` can be configured with: a name of visible ASCII, a port and the
    adapter's address. -/
structure Advertised (c : Dos.Config) : Prop where
  name_range : 1 ≤ c.agentName.length ∧ c.agentName.length ≤ maxTargetNameBytes
  name_visible : ∀ b ∈ c.agentName, visibleByte b = true
  port : c.advertisedPort ≠ 0
  address : c.address.length = 6

/-- The access RA-TSR grants, in the bridge's flags. -/
def grantedCapabilities (c : Dos.Config) : Nat :=
  Capability.status.value ||| Capability.textCapture.value ||| Capability.keyboard.value ||| Capability.graphicsCapture.value |||
    (if c.allowFileRead then Capability.filesystemRead.value else 0) |||
    (if c.allowFileWrite then Capability.filesystemWrite.value else 0)

theorem agentCapabilities_toNat (c : Dos.Config) : (agentCapabilities .ratsr c).toNat = grantedCapabilities c := by
  unfold agentCapabilities grantedCapabilities
  dsimp only
  split <;> split <;> rfl

theorem Advertised.make {c : Dos.Config} (h : Advertised c) :
    ∃ v, DiscoveryAdvertisement.make c.agentName c.advertisedPort.toNat (grantedCapabilities c) c.address c.discoveryOpenMode
        version = .ok v := by
  have hport : 1 ≤ c.advertisedPort.toNat ∧ c.advertisedPort.toNat ≤ 0xFFFF :=
    ⟨Nat.pos_of_ne_zero fun hzero => h.port (UInt16.toNat_inj.mp hzero), Nat.le_of_lt_succ c.advertisedPort.toNat_lt⟩
  rw [DiscoveryAdvertisement.make, dif_pos h.name_range, dif_pos h.name_visible, dif_pos hport, dif_pos h.address,
    dif_pos (by decide)]
  exact ⟨_, rfl⟩

theorem pack_announcement {length : Nat} (h : length < 256 ^ 1) (openMode : UInt8) (port : UInt16) (flags : UInt32) :
    pack [(1, discoveryVersion), (1, version), (1, (openMode.toNat : Int)), (1, (length : Int)), (2, (port.toNat : Int)),
      (4, (flags.toNat : Int))] = some ([1, dmVersion, openMode, .ofNat length] ++ dmPutU16 port ++ dmPutU32 flags) := by
  have hformat : ((discoveryVersion : Nat) : Int) = (1 : UInt8).toNat := rfl
  have hversion : ((version : Nat) : Int) = dmVersion.toNat := rfl
  rw [hformat, hversion, pack_u8, pack_u8, pack_u8, pack_cons h, pack_u16, pack_u32, pack_nil, leBytes_one]
  simp only [Option.map_some, List.append_nil, List.append_assoc]
  rfl

/-- The payload of `send_discovery` is the encoding of what the bridge would make of its fields. -/
theorem Advertised.encode {c : Dos.Config} (h : Advertised c) {v : DiscoveryAdvertisement}
    (hv : DiscoveryAdvertisement.make c.agentName c.advertisedPort.toNat (grantedCapabilities c) c.address c.discoveryOpenMode
      version = .ok v) : v.encode = .ok (discoveryPayload c) := by
  obtain ⟨e1, e2, e3, e4, e5, e6⟩ := DiscoveryAdvertisement.make_eq_ok hv
  have hname : c.agentName.length < 256 ^ 1 := Nat.lt_of_le_of_lt h.name_range.2 (by decide)
  have hopen : v.openMode.toNat = (if c.discoveryOpenMode then 1 else 0 : UInt8).toNat := by
    rw [e5]
    cases c.discoveryOpenMode <;> rfl
  have hfields : structPack v.fields = .ok ([1, dmVersion, if c.discoveryOpenMode then 1 else 0, .ofNat c.agentName.length] ++
      dmPutU16 c.advertisedPort ++ dmPutU32 (agentCapabilities .ratsr c)) := by
    rw [structPack_eq_ok, DiscoveryAdvertisement.fields, e1, e2, e3, e6, hopen, ← agentCapabilities_toNat]
    exact pack_announcement hname _ _ _
  have hcrc : ∀ body, structPack [(2, (crc16Ccitt body : Int))] = .ok (dmPutU16 (dmCrc16Ccitt body)) := by
    intro body
    rw [structPack_eq_ok, ← dmCrc16Ccitt_toNat, pack_u16, pack_nil, Option.map_some, List.append_nil]
  rw [DiscoveryAdvertisement.encode_eq, hfields, ok_bind, hcrc, ok_bind, e1, e4]
  simp only [discoveryPayload, List.cons_append, List.append_assoc]
  rfl

end

/-- Every datagram is refused with `ValueError` or decoded to the advertisement that is encoded to
    it; an advertisement of the bridge's version with known flags is decoded from its encoding;
    and what RA-TSR broadcasts is the encoding of its name, port, access, address and mode. -/
theorem discovery_format_exact :
    (∀ datagram, (∃ v, DiscoveryAdvertisement.decode datagram = .ok v ∧ v.encode = .ok datagram) ∨
      ∃ text, DiscoveryAdvertisement.decode datagram = .error (.valueError text)) ∧
    (∀ v : DiscoveryAdvertisement, v.protocolVersion = version → v.Known →
      (v.encode >>= DiscoveryAdvertisement.decode) = .ok v) ∧
    ∀ c : Dos.Config, Advertised c →
      (DiscoveryAdvertisement.make c.agentName c.advertisedPort.toNat (grantedCapabilities c) c.address c.discoveryOpenMode
        version >>= DiscoveryAdvertisement.encode) = .ok (Dos.discoveryPayload c) := by
  refine ⟨fun datagram => ?_, fun v hversion hknown => ?_, fun c hc => ?_⟩
  · cases h : DiscoveryAdvertisement.decode datagram with
    | error e =>
      obtain ⟨text, rfl⟩ := DiscoveryAdvertisement.fails_decode e h
      exact Or.inr ⟨text, rfl⟩
    | ok v => exact Or.inl ⟨v, rfl, (DiscoveryAdvertisement.decode_iff.mp h).1.encode⟩
  · obtain ⟨datagram, hdatagram⟩ := DiscoveryAdvertisement.exists_encode hknown.lt
    rw [hdatagram, ok_bind]
    exact DiscoveryAdvertisement.decode_iff.mpr ⟨DiscoveryAdvertisement.encode_iff.mp hdatagram, hversion, hknown⟩
  · obtain ⟨v, hv⟩ := hc.make
    rw [hv, ok_bind]
    exact hc.encode hv

theorem sampleConfig_advertised : Advertised Dos.sampleConfig := ⟨by decide, by decide, by decide, rfl⟩

/-- A datagram too short, the advertisement of the sample configuration and its payload. -/
theorem discovery_format_exact_sample :
    (∃ text, DiscoveryAdvertisement.decode [0x44, 0x4D] = .error (.valueError text)) ∧
      (∃ v : DiscoveryAdvertisement, v.name = [0x44] ∧ v.port = 21300 ∧
        (v.encode >>= DiscoveryAdvertisement.decode) = .ok v) ∧
      (DiscoveryAdvertisement.make [0x44] 21300 2079 [2, 0, 0, 0, 0, 1] false 2 >>= DiscoveryAdvertisement.encode) =
        .ok (Dos.discoveryPayload Dos.sampleConfig) := by
  refine ⟨?_, ?_, ?_⟩
  · rcases discovery_format_exact.1 [0x44, 0x4D] with ⟨v, hv, -⟩ | h
    · cases hv
    · exact h
  · obtain ⟨v, hv⟩ := sampleConfig_advertised.make
    obtain ⟨e1, e2, e3, -, -, e6⟩ := DiscoveryAdvertisement.make_eq_ok hv
    have hknown : v.Known := by
      rw [DiscoveryAdvertisement.Known, e3]
      decide
    exact ⟨v, e1, e2, discovery_format_exact.2.1 v e6 hknown⟩
  · exact discovery_format_exact.2.2 Dos.sampleConfig sampleConfig_advertised

end DosMcp
