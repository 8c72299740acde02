/-
  DosMcp.Protocol.PacketProofs — the Python packet codec is exact.

  - `unpackHeader` and the header's `pack` are inverse: on every datagram that holds a
    header (`packHeader_unpackHeader`) and on every header whose fields fit
    (`unpackHeader_packHeader`).
  - `decode_eq_ok_iff`: a datagram decodes to `p` exactly when it is `p`'s encoding, or
    that followed by one zero byte. The pad byte cannot be confused with payload: the
    declared length is in the authenticated header.
  - `decode_error`: everything else raises `PacketError`.
-/

import DosMcp.Protocol.Packet

namespace DosMcp

open Lib

/-! ## The header -/

/-- Every field of a header fits its width. -/
structure Header.Fits (h : Header) : Prop where
  magic : h.magic.length = 2
  version : h.version < 256 ^ 1
  rawKind : h.rawKind < 256 ^ 1
  rawOpcode : h.rawOpcode < 256 ^ 1
  flags : h.flags < 256 ^ 1
  sessionId : h.sessionId < 256 ^ 2
  requestId : h.requestId < 256 ^ 2
  fragmentIndex : h.fragmentIndex < 256 ^ 1
  fragmentCount : h.fragmentCount < 256 ^ 1
  payloadLength : h.payloadLength < 256 ^ 2
  checksum : h.checksum < 256 ^ 2
  tag : h.tag < 256 ^ 4

def packHeader (h : Header) : Bytes := packAuth h ++ leBytes 4 h.tag

theorem packFields_unpackHeader {d : Bytes} (hd : headerSize ≤ d.length) : packFields (unpackHeader d) = d.take 14 := by
  unfold headerSize at hd
  simp only [packFields, unpackHeader]
  rw [leBytes_leNat_slice (by omega), leBytes_leNat_slice (by omega), leBytes_leNat_slice (by omega),
    leBytes_leNat_slice (by omega), leBytes_leNat_slice (by omega), leBytes_leNat_slice (by omega),
    leBytes_leNat_slice (by omega), leBytes_leNat_slice (by omega), leBytes_leNat_slice (by omega)]
  rw [slice_append_slice d rfl rfl, slice_append_slice d rfl rfl, slice_append_slice d rfl rfl,
    slice_append_slice d rfl rfl, slice_append_slice d rfl rfl, slice_append_slice d rfl rfl,
    slice_append_slice d rfl rfl, slice_append_slice d rfl rfl, slice_append_slice d rfl rfl]
  rfl

theorem packAuth_unpackHeader {d : Bytes} (hd : headerSize ≤ d.length) : packAuth (unpackHeader d) = d.take 16 := by
  have hd' : 14 + 2 ≤ d.length := by unfold headerSize at hd; omega
  rw [packAuth, packFields_unpackHeader hd]
  simp only [unpackHeader]
  rw [leBytes_leNat_slice hd', ← slice_zero_eq_take]
  exact slice_append_slice d rfl rfl

theorem packHeader_unpackHeader {d : Bytes} (hd : headerSize ≤ d.length) :
    packHeader (unpackHeader d) = d.take headerSize := by
  have hd' : 16 + 4 ≤ d.length := hd
  rw [packHeader, packAuth_unpackHeader hd]
  simp only [unpackHeader]
  rw [leBytes_leNat_slice hd', ← slice_zero_eq_take]
  exact slice_append_slice d rfl rfl

theorem packFields_length {h : Header} (hf : h.magic.length = 2) : (packFields h).length = 14 := by
  simp [packFields, hf]

theorem packHeader_length {h : Header} (hf : h.magic.length = 2) : (packHeader h).length = headerSize := by
  simp [packHeader, packAuth, packFields_length hf, headerSize]

theorem unpackHeader_packHeader {h : Header} (hf : h.Fits) (rest : Bytes) : unpackHeader (packHeader h ++ rest) = h := by
  obtain ⟨m, v, k, o, f, s, r, i, c, l, ch, t⟩ := h
  obtain ⟨hm, hv, hk, ho, hfl, hs, hr, hi, hc, hl, hch, ht⟩ := hf
  obtain ⟨m0, m1, rfl⟩ := List.length_eq_two.mp hm
  -- with the widths written out, each slice of the packed header is the bytes of its own field
  have e : packHeader ⟨[m0, m1], v, k, o, f, s, r, i, c, l, ch, t⟩ ++ rest =
      m0 :: m1 :: (leBytes 1 v ++ (leBytes 1 k ++ (leBytes 1 o ++ (leBytes 1 f ++ (leBytes 2 s ++ (leBytes 2 r ++
        (leBytes 1 i ++ (leBytes 1 c ++ (leBytes 2 l ++ (leBytes 2 ch ++ (leBytes 4 t ++ rest))))))))))) := by
    simp [packHeader, packAuth, packFields]
  rw [e]
  simp only [unpackHeader, Header.mk.injEq]
  refine ⟨rfl, ?_, ?_, ?_, ?_, ?_, ?_, ?_, ?_, ?_, ?_, ?_⟩
  · exact leNat_leBytes hv
  · exact leNat_leBytes hk
  · exact leNat_leBytes ho
  · exact leNat_leBytes hfl
  · exact leNat_leBytes hs
  · exact leNat_leBytes hr
  · exact leNat_leBytes hi
  · exact leNat_leBytes hc
  · exact leNat_leBytes hl
  · exact leNat_leBytes hch
  · exact leNat_leBytes ht

/-! ## What `encode` produces -/

/-- The header `encode` writes: the fields, the CRC over prefix and payload, the tag over
    the authenticated part and payload. -/
def Packet.header (p : Packet) (key : Key) : Header :=
  let checked : Header := { p.fields with checksum := crc16Ccitt (packFields p.fields ++ p.payload) }
  { checked with tag := packetMac (packAuth checked ++ p.payload) key }

/-- The authenticated part does not have the tag. -/
theorem packAuth_tag (h : Header) (tag : Nat) : packAuth { h with tag := tag } = packAuth h := rfl

/-- The prefix does not have the checksum. -/
theorem packFields_checksum (h : Header) (checksum : Nat) : packFields { h with checksum := checksum } = packFields h := rfl

theorem Packet.packAuth_header (p : Packet) (key : Key) : packAuth (p.header key) =
    packAuth { p.fields with checksum := crc16Ccitt (packFields p.fields ++ p.payload) } :=
  packAuth_tag _ _

theorem Packet.header_checksum (p : Packet) (key : Key) :
    (p.header key).checksum = crc16Ccitt (packFields p.fields ++ p.payload) := by
  simp only [header]

theorem Packet.header_tag (p : Packet) (key : Key) :
    (p.header key).tag = packetMac (packAuth (p.header key) ++ p.payload) key := by
  rw [packAuth_header]
  rfl

theorem Packet.encode_eq (p : Packet) (key : Key) : p.encode key = packHeader (p.header key) ++ p.payload := by
  rw [packHeader, header_tag, packAuth_header]
  rfl

theorem Packet.header_fits (p : Packet) (key : Key) : (p.header key).Fits where
  magic := rfl
  version := by simp only [header, fields, DosMcp.version]; decide
  rawKind := by have := p.kind.value_range; simp only [header, fields]; omega
  rawOpcode := by have := p.opcode.value_range; simp only [header, fields]; omega
  flags := by simp [header, fields, p.flags_zero]
  sessionId := by have := p.sessionId_le; simp only [header, fields]; omega
  requestId := by have := p.requestId_le; simp only [header, fields]; omega
  fragmentIndex := by
    have h1 := p.fragmentIndex_lt
    have h2 := p.fragmentCount_range.2
    simp only [header, fields, maxFragments] at *; omega
  fragmentCount := by have h2 := p.fragmentCount_range.2; simp only [header, fields, maxFragments] at *; omega
  payloadLength := by have h := p.payload_le; simp only [header, fields, maxFragmentPayload] at *; omega
  checksum := by rw [header_checksum]; exact crc16Ccitt_lt _
  tag := by rw [header_tag]; exact packetMac_lt _ _

theorem Packet.encode_length (p : Packet) (key : Key) : (p.encode key).length = headerSize + p.payload.length := by
  rw [encode_eq, List.length_append, packHeader_length (p.header_fits key).magic]

theorem Packet.unpackHeader_encode (p : Packet) (key : Key) (rest : Bytes) :
    unpackHeader (p.encode key ++ rest) = p.header key := by
  rw [encode_eq, List.append_assoc, unpackHeader_packHeader (p.header_fits key)]

theorem Packet.encode_take (p : Packet) (key : Key) :
    (p.encode key).take 14 = packFields p.fields ∧ (p.encode key).take 16 = packAuth (p.header key) ∧
      (p.encode key).drop headerSize = p.payload := by
  have hl : (packFields p.fields).length = 14 := packFields_length rfl
  have e : p.encode key = packFields p.fields ++ (leBytes 2 (p.header key).checksum ++ (leBytes 4 (p.header key).tag ++
      p.payload)) := by
    rw [encode_eq]; simp [packHeader, packAuth, packFields, header, fields]
  have e2 : packAuth (p.header key) = packFields p.fields ++ leBytes 2 (p.header key).checksum := by
    rw [packAuth_header, packAuth, packFields_checksum, header_checksum]
  refine ⟨?_, ?_, ?_⟩
  · rw [e, ← hl, List.take_left]
  · have hl2 : (packAuth (p.header key)).length = 16 := by rw [e2]; simp [hl]
    rw [e, ← List.append_assoc, ← e2, ← hl2, List.take_left]
  · rw [encode_eq, ← packHeader_length (h := p.header key) rfl, List.drop_left]

/-! ## Decoding -/

/-- The constructor accepts what a packet holds. -/
theorem Packet.make_self (p : Packet) :
    Packet.make p.kind p.opcode p.sessionId p.requestId p.fragmentIndex p.fragmentCount p.payload p.flags = .ok p := by
  simp only [make, p.flags_zero, p.sessionId_le, p.requestId_le, p.fragmentCount_range, p.fragmentIndex_lt, p.payload_le,
    and_self, dite_true]
  obtain ⟨_, _, _, _, _, _, _, _, rfl, _⟩ := p
  rfl

theorem Packet.make_eq_ok {kind : MessageKind} {opcode : Opcode} {s r i c f : Nat} {payload : Bytes} {p : Packet}
    (h : Packet.make kind opcode s r i c payload f = .ok p) :
    p.kind = kind ∧ p.opcode = opcode ∧ p.sessionId = s ∧ p.requestId = r ∧ p.fragmentIndex = i ∧
      p.fragmentCount = c ∧ p.payload = payload ∧ p.flags = f := by
  unfold make at h
  repeat' split at h
  all_goals first | (injection h with h; subst h; exact ⟨rfl, rfl, rfl, rfl, rfl, rfl, rfl, rfl⟩) | cases h

theorem Packet.decodeTrimmed_encode (p : Packet) (key : Key) : decodeTrimmed (p.header key) (p.encode key) key = .ok p := by
  obtain ⟨h14, h16, hpay⟩ := p.encode_take key
  have hcount : 1 ≤ (p.header key).fragmentCount ∧ (p.header key).fragmentCount ≤ maxFragments := p.fragmentCount_range
  have hindex : ¬ (p.header key).fragmentIndex ≥ (p.header key).fragmentCount := Nat.not_le.mpr p.fragmentIndex_lt
  have hkind : MessageKind.ofValue? (p.header key).rawKind = some p.kind := MessageKind.ofValue?_value _
  have hop : Opcode.ofValue? (p.header key).rawOpcode = some p.opcode := Opcode.ofValue?_value _
  have hcrc : crc16Ccitt (packFields p.fields ++ p.payload) = (p.header key).checksum := (p.header_checksum key).symm
  have hmac : packetMac (packAuth (p.header key) ++ p.payload) key = (p.header key).tag := (p.header_tag key).symm
  simp only [decodeTrimmed, hcount, hindex, hkind, hop, h14, h16, hpay, hcrc, hmac, and_self, not_true_eq_false, if_false,
    ne_eq]
  exact p.make_self

/-- Once the header checks pass, decoding is `decodeTrimmed` on the datagram without its pad. -/
theorem Packet.decode_of_header {d t : Bytes} {key : Key} (hd : headerSize ≤ d.length)
    (hm : (unpackHeader d).magic = magic) (hv : (unpackHeader d).version = version) (hf : (unpackHeader d).flags = 0)
    (hp : (unpackHeader d).payloadLength ≤ maxFragmentPayload)
    (ht : trimPad d (headerSize + (unpackHeader d).payloadLength) = some t) :
    decode d key = decodeTrimmed (unpackHeader d) t key := by
  simp only [decode, Nat.not_lt.mpr hd, hm, hv, hf, Nat.not_lt.mpr hp, ht, ne_eq, not_true_eq_false, if_false]

theorem Packet.trimPad_encode (p : Packet) (key : Key) :
    trimPad (p.encode key) (headerSize + p.payload.length) = some (p.encode key) := by
  rw [trimPad, p.encode_length, if_neg (by omega), if_pos rfl]

theorem Packet.trimPad_encode_pad (p : Packet) (key : Key) :
    trimPad (p.encode key ++ [0]) (headerSize + p.payload.length) = some (p.encode key) := by
  have hl := p.encode_length key
  have hb : byteAt (p.encode key ++ [0]) ((p.encode key ++ [0]).length - 1) = 0 := by simp [byteAt, List.getD_eq_getElem?_getD]
  rw [trimPad, if_pos ⟨by simp [hl], hb⟩, ← hl, List.take_left]

theorem Packet.decode_encode (p : Packet) (key : Key) : decode (p.encode key) key = .ok p := by
  have hu : unpackHeader (p.encode key) = p.header key := by simpa using p.unpackHeader_encode key []
  rw [decode_of_header (t := p.encode key) (by rw [p.encode_length]; omega), hu]
  · exact p.decodeTrimmed_encode key
  all_goals rw [hu]
  · rfl
  · rfl
  · exact p.flags_zero
  · exact p.payload_le
  · exact p.trimPad_encode key

theorem Packet.decode_encode_pad (p : Packet) (key : Key) : decode (p.encode key ++ [0]) key = .ok p := by
  have hu := p.unpackHeader_encode key [0]
  rw [decode_of_header (t := p.encode key) (by rw [List.length_append, p.encode_length]; omega), hu]
  · exact p.decodeTrimmed_encode key
  all_goals rw [hu]
  · rfl
  · rfl
  · exact p.flags_zero
  · exact p.payload_le
  · exact p.trimPad_encode_pad key

theorem dosTransport_decode (p : Packet) (key : Key) : Packet.decode (dosTransportDatagram (p.encode key)) key = .ok p := by
  unfold dosTransportDatagram
  split
  · exact p.decode_encode key
  · exact p.decode_encode_pad key

theorem dosTransport_length (p : Packet) (key : Key) : (dosTransportDatagram (p.encode key)).length ≤ maxDatagram := by
  have hp := p.payload_le
  unfold dosTransportDatagram
  split
  · rw [p.encode_length]
    simp only [headerSize, maxFragmentPayload, maxDatagram] at *
    omega
  · rw [List.length_append, p.encode_length, List.length_singleton]
    simp only [headerSize, maxFragmentPayload, maxDatagram] at *
    omega

/-! ## What decodes -/

theorem trimPad_eq_some {d t : Bytes} {n : Nat} (h : trimPad d n = some t) : t.length = n ∧ (d = t ∨ d = t ++ [0]) := by
  unfold trimPad at h
  split at h
  · rename_i hc
    obtain ⟨hl, hz⟩ := hc
    injection h with h
    subst h
    refine ⟨by simp [hl], Or.inr ?_⟩
    have hlast : d.drop n = [0] := by
      have hlen : (d.drop n).length = 1 := by simp [hl]
      obtain ⟨b, hb⟩ := List.length_eq_one_iff.mp hlen
      have hb' : byteAt d n = b := by
        have : d[n]? = some b := by rw [← List.head?_drop, hb]; rfl
        simp [byteAt, List.getD_eq_getElem?_getD, this]
      rw [hb, ← hb', show n = d.length - 1 by omega, hz]
    rw [← hlast, List.take_append_drop]
  · split at h
    · injection h with h; subst h; exact ⟨by assumption, Or.inl rfl⟩
    · cases h

theorem unpackHeader_append {t : Bytes} (ht : headerSize ≤ t.length) (rest : Bytes) :
    unpackHeader (t ++ rest) = unpackHeader t := by
  unfold headerSize at ht
  simp only [unpackHeader]
  rw [slice_append_left rest (by omega), slice_append_left rest (by omega), slice_append_left rest (by omega),
    slice_append_left rest (by omega), slice_append_left rest (by omega), slice_append_left rest (by omega),
    slice_append_left rest (by omega), slice_append_left rest (by omega), slice_append_left rest (by omega),
    slice_append_left rest (by omega), slice_append_left rest (by omega), slice_append_left rest (by omega)]

/-- Everything `decode` has checked when it reaches the checks behind the length. -/
theorem Packet.decode_eq_ok {d : Bytes} {key : Key} {p : Packet} (h : decode d key = .ok p) :
    headerSize ≤ d.length ∧ (unpackHeader d).magic = magic ∧ (unpackHeader d).version = version ∧
      (unpackHeader d).flags = 0 ∧ ∃ t, trimPad d (headerSize + (unpackHeader d).payloadLength) = some t ∧
        decodeTrimmed (unpackHeader d) t key = .ok p := by
  simp only [decode] at h
  split at h
  · cases h
  split at h
  · cases h
  split at h
  · cases h
  split at h
  · cases h
  split at h
  · cases h
  rename_i h1 h2 h3 h4 h5
  split at h
  · cases h
  · rename_i t ht
    exact ⟨Nat.not_lt.mp h1, not_not.mp h2, not_not.mp h3, not_not.mp h4, t, ht, h⟩

theorem Packet.decodeTrimmed_eq_ok {hd : Header} {t : Bytes} {key : Key} {p : Packet}
    (h : decodeTrimmed hd t key = .ok p) :
    p.kind.value = hd.rawKind ∧ p.opcode.value = hd.rawOpcode ∧ p.sessionId = hd.sessionId ∧ p.requestId = hd.requestId ∧
      p.fragmentIndex = hd.fragmentIndex ∧ p.fragmentCount = hd.fragmentCount ∧ p.payload = t.drop headerSize ∧
      crc16Ccitt (t.take 14 ++ p.payload) = hd.checksum ∧ packetMac (t.take 16 ++ p.payload) key = hd.tag := by
  simp only [decodeTrimmed] at h
  split at h
  · cases h
  split at h
  · cases h
  split at h
  · rename_i kind opcode hk ho
    split at h
    · cases h
    rename_i hcrc
    split at h
    · cases h
    rename_i hmac
    obtain ⟨e1, e2, e3, e4, e5, e6, e7, -⟩ := make_eq_ok h
    rw [e7, e1, e2]
    exact ⟨MessageKind.value_of_ofValue? hk, Opcode.value_of_ofValue? ho, e3, e4, e5, e6, rfl, not_not.mp hcrc,
      not_not.mp hmac⟩
  · cases h

theorem Packet.header_of_decodeTrimmed {t : Bytes} {key : Key} {p : Packet} (ht : headerSize ≤ t.length)
    (hlen : t.length = headerSize + (unpackHeader t).payloadLength) (hm : (unpackHeader t).magic = magic)
    (hv : (unpackHeader t).version = version) (hf : (unpackHeader t).flags = 0)
    (h : decodeTrimmed (unpackHeader t) t key = .ok p) : p.header key = unpackHeader t := by
  obtain ⟨hk, ho, hs, hr, hi, hc, hp, hcrc, hmac⟩ := decodeTrimmed_eq_ok h
  have hpl : p.payload.length = (unpackHeader t).payloadLength := by rw [hp, List.length_drop]; omega
  have hfields : packFields p.fields = t.take 14 := by
    rw [← packFields_unpackHeader ht]
    simp only [packFields, fields, hk, ho, hs, hr, hi, hc, hpl, hm, hv, hf, p.flags_zero]
  have hsum : crc16Ccitt (packFields p.fields ++ p.payload) = (unpackHeader t).checksum := by rw [hfields]; exact hcrc
  have hauth : packAuth { p.fields with checksum := (unpackHeader t).checksum } = t.take 16 := by
    rw [← packAuth_unpackHeader ht]
    simp only [packAuth, packFields, fields, hk, ho, hs, hr, hi, hc, hpl, hm, hv, hf, p.flags_zero]
  have htag : packetMac (packAuth { p.fields with checksum := (unpackHeader t).checksum } ++ p.payload) key =
      (unpackHeader t).tag := by rw [hauth]; exact hmac
  simp only [header, hsum, htag]
  simp only [fields, hk, ho, hs, hr, hi, hc, hpl, ← hm, ← hv, p.flags_zero]
  rw [← hf]

/-- A datagram that decodes is its packet's encoding, with or without the pad byte. -/
theorem Packet.encode_of_decode {d : Bytes} {key : Key} {p : Packet} (h : decode d key = .ok p) :
    d = p.encode key ∨ d = p.encode key ++ [0] := by
  obtain ⟨hd, hm, hv, hf, t, ht, h⟩ := decode_eq_ok h
  obtain ⟨hlen, hdt⟩ := trimPad_eq_some ht
  have htl : headerSize ≤ t.length := by omega
  have hu : unpackHeader d = unpackHeader t := by
    rcases hdt with rfl | rfl
    · rfl
    · exact unpackHeader_append htl _
  rw [hu] at hm hv hf hlen h
  have hp := (decodeTrimmed_eq_ok h).2.2.2.2.2.2.1
  have e : p.encode key = t := by
    rw [encode_eq, header_of_decodeTrimmed htl hlen hm hv hf h, packHeader_unpackHeader htl, hp, List.take_append_drop]
  rw [e]
  exact hdt

theorem Packet.decode_eq_ok_iff {d : Bytes} {key : Key} {p : Packet} :
    decode d key = .ok p ↔ d = p.encode key ∨ d = p.encode key ++ [0] := by
  constructor
  · exact encode_of_decode
  · rintro (rfl | rfl)
    · exact p.decode_encode key
    · exact p.decode_encode_pad key

/-- The constructor behind `decode`'s checks never raises. -/
theorem Packet.decodeTrimmed_error {h : Header} {t : Bytes} {key : Key} {e : Exc} (hf : h.flags = 0)
    (hs : h.sessionId < 256 ^ 2) (hr : h.requestId < 256 ^ 2) (hl : t.length ≤ headerSize + maxFragmentPayload)
    (he : decodeTrimmed h t key = .error e) : ∃ message, e = .packetError message := by
  simp only [decodeTrimmed] at he
  split at he
  · injection he with he; exact ⟨_, he.symm⟩
  rename_i hcount
  split at he
  · injection he with he; exact ⟨_, he.symm⟩
  rename_i hindex
  split at he
  · split at he
    · injection he with he; exact ⟨_, he.symm⟩
    split at he
    · injection he with he; exact ⟨_, he.symm⟩
    · have h1 : h.sessionId ≤ 0xFFFF := by omega
      have h2 : h.requestId ≤ 0xFFFF := by omega
      have h3 : (t.drop headerSize).length ≤ maxFragmentPayload := by rw [List.length_drop]; omega
      simp only [make, hf, h1, h2, not_not.mp hcount, Nat.not_le.mp hindex, h3, and_self, dite_true] at he
      cases he
  · injection he with he; exact ⟨_, he.symm⟩

/-- `decode` raises nothing but `PacketError`. -/
theorem Packet.decode_error {d : Bytes} {key : Key} {e : Exc} (h : decode d key = .error e) :
    ∃ message, e = .packetError message := by
  simp only [decode] at h
  split at h
  · injection h with h; exact ⟨_, h.symm⟩
  split at h
  · injection h with h; exact ⟨_, h.symm⟩
  split at h
  · injection h with h; exact ⟨_, h.symm⟩
  split at h
  · injection h with h; exact ⟨_, h.symm⟩
  split at h
  · injection h with h; exact ⟨_, h.symm⟩
  rename_i hflags hlen
  split at h
  · injection h with h; exact ⟨_, h.symm⟩
  · rename_i t ht
    exact decodeTrimmed_error (not_not.mp hflags) (leNat_slice_lt d 6 2) (leNat_slice_lt d 8 2)
      (by have := (trimPad_eq_some ht).1; omega) h

/-- The codec is exact: an encoding decodes to its packet with and without the pad byte
    (in particular as `_dos_transport_datagram` pads it), nothing else decodes to it, and
    every other datagram raises `PacketError`. -/
theorem packet_codec_exact (k : Key) :
    (∀ p : Packet, Packet.decode (p.encode k) k = .ok p ∧ Packet.decode (p.encode k ++ [0]) k = .ok p ∧
      Packet.decode (dosTransportDatagram (p.encode k)) k = .ok p) ∧
    ∀ d : Bytes, (∀ p, Packet.decode d k = .ok p → d = p.encode k ∨ d = p.encode k ++ [0]) ∧
      ((∀ p : Packet, d ≠ p.encode k ∧ d ≠ p.encode k ++ [0]) →
        ∃ message, Packet.decode d k = .error (.packetError message)) := by
  refine ⟨fun p => ⟨p.decode_encode k, p.decode_encode_pad k, ?_⟩, fun d => ⟨fun p h => Packet.encode_of_decode h, ?_⟩⟩
  · unfold dosTransportDatagram
    split
    · exact p.decode_encode k
    · exact p.decode_encode_pad k
  · intro hd
    cases hr : Packet.decode d k with
    | ok p =>
      rcases Packet.encode_of_decode hr with h | h
      · exact absurd h (hd p).1
      · exact absurd h (hd p).2
    | error e =>
      obtain ⟨message, rfl⟩ := Packet.decode_error hr
      exact ⟨message, rfl⟩

end DosMcp
