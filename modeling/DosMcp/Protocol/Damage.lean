/-
  DosMcp.Protocol.Damage — what a damaged datagram decodes to.

  - `crc16Ccitt_message`: the source's bit loop is the division by X¹⁶ + X¹² + X⁵ + 1.
  - `crc16Ccitt_damaged`: strings that differ within two adjacent bytes have different CRCs.
  - `decode_damaged`: a datagram that differs from an encoding within two adjacent bytes, the
    length field untouched, raises `PacketError`. The CRC covers everything but itself and the
    tag, and these follow from the rest.
-/

import DosMcp.Lib.Crc
import DosMcp.Protocol.PacketProofs

namespace DosMcp

open Lib

/-! ## The CRC -/

theorem crc16Bit_eq : crc16Bit = shiftHigh 16 0x1021 := by
  funext crc
  have htop : (crc &&& 0x8000 ≠ 0) = (crc.testBit 15 = true) := propext (and_bit_ne_zero crc 15)
  have hmask : ∀ n, n &&& 0xFFFF = n % 2 ^ 16 := fun n => Nat.and_two_pow_sub_one_eq_mod n 16
  simp only [crc16Bit, shiftHigh, htop, hmask]

theorem crc16Ccitt_eq (data : Bytes) : crc16Ccitt data = data.foldl (feedHigh 16 0x1021) 0xFFFF := by
  have hbyte : crc16Byte = feedHigh 16 0x1021 := by
    funext crc value
    rw [crc16Byte, crc16Bit_eq]
    rfl
  rw [crc16Ccitt, hbyte]

/-- The CRC is the remainder of the message behind sixteen ones. -/
theorem crc16Ccitt_message (data : Bytes) : highPoly 16 (crc16Ccitt data) =
    checksum (generator 16 (highPoly 16 0x1021)) (highPoly 16 0xFFFF) (highMessage data) := by
  rw [crc16Ccitt_eq]
  exact feedHigh_message (by decide) _ _ _

/-- Strings of one length that differ within two adjacent bytes have different CRCs. -/
theorem crc16Ccitt_damaged {i n : Nat} (hn : n ≤ 2) {as bs : Bytes} (h : Damaged i n as bs) :
    crc16Ccitt as ≠ crc16Ccitt bs := by
  obtain ⟨front, window, window', back, rfl, rfl, hlength, hle, hne, -⟩ := h.split
  rw [crc16Ccitt_eq, crc16Ccitt_eq]
  exact feedHigh_burst (by decide) rfl _ front back hlength (by omega) hne

/-! ## The datagram -/

/-- What the CRC of a datagram is over. -/
def crcInput (d : Bytes) : Bytes := d.take 14 ++ d.drop headerSize

theorem crcInput_getElem? {d : Bytes} (hd : headerSize ≤ d.length) (j : Nat) :
    (crcInput d)[j]? = if j < 14 then d[j]? else d[j + 6]? := by
  unfold headerSize at hd
  have hlen : (d.take 14).length = 14 := by rw [List.length_take]; omega
  rw [crcInput, List.getElem?_append, hlen]
  split
  · rename_i hj
    rw [List.getElem?_take, if_pos hj]
  · rename_i hj
    have hshift : 20 + (j - 14) = j + 6 := by omega
    rw [headerSize, List.getElem?_drop, hshift]

theorem unpackHeader_payloadLength (d : Bytes) : (unpackHeader d).payloadLength = leNat (slice d 12 2) := rfl

theorem unpackHeader_checksum (d : Bytes) : (unpackHeader d).checksum = leNat (slice d 14 2) := rfl

theorem unpackHeader_tag (d : Bytes) : (unpackHeader d).tag = leNat (slice d 16 4) := rfl

theorem Packet.unpackHeader_self (p : Packet) (key : Key) : unpackHeader (p.encode key) = p.header key := by
  simpa using p.unpackHeader_encode key []

/-- The checks of an encoding, as its bytes hold them. -/
theorem Packet.encode_checks (p : Packet) (key : Key) :
    slice (p.encode key) 14 2 = leBytes 2 (crc16Ccitt (crcInput (p.encode key))) ∧
      slice (p.encode key) 16 4 = leBytes 4 (packetMac ((p.encode key).take 16 ++ (p.encode key).drop headerSize) key) := by
  obtain ⟨h14, h16, hpayload⟩ := p.encode_take key
  have hlen := p.encode_length key
  have hu := p.unpackHeader_self key
  have hchecksum : leNat (slice (p.encode key) 14 2) = (p.header key).checksum := by rw [← hu, unpackHeader_checksum]
  have htag : leNat (slice (p.encode key) 16 4) = (p.header key).tag := by rw [← hu, unpackHeader_tag]
  rw [crcInput, h14, h16, hpayload, ← p.header_checksum key, ← p.header_tag key, ← hchecksum, ← htag]
  exact ⟨(leBytes_leNat_slice (by rw [hlen, headerSize]; omega)).symm,
    (leBytes_leNat_slice (by rw [hlen, headerSize]; omega)).symm⟩

/-- The input of the CRC determines the whole encoding. -/
theorem Packet.encode_eq_of_crcInput {p q : Packet} {key : Key} (h : crcInput (p.encode key) = crcInput (q.encode key)) :
    p.encode key = q.encode key := by
  obtain ⟨hpcrc, hptag⟩ := p.encode_checks key
  obtain ⟨hqcrc, hqtag⟩ := q.encode_checks key
  have hfields : ∀ r : Packet, ((r.encode key).take 14).length = 14 := by
    intro r
    rw [(r.encode_take key).1]
    exact packFields_length rfl
  obtain ⟨htake, hdrop⟩ := List.append_inj h (by rw [hfields p, hfields q])
  have hauth : ∀ r : Packet, (r.encode key).take 16 = (r.encode key).take 14 ++ slice (r.encode key) 14 2 := by
    intro r
    rw [← slice_zero_eq_take, ← slice_zero_eq_take]
    exact (slice_append_slice (r.encode key) (show 0 + 14 = 14 from rfl) (show 14 + 2 = 16 from rfl)).symm
  have hwhole : ∀ r : Packet, r.encode key = (r.encode key).take 16 ++ slice (r.encode key) 16 4 ++ (r.encode key).drop headerSize := by
    intro r
    have hhead : (r.encode key).take 16 ++ slice (r.encode key) 16 4 = (r.encode key).take headerSize := by
      rw [← slice_zero_eq_take, ← slice_zero_eq_take]
      exact slice_append_slice _ rfl rfl
    rw [hhead, List.take_append_drop]
  have h16 : (p.encode key).take 16 = (q.encode key).take 16 := by rw [hauth p, hauth q, hpcrc, hqcrc, h, htake]
  rw [hwhole p, hwhole q, hptag, hqtag, h16, hdrop]

theorem crcInput_damaged {i : Nat} {d e : Bytes} (h : Damaged i 2 d e) (hd : headerSize ≤ d.length)
    (hne : crcInput d ≠ crcInput e) : Damaged (if i < 14 then i else i - 6) 2 (crcInput d) (crcInput e) := by
  have hlength := h.length_eq
  refine ⟨?_, hne, ?_⟩
  · simp only [crcInput, List.length_append, List.length_take, List.length_drop, hlength]
  · intro j hj
    rw [crcInput_getElem? hd, crcInput_getElem? (by omega)]
    split
    · exact h.same j (by split at hj <;> omega)
    · exact h.same (j + 6) (by split at hj <;> omega)

/-- Two encodings of one length do not differ within two adjacent bytes only, as long as
    the length field is the same. -/
theorem Packet.encode_not_damaged {p q : Packet} {key : Key} {i : Nat} (h13 : (p.encode key)[13]? = (q.encode key)[13]?) :
    ¬ Damaged i 2 (p.encode key) (q.encode key) := by
  intro h
  have hpd : headerSize ≤ (p.encode key).length := by rw [p.encode_length]; omega
  have hqd : headerSize ≤ (q.encode key).length := by rw [q.encode_length]; omega
  have hne : crcInput (p.encode key) ≠ crcInput (q.encode key) := fun hsame => h.differ (encode_eq_of_crcInput hsame)
  have hcrc := crc16Ccitt_damaged (Nat.le_refl 2) (crcInput_damaged h hpd hne)
  by_cases hwindow : 13 ≤ i ∧ i ≤ 15
  · -- the damage is in the CRC or in the tag, which the CRC does not cover
    apply hne
    apply List.ext_getElem?
    intro j
    rw [crcInput_getElem? hpd, crcInput_getElem? hqd]
    split
    · by_cases hj : j = 13
      · rw [hj, h13]
      · exact h.same j (by omega)
    · exact h.same (j + 6) (by omega)
  · -- the stored CRC is the same, so what it covers has the same CRC
    apply hcrc
    have hstored : slice (p.encode key) 14 2 = slice (q.encode key) 14 2 := h.slice_eq (by omega)
    rw [(p.encode_checks key).1, (q.encode_checks key).1] at hstored
    have hvalue := congrArg leNat hstored
    rwa [leNat_leBytes (crc16Ccitt_lt _), leNat_leBytes (crc16Ccitt_lt _)] at hvalue

/-! ## Decoding -/

/-- A datagram as long as an encoding, with the same length field, that decodes is an encoding. -/
theorem Packet.encode_of_decode_length {p q : Packet} {key : Key} {d : Bytes} (hlength : d.length = (p.encode key).length)
    (h12 : d[12]? = (p.encode key)[12]?) (h13 : d[13]? = (p.encode key)[13]?) (h : decode d key = .ok q) :
    d = q.encode key := by
  rcases decode_eq_ok_iff.mp h with h | h
  · exact h
  · -- the pad byte would make the datagram one byte longer than its length field says
    have hfield : slice d 12 2 = slice (p.encode key) 12 2 := by
      apply List.ext_getElem?
      intro j
      rw [slice, slice, List.getElem?_take, List.getElem?_take]
      split
      · rename_i hj
        rw [List.getElem?_drop, List.getElem?_drop]
        rcases Nat.le_one_iff_eq_zero_or_eq_one.mp (Nat.le_of_lt_succ hj) with rfl | rfl
        · exact h12
        · exact h13
      · rfl
    have hp : leNat (slice (p.encode key) 12 2) = p.payload.length := by
      rw [← unpackHeader_payloadLength, p.unpackHeader_self]
      rfl
    have hq : leNat (slice d 12 2) = q.payload.length := by
      rw [← unpackHeader_payloadLength, h, q.unpackHeader_encode]
      rfl
    rw [hfield, hp] at hq
    rw [h, List.length_append, List.length_singleton, q.encode_length, p.encode_length, hq] at hlength
    omega

/-- Damage within two adjacent bytes of a datagram, the length field untouched, is always
    detected: the CRC tells the strings apart. -/
theorem packet_damage_detected :
    (∀ (p : Packet) (k : Key) (d : Bytes) (i : Nat), Damaged i 2 (p.encode k) d → d[12]? = (p.encode k)[12]? →
      d[13]? = (p.encode k)[13]? → ∃ message, Packet.decode d k = .error (.packetError message)) ∧
    ∀ (as bs : Bytes) (i : Nat), Damaged i 2 as bs → crc16Ccitt as ≠ crc16Ccitt bs := by
  refine ⟨?_, fun as bs i h => crc16Ccitt_damaged (Nat.le_refl 2) h⟩
  intro p k d i h h12 h13
  cases hr : Packet.decode d k with
  | error e =>
    obtain ⟨message, rfl⟩ := Packet.decode_error hr
    exact ⟨message, rfl⟩
  | ok q =>
    have hd := Packet.encode_of_decode_length h.length_eq.symm h12 h13 hr
    subst hd
    exact absurd h (Packet.encode_not_damaged h13.symm)

theorem bytePacket_payload : ([7] : Bytes).length ≤ maxFragmentPayload := by decide

/-- A packet with one byte of payload. -/
def bytePacket : Packet :=
  ⟨.request, .hello, 0, 0, 0, 1, [7], 0, Packet.flags_none, Packet.session_none, Packet.session_none, Packet.single_range,
    Packet.single_index, bytePacket_payload⟩

def blankKey : Key := ⟨List.replicate 16 0, zeros_length⟩

theorem bytePacket_damage_detected :
    (∃ message, Packet.decode ((bytePacket.encode blankKey).set 20 8) blankKey = .error (.packetError message)) ∧
      crc16Ccitt [7] ≠ crc16Ccitt [8] := by
  have hpayload : (bytePacket.encode blankKey)[20]? ≠ some 8 := by
    have hdrop : (bytePacket.encode blankKey).drop 20 = [7] := (bytePacket.encode_take blankKey).2.2
    have hget := @List.getElem?_drop _ (bytePacket.encode blankKey) 20 0
    rw [hdrop] at hget
    rw [← hget]
    decide
  have hlength : 20 < (bytePacket.encode blankKey).length := by
    rw [Packet.encode_length]
    decide
  have hset : Damaged 20 2 (bytePacket.encode blankKey) ((bytePacket.encode blankKey).set 20 8) :=
    (damaged_set hlength hpayload).mono (by decide)
  have hbyte : Damaged 0 2 ([7] : Bytes) ([7].set 0 8) := (damaged_set (by decide) (by decide)).mono (by decide)
  refine ⟨packet_damage_detected.1 bytePacket blankKey _ 20 hset ?_ ?_, packet_damage_detected.2 [7] [8] 0 hbyte⟩
  · rw [List.getElem?_set_ne (by decide)]
  · rw [List.getElem?_set_ne (by decide)]

end DosMcp
