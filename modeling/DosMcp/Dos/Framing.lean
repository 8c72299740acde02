/-
  DosMcp.Dos.Framing — `send_to` of `dmnet.c`: the Ethernet frame of a UDP datagram, and that
  `dm_net_poll` of the node it is sent to reads it back.

  The frame is padded to Ethernet's 60 bytes and to an even length, outside the length in the
  IP header; `dm_net_poll` takes the payload's length from the UDP header.

  - `ipChecksum_toNat`: `ip_checksum` is the complement of a sum with end-around carry.
  - `ipChecksum_stored`: a header with its checksum stored in it has checksum 0.
  - `Padded`: what the padding adds.
  - `framing_round_trip`: what a node sends is what its peer reads.
-/

import DosMcp.Dos.Net
import DosMcp.Dos.ProtoProofs
import DosMcp.Lib.OnesComplement

namespace DosMcp.Dos

open Lib

/-! ## The frame -/

/-- The IP header of `send_to` with `checksum` in it. -/
def sendHeader (n : Interface) (identifier : UInt16) (peer : Peer) (length checksum : UInt16) (ttl : UInt8) : Bytes :=
  [0x45, 0] ++ writeBe16 (ipHeader + udpHeader + length) ++ writeBe16 identifier ++ [0, 0, ttl, 17] ++ writeBe16 checksum ++
    n.localIp ++ peer.ip

/-- The padding of `send_to`: to 60 bytes, and to an even length. -/
def padFrame (frame : Bytes) : Bytes :=
  let frame := if frame.length < 60 then frame ++ List.replicate (60 - frame.length) 0 else frame
  if frame.length % 2 = 1 then frame ++ [0] else frame

/-- The frame of `send_to` before the padding. -/
def sentFrame (n : Interface) (identifier : UInt16) (peer : Peer) (payload : Bytes) (ttl : UInt8) : Bytes :=
  let length : UInt16 := .ofNat payload.length
  let ip := sendHeader n identifier peer length (ipChecksum (sendHeader n identifier peer length 0 ttl)) ttl
  let udp := writeBe16 n.localPort ++ writeBe16 peer.port ++ writeBe16 (udpHeader + length) ++ writeBe16 0
  peer.mac ++ n.address ++ writeBe16 ethTypeIp ++ ip ++ udp ++ payload

/-- `send_to`: the frame it hands to `dm_packet_send`, and the next `ip_identifier`. -/
def sendTo (n : Interface) (identifier : UInt16) (peer : Peer) (payload : Bytes) (ttl : UInt8) : Option Bytes × UInt16 :=
  if payload.length > maxFrame - 14 - 20 - 8 then (none, identifier)
  else (some (padFrame (sentFrame n identifier peer payload ttl)), identifier + 1)

/-! ## The checksum -/

/-- The sum of the 16-bit words, an odd byte as a high one. -/
def wordSum : Bytes → Nat
  | high :: low :: rest => 256 * high.toNat + low.toNat + wordSum rest
  | [high] => 256 * high.toNat
  | [] => 0

theorem be16_toNat (high low : UInt8) : ((high.toUInt16 <<< 8) ||| low.toUInt16).toNat = 256 * high.toNat + low.toNat := by
  rw [UInt16.or_comm, byte_word16, Nat.add_comm]

theorem wordSum_le (data : Bytes) : wordSum data ≤ 65535 * data.length := by
  fun_induction wordSum data with
  | case1 high low rest ih =>
    have hhigh := high.toNat_lt
    have hlow := low.toNat_lt
    simp only [List.length_cons]
    omega
  | case2 high =>
    have hhigh := high.toNat_lt
    simp only [List.length_cons]
    omega
  | case3 => exact Nat.zero_le _

theorem wordSum_append {before : Bytes} (h : before.length % 2 = 0) (after : Bytes) :
    wordSum (before ++ after) = wordSum before + wordSum after := by
  fun_induction wordSum before with
  | case1 high low rest ih =>
    have hrest : rest.length % 2 = 0 := by
      simp only [List.length_cons] at h
      omega
    rw [List.cons_append, List.cons_append, wordSum, ih hrest, Nat.add_assoc (256 * high.toNat + low.toNat)]
  | case2 high => cases h
  | case3 => rw [List.nil_append, Nat.zero_add]

theorem wordSum_writeBe16 (value : UInt16) (rest : Bytes) : wordSum (writeBe16 value ++ rest) = value.toNat + wordSum rest := by
  have hvalue := value.toNat_lt
  show 256 * (value >>> 8).toUInt8.toNat + value.toUInt8.toNat + wordSum rest = _
  simp only [UInt16.toNat_toUInt8, UInt16.toNat_shiftRight, UInt16.reduceToNat, Nat.shiftRight_eq_div_pow, Nat.reduceMod,
    Nat.reducePow]
  omega

theorem checksumWords_toNat {data : Bytes} {sum : UInt32} (h : sum.toNat + wordSum data < 2 ^ 32) :
    (checksumWords data sum).toNat = sum.toNat + wordSum data := by
  fun_induction checksumWords data sum with
  | case1 high low rest sum ih =>
    rw [wordSum] at h ⊢
    have hword : (sum + ((high.toUInt16 <<< 8) ||| low.toUInt16).toUInt32).toNat = sum.toNat + (256 * high.toNat + low.toNat) := by
      rw [UInt32.toNat_add, UInt16.toNat_toUInt32, be16_toNat]
      exact Nat.mod_eq_of_lt (by omega)
    rw [ih (by rw [hword]; omega), hword, Nat.add_assoc]
  | case2 high sum =>
    rw [wordSum] at h ⊢
    have hhigh : (high.toUInt16 <<< 8).toNat = 256 * high.toNat := by
      have hword := be16_toNat high 0
      simpa using hword
    rw [UInt32.toNat_add, UInt16.toNat_toUInt32, hhigh]
    exact Nat.mod_eq_of_lt h
  | case3 sum => rfl

theorem foldCarries_residue (rounds : Nat) (sum : UInt32) :
    residue 0x10000 (foldCarries rounds sum).toNat = residue 0x10000 sum.toNat := by
  induction rounds generalizing sum with
  | zero => rfl
  | succ rounds ih =>
    unfold foldCarries
    split
    · rfl
    · have hsum := sum.toNat_lt
      have hlow : sum.toNat &&& 0xFFFF = sum.toNat % 0x10000 := Nat.and_two_pow_sub_one_eq_mod _ 16
      have hround : ((sum &&& (0xFFFF : UInt32)) + (sum >>> 16)).toNat = sum.toNat % 0x10000 + sum.toNat / 0x10000 := by
        simp only [UInt32.toNat_add, UInt32.toNat_and, UInt32.toNat_shiftRight, UInt32.reduceToNat, Nat.shiftRight_eq_div_pow,
          hlow, Nat.reduceMod, Nat.reducePow]
        omega
      rw [ih, hround, residue_round (by decide)]

theorem ipChecksum_toNat {data : Bytes} (h : wordSum data < 2 ^ 32) :
    (ipChecksum data).toNat = 65535 - residue 0x10000 (wordSum data) := by
  have hsum : (checksumWords data 0).toNat = wordSum data := by
    rw [checksumWords_toNat (by simpa using h)]
    exact Nat.zero_add _
  have hsmall : (foldCarries 2 (checksumWords data 0)).toNat < 0x10000 := by
    have hends := foldCarries_ends (checksumWords data 0)
    rw [← UInt32.toNat_inj, UInt32.toNat_shiftRight, Nat.shiftRight_eq_div_pow] at hends
    exact Nat.lt_of_div_eq_zero (by decide) hends
  have hfold := foldCarries_residue 2 (checksumWords data 0)
  rw [residue_of_lt hsmall, hsum] at hfold
  rw [ipChecksum, UInt16.toNat_not, UInt32.toNat_toUInt16, Nat.mod_eq_of_lt hsmall, hfold]
  rfl

/-- Storing the checksum of a header where it had zeros. -/
theorem ipChecksum_stored (before after : Bytes) (heven : before.length % 2 = 0) (hlong : before.length + after.length < 65535) :
    ipChecksum (before ++ writeBe16 (ipChecksum (before ++ writeBe16 0 ++ after)) ++ after) = 0 := by
  have hsum : ∀ checksum : UInt16, wordSum (before ++ writeBe16 checksum ++ after) =
      wordSum before + wordSum after + checksum.toNat := by
    intro checksum
    rw [List.append_assoc, wordSum_append heven, wordSum_writeBe16]
    omega
  have hbefore := wordSum_le before
  have hafter := wordSum_le after
  have hbound : ∀ checksum : UInt16, wordSum (before ++ writeBe16 checksum ++ after) < 2 ^ 32 := by
    intro checksum
    have hlt := checksum.toNat_lt
    rw [hsum]
    omega
  have hzero : (ipChecksum (before ++ writeBe16 0 ++ after)).toNat =
      65535 - residue 0x10000 (wordSum before + wordSum after) := by
    rw [ipChecksum_toNat (hbound 0), hsum]
    rfl
  apply UInt16.toNat_inj.mp
  rw [ipChecksum_toNat (hbound _), hsum, hzero, residue_complement (by decide)]
  rfl

/-- A header of 20 bytes whose checksum field is zero. -/
theorem ipChecksum_header {header : Bytes} (hlength : header.length = 20) (hhigh : byteAt header 10 = 0) (hlow : byteAt header 11 = 0) :
    ipChecksum (header.take 10 ++ writeBe16 (ipChecksum header) ++ header.drop 12) = 0 := by
  have hfield : slice header 10 2 = writeBe16 0 := by
    rw [slice_two (by omega), hhigh, hlow]
    rfl
  have hheader : header.take 10 ++ writeBe16 0 ++ header.drop 12 = header := by
    rw [← hfield, ← slice_zero_eq_take, slice_append_slice header (Nat.zero_add 10) rfl, slice_zero_eq_take,
      List.take_append_drop]
  have hstored := ipChecksum_stored (header.take 10) (header.drop 12)
    (by rw [List.length_take, hlength]; rfl) (by rw [List.length_take, List.length_drop, hlength]; decide)
  rwa [hheader] at hstored

/-! ## The padding -/

/-- A frame that fits is padded to one that fits, of even length and at least 60 bytes. -/
structure Padded (frame padded : Bytes) : Prop where
  minimum : 60 ≤ padded.length
  maximum : padded.length ≤ maxFrame
  even : padded.length % 2 = 0
  extends_frame : ∃ padding, padded = frame ++ padding

theorem padFrame_padded {frame : Bytes} (h : frame.length ≤ maxFrame) : Padded frame (padFrame frame) := by
  have hmax : maxFrame = 1518 := rfl
  unfold padFrame
  dsimp only
  by_cases hshort : frame.length < 60
  · rw [if_pos hshort]
    have hlength : (frame ++ List.replicate (60 - frame.length) 0).length = 60 := by
      rw [List.length_append, List.length_replicate]
      omega
    rw [if_neg (by rw [hlength]; decide)]
    exact ⟨by omega, by omega, by rw [hlength], _, rfl⟩
  · rw [if_neg hshort]
    by_cases hodd : frame.length % 2 = 1
    · rw [if_pos hodd]
      have hlength : (frame ++ [0]).length = frame.length + 1 := List.length_append
      exact ⟨by omega, by omega, by omega, [0], rfl⟩
    · rw [if_neg hodd]
      exact ⟨by omega, h, by omega, [], (List.append_nil _).symm⟩

/-! ## Reading it back -/

theorem readBe16_of_holds {m : Memory} {a : Nat} {value : UInt16} (h : m.Holds a (writeBe16 value)) : readBe16 m a = value := by
  rw [writeBe16, Memory.holds_cons, Memory.holds_cons] at h
  obtain ⟨hhigh, hlow, -⟩ := h
  have hvalue := value.toNat_lt
  apply UInt16.toNat_inj.mp
  rw [readBe16, hhigh, hlow, be16_toNat]
  simp only [UInt16.toNat_toUInt8, UInt16.toNat_shiftRight, UInt16.reduceToNat, Nat.shiftRight_eq_div_pow, Nat.reduceMod,
    Nat.reducePow]
  omega

section

variable {n receiver : Interface} {identifier : UInt16} {peer : Peer} {payload : Bytes} {ttl : UInt8} {buffer : Memory}

/-- The byte strings of an interface and of a peer have the lengths of their arrays. -/
structure Addressed (n : Interface) (peer : Peer) : Prop where
  localIp_length : n.localIp.length = 4
  address_length : n.address.length = 6
  mac_length : peer.mac.length = 6
  ip_length : peer.ip.length = 4

theorem sendHeader_length (h : Addressed n peer) (length checksum : UInt16) :
    (sendHeader n identifier peer length checksum ttl).length = 20 := by
  have hwords : ∀ value, (writeBe16 value).length = 2 := fun _ => rfl
  simp only [sendHeader, List.length_append, hwords, h.localIp_length, h.ip_length, List.length_cons, List.length_nil]

/-- The header goes out with checksum 0. -/
theorem sendHeader_checksum (h : Addressed n peer) (length : UInt16) :
    ipChecksum (sendHeader n identifier peer length (ipChecksum (sendHeader n identifier peer length 0 ttl)) ttl) = 0 := by
  let before := [0x45, 0] ++ writeBe16 (ipHeader + udpHeader + length) ++ writeBe16 identifier ++ [0, 0, ttl, 17]
  have hbefore : before.length = 10 := rfl
  have hafter : (n.localIp ++ peer.ip).length = 8 := by rw [List.length_append, h.localIp_length, h.ip_length]
  have hheader : ∀ checksum, sendHeader n identifier peer length checksum ttl =
      before ++ writeBe16 checksum ++ (n.localIp ++ peer.ip) := by
    intro checksum
    rw [← List.append_assoc]
    rfl
  rw [hheader, hheader]
  exact ipChecksum_stored before (n.localIp ++ peer.ip) (by rw [hbefore]) (by rw [hbefore, hafter]; decide)

/-- The fields of the header in a buffer. -/
theorem sendHeader_fields (h : Addressed n peer) {length checksum : UInt16}
    (hholds : buffer.Holds 14 (sendHeader n identifier peer length checksum ttl)) :
    buffer 14 = 0x45 ∧ readBe16 buffer 16 = ipHeader + udpHeader + length ∧ readBe16 buffer 20 = 0 ∧ buffer 23 = 17 ∧
      buffer.load 26 4 = n.localIp ∧ buffer.load 30 4 = peer.ip := by
  have hwords : ∀ value, (writeBe16 value).length = 2 := fun _ => rfl
  simp only [sendHeader, Memory.holds_append, List.length_append, hwords, h.localIp_length, List.length_cons,
    List.length_nil, Nat.reduceAdd] at hholds
  obtain ⟨⟨⟨⟨⟨⟨hversion, hlength⟩, -⟩, hflags⟩, -⟩, hlocal⟩, hip⟩ := hholds
  rw [Memory.holds_cons] at hversion
  have hzero : buffer.Holds 20 (writeBe16 0) := by
    rw [Memory.holds_cons, Memory.holds_cons] at hflags
    exact Memory.holds_cons.mpr ⟨hflags.1, Memory.holds_cons.mpr ⟨hflags.2.1, Memory.holds_nil⟩⟩
  simp only [Memory.holds_cons, Nat.reduceAdd] at hflags
  rw [Memory.Holds, h.localIp_length] at hlocal
  rw [Memory.Holds, h.ip_length] at hip
  exact ⟨hversion.1, readBe16_of_holds hlength, readBe16_of_holds hzero, hflags.2.2.2.1, hlocal, hip⟩

theorem sentFrame_length (h : Addressed n peer) : (sentFrame n identifier peer payload ttl).length = 42 + payload.length := by
  have hwords : ∀ value, (writeBe16 value).length = 2 := fun _ => rfl
  simp only [sentFrame, List.length_append, hwords, sendHeader_length h, h.address_length, h.mac_length]

theorem sentFrame_header (h : Addressed n peer) : slice (sentFrame n identifier peer payload ttl) 14 20 =
    sendHeader n identifier peer (.ofNat payload.length)
      (ipChecksum (sendHeader n identifier peer (.ofNat payload.length) 0 ttl)) ttl := by
  have hbefore : (peer.mac ++ n.address ++ writeBe16 ethTypeIp).length = 14 := by
    rw [List.length_append, List.length_append, h.mac_length, h.address_length]
    rfl
  have hheader := @sendHeader_length n identifier peer ttl h (.ofNat payload.length)
  unfold sentFrame
  dsimp only
  rw [List.append_assoc, List.append_assoc, slice_append_right _ (show _ + 0 = 14 by rw [hbefore]),
    slice_append_left _ (by rw [hheader]), slice_zero_eq_take, List.take_of_length_le (hheader _).le]

/-- The parts of a frame in a buffer. -/
theorem sentFrame_parts (h : Addressed n peer) (hholds : buffer.Holds 0 (sentFrame n identifier peer payload ttl)) :
    buffer.load 6 6 = n.address ∧ readBe16 buffer 12 = ethTypeIp ∧
      buffer.Holds 14 (sendHeader n identifier peer (.ofNat payload.length)
        (ipChecksum (sendHeader n identifier peer (.ofNat payload.length) 0 ttl)) ttl) ∧
      readBe16 buffer 34 = n.localPort ∧ readBe16 buffer 36 = peer.port ∧
      readBe16 buffer 38 = udpHeader + .ofNat payload.length ∧ buffer.Holds 42 payload := by
  have hwords : ∀ value, (writeBe16 value).length = 2 := fun _ => rfl
  simp only [sentFrame, Memory.holds_append, List.length_append, hwords, sendHeader_length h, h.address_length,
    h.mac_length, Nat.reduceAdd] at hholds
  obtain ⟨⟨⟨⟨⟨-, haddress⟩, htype⟩, hheader⟩, ⟨⟨⟨hsource, hdestination⟩, hlength⟩, -⟩⟩, hpayload⟩ := hholds
  rw [Memory.Holds, h.address_length] at haddress
  exact ⟨haddress, readBe16_of_holds htype, hheader, readBe16_of_holds hsource, readBe16_of_holds hdestination,
    readBe16_of_holds hlength, hpayload⟩

/-- The peer's poll hands out the payload and the sender, wherever the padding ends. -/
theorem poll_sent (h : Addressed n peer) (hsize : payload.length ≤ 1476) (hip : receiver.localIp = peer.ip)
    (hport : receiver.localPort = peer.port) {padded : Bytes} (hpadded : Padded (sentFrame n identifier peer payload ttl) padded)
    (hholds : buffer.Holds 0 padded) :
    ∃ d, dmNetPoll receiver ⟨buffer, .ofNat padded.length⟩ = .datagram d ∧ d.payloadLength.toNat = payload.length ∧
      buffer.Holds d.payload payload ∧ d.peer = ⟨n.address, n.localIp, n.localPort⟩ := by
  have hmax : padded.length ≤ 1518 := hpadded.maximum
  have hminimum := hpadded.minimum
  obtain ⟨padding, hextends⟩ := hpadded.extends_frame
  have hlong : 42 + payload.length ≤ padded.length := by
    rw [hextends, List.length_append, sentFrame_length h]
    omega
  rw [hextends, Memory.holds_append] at hholds
  obtain ⟨haddress, htype, hheader, hsource, hdestination, hudp, hpayload⟩ := sentFrame_parts h hholds.1
  obtain ⟨hversion, hlength, hflags, hprotocol, hlocal, hremote⟩ := sendHeader_fields h hheader
  have hpart : (UInt16.ofNat payload.length).toNat = payload.length := UInt16.toNat_ofNat_of_lt' (show payload.length < 65536 by omega)
  let f : Frame := ⟨buffer, .ofNat padded.length⟩
  have hframe : f.length.toNat = padded.length := UInt16.toNat_ofNat_of_lt' (show padded.length < 65536 by omega)
  have hheaderLength : f.ipHeaderLength = 20 := by
    show (buffer 14 &&& 0x0F) * 4 = 20
    rw [hversion]
    rfl
  have hip20 : f.ipHeaderLength.toNat = 20 := by rw [hheaderLength]; rfl
  have hstart : f.udp = 34 := by rw [Frame.udp, hip20]
  have hipLength : f.ipLength.toNat = 28 + payload.length := by
    rw [show f.ipLength = _ from hlength, UInt16.toNat_add, hpart]
    exact Nat.mod_eq_of_lt (show 28 + payload.length < 2 ^ 16 by omega)
  have hudpLength : f.udpLength.toNat = 8 + payload.length := by
    rw [Frame.udpLength, hstart, show readBe16 f.buffer (34 + 4) = _ from hudp, UInt16.toNat_add, hpart]
    exact Nat.mod_eq_of_lt (show 8 + payload.length < 2 ^ 16 by omega)
  have hpass : f.Passes receiver := by
    refine ⟨by omega, htype, ?_, by omega, by omega, hprotocol, ?_, hremote.trans hip.symm, ?_, by omega, by omega, ?_⟩
    · show buffer 14 >>> 4 = 4
      rw [hversion]
      rfl
    · show readBe16 buffer 20 &&& 0x3FFF = 0
      rw [hflags]
      rfl
    · have hload := hheader
      rw [Memory.Holds, sendHeader_length h] at hload
      rw [hip20, show f.buffer.load 14 20 = _ from hload]
      exact sendHeader_checksum h _
    · rw [hstart, hport]
      exact hdestination
  have hbound : (14 + f.ipLength.toNat) % 0x10000 ≤ f.length.toNat := by omega
  refine ⟨f.range, dmNetPoll_eq_datagram.mpr ⟨hpass, hbound, rfl⟩, ?_, ?_, ?_⟩
  · have hend := hpass.range_end
    have hrange : f.range.payload = 42 := congrArg (· + 8) hstart
    omega
  · show buffer.Holds (f.udp + 8) payload
    rw [hstart]
    exact hpayload
  · show Peer.mk (buffer.load 6 6) (buffer.load 26 4) (readBe16 buffer f.udp) = _
    rw [hstart, haddress, hlocal, hsource]

end

/-- Every payload of at most 1476 bytes goes out in a frame of even length, of 60 to 1518 bytes
    and with a good checksum, from which a node at the peer's address and port reads that payload
    and its sender; a longer one is refused. A header gets checksum 0 by storing its own. -/
theorem framing_round_trip :
    (∀ header : Bytes, header.length = 20 → byteAt header 10 = 0 → byteAt header 11 = 0 →
      ipChecksum (header.take 10 ++ writeBe16 (ipChecksum header) ++ header.drop 12) = 0) ∧
    ∀ (n : Interface) (identifier : UInt16) (peer : Peer) (payload : Bytes) (ttl : UInt8), Addressed n peer →
      (payload.length ≤ 1476 → ∃ frame, sendTo n identifier peer payload ttl = (some frame, identifier + 1) ∧
        60 ≤ frame.length ∧ frame.length ≤ 1518 ∧ frame.length % 2 = 0 ∧ ipChecksum (slice frame 14 20) = 0 ∧
        ∀ (receiver : Interface) (buffer : Memory), receiver.localIp = peer.ip → receiver.localPort = peer.port →
          buffer.Holds 0 frame → ∃ d, dmNetPoll receiver ⟨buffer, .ofNat frame.length⟩ = .datagram d ∧
            d.payloadLength.toNat = payload.length ∧ buffer.Holds d.payload payload ∧
            d.peer = ⟨n.address, n.localIp, n.localPort⟩) ∧
      (payload.length > 1476 → sendTo n identifier peer payload ttl = (none, identifier)) := by
  refine ⟨fun header => ipChecksum_header, fun n identifier peer payload ttl h => ⟨fun hsize => ?_, fun hlong => ?_⟩⟩
  · have hfits : (sentFrame n identifier peer payload ttl).length ≤ maxFrame := by
      rw [sentFrame_length h]
      show 42 + payload.length ≤ 1518
      omega
    have hpadded := padFrame_padded hfits
    refine ⟨padFrame (sentFrame n identifier peer payload ttl), if_neg (Nat.not_lt.mpr hsize), hpadded.minimum,
      hpadded.maximum, hpadded.even, ?_, fun receiver buffer hip hport hholds => poll_sent h hsize hip hport hpadded hholds⟩
    obtain ⟨padding, hextends⟩ := hpadded.extends_frame
    rw [hextends, slice_append_left _ (by rw [sentFrame_length h]; omega), sentFrame_header h]
    exact sendHeader_checksum h _
  · exact if_pos hlong

/-- 10.0.0.1, and 10.0.0.2 as its peer. -/
def senderInterface : Interface := ⟨[10, 0, 0, 1], 21300, [2, 0, 0, 0, 0, 1]⟩
def receiverInterface : Interface := ⟨[10, 0, 0, 2], 40000, [2, 0, 0, 0, 0, 2]⟩
def receiverPeer : Peer := ⟨[2, 0, 0, 0, 0, 2], [10, 0, 0, 2], 40000⟩

theorem senderInterface_addressed : Addressed senderInterface receiverPeer := ⟨rfl, rfl, rfl, rfl⟩

/-- A header without addresses. -/
def plainHeader : Bytes := [0x45, 0, 0, 20, 0, 1, 0, 0, 64, 17] ++ List.replicate 10 0

/-- The plain header, a payload of one byte, and one of 1477 bytes. -/
theorem framing_round_trip_byte :
    ipChecksum (plainHeader.take 10 ++ writeBe16 (ipChecksum plainHeader) ++ plainHeader.drop 12) = 0 ∧
      (∃ frame, sendTo senderInterface 1 receiverPeer [0x61] 64 = (some frame, 2) ∧ frame.length % 2 = 0 ∧
        ∃ d, dmNetPoll receiverInterface ⟨fun i => byteAt frame i, .ofNat frame.length⟩ = .datagram d ∧
          d.peer = ⟨[2, 0, 0, 0, 0, 1], [10, 0, 0, 1], 21300⟩) ∧
      sendTo senderInterface 1 receiverPeer (List.replicate 1477 0) 64 = (none, 1) := by
  refine ⟨?_, ?_, ?_⟩
  · exact framing_round_trip.1 plainHeader rfl rfl rfl
  · obtain ⟨frame, hsent, -, -, heven, -, hread⟩ :=
      (framing_round_trip.2 senderInterface 1 receiverPeer [0x61] 64 senderInterface_addressed).1 (by decide)
    obtain ⟨d, hpoll, -, -, hpeer⟩ := hread receiverInterface (fun i => byteAt frame i) rfl rfl (Memory.holds_bytes frame)
    exact ⟨frame, hsent, heven, d, hpoll, hpeer⟩
  · exact (framing_round_trip.2 senderInterface 1 receiverPeer _ 64 senderInterface_addressed).2
      (by rw [List.length_replicate]; decide)

end DosMcp.Dos
