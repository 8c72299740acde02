/-
  DosMcp.Dos.Net — `dmnet.c`: how the DOS agents find a UDP datagram in a received frame.

  Offsets count from the start of the receive buffer, which keeps the bytes of earlier
  frames behind a short one. The arithmetic is that of the small-model build: `unsigned
  int` has 16 bits, so `ETH_HEADER + ip_length` wraps.

  - `poll_inside_frame_iff`: what `dm_net_poll` hands out lies inside the frame exactly
    unless the frame passes every other check with a total length from 65522 on, where the
    sum wraps, and a UDP length that does not fit.
  - `wrapped_length_hands_out_stale_bytes`: such a frame.
-/

import DosMcp.Dos.Agent

namespace DosMcp.Dos

open Lib

def ethHeader : UInt16 := 14
def ipHeader : UInt16 := 20
def udpHeader : UInt16 := 8
def ethTypeIp : UInt16 := 0x0800
def ethTypeArp : UInt16 := 0x0806

/-- `DM_PACKET_MAX_FRAME`. -/
def maxFrame : Nat := 1518

/-- The receive buffer with the length of the frame in it. -/
structure Frame where
  buffer : Memory
  length : UInt16

/-- The statics of `dmnet.c` and the adapter address. -/
structure Interface where
  localIp : Bytes
  localPort : UInt16
  address : Bytes

def readBe16 (m : Memory) (offset : Nat) : UInt16 := ((m offset).toUInt16 <<< 8) ||| (m (offset + 1)).toUInt16

def writeBe16 (value : UInt16) : Bytes := [(value >>> 8).toUInt8, value.toUInt8]

/-! ## The IP checksum -/

/-- The first loop of `ip_checksum`: the sum of the words, an odd byte as a high one. -/
def checksumWords : Bytes → UInt32 → UInt32
  | high :: low :: rest, sum => checksumWords rest (sum + ((high.toUInt16 <<< 8) ||| low.toUInt16).toUInt32)
  | [high], sum => sum + (high.toUInt16 <<< 8).toUInt32
  | [], sum => sum

/-- The second loop: carries are added in until none is left. -/
def foldCarries : Nat → UInt32 → UInt32
  | 0, sum => sum
  | rounds + 1, sum => if sum >>> 16 = 0 then sum else foldCarries rounds ((sum &&& (0xFFFF : UInt32)) + (sum >>> 16))

/-- Two rounds end the loop, whatever the sum. -/
theorem foldCarries_ends (sum : UInt32) : foldCarries 2 sum >>> 16 = 0 := by
  have hround : ∀ x : UInt32, ((x &&& (0xFFFF : UInt32)) + (x >>> 16)).toNat = x.toNat % 0x10000 + x.toNat / 0x10000 := by
    intro x
    have hx := x.toNat_lt
    have hlow : x.toNat &&& 0xFFFF = x.toNat % 0x10000 := Nat.and_two_pow_sub_one_eq_mod _ 16
    simp only [UInt32.toNat_add, UInt32.toNat_and, UInt32.toNat_shiftRight, UInt32.reduceToNat, Nat.shiftRight_eq_div_pow,
      hlow, Nat.reduceMod, Nat.reducePow]
    omega
  have hzero : ∀ x : UInt32, x >>> 16 = 0 ↔ x.toNat / 0x10000 = 0 := by
    intro x
    simp [← UInt32.toNat_inj, UInt32.toNat_shiftRight, Nat.shiftRight_eq_div_pow]
  have hsum := sum.toNat_lt
  simp only [foldCarries]
  split
  · assumption
  split
  · assumption
  · rw [hzero, hround, hround]
    omega

def ipChecksum (data : Bytes) : UInt16 := ~~~(foldCarries 2 (checksumWords data 0)).toUInt16

/-! ## Fields of a frame -/

def Frame.ethernetType (f : Frame) : UInt16 := readBe16 f.buffer 12

/-- The first byte of the IP header. -/
def Frame.version (f : Frame) : UInt8 := f.buffer 14

def Frame.ipHeaderLength (f : Frame) : UInt8 := (f.version &&& 0x0F) * 4

def Frame.ipLength (f : Frame) : UInt16 := readBe16 f.buffer 16

/-- Where the UDP header starts. -/
def Frame.udp (f : Frame) : Nat := 14 + f.ipHeaderLength.toNat

def Frame.udpLength (f : Frame) : UInt16 := readBe16 f.buffer (f.udp + 4)

/-- `handle_arp`: the reply to a request for the local address. -/
def handleArp (n : Interface) (f : Frame) : Option Bytes :=
  if f.length < 42 then none
  else if readBe16 f.buffer 14 ≠ 1 ∨ readBe16 f.buffer 16 ≠ ethTypeIp ∨ f.buffer 18 ≠ 6 ∨ f.buffer 19 ≠ 4 ∨
      readBe16 f.buffer 20 ≠ 1 ∨ f.buffer.load 38 4 ≠ n.localIp then none
  else some (f.buffer.load 6 6 ++ n.address ++ writeBe16 ethTypeArp ++ writeBe16 1 ++ writeBe16 ethTypeIp ++ [6, 4] ++
    writeBe16 2 ++ n.address ++ n.localIp ++ f.buffer.load 22 6 ++ f.buffer.load 28 4 ++ List.replicate 18 0)

/-- `dm_udp_datagram`: the payload as a range of the receive buffer. -/
structure UdpRange where
  payload : Nat
  payloadLength : UInt16
  peer : Peer
  deriving DecidableEq, Repr

/-- A poll that does not return 1 releases the receive buffer, and may have sent a frame. -/
inductive Polled where
  | dropped (reply : Option Bytes)
  | datagram (d : UdpRange)
  deriving DecidableEq, Repr

/-- `dm_net_poll` with a frame in the receive buffer. -/
def dmNetPoll (n : Interface) (f : Frame) : Polled :=
  if f.length < ethHeader then .dropped none
  else if f.ethernetType = ethTypeArp then .dropped (handleArp n f)
  else if f.ethernetType ≠ ethTypeIp ∨ f.length < ethHeader + ipHeader then .dropped none
  else if f.version >>> 4 ≠ 4 ∨ f.ipHeaderLength.toUInt16 < ipHeader then .dropped none
  else if f.ipLength < f.ipHeaderLength.toUInt16 + udpHeader ∨ ethHeader + f.ipLength > f.length then .dropped none
  else if f.buffer 23 ≠ 17 then .dropped none
  else if readBe16 f.buffer 20 &&& 0x3FFF ≠ 0 then .dropped none
  else if f.buffer.load 30 4 ≠ n.localIp then .dropped none
  else if ipChecksum (f.buffer.load 14 f.ipHeaderLength.toNat) ≠ 0 then .dropped none
  else if f.udpLength < udpHeader ∨ f.udpLength > f.ipLength - f.ipHeaderLength.toUInt16 ∨
      readBe16 f.buffer (f.udp + 2) ≠ n.localPort then .dropped none
  else .datagram ⟨f.udp + 8, f.udpLength - udpHeader, ⟨f.buffer.load 6 6, f.buffer.load 26 4, readBe16 f.buffer f.udp⟩⟩

/-! ## Ranges inside the frame -/

/-- The IP header, the UDP header and the payload handed out lie in the received frame. -/
def Frame.Inside (f : Frame) (d : UdpRange) : Prop :=
  14 + f.ipHeaderLength.toNat ≤ f.length.toNat ∧ f.udp + 8 ≤ f.length.toNat ∧
    d.payload + d.payloadLength.toNat ≤ f.length.toNat

/-- The checks of `dm_net_poll` other than the one against the frame's length. -/
structure Frame.Passes (n : Interface) (f : Frame) : Prop where
  length_ge : 34 ≤ f.length.toNat
  ethernetType_eq : f.ethernetType = ethTypeIp
  version_eq : f.version >>> 4 = 4
  ipHeaderLength_ge : 20 ≤ f.ipHeaderLength.toNat
  ipLength_ge : f.ipHeaderLength.toNat + 8 ≤ f.ipLength.toNat
  protocol_eq : f.buffer 23 = 17
  unfragmented : readBe16 f.buffer 20 &&& 0x3FFF = 0
  destination_eq : f.buffer.load 30 4 = n.localIp
  checksum_eq : ipChecksum (f.buffer.load 14 f.ipHeaderLength.toNat) = 0
  udpLength_ge : 8 ≤ f.udpLength.toNat
  udpLength_le : f.udpLength.toNat + f.ipHeaderLength.toNat ≤ f.ipLength.toNat
  port_eq : readBe16 f.buffer (f.udp + 2) = n.localPort

def Frame.range (f : Frame) : UdpRange :=
  ⟨f.udp + 8, f.udpLength - udpHeader, ⟨f.buffer.load 6 6, f.buffer.load 26 4, readBe16 f.buffer f.udp⟩⟩

theorem Frame.ipHeaderLength_le (f : Frame) : f.ipHeaderLength.toNat ≤ 60 := by
  have h : (f.version &&& 0x0F).toNat ≤ 15 := by
    rw [UInt8.toNat_and]
    exact Nat.and_le_right
  simp only [Frame.ipHeaderLength, UInt8.toNat_mul, UInt8.reduceToNat]
  omega

theorem dropped_else_eq {c : Prop} [Decidable c] {reply : Option Bytes} {rest : Polled} {d : UdpRange} :
    (if c then .dropped reply else rest) = .datagram d ↔ ¬ c ∧ rest = .datagram d := by
  split <;> simp [*]

/-- `dm_net_poll` returns 1 exactly where every check passes, the bound on the frame in
    16-bit arithmetic. -/
theorem dmNetPoll_eq_datagram {n : Interface} {f : Frame} {d : UdpRange} :
    dmNetPoll n f = .datagram d ↔
      f.Passes n ∧ (14 + f.ipLength.toNat) % 0x10000 ≤ f.length.toNat ∧ d = f.range := by
  have hihl := f.ipHeaderLength_le
  have hlen := f.ipLength.toNat_lt
  have hsum : (f.ipHeaderLength.toUInt16 + udpHeader).toNat = f.ipHeaderLength.toNat + 8 := by
    simp only [UInt16.toNat_add, UInt8.toNat_toUInt16, udpHeader, UInt16.reduceToNat]
    omega
  have hbound : (ethHeader + f.ipLength).toNat = (14 + f.ipLength.toNat) % 0x10000 := by
    simp only [UInt16.toNat_add, ethHeader, UInt16.reduceToNat, Nat.reducePow]
  have hroom : (f.ipLength - f.ipHeaderLength.toUInt16).toNat =
      (0x10000 - f.ipHeaderLength.toNat + f.ipLength.toNat) % 0x10000 := by
    simp only [UInt16.toNat_sub, UInt8.toNat_toUInt16]
  have hheaders : (ethHeader + ipHeader).toNat = 34 ∧ ethHeader.toNat = 14 ∧ ipHeader.toNat = 20 ∧ udpHeader.toNat = 8 :=
    ⟨rfl, rfl, rfl, rfl⟩
  have harp : ethTypeIp ≠ ethTypeArp := by decide
  simp only [dmNetPoll, dropped_else_eq, Polled.datagram.injEq, UInt16.lt_iff_toNat_lt, hsum, hbound, hroom, hheaders,
    gt_iff_lt, UInt8.toNat_toUInt16, not_or, not_lt, ne_eq, not_not]
  constructor
  · rintro ⟨h1, h2, ⟨h3, h4⟩, ⟨h5, h6⟩, ⟨h7, h8⟩, h9, h10, h11, h12, ⟨h13, h14, h15⟩, h16⟩
    exact ⟨⟨h4, h3, h5, h6, h7, h9, h10, h11, h12, h13, by omega, h15⟩, h8, h16.symm⟩
  · rintro ⟨h, hle, rfl⟩
    have hge := h.ipLength_ge
    have hudp := h.udpLength_le
    have hframe := h.length_ge
    exact ⟨by omega, by rw [h.ethernetType_eq]; exact harp, ⟨h.ethernetType_eq, hframe⟩,
      ⟨h.version_eq, h.ipHeaderLength_ge⟩, ⟨hge, hle⟩, h.protocol_eq, h.unfragmented, h.destination_eq, h.checksum_eq,
      ⟨h.udpLength_ge, by omega, h.port_eq⟩, rfl⟩

/-- The range handed out ends where the UDP length says. -/
theorem Frame.Passes.range_end {n : Interface} {f : Frame} (h : f.Passes n) :
    f.range.payload + f.range.payloadLength.toNat = 14 + f.ipHeaderLength.toNat + f.udpLength.toNat := by
  have hudp := h.udpLength_ge
  have hlt := f.udpLength.toNat_lt
  simp only [Frame.range, Frame.udp, udpHeader, UInt16.toNat_sub, UInt16.reduceToNat]
  omega

/-- Everything handed out lies inside the received frame, except where the bound on the IP
    length wraps and the UDP length exceeds the frame. -/
theorem poll_inside_frame_iff (n : Interface) (f : Frame) :
    (∀ d, dmNetPoll n f = .datagram d → f.Inside d) ↔
      ¬ (f.Passes n ∧ 65522 ≤ f.ipLength.toNat ∧
        f.length.toNat < 14 + f.ipHeaderLength.toNat + f.udpLength.toNat) := by
  have hlt := f.ipLength.toNat_lt
  constructor
  · rintro hinside ⟨hpass, hwrap, hover⟩
    have hsum : (14 + f.ipLength.toNat) % 0x10000 ≤ f.length.toNat := by
      have hframe := hpass.length_ge
      omega
    obtain ⟨-, -, hend⟩ := hinside f.range (dmNetPoll_eq_datagram.mpr ⟨hpass, hsum, rfl⟩)
    rw [hpass.range_end] at hend
    omega
  · intro hno d hd
    obtain ⟨hpass, hsum, rfl⟩ := dmNetPoll_eq_datagram.mp hd
    have hudp := hpass.udpLength_ge
    have hle := hpass.udpLength_le
    -- without a wrap the IP length bounds the UDP length
    have hend : 14 + f.ipHeaderLength.toNat + f.udpLength.toNat ≤ f.length.toNat := by
      by_contra hover
      exact hno ⟨hpass, by omega, by omega⟩
    refine ⟨by omega, ?_, hpass.range_end ▸ hend⟩
    simp only [Frame.udp]
    omega

/-! ## A wrapped length -/

def wrapInterface : Interface := ⟨[10, 0, 0, 1], 21300, [2, 0, 0, 0, 0, 1]⟩

/-- A frame of 60 bytes to UDP port 21300 of 10.0.0.1 with IP length 65535 and UDP length
    1008. -/
def wrapBytes : Bytes :=
  [2, 0, 0, 0, 0, 1, 2, 0, 0, 0, 0, 2, 8, 0,
    0x45, 0, 0xFF, 0xFF, 0, 1, 0, 0, 64, 17, 0x66, 0xEA, 10, 0, 0, 2, 10, 0, 0, 1,
    0x9C, 0x40, 0x53, 0x34, 3, 0xF0, 0, 0]

def wrapFrame : Frame := ⟨fun i => byteAt wrapBytes i, 60⟩

def staleRange : UdpRange := ⟨42, 1000, ⟨[2, 0, 0, 0, 0, 2], [10, 0, 0, 2], 40000⟩⟩

/-- `dm_net_poll` accepts it: 1000 bytes from offset 42 of a frame of 60. -/
theorem wrapped_length_hands_out_stale_bytes :
    wrapFrame.length.toNat ≤ maxFrame ∧ dmNetPoll wrapInterface wrapFrame = .datagram staleRange ∧
      ¬ wrapFrame.Inside staleRange := by
  refine ⟨by decide, by decide +kernel, fun h => ?_⟩
  exact absurd h.2.2 (by decide)

end DosMcp.Dos
