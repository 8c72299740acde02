/-
  DosMcp.Dos.Station — `dmnet.c` over the packet driver: what a node puts on the wire.

  A node has the statics of `dmnet.c` and of `dmpacket.c`. It sends a datagram when it is told to,
  and on its own it sends ARP replies, from inside `dm_net_poll`.

  - `sendTo_sent`, `pollLink_sent`: what one call hands to the driver.
  - `poll_names_sender`: who polls a datagram out of a frame of `send_to` is the one it was for,
    and reads the payload and the sender.
  - `poll_replies_to_request`: only an ARP request is answered.
-/

import DosMcp.Dos.Driver
import DosMcp.Dos.Framing

namespace DosMcp.Dos

open Lib Receive

/-- The statics of `dmnet.c`, over those of `dmpacket.c`. -/
structure NetLink where
  localIp : Bytes
  localPort : UInt16
  ipIdentifier : UInt16
  link : PacketLink

namespace NetLink

/-- The statics as the program starts. -/
def start (buffer : Memory) (driver : PacketDriver) : NetLink := ⟨List.replicate 4 0, 0, 0, .start buffer driver⟩

/-- The node's addresses; `dm_net_address` is that of the adapter. -/
def interface (s : NetLink) : Interface := ⟨s.localIp, s.localPort, s.link.hardwareAddress⟩

/-- `send_to`, to the end. -/
def sendTo (s : NetLink) (peer : Peer) (payload : Bytes) (ttl : UInt8) : Int × NetLink :=
  match Dos.sendTo s.interface s.ipIdentifier peer payload ttl with
  | (none, _) => (-1, s)
  | (some frame, identifier) =>
    let (result, link) := dmPacketSend frame s.link
    (result, { s with ipIdentifier := identifier, link := link })

end NetLink

def dmNetOpen (packetInterrupt : UInt8) (ip : Bytes) (port : UInt16) (s : NetLink) : Int × NetLink :=
  let (result, link) := dmPacketOpen packetInterrupt s.link
  (result, ⟨ip, port, 1, link⟩)

def dmNetClose (s : NetLink) : NetLink := { s with link := dmPacketClose s.link }

def dmNetSend (peer : Peer) (payload : Bytes) (s : NetLink) : Int × NetLink := s.sendTo peer payload 64

def broadcastPeer (port : UInt16) : Peer := ⟨List.replicate 6 0xFF, List.replicate 4 0xFF, port⟩

def dmNetBroadcast (port : UInt16) (payload : Bytes) (s : NetLink) : Int × NetLink := s.sendTo (broadcastPeer port) payload 1

def dmNetRelease (s : NetLink) : NetLink :=
  { s with link := { s.link with receiver := dmPacketReleaseReceive s.link.receiver } }

/-- `dm_net_poll`, with the reply it sends and the buffer it releases. -/
def NetLink.poll (s : NetLink) : Option UdpRange × NetLink :=
  if s.link.receiver.ready = false then (none, s)
  else match dmNetPoll s.interface s.link.receiver.frame with
    | .datagram d => (some d, s)
    | .dropped none => (none, dmNetRelease s)
    | .dropped (some reply) => (none, dmNetRelease { s with link := (dmPacketSend reply s.link).2 })

/-- The two upcalls of the driver for a frame, and its copy between them. -/
def upcalls (frame : Bytes) (tick : UInt16) (r : Receiver) : Receiver :=
  match dmPacketReceiver 0 (.ofNat frame.length) tick r with
  | (true, r) => (dmPacketReceiver 1 (.ofNat frame.length) tick { r with buffer := r.buffer.store 0 frame }).2
  | (false, r) => r

def NetLink.arrive (frame : Bytes) (tick : UInt16) (s : NetLink) : NetLink :=
  { s with link := { s.link with receiver := upcalls frame tick s.link.receiver } }

/-! ## Frames as byte strings -/

/-- The frame lies in the buffer. -/
structure Frame.Holds (f : Frame) (frame : Bytes) : Prop where
  length_eq : f.length = .ofNat frame.length
  bytes : f.buffer.Holds 0 frame

def isArpRequest (frame : Bytes) : Bool :=
  decide (42 ≤ frame.length) && slice frame 12 2 == writeBe16 ethTypeArp && slice frame 20 2 == writeBe16 1

section

variable {f : Frame} {frame : Bytes} {n receiver : Interface} {peer : Peer} {payload : Bytes} {identifier : UInt16} {ttl : UInt8}

theorem writeBe16_readBe16 (m : Memory) (offset : Nat) : writeBe16 (readBe16 m offset) = [m offset, m (offset + 1)] := by
  have hhigh := (m offset).toNat_lt
  have hlow := (m (offset + 1)).toNat_lt
  have hvalue := be16_toNat (m offset) (m (offset + 1))
  unfold writeBe16 readBe16
  congr 1
  · apply UInt8.toNat_inj.mp
    rw [UInt16.toNat_toUInt8, UInt16.toNat_shiftRight, hvalue]
    simp only [UInt16.reduceToNat, Nat.reduceMod, Nat.shiftRight_eq_div_pow, Nat.reducePow]
    omega
  · congr 1
    apply UInt8.toNat_inj.mp
    rw [UInt16.toNat_toUInt8, hvalue]
    omega

/-- A word of the buffer is a word of the frame. -/
theorem Frame.Holds.word (h : f.Holds frame) {offset : Nat} (hin : offset + 2 ≤ frame.length) :
    slice frame offset 2 = writeBe16 (readBe16 f.buffer offset) := by
  rw [writeBe16_readBe16, ← h.bytes, Memory.slice_load, Nat.min_eq_right (by omega), Nat.zero_add]
  rfl

theorem handleArp_cases {reply : Bytes} (h : handleArp n f = some reply) :
    42 ≤ f.length.toNat ∧ readBe16 f.buffer 20 = 1 ∧
      reply = f.buffer.load 6 6 ++ n.address ++ writeBe16 ethTypeArp ++ writeBe16 1 ++ writeBe16 ethTypeIp ++ [6, 4] ++
        writeBe16 2 ++ n.address ++ n.localIp ++ f.buffer.load 22 6 ++ f.buffer.load 28 4 ++ List.replicate 18 0 := by
  unfold handleArp at h
  by_cases hshort : f.length < 42
  · rw [if_pos hshort] at h
    cases h
  rw [if_neg hshort] at h
  split at h
  · cases h
  · rename_i hrequest
    simp only [not_or, not_not] at hrequest
    cases h
    exact ⟨by rw [UInt16.not_lt, UInt16.le_iff_toNat_le] at hshort; exact hshort, hrequest.2.2.2.2.1, rfl⟩

/-- A poll that sends has an ARP request. -/
theorem dmNetPoll_reply {reply : Bytes} (h : dmNetPoll n f = .dropped (some reply)) :
    f.ethernetType = ethTypeArp ∧ handleArp n f = some reply := by
  have hno : ∀ {c : Prop} [Decidable c] {rest : Polled}, (if c then Polled.dropped none else rest) = .dropped (some reply) →
      ¬ c ∧ rest = .dropped (some reply) := by
    intro c _ rest h
    split at h
    · cases h
    · exact ⟨‹_›, h⟩
  unfold dmNetPoll at h
  obtain ⟨-, h⟩ := hno h
  by_cases harp : f.ethernetType = ethTypeArp
  · rw [if_pos harp] at h
    cases harp' : handleArp n f with
    | none =>
      rw [harp'] at h
      cases h
    | some sent =>
      rw [harp'] at h
      cases h
      exact ⟨harp, rfl⟩
  · rw [if_neg harp] at h
    obtain ⟨-, h⟩ := hno h
    obtain ⟨-, h⟩ := hno h
    obtain ⟨-, h⟩ := hno h
    obtain ⟨-, h⟩ := hno h
    obtain ⟨-, h⟩ := hno h
    obtain ⟨-, h⟩ := hno h
    obtain ⟨-, h⟩ := hno h
    obtain ⟨-, h⟩ := hno h
    cases h

theorem poll_replies_to_request {reply : Bytes} (hholds : f.Holds frame) (h : dmNetPoll n f = .dropped (some reply)) :
    isArpRequest frame = true := by
  obtain ⟨htype, harp⟩ := dmNetPoll_reply h
  obtain ⟨hlength, hrequest, -⟩ := handleArp_cases harp
  have hlong : 42 ≤ frame.length := by
    rw [hholds.length_eq, UInt16.toNat_ofNat'] at hlength
    omega
  have htype : readBe16 f.buffer 12 = ethTypeArp := htype
  simp only [isArpRequest, Bool.and_eq_true, decide_eq_true_eq, beq_iff_eq]
  rw [hholds.word (by omega), hholds.word (by omega), htype, hrequest]
  exact ⟨⟨hlong, rfl⟩, rfl⟩

/-- A frame as `handle_arp` makes it. -/
structure ArpReply (frame : Bytes) : Prop where
  length_eq : frame.length = 60
  type_eq : slice frame 12 2 = writeBe16 ethTypeArp
  opcode_eq : slice frame 20 2 = writeBe16 2

theorem ArpReply.not_request (h : ArpReply frame) : isArpRequest frame = false := by
  have hne : (writeBe16 2 == writeBe16 1) = false := by decide
  rw [isArpRequest, h.opcode_eq, hne, Bool.and_false]

theorem handleArp_reply {reply : Bytes} (haddress : n.address.length = 6) (hip : n.localIp.length = 4)
    (h : handleArp n f = some reply) : ArpReply reply := by
  obtain ⟨-, -, rfl⟩ := handleArp_cases h
  have hwords : ∀ value, (writeBe16 value).length = 2 := fun _ => rfl
  have hmacs : (f.buffer.load 6 6 ++ n.address).length = 12 := by rw [List.length_append, Memory.load_length, haddress]
  have hstart : (f.buffer.load 6 6 ++ n.address ++ writeBe16 ethTypeArp ++ writeBe16 1 ++ writeBe16 ethTypeIp ++
      [6, 4]).length = 20 := by
    simp only [List.length_append, Memory.load_length, haddress, hwords, List.length_cons, List.length_nil]
  constructor
  · simp only [List.length_append, Memory.load_length, haddress, hip, hwords, List.length_cons, List.length_nil,
      List.length_replicate]
  · simp only [List.append_assoc] at hmacs ⊢
    rw [← List.append_assoc, slice_append_right _ (show _ + 0 = 12 by rw [hmacs])]
    exact slice_append_left _ (Nat.le_refl 2)
  · have hopcode : ∀ rest : Bytes, slice ((f.buffer.load 6 6 ++ n.address ++ writeBe16 ethTypeArp ++ writeBe16 1 ++
        writeBe16 ethTypeIp ++ [6, 4]) ++ (writeBe16 2 ++ rest)) 20 2 = writeBe16 2 := by
      intro rest
      rw [slice_append_right _ (show _ + 0 = 20 by rw [hstart]), slice_append_left _ (by rw [hwords])]
      rfl
    simp only [List.append_assoc] at hopcode ⊢
    exact hopcode _

/-- A datagram out of a frame of `send_to` is read where it was sent, with its payload and its sender. -/
theorem poll_names_sender (h : Addressed n peer) (hsize : payload.length ≤ 1476)
    (hholds : f.Holds (padFrame (sentFrame n identifier peer payload ttl))) {d : UdpRange}
    (hpoll : dmNetPoll receiver f = .datagram d) :
    receiver.localIp = peer.ip ∧ receiver.localPort = peer.port ∧ d.payloadLength.toNat = payload.length ∧
      f.buffer.Holds d.payload payload ∧ d.peer = ⟨n.address, n.localIp, n.localPort⟩ := by
  have hfits : (sentFrame n identifier peer payload ttl).length ≤ maxFrame := by
    rw [sentFrame_length h]
    show 42 + payload.length ≤ 1518
    omega
  have hpadded := padFrame_padded hfits
  obtain ⟨hpass, -, -⟩ := dmNetPoll_eq_datagram.mp hpoll
  have hbytes := hholds.bytes
  obtain ⟨padding, hextends⟩ := hpadded.extends_frame
  rw [hextends, Memory.holds_append] at hbytes
  obtain ⟨-, -, hheader, -, hdestination, -, -⟩ := sentFrame_parts h hbytes.1
  obtain ⟨hversion, -, -, -, -, hremote⟩ := sendHeader_fields h hheader
  have hstart : f.udp = 34 := by
    show 14 + ((f.buffer 14 &&& 0x0F) * 4).toNat = 34
    rw [hversion]
    rfl
  have hip : receiver.localIp = peer.ip := hpass.destination_eq.symm.trans hremote
  have hport : receiver.localPort = peer.port := by
    rw [← hpass.port_eq, hstart]
    exact hdestination
  obtain ⟨d', hread, hlength, hpayload, hpeer⟩ := poll_sent h hsize hip hport hpadded hholds.bytes
  have hframe : f = ⟨f.buffer, .ofNat (padFrame (sentFrame n identifier peer payload ttl)).length⟩ := by
    rw [← hholds.length_eq]
  rw [← hframe, hpoll] at hread
  cases hread
  exact ⟨hip, hport, hlength, hpayload, hpeer⟩

/-- A frame of `send_to` is padded, and no ARP request. -/
theorem sentFrame_plain (h : Addressed n peer) (hsize : payload.length ≤ 1476) :
    Padded (sentFrame n identifier peer payload ttl) (padFrame (sentFrame n identifier peer payload ttl)) ∧
      isArpRequest (padFrame (sentFrame n identifier peer payload ttl)) = false := by
  have hlength : (sentFrame n identifier peer payload ttl).length = 42 + payload.length := sentFrame_length h
  have hpadded : Padded _ (padFrame (sentFrame n identifier peer payload ttl)) := padFrame_padded (by
    rw [hlength]
    show 42 + payload.length ≤ 1518
    omega)
  refine ⟨hpadded, ?_⟩
  obtain ⟨padding, hextends⟩ := hpadded.extends_frame
  have hbefore : (peer.mac ++ n.address).length = 12 := by rw [List.length_append, h.mac_length, h.address_length]
  have htype : slice (padFrame (sentFrame n identifier peer payload ttl)) 12 2 = writeBe16 ethTypeIp := by
    rw [hextends, slice_append_left _ (by omega)]
    unfold sentFrame
    dsimp only
    rw [List.append_assoc, List.append_assoc, List.append_assoc, slice_append_right _ (show _ + 0 = 12 by rw [hbefore])]
    exact slice_append_left _ (Nat.le_refl 2)
  have hne : (writeBe16 ethTypeIp == writeBe16 ethTypeArp) = false := by decide
  rw [isArpRequest, htype, hne, Bool.and_false, Bool.false_and]

end

/-! ## What one call does -/

/-- What the driver answers, and what it has been handed. -/
def PacketDriver.Same (d d' : PacketDriver) : Prop := d'.addresses = d.addresses ∧ d'.sent = d.sent

section

variable {d : PacketDriver} {s : NetLink} {peer : Peer} {payload : Bytes} {ttl : UInt8}

theorem packetRelease_same (d : PacketDriver) (handle : UInt16) : d.Same (packetRelease d handle).2 := by
  unfold packetRelease PacketDriver.releaseType
  by_cases hgoes : handle ∈ d.handles ∧ d.refuses d.calls = false
  · rw [if_pos hgoes]
    exact ⟨rfl, rfl⟩
  · rw [if_neg hgoes]
    exact ⟨rfl, rfl⟩

theorem releaseHandle_same (result : Int) (handle : UInt16) (d : PacketDriver) : d.Same (releaseHandle result handle d).2 := by
  unfold releaseHandle
  by_cases hvalid : handle ≠ dmPacketInvalidHandle
  · rw [if_pos hvalid]
    exact packetRelease_same d handle
  · rw [if_neg hvalid]
    exact ⟨rfl, rfl⟩

theorem dmPacketClose_same (p : PacketLink) : p.driver.Same (dmPacketClose p).driver := by
  obtain ⟨haddresses, hsent⟩ := releaseHandle_same 0 p.arpHandle p.driver
  obtain ⟨haddresses', hsent'⟩ := releaseHandle_same (releaseHandle 0 p.arpHandle p.driver).1 p.ipHandle
    (releaseHandle 0 p.arpHandle p.driver).2
  exact ⟨haddresses'.trans haddresses, hsent'.trans hsent⟩

theorem accessType_same (d : PacketDriver) : d.Same d.accessType.2 := by
  unfold PacketDriver.accessType
  split
  · exact ⟨rfl, rfl⟩
  · exact ⟨rfl, rfl⟩

theorem PacketDriver.Same.trans {d' d'' : PacketDriver} (h : d.Same d') (h' : d'.Same d'') : d.Same d'' :=
  ⟨h'.1.trans h.1, h'.2.trans h.2⟩

/-- Opening sends nothing, and the adapter's address is one that the driver gives. -/
theorem dmPacketOpen_same (number : UInt8) (p : PacketLink) :
    p.driver.Same (dmPacketOpen number p).2.driver ∧ ((dmPacketOpen number p).2.hardwareAddress = p.hardwareAddress ∨
      ∃ k, p.driver.addresses k = some (dmPacketOpen number p).2.hardwareAddress) := by
  unfold dmPacketOpen
  split
  · exact ⟨⟨rfl, rfl⟩, Or.inl rfl⟩
  dsimp only
  have hip := accessType_same p.driver
  split
  · rename_i hcall
    rw [hcall] at hip
    exact ⟨hip, Or.inl rfl⟩
  · rename_i ipHandle driver hcall
    rw [hcall] at hip
    have harp := accessType_same driver
    split
    · rename_i driver' hcall'
      rw [hcall'] at harp
      exact ⟨hip.trans (harp.trans (packetRelease_same driver' ipHandle)), Or.inl rfl⟩
    · rename_i arpHandle driver' hcall'
      rw [hcall'] at harp
      split
      · rename_i driver'' hcall''
        obtain ⟨-, rfl⟩ := Prod.mk.inj hcall''
        exact ⟨hip.trans (harp.trans (dmPacketClose_same _)), Or.inl rfl⟩
      · rename_i address driver'' hcall''
        obtain ⟨haddress, rfl⟩ := Prod.mk.inj hcall''
        refine ⟨hip.trans harp, Or.inr ⟨driver'.calls, ?_⟩⟩
        rw [← hip.1, ← harp.1]
        exact haddress

/-- Opening empties the receive buffer, unless there is no driver. -/
theorem dmPacketOpen_ready (number : UInt8) (p : PacketLink) (h : (dmPacketOpen number p).2.receiver.ready = true) :
    p.receiver.ready = true ∧ (dmPacketOpen number p).2.receiver.frame = p.receiver.frame := by
  unfold dmPacketOpen at h ⊢
  by_cases hpresent : packetDriverPresent p.driver number = true
  swap
  · rw [if_pos hpresent] at h ⊢
    exact ⟨h, rfl⟩
  rw [if_neg (not_not.mpr hpresent)] at h
  dsimp only at h
  split at h
  · cases h
  split at h
  · cases h
  split at h
  · cases h
  · cases h

/-- One frame at most goes to the driver; nothing else changes but counters. -/
theorem dmPacketSend_sent (frame : Bytes) (p : PacketLink) :
    ((dmPacketSend frame p).2.driver.sent = p.driver.sent ∨ (dmPacketSend frame p).2.driver.sent = p.driver.sent ++ [frame]) ∧
      (dmPacketSend frame p).2.driver.addresses = p.driver.addresses ∧
      (dmPacketSend frame p).2.hardwareAddress = p.hardwareAddress ∧ (dmPacketSend frame p).2.receiver = p.receiver := by
  rcases dmPacketSend_cases frame p with ⟨-, -, -, hlink⟩ | ⟨-, calls, hlink⟩
  · rw [hlink]
    exact ⟨Or.inr rfl, rfl, rfl, rfl⟩
  · rw [hlink]
    exact ⟨Or.inl rfl, rfl, rfl, rfl⟩

/-- All of a node's statics and of its driver that sending leaves alone. -/
structure NetLink.Keeps (s s' : NetLink) : Prop where
  interface : s'.interface = s.interface
  receiver : s'.link.receiver = s.link.receiver
  addresses : s'.link.driver.addresses = s.link.driver.addresses

/-- `send_to` hands over its frame or nothing, and nothing for a long payload. -/
theorem sendTo_sent (s : NetLink) (peer : Peer) (payload : Bytes) (ttl : UInt8) : s.Keeps (s.sendTo peer payload ttl).2 ∧
    ((s.sendTo peer payload ttl).2.link.driver.sent = s.link.driver.sent ∨ (payload.length ≤ 1476 ∧
      (s.sendTo peer payload ttl).2.link.driver.sent =
        s.link.driver.sent ++ [padFrame (sentFrame s.interface s.ipIdentifier peer payload ttl)])) := by
  unfold NetLink.sendTo
  by_cases hlong : payload.length > maxFrame - 14 - 20 - 8
  · rw [Dos.sendTo, if_pos hlong]
    exact ⟨⟨rfl, rfl, rfl⟩, Or.inl rfl⟩
  · rw [Dos.sendTo, if_neg hlong]
    dsimp only
    obtain ⟨hsent, haddresses, hhardware, hreceiver⟩ :=
      dmPacketSend_sent (padFrame (sentFrame s.interface s.ipIdentifier peer payload ttl)) s.link
    refine ⟨⟨?_, hreceiver, haddresses⟩, ?_⟩
    · exact congrArg (Interface.mk s.localIp s.localPort) hhardware
    · rcases hsent with hsent | hsent
      · exact Or.inl hsent
      · exact Or.inr ⟨Nat.le_of_not_lt hlong, hsent⟩

/-- What a poll does to the node: it may release the buffer, and it may hand over the reply to the frame in it. -/
structure NetLink.Polls (s s' : NetLink) : Prop where
  interface : s'.interface = s.interface
  addresses : s'.link.driver.addresses = s.link.driver.addresses
  receiver : s'.link.receiver = s.link.receiver ∨ s'.link.receiver = dmPacketReleaseReceive s.link.receiver
  sent : s'.link.driver.sent = s.link.driver.sent ∨ ∃ reply, s.link.receiver.ready = true ∧
    s'.link.receiver.ready = false ∧ dmNetPoll s.interface s.link.receiver.frame = .dropped (some reply) ∧
    s'.link.driver.sent = s.link.driver.sent ++ [reply]

theorem pollLink_sent (s : NetLink) : s.Polls s.poll.2 := by
  unfold NetLink.poll
  by_cases hready : s.link.receiver.ready = false
  · rw [if_pos hready]
    exact ⟨rfl, rfl, Or.inl rfl, Or.inl rfl⟩
  · rw [if_neg hready]
    split
    · exact ⟨rfl, rfl, Or.inl rfl, Or.inl rfl⟩
    · exact ⟨rfl, rfl, Or.inr rfl, Or.inl rfl⟩
    · rename_i reply hpoll
      obtain ⟨hsent, haddresses, hhardware, hreceiver⟩ := dmPacketSend_sent reply s.link
      refine ⟨?_, haddresses, Or.inr (congrArg dmPacketReleaseReceive hreceiver), ?_⟩
      · exact congrArg (Interface.mk s.localIp s.localPort) hhardware
      · rcases hsent with hsent | hsent
        · exact Or.inl hsent
        · exact Or.inr ⟨reply, by rwa [Bool.not_eq_false] at hready, rfl, hpoll, hsent⟩

/-- A frame that comes in is dropped, or it is what the buffer then holds. -/
theorem upcalls_holds {frame : Bytes} (tick : UInt16) (r : Receiver) :
    (upcalls frame tick r).frame.Holds frame ∧ (upcalls frame tick r).ready = true ∧ r.ready = false ∨
      (upcalls frame tick r).ready = r.ready ∧ (upcalls frame tick r).frame = r.frame := by
  unfold upcalls
  by_cases hdrop : r.ready = true ∨ (1518 : UInt16) < .ofNat frame.length
  · have hcall : dmPacketReceiver 0 (.ofNat frame.length) tick r =
        (false, { r with allocations := r.allocations + 1, drops := r.drops + 1 }) := by
      rw [dmPacketReceiver, if_pos rfl]
      exact if_pos hdrop
    rw [hcall]
    exact Or.inr ⟨rfl, rfl⟩
  · have hcall : dmPacketReceiver 0 (.ofNat frame.length) tick r = (true, { r with allocations := r.allocations + 1 }) := by
      rw [dmPacketReceiver, if_pos rfl]
      exact if_neg hdrop
    rw [hcall]
    refine Or.inl ⟨⟨rfl, Memory.load_store_same r.buffer 0 frame⟩, rfl, ?_⟩
    rw [not_or, Bool.not_eq_true] at hdrop
    exact hdrop.1

end

end DosMcp.Dos
