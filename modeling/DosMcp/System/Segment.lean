/-
  DosMcp.System.Segment — any number of agents on one Ethernet segment, among other hosts.

  Every frame that a node's driver has taken is on the wire, and may reach any node, any number of
  times and at any time, or never. Other hosts may put any frame on the wire as well.

  - `heard_was_sent`: what a node polls out of a frame of another node is a datagram that that
    node was told to send, to the one that polls it, with its payload and its sender.
  - `arp_cannot_storm`: the nodes hand over padded frames only, one for each datagram they were
    told to send and one for each ARP request of another host; they never answer each other.
-/

import DosMcp.Dos.Station

namespace DosMcp.Dos

open Lib Receive

/-! ## Nodes -/

/-- A datagram that a node was told to send, and the node at that time. -/
structure Sending where
  node : Interface
  identifier : UInt16
  peer : Peer
  payload : Bytes
  ttl : UInt8

def Sending.frame (m : Sending) : Bytes := padFrame (sentFrame m.node m.identifier m.peer m.payload m.ttl)

/-- A node, what it was told to send, and the frames of other hosts that its driver was given. -/
structure Node where
  net : NetLink
  told : List Sending
  others : List Bytes

namespace Node

inductive Act where
  | open (packetInterrupt : UInt8) (ip : Bytes) (port : UInt16)
  | close
  | send (peer : Peer) (payload : Bytes)
  | broadcast (port : UInt16) (payload : Bytes)
  | poll
  | release
  /-- A frame of a node. -/
  | hear (frame : Bytes) (tick : UInt16)
  /-- A frame of another host. -/
  | receive (frame : Bytes) (tick : UInt16)

def tell (x : Node) (peer : Peer) (payload : Bytes) (ttl : UInt8) : List Sending :=
  x.told ++ [⟨x.net.interface, x.net.ipIdentifier, peer, payload, ttl⟩]

def act (x : Node) : Act → Node
  | .open packetInterrupt ip port => { x with net := (dmNetOpen packetInterrupt ip port x.net).2 }
  | .close => { x with net := dmNetClose x.net }
  | .send peer payload => { x with net := (dmNetSend peer payload x.net).2, told := x.tell peer payload 64 }
  | .broadcast port payload =>
    { x with net := (dmNetBroadcast port payload x.net).2, told := x.tell (broadcastPeer port) payload 1 }
  | .poll => { x with net := x.net.poll.2 }
  | .release => { x with net := dmNetRelease x.net }
  | .hear frame tick => { x with net := x.net.arrive frame tick }
  | .receive frame tick => { x with net := x.net.arrive frame tick, others := x.others ++ [frame] }

/-- Addresses have the lengths of their arrays, and what is heard is on the wire. -/
def Act.Possible (wire : Bytes → Prop) : Act → Prop
  | .open _ ip _ => ip.length = 4
  | .send peer _ => peer.mac.length = 6 ∧ peer.ip.length = 4
  | .hear frame _ => wire frame
  | .receive frame _ => frame.length ≤ 65535
  | _ => True

/-- The frames of other hosts that ask for an address. -/
def requests (x : Node) : Nat := (x.others.filter isArpRequest).length

/-- A frame on the wire: of a datagram that some node was told to send, or an ARP reply. -/
def Ours (told : List Sending) (frame : Bytes) : Prop :=
  (∃ m ∈ told, m.payload.length ≤ 1476 ∧ frame = m.frame) ∨ ArpReply frame

/-- What a node's buffer may hold. -/
structure Slot (wire : Bytes → Prop) (x : Node) (frame : Bytes) : Prop where
  holds : x.net.link.receiver.frame.Holds frame
  source : wire frame ∨ frame ∈ x.others ∧
    (isArpRequest frame = true → x.net.link.driver.sent.length + 1 ≤ x.told.length + x.requests)

structure Inv (wire : Bytes → Prop) (x : Node) : Prop where
  ip_length : x.net.localIp.length = 4
  address_length : x.net.link.hardwareAddress.length = 6
  addresses : ∀ k a, x.net.link.driver.addresses k = some a → a.length = 6
  told : ∀ m ∈ x.told, Addressed m.node m.peer
  sent : ∀ frame ∈ x.net.link.driver.sent, Ours x.told frame
  slot : x.net.link.receiver.ready = true → ∃ frame, Slot wire x frame
  counted : x.net.link.driver.sent.length ≤ x.told.length + x.requests

section

variable {wire wire' : Bytes → Prop} {x : Node}

theorem Inv.mono (h : x.Inv wire) (hwire : ∀ frame, wire frame → wire' frame) : x.Inv wire' := by
  refine ⟨h.ip_length, h.address_length, h.addresses, h.told, h.sent, fun hready => ?_, h.counted⟩
  obtain ⟨frame, hholds, hsource⟩ := h.slot hready
  exact ⟨frame, hholds, hsource.imp_left (hwire frame)⟩

theorem Ours.mono {told told' : List Sending} {frame : Bytes} (h : Ours told frame) (hsub : ∀ m ∈ told, m ∈ told') :
    Ours told' frame := by
  rcases h with ⟨m, hm, hrest⟩ | h
  · exact Or.inl ⟨m, hsub m hm, hrest⟩
  · exact Or.inr h

theorem Ours.plain {told : List Sending} {frame : Bytes} (h : Ours told frame) (htold : ∀ m ∈ told, Addressed m.node m.peer) :
    isArpRequest frame = false ∧ 60 ≤ frame.length ∧ frame.length ≤ 1518 ∧ frame.length % 2 = 0 := by
  rcases h with ⟨m, hm, hsize, rfl⟩ | h
  · obtain ⟨hpadded, hno⟩ := @sentFrame_plain m.node m.peer m.payload m.identifier m.ttl (htold m hm) hsize
    exact ⟨hno, hpadded.minimum, hpadded.maximum, hpadded.even⟩
  · rw [h.length_eq]
    exact ⟨h.not_request, by omega, by omega, rfl⟩

/-- `send_to` keeps the invariant: it hands over at most the frame of what it was told. -/
theorem Inv.sending (h : x.Inv wire) {peer : Peer} (hpeer : peer.mac.length = 6 ∧ peer.ip.length = 4) (payload : Bytes) (ttl : UInt8) :
    ({ x with net := (x.net.sendTo peer payload ttl).2, told := x.tell peer payload ttl } : Node).Inv wire := by
  obtain ⟨⟨hinterface, hreceiver, haddresses⟩, hsent⟩ := sendTo_sent x.net peer payload ttl
  have hlocal : (x.net.sendTo peer payload ttl).2.localIp = x.net.localIp := congrArg Interface.localIp hinterface
  have hhardware : (x.net.sendTo peer payload ttl).2.link.hardwareAddress = x.net.link.hardwareAddress :=
    congrArg Interface.address hinterface
  have htold : ∀ m ∈ x.told, m ∈ x.tell peer payload ttl := fun m hm => List.mem_append_left _ hm
  have hlength : (x.tell peer payload ttl).length = x.told.length + 1 := List.length_append
  have hcounted := h.counted
  constructor
  · exact hlocal ▸ h.ip_length
  · exact hhardware ▸ h.address_length
  · exact haddresses ▸ h.addresses
  · intro m hm
    rcases List.mem_append.mp hm with hm | hm
    · exact h.told m hm
    · rw [List.mem_singleton.mp hm]
      exact ⟨h.ip_length, h.address_length, hpeer.1, hpeer.2⟩
  · intro frame hframe
    rcases hsent with hsent | ⟨hsize, hsent⟩
    · exact (h.sent frame (hsent ▸ hframe)).mono htold
    · rw [hsent] at hframe
      rcases List.mem_append.mp hframe with hframe | hframe
      · exact (h.sent frame hframe).mono htold
      · exact Or.inl ⟨_, List.mem_append_right _ List.mem_cons_self, hsize, List.mem_singleton.mp hframe⟩
  · intro hready
    rw [hreceiver] at hready
    obtain ⟨frame, hholds, hsource⟩ := h.slot hready
    refine ⟨frame, by rw [hreceiver]; exact hholds, hsource.imp_right fun ⟨hmem, hrequest⟩ => ⟨hmem, fun his => ?_⟩⟩
    have hroom := hrequest his
    show (x.net.sendTo peer payload ttl).2.link.driver.sent.length + 1 ≤ (x.tell peer payload ttl).length + x.requests
    rcases hsent with hsent | ⟨-, hsent⟩
    · rw [hsent]
      omega
    · rw [hsent, List.length_append, List.length_singleton]
      omega
  · show (x.net.sendTo peer payload ttl).2.link.driver.sent.length ≤ (x.tell peer payload ttl).length + x.requests
    rcases hsent with hsent | ⟨-, hsent⟩
    · rw [hsent]
      omega
    · rw [hsent, List.length_append, List.length_singleton]
      omega

/-- A poll keeps it: only a request of another host is answered. -/
theorem Inv.polling (h : x.Inv wire) (hwire : ∀ frame, wire frame → isArpRequest frame = false) :
    ({ x with net := x.net.poll.2 } : Node).Inv wire := by
  obtain ⟨hinterface, haddresses, hreceiver, hsent⟩ := pollLink_sent x.net
  have hlocal : x.net.poll.2.localIp = x.net.localIp := congrArg Interface.localIp hinterface
  have hhardware : x.net.poll.2.link.hardwareAddress = x.net.link.hardwareAddress := congrArg Interface.address hinterface
  constructor
  · exact hlocal ▸ h.ip_length
  · exact hhardware ▸ h.address_length
  · exact haddresses ▸ h.addresses
  · exact h.told
  · intro frame hframe
    rcases hsent with hsent | ⟨reply, -, -, hpoll, hsent⟩
    · exact h.sent frame (hsent ▸ hframe)
    · rw [hsent] at hframe
      rcases List.mem_append.mp hframe with hframe | hframe
      · exact h.sent frame hframe
      · rw [List.mem_singleton.mp hframe]
        exact Or.inr (handleArp_reply h.address_length h.ip_length (dmNetPoll_reply hpoll).2)
  · intro hready
    rcases hreceiver with hreceiver | hreceiver
    · rcases hsent with hsent | ⟨-, -, hreleased, -⟩
      · have hready' : x.net.link.receiver.ready = true := hreceiver ▸ hready
        obtain ⟨frame, hholds, hsource⟩ := h.slot hready'
        exact ⟨frame, by rw [hreceiver]; exact hholds, by rw [hsent]; exact hsource⟩
      · exact absurd (hready.symm.trans hreleased) (by decide)
    · have hreleased : x.net.poll.2.link.receiver.ready = false := by rw [hreceiver]; rfl
      exact absurd (hready.symm.trans hreleased) (by decide)
  · show x.net.poll.2.link.driver.sent.length ≤ x.told.length + x.requests
    rcases hsent with hsent | ⟨reply, hready, -, hpoll, hsent⟩
    · rw [hsent]
      exact h.counted
    · -- the buffer holds the request that is counted for this reply
      obtain ⟨frame, hholds, hsource⟩ := h.slot hready
      have hrequest := poll_replies_to_request hholds hpoll
      rw [hsent, List.length_append, List.length_singleton]
      rcases hsource with hsource | ⟨-, hroom⟩
      · rw [hwire frame hsource] at hrequest
        cases hrequest
      · exact hroom hrequest

/-- A frame of either kind that comes in. -/
theorem Inv.arriving (h : x.Inv wire) {frame : Bytes} (tick : UInt16) {others : List Bytes}
    (hothers : ∀ frame ∈ x.others, frame ∈ others) (hle : x.requests ≤ (others.filter isArpRequest).length)
    (hsource : wire frame ∨ frame ∈ others ∧ (isArpRequest frame = true → x.requests + 1 ≤ (others.filter isArpRequest).length)) :
    ({ x with net := x.net.arrive frame tick, others := others } : Node).Inv wire := by
  have hcounted := h.counted
  refine ⟨h.ip_length, h.address_length, h.addresses, h.told, h.sent, fun hready => ?_, Nat.le_trans hcounted (by
    show _ ≤ x.told.length + (others.filter isArpRequest).length
    omega)⟩
  rcases @upcalls_holds frame tick x.net.link.receiver with ⟨hholds, -, -⟩ | ⟨hsame, hframe⟩
  · refine ⟨frame, hholds, hsource.imp_right fun ⟨hmem, hroom⟩ => ⟨hmem, fun his => ?_⟩⟩
    have := hroom his
    show x.net.link.driver.sent.length + 1 ≤ x.told.length + (others.filter isArpRequest).length
    omega
  · obtain ⟨waiting, hholds, hsource⟩ := h.slot (hsame ▸ hready)
    refine ⟨waiting, hframe ▸ hholds, hsource.imp_right fun ⟨hmem, hroom⟩ => ⟨hothers _ hmem, fun his => ?_⟩⟩
    have := hroom his
    show x.net.link.driver.sent.length + 1 ≤ x.told.length + (others.filter isArpRequest).length
    omega

/-- Opening and closing hand over nothing; an open takes an address from the driver. -/
theorem Inv.linked (h : x.Inv wire) {link : PacketLink} (hsame : x.net.link.driver.Same link.driver) {ip : Bytes}
    (hip : ip.length = 4) (port identifier : UInt16) (haddress : link.hardwareAddress.length = 6)
    (hslot : link.receiver.ready = true → x.net.link.receiver.ready = true ∧ link.receiver.frame = x.net.link.receiver.frame) :
    ({ x with net := ⟨ip, port, identifier, link⟩ } : Node).Inv wire := by
  obtain ⟨haddresses, hsent⟩ := hsame
  refine ⟨hip, haddress, haddresses ▸ h.addresses, h.told, ?_, fun hready => ?_, ?_⟩
  · show ∀ frame ∈ link.driver.sent, _
    rw [hsent]
    exact h.sent
  · obtain ⟨hready', hframe⟩ := hslot hready
    obtain ⟨frame, hholds, hsource⟩ := h.slot hready'
    refine ⟨frame, hframe ▸ hholds, hsource.imp_right fun ⟨hmem, hroom⟩ => ⟨hmem, fun his => ?_⟩⟩
    show link.driver.sent.length + 1 ≤ _
    rw [hsent]
    exact hroom his
  · show link.driver.sent.length ≤ _
    rw [hsent]
    exact h.counted

theorem Inv.opening (h : x.Inv wire) (packetInterrupt : UInt8) {ip : Bytes} (hip : ip.length = 4) (port : UInt16) :
    ({ x with net := (dmNetOpen packetInterrupt ip port x.net).2 } : Node).Inv wire := by
  obtain ⟨hsame, haddress⟩ := dmPacketOpen_same packetInterrupt x.net.link
  refine h.linked hsame hip port 1 ?_ (dmPacketOpen_ready packetInterrupt x.net.link)
  rcases haddress with haddress | ⟨k, haddress⟩
  · rw [haddress]
    exact h.address_length
  · exact h.addresses k _ haddress

/-- One step of a node keeps its invariant, and takes no frame off the wire. -/
theorem Inv.act (h : x.Inv wire) (hwire : ∀ frame, wire frame → isArpRequest frame = false) {a : Act} (ha : a.Possible wire) :
    (x.act a).Inv wire ∧ ∀ frame ∈ x.net.link.driver.sent, frame ∈ (x.act a).net.link.driver.sent := by
  have htelling : ∀ peer payload ttl, ∀ frame ∈ x.net.link.driver.sent, frame ∈ (x.net.sendTo peer payload ttl).2.link.driver.sent := by
    intro peer payload ttl frame hframe
    rcases (sendTo_sent x.net peer payload ttl).2 with hsent | ⟨-, hsent⟩
    · exact hsent ▸ hframe
    · rw [hsent]
      exact List.mem_append_left _ hframe
  cases a with
  | «open» packetInterrupt ip port =>
    obtain ⟨⟨-, hsent⟩, -⟩ := dmPacketOpen_same packetInterrupt x.net.link
    exact ⟨h.opening packetInterrupt ha port, fun frame hframe => hsent.symm ▸ hframe⟩
  | close =>
    obtain ⟨haddresses, hsent⟩ := dmPacketClose_same x.net.link
    exact ⟨h.linked ⟨haddresses, hsent⟩ h.ip_length _ _ h.address_length (fun hready => by cases hready), fun frame hframe => hsent.symm ▸ hframe⟩
  | send peer payload => exact ⟨h.sending ha payload 64, htelling peer payload 64⟩
  | broadcast port payload => exact ⟨h.sending ⟨rfl, rfl⟩ payload 1, htelling (broadcastPeer port) payload 1⟩
  | poll =>
    refine ⟨h.polling hwire, fun frame hframe => ?_⟩
    show frame ∈ x.net.poll.2.link.driver.sent
    rcases (pollLink_sent x.net).sent with hsent | ⟨reply, -, -, -, hsent⟩
    · rw [hsent]
      exact hframe
    · rw [hsent]
      exact List.mem_append_left _ hframe
  | release =>
    have hreleased := @Inv.linked wire x h (dmNetRelease x.net).link ⟨rfl, rfl⟩ x.net.localIp h.ip_length x.net.localPort
      x.net.ipIdentifier h.address_length (fun hready => by cases hready)
    exact ⟨hreleased, fun _ hframe => hframe⟩
  | hear frame tick =>
    exact ⟨h.arriving tick (fun _ hmem => hmem) (Nat.le_refl _) (Or.inl ha), fun _ hframe => hframe⟩
  | receive frame tick =>
    refine ⟨h.arriving tick (fun _ hmem => List.mem_append_left _ hmem) ?_ (Or.inr ⟨?_, fun his => ?_⟩), fun _ hframe => hframe⟩
    · rw [List.filter_append, List.length_append]
      exact Nat.le_add_right _ _
    · exact List.mem_append_right _ List.mem_cons_self
    · rw [List.filter_append, List.length_append, List.filter_cons_of_pos his]
      exact Nat.le_refl _

end

end Node

/-! ## The segment -/

abbrev Segment := Nat → Node

namespace Segment

/-- Some node's driver has taken the frame. -/
def OnWire (s : Segment) (frame : Bytes) : Prop := ∃ i, frame ∈ (s i).net.link.driver.sent

/-- Nodes that have done nothing yet, with drivers of Ethernet adapters. -/
def Fresh (s : Segment) : Prop := ∀ i, ∃ buffer driver, s i = ⟨.start buffer driver, [], []⟩ ∧ driver.sent = [] ∧
  ∀ k a, driver.addresses k = some a → a.length = 6

inductive Reached : Segment → Prop
  | start {s : Segment} (h : s.Fresh) : Reached s
  | act {s : Segment} (i : Nat) (a : Node.Act) (h : Reached s) (ha : a.Possible s.OnWire) :
      Reached (Function.update s i ((s i).act a))

variable {s : Segment}

theorem onWire_plain (h : ∀ i, (s i).Inv s.OnWire) {frame : Bytes} (hframe : s.OnWire frame) :
    isArpRequest frame = false ∧ 60 ≤ frame.length ∧ frame.length ≤ 1518 ∧ frame.length % 2 = 0 := by
  obtain ⟨i, hframe⟩ := hframe
  exact ((h i).sent frame hframe).plain (h i).told

theorem Reached.inv (h : Reached s) : ∀ i, (s i).Inv s.OnWire := by
  induction h with
  | start h =>
    intro i
    obtain ⟨buffer, driver, hnode, hsent, haddresses⟩ := h i
    rw [hnode]
    refine ⟨rfl, rfl, haddresses, fun _ hm => absurd hm List.not_mem_nil, ?_, (fun hready => by cases hready), ?_⟩
    · show ∀ frame ∈ driver.sent, _
      rw [hsent]
      exact fun _ hframe => absurd hframe List.not_mem_nil
    · show driver.sent.length ≤ _
      rw [hsent]
      exact Nat.zero_le _
  | @act s i a h ha ih =>
    obtain ⟨hnode, hkept⟩ := (ih i).act (fun frame hframe => (onWire_plain ih hframe).1) ha
    have hwire : ∀ frame, s.OnWire frame → OnWire (Function.update s i ((s i).act a)) frame := by
      rintro frame ⟨j, hframe⟩
      refine ⟨j, ?_⟩
      by_cases hj : j = i
      · subst hj
        rw [Function.update_self]
        exact hkept frame hframe
      · rwa [Function.update_of_ne hj]
    intro j
    by_cases hj : j = i
    · subst hj
      rw [Function.update_self]
      exact hnode.mono hwire
    · rw [Function.update_of_ne hj]
      exact (ih j).mono hwire

end Segment

open Segment

/-- A datagram that a node polls comes out of a frame of another host, or some node was told to
    send exactly it, to the address and port of the one that polls. -/
theorem heard_was_sent {s : Segment} (h : Reached s) (i : Nat) {d : UdpRange} (hpoll : (s i).net.poll.1 = some d) :
    (∃ frame ∈ (s i).others, (s i).net.link.receiver.frame.Holds frame) ∨
      ∃ j, ∃ m ∈ (s j).told, m.peer.ip = (s i).net.localIp ∧ m.peer.port = (s i).net.localPort ∧
        d.peer = ⟨m.node.address, m.node.localIp, m.node.localPort⟩ ∧ d.payloadLength.toNat = m.payload.length ∧
        (s i).net.link.receiver.buffer.Holds d.payload m.payload := by
  have hinv := h.inv
  unfold NetLink.poll at hpoll
  split at hpoll
  · cases hpoll
  rename_i hready
  split at hpoll
  swap
  · cases hpoll
  swap
  · cases hpoll
  rename_i d' hread
  cases hpoll
  obtain ⟨frame, hholds, hsource⟩ := (hinv i).slot (by rwa [Bool.not_eq_false] at hready)
  rcases hsource with ⟨j, hframe⟩ | ⟨hmem, -⟩
  swap
  · exact Or.inl ⟨frame, hmem, hholds⟩
  rcases (hinv j).sent frame hframe with ⟨m, hm, hsize, rfl⟩ | hreply
  · obtain ⟨hip, hport, hlength, hpayload, hpeer⟩ := poll_names_sender ((hinv j).told m hm) hsize hholds hread
    exact Or.inr ⟨j, m, hm, hip.symm, hport.symm, hpeer, hlength, hpayload⟩
  · -- a reply has the wrong type
    have htype := (dmNetPoll_eq_datagram.mp hread).1.ethernetType_eq
    have hword : slice frame 12 2 = _ := hholds.word (by rw [hreply.length_eq]; omega)
    rw [hreply.type_eq, show readBe16 _ 12 = ethTypeIp from htype] at hword
    exact absurd hword (by decide)

/-- Nodes hand over frames of even length, of 60 to 1518 bytes, and no more of them than they were
    told to send datagrams and have got ARP requests of other hosts. -/
theorem arp_cannot_storm {s : Segment} (h : Reached s) (i : Nat) :
    (∀ frame ∈ (s i).net.link.driver.sent, 60 ≤ frame.length ∧ frame.length ≤ 1518 ∧ frame.length % 2 = 0 ∧
      isArpRequest frame = false) ∧
      (s i).net.link.driver.sent.length ≤ (s i).told.length + ((s i).others.filter isArpRequest).length := by
  refine ⟨fun frame hframe => ?_, (h.inv i).counted⟩
  obtain ⟨hno, hminimum, hmaximum, heven⟩ := onWire_plain h.inv ⟨i, hframe⟩
  exact ⟨hminimum, hmaximum, heven, hno⟩

/-- Node 1 is the sender of `framing_round_trip_byte`, all others are its peer. -/
def pairDriver (i : Nat) : PacketDriver :=
  { plainDriver with addresses := fun _ => some (if i = 1 then [2, 0, 0, 0, 0, 1] else [2, 0, 0, 0, 0, 2]) }

def pair : Segment := fun i => ⟨.start (fun _ => 0) (pairDriver i), [], []⟩

theorem pair_fresh : pair.Fresh := by
  refine fun i => ⟨fun _ => 0, pairDriver i, rfl, rfl, fun k a ha => ?_⟩
  simp only [pairDriver, Option.some.injEq] at ha
  rw [← ha]
  split
  · rfl
  · rfl

/-- The steps of one node in a row. -/
def Segment.steps (s : Segment) (i : Nat) (acts : List Node.Act) : Segment :=
  acts.foldl (fun s a => Function.update s i ((s i).act a)) s

/-- Another host asks for 10.0.0.2. -/
def whoHas : Bytes :=
  List.replicate 6 0xFF ++ [2, 0, 0, 0, 0, 9] ++ writeBe16 ethTypeArp ++ writeBe16 1 ++ writeBe16 ethTypeIp ++ [6, 4] ++
    writeBe16 1 ++ [2, 0, 0, 0, 0, 9] ++ [10, 0, 0, 9] ++ List.replicate 6 0 ++ [10, 0, 0, 2]

/-- Node 2 answers the request, and then hears the byte that node 1 sends it. -/
def pairTalks : Segment :=
  let s := pair.steps 1 [.open 0x60 [10, 0, 0, 1] 21300, .send receiverPeer [0x61]]
  let s := s.steps 2 [.open 0x60 [10, 0, 0, 2] 40000, .receive whoHas 0, .poll]
  s.steps 2 [.hear (padFrame (sentFrame senderInterface 1 receiverPeer [0x61] 64)) 0]

theorem pairTalks_reached : Reached pairTalks := by
  have hopened : Reached (pair.steps 1 [.open 0x60 [10, 0, 0, 1] 21300]) := .act 1 _ (.start pair_fresh) rfl
  have hsent := hopened.act 1 (.send receiverPeer [0x61]) ⟨rfl, rfl⟩
  have hready := ((hsent.act 2 (.open 0x60 [10, 0, 0, 2] 40000) rfl).act 2 (.receive whoHas 0) (Nat.le_of_ble_eq_true rfl)).act 2 .poll trivial
  refine hready.act 2 (.hear _ 0) ⟨1, ?_⟩
  decide +kernel

theorem heard_was_sent_pair : ∃ d, (pairTalks 2).net.poll.1 = some d ∧
    ((∃ frame ∈ (pairTalks 2).others, (pairTalks 2).net.link.receiver.frame.Holds frame) ∨
      ∃ j, ∃ m ∈ (pairTalks j).told, m.peer.ip = (pairTalks 2).net.localIp ∧
        (pairTalks 2).net.link.receiver.buffer.Holds d.payload m.payload) := by
  have hpoll : (pairTalks 2).net.poll.1 = some ⟨42, 1, ⟨[2, 0, 0, 0, 0, 1], [10, 0, 0, 1], 21300⟩⟩ := by decide +kernel
  refine ⟨_, hpoll, ?_⟩
  rcases heard_was_sent pairTalks_reached 2 hpoll with hother | ⟨j, m, hm, hip, -, -, -, hholds⟩
  · exact Or.inl hother
  · exact Or.inr ⟨j, m, hm, hip, hholds⟩

/-- One request, one reply. -/
theorem arp_cannot_storm_pair : (pairTalks 2).net.link.driver.sent.length = 1 ∧
    (pairTalks 2).net.link.driver.sent.length ≤ (pairTalks 2).told.length + ((pairTalks 2).others.filter isArpRequest).length :=
  ⟨by decide +kernel, (arp_cannot_storm pairTalks_reached 2).2⟩

end DosMcp.Dos
