/-
  DosMcp.Dos.Receive — the receive buffer of `dmpacket.c`: the packet driver's upcalls
  (`dmpacket_rx.asm`) fill it at interrupt time, `dm_net_poll` and its caller read it byte by
  byte and release it. A step of the driver may stand between any two steps of the agent.

  The driver keeps its contract: AX=0 with the length of a frame; after a grant the bytes of
  that frame, in any order, and AX=1, with no other upcall in between.

  - `receive_buffer_exclusive`: from a poll that returns 1 to the release the buffer holds
    one completed frame and nothing changes it; every frame goes through grant, completion
    and release before the next is granted; the counters balance.
  - `worker_keeps_slot`: the buffer, seen as the slot of the agent's state, is left by the
    resident worker as `pollDatagram` leaves that slot.
-/

import DosMcp.Dos.Net
import DosMcp.Dos.Worker
import DosMcp.Lib.Handoff
import DosMcp.Lib.Reading

namespace DosMcp.Dos.Receive

open Lib

/-! ## `dmpacket.c` and the upcall -/

/-- The statics that the upcall and the agent share. -/
structure Receiver where
  ready : Bool
  length : UInt16
  buffer : Memory
  allocations : UInt16
  completions : UInt16
  drops : UInt16
  lastBiosTick : UInt16

/-- As `dm_packet_open` leaves them. -/
def Receiver.opened (buffer : Memory) : Receiver := ⟨false, 0, buffer, 0, 0, 0, 0⟩

/-- `dm_packet_receiver_`: whether ES:DI points at the buffer on return, and the statics. -/
def dmPacketReceiver (ax cx tick : UInt16) (r : Receiver) : Bool × Receiver :=
  if ax = 0 then
    let r := { r with allocations := r.allocations + 1 }
    if r.ready ∨ 1518 < cx then (false, { r with drops := r.drops + 1 }) else (true, r)
  else if ax = 1 then
    (false, { r with completions := r.completions + 1, length := cx, ready := true, lastBiosTick := tick })
  else (false, r)

def dmPacketReleaseReceive (r : Receiver) : Receiver := { r with ready := false }

def Receiver.frame (r : Receiver) : Frame := ⟨r.buffer, r.length⟩

/-! ## `dm_net_poll` one byte at a time -/

section

open Reading

def readBe16Reading (offset : Nat) : Reading UInt16 := do
  let high ← read offset
  let low ← read (offset + 1)
  pure ((high.toUInt16 <<< 8) ||| low.toUInt16)

def handleArpReading (n : Interface) (length : UInt16) : Reading (Option Bytes) := do
  if length < 42 then return none
  let hardware ← readBe16Reading 14
  let protocol ← readBe16Reading 16
  let hardwareSize ← read 18
  let protocolSize ← read 19
  let operation ← readBe16Reading 20
  let target ← load 38 4
  if hardware ≠ 1 ∨ protocol ≠ ethTypeIp ∨ hardwareSize ≠ 6 ∨ protocolSize ≠ 4 ∨ operation ≠ 1 ∨
      target ≠ n.localIp then return none
  let source ← load 6 6
  let senderMac ← load 22 6
  let senderIp ← load 28 4
  return some (source ++ n.address ++ writeBe16 ethTypeArp ++ writeBe16 1 ++ writeBe16 ethTypeIp ++ [6, 4] ++
    writeBe16 2 ++ n.address ++ n.localIp ++ senderMac ++ senderIp ++ List.replicate 18 0)

/-- What is left of `dm_net_poll` when `dm_packet_receive` has returned `length`. -/
def dmNetPollReading (n : Interface) (length : UInt16) : Reading Polled := do
  if length < ethHeader then return .dropped none
  let ethernetType ← readBe16Reading 12
  if ethernetType = ethTypeArp then
    let reply ← handleArpReading n length
    return .dropped reply
  if ethernetType ≠ ethTypeIp ∨ length < ethHeader + ipHeader then return .dropped none
  let first ← read 14
  let ipHeaderLength := (first &&& 0x0F) * 4
  let ipLength ← readBe16Reading 16
  -- the source reads `ip[0]` a second time
  let version ← read 14
  if version >>> 4 ≠ 4 ∨ ipHeaderLength.toUInt16 < ipHeader then return .dropped none
  if ipLength < ipHeaderLength.toUInt16 + udpHeader ∨ ethHeader + ipLength > length then return .dropped none
  let protocol ← read 23
  if protocol ≠ 17 then return .dropped none
  let fragment ← readBe16Reading 20
  if fragment &&& 0x3FFF ≠ 0 then return .dropped none
  let destination ← load 30 4
  if destination ≠ n.localIp then return .dropped none
  let header ← load 14 ipHeaderLength.toNat
  if ipChecksum header ≠ 0 then return .dropped none
  let udp := 14 + ipHeaderLength.toNat
  let udpLength ← readBe16Reading (udp + 4)
  let port ← readBe16Reading (udp + 2)
  if udpLength < udpHeader ∨ udpLength > ipLength - ipHeaderLength.toUInt16 ∨ port ≠ n.localPort then return .dropped none
  let mac ← load 6 6
  let ip ← load 26 4
  let peerPort ← readBe16Reading udp
  return .datagram ⟨udp + 8, udpLength - udpHeader, ⟨mac, ip, peerPort⟩⟩

end

@[simp] theorem eval_readBe16Reading (m : Memory) (offset : Nat) : (readBe16Reading offset).eval m = readBe16 m offset := by
  simp [readBe16Reading, readBe16]

theorem eval_handleArpReading (n : Interface) (f : Frame) : (handleArpReading n f.length).eval f.buffer = handleArp n f := by
  simp only [handleArpReading, handleArp, Reading.eval_ite, Reading.eval_bind, Reading.eval_pure, eval_readBe16Reading,
    Reading.eval_read, Reading.eval_load]

/-- Read from a buffer that stays as it is, it is `dm_net_poll`. -/
theorem eval_dmNetPollReading (n : Interface) (f : Frame) : (dmNetPollReading n f.length).eval f.buffer = dmNetPoll n f := by
  simp only [dmNetPollReading, dmNetPoll, Reading.eval_ite, Reading.eval_bind, Reading.eval_pure, eval_readBe16Reading,
    Reading.eval_read, Reading.eval_load, eval_handleArpReading]
  rfl

/-! ## The driver and the agent -/

inductive Driver where
  | idle
  /-- The buffer is granted for a frame that is on its way into it. -/
  | copying (frame : Bytes)

/-- Who calls `dm_net_poll`: RAGENT's main loop, or the resident worker in the state and the
    entry it runs in. -/
inductive Caller where
  | ragent
  | worker (c : Config) (s : State) (e : Entry)

/-- The caller returns without a release: a valid operation that has to wait for DOS. -/
def Caller.keeps : Caller → Bytes → Bool
  | ragent, _ => false
  | worker c s e, payload => dosOperation s payload && !e.dosSafe && (validateDeferredDatagram c s payload).1

/-- What the caller reads of a datagram, and whether it keeps it. -/
def Caller.handle (caller : Caller) (d : UdpRange) : Reading Bool := do
  let payload ← Reading.load d.payload d.payloadLength.toNat
  return caller.keeps payload

@[simp] theorem Caller.eval_handle (caller : Caller) (d : UdpRange) (m : Memory) :
    (caller.handle d).eval m = caller.keeps (m.load d.payload d.payloadLength.toNat) := by
  simp [Caller.handle]

/-- Where the agent is. -/
inductive Agent where
  | away
  /-- `dm_packet_receive` has found `dm_receive_ready` set. -/
  | flagged
  | polling (rest : Reading Polled)
  /-- `dm_net_poll` has returned 1. -/
  | handling (caller : Caller) (d : UdpRange) (rest : Reading Bool)

structure World where
  receiver : Receiver
  driver : Driver
  agent : Agent

inductive Event where
  | refused (frame : Bytes)
  | granted (frame : Bytes)
  | completed (frame : Bytes)
  | saw (address : Nat) (b : UInt8)
  | polled (d : UdpRange)
  | released
  | kept
  deriving DecidableEq

/-- What an event does to the buffer. -/
def Event.handoff : Event → Option (Handoff.Event Bytes)
  | granted frame => some (.granted frame)
  | completed frame => some (.completed frame)
  | released => some .released
  | _ => none

inductive Step (n : Interface) : World → List Event → World → Prop
  | refuse (r r' : Receiver) (a : Agent) (cx tick : UInt16) (frame : Bytes) : frame.length = cx.toNat →
      dmPacketReceiver 0 cx tick r = (false, r') → Step n ⟨r, .idle, a⟩ [.refused frame] ⟨r', .idle, a⟩
  | grant (r r' : Receiver) (a : Agent) (cx tick : UInt16) (frame : Bytes) : frame.length = cx.toNat →
      dmPacketReceiver 0 cx tick r = (true, r') → Step n ⟨r, .idle, a⟩ [.granted frame] ⟨r', .copying frame, a⟩
  | copy (r : Receiver) (a : Agent) (frame : Bytes) (i : Nat) : i < frame.length →
      Step n ⟨r, .copying frame, a⟩ [] ⟨{ r with buffer := r.buffer.store i [byteAt frame i] }, .copying frame, a⟩
  /-- All bytes are there. -/
  | complete (r : Receiver) (a : Agent) (cx tick : UInt16) (frame : Bytes) : frame.length = cx.toNat →
      r.buffer.load 0 frame.length = frame →
      Step n ⟨r, .copying frame, a⟩ [.completed frame] ⟨(dmPacketReceiver 1 cx tick r).2, .idle, a⟩
  | flag (r : Receiver) (d : Driver) : Step n ⟨r, d, .away⟩ [] ⟨r, d, if r.ready then .flagged else .away⟩
  | length (r : Receiver) (d : Driver) : Step n ⟨r, d, .flagged⟩ [] ⟨r, d, .polling (dmNetPollReading n r.length)⟩
  | look (r : Receiver) (d : Driver) (address : Nat) (rest : UInt8 → Reading Polled) :
      Step n ⟨r, d, .polling (.byte address rest)⟩ [.saw address (r.buffer address)]
        ⟨r, d, .polling (rest (r.buffer address))⟩
  /-- Every other return of `dm_net_poll` releases the buffer. -/
  | drop (r : Receiver) (d : Driver) (reply : Option Bytes) :
      Step n ⟨r, d, .polling (.done (.dropped reply))⟩ [.released] ⟨dmPacketReleaseReceive r, d, .away⟩
  | accept (r : Receiver) (d : Driver) (range : UdpRange) (caller : Caller) :
      Step n ⟨r, d, .polling (.done (.datagram range))⟩ [.polled range] ⟨r, d, .handling caller range (caller.handle range)⟩
  | use (r : Receiver) (d : Driver) (caller : Caller) (range : UdpRange) (address : Nat) (rest : UInt8 → Reading Bool) :
      Step n ⟨r, d, .handling caller range (.byte address rest)⟩ [.saw address (r.buffer address)]
        ⟨r, d, .handling caller range (rest (r.buffer address))⟩
  | release (r : Receiver) (d : Driver) (caller : Caller) (range : UdpRange) :
      Step n ⟨r, d, .handling caller range (.done false)⟩ [.released] ⟨dmPacketReleaseReceive r, d, .away⟩
  | keep (r : Receiver) (d : Driver) (caller : Caller) (range : UdpRange) :
      Step n ⟨r, d, .handling caller range (.done true)⟩ [.kept] ⟨r, d, .away⟩

inductive Run (n : Interface) (w : World) : List Event → World → Prop
  | refl : Run n w [] w
  | step {log events : List Event} {w' w'' : World} : Run n w log w' → Step n w' events w'' →
      Run n w (log ++ events) w''

def World.opened (buffer : Memory) : World := ⟨.opened buffer, .idle, .away⟩

/-! ## One slot -/

/-- What the agent has read fits the frame in the buffer. -/
def Agent.Agrees (n : Interface) (f : Frame) : Agent → Prop
  | away => True
  | flagged => True
  | polling rest => rest.eval f.buffer = dmNetPoll n f
  | handling caller d rest => dmNetPoll n f = .datagram d ∧ rest.eval f.buffer = (caller.handle d).eval f.buffer

/-- The frame is in the buffer. -/
structure Receiver.Holds (r : Receiver) (frame : Bytes) : Prop where
  length_eq : r.length.toNat = frame.length
  buffer_eq : r.buffer.load 0 frame.length = frame
  length_le : frame.length ≤ maxFrame

/-- The state of the buffer as a slot. -/
inductive Describes (n : Interface) : World → Handoff.Slot Bytes → Prop
  | empty (r : Receiver) : r.ready = false → Describes n ⟨r, .idle, .away⟩ .empty
  | filling (r : Receiver) (frame : Bytes) : r.ready = false → frame.length ≤ maxFrame →
      Describes n ⟨r, .copying frame, .away⟩ (.filling frame)
  | full (r : Receiver) (a : Agent) (frame : Bytes) : r.ready = true → r.Holds frame → a.Agrees n r.frame →
      Describes n ⟨r, .idle, a⟩ (.full frame)

/-! ## What an upcall does -/

theorem dmPacketReceiver_granted {cx tick : UInt16} {r r' : Receiver} (h : dmPacketReceiver 0 cx tick r = (true, r')) :
    r.ready = false ∧ cx.toNat ≤ maxFrame ∧ r' = { r with allocations := r.allocations + 1 } := by
  simp only [dmPacketReceiver, if_true] at h
  split at h
  · cases h
  · next hno =>
    rw [not_or] at hno
    cases h
    exact ⟨by simpa using hno.1, UInt16.not_lt.mp hno.2, rfl⟩

theorem dmPacketReceiver_refused {cx tick : UInt16} {r r' : Receiver} (h : dmPacketReceiver 0 cx tick r = (false, r')) :
    r' = { r with allocations := r.allocations + 1, drops := r.drops + 1 } := by
  simp only [dmPacketReceiver, if_true] at h
  split at h <;> cases h
  rfl

theorem dmPacketReceiver_completed (cx tick : UInt16) (r : Receiver) : (dmPacketReceiver 1 cx tick r).2 =
    { r with completions := r.completions + 1, length := cx, ready := true, lastBiosTick := tick } := rfl

/-! ## Steps -/

variable {n : Interface} {w w' : World} {events : List Event} {frame : Bytes}

/-- What a step leaves of the buffer when it does not release it. -/
structure Undisturbed (w : World) (events : List Event) (w' : World) : Prop where
  buffer_eq : w'.receiver.buffer = w.receiver.buffer
  length_eq : w'.receiver.length = w.receiver.length
  saw_eq : ∀ address b, .saw address b ∈ events → b = w.receiver.buffer address

/-- A full buffer stays as it is, or is released. -/
theorem Describes.full_step (hd : Describes n w (.full frame)) (hs : Step n w events w') :
    events = [.released] ∧ Describes n w' .empty ∨
      events.filterMap Event.handoff = [] ∧ .released ∉ events ∧ Describes n w' (.full frame) ∧ Undisturbed w events w' := by
  cases hd with
  | full r a _ hready hholds hagrees =>
    cases hs with
    | refuse _ r' _ cx tick other _ hupcall =>
      obtain rfl := dmPacketReceiver_refused hupcall
      exact .inr ⟨rfl, by simp, .full _ _ _ hready ⟨hholds.1, hholds.2, hholds.3⟩ hagrees, ⟨rfl, rfl, by simp⟩⟩
    | grant _ r' _ cx tick other _ hupcall =>
      rw [(dmPacketReceiver_granted hupcall).1] at hready
      cases hready
    | flag =>
      rw [hready]
      exact .inr ⟨rfl, by simp, .full _ _ _ hready hholds trivial, ⟨rfl, rfl, by simp⟩⟩
    | length =>
      exact .inr ⟨rfl, by simp, .full _ _ _ hready hholds (eval_dmNetPollReading n r.frame), ⟨rfl, rfl, by simp⟩⟩
    | look =>
      exact .inr ⟨rfl, by simp, .full _ _ _ hready hholds hagrees, ⟨rfl, rfl, by simp⟩⟩
    | drop => exact .inl ⟨rfl, .empty _ rfl⟩
    | accept =>
      exact .inr ⟨rfl, by simp, .full _ _ _ hready hholds ⟨hagrees.symm, rfl⟩, ⟨rfl, rfl, by simp⟩⟩
    | use =>
      exact .inr ⟨rfl, by simp, .full _ _ _ hready hholds hagrees, ⟨rfl, rfl, by simp⟩⟩
    | release => exact .inl ⟨rfl, .empty _ rfl⟩
    | keep =>
      exact .inr ⟨rfl, by simp, .full _ _ _ hready hholds trivial, ⟨rfl, rfl, by simp⟩⟩

theorem Describes.empty_step (hd : Describes n w .empty) (hs : Step n w events w') :
    events.filterMap Event.handoff = [] ∧ Describes n w' .empty ∨
      ∃ frame, events.filterMap Event.handoff = [.granted frame] ∧ Describes n w' (.filling frame) := by
  cases hd with
  | empty r hready =>
    cases hs with
    | refuse _ r' _ cx tick other _ hupcall =>
      obtain rfl := dmPacketReceiver_refused hupcall
      exact .inl ⟨rfl, .empty _ hready⟩
    | grant _ r' _ cx tick other hcx hupcall =>
      obtain ⟨-, hle, rfl⟩ := dmPacketReceiver_granted hupcall
      exact .inr ⟨other, rfl, .filling _ _ hready (by rwa [hcx])⟩
    | flag =>
      rw [hready]
      exact .inl ⟨rfl, .empty _ hready⟩

theorem Describes.filling_step (hd : Describes n w (.filling frame)) (hs : Step n w events w') :
    events.filterMap Event.handoff = [] ∧ Describes n w' (.filling frame) ∨
      events.filterMap Event.handoff = [.completed frame] ∧ Describes n w' (.full frame) := by
  cases hd with
  | filling r _ hready hle =>
    cases hs with
    | copy => exact .inl ⟨rfl, .filling _ _ hready hle⟩
    | complete _ _ cx tick _ hcx hcopied =>
      rw [dmPacketReceiver_completed]
      exact .inr ⟨rfl, .full _ _ _ rfl ⟨hcx.symm, hcopied, hle⟩ trivial⟩
    | flag =>
      rw [hready]
      exact .inl ⟨rfl, .filling _ _ hready hle⟩

/-- Every step does to the buffer what a slot does. -/
theorem Describes.step {slot : Handoff.Slot Bytes} (hd : Describes n w slot) (hs : Step n w events w') :
    ∃ slot', Handoff.Step slot (events.filterMap Event.handoff) slot' ∧ Describes n w' slot' := by
  cases slot with
  | empty =>
    obtain ⟨hnone, hd'⟩ | ⟨frame, hone, hd'⟩ := hd.empty_step hs
    · rw [hnone]
      exact ⟨_, .stay _, hd'⟩
    · rw [hone]
      exact ⟨_, .grant frame, hd'⟩
  | filling frame =>
    obtain ⟨hnone, hd'⟩ | ⟨hone, hd'⟩ := hd.filling_step hs
    · rw [hnone]
      exact ⟨_, .stay _, hd'⟩
    · rw [hone]
      exact ⟨_, .complete frame, hd'⟩
  | full frame =>
    obtain ⟨rfl, hd'⟩ | ⟨hnone, -, hd', -⟩ := hd.full_step hs
    · exact ⟨_, .release frame, hd'⟩
    · rw [hnone]
      exact ⟨_, .stay _, hd'⟩

/-- One upcall more is counted, and one way out of it, or the frame is on its way. -/
def World.Balanced (w : World) : Prop :=
  w.receiver.allocations = w.receiver.completions + w.receiver.drops +
    match w.driver with
    | .idle => 0
    | .copying _ => 1

theorem World.Balanced.step (h : w.Balanced) (hs : Step n w events w') : w'.Balanced := by
  simp only [World.Balanced] at h ⊢
  cases hs with
  | refuse _ r' _ cx tick other _ hupcall =>
    obtain rfl := dmPacketReceiver_refused hupcall
    grind
  | grant _ r' _ cx tick other _ hupcall =>
    obtain ⟨-, -, rfl⟩ := dmPacketReceiver_granted hupcall
    grind
  | complete _ _ cx tick =>
    rw [dmPacketReceiver_completed]
    grind
  | copy | flag | length | look | drop | accept | use | release | keep => exact h

/-! ## Runs -/

variable {log : List Event}

theorem Undisturbed.refl (w : World) : Undisturbed w [] w := ⟨rfl, rfl, by simp⟩

theorem Undisturbed.trans {w'' : World} (h : Undisturbed w log w') (h' : Undisturbed w' events w'') :
    Undisturbed w (log ++ events) w'' where
  buffer_eq := h'.buffer_eq.trans h.buffer_eq
  length_eq := h'.length_eq.trans h.length_eq
  saw_eq address b hsaw := by
    rcases List.mem_append.mp hsaw with hsaw | hsaw
    · exact h.saw_eq address b hsaw
    · rw [h'.saw_eq address b hsaw, h.buffer_eq]

theorem Run.describes {buffer : Memory} (h : Run n (.opened buffer) log w) :
    ∃ slot, Handoff.Trace .empty (log.filterMap Event.handoff) slot ∧ Describes n w slot := by
  induction h with
  | refl => exact ⟨.empty, .refl, .empty _ rfl⟩
  | step _ hs ih =>
    obtain ⟨slot, htrace, hd⟩ := ih
    obtain ⟨slot', hstep, hd'⟩ := hd.step hs
    rw [List.filterMap_append]
    exact ⟨slot', htrace.step hstep, hd'⟩

/-- Up to the release nothing happens to a full buffer. -/
theorem Run.undisturbed (hd : Describes n w (.full frame)) (h : Run n w log w') (hno : .released ∉ log) :
    Describes n w' (.full frame) ∧ Undisturbed w log w' := by
  induction h with
  | refl => exact ⟨hd, .refl w⟩
  | step _ hs ih =>
    rw [List.mem_append, not_or] at hno
    obtain ⟨hd', hsame⟩ := ih hno.1
    obtain ⟨rfl, -⟩ | ⟨-, -, hd'', hsame'⟩ := hd'.full_step hs
    · exact absurd (List.mem_singleton_self _) hno.2
    · exact ⟨hd'', hsame.trans hsame'⟩

theorem Run.balanced {buffer : Memory} (h : Run n (.opened buffer) log w) : w.Balanced := by
  induction h with
  | refl => rfl
  | step _ hs ih => exact ih.step hs

/-- What is seen of the buffer from a poll that returned 1 in `w` on: `frame`, until the
    release. -/
structure Sees (n : Interface) (w : World) (frame : Bytes) : Prop where
  length_le : frame.length ≤ maxFrame
  holds : ∀ later w', Run n w later w' → .released ∉ later → w'.receiver.Holds frame ∧ Undisturbed w later w'

theorem Describes.sees (hd : Describes n w (.full frame)) : Sees n w frame where
  length_le := by
    cases hd with
    | full _ _ _ _ hholds => exact hholds.length_le
  holds later w' hrun hno := by
    obtain ⟨hd', hsame⟩ := hrun.undisturbed hd hno
    cases hd' with
    | full _ _ _ _ hholds => exact ⟨hholds, hsame⟩

theorem Describes.of_handling {slot : Handoff.Slot Bytes} {caller : Caller} {d : UdpRange} {rest : Reading Bool}
    (hd : Describes n w slot) (hw : w.agent = .handling caller d rest) :
    ∃ frame, slot = .full frame ∧ dmNetPoll n w.receiver.frame = .datagram d ∧
      rest.eval w.receiver.buffer = (caller.handle d).eval w.receiver.buffer := by
  cases hd with
  | empty | filling => cases hw
  | full r a frame _ _ hagrees =>
    obtain rfl : a = .handling caller d rest := hw
    exact ⟨frame, rfl, hagrees.1, hagrees.2⟩

/-- Whatever the order of upcalls, polls and releases: what a successful poll shows is the
    frame completed last, of at most 1518 bytes, unchanged until the release; the buffer goes
    through grant, completion and release of one frame after the other; the counters of the
    upcall balance modulo 2^16. -/
theorem receive_buffer_exclusive (n : Interface) (buffer : Memory) {log : List Event} {w : World}
    (h : Run n (.opened buffer) log w) :
    (∀ caller d rest, w.agent = .handling caller d rest → ∃ (frames : List Bytes) (frame : Bytes),
      log.filterMap Event.handoff = frames.flatMap Handoff.round ++ [.granted frame, .completed frame] ∧
        dmNetPoll n w.receiver.frame = .datagram d ∧ Sees n w frame) ∧
    (∃ (frames : List Bytes) (slot : Handoff.Slot Bytes),
      log.filterMap Event.handoff = frames.flatMap Handoff.round ++ slot.begun) ∧
    w.Balanced := by
  obtain ⟨slot, htrace, hd⟩ := h.describes
  obtain ⟨frames, hrounds⟩ := htrace.rounds
  refine ⟨?_, ⟨frames, slot, hrounds⟩, h.balanced⟩
  intro caller d rest hw
  obtain ⟨frame, rfl, hpoll, -⟩ := hd.of_handling hw
  exact ⟨frames, frame, hrounds, hpoll, hd.sees⟩

/-! ## A frame on its way -/

theorem Run.append {log' : List Event} {w'' : World} (h : Run n w log w') (h' : Run n w' log' w'') :
    Run n w (log ++ log') w'' := by
  induction h' with
  | refl => simpa using h
  | step _ hs ih =>
    rw [← List.append_assoc]
    exact ih.step hs

/-- The driver copies `k` bytes of the frame in order. -/
theorem run_copy (r : Receiver) (a : Agent) {k : Nat} (hk : k ≤ frame.length) :
    Run n ⟨r, .copying frame, a⟩ [] ⟨{ r with buffer := r.buffer.store 0 (frame.take k) }, .copying frame, a⟩ := by
  induction k with
  | zero =>
    have hnone : r.buffer.store 0 (frame.take 0) = r.buffer := by
      funext i
      simp [Memory.store]
    rw [hnone]
    exact .refl
  | succ k ih =>
    have hcopy := (ih (by omega)).step (.copy _ a frame k hk)
    have hnext : (r.buffer.store 0 (frame.take k)).store k [byteAt frame k] = r.buffer.store 0 (frame.take (k + 1)) := by
      have hlen : (frame.take k).length = k ∧ (frame.take (k + 1)).length = k + 1 := by
        simp only [List.length_take]
        omega
      funext i
      simp only [Memory.store, hlen, List.length_singleton, Nat.zero_le, Nat.zero_add, true_and, Nat.sub_zero]
      rcases Nat.lt_trichotomy i k with hlt | rfl | hgt
      · rw [if_neg (by omega), if_pos hlt, if_pos (by omega), byteAt_take hlt, byteAt_take (by omega)]
      · rw [if_pos (by omega), if_pos (by omega), byteAt_take (by omega), Nat.sub_self]
        rfl
      · rw [if_neg (by omega), if_neg (by omega), if_neg (by omega)]
    rw [← hnext]
    exact hcopy

/-- The agent polls, with no other step in between. -/
theorem run_poll (r : Receiver) (d : Driver) (rest : Reading Polled) :
    ∃ log, Run n ⟨r, d, .polling rest⟩ log ⟨r, d, .polling (.done (rest.eval r.buffer))⟩ := by
  induction rest with
  | done value => exact ⟨[], .refl⟩
  | byte address rest ih =>
    obtain ⟨log, hrun⟩ := ih (r.buffer address)
    exact ⟨_, (Run.refl.step (.look r d address rest)).append hrun⟩

/-- A frame that fits is granted to a free buffer, and a datagram in it reaches the caller. -/
theorem exists_delivery (n : Interface) (buffer : Memory) (frame : Bytes) (length : UInt16) (d : UdpRange)
    (hlength : frame.length = length.toNat) (hle : frame.length ≤ maxFrame)
    (hpoll : dmNetPoll n ⟨buffer.store 0 frame, length⟩ = .datagram d) (caller : Caller) :
    ∃ log w, Run n (.opened buffer) log w ∧ w.agent = .handling caller d (caller.handle d) := by
  let granted : Receiver := { Receiver.opened buffer with allocations := 1 }
  let copied : Receiver := { granted with buffer := buffer.store 0 frame }
  let full : Receiver := (dmPacketReceiver 1 length 0 copied).2
  have hgrant : Run n (.opened buffer) [.granted frame] ⟨granted, .copying frame, .away⟩ := by
    refine Run.refl.step (.grant (.opened buffer) granted .away length 0 frame hlength ?_)
    have hfits : ¬ 1518 < length := by
      rw [UInt16.not_lt, UInt16.le_iff_toNat_le, ← hlength]
      exact hle
    simp [dmPacketReceiver, Receiver.opened, granted, hfits]
  have hcopy : Run n ⟨granted, .copying frame, .away⟩ [] ⟨copied, .copying frame, .away⟩ := by
    simpa [copied, granted, Receiver.opened] using run_copy granted .away (Nat.le_refl frame.length)
  have hcomplete : Step n ⟨copied, .copying frame, .away⟩ [.completed frame] ⟨full, .idle, .away⟩ :=
    .complete copied .away length 0 frame hlength (Memory.load_store_same buffer 0 frame)
  have hflag : Step n ⟨full, .idle, .away⟩ [] ⟨full, .idle, .flagged⟩ := .flag full .idle
  have hread : Step n ⟨full, .idle, .flagged⟩ [] ⟨full, .idle, .polling (dmNetPollReading n full.length)⟩ := .length full .idle
  obtain ⟨log, hrun⟩ := run_poll (n := n) full .idle (dmNetPollReading n full.length)
  have heval : (dmNetPollReading n full.length).eval full.buffer = .datagram d :=
    (eval_dmNetPollReading n full.frame).trans hpoll
  rw [heval] at hrun
  have hstart := (((hgrant.append hcopy).step hcomplete).step hflag).step hread
  exact ⟨_, _, (hstart.append hrun).step (.accept full .idle d caller), rfl⟩

/-- Four bytes to UDP port 21300 of 10.0.0.1, with Ethernet padding. -/
def pingBytes : Bytes :=
  [2, 0, 0, 0, 0, 1, 2, 0, 0, 0, 0, 2, 8, 0,
    0x45, 0, 0, 32, 0, 1, 0, 0, 64, 17, 0x66, 0xCA, 10, 0, 0, 2, 10, 0, 0, 1,
    0x9C, 0x40, 0x53, 0x34, 0, 12, 0, 0, 112, 105, 110, 103] ++ List.replicate 14 0

def pingRange : UdpRange := ⟨42, 4, ⟨[2, 0, 0, 0, 0, 2], [10, 0, 0, 2], 40000⟩⟩

theorem ping_delivered : ∃ log w, Run wrapInterface (.opened fun _ => 0) log w ∧
    (∃ rest, w.agent = .handling .ragent pingRange rest) ∧ w.Balanced ∧
    ∃ (frames : List Bytes) (frame : Bytes),
      log.filterMap Event.handoff = frames.flatMap Handoff.round ++ [.granted frame, .completed frame] ∧
        Sees wrapInterface w frame := by
  obtain ⟨log, w, hrun, hw⟩ := exists_delivery wrapInterface (fun _ => 0) pingBytes 60 pingRange rfl
    (by decide) (by decide +kernel) .ragent
  obtain ⟨hsees, -, hbalanced⟩ := receive_buffer_exclusive wrapInterface (fun _ => 0) hrun
  obtain ⟨frames, frame, hlog, -, hframe⟩ := hsees _ _ _ hw
  exact ⟨log, w, hrun, ⟨_, hw⟩, hbalanced, frames, frame, hlog, hframe⟩

/-! ## The slot of the agent's state -/

/-- The buffer as the `slot` of `State`: the datagram that `dm_net_poll` hands out of it. -/
def World.slot (n : Interface) (w : World) : Option Datagram :=
  if w.receiver.ready then
    match dmNetPoll n w.receiver.frame with
    | .datagram d => some ⟨w.receiver.buffer.load d.payload d.payloadLength.toNat, d.peer⟩
    | .dropped _ => none
  else none

theorem dmNetPoll_slot {d : UdpRange} (hready : w.receiver.ready = true) (hpoll : dmNetPoll n w.receiver.frame = .datagram d) :
    w.slot n = some ⟨w.receiver.buffer.load d.payload d.payloadLength.toNat, d.peer⟩ := by
  simp only [World.slot, hready, if_true, hpoll]

theorem World.slot_eq_none (hready : w.receiver.ready = false) : w.slot n = none := by
  simp only [World.slot, hready, Bool.false_eq_true, if_false]

theorem Run.ready_eq_false {buffer : Memory} {r : Receiver} {a : Agent}
    (h : Run n (.opened buffer) log ⟨r, .copying frame, a⟩) : r.ready = false := by
  obtain ⟨slot, -, hd⟩ := h.describes
  cases hd with
  | filling _ _ hready => exact hready

/-- Between a completion and a release the slot stays as it is. -/
theorem slot_frame {buffer : Memory} (h : Run n (.opened buffer) log w) (hs : Step n w events w')
    (hcompleted : ∀ frame, .completed frame ∉ events) (hreleased : .released ∉ events) : w'.slot n = w.slot n := by
  cases hs with
  | refuse _ r' _ cx tick other _ hupcall =>
    obtain rfl := dmPacketReceiver_refused hupcall
    rfl
  | grant _ r' _ cx tick other _ hupcall =>
    obtain ⟨-, -, rfl⟩ := dmPacketReceiver_granted hupcall
    rfl
  | copy => rw [World.slot_eq_none h.ready_eq_false, World.slot_eq_none h.ready_eq_false]
  | complete => exact absurd (List.mem_singleton_self _) (hcompleted _)
  | drop | release => exact absurd (List.mem_singleton_self _) hreleased
  | flag | length | look | accept | use | keep => rfl

/-- A frame is completed while the slot is free, as a datagram arrives. -/
theorem completed_arrives {buffer : Memory} {s : State} {datagram : Datagram} (h : Run n (.opened buffer) log w)
    (hs : Step n w [.completed frame] w') (hslot : s.slot = w.slot n) (hnew : w'.slot n = some datagram) :
    w'.slot n = (arrive s datagram).slot := by
  cases hs with
  | complete =>
    rw [World.slot_eq_none h.ready_eq_false] at hslot
    rw [hnew, arrive, hslot]

theorem Caller.worker_keeps {c : Config} {s : State} {e : Entry} {payload : Bytes} :
    (Caller.worker c s e).keeps payload = true ↔
      (dosOperation s payload = true ∧ ¬ e.dosSafe = true) ∧ (validateDeferredDatagram c s payload).1 = true := by
  simp [Caller.keeps]

theorem pollDatagram_slot (c : Config) {s : State} (e : Entry) {datagram : Datagram} (hslot : s.slot = some datagram) :
    (pollDatagram c s e).slot = if (Caller.worker c s e).keeps datagram.payload then some datagram else none := by
  have hvalidate : (validateDeferredDatagram c s datagram.payload).2.slot = s.slot := by
    simp only [validateDeferredDatagram]
    split
    · rfl
    · split <;> rfl
  simp only [Caller.worker_keeps, pollDatagram, hslot]
  by_cases hwait : dosOperation s datagram.payload = true ∧ ¬ e.dosSafe = true
  · rw [if_pos hwait]
    split
    · next hinvalid => simp [hinvalid, State.release]
    · next hvalid =>
      rw [hvalid] at hvalidate
      simpa [hvalid, hwait] using hvalidate.trans hslot
  · rw [if_neg hwait, if_neg (fun hkeeps => hwait hkeeps.1)]
    rfl

/-- A worker that has the buffer's datagram in its slot leaves the buffer as `pollDatagram`
    leaves the slot. -/
theorem worker_keeps_slot {buffer : Memory} {c : Config} {s : State} {e : Entry} {d : UdpRange} {keeps : Bool}
    (h : Run n (.opened buffer) log w) (hw : w.agent = .handling (.worker c s e) d (.done keeps))
    (hslot : s.slot = w.slot n) (hs : Step n w events w') (haway : w'.agent = .away) :
    w'.slot n = (pollDatagram c s e).slot := by
  obtain ⟨slot, -, hd⟩ := h.describes
  obtain ⟨frame, rfl, hpoll, hkeeps⟩ := hd.of_handling hw
  have hready : w.receiver.ready = true := by
    cases hd with
    | full _ _ _ hready => exact hready
  rw [dmNetPoll_slot hready hpoll] at hslot
  rw [Reading.eval_done, Caller.eval_handle] at hkeeps
  rw [pollDatagram_slot c e hslot, ← hkeeps]
  cases hs with
  -- a step of the driver leaves the agent where it is
  | refuse | grant | copy | complete => cases hw.symm.trans haway
  | flag | length | look | drop | accept | use => cases hw
  | release =>
    obtain rfl : keeps = false := by cases hw; rfl
    exact World.slot_eq_none rfl
  | keep =>
    obtain rfl : keeps = true := by cases hw; rfl
    exact dmNetPoll_slot hready hpoll

end DosMcp.Dos.Receive
