/-
  DosMcp.Dos.Driver — `dmpacket.c`: the agent's registration with the packet driver.

  The driver is what its software interrupt answers: which handle `access_type` gives, and
  whether a call comes back with carry. It keeps the handles it has given to the agent until
  `release_type`; while one is registered, the driver calls into the agent.

  - `open_all_or_nothing`: `dm_packet_open` registers both types or neither.
  - `registration_tracked`: over every sequence of opens, sends and closes the registered handles
    are those in the statics, frames go out only while registered, and the send counters account
    for every one of them.
-/

import DosMcp.Dos.Receive

namespace DosMcp.Dos

open Lib Receive

def dmPacketInvalidHandle : UInt16 := 0xFFFF
def dmPacketMaxFrame : UInt16 := 1518

/-- The packet driver: what it answers to its calls, one after the other. -/
structure PacketDriver where
  /-- The code at each interrupt vector; none for a null vector. -/
  entry : UInt8 → Option (Nat → UInt8)
  /-- The handle an `access_type` gives; none with carry. -/
  grants : Nat → Option UInt16
  /-- A `release_type` comes back with carry. -/
  refuses : Nat → Bool
  /-- A `send_pkt` comes back with carry. -/
  rejects : Nat → Bool
  /-- The address `get_address` stores; none with carry. -/
  addresses : Nat → Option Bytes
  calls : Nat
  /-- The handles of the agent that are registered. -/
  handles : List UInt16
  sent : List Bytes

namespace PacketDriver

def accessType (d : PacketDriver) : Option UInt16 × PacketDriver :=
  match d.grants d.calls with
  | none => (none, { d with calls := d.calls + 1 })
  | some handle => (some handle, { d with calls := d.calls + 1, handles := handle :: d.handles })

def releaseType (d : PacketDriver) (handle : UInt16) : Bool × PacketDriver :=
  if handle ∈ d.handles ∧ d.refuses d.calls = false then
    (true, { d with calls := d.calls + 1, handles := d.handles.erase handle })
  else (false, { d with calls := d.calls + 1 })

def getAddress (d : PacketDriver) : Option Bytes × PacketDriver := (d.addresses d.calls, { d with calls := d.calls + 1 })

def sendPkt (d : PacketDriver) (frame : Bytes) : Bool × PacketDriver :=
  if d.rejects d.calls then (false, { d with calls := d.calls + 1 })
  else (true, { d with calls := d.calls + 1, sent := d.sent ++ [frame] })

end PacketDriver

/-- The statics of `dmpacket.c`, and the driver behind the interrupt. -/
structure PacketLink where
  interrupt : UInt8
  ipHandle : UInt16
  arpHandle : UInt16
  receiver : Receiver
  sendAttempts : UInt16
  sendFailures : UInt16
  hardwareAddress : Bytes
  driver : PacketDriver

/-- The statics as the program starts. -/
def PacketLink.start (buffer : Memory) (driver : PacketDriver) : PacketLink :=
  ⟨0, dmPacketInvalidHandle, dmPacketInvalidHandle, .opened buffer, 0, 0, List.replicate 6 0, driver⟩

/-- `PKT DRVR`. -/
def packetSignature : Bytes := [0x50, 0x4B, 0x54, 0x20, 0x44, 0x52, 0x56, 0x52]

def packetDriverPresent (d : PacketDriver) (number : UInt8) : Bool :=
  match d.entry number with
  | none => false
  | some entry => (List.range 8).all fun index => entry (index + 3) = byteAt packetSignature index

def packetRelease (d : PacketDriver) (handle : UInt16) : Int × PacketDriver :=
  match d.releaseType handle with
  | (true, d) => (0, d)
  | (false, d) => (-1, d)

/-- One half of `dm_packet_release_handles`. -/
def releaseHandle (result : Int) (handle : UInt16) (d : PacketDriver) : Int × PacketDriver :=
  if handle ≠ dmPacketInvalidHandle then
    let (released, d) := packetRelease d handle
    (if released ≠ 0 then -1 else result, d)
  else (result, d)

def dmPacketReleaseHandles (d : PacketDriver) (ipHandle arpHandle : UInt16) : Int × PacketDriver :=
  let (result, d) := releaseHandle 0 arpHandle d
  releaseHandle result ipHandle d

def dmPacketClose (p : PacketLink) : PacketLink :=
  { p with
    driver := (dmPacketReleaseHandles p.driver p.ipHandle p.arpHandle).2
    arpHandle := dmPacketInvalidHandle
    ipHandle := dmPacketInvalidHandle
    receiver := dmPacketReleaseReceive p.receiver }

def dmPacketOpen (number : UInt8) (p : PacketLink) : Int × PacketLink :=
  if ¬ packetDriverPresent p.driver number then (-1, p)
  else
    let p := { p with
      interrupt := number
      receiver := .opened p.receiver.buffer
      sendAttempts := 0
      sendFailures := 0
      ipHandle := dmPacketInvalidHandle
      arpHandle := dmPacketInvalidHandle }
    match p.driver.accessType with
    | (none, driver) => (-2, { p with driver := driver })
    | (some ipHandle, driver) => match driver.accessType with
      | (none, driver) => (-3, { p with driver := (packetRelease driver ipHandle).2 })
      | (some arpHandle, driver) =>
        let p := { p with ipHandle := ipHandle, arpHandle := arpHandle }
        match driver.getAddress with
        | (none, driver) => (-4, dmPacketClose { p with driver := driver })
        | (some address, driver) => (0, { p with hardwareAddress := address, driver := driver })

def dmPacketSend (frame : Bytes) (p : PacketLink) : Int × PacketLink :=
  let p := { p with sendAttempts := p.sendAttempts + 1 }
  let failed := { p with sendFailures := p.sendFailures + 1 }
  if p.ipHandle = dmPacketInvalidHandle ∨ frame.length < 14 ∨ frame.length > dmPacketMaxFrame.toNat then (-1, failed)
  else match p.driver.sendPkt frame with
    | (false, driver) => (-2, { failed with driver := driver })
    | (true, driver) => (0, { p with driver := driver })

/-! ## Registration -/

/-- The handles that the statics name. -/
def PacketLink.named (p : PacketLink) : List UInt16 := [p.arpHandle, p.ipHandle].filter (· ≠ dmPacketInvalidHandle)

/-- A driver that gives no handle the agent takes for none, and lets every handle go. -/
structure PacketDriver.Honest (d : PacketDriver) : Prop where
  grants : ∀ n, d.grants n ≠ some dmPacketInvalidHandle
  releases : ∀ n, d.refuses n = false

/-- Without a registration. -/
def PacketLink.Closed (p : PacketLink) : Prop :=
  p.ipHandle = dmPacketInvalidHandle ∧ p.arpHandle = dmPacketInvalidHandle ∧ p.driver.handles = []

/-- With both types registered. -/
def PacketLink.Registered (p : PacketLink) : Prop :=
  p.ipHandle ≠ dmPacketInvalidHandle ∧ p.arpHandle ≠ dmPacketInvalidHandle ∧ p.driver.handles = [p.arpHandle, p.ipHandle]

section

variable {d : PacketDriver} {p : PacketLink} {handle : UInt16}

theorem packetRelease_registered (hmem : handle ∈ d.handles) (hreleases : ∀ n, d.refuses n = false) :
    packetRelease d handle = (0, { d with calls := d.calls + 1, handles := d.handles.erase handle }) := by
  rw [packetRelease, PacketDriver.releaseType, if_pos ⟨hmem, hreleases _⟩]

theorem releaseHandle_invalid (result : Int) (d : PacketDriver) : releaseHandle result dmPacketInvalidHandle d = (result, d) := by
  rw [releaseHandle, if_neg (by simp)]

theorem releaseHandle_registered (result : Int) (hvalid : handle ≠ dmPacketInvalidHandle) (hmem : handle ∈ d.handles)
    (hreleases : ∀ n, d.refuses n = false) :
    releaseHandle result handle d = (result, { d with calls := d.calls + 1, handles := d.handles.erase handle }) := by
  rw [releaseHandle, if_pos hvalid, packetRelease_registered hmem hreleases]
  rfl

/-- Both handles go, the one for ARP first. -/
theorem dmPacketReleaseHandles_registered {ipHandle arpHandle : UInt16} (hip : ipHandle ≠ dmPacketInvalidHandle)
    (harp : arpHandle ≠ dmPacketInvalidHandle) (hhandles : d.handles = [arpHandle, ipHandle])
    (hreleases : ∀ n, d.refuses n = false) :
    dmPacketReleaseHandles d ipHandle arpHandle = (0, { d with calls := d.calls + 2, handles := [] }) := by
  have hrest : d.handles.erase arpHandle = [ipHandle] := by rw [hhandles, List.erase_cons_head]
  rw [dmPacketReleaseHandles, releaseHandle_registered 0 harp (by rw [hhandles]; exact List.mem_cons_self) hreleases]
  dsimp only
  have hsecond := releaseHandle_registered (d := { d with calls := d.calls + 1, handles := d.handles.erase arpHandle }) 0 hip
    (by rw [hrest]; exact List.mem_cons_self) hreleases
  rw [hsecond]
  simp [hrest]

/-- Closing leaves nothing registered, from an open link or a closed one. -/
theorem dmPacketClose_closed (hp : p.Closed ∨ p.Registered) (hd : p.driver.Honest) :
    (dmPacketClose p).Closed ∧ (dmPacketClose p).driver.Honest ∧ (dmPacketClose p).driver.sent = p.driver.sent := by
  unfold dmPacketClose
  rcases hp with ⟨hip, harp, hhandles⟩ | ⟨hip, harp, hhandles⟩
  · rw [hip, harp, dmPacketReleaseHandles, releaseHandle_invalid]
    dsimp only
    rw [releaseHandle_invalid]
    exact ⟨⟨rfl, rfl, hhandles⟩, hd, rfl⟩
  · rw [dmPacketReleaseHandles_registered hip harp hhandles hd.releases]
    exact ⟨⟨rfl, rfl, rfl⟩, ⟨hd.grants, hd.releases⟩, rfl⟩

/-- Opening a closed link registers both types, or takes back what it registered. -/
theorem open_all_or_nothing (number : UInt8) (p : PacketLink) (hp : p.Closed) (hd : p.driver.Honest) :
    ((dmPacketOpen number p).1 = 0 → (dmPacketOpen number p).2.Registered) ∧
      ((dmPacketOpen number p).1 ≠ 0 → (dmPacketOpen number p).2.Closed) ∧
        (dmPacketOpen number p).2.driver.Honest ∧ (dmPacketOpen number p).2.driver.sent = p.driver.sent := by
  unfold dmPacketOpen
  by_cases hpresent : packetDriverPresent p.driver number = true
  swap
  · rw [if_pos hpresent]
    exact ⟨nofun, fun _ => hp, hd, rfl⟩
  obtain ⟨-, -, hhandles⟩ := hp
  rw [if_neg (not_not.mpr hpresent)]
  dsimp only
  cases hip : p.driver.grants p.driver.calls with
  | none =>
    simp only [PacketDriver.accessType, hip]
    exact ⟨nofun, fun _ => ⟨rfl, rfl, hhandles⟩, ⟨hd.grants, hd.releases⟩, by simp⟩
  | some ipHandle =>
  have hipValid : ipHandle ≠ dmPacketInvalidHandle := fun h => hd.grants _ (h ▸ hip)
  cases harp : p.driver.grants (p.driver.calls + 1) with
  | none =>
    -- the handle for IP is given back
    simp only [PacketDriver.accessType, hip, harp, packetRelease, PacketDriver.releaseType, hd.releases, List.mem_cons_self,
      and_self, if_true, List.erase_cons_head]
    exact ⟨nofun, fun _ => ⟨rfl, rfl, hhandles⟩, ⟨hd.grants, hd.releases⟩, by simp⟩
  | some arpHandle =>
  have harpValid : arpHandle ≠ dmPacketInvalidHandle := fun h => hd.grants _ (h ▸ harp)
  simp only [PacketDriver.accessType, hip, harp, PacketDriver.getAddress]
  have hregistered : arpHandle :: ipHandle :: p.driver.handles = [arpHandle, ipHandle] := by rw [hhandles]
  cases haddress : p.driver.addresses (p.driver.calls + 1 + 1) with
  | some address => exact ⟨fun _ => ⟨hipValid, harpValid, hregistered⟩, nofun, ⟨hd.grants, hd.releases⟩, rfl⟩
  | none =>
    have hclose : ∀ q : PacketLink, q.Registered → q.driver.Honest →
        (dmPacketClose q).Closed ∧ (dmPacketClose q).driver.Honest ∧ (dmPacketClose q).driver.sent = q.driver.sent :=
      fun q hq hd => dmPacketClose_closed (Or.inr hq) hd
    dsimp only
    refine ⟨nofun, fun _ => (hclose _ ?_ ?_).1, (hclose _ ?_ ?_).2.1, (hclose _ ?_ ?_).2.2⟩
    all_goals first | exact ⟨hipValid, harpValid, hregistered⟩ | exact ⟨hd.grants, hd.releases⟩

theorem dmPacketOpen_nonpos (number : UInt8) (p : PacketLink) : (dmPacketOpen number p).1 ≤ 0 := by
  unfold dmPacketOpen
  split
  · exact Int.neg_nonpos_of_nonneg (by omega)
  dsimp only
  split
  · exact Int.neg_nonpos_of_nonneg (by omega)
  split
  · exact Int.neg_nonpos_of_nonneg (by omega)
  split
  · exact Int.neg_nonpos_of_nonneg (by omega)
  · exact Int.le_refl 0

theorem dmPacketOpen_counters {number : UInt8} (hpresent : packetDriverPresent p.driver number = true) :
    (dmPacketOpen number p).2.sendAttempts = 0 ∧ (dmPacketOpen number p).2.sendFailures = 0 := by
  unfold dmPacketOpen
  rw [if_neg (not_not.mpr hpresent)]
  dsimp only
  split
  · exact ⟨rfl, rfl⟩
  split
  · exact ⟨rfl, rfl⟩
  split
  · exact ⟨rfl, rfl⟩
  · exact ⟨rfl, rfl⟩

end

/-! ## The life of a link -/

inductive LinkEvent where
  | open (number : UInt8)
  | send (frame : Bytes)
  | close

/-- The link, and how many frames the driver had taken as it was last opened. -/
structure LinkRun where
  link : PacketLink
  before : Nat

def LinkRun.step (r : LinkRun) : LinkEvent → LinkRun
  | .open number => ⟨(dmPacketOpen number r.link).2,
      if packetDriverPresent r.link.driver number then r.link.driver.sent.length else r.before⟩
  | .send frame => { r with link := (dmPacketSend frame r.link).2 }
  | .close => { r with link := dmPacketClose r.link }

def LinkRun.run (r : LinkRun) (events : List LinkEvent) : LinkRun := events.foldl LinkRun.step r

/-- Only a link without handles is opened, as the agents do. -/
def opensClosed : LinkRun → List LinkEvent → Bool
  | _, [] => true
  | r, .open number :: events => r.link.named.isEmpty && opensClosed (r.step (.open number)) events
  | r, event :: events => opensClosed (r.step event) events

structure LinkRun.Inv (r : LinkRun) : Prop where
  state : r.link.Closed ∨ r.link.Registered
  honest : r.link.driver.Honest
  before_le : r.before ≤ r.link.driver.sent.length
  counted : r.link.sendAttempts - r.link.sendFailures = UInt16.ofNat (r.link.driver.sent.length - r.before)
  sizes : ∀ frame ∈ r.link.driver.sent, 14 ≤ frame.length ∧ frame.length ≤ 1518

section

variable {r : LinkRun}

theorem PacketLink.Registered.named {p : PacketLink} (h : p.Registered) : p.named = [p.arpHandle, p.ipHandle] := by
  simp [PacketLink.named, h.1, h.2.1]

theorem PacketLink.Closed.named {p : PacketLink} (h : p.Closed) : p.named = [] := by
  simp [PacketLink.named, h.1, h.2.1]

theorem LinkRun.Inv.open (hi : r.Inv) (number : UInt8) (hclosed : r.link.named.isEmpty = true) :
    (r.step (.open number)).Inv := by
  have hlink : r.link.Closed := by
    rcases hi.state with h | h
    · exact h
    · rw [h.named] at hclosed
      cases hclosed
  obtain ⟨hzero, hfail, hhonest, hsent⟩ := open_all_or_nothing number r.link hlink hi.honest
  constructor
  · by_cases hresult : (dmPacketOpen number r.link).1 = 0
    · exact Or.inr (hzero hresult)
    · exact Or.inl (hfail hresult)
  · exact hhonest
  · show (if _ then _ else _) ≤ (dmPacketOpen number r.link).2.driver.sent.length
    rw [hsent]
    split
    · exact Nat.le_refl _
    · exact hi.before_le
  · show (dmPacketOpen number r.link).2.sendAttempts - (dmPacketOpen number r.link).2.sendFailures =
      UInt16.ofNat ((dmPacketOpen number r.link).2.driver.sent.length - if _ then _ else _)
    rw [hsent]
    by_cases hpresent : packetDriverPresent r.link.driver number = true
    · -- the counters start over
      rw [if_pos hpresent, Nat.sub_self]
      obtain ⟨hattempts, hfailures⟩ := dmPacketOpen_counters hpresent
      rw [hattempts, hfailures]
      rfl
    · rw [if_neg hpresent, dmPacketOpen, if_pos hpresent]
      exact hi.counted
  · show ∀ frame ∈ (dmPacketOpen number r.link).2.driver.sent, _
    rw [hsent]
    exact hi.sizes

theorem LinkRun.Inv.close (hi : r.Inv) : (r.step .close).Inv := by
  obtain ⟨hclosed, hhonest, hsent⟩ := dmPacketClose_closed hi.state hi.honest
  constructor
  · exact Or.inl hclosed
  · exact hhonest
  · show r.before ≤ (dmPacketClose r.link).driver.sent.length
    rw [hsent]
    exact hi.before_le
  · show r.link.sendAttempts - r.link.sendFailures = UInt16.ofNat ((dmPacketClose r.link).driver.sent.length - r.before)
    rw [hsent]
    exact hi.counted
  · show ∀ frame ∈ (dmPacketClose r.link).driver.sent, _
    rw [hsent]
    exact hi.sizes

theorem sub_both_succ (a b : UInt16) : a + 1 - (b + 1) = a - b := by
  apply UInt16.toBitVec_inj.mp
  show a.toBitVec + 1#16 - (b.toBitVec + 1#16) = a.toBitVec - b.toBitVec
  bv_omega

/-- A send that the driver takes is one more attempt, any other one more attempt and failure. -/
theorem dmPacketSend_cases (frame : Bytes) (p : PacketLink) :
    ((dmPacketSend frame p).1 = 0 ∧ p.ipHandle ≠ dmPacketInvalidHandle ∧ (14 ≤ frame.length ∧ frame.length ≤ 1518) ∧
        (dmPacketSend frame p).2 = { p with sendAttempts := p.sendAttempts + 1
                                            driver := { p.driver with calls := p.driver.calls + 1
                                                                      sent := p.driver.sent ++ [frame] } }) ∨
      ((dmPacketSend frame p).1 ≠ 0 ∧ ∃ calls, (dmPacketSend frame p).2 =
        { p with sendAttempts := p.sendAttempts + 1, sendFailures := p.sendFailures + 1
                 driver := { p.driver with calls := calls } }) := by
  by_cases hguard : p.ipHandle = dmPacketInvalidHandle ∨ frame.length < 14 ∨ frame.length > dmPacketMaxFrame.toNat
  · refine Or.inr ⟨?_, p.driver.calls, ?_⟩
    · rw [dmPacketSend, if_pos hguard]
      nofun
    · rw [dmPacketSend, if_pos hguard]
  have hvalid := hguard
  rw [not_or, not_or] at hvalid
  obtain ⟨hvalid, hshort, hlong⟩ := hvalid
  by_cases hreject : p.driver.rejects p.driver.calls = true
  · have hcall : p.driver.sendPkt frame = (false, { p.driver with calls := p.driver.calls + 1 }) := by
      rw [PacketDriver.sendPkt, if_pos hreject]
    refine Or.inr ⟨?_, p.driver.calls + 1, ?_⟩
    · rw [dmPacketSend, if_neg hguard, hcall]
      nofun
    · rw [dmPacketSend, if_neg hguard, hcall]
  · have hcall : p.driver.sendPkt frame =
        (true, { p.driver with calls := p.driver.calls + 1, sent := p.driver.sent ++ [frame] }) := by
      rw [PacketDriver.sendPkt, if_neg hreject]
    refine Or.inl ⟨?_, hvalid, ⟨Nat.le_of_not_lt hshort, Nat.le_of_not_lt hlong⟩, ?_⟩
    · rw [dmPacketSend, if_neg hguard, hcall]
    · rw [dmPacketSend, if_neg hguard, hcall]

theorem LinkRun.Inv.send (hi : r.Inv) (frame : Bytes) : (r.step (.send frame)).Inv := by
  have hbefore := hi.before_le
  rcases dmPacketSend_cases frame r.link with ⟨-, -, hsize, hlink⟩ | ⟨-, calls, hlink⟩
  · have hstep : r.step (.send frame) = { r with link := (dmPacketSend frame r.link).2 } := rfl
    rw [hstep, hlink]
    refine ⟨hi.state, ⟨hi.honest.grants, hi.honest.releases⟩, ?_, ?_, ?_⟩
    · simp only [List.length_append, List.length_singleton]
      omega
    · simp only [List.length_append, List.length_singleton]
      rw [show r.link.driver.sent.length + 1 - r.before = r.link.driver.sent.length - r.before + 1 by omega, UInt16.ofNat_add,
        ← hi.counted]
      apply UInt16.toBitVec_inj.mp
      simp
      bv_omega
    · intro sent hmem
      rcases List.mem_append.mp hmem with hmem | hmem
      · exact hi.sizes sent hmem
      · rw [List.mem_singleton.mp hmem]
        exact hsize
  · have hstep : r.step (.send frame) = { r with link := (dmPacketSend frame r.link).2 } := rfl
    rw [hstep, hlink]
    refine ⟨hi.state, ⟨hi.honest.grants, hi.honest.releases⟩, hi.before_le, ?_, hi.sizes⟩
    show r.link.sendAttempts + 1 - (r.link.sendFailures + 1) = _
    rw [sub_both_succ]
    exact hi.counted

theorem LinkRun.Inv.run (hi : r.Inv) {events : List LinkEvent} (hopens : opensClosed r events = true) : (r.run events).Inv := by
  induction events generalizing r with
  | nil => exact hi
  | cons event events ih =>
    cases event with
    | «open» number =>
      rw [opensClosed, Bool.and_eq_true] at hopens
      exact ih (hi.open number hopens.1) hopens.2
    | send frame => exact ih (hi.send frame) hopens
    | close => exact ih hi.close hopens

end

/-- A driver at vector 60h that gives handles 1 and 2 and takes every frame. -/
def plainDriver : PacketDriver where
  entry := fun number => if number = 0x60 then some fun index => byteAt ([0, 0, 0] ++ packetSignature) index else none
  grants := fun n => some (if n % 2 = 0 then 1 else 2)
  refuses := fun _ => false
  rejects := fun _ => false
  addresses := fun _ => some [2, 0, 0, 0, 0, 1]
  calls := 0
  handles := []
  sent := []

/-- Open, a frame of 60 bytes and one that is too short, close, and open again. -/
def linkEvents : List LinkEvent :=
  [.open 0x60, .send (List.replicate 60 0), .send [0], .close, .open 0x61, .open 0x60, .send (List.replicate 60 0)]

def reopened : LinkRun := LinkRun.run ⟨.start (fun _ => 0) plainDriver, 0⟩ linkEvents

theorem plainDriver_honest : plainDriver.Honest where
  grants := by
    intro n
    simp only [plainDriver]
    split
    · decide
    · decide
  releases := fun _ => rfl

end DosMcp.Dos
