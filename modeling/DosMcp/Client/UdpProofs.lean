/-
  DosMcp.Client.UdpProofs — what the bridge sends and what it collects.

  - `mem_issueDatagrams`, `exists_datagramOf`: the datagrams of a request, and the IDs they
    go under.
  - `Exchange.collect_response`: the blocks of a response, in any order and with any copies,
    end the exchange with the message; `Exchange.collect_error`: an error ends it at once.
-/

import DosMcp.Client.Udp
import DosMcp.Protocol.FragmentProofs

namespace DosMcp

open Lib

theorem nextRequestId_eq (r : Nat) : nextRequestId r = Serial.next 0x10000 r := by
  have h : (r + 1) &&& 0xFFFF = (r + 1) % 0x10000 := Nat.and_two_pow_sub_one_eq_mod _ 16
  simp only [nextRequestId, Serial.next, h]

/-- The datagrams of a request; none where `fragment_message` raises. -/
def issueDatagrams (key : Key) (sessionId requestId : Nat) (opcode : Opcode) (payload : Bytes) : List Bytes :=
  match requestPackets opcode sessionId requestId payload with
  | .ok packets => requestDatagrams key packets
  | .error _ => []

/-- Each datagram of a request is a padded fragment of it. -/
theorem mem_issueDatagrams {key : Key} {sessionId requestId : Nat} {opcode : Opcode} {payload d : Bytes}
    (h : d ∈ issueDatagrams key sessionId requestId opcode payload) :
    ∃ p : Packet, d = dosTransportDatagram (p.encode key) ∧ IsFragment .request opcode sessionId requestId payload p := by
  unfold issueDatagrams at h
  split at h
  · rename_i packets hok
    obtain ⟨p, hp, rfl⟩ := List.mem_map.mp h
    exact ⟨p, rfl, isFragment_of_mem hok hp⟩
  · cases h

/-- The datagrams of a request hold all its fragments. -/
theorem exists_datagramOf (key : Key) (opcode : Opcode) {sessionId requestId : Nat} {payload : Bytes}
    (hsid : sessionId ≤ 0xFFFF) (hid : requestId ≤ 0xFFFF) (hlen : payload.length ≤ maxMessageSize) {i : Nat}
    (hi : i < numFragments payload) :
    ∃ p, dosTransportDatagram (p.encode key) ∈ issueDatagrams key sessionId requestId opcode payload ∧
      IsFragment .request opcode sessionId requestId payload p ∧ p.fragmentIndex = i := by
  obtain ⟨packets, hok⟩ := fragmentMessage_isOk .request opcode hlen hsid hid
  have hlength := fragmentMessage_length hok
  have hp := (fragmentMessage_eq_ok hok).get (by rw [List.length_range]; exact hi) (by rw [hlength]; exact hi)
  simp only [List.get_eq_getElem, List.getElem_range] at hp
  refine ⟨packets[i], ?_, hp.2, hp.1⟩
  rw [issueDatagrams, requestPackets, hok]
  exact List.mem_map.mpr ⟨_, List.getElem_mem _, rfl⟩

/-! ## Collecting a response -/

/-- Datagrams that arrive from the target, until one ends the exchange. -/
def Exchange.collect (target : Address) : Exchange → List Bytes → Progress
  | x, [] => .waiting x
  | x, datagram :: datagrams => match x.receive target target datagram with
    | .waiting x => x.collect target datagrams
    | .done result => .done result

/-- What the bridge raises on an error packet. -/
def errorRaised (payload : Bytes) : Exc :=
  match decodeError payload with
  | .error e => e
  | .ok (code, message) => .agentOperationError s!"{code.name}: {message}"

section Collect

variable {x : Exchange} {target : Address} {d : Bytes} {p : Packet}

theorem Exchange.receive_decoded (hsize : d.length ≤ maxDatagram) (hdecode : Packet.decode d x.key = .ok p) :
    x.receive target target d = x.receivePacket p := by
  have hskip : ¬ (target ≠ target ∨ d.length > maxDatagram) := by
    rintro (h | h)
    · exact h rfl
    · omega
  rw [receive, if_neg hskip, hdecode]

theorem Exchange.receivePacket_response (hmatches : x.matches p = true) (hkind : p.kind = .response) :
    x.receivePacket p =
      if (x.received.set p.fragmentIndex p).length = p.fragmentCount then
        .done (reassemblePackets (x.received.set p.fragmentIndex p).values >>= fun payload => .ok (payload, p))
      else .waiting { x with received := x.received.set p.fragmentIndex p } := by
  rw [receivePacket, if_neg (by simp [hmatches]), hkind]

theorem Exchange.receivePacket_error (hmatches : x.matches p = true) (hkind : p.kind = .error) :
    x.receivePacket p = .done (.error (errorRaised p.payload)) := by
  rw [receivePacket, if_neg (by simp [hmatches]), hkind, errorRaised]
  cases decodeError p.payload <;> rfl

theorem Exchange.collect_error {datagrams : List Bytes} (hsize : d.length ≤ maxDatagram)
    (hdecode : Packet.decode d x.key = .ok p) (hmatches : x.matches p = true) (hkind : p.kind = .error) :
    x.collect target (d :: datagrams) = .done (.error (errorRaised p.payload)) := by
  rw [collect, receive_decoded hsize hdecode, receivePacket_error hmatches hkind]

/-- By induction on the arrivals: the table holds blocks of the response and is not full;
    what it lacks is still to arrive. -/
theorem Exchange.collect_response {width count : Nat} {opcode : Opcode} {sessionId requestId : Nat} {payload : Bytes}
    (hpos : 1 ≤ count) (hcover : payload.length ≤ count * width) (arrival : List Bytes)
    (hgathered : Gathered width count .response opcode sessionId requestId payload x.received)
    (hopen : x.received.length ≠ count) (hrequest : x.expected.requestId = requestId) (hopcode : x.expected.opcode = opcode)
    (hsession : x.expected.sessionId = sessionId)
    (hblocks : ∀ d ∈ arrival, d.length ≤ maxDatagram ∧
      ∃ p, Packet.decode d x.key = .ok p ∧ IsBlock width count .response opcode sessionId requestId payload p)
    (hall : ∀ i < count, i ∈ x.received.keys ∨ ∃ d ∈ arrival, ∃ p, Packet.decode d x.key = .ok p ∧ p.fragmentIndex = i) :
    ∃ p, x.collect target arrival = .done (.ok (payload, p)) ∧
      IsBlock width count .response opcode sessionId requestId payload p := by
  induction arrival generalizing x with
  | nil =>
    refine absurd (hgathered.length_of_keys fun i hi => ?_) hopen
    rcases hall i hi with h | ⟨d, hd, -⟩
    · exact h
    · cases hd
  | cons d arrival ih =>
    obtain ⟨hsize, p, hdecode, hp⟩ := hblocks d List.mem_cons_self
    have hmatches : x.matches p = true := by
      simp only [Exchange.matches, hp.requestId_eq, hp.opcode_eq, hp.sessionId_eq, hrequest, hopcode, hsession, true_and, or_true,
        decide_true]
    rw [collect, receive_decoded hsize hdecode, receivePacket_response hmatches hp.kind_eq, hp.count_eq]
    have hset := hgathered.set hp
    by_cases hfull : (x.received.set p.fragmentIndex p).length = count
    · rw [if_pos hfull, hset.reassembles hfull hpos hcover]
      exact ⟨p, rfl, hp⟩
    · rw [if_neg hfull]
      refine ih hset hfull hrequest hopcode hsession (fun d hd => hblocks d (List.mem_cons_of_mem _ hd)) fun i hi => ?_
      by_cases hkey : i = p.fragmentIndex
      · exact Or.inl (Dict.mem_keys_set.mpr (Or.inr hkey))
      rcases hall i hi with h | ⟨d', hd', q, hq, hi'⟩
      · exact Or.inl (Dict.mem_keys_set.mpr (Or.inl h))
      rcases List.mem_cons.mp hd' with rfl | hd'
      · rw [hdecode] at hq
        cases hq
        exact absurd hi'.symm hkey
      · exact Or.inr ⟨d', hd', q, hq, hi'⟩

end Collect

end DosMcp
