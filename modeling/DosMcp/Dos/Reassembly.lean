/-
  DosMcp.Dos.Reassembly — the request buffer of the DOS agents as a table of fragments.

  The statics name the fragments that are there (`fragmentMask`) and their lengths; the bytes
  lie in the workspace, 1024 apart. `fragment` reads the table. Storing a packet changes one
  entry (`fragment_add`), and what a complete request is processed with is the entries in
  order (`load_complete`).
-/

import DosMcp.Dos.AgentProofs
import Mathlib.Data.Nat.Bitwise

namespace DosMcp.Dos

open Lib

/-! ## The table -/

def Reassembly.has (r : Reassembly) (i : Nat) : Bool := r.fragmentMask.toNat.testBit i

/-- Fragment `i` of the request, if it is there. -/
def Reassembly.fragment (r : Reassembly) (m : Memory) (i : Nat) : Option Bytes :=
  if r.has i then some (m.load (i * 1024) (r.fragmentLengths.getD i 0).toNat) else none

/-- The fragments recorded are as long as a packet's payload may be, and lie in the buffer. -/
structure Reassembly.Sound (r : Reassembly) : Prop where
  lengths_length : r.fragmentLengths.length = 32
  lengths_le : ∀ i, (r.fragmentLengths.getD i 0).toNat ≤ 1024
  fits : ∀ i, r.has i = true → i * 1024 + (r.fragmentLengths.getD i 0).toNat ≤ requestBufferSize

/-- The fragments of the request whose reassembly has just begun. -/
theorem Reassembly.sound_fresh (id : UInt16) (opcode count : UInt8) :
    Reassembly.Sound ⟨id, opcode, count, 0, List.replicate 32 0⟩ := by
  refine ⟨rfl, fun i => ?_, fun i hi => ?_⟩
  · simp only [List.getD_eq_getElem?_getD, List.getElem?_replicate]
    split <;> decide
  · simp [Reassembly.has] at hi

theorem Reassembly.sound_forPacket {r : Reassembly} (hr : r.Sound) (p : DmPacket) : (r.forPacket p).Sound := by
  unfold Reassembly.forPacket
  split
  · exact Reassembly.sound_fresh _ _ _
  · exact hr

/-- A request under another ID starts with an empty table. -/
theorem Reassembly.fragment_forPacket_ne {r : Reassembly} {p : DmPacket} (hid : p.requestId ≠ r.requestId) (m : Memory)
    (i : Nat) : (r.forPacket p).fragment m i = none := by
  simp [Reassembly.forPacket, hid, Reassembly.fragment, Reassembly.has]

theorem Reassembly.forPacket_requestId (r : Reassembly) (p : DmPacket) : (r.forPacket p).requestId = p.requestId := by
  unfold Reassembly.forPacket
  split
  · rfl
  · rename_i heq
    exact (not_not.mp heq).symm

theorem payloadLength_toNat {p : DmPacket} (hp : p.Sound) : p.payloadLength.toNat = p.payload.length := by
  have := hp.payload_le
  simp only [DmPacket.payloadLength, UInt16.toNat_ofNat']
  omega

theorem oneBit_toNat {i : UInt8} (hlt : i.toNat < 32) : (1 <<< i.toUInt32 : UInt32).toNat = 2 ^ i.toNat := by
  have hpow : 2 ^ i.toNat < 2 ^ 32 := Nat.pow_lt_pow_right (by decide) hlt
  rw [UInt32.toNat_shiftLeft, UInt8.toNat_toUInt32, Nat.mod_eq_of_lt hlt, Nat.shiftLeft_eq, UInt32.toNat_one, Nat.one_mul]
  exact Nat.mod_eq_of_lt hpow

theorem has_add {r : Reassembly} {p : DmPacket} (hp : p.Sound) (i : Nat) :
    (r.add p).has i = (r.has i || decide (p.fragmentIndex.toNat = i)) := by
  have hlt : p.fragmentIndex.toNat < 32 := hp.fragmentIndex_lt.trans_le hp.fragmentCount_le
  simp only [Reassembly.has, Reassembly.add, UInt32.toNat_or, Nat.testBit_or, oneBit_toNat hlt, Nat.testBit_two_pow]

/-- The length recorded for fragment `i`. -/
theorem lengths_add {r : Reassembly} (hr : r.fragmentLengths.length = 32) {p : DmPacket} (hp : p.Sound) (i : Nat) :
    ((r.add p).fragmentLengths.getD i 0).toNat =
      if i = p.fragmentIndex.toNat then p.payload.length else (r.fragmentLengths.getD i 0).toNat := by
  have hlt : p.fragmentIndex.toNat < 32 := hp.fragmentIndex_lt.trans_le hp.fragmentCount_le
  split
  · rename_i hi
    subst hi
    rw [← payloadLength_toNat hp]
    simp [Reassembly.add, hr, hlt]
  · rename_i hi
    simp [Reassembly.add, List.getD_eq_getElem?_getD, Ne.symm hi]

theorem Reassembly.sound_add {r : Reassembly} (hr : r.Sound) {p : DmPacket} (hp : p.Sound)
    (hfits : p.fragmentIndex.toNat * 1024 + p.payload.length ≤ requestBufferSize) : (r.add p).Sound := by
  refine ⟨by simp [Reassembly.add, hr.lengths_length], fun i => ?_, fun i hi => ?_⟩
  · rw [lengths_add hr.lengths_length hp]
    split
    · exact hp.payload_le
    · exact hr.lengths_le i
  · rw [has_add hp, Bool.or_eq_true, decide_eq_true_eq] at hi
    rw [lengths_add hr.lengths_length hp]
    split
    · rename_i h
      rw [h]
      exact hfits
    · rename_i hne
      exact hr.fits i (hi.resolve_right fun h => hne h.symm)

/-- A stored packet is one entry of the table. -/
theorem Reassembly.fragment_add {r : Reassembly} (hr : r.Sound) {p : DmPacket} (hp : p.Sound) (m : Memory) (i : Nat) :
    (r.add p).fragment (m.store (p.fragmentIndex.toNat * 1024) p.payload) i =
      if i = p.fragmentIndex.toNat then some p.payload else r.fragment m i := by
  unfold Reassembly.fragment
  rw [has_add hp]
  rw [lengths_add hr.lengths_length hp]
  by_cases hi : i = p.fragmentIndex.toNat
  · subst hi
    rw [if_pos rfl, Memory.load_store_same]
    simp
  · have hle := hr.lengths_le i
    have hpl := hp.payload_le
    rw [if_neg hi, Memory.load_store_disjoint _ (by omega)]
    simp [hi, Ne.symm hi]

/-! ## Complete requests -/

theorem expectedMask_testBit {count : UInt8} (hle : count.toNat ≤ 32) (i : Nat) :
    (expectedMask count).toNat.testBit i = decide (i < count.toNat) := by
  have hmask : (expectedMask count).toNat = 2 ^ count.toNat - 1 := by
    unfold expectedMask
    split
    · rename_i h
      subst h
      rfl
    · rename_i hne
      have hlt : count.toNat < 32 := by
        refine Nat.lt_of_le_of_ne hle fun h => hne (UInt8.toNat_inj.mp ?_)
        exact h
      have hpos : 0 < 2 ^ count.toNat := Nat.two_pow_pos _
      rw [UInt32.toNat_sub_of_le _ _ (UInt32.le_iff_toNat_le.mpr (by rw [oneBit_toNat hlt]; exact hpos)), oneBit_toNat hlt]
      rfl
  rw [hmask, Nat.testBit_two_pow_sub_one]

theorem Reassembly.has_of_complete {r : Reassembly} (h : r.complete = true) (hle : r.fragmentCount.toNat ≤ 32) (i : Nat) :
    r.has i = decide (i < r.fragmentCount.toNat) := by
  simp only [Reassembly.complete, Bool.and_eq_true, decide_eq_true_eq] at h
  rw [Reassembly.has, h.1, expectedMask_testBit hle]

theorem Reassembly.length_of_complete {r : Reassembly} (h : r.complete = true) {i : Nat}
    (hi : i + 1 < r.fragmentCount.toNat) : (r.fragmentLengths.getD i 0).toNat = 1024 := by
  simp only [Reassembly.complete, Bool.and_eq_true, List.all_eq_true, List.mem_range, decide_eq_true_eq] at h
  rw [h.2 i (by omega)]
  rfl

/-- The payload of a complete request is its fragments in order. -/
theorem Reassembly.load_complete {r : Reassembly} (h : r.complete = true) (hle : r.fragmentCount.toNat ≤ 32)
    (hpos : 0 < r.fragmentCount.toNat) (m : Memory) :
    m.load 0 r.finalLength = (List.range r.fragmentCount.toNat).flatMap fun i => (r.fragment m i).getD [] := by
  have hfragment : ∀ i < r.fragmentCount.toNat,
      (r.fragment m i).getD [] = m.load (i * 1024) (r.fragmentLengths.getD i 0).toNat := by
    intro i hi
    simp [Reassembly.fragment, Reassembly.has_of_complete h hle, hi]
  -- the full fragments before fragment `n`
  have hfull : ∀ n, n < r.fragmentCount.toNat →
      m.load 0 (n * 1024) = (List.range n).flatMap fun i => (r.fragment m i).getD [] := by
    intro n
    induction n with
    | zero => intro _; rfl
    | succ n ih =>
      intro hn
      rw [Nat.succ_mul, Memory.load_append, ih (by omega), List.range_succ, List.flatMap_append]
      simp only [List.flatMap_cons, List.flatMap_nil, List.append_nil, Nat.zero_add]
      rw [hfragment n (by omega), Reassembly.length_of_complete h hn]
  obtain ⟨n, hn⟩ := Nat.exists_eq_succ_of_ne_zero hpos.ne'
  rw [Reassembly.finalLength, hn, Nat.succ_sub_one, Memory.load_append, hfull n (by omega), List.range_succ,
    List.flatMap_append]
  simp only [List.flatMap_cons, List.flatMap_nil, List.append_nil, Nat.zero_add]
  rw [hfragment n (by omega)]

/-- The request that a packet completes: the entries of the table with the packet in it. -/
theorem completedRequest_table {s : State} {p : DmPacket} (hp : p.Sound) {request : Request}
    (h : s.completedRequest p = some request) :
    request = ⟨p.opcode, p.requestId, (List.range p.fragmentCount.toNat).flatMap fun i =>
        ((s.storeFragment p).reassembly.fragment (s.storeFragment p).workspace i).getD []⟩ ∧
      ∀ i < p.fragmentCount.toNat, ((s.storeFragment p).reassembly.fragment (s.storeFragment p).workspace i).isSome := by
  have hrequest := completedRequest_eq_some h
  unfold State.completedRequest at h
  split at h
  · cases h
  rename_i haccept
  dsimp only at h
  split at h
  · rename_i hcomplete
    have hcount : (s.storeFragment p).reassembly.fragmentCount = p.fragmentCount := by
      rw [State.storeFragment, if_neg haccept]
      by_contra hne
      exact haccept (by simp [Reassembly.refuses, Ne.symm (show (s.reassembly.forPacket p).fragmentCount ≠ _ from hne)])
    have hpos : 0 < p.fragmentCount.toNat := Nat.zero_lt_of_lt hp.fragmentIndex_lt
    rw [Reassembly.load_complete hcomplete (hcount ▸ hp.fragmentCount_le) (hcount ▸ hpos), hcount] at h
    obtain rfl := Option.some.inj h
    rw [Request.mk.injEq]
    refine ⟨⟨hrequest.2, hrequest.1, rfl⟩, fun i hi => ?_⟩
    simp [Reassembly.fragment, Reassembly.has_of_complete hcomplete (hcount ▸ hp.fragmentCount_le), hcount, hi]
  · cases h

/-! ## RAGENT's buffers -/

/-- A response of RAGENT goes to the cache and the wire only. -/
theorem sendResponse_ragent (s : State) (kind opcode : UInt8) (id : UInt16) (source : Source) :
    (sendResponse .ragent s kind opcode id source).machine = s.machine ∧
      (sendResponse .ragent s kind opcode id source).shell = s.shell ∧
      (sendResponse .ragent s kind opcode id source).workspace = s.workspace := by
  unfold sendResponse
  dsimp only
  split
  · exact ⟨rfl, rfl, rfl⟩
  · split <;> exact ⟨rfl, rfl, rfl⟩

/-- A request of RAGENT leaves the request buffer alone. -/
theorem processRequest_ragent (c : Config) (s : State) (opcode : UInt8) (id : UInt16) (payload : Bytes) :
    (processRequest .ragent c s opcode id payload).machine =
        (operate .ragent c (s.logRequest ⟨opcode, id, payload⟩) opcode payload).2.machine ∧
      (processRequest .ragent c s opcode id payload).shell =
        (operate .ragent c (s.logRequest ⟨opcode, id, payload⟩) opcode payload).2.shell ∧
      ∀ i, i < requestBufferSize → (processRequest .ragent c s opcode id payload).workspace i = s.workspace i := by
  have hop := (operate_operated .ragent c (s.logRequest ⟨opcode, id, payload⟩) opcode payload).workspace_eq
  unfold processRequest State.logRequest at *
  generalize operate .ragent c { s with requests := s.requests ++ [⟨opcode, id, payload⟩] } opcode payload = r at hop ⊢
  obtain ⟨reply, u⟩ := r
  dsimp only at hop
  cases reply with
  | error code message =>
    obtain ⟨hm, hs, hw⟩ := sendResponse_ragent u dmKindError opcode id (.array (dmPutU16 code ++ (messageBytes message).take 120))
    exact ⟨hm, hs, fun i _ => (congrFun hw i).trans (congrFun hop i)⟩
  | capture length =>
    obtain ⟨hm, hs, hw⟩ := sendResponse_ragent u dmKindResponse opcode id (.screen length)
    exact ⟨hm, hs, fun i _ => (congrFun hw i).trans (congrFun hop i)⟩
  | screen bytes =>
    obtain ⟨hm, hs, hw⟩ := sendResponse_ragent (u.putScreen .ragent bytes) dmKindResponse opcode id (.screen bytes.length)
    refine ⟨hm, hs, fun i hi => ?_⟩
    dsimp only
    rw [hw]
    simp only [State.putScreen, Memory.store, Build.screenBase, hop]
    exact if_neg (by omega)

/-- Fragments in the request buffer depend on its bytes only. -/
theorem fragment_congr {r : Reassembly} (hr : r.Sound) {m m' : Memory} (h : ∀ i, i < requestBufferSize → m i = m' i) (i : Nat) :
    r.fragment m i = r.fragment m' i := by
  unfold Reassembly.fragment
  split
  · rename_i hhas
    have hfits := hr.fits i hhas
    refine congrArg some (List.map_congr_left fun j hj => h _ ?_)
    have := List.mem_range.mp hj
    omega
  · rfl

end DosMcp.Dos
