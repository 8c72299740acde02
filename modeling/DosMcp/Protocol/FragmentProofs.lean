/-
  DosMcp.Protocol.FragmentProofs — fragments and reassembly.

  - `fragmentMessage_eq_ok`: a message within the limits is cut into packets that differ
    only in index and block; `fragmentMessage_isOk` says when that is.
  - `Gathered.reassembles`: a table that holds as many blocks of one message as the message
    was cut into gives the message back, in whatever order they came, whatever the width of
    the blocks; `reassemblePackets_of_fragments` is the case of the bridge's own fragments.
  - `reassemblePackets_length`: no reassembled message exceeds the limit.
-/

import DosMcp.Lib.Traverse
import DosMcp.Protocol.PacketProofs
import Mathlib.Algebra.Order.BigOperators.Group.List

namespace DosMcp

open Lib

def numFragments (payload : Bytes) : Nat := max 1 ((payload.length + maxFragmentPayload - 1) / maxFragmentPayload)

/-- `p` is the fragment of one message that its index says. -/
structure IsFragment (kind : MessageKind) (opcode : Opcode) (sessionId requestId : Nat) (payload : Bytes) (p : Packet) :
    Prop where
  kind_eq : p.kind = kind
  opcode_eq : p.opcode = opcode
  sessionId_eq : p.sessionId = sessionId
  requestId_eq : p.requestId = requestId
  count_eq : p.fragmentCount = numFragments payload
  payload_eq : p.payload = slice payload (p.fragmentIndex * maxFragmentPayload) maxFragmentPayload

theorem Packet.make_ok {kind : MessageKind} {opcode : Opcode} {s r i c : Nat} {payload : Bytes} (hs : s ≤ 0xFFFF)
    (hr : r ≤ 0xFFFF) (hc : 1 ≤ c ∧ c ≤ maxFragments) (hi : i < c) (hp : payload.length ≤ maxFragmentPayload) :
    Packet.make kind opcode s r i c payload 0 = .ok ⟨kind, opcode, s, r, i, c, payload, 0, rfl, hs, hr, hc, hi, hp⟩ := by
  rw [Packet.make, dif_pos rfl, dif_pos hs, dif_pos hr, dif_pos hc, dif_pos hi, dif_pos hp]

section Fragments

variable {kind : MessageKind} {opcode : Opcode} {sessionId requestId : Nat} {payload : Bytes} {ps : List Packet}

theorem numFragments_range (h : payload.length ≤ maxMessageSize) :
    1 ≤ numFragments payload ∧ numFragments payload ≤ maxFragments := by
  unfold numFragments maxMessageSize maxFragmentPayload maxFragments at *
  omega

/-- The blocks cover the message. -/
theorem length_le_numFragments (payload : Bytes) : payload.length ≤ numFragments payload * maxFragmentPayload := by
  unfold numFragments maxFragmentPayload
  omega

theorem fragmentMessage_isOk (kind : MessageKind) (opcode : Opcode) (hlen : payload.length ≤ maxMessageSize)
    (hs : sessionId ≤ 0xFFFF) (hr : requestId ≤ 0xFFFF) :
    ∃ ps, fragmentMessage kind opcode sessionId requestId payload = .ok ps := by
  have hn := numFragments_range hlen
  rw [fragmentMessage, if_neg (Nat.not_lt.mpr hlen)]
  refine mapM_isOk fun i hi => ?_
  have hi : i < numFragments payload := List.mem_range.mp hi
  have hblock : (slice payload (i * maxFragmentPayload) maxFragmentPayload).length ≤ maxFragmentPayload := by
    rw [slice_length]
    exact Nat.min_le_left _ _
  exact ⟨_, Packet.make_ok hs hr hn hi hblock⟩

theorem fragmentMessage_error (hlen : payload.length > maxMessageSize) :
    fragmentMessage kind opcode sessionId requestId payload =
      .error (.valueError "message exceeds maximum reassembled size") := by
  rw [fragmentMessage, if_pos hlen]

theorem fragmentMessage_length_le (h : fragmentMessage kind opcode sessionId requestId payload = .ok ps) :
    payload.length ≤ maxMessageSize := by
  by_contra hlen
  rw [fragmentMessage_error (Nat.not_le.mp hlen)] at h
  cases h

/-- The packets of a message: one for each index, in order. -/
theorem fragmentMessage_eq_ok (h : fragmentMessage kind opcode sessionId requestId payload = .ok ps) :
    List.Forall₂ (fun i p => p.fragmentIndex = i ∧ IsFragment kind opcode sessionId requestId payload p)
      (List.range (numFragments payload)) ps := by
  have hlen := fragmentMessage_length_le h
  rw [fragmentMessage, if_neg (Nat.not_lt.mpr hlen)] at h
  refine (mapM_eq_ok_iff.mp h).imp fun i p hp => ?_
  obtain ⟨e1, e2, e3, e4, e5, e6, e7, -⟩ := Packet.make_eq_ok hp
  exact ⟨e5, e1, e2, e3, e4, e6, by rw [e5]; exact e7⟩

theorem fragmentMessage_length (h : fragmentMessage kind opcode sessionId requestId payload = .ok ps) :
    ps.length = numFragments payload := by
  rw [← (fragmentMessage_eq_ok h).length_eq, List.length_range]

theorem isFragment_of_mem (h : fragmentMessage kind opcode sessionId requestId payload = .ok ps) {p : Packet}
    (hp : p ∈ ps) : IsFragment kind opcode sessionId requestId payload p := by
  obtain ⟨i, hi, rfl⟩ := List.getElem_of_mem hp
  have := (fragmentMessage_eq_ok h).get (by rw [(fragmentMessage_eq_ok h).length_eq]; exact hi) hi
  exact this.2

/-! ## Reassembly -/

/-- A table of fragments under their own indices. -/
def IndexTable (d : Dict Nat Packet) : Prop := d.Unique ∧ ∀ e ∈ d, e.2.fragmentIndex = e.1

theorem indexTable_nil : IndexTable [] := ⟨List.nodup_nil, fun _ h => absurd h List.not_mem_nil⟩

theorem indexTable_set {d : Dict Nat Packet} (hd : IndexTable d) (p : Packet) : IndexTable (d.set p.fragmentIndex p) := by
  refine ⟨Dict.unique_set hd.1 _ _, fun e he => ?_⟩
  rcases Dict.mem_set he with he | rfl
  · exact hd.2 e he
  · rfl

theorem foldl_set_of_nodup (acc ps : Dict Nat Packet) (hidx : ∀ e ∈ ps, e.2.fragmentIndex = e.1)
    (hnd : (acc ++ ps : Dict Nat Packet).Unique) :
    (ps.map Prod.snd).foldl (fun (d : Dict Nat Packet) p => d.set p.fragmentIndex p) acc = acc ++ ps := by
  induction ps generalizing acc with
  | nil => simp
  | cons e ps ih =>
    obtain ⟨i, p⟩ := e
    have hi : p.fragmentIndex = i := hidx (i, p) (List.mem_cons_self ..)
    have hfresh : i ∉ Dict.keys acc := by
      have hnd' : (Dict.keys acc ++ Dict.keys ((i, p) :: ps)).Nodup := by
        simpa [Dict.Unique, Dict.keys] using hnd
      exact fun hmem => List.disjoint_of_nodup_append hnd' hmem (by simp [Dict.keys])
    have hset : Dict.set acc i p = acc ++ [(i, p)] := Dict.set_of_not_mem hfresh
    rw [List.map_cons, List.foldl_cons, hi, hset,
      ih _ (fun e he => hidx e (List.mem_cons_of_mem _ he)) (by simpa using hnd), List.append_assoc]
    rfl

theorem byIndex_values {d : Dict Nat Packet} (hd : IndexTable d) : byIndex d.values = d := by
  have h := foldl_set_of_nodup [] d hd.2 (by simpa using hd.1)
  rwa [List.nil_append] at h

/-- `p` carries the block of its index, in blocks of `width`, of a message cut into `count` packets. -/
structure IsBlock (width count : Nat) (kind : MessageKind) (opcode : Opcode) (sessionId requestId : Nat) (payload : Bytes)
    (p : Packet) : Prop where
  kind_eq : p.kind = kind
  opcode_eq : p.opcode = opcode
  sessionId_eq : p.sessionId = sessionId
  requestId_eq : p.requestId = requestId
  count_eq : p.fragmentCount = count
  payload_eq : p.payload = slice payload (p.fragmentIndex * width) width

theorem IsFragment.isBlock {p : Packet} (h : IsFragment kind opcode sessionId requestId payload p) :
    IsBlock maxFragmentPayload (numFragments payload) kind opcode sessionId requestId payload p :=
  ⟨h.kind_eq, h.opcode_eq, h.sessionId_eq, h.requestId_eq, h.count_eq, h.payload_eq⟩

/-- A table of blocks of one message. -/
structure Gathered (width count : Nat) (kind : MessageKind) (opcode : Opcode) (sessionId requestId : Nat) (payload : Bytes)
    (d : Dict Nat Packet) : Prop where
  table : IndexTable d
  block : ∀ e ∈ d, IsBlock width count kind opcode sessionId requestId payload e.2

variable {width count : Nat} {d : Dict Nat Packet}

theorem gathered_nil : Gathered width count kind opcode sessionId requestId payload [] :=
  ⟨indexTable_nil, fun _ h => absurd h List.not_mem_nil⟩

theorem Gathered.set (h : Gathered width count kind opcode sessionId requestId payload d) {p : Packet}
    (hp : IsBlock width count kind opcode sessionId requestId payload p) :
    Gathered width count kind opcode sessionId requestId payload (d.set p.fragmentIndex p) := by
  refine ⟨indexTable_set h.table p, fun e he => ?_⟩
  rcases Dict.mem_set he with he | rfl
  · exact h.block e he
  · exact hp

theorem Gathered.key_lt (h : Gathered width count kind opcode sessionId requestId payload d) : ∀ k ∈ d.keys, k < count := by
  intro k hk
  obtain ⟨e, he, rfl⟩ := List.mem_map.mp hk
  rw [← h.table.2 e he, ← (h.block e he).count_eq]
  exact e.2.fragmentIndex_lt

/-- A table with an entry for every index is full. -/
theorem Gathered.length_of_keys (h : Gathered width count kind opcode sessionId requestId payload d)
    (hall : ∀ i < count, i ∈ d.keys) : d.length = count := by
  have hperm : d.keys.Perm (List.range count) :=
    (List.perm_ext_iff_of_nodup h.table.1 List.nodup_range).mpr fun k =>
      ⟨fun hk => List.mem_range.mpr (h.key_lt k hk), fun hk => hall k (List.mem_range.mp hk)⟩
  have hlen := hperm.length_eq
  rwa [List.length_range, Dict.keys, List.length_map] at hlen

/-- A full table of blocks that cover the message reassembles to the message. -/
theorem Gathered.reassembles (h : Gathered width count kind opcode sessionId requestId payload d) (hcount : d.length = count)
    (hpos : 1 ≤ count) (hcover : payload.length ≤ count * width) : reassemblePackets d.values = .ok payload := by
  have hget : ∀ i < count, ∃ p, d.get? i = some p ∧ p.payload = slice payload (i * width) width := by
    intro i hi
    have hmem : i ∈ d.keys := mem_of_nodup_of_length h.table.1 h.key_lt (by simpa [Dict.keys] using hcount) hi
    obtain ⟨p, hp⟩ := Option.isSome_iff_exists.mp (Dict.has_iff.mpr hmem)
    have hpd := Dict.mem_of_get? hp
    have hindex : p.fragmentIndex = i := h.table.2 _ hpd
    exact ⟨p, hp, by rw [(h.block _ hpd).payload_eq, hindex]⟩
  obtain ⟨⟨i0, first⟩, rest, rfl⟩ : ∃ e rest, d = e :: rest := by
    cases d with
    | nil => simp at hcount; omega
    | cons e rest => exact ⟨e, rest, rfl⟩
  have hfirst : IsBlock width count kind opcode sessionId requestId payload first := h.block (i0, first) (List.mem_cons_self ..)
  have hid : ∀ p ∈ Dict.values ((i0, first) :: rest), p.identity = first.identity := by
    intro p hp
    obtain ⟨e, he, rfl⟩ := List.mem_map.mp hp
    have hb := h.block e he
    simp only [Packet.identity, hb.kind_eq, hb.opcode_eq, hb.sessionId_eq, hb.requestId_eq, hb.count_eq, hfirst.kind_eq,
      hfirst.opcode_eq, hfirst.sessionId_eq, hfirst.requestId_eq, hfirst.count_eq]
  have hany : (Dict.values ((i0, first) :: rest)).any (fun p => p.identity ≠ first.identity) = false := by
    rw [List.any_eq_false]
    intro p hp
    simpa using hid p hp
  have hparts : (List.range first.fragmentCount).mapM (partAt ((i0, first) :: rest)) =
      .ok ((List.range first.fragmentCount).map fun i => slice payload (i * width) width) := by
    refine mapM_eq_ok_iff.mpr (List.forall₂_map_right_iff.mpr (List.forall₂_same.mpr fun i hi => ?_))
    rw [List.mem_range, hfirst.count_eq] at hi
    obtain ⟨p, hp, hpay⟩ := hget i hi
    rw [partAt, hp]
    exact congrArg Except.ok hpay
  have hvals : Dict.values ((i0, first) :: rest) = first :: Dict.values rest := rfl
  have hvlen : (Dict.values ((i0, first) :: rest)).length = count := by simpa [Dict.values] using hcount
  have hcond : ¬ ((Dict.values ((i0, first) :: rest)).length ≠ List.length ((i0, first) :: rest) ∨
      List.length ((i0, first) :: rest) ≠ first.fragmentCount) := by
    rw [hvlen, hfirst.count_eq, hcount]
    simp
  rw [hvals] at hany hcond
  simp only [hvals, reassemblePackets, hany]
  rw [← hvals, byIndex_values h.table, hvals]
  simp only [Bool.false_eq_true, if_false, hcond, hparts, bind, Except.bind, pure, Except.pure]
  rw [hfirst.count_eq, flatten_slices, List.take_of_length_le hcover]

/-- The table of a list of blocks, in any order and with any copies. -/
theorem gathered_byIndex {ps : List Packet}
    (h : ∀ p ∈ ps, IsBlock width count kind opcode sessionId requestId payload p) :
    Gathered width count kind opcode sessionId requestId payload (byIndex ps) ∧
      ∀ p ∈ ps, p.fragmentIndex ∈ (byIndex ps).keys := by
  have hrun : ∀ d : Dict Nat Packet, Gathered width count kind opcode sessionId requestId payload d →
      Gathered width count kind opcode sessionId requestId payload (ps.foldl (fun d p => d.set p.fragmentIndex p) d) ∧
        (∀ k ∈ d.keys, k ∈ (ps.foldl (fun d p => d.set p.fragmentIndex p) d).keys) ∧
        ∀ p ∈ ps, p.fragmentIndex ∈ (ps.foldl (fun d p => d.set p.fragmentIndex p) d).keys := by
    induction ps with
    | nil => exact fun d hd => ⟨hd, fun _ hk => hk, fun _ hp => absurd hp List.not_mem_nil⟩
    | cons p ps ih =>
      intro d hd
      obtain ⟨hg, hold, hnew⟩ := ih (fun q hq => h q (List.mem_cons_of_mem _ hq)) _ (hd.set (h p List.mem_cons_self))
      refine ⟨hg, fun k hk => hold k (Dict.mem_keys_set.mpr (Or.inl hk)), fun q hq => ?_⟩
      rcases List.mem_cons.mp hq with rfl | hq
      · exact hold _ (Dict.mem_keys_set.mpr (Or.inr rfl))
      · exact hnew q hq
  obtain ⟨hg, -, hkeys⟩ := hrun [] gathered_nil
  exact ⟨hg, hkeys⟩

/-- A full table of one message's fragments reassembles to the message. -/
theorem reassemblePackets_of_fragments {d : Dict Nat Packet} (hd : IndexTable d)
    (hlen : payload.length ≤ maxMessageSize) (hcount : d.length = numFragments payload)
    (hfrag : ∀ e ∈ d, IsFragment kind opcode sessionId requestId payload e.2) :
    reassemblePackets d.values = .ok payload :=
  Gathered.reassembles ⟨hd, fun e he => (hfrag e he).isBlock⟩ hcount (numFragments_range hlen).1
    (length_le_numFragments payload)

end Fragments

/-- No reassembled message exceeds the limit. -/
theorem reassemblePackets_length {values : List Packet} {payload : Bytes} (h : reassemblePackets values = .ok payload) :
    payload.length ≤ maxMessageSize := by
  unfold reassemblePackets at h
  split at h
  · cases h
  rename_i first rest
  split at h
  · cases h
  simp only at h
  split at h
  · cases h
  cases hm : (List.range first.fragmentCount).mapM (partAt (byIndex (first :: rest))) with
  | error e =>
    rw [hm] at h
    cases h
  | ok parts =>
    rw [hm] at h
    obtain rfl : parts.flatten = payload := by simpa [bind, Except.bind, pure, Except.pure] using h
    have hparts := mapM_eq_ok_iff.mp hm
    have hlen : parts.length = first.fragmentCount := by rw [← hparts.length_eq, List.length_range]
    have hpart : ∀ part ∈ parts, part.length ≤ maxFragmentPayload := by
      intro part hp
      obtain ⟨i, hi, rfl⟩ := List.getElem_of_mem hp
      have e := hparts.get (by rw [hparts.length_eq]; exact hi) hi
      simp only [List.get_eq_getElem, partAt] at e
      split at e
      · rename_i p _
        rw [← Except.ok.inj e]
        exact p.payload_le
      · cases e
    have hsum := List.sum_le_card_nsmul (parts.map List.length) maxFragmentPayload
      (fun n hn => by obtain ⟨part, hp, rfl⟩ := List.mem_map.mp hn; exact hpart part hp)
    rw [List.length_map, hlen, Nat.nsmul_eq_mul] at hsum
    rw [List.length_flatten]
    calc (parts.map List.length).sum ≤ first.fragmentCount * maxFragmentPayload := hsum
      _ ≤ maxFragments * maxFragmentPayload := Nat.mul_le_mul_right _ first.fragmentCount_range.2
      _ = maxMessageSize := by rfl

theorem byIndex_table (ps : List Packet) : IndexTable (byIndex ps) ∧ ∀ e ∈ byIndex ps, e.2 ∈ ps := by
  have hrun : ∀ qs : List Packet, ∀ d : Dict Nat Packet, (∀ q ∈ qs, q ∈ ps) → IndexTable d → (∀ e ∈ d, e.2 ∈ ps) →
      IndexTable (qs.foldl (fun d p => d.set p.fragmentIndex p) d) ∧
        ∀ e ∈ qs.foldl (fun (d : Dict Nat Packet) p => d.set p.fragmentIndex p) d, e.2 ∈ ps := by
    intro qs
    induction qs with
    | nil => exact fun d _ hd hps => ⟨hd, hps⟩
    | cons q qs ih =>
      intro d hqs hd hps
      refine ih _ (fun p hp => hqs p (List.mem_cons_of_mem _ hp)) (indexTable_set hd q) fun e he => ?_
      rcases Dict.mem_set he with he | rfl
      · exact hps e he
      · exact hqs q List.mem_cons_self
  exact hrun ps [] (fun _ h => h) indexTable_nil fun _ h => absurd h List.not_mem_nil

/-- What reassembly refuses it refuses with a `PacketError`: no part is missing once the table
    is full. -/
theorem reassemblePackets_error {values : List Packet} {e : Exc} (h : reassemblePackets values = .error e) :
    ∃ text, e = .packetError text := by
  unfold reassemblePackets at h
  split at h
  · cases h
    exact ⟨_, rfl⟩
  rename_i first rest
  split at h
  · cases h
    exact ⟨_, rfl⟩
  rename_i hsame
  simp only [List.any_eq_true, decide_eq_true_eq, not_exists, not_and, not_not] at hsame
  dsimp only at h
  split at h
  · cases h
    exact ⟨_, rfl⟩
  rename_i hcount
  obtain ⟨htable, hmem⟩ := byIndex_table (first :: rest)
  have hlt : ∀ k ∈ (byIndex (first :: rest)).keys, k < first.fragmentCount := by
    intro k hk
    obtain ⟨entry, hentry, rfl⟩ := List.mem_map.mp hk
    have hidentity := hsame entry.2 (hmem entry hentry)
    have hfragments : entry.2.fragmentCount = first.fragmentCount := congrArg (fun i => i.2.2.2.2) hidentity
    rw [← htable.2 entry hentry, ← hfragments]
    exact entry.2.fragmentIndex_lt
  have hparts : ∃ parts, (List.range first.fragmentCount).mapM (partAt (byIndex (first :: rest))) = .ok parts := by
    refine mapM_isOk fun i hi => ?_
    have hlength : (byIndex (first :: rest)).keys.length = first.fragmentCount := by
      rw [Dict.keys, List.length_map]
      exact not_not.mp fun hne => hcount (Or.inr hne)
    have hkey : i ∈ (byIndex (first :: rest)).keys := mem_of_nodup_of_length htable.1 hlt hlength (List.mem_range.mp hi)
    obtain ⟨p, hp⟩ := Option.isSome_iff_exists.mp (Dict.has_iff.mpr hkey)
    exact ⟨p.payload, by rw [partAt, hp]⟩
  obtain ⟨parts, hparts⟩ := hparts
  rw [hparts] at h
  cases h

end DosMcp
