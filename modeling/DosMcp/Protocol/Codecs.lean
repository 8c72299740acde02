/-
  DosMcp.Protocol.Codecs — the payload codecs are canonical, two request decoders aside.

  - `payload_codecs_canonical`: in fourteen formats a decoder accepts what its encoder
    writes and nothing else, and refuses the rest with a `ValueError`.
  - `request_decoders_strict_iff`: `KeyRequest.decode` has none of the bounds of its encoder and
    `TransferEndRequest.decode` takes the reserved transfer ID.
-/

import DosMcp.Lib.Codec
import DosMcp.Protocol.MessageProofs

namespace DosMcp

open Lib

def IsValueError (e : Exc) : Prop := ∃ text, e = .valueError text

theorem fails_raiseIf {c : Prop} [Decidable c] {text : String} : Fails IsValueError (raiseIf c (.valueError text)) := by
  intro e h
  unfold raiseIf at h
  split at h
  · cases h
    exact ⟨text, rfl⟩
  · cases h

theorem fails_requireSize {bs : Bytes} {n : Nat} {name : String} : Fails IsValueError (requireSize bs n name) := fails_raiseIf

theorem fails_validatePath {bs : Bytes} : Fails IsValueError (validatePath bs) := fails_raiseIf

theorem fails_enumOf {ε : Type} {ofValue? : Nat → Option ε} {name : String} {n : Nat} :
    Fails IsValueError (enumOf ofValue? name n) := by
  intro e h
  unfold enumOf at h
  split at h
  · cases h
  · cases h
    exact ⟨_, rfl⟩

/-! ## Records -/

theorem structPack_head {bs : Bytes} (widths : List Nat) (h : widths.sum ≤ bs.length) :
    structPack (fieldsAt bs widths 0) = .ok (slice bs 0 widths.sum) :=
  structPack_eq_ok.mpr (pack_fieldsAt (by omega))

theorem structPack_fields {bs : Bytes} (widths : List Nat) (h : bs.length = widths.sum) :
    structPack (fieldsAt bs widths 0) = .ok bs := by
  rw [structPack_head widths h.ge, slice_of_length h]

theorem Phase.value_of_ofValue? {n : Nat} {p : Phase} (h : ofValue? n = some p) : p.value = n := by
  unfold ofValue? at h
  split at h <;> simp_all <;> subst h <;> rfl

theorem Adapter.value_of_ofValue? {n : Nat} {a : Adapter} (h : ofValue? n = some a) : a.value = n := by
  unfold ofValue? at h
  split at h <;> simp_all <;> subst h <;> rfl

theorem GraphicsLayout.value_of_ofValue? {n : Nat} {l : GraphicsLayout} (h : ofValue? n = some l) : l.value = n := by
  unfold ofValue? at h
  split at h <;> simp_all <;> subst h <;> rfl

theorem KeyCode.value_of_ofValue? {n : Nat} {k : KeyCode} (h : ofValue? n = some k) : k.value = n := by
  unfold ofValue? at h
  split at h <;> simp_all <;> subst h <;> rfl

/-! ## Handshake -/

theorem HelloRequest.canonical : Canonical IsValueError encode decode := by
  refine canonical_of (fun bs v h => ?_) fun bs => .bind fails_requireSize fun _ _ => .pure _
  simp only [decode, requireSize, bind_eq_ok, raiseIf_eq_ok, not_not] at h
  obtain ⟨_, hlen, hv⟩ := h
  obtain rfl := Except.ok.inj hv
  exact structPack_fields [4] hlen

theorem HelloResponse.canonical : Canonical IsValueError encode decode := by
  refine canonical_of (fun bs v h => ?_) fun bs =>
    .bind fails_requireSize fun _ _ => .bind fails_raiseIf fun _ _ => .bind fails_raiseIf fun _ _ => .pure _
  simp only [decode, requireSize, bind_eq_ok, raiseIf_eq_ok, not_not] at h
  obtain ⟨_, hlen, _, -, _, -, hv⟩ := h
  obtain rfl := Except.ok.inj hv
  exact structPack_fields [4, 4, 2, 2] hlen

/-! ## Observation -/

theorem StatusMessage.canonical : Canonical IsValueError encode decode := by
  refine canonical_of (fun bs v h => ?_) fun bs => .bind fails_requireSize fun _ _ => .bind fails_enumOf fun _ _ => .pure _
  simp only [decode, requireSize, bind_eq_ok, raiseIf_eq_ok, not_not, enumOf_eq_ok] at h
  obtain ⟨_, hlen, phase, hphase, hv⟩ := h
  obtain rfl := Except.ok.inj hv
  rw [encode, Phase.value_of_ofValue? hphase]
  exact structPack_fields [1, 1, 1, 1, 1, 1, 2, 4] hlen

theorem CapabilitiesMessage.canonical : Canonical IsValueError encode decode := by
  refine canonical_of (fun bs v h => ?_) fun bs =>
    .bind fails_requireSize fun _ _ => .bind fails_raiseIf fun _ _ => .bind fails_enumOf fun _ _ =>
      .bind fails_raiseIf fun _ _ => .bind fails_raiseIf fun _ _ => .pure _
  simp only [decode, requireSize, bind_eq_ok, raiseIf_eq_ok, not_not, enumOf_eq_ok] at h
  obtain ⟨_, hlen, _, -, adapter, hadapter, _, -, _, -, hv⟩ := h
  obtain rfl := Except.ok.inj hv
  rw [encode, Adapter.value_of_ofValue? hadapter]
  exact structPack_fields [4, 1, 1, 1, 2, 2] hlen

theorem ScreenMessage.validate_fails (m : ScreenMessage) : Fails IsValueError m.validate :=
  .bind fails_raiseIf fun _ _ => .bind fails_raiseIf fun _ _ => fails_raiseIf

theorem ScreenMessage.canonical : Canonical IsValueError encode decode := by
  refine canonical_of (fun bs v h => ?_) fun bs =>
    .bind fails_raiseIf fun _ _ => .bind fails_enumOf fun _ _ => .bind (validate_fails _) fun _ _ => .pure _
  simp only [decode, bind_eq_ok, raiseIf_eq_ok, not_lt, enumOf_eq_ok] at h
  obtain ⟨_, hlen, adapter, hadapter, _, hvalid, hv⟩ := h
  obtain rfl := Except.ok.inj hv
  have hhead := structPack_head [1, 1, 1, 1, 1, 1, 1, 1, 1, 2, 2] hlen
  rw [encode, hvalid, Adapter.value_of_ofValue? hadapter]
  exact (congrArg (· >>= fun head => pure (head ++ bs.drop 13)) hhead).trans (congrArg Except.ok slice_append_drop)

/-! ## Keyboard -/

theorem KeyResponse.canonical : Canonical IsValueError encode decode := by
  refine canonical_of (fun bs v h => ?_) fun bs => .bind fails_requireSize fun _ _ => .pure _
  simp only [decode, requireSize, bind_eq_ok, raiseIf_eq_ok, not_not] at h
  obtain ⟨_, hlen, hv⟩ := h
  obtain rfl := Except.ok.inj hv
  exact structPack_fields [2, 1, 2] hlen

/-! ## Transfers -/

theorem FileReadBeginRequest.canonical : Canonical IsValueError encode decode := by
  refine canonical_of (fun bs v h => ?_) fun bs =>
    .bind fails_raiseIf fun _ _ => .bind fails_requireSize fun _ _ => .bind fails_validatePath fun _ _ => .pure _
  simp only [decode, requireSize, bind_eq_ok, raiseIf_eq_ok, not_not] at h
  obtain ⟨_, hne, _, hlen, _, hpath, hv⟩ := h
  obtain rfl := Except.ok.inj hv
  cases bs with
  | nil => exact absurd rfl hne
  | cons n path =>
    have hn : path.length = n.toNat := by
      rw [leNat_slice_one (by simp)] at hlen
      simpa [byteAt] using hlen
    rw [encode, hpath, ok_bind]
    simp [hn, pure, Except.pure]

theorem FileWriteBeginRequest.canonical : Canonical IsValueError encode decode := by
  refine canonical_of (fun bs v h => ?_) fun bs =>
    .bind fails_raiseIf fun _ _ => .bind fails_requireSize fun _ _ => .bind fails_raiseIf fun _ _ =>
      .bind fails_validatePath fun _ _ => .pure _
  simp only [decode, requireSize, bind_eq_ok, raiseIf_eq_ok, not_lt, not_not] at h
  obtain ⟨_, hlong, _, hlen, _, hflag, _, hpath, hv⟩ := h
  obtain rfl := Except.ok.inj hv
  have hhead := structPack_head [1, 4, 4, 1] hlong
  have hsize : ¬ leNat (slice bs 1 4) > 0xFFFFFFFF := by
    have := leNat_slice_lt bs 1 4
    omega
  have hoverwrite : ((if decide (leNat (slice bs 0 1) ≠ 0) = true then 1 else 0 : Int)) = (leNat (slice bs 0 1) : Int) := by
    rcases Nat.le_one_iff_eq_zero_or_eq_one.mp hflag with h | h <;> simp [h]
  have hpathLen : (bs.drop 10).length = leNat (slice bs 9 1) := by
    rw [List.length_drop, hlen]
    omega
  rw [encode, hpath, ok_bind, raiseIf_false hsize, ok_bind, hoverwrite, hpathLen]
  exact (congrArg (· >>= fun head => pure (head ++ bs.drop 10)) hhead).trans (congrArg Except.ok slice_append_drop)

theorem TransferBeginResponse.canonical : Canonical IsValueError encode decode := by
  refine canonical_of (fun bs v h => ?_) fun bs => .bind fails_requireSize fun _ _ => .bind fails_raiseIf fun _ _ => .pure _
  simp only [decode, requireSize, bind_eq_ok, raiseIf_eq_ok, not_not] at h
  obtain ⟨_, hlen, _, -, hv⟩ := h
  obtain rfl := Except.ok.inj hv
  exact structPack_fields [2, 4] hlen

/-- The fields of a decoded block request fit the record it is encoded to. -/
theorem TransferBlockRequest.encode_decoded {bs data : Bytes} (h : 8 ≤ bs.length)
    (hdata : data = [] ∨ data.length = leNat (slice bs 6 2)) :
    let m : TransferBlockRequest := ⟨leNat (slice bs 0 2), leNat (slice bs 2 4), leNat (slice bs 6 2), data⟩
    (m.encode = .ok (slice bs 0 8 ++ data)) ∨ ∃ text, m.encode = .error (.valueError text) := by
  have hhead : structPack [(2, (leNat (slice bs 0 2) : Int)), (4, (leNat (slice bs 2 4) : Int)),
      (2, (leNat (slice bs 6 2) : Int))] = .ok (slice bs 0 8) := structPack_head [2, 4, 2] h
  have hno : ¬ (data ≠ [] ∧ data.length ≠ leNat (slice bs 6 2)) := by
    rintro ⟨h1, h2⟩
    exact hdata.elim h1 h2
  simp only [encode, hhead, raiseIf_false hno]
  unfold raiseIf
  split
  · exact Or.inr ⟨_, rfl⟩
  · split
    · exact Or.inr ⟨_, rfl⟩
    · exact Or.inl rfl

/-- The decoder checks a request by encoding it. -/
theorem TransferBlockRequest.canonical (hasData : Bool) : Canonical IsValueError encode (decode · hasData) := by
  have hdata : ∀ {bs : Bytes}, bs.length = (8 + if hasData = true then leNat (slice bs 6 2) else 0) →
      (if hasData = true then bs.drop 8 else []) = [] ∨
        (if hasData = true then bs.drop 8 else []).length = leNat (slice bs 6 2) := by
    intro bs hlen
    cases hasData with
    | false => exact Or.inl rfl
    | true =>
      rw [if_pos rfl] at hlen
      rw [if_pos rfl, List.length_drop, hlen]
      exact Or.inr (by omega)
  refine canonical_of (fun bs v h => ?_) fun bs => .bind fails_raiseIf fun _ hlong => .bind fails_requireSize fun _ hlen =>
    .bind ?_ fun _ _ => .pure _
  · simp only [decode, requireSize, bind_eq_ok, raiseIf_eq_ok, not_lt, not_not] at h
    obtain ⟨_, hlong, _, hlen, encoded, hencoded, hv⟩ := h
    obtain rfl := Except.ok.inj hv
    rcases encode_decoded hlong (hdata hlen) with hok | ⟨text, hno⟩
    · rw [hok]
      cases hasData with
      | true => exact congrArg Except.ok slice_append_drop
      | false => rw [if_neg (by decide), List.append_nil, slice_of_length (show bs.length = 8 from hlen)]
    · rw [hencoded] at hno
      cases hno
  · rw [raiseIf_eq_ok, not_lt] at hlong
    rw [requireSize, raiseIf_eq_ok, not_not] at hlen
    rcases encode_decoded hlong (hdata hlen) with hok | ⟨text, hno⟩
    · rw [hok]
      exact .ok _
    · rw [hno]
      exact .error ⟨text, rfl⟩

theorem TransferBlockResponse.canonical : Canonical IsValueError encode decode := by
  refine canonical_of (fun bs v h => ?_) fun bs =>
    .bind fails_raiseIf fun _ _ => .bind fails_requireSize fun _ _ => .bind fails_raiseIf fun _ _ => .pure _
  simp only [decode, requireSize, bind_eq_ok, raiseIf_eq_ok, not_lt, not_not] at h
  obtain ⟨_, hlong, _, hlen, _, hmax, hv⟩ := h
  obtain rfl := Except.ok.inj hv
  have hhead := structPack_head [2, 4, 2, 4] hlong
  have hdata : (bs.drop 12).length = leNat (slice bs 6 2) := by
    rw [List.length_drop, hlen]
    omega
  rw [encode, hdata, raiseIf_false (Nat.not_lt.mpr hmax), ok_bind]
  exact (congrArg (· >>= fun head => pure (head ++ bs.drop 12)) hhead).trans (congrArg Except.ok slice_append_drop)

theorem TransferEndResponse.canonical : Canonical IsValueError encode decode := by
  refine canonical_of (fun bs v h => ?_) fun bs => .bind fails_requireSize fun _ _ => .pure _
  simp only [decode, requireSize, bind_eq_ok, raiseIf_eq_ok, not_not] at h
  obtain ⟨_, hlen, hv⟩ := h
  obtain rfl := Except.ok.inj hv
  exact structPack_fields [4, 4] hlen

theorem GraphicsBeginResponse.canonical : Canonical IsValueError encode decode := by
  refine canonical_of (fun bs v h => ?_) fun bs =>
    .bind fails_requireSize fun _ _ => .bind fails_enumOf fun _ _ => .bind fails_enumOf fun _ _ =>
      .bind fails_raiseIf fun _ _ => .pure _
  simp only [decode, requireSize, bind_eq_ok, raiseIf_eq_ok, not_not, enumOf_eq_ok] at h
  obtain ⟨_, hlen, adapter, hadapter, layout, hlayout, _, -, hv⟩ := h
  obtain rfl := Except.ok.inj hv
  rw [encode, Adapter.value_of_ofValue? hadapter, GraphicsLayout.value_of_ofValue? hlayout]
  exact structPack_fields [2, 1, 1, 1, 1, 2, 2, 4, 4] hlen

/-! ## Diagnostics -/

theorem shortField_shortOf {n : Nat} (h : n < 256 ^ 2) : shortField (shortOf n) = (2, (n : Int)) := by
  unfold shortField shortOf
  split <;> rw [if_pos (by omega)] <;> congr 1 <;> omega

/-- The fixed part of diagnostics, with the reserved byte zero. -/
theorem structPack_diagnostics {bs : Bytes} (h : 40 ≤ bs.length) (hreserved : leNat (slice bs 39 1) = 0) :
    structPack [(1, (leNat (slice bs 0 1) : Int)), (1, leNat (slice bs 1 1)), (2, leNat (slice bs 2 2)),
      (2, leNat (slice bs 4 2)), (2, leNat (slice bs 6 2)), (2, leNat (slice bs 8 2)), (2, leNat (slice bs 10 2)),
      (2, leNat (slice bs 12 2)), (2, leNat (slice bs 14 2)), (2, leNat (slice bs 16 2)), (2, leNat (slice bs 18 2)),
      (2, leNat (slice bs 20 2)), (2, leNat (slice bs 22 2)), (2, leNat (slice bs 24 2)), (2, leNat (slice bs 26 2)),
      (2, leNat (slice bs 28 2)), (2, leNat (slice bs 30 2)), (1, leNat (slice bs 32 1)), (1, leNat (slice bs 33 1)),
      shortField (shortOf (leNat (slice bs 34 2))), shortField (shortOf (leNat (slice bs 36 2))),
      (1, leNat (slice bs 38 1)), (1, 0)] = .ok (slice bs 0 40) := by
  have hhead := structPack_head [1, 1, 2, 2, 2, 2, 2, 2, 2, 2, 2, 2, 2, 2, 2, 2, 2, 1, 1, 2, 2, 1, 1] h
  simp only [fieldsAt, Nat.zero_add, Nat.reduceAdd, hreserved, Nat.cast_zero] at hhead
  rw [shortField_shortOf (leNat_slice_lt bs 34 2), shortField_shortOf (leNat_slice_lt bs 36 2)]
  exact hhead

/-- The memory part of version 2, with its flag and reserved byte in range. -/
theorem structPack_memory {bs : Bytes} (h : 50 ≤ bs.length) (hflag : leNat (slice bs 48 1) ≤ 1)
    (hreserved : leNat (slice bs 49 1) = 0) :
    structPack [(2, (leNat (slice bs 40 2) : Int)), (2, leNat (slice bs 42 2)), (2, leNat (slice bs 44 2)),
      (2, leNat (slice bs 46 2)), (1, if decide (leNat (slice bs 48 1) ≠ 0) = true then 1 else 0), (1, 0)] =
        .ok (slice bs 40 10) := by
  have hpack := pack_fieldsAt (show 40 + [2, 2, 2, 2, 1, 1].sum ≤ bs.length from h)
  have hoverflow : ((if decide (leNat (slice bs 48 1) ≠ 0) = true then 1 else 0 : Int)) = (leNat (slice bs 48 1) : Int) := by
    rcases Nat.le_one_iff_eq_zero_or_eq_one.mp hflag with e | e <;> simp [e]
  simp only [fieldsAt, Nat.reduceAdd, hreserved, Nat.cast_zero] at hpack
  rw [hoverflow]
  exact structPack_eq_ok.mpr hpack

theorem shortOf_of_field {n : Nat} {v : Int} (h : (n : Int) = (shortField v).2) : shortOf n = v := by
  unfold shortField at h
  unfold shortOf
  split at h <;> split <;> omega

/-- Diagnostics with their memory part are decoded to what was encoded. -/
theorem ResidentDiagnosticsMessage.decode_of_encode {m : ResidentDiagnosticsMessage} {bs : Bytes} (h : m.encode = .ok bs)
    (hversion : m.version = 2) : decode bs = .ok m := by
  simp only [encode, bind_eq_ok, raiseIf_eq_ok, hversion] at h
  obtain ⟨_, -, base, hbase, h⟩ := h
  rw [if_neg (by decide), bind_eq_ok] at h
  obtain ⟨memory, hmemory, hbs⟩ := h
  obtain rfl : base ++ memory = bs := Except.ok.inj hbs
  have hbaseLen : base.length = 40 := by
    have hsum := structPack_length hbase
    simpa only [baseFields, shortField, List.map_cons, List.map_nil, List.sum_cons, List.sum_nil, Nat.reduceAdd] using hsum
  have hmemoryLen : memory.length = 10 := structPack_length hmemory
  have hlen : (base ++ memory).length = 50 := by rw [List.length_append, hbaseLen, hmemoryLen]
  have hfields := structPack_fieldsAt hbase memory
  have hrest := structPack_fieldsAt hmemory []
  simp only [baseFields, shortField, List.map_cons, List.map_nil, fieldsAt, Nat.zero_add, Nat.reduceAdd, List.cons.injEq,
    Prod.mk.injEq, true_and, and_true, Nat.cast_inj] at hfields
  simp only [memoryFields, List.map_cons, List.map_nil, fieldsAt, Nat.zero_add, Nat.reduceAdd, List.append_nil,
    List.cons.injEq, Prod.mk.injEq, true_and, and_true, Nat.cast_inj] at hrest
  have hpart : ∀ i n, slice (base ++ memory) (40 + i) n = slice memory i n := fun i n =>
    slice_append_right memory (by rw [hbaseLen])
  obtain ⟨h0, h1, h2, h4, h6, h8, h10, h12, h14, h16, h18, h20, h22, h24, h26, h28, h30, h32, h33, h34, h36, h38, h39⟩ := hfields
  obtain ⟨h40, h42, h44, h46, h48, h49⟩ := hrest
  have h40 : leNat (slice (base ++ memory) 40 2) = m.stackSize := (congrArg leNat (hpart 0 2)).trans h40
  have h42 : leNat (slice (base ++ memory) 42 2) = m.stackUsed := (congrArg leNat (hpart 2 2)).trans h42
  have h44 : leNat (slice (base ++ memory) 44 2) = m.residentParagraphs := (congrArg leNat (hpart 4 2)).trans h44
  have h46 : leNat (slice (base ++ memory) 46 2) = m.workspaceSize := (congrArg leNat (hpart 6 2)).trans h46
  have hresult := shortOf_of_field h34
  have hsend := shortOf_of_field h36
  have hflag : leNat (slice (base ++ memory) 48 1) = if m.stackOverflow then 1 else 0 := by
    rw [hpart 8 1]
    cases hw : m.stackOverflow
    all_goals
      rw [hw] at h48
      exact_mod_cast h48
  have hoverflow : decide (leNat (slice (base ++ memory) 48 1) ≠ 0) = m.stackOverflow := by
    rw [hflag]
    cases m.stackOverflow <;> rfl
  have hone : ¬ leNat (slice (base ++ memory) 48 1) > 1 := by
    rw [hflag]
    split <;> decide
  have hreserved : leNat (slice (base ++ memory) 39 1) = 0 := by exact_mod_cast h39
  have hlast : leNat (slice (base ++ memory) 49 1) = 0 := by
    rw [hpart 9 1]
    exact_mod_cast h49
  simp only [decode, requireSize, h0, if_pos hversion]
  rw [raiseIf_false (by omega), ok_bind, raiseIf_false (by omega), ok_bind, raiseIf_false (not_not.mpr hlen), ok_bind,
    raiseIf_false (not_not.mpr hreserved), ok_bind, raiseIf_false (by rw [hlast]; simpa using fun _ => hone), ok_bind]
  simp only [hoverflow, hresult, hsend, h1, h2, h4, h6, h8, h10, h12, h14, h16, h18, h20, h22, h24, h26, h28, h30, h32, h33,
    h38, h40, h42, h44, h46]
  rfl

theorem ResidentDiagnosticsMessage.canonical : Canonical IsValueError encode decode := by
  refine canonical_of (fun bs v h => ?_) fun bs =>
    .bind fails_raiseIf fun _ _ => .bind fails_raiseIf fun _ _ => .bind fails_requireSize fun _ _ =>
      .bind fails_raiseIf fun _ _ => .bind fails_raiseIf fun _ _ => .pure _
  simp only [decode, requireSize, bind_eq_ok, raiseIf_eq_ok, not_lt, not_not] at h
  obtain ⟨_, hlong, _, hversion, _, hlen, _, hreserved, _, hmemory, hv⟩ := h
  obtain rfl := Except.ok.inj hv
  rw [encode, raiseIf_false hversion, ok_bind, baseFields, structPack_diagnostics hlong hreserved, ok_bind]
  by_cases h2 : leNat (slice bs 0 1) = 2
  · rw [if_pos h2] at hlen
    rw [if_neg (show ¬ leNat (slice bs 0 1) = 1 by omega)]
    have hpart := structPack_memory hlen.ge (by omega) (by omega)
    simp only [memoryFields, h2, if_true]
    rw [hpart, ok_bind]
    refine congrArg Except.ok ((slice_append_slice bs (Nat.zero_add 40) rfl).trans (slice_of_length ?_))
    rw [hlen]
  · rw [if_neg h2] at hlen
    rw [if_pos (show leNat (slice bs 0 1) = 1 by omega)]
    simp only [h2, if_false]
    rw [raiseIf_false (by simp), ok_bind]
    exact congrArg Except.ok (slice_of_length hlen)

/-- Every payload codec the peers share is canonical. -/
theorem payload_codecs_canonical :
    Canonical IsValueError HelloRequest.encode HelloRequest.decode ∧
    Canonical IsValueError HelloResponse.encode HelloResponse.decode ∧
    Canonical IsValueError StatusMessage.encode StatusMessage.decode ∧
    Canonical IsValueError ResidentDiagnosticsMessage.encode ResidentDiagnosticsMessage.decode ∧
    Canonical IsValueError CapabilitiesMessage.encode CapabilitiesMessage.decode ∧
    Canonical IsValueError ScreenMessage.encode ScreenMessage.decode ∧
    Canonical IsValueError KeyResponse.encode KeyResponse.decode ∧
    Canonical IsValueError FileReadBeginRequest.encode FileReadBeginRequest.decode ∧
    Canonical IsValueError FileWriteBeginRequest.encode FileWriteBeginRequest.decode ∧
    Canonical IsValueError TransferBeginResponse.encode TransferBeginResponse.decode ∧
    (∀ hasData, Canonical IsValueError TransferBlockRequest.encode (TransferBlockRequest.decode · hasData)) ∧
    Canonical IsValueError TransferBlockResponse.encode TransferBlockResponse.decode ∧
    Canonical IsValueError TransferEndResponse.encode TransferEndResponse.decode ∧
    Canonical IsValueError GraphicsBeginResponse.encode GraphicsBeginResponse.decode :=
  ⟨HelloRequest.canonical, HelloResponse.canonical, StatusMessage.canonical, ResidentDiagnosticsMessage.canonical,
    CapabilitiesMessage.canonical, ScreenMessage.canonical, KeyResponse.canonical, FileReadBeginRequest.canonical,
    FileWriteBeginRequest.canonical, TransferBeginResponse.canonical, TransferBlockRequest.canonical,
    TransferBlockResponse.canonical, TransferEndResponse.canonical, GraphicsBeginResponse.canonical⟩

/-! ## Two request decoders -/

/-- The bytes are laid out as a key request: a header, the text and the keys it announces. -/
def KeyRequest.Laid (bs : Bytes) : Prop :=
  5 ≤ bs.length ∧ bs.length = 5 + leNat (slice bs 0 2) + leNat (slice bs 2 1) ∧
    ∀ value ∈ bs.drop (5 + leNat (slice bs 0 2)), (KeyCode.ofValue? value.toNat).isSome

/-- The bounds of `KeyRequest.encode`, on the header of an encoded request. -/
def KeyRequest.Bounded (bs : Bytes) : Prop :=
  leNat (slice bs 0 2) ≤ 4096 ∧ leNat (slice bs 2 1) ≤ 128 ∧ leNat (slice bs 3 2) ≤ 1000

theorem KeyRequest.decode_isOk {bs : Bytes} (h : Laid bs) : ∃ r, decode bs = .ok r := by
  obtain ⟨hlong, hlen, hkeys⟩ := h
  have hmap : ∃ keys, ((bs.drop (5 + leNat (slice bs 0 2))).mapM fun value => enumOf KeyCode.ofValue? "KeyCode" value.toNat) =
      .ok keys := by
    refine mapM_isOk fun value hvalue => ?_
    obtain ⟨key, hkey⟩ := Option.isSome_iff_exists.mp (hkeys value hvalue)
    exact ⟨key, enumOf_eq_ok.mpr hkey⟩
  obtain ⟨keys, hkeys⟩ := hmap
  refine ⟨⟨slice bs 5 (leNat (slice bs 0 2)), keys, leNat (slice bs 3 2)⟩, ?_⟩
  simp only [decode, requireSize]
  rw [raiseIf_false (Nat.not_lt.mpr hlong), ok_bind, raiseIf_false (not_not.mpr hlen), ok_bind, hkeys]
  rfl

/-- The keys that were decoded are the bytes they were decoded from. -/
theorem keys_of_mapM {bs : Bytes} {keys : List KeyCode}
    (h : (bs.mapM fun value => enumOf KeyCode.ofValue? "KeyCode" value.toNat) = .ok keys) :
    (keys.map fun key => UInt8.ofNat key.value) = bs := by
  have hall := mapM_eq_ok_iff.mp h
  clear h
  induction hall with
  | nil => rfl
  | cons hkey _ ih =>
    rw [List.map_cons, ih, KeyCode.value_of_ofValue? (enumOf_eq_ok.mp hkey), UInt8.ofNat_toNat]

/-- A decoded key request is encoded to its bytes exactly when these keep the bounds. -/
theorem KeyRequest.decode_eq_ok {bs : Bytes} {r : KeyRequest} (h : decode bs = .ok r) :
    Laid bs ∧ (r.encode = .ok bs ↔ Bounded bs) := by
  simp only [decode, requireSize, bind_eq_ok, raiseIf_eq_ok, not_lt, not_not] at h
  obtain ⟨_, hlong, _, hlen, keys, hkeys, hr⟩ := h
  obtain rfl := Except.ok.inj hr
  have hbytes := keys_of_mapM hkeys
  have hlaid : Laid bs := by
    refine ⟨hlong, hlen, fun value hvalue => ?_⟩
    rw [← hbytes] at hvalue
    obtain ⟨key, -, rfl⟩ := List.mem_map.mp hvalue
    have hvalue : (UInt8.ofNat key.value).toNat = key.value := by cases key <;> rfl
    rw [hvalue]
    cases key <;> rfl
  have htext : (slice bs 5 (leNat (slice bs 0 2))).length = leNat (slice bs 0 2) := slice_length_of_le (by omega)
  have hcount : keys.length = leNat (slice bs 2 1) := by
    have hlength := congrArg List.length hbytes
    rw [List.length_map, List.length_drop] at hlength
    omega
  have hhead : structPack [(2, (leNat (slice bs 0 2) : Int)), (1, (leNat (slice bs 2 1) : Int)),
      (2, (leNat (slice bs 3 2) : Int))] = .ok (slice bs 0 5) := structPack_head [2, 1, 2] hlong
  have hwhole : slice bs 0 5 ++ slice bs 5 (leNat (slice bs 0 2)) ++ bs.drop (5 + leNat (slice bs 0 2)) = bs := by
    rw [slice_append_slice bs (Nat.zero_add 5) rfl]
    exact slice_append_drop
  refine ⟨hlaid, ?_, ?_⟩
  · intro henc
    simp only [encode, bind_eq_ok, raiseIf_eq_ok, htext, hcount, not_not] at henc
    obtain ⟨_, h1, _, h2, _, h3, -⟩ := henc
    exact ⟨by omega, by omega, by omega⟩
  · rintro ⟨h1, h2, h3⟩
    simp only [encode, htext, hcount, hbytes, hhead]
    rw [raiseIf_false (by omega), ok_bind, raiseIf_false (by omega), ok_bind, raiseIf_false (by omega), ok_bind, ok_bind]
    exact congrArg Except.ok hwhole

theorem TransferEndRequest.decode_eq_ok {bs : Bytes} {r : TransferEndRequest} (h : decode bs = .ok r) :
    r.encode = .ok bs ↔ bs ≠ [0, 0] := by
  simp only [decode, requireSize, bind_eq_ok, raiseIf_eq_ok, not_not] at h
  obtain ⟨_, hlen, hr⟩ := h
  obtain rfl := Except.ok.inj hr
  have hpack : structPack [(2, (leNat (slice bs 0 2) : Int))] = .ok bs := structPack_fields [2] hlen
  have hzero : leNat (slice bs 0 2) = 0 ↔ bs = [0, 0] := by
    constructor
    · intro h0
      rw [h0] at hpack
      exact (Except.ok.inj hpack).symm
    · rintro rfl
      rfl
  rw [Ne, ← hzero]
  constructor
  · intro henc h0
    simp only [encode, bind_eq_ok, raiseIf_eq_ok] at henc
    obtain ⟨_, hid, -⟩ := henc
    exact hid h0
  · intro hid
    rw [encode, raiseIf_false hid, ok_bind]
    exact hpack

/-- Where what these decoders return can be encoded again: the header of a key request is within
    the bounds of the encoder, and the transfer ID is not the reserved one. -/
theorem request_decoders_strict_iff (bs : Bytes) :
    ((∀ r, KeyRequest.decode bs = .ok r → r.encode = .ok bs) ∧
      (∀ r, TransferEndRequest.decode bs = .ok r → r.encode = .ok bs)) ↔
      (KeyRequest.Laid bs → KeyRequest.Bounded bs) ∧ bs ≠ [0, 0] := by
  constructor
  · rintro ⟨hkeys, hend⟩
    refine ⟨fun hlaid => ?_, ?_⟩
    · obtain ⟨r, hr⟩ := KeyRequest.decode_isOk hlaid
      exact (KeyRequest.decode_eq_ok hr).2.mp (hkeys r hr)
    · rintro rfl
      exact (TransferEndRequest.decode_eq_ok (r := ⟨0⟩) rfl).mp (hend ⟨0⟩ rfl) rfl
  · rintro ⟨hbounded, hne⟩
    refine ⟨fun r hr => ?_, fun r hr => (TransferEndRequest.decode_eq_ok hr).mpr hne⟩
    obtain ⟨hlaid, hiff⟩ := KeyRequest.decode_eq_ok hr
    exact hiff.mpr (hbounded hlaid)

/-- A delay of 1001 ms and the transfer ID zero are decoded; neither can be encoded. -/
theorem lenient_requests_decode :
    (∃ r, KeyRequest.decode [0, 0, 0, 0xE9, 0x03] = .ok r ∧ r.encode ≠ .ok [0, 0, 0, 0xE9, 0x03]) ∧
      ∃ r, TransferEndRequest.decode [0, 0] = .ok r ∧ r.encode ≠ .ok [0, 0] :=
  ⟨⟨⟨[], [], 1001⟩, rfl, by simp [KeyRequest.encode, raiseIf, bind, Except.bind]⟩,
    ⟨⟨0⟩, rfl, by simp [TransferEndRequest.encode, raiseIf, bind, Except.bind]⟩⟩

end DosMcp
