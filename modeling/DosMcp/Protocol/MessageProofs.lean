/-
  DosMcp.Protocol.MessageProofs — round trips of the transfer messages: what one side
  encodes the other decodes, field by field.
-/

import DosMcp.Lib.Codec
import DosMcp.Lib.Traverse
import DosMcp.Protocol.Messages

namespace DosMcp

open Lib

theorem structPack_eq_ok {fields : List (Nat × Int)} {bs : Bytes} : structPack fields = .ok bs ↔ pack fields = some bs := by
  unfold structPack
  cases pack fields <;> simp

theorem structPack_length {fields : List (Nat × Int)} {bs : Bytes} (h : structPack fields = .ok bs) :
    bs.length = (fields.map Prod.fst).sum :=
  pack_length (structPack_eq_ok.mp h)

theorem structPack_isOk_iff {fields : List (Nat × Int)} :
    (∃ bs, structPack fields = .ok bs) ↔ ∀ f ∈ fields, 0 ≤ f.2 ∧ f.2 < 256 ^ f.1 := by
  simp only [structPack_eq_ok, pack_isSome_iff]

/-- The fields of a packed record are read back, all at once. -/
theorem structPack_fieldsAt {fields : List (Nat × Int)} {bs : Bytes} (h : structPack fields = .ok bs) (rest : Bytes) :
    fieldsAt (bs ++ rest) (fields.map Prod.fst) 0 = fields :=
  @fieldsAt_of_pack [] fields bs (structPack_eq_ok.mp h) rest

theorem enumOf_eq_ok {ε : Type} {ofValue? : Nat → Option ε} {name : String} {n : Nat} {a : ε} :
    enumOf ofValue? name n = .ok a ↔ ofValue? n = some a := by
  unfold enumOf
  split <;> simp_all

@[simp] theorem raiseIf_false {e : Exc} {c : Prop} [Decidable c] (h : ¬ c) : raiseIf c e = .ok () := if_neg h

@[simp] theorem ok_bind {α β : Type} (a : α) (f : α → Except Exc β) : (Except.ok a >>= f) = f a := rfl

/-! ## Observation -/

theorem Phase.ofValue?_value (p : Phase) : ofValue? p.value = some p := by cases p <;> rfl

theorem Adapter.ofValue?_value (a : Adapter) : ofValue? a.value = some a := by cases a <;> rfl

theorem GraphicsLayout.ofValue?_value (l : GraphicsLayout) : ofValue? l.value = some l := by cases l <;> rfl

theorem StatusMessage.decode_of_encode {m : StatusMessage} {bs : Bytes} (h : m.encode = .ok bs) : decode bs = .ok m := by
  have hlen : bs.length = 12 := structPack_length h
  have hfields := structPack_fieldsAt h []
  simp only [List.map_cons, List.map_nil, fieldsAt, Nat.zero_add, Nat.reduceAdd, List.append_nil, List.cons.injEq,
    Prod.mk.injEq, true_and, and_true, Nat.cast_inj] at hfields
  obtain ⟨h0, h1, h2, h3, h4, h5, h6, h8⟩ := hfields
  simp only [decode, requireSize, h0, h1, h2, h3, h4, h5, h6, h8]
  rw [raiseIf_false (not_not.mpr hlen), ok_bind, enumOf_eq_ok.mpr m.phase.ofValue?_value]
  rfl

theorem KeyResponse.decode_of_encode {m : KeyResponse} {bs : Bytes} (h : m.encode = .ok bs) : decode bs = .ok m := by
  have hlen : bs.length = 5 := structPack_length h
  have hfields := structPack_fieldsAt h []
  simp only [List.map_cons, List.map_nil, fieldsAt, Nat.zero_add, Nat.reduceAdd, List.append_nil, List.cons.injEq,
    Prod.mk.injEq, true_and, and_true, Nat.cast_inj] at hfields
  obtain ⟨h0, h2, h3⟩ := hfields
  simp only [decode, requireSize, h0, h2, h3]
  rw [raiseIf_false (not_not.mpr hlen), ok_bind]
  rfl

theorem ScreenMessage.decode_of_encode {m : ScreenMessage} {bs : Bytes} (h : m.encode = .ok bs) : decode bs = .ok m := by
  simp only [encode, bind_eq_ok] at h
  obtain ⟨_, hvalid, head, hhead, hbs⟩ := h
  obtain rfl := Except.ok.inj hbs
  have hlen : head.length = 13 := structPack_length hhead
  have hfields := structPack_fieldsAt hhead m.cells
  simp only [List.map_cons, List.map_nil, fieldsAt, Nat.zero_add, Nat.reduceAdd, List.cons.injEq, Prod.mk.injEq, true_and,
    and_true, Nat.cast_inj] at hfields
  obtain ⟨h0, h1, h2, h3, h4, h5, h6, h7, h8, h9, h11⟩ := hfields
  have hshort : ¬ (head ++ m.cells).length < 13 := by
    rw [List.length_append]
    omega
  simp only [decode, h0, h1, h2, h3, h4, h5, h6, h7, h8, h9, h11, List.drop_left' hlen]
  rw [raiseIf_false hshort, ok_bind, enumOf_eq_ok.mpr m.adapter.ofValue?_value, ok_bind, hvalid]
  rfl

theorem ScreenMessage.validate_eq_ok {m : ScreenMessage} : m.validate = .ok () ↔
    ((1 ≤ m.columns ∧ m.columns ≤ 255) ∧ 1 ≤ m.rows ∧ m.rows ≤ 255) ∧ m.cells.length = m.columns * m.rows * 2 ∧
      m.cursorRow < m.rows ∧ m.cursorColumn < m.columns := by
  simp only [validate, bind_eq_ok, raiseIf_eq_ok, exists_const, not_or, not_not, ge_iff_le, not_le, ne_eq]

theorem ScreenMessage.encode_of_pack {m : ScreenMessage} {head : Bytes}
    (hvalid : ((1 ≤ m.columns ∧ m.columns ≤ 255) ∧ 1 ≤ m.rows ∧ m.rows ≤ 255) ∧ m.cells.length = m.columns * m.rows * 2 ∧
      m.cursorRow < m.rows ∧ m.cursorColumn < m.columns)
    (hpack : pack [(1, m.columns), (1, m.rows), (1, m.videoMode), (1, m.activePage), (1, m.cursorRow), (1, m.cursorColumn),
      (1, m.cursorStart), (1, m.cursorEnd), (1, m.adapter.value), (2, m.codePage), (2, m.generation)] = some head) :
    m.encode = .ok (head ++ m.cells) := by
  rw [encode, validate_eq_ok.mpr hvalid, ok_bind, structPack_eq_ok.mpr hpack]
  rfl

/-- A valid message is encoded where the other values fit their fields. -/
theorem ScreenMessage.encode_isOk_iff {m : ScreenMessage} (hvalid : m.validate = .ok ()) :
    (∃ bs, m.encode = .ok bs) ↔ (0 ≤ m.videoMode ∧ m.videoMode < 256) ∧ (0 ≤ m.activePage ∧ m.activePage < 256) ∧
      (0 ≤ m.cursorStart ∧ m.cursorStart < 256) ∧ (0 ≤ m.cursorEnd ∧ m.cursorEnd < 256) ∧ m.codePage < 65536 ∧
      m.generation < 65536 := by
  have hpack : (∃ bs, m.encode = .ok bs) ↔ ∃ head, structPack [(1, m.columns), (1, m.rows), (1, m.videoMode),
      (1, m.activePage), (1, m.cursorRow), (1, m.cursorColumn), (1, m.cursorStart), (1, m.cursorEnd),
      (1, m.adapter.value), (2, m.codePage), (2, m.generation)] = .ok head := by
    constructor
    · rintro ⟨bs, h⟩
      simp only [encode, bind_eq_ok] at h
      obtain ⟨_, -, head, hhead, -⟩ := h
      exact ⟨head, hhead⟩
    · rintro ⟨head, hhead⟩
      exact ⟨head ++ m.cells, by rw [encode, hvalid, ok_bind, hhead]; rfl⟩
  obtain ⟨⟨hcolumns, hrows⟩, -, hrow, hcolumn⟩ := validate_eq_ok.mp hvalid
  have hadapter : m.adapter.value < 256 := by cases m.adapter <;> decide
  rw [hpack, structPack_isOk_iff]
  simp only [List.forall_mem_cons, List.not_mem_nil, false_implies, implies_true, and_true]
  omega

/-! ## Begin -/

theorem TransferBeginResponse.decode_of_encode {m : TransferBeginResponse} {bs : Bytes} (h : m.encode = .ok bs)
    (hid : m.transferId ≠ 0) : decode bs = .ok m := by
  have hlen : bs.length = 6 := structPack_length h
  have hfields := structPack_fieldsAt h []
  simp only [List.map_cons, List.map_nil, fieldsAt, Nat.zero_add, List.append_nil, List.cons.injEq, Prod.mk.injEq,
    true_and, and_true, Nat.cast_inj] at hfields
  obtain ⟨h1, h2⟩ := hfields
  simp [decode, requireSize, hlen, h1, h2, hid, pure, Except.pure]

theorem TransferBeginResponse.encode_isOk_iff {m : TransferBeginResponse} :
    (∃ bs, m.encode = .ok bs) ↔ m.transferId < 256 ^ 2 ∧ m.totalSize < 256 ^ 4 := by
  rw [encode, structPack_isOk_iff]
  simp only [List.forall_mem_cons, List.not_mem_nil, false_implies, implies_true, and_true]
  norm_cast
  omega

/-- An encoded graphics response is decoded up to the check of its values. -/
theorem GraphicsBeginResponse.decode_of_encode {m : GraphicsBeginResponse} {bs : Bytes} (h : m.encode = .ok bs) :
    decode bs = (do
      raiseIf (m.transferId = 0 ∨ ¬ (1 ≤ m.planes ∧ m.planes ≤ 4) ∨ ¬ (1 ≤ m.width ∧ m.width ≤ 2048) ∨
          ¬ (1 ≤ m.height ∧ m.height ≤ 2048) ∨ m.totalSize = 0 ∨ m.bytesPerPlane = 0 ∨
          m.totalSize ≠ m.planes * m.bytesPerPlane ∨
          (m.layout = .planar4bpp ∧ m.planes ≠ 4) ∨ (m.layout ≠ .planar4bpp ∧ m.planes ≠ 1))
        (.valueError "invalid graphics metadata")
      return m) := by
  have hlen : bs.length = 18 := structPack_length h
  have hfields := structPack_fieldsAt h []
  simp only [List.map_cons, List.map_nil, fieldsAt, Nat.zero_add, Nat.reduceAdd, List.append_nil, List.cons.injEq,
    Prod.mk.injEq, true_and, and_true, Nat.cast_inj] at hfields
  obtain ⟨h0, h2, h3, h4, h5, h6, h8, h10, h14⟩ := hfields
  simp only [decode, requireSize, h0, h2, h3, h4, h5, h6, h8, h10, h14]
  rw [raiseIf_false (not_not.mpr hlen), ok_bind, enumOf_eq_ok.mpr m.adapter.ofValue?_value, ok_bind,
    enumOf_eq_ok.mpr m.layout.ofValue?_value, ok_bind]

theorem validatePath_eq_ok {path : Bytes} {u : Unit} (h : validatePath path = .ok u) : path.length ≤ maxDosPathBytes := by
  simp only [validatePath, raiseIf_eq_ok, not_or, not_not] at h
  exact h.1.2

theorem FileReadBeginRequest.decode_of_encode {m : FileReadBeginRequest} {bs : Bytes} (h : m.encode = .ok bs) :
    decode bs = .ok m := by
  simp only [encode, bind_eq_ok] at h
  obtain ⟨u, hpath, hbs⟩ := h
  obtain rfl : UInt8.ofNat m.path.length :: m.path = bs := Except.ok.inj hbs
  have hle := validatePath_eq_ok hpath
  have hsize : leNat (slice (UInt8.ofNat m.path.length :: m.path) 0 1) = m.path.length := by
    rw [leNat_slice_one (by simp)]
    simp only [byteAt, List.getD_cons_zero, UInt8.toNat_ofNat', maxDosPathBytes] at hle ⊢
    omega
  simp [decode, requireSize, hsize, hpath, pure, Except.pure]

theorem FileWriteBeginRequest.decode_of_encode {m : FileWriteBeginRequest} {bs : Bytes} (h : m.encode = .ok bs) :
    decode bs = .ok m := by
  simp only [encode, bind_eq_ok, raiseIf_eq_ok] at h
  obtain ⟨u, hpath, _, -, head, hhead, hbs⟩ := h
  obtain rfl : head ++ m.path = bs := Except.ok.inj hbs
  have hlen : head.length = 10 := structPack_length hhead
  have hfields := structPack_fieldsAt hhead m.path
  simp only [List.map_cons, List.map_nil, fieldsAt, Nat.zero_add, Nat.reduceAdd, List.cons.injEq, Prod.mk.injEq, true_and,
    and_true, Nat.cast_inj] at hfields
  obtain ⟨hflag, h2, h3, h4⟩ := hfields
  have h1 : leNat (slice (head ++ m.path) 0 1) = if m.overwrite then 1 else 0 := by
    cases hw : m.overwrite <;> simp_all
  have hdrop : (head ++ m.path).drop 10 = m.path := List.drop_left' hlen
  have hflag : ¬ (if m.overwrite then 1 else 0) > 1 := by split <;> decide
  simp only [decode, requireSize, h1, h2, h3, h4, hdrop, List.length_append, hlen, hpath, hflag]
  cases hw : m.overwrite
  all_goals
    simp [pure, Except.pure]
    rw [← hw]

/-! ## Blocks -/

theorem TransferBlockRequest.encode_eq_ok {m : TransferBlockRequest} {bs : Bytes} (h : m.encode = .ok bs) :
    m.transferId ≠ 0 ∧ 1 ≤ m.length ∧ m.length ≤ maxTransferBlock ∧ (m.data = [] ∨ m.data.length = m.length) ∧
      ∃ head, structPack [(2, m.transferId), (4, m.offset), (2, m.length)] = .ok head ∧ bs = head ++ m.data := by
  simp only [encode, bind_eq_ok, raiseIf_eq_ok, not_not] at h
  obtain ⟨_, hid, _, hlen, _, hdata, head, hhead, hbs⟩ := h
  refine ⟨hid, hlen.1, hlen.2, ?_, head, hhead, (Except.ok.inj hbs).symm⟩
  by_contra hno
  rw [not_or] at hno
  exact hdata hno

/-- What a decoded block request is known to satisfy. -/
theorem TransferBlockRequest.decode_eq_ok {payload : Bytes} {hasData : Bool} {m : TransferBlockRequest}
    (h : decode payload hasData = .ok m) :
    m.transferId < 256 ^ 2 ∧ m.offset < 256 ^ 4 ∧ 1 ≤ m.length ∧ m.length ≤ maxTransferBlock ∧
      (hasData = true → m.data.length = m.length) := by
  simp only [decode, requireSize, bind_eq_ok, raiseIf_eq_ok, not_not] at h
  obtain ⟨_, -, _, hsize, encoded, hencoded, hm⟩ := h
  obtain rfl := Except.ok.inj hm
  obtain ⟨-, h1, h2, -, -⟩ := encode_eq_ok hencoded
  refine ⟨leNat_slice_lt payload 0 2, leNat_slice_lt payload 2 4, h1, h2, fun hd => ?_⟩
  subst hd
  simp only [if_true] at hsize ⊢
  rw [List.length_drop, hsize]
  omega

/-- With its data exactly when the request carries some. -/
theorem TransferBlockRequest.decode_of_encode {m : TransferBlockRequest} {bs : Bytes} (h : m.encode = .ok bs) :
    decode bs (m.data ≠ []) = .ok m := by
  obtain ⟨hid, -, -, hdata, head, hhead, rfl⟩ := encode_eq_ok h
  have hlen : head.length = 8 := structPack_length hhead
  have hfields := structPack_fieldsAt hhead m.data
  simp only [List.map_cons, List.map_nil, fieldsAt, Nat.zero_add, Nat.reduceAdd, List.cons.injEq, Prod.mk.injEq, true_and,
    and_true, Nat.cast_inj] at hfields
  obtain ⟨h1, h2, h3⟩ := hfields
  have hdrop : (head ++ m.data).drop 8 = m.data := List.drop_left' hlen
  have hsize : (head ++ m.data).length = 8 + if decide (m.data ≠ []) = true then m.length else 0 := by
    rw [List.length_append, hlen]
    rcases hdata with e | e
    · simp [e]
    · by_cases hnil : m.data = [] <;> simp_all
  have hvalue : (⟨m.transferId, m.offset, m.length, if decide (m.data ≠ []) = true then m.data else []⟩ :
      TransferBlockRequest) = m := by
    by_cases hnil : m.data = []
    · simp only [hnil, ne_eq, not_true_eq_false, decide_false, Bool.false_eq_true, if_false]
      rw [← hnil]
    · simp [hnil]
  have hlong : ¬ (head ++ m.data).length < 8 := by
    rw [List.length_append, hlen]
    omega
  simp only [decode, requireSize, h1, h2, h3, hdrop, hvalue, h]
  rw [raiseIf_false hlong, ok_bind, raiseIf_false (not_not.mpr hsize), ok_bind]
  rfl

theorem TransferBlockResponse.decode_of_encode {m : TransferBlockResponse} {bs : Bytes} (h : m.encode = .ok bs) :
    decode bs = .ok m := by
  simp only [encode, bind_eq_ok, raiseIf_eq_ok] at h
  obtain ⟨_, hle, head, hhead, hbs⟩ := h
  obtain rfl : head ++ m.data = bs := Except.ok.inj hbs
  have hlen : head.length = 12 := structPack_length hhead
  have hfields := structPack_fieldsAt hhead m.data
  simp only [List.map_cons, List.map_nil, fieldsAt, Nat.zero_add, Nat.reduceAdd, List.cons.injEq, Prod.mk.injEq, true_and,
    and_true, Nat.cast_inj] at hfields
  obtain ⟨h1, h2, h3, h4⟩ := hfields
  have hdrop : (head ++ m.data).drop 12 = m.data := List.drop_left' hlen
  have hlong : ¬ (head ++ m.data).length < 12 := by
    rw [List.length_append, hlen]
    omega
  simp only [decode, requireSize, h1, h2, h3, h4, hdrop]
  rw [raiseIf_false hlong, ok_bind, raiseIf_false (by simp [hlen]), ok_bind, raiseIf_false hle]
  rfl

theorem TransferBlockResponse.encode_isOk {transferId offset crc : Nat} {data : Bytes} (hid : transferId < 256 ^ 2)
    (hoffset : offset < 256 ^ 4) (hdata : data.length ≤ maxTransferBlock) (hcrc : crc < 256 ^ 4) :
    ∃ bs, encode ⟨transferId, offset, data, crc⟩ = .ok bs := by
  have hfields : ∃ head, structPack [(2, (transferId : Int)), (4, (offset : Int)), (2, (data.length : Int)),
      (4, (crc : Int))] = .ok head := by
    rw [structPack_isOk_iff]
    simp only [List.forall_mem_cons, List.not_mem_nil, false_implies, implies_true, and_true, maxTransferBlock] at hdata ⊢
    norm_cast
    omega
  obtain ⟨head, hhead⟩ := hfields
  refine ⟨head ++ data, ?_⟩
  rw [encode, raiseIf_false (Nat.not_lt.mpr hdata), ok_bind, hhead]
  rfl

/-! ## End -/

theorem TransferEndRequest.decode_of_encode {m : TransferEndRequest} {bs : Bytes} (h : m.encode = .ok bs) :
    decode bs = .ok m := by
  simp only [encode, bind_eq_ok, raiseIf_eq_ok] at h
  obtain ⟨_, hid, hpack⟩ := h
  have hlen : bs.length = 2 := structPack_length hpack
  have hfields := structPack_fieldsAt hpack []
  simp only [List.map_cons, List.map_nil, fieldsAt, List.append_nil, List.cons.injEq, Prod.mk.injEq, true_and,
    and_true, Nat.cast_inj] at hfields
  have h1 := hfields
  simp [decode, requireSize, hlen, h1, pure, Except.pure]

theorem TransferEndResponse.decode_of_encode {m : TransferEndResponse} {bs : Bytes} (h : m.encode = .ok bs) :
    decode bs = .ok m := by
  have hlen : bs.length = 8 := structPack_length h
  have hfields := structPack_fieldsAt h []
  simp only [List.map_cons, List.map_nil, fieldsAt, Nat.zero_add, List.append_nil, List.cons.injEq, Prod.mk.injEq,
    true_and, and_true] at hfields
  obtain ⟨h1, h2⟩ := hfields
  simp [decode, requireSize, hlen, h1, h2, pure, Except.pure]

end DosMcp
