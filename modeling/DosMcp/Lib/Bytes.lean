/-
  DosMcp.Lib.Bytes — byte strings and little-endian fields.

  `leBytes n v` is the `n`-byte little-endian form of `v` (the value is taken modulo
  256 ^ n, as a store of `n` bytes does), `leNat` reads one back. The two are inverse
  on values that fit (`leNat_leBytes`) and on byte strings of the width
  (`leBytes_leNat`), which is all a fixed-layout codec needs of them. `pack` stores a
  record of unsigned fields and fails, as a checked packer does, when a value does not
  fit its field.
-/

import Mathlib.Data.List.Basic
import Mathlib.Tactic.Ring

namespace DosMcp.Lib

abbrev Bytes := List UInt8

def leBytes : Nat → Nat → Bytes
  | 0, _ => []
  | n + 1, v => UInt8.ofNat v :: leBytes n (v / 256)

def leNat : Bytes → Nat
  | [] => 0
  | b :: bs => b.toNat + 256 * leNat bs

@[simp] theorem leBytes_length (n v : Nat) : (leBytes n v).length = n := by
  induction n generalizing v with
  | zero => rfl
  | succ n ih => simp [leBytes, ih]

theorem leBytes_one (v : Nat) : leBytes 1 v = [UInt8.ofNat v] := rfl

theorem leBytes_two (v : Nat) : leBytes 2 v = [UInt8.ofNat v, UInt8.ofNat (v / 256)] := rfl

theorem leBytes_four (v : Nat) :
    leBytes 4 v = [UInt8.ofNat v, UInt8.ofNat (v / 256), UInt8.ofNat (v / 256 / 256), UInt8.ofNat (v / 256 / 256 / 256)] :=
  rfl

theorem leNat_lt (bs : Bytes) : leNat bs < 256 ^ bs.length := by
  induction bs with
  | nil => simp [leNat]
  | cons b bs ih =>
    have hb := b.toNat_lt
    simp only [leNat, List.length_cons, Nat.pow_succ]
    omega

/-- A value that fits the width survives the store. -/
theorem leNat_leBytes {n v : Nat} (h : v < 256 ^ n) : leNat (leBytes n v) = v := by
  induction n generalizing v with
  | zero => simp at h; subst h; rfl
  | succ n ih =>
    have hq : v / 256 < 256 ^ n := by rw [Nat.pow_succ] at h; omega
    simp only [leBytes, leNat, ih hq, UInt8.toNat_ofNat']
    omega

/-- Every byte string of the width is the form of the value read from it. -/
theorem leBytes_leNat (bs : Bytes) : leBytes bs.length (leNat bs) = bs := by
  induction bs with
  | nil => rfl
  | cons b bs ih =>
    have hb := b.toNat_lt
    have h1 : UInt8.ofNat (b.toNat + 256 * leNat bs) = b := by
      apply UInt8.toNat_inj.mp
      rw [UInt8.toNat_ofNat']
      omega
    have h2 : (b.toNat + 256 * leNat bs) / 256 = leNat bs := by omega
    simp only [List.length_cons, leBytes, leNat, h1, h2, ih]

/-- The bytes at `[i, i + n)`. -/
def slice (bs : Bytes) (i n : Nat) : Bytes := (bs.drop i).take n

/-- The byte at `i`, zero past the end. -/
def byteAt (bs : Bytes) (i : Nat) : UInt8 := bs.getD i 0

theorem slice_length (bs : Bytes) (i n : Nat) : (slice bs i n).length = min n (bs.length - i) := by
  simp [slice]

theorem slice_length_of_le {bs : Bytes} {i n : Nat} (h : i + n ≤ bs.length) : (slice bs i n).length = n := by
  rw [slice_length]; omega

/-- Adjacent slices join. -/
theorem slice_append_slice (bs : Bytes) {i n j m k : Nat} (hj : i + n = j) (hk : n + m = k) :
    slice bs i n ++ slice bs j m = slice bs i k := by
  subst hj hk
  simp only [slice, List.take_add, List.drop_drop]

theorem slice_zero_eq_take (bs : Bytes) (n : Nat) : slice bs 0 n = bs.take n := rfl

/-- A field that lies inside the first part of a string is read from it. -/
theorem slice_append_left {as : Bytes} (bs : Bytes) {i n : Nat} (h : i + n ≤ as.length) :
    slice (as ++ bs) i n = slice as i n := by
  rw [slice, slice, List.drop_append_of_le_length (by omega), List.take_append_of_le_length (by simp; omega)]

/-- A field past the first part of a string is read from the rest. -/
theorem slice_append_right {as : Bytes} (bs : Bytes) {i n k : Nat} (h : as.length + k = i) :
    slice (as ++ bs) i n = slice bs k n := by
  subst h
  rw [slice, slice, List.drop_append, List.drop_of_length_le (by omega), List.nil_append, Nat.add_sub_cancel_left]

/-- The part that an element of a list was written to, where all parts have one width. -/
theorem slice_flatMap {α : Type} {f : α → Bytes} {n : Nat} {xs : List α} (hf : ∀ x ∈ xs, (f x).length = n) {i : Nat}
    (hi : i < xs.length) : slice (xs.flatMap f) (i * n) n = f xs[i] := by
  induction xs generalizing i with
  | nil => cases hi
  | cons x xs ih =>
    have hx := hf x List.mem_cons_self
    rw [List.flatMap_cons]
    cases i with
    | zero => rw [Nat.zero_mul, slice_zero_eq_take, List.take_left' hx, List.getElem_cons_zero]
    | succ i =>
      have hrest := ih (fun y hy => hf y (List.mem_cons_of_mem _ hy)) (Nat.lt_of_succ_lt_succ hi)
      have hskip : (f x).length + i * n = (i + 1) * n := by rw [hx, Nat.succ_mul, Nat.add_comm]
      rw [slice_append_right _ hskip, hrest, List.getElem_cons_succ]

/-- Reading a fixed-width field and storing it again gives its bytes back. -/
theorem leBytes_leNat_slice {bs : Bytes} {i n : Nat} (h : i + n ≤ bs.length) :
    leBytes n (leNat (slice bs i n)) = slice bs i n := by
  have e := leBytes_leNat (slice bs i n)
  rwa [slice_length_of_le h] at e

theorem leNat_slice_lt (bs : Bytes) (i n : Nat) : leNat (slice bs i n) < 256 ^ n :=
  Nat.lt_of_lt_of_le (leNat_lt _) (Nat.pow_le_pow_right (by decide) (by rw [slice_length]; omega))

theorem slice_eq_cons {bs : Bytes} {i n : Nat} (h : i < bs.length) :
    slice bs i (n + 1) = byteAt bs i :: slice bs (i + 1) n := by
  rw [slice, List.drop_eq_getElem_cons h, List.take_succ_cons, byteAt, List.getD_eq_getElem?_getD,
    List.getElem?_eq_getElem h]
  rfl

theorem slice_one {bs : Bytes} {i : Nat} (h : i < bs.length) : slice bs i 1 = [byteAt bs i] := by
  rw [slice_eq_cons h]; rfl

theorem slice_two {bs : Bytes} {i : Nat} (h : i + 1 < bs.length) : slice bs i 2 = [byteAt bs i, byteAt bs (i + 1)] := by
  rw [slice_eq_cons (by omega), slice_one h]

theorem slice_four {bs : Bytes} {i : Nat} (h : i + 3 < bs.length) :
    slice bs i 4 = [byteAt bs i, byteAt bs (i + 1), byteAt bs (i + 2), byteAt bs (i + 3)] := by
  rw [slice_eq_cons (by omega), slice_eq_cons (by omega), slice_two (by omega)]

theorem leNat_slice_one {bs : Bytes} {i : Nat} (h : i < bs.length) : leNat (slice bs i 1) = (byteAt bs i).toNat := by
  rw [slice_one h]; simp [leNat]

theorem byteAt_take {bs : Bytes} {i n : Nat} (h : i < n) : byteAt (bs.take n) i = byteAt bs i := by
  simp [byteAt, List.getD_eq_getElem?_getD, h]

/-- A string of one more block starts with a block of four bytes. -/
theorem exists_block {bs : Bytes} {n : Nat} (h : bs.length = 4 * (n + 1)) :
    ∃ a b c d rest, bs = a :: b :: c :: d :: rest ∧ rest.length = 4 * n := by
  match bs, h with
  | a :: b :: c :: d :: rest, h => exact ⟨a, b, c, d, rest, rfl, by simp at h; omega⟩

/-! ## Damage -/

/-- Two strings of one length that differ, and only at `[i, i + n)`. -/
structure Damaged {α : Type} (i n : Nat) (as bs : List α) : Prop where
  length_eq : as.length = bs.length
  differ : as ≠ bs
  same : ∀ j, j < i ∨ i + n ≤ j → as[j]? = bs[j]?

section

variable {α : Type} {i n : Nat} {as bs : List α}

theorem Damaged.symm (h : Damaged i n as bs) : Damaged i n bs as :=
  ⟨h.length_eq.symm, h.differ.symm, fun j hj => (h.same j hj).symm⟩

theorem Damaged.take_eq (h : Damaged i n as bs) {k : Nat} (hk : k ≤ i) : as.take k = bs.take k := by
  apply List.ext_getElem?
  intro j
  rw [List.getElem?_take, List.getElem?_take]
  split
  · exact h.same j (Or.inl (by omega))
  · rfl

theorem Damaged.drop_eq (h : Damaged i n as bs) {k : Nat} (hk : i + n ≤ k) : as.drop k = bs.drop k := by
  apply List.ext_getElem?
  intro j
  rw [List.getElem?_drop, List.getElem?_drop]
  exact h.same (k + j) (Or.inr (by omega))

theorem Damaged.mono (h : Damaged i n as bs) {m : Nat} (hm : n ≤ m) : Damaged i m as bs :=
  ⟨h.length_eq, h.differ, fun j hj => h.same j (by omega)⟩

/-- One item replaced by another. -/
theorem damaged_set {b : α} (hi : i < as.length) (hne : as[i]? ≠ some b) : Damaged i 1 as (as.set i b) := by
  refine ⟨List.length_set.symm, ?_, ?_⟩
  · intro heq
    apply hne
    rw [heq, List.getElem?_set_self hi]
  · intro j hj
    exact (List.getElem?_set_ne (by omega)).symm

/-- Items behind the damage are the same for both. -/
theorem Damaged.append (h : Damaged i n as bs) (cs : List α) : Damaged i n (as ++ cs) (bs ++ cs) := by
  refine ⟨by rw [List.length_append, List.length_append, h.length_eq], fun heq => h.differ (List.append_cancel_right heq), ?_⟩
  intro j hj
  rw [List.getElem?_append, List.getElem?_append, h.length_eq, h.same j hj]

theorem Damaged.lt_length (h : Damaged i n as bs) : i < as.length := by
  by_contra hlt
  apply h.differ
  apply List.ext_getElem?
  intro j
  by_cases hj : j < i
  · exact h.same j (Or.inl hj)
  · have hlength := h.length_eq
    rw [List.getElem?_eq_none (by omega), List.getElem?_eq_none (by omega)]

/-- The window of the damage, and what is around it. -/
theorem Damaged.split (h : Damaged i n as bs) :
    ∃ front window window' back, as = front ++ window ++ back ∧ bs = front ++ window' ++ back ∧
      window.length = window'.length ∧ window.length ≤ n ∧ window ≠ window' ∧ front.length = min i as.length := by
  refine ⟨as.take i, (as.drop i).take n, (bs.drop i).take n, as.drop (i + n), ?_, ?_, ?_, ?_, ?_, ?_⟩
  · rw [← List.drop_drop, List.append_assoc, List.take_append_drop, List.take_append_drop]
  · rw [h.take_eq (Nat.le_refl _), h.drop_eq (Nat.le_refl _), ← List.drop_drop, List.append_assoc, List.take_append_drop,
      List.take_append_drop]
  · simp only [List.length_take, List.length_drop, h.length_eq]
  · exact List.length_take_le _ _
  · intro hwindow
    apply h.differ
    rw [← List.take_append_drop i as, ← List.take_append_drop i bs, ← List.take_append_drop n (as.drop i),
      ← List.take_append_drop n (bs.drop i), List.drop_drop, List.drop_drop, h.take_eq (Nat.le_refl _),
      h.drop_eq (Nat.le_refl _), hwindow]
  · exact List.length_take

/-- A part outside the damage. -/
theorem Damaged.slice_eq {as bs : Bytes} (h : Damaged i n as bs) {j m : Nat} (hj : j + m ≤ i ∨ i + n ≤ j) :
    slice as j m = slice bs j m := by
  apply List.ext_getElem?
  intro l
  rw [slice, slice, List.getElem?_take, List.getElem?_take]
  split
  · rw [List.getElem?_drop, List.getElem?_drop]
    exact h.same (j + l) (by omega)
  · rfl

theorem Damaged.slice_ne {as bs : Bytes} (h : Damaged i n as bs) : slice as i n ≠ slice bs i n := by
  intro heq
  apply h.differ
  have hcut : ∀ cs : Bytes, cs = cs.take i ++ slice cs i n ++ cs.drop (i + n) := by
    intro cs
    rw [slice, List.append_assoc, ← List.drop_drop, List.take_append_drop, List.take_append_drop]
  rw [hcut as, hcut bs, heq, h.take_eq (Nat.le_refl i), h.drop_eq (Nat.le_refl (i + n))]

end

/-! ## Records -/

/-- The record of the given (width, value) fields; a value outside its field fails. -/
def pack : List (Nat × Int) → Option Bytes
  | [] => some []
  | (w, .ofNat n) :: fields => if n < 256 ^ w then (pack fields).map (leBytes w n ++ ·) else none
  | (_, .negSucc _) :: _ => none

@[simp] theorem pack_nil : pack [] = some [] := rfl

/-- A field that fits is stored in front of the rest of the record. -/
theorem pack_cons {w v : Nat} (h : v < 256 ^ w) (fields : List (Nat × Int)) :
    pack ((w, (v : Int)) :: fields) = (pack fields).map (leBytes w v ++ ·) :=
  if_pos h

theorem pack_length {fields : List (Nat × Int)} {bs : Bytes} (h : pack fields = some bs) :
    bs.length = (fields.map Prod.fst).sum := by
  induction fields generalizing bs with
  | nil =>
    cases h
    rfl
  | cons f fields ih =>
    obtain ⟨w, n | n⟩ := f
    · rw [pack] at h
      split at h
      · obtain ⟨rest, hr, rfl⟩ := Option.map_eq_some_iff.mp h
        simp [ih hr]
      · cases h
    · cases h

/-- The first field of a record is read back. -/
@[simp] theorem slice_leBytes_append (n v : Nat) (rest : Bytes) : slice (leBytes n v ++ rest) 0 n = leBytes n v := by
  rw [slice, List.drop_zero]
  exact List.take_left' (leBytes_length n v)

/-- A later field of a record is read from what follows the first. -/
theorem slice_leBytes_skip {n i : Nat} (h : n ≤ i) (v m : Nat) (rest : Bytes) :
    slice (leBytes n v ++ rest) i m = slice rest (i - n) m :=
  slice_append_right rest (by rw [leBytes_length]; omega)

/-- A record is packed exactly when every value fits its field. -/
theorem pack_isSome_iff {fields : List (Nat × Int)} :
    (∃ bs, pack fields = some bs) ↔ ∀ f ∈ fields, 0 ≤ f.2 ∧ f.2 < 256 ^ f.1 := by
  induction fields with
  | nil => simp
  | cons f fields ih =>
    obtain ⟨w, n | n⟩ := f
    · have hfits : (0 ≤ Int.ofNat n ∧ Int.ofNat n < 256 ^ w) ↔ n < 256 ^ w := by
        rw [Int.ofNat_eq_natCast]
        constructor
        · intro h
          exact_mod_cast h.2
        · intro h
          exact ⟨by omega, by exact_mod_cast h⟩
      rw [List.forall_mem_cons, hfits, ← ih, pack]
      split <;> simp_all
    · simp [pack]

/-- Every field of a packed record is read back, whatever follows the record. -/
theorem pack_field {before after : List (Nat × Int)} {w : Nat} {v : Int} {bs : Bytes}
    (h : pack (before ++ (w, v) :: after) = some bs) (rest : Bytes) :
    (leNat (slice (bs ++ rest) (before.map Prod.fst).sum w) : Int) = v := by
  induction before generalizing bs with
  | nil =>
    obtain n | n := v
    · simp only [List.nil_append, pack] at h
      split at h
      · rename_i hn
        obtain ⟨tail, -, rfl⟩ := Option.map_eq_some_iff.mp h
        simp only [List.map_nil, List.sum_nil, List.append_assoc]
        rw [slice_leBytes_append, leNat_leBytes hn]
        rfl
      · cases h
    · cases h
  | cons f before ih =>
    obtain ⟨w', n | n⟩ := f
    · simp only [List.cons_append, pack] at h
      split at h
      · obtain ⟨tail, htail, rfl⟩ := Option.map_eq_some_iff.mp h
        simp only [List.map_cons, List.sum_cons, List.append_assoc]
        rw [slice_leBytes_skip (Nat.le_add_right _ _), Nat.add_sub_cancel_left]
        exact ih htail
      · cases h
    · cases h

/-! ## Text -/

theorem toListLoop_eq (bs : ByteArray) (i : Nat) (r : Bytes) :
    ByteArray.toList.loop bs i r = r.reverse ++ bs.data.toList.drop i := by
  fun_induction ByteArray.toList.loop bs i r with
  | case1 i r hlt ih =>
    have hi : i < bs.data.toList.length := hlt
    have hget : bs.get! i = bs.data.toList.get ⟨i, hi⟩ := getElem!_pos bs.data i hlt
    rw [ih, hget, List.drop_eq_getElem_cons hi, List.reverse_cons, List.append_assoc]
    rfl
  | case2 i r hge =>
    have hlen : bs.data.toList.length ≤ i := Nat.le_of_not_lt hge
    rw [List.drop_of_length_le hlen, List.append_nil]

theorem byteArray_toList (bs : ByteArray) : bs.toList = bs.data.toList := by
  rw [ByteArray.toList, toListLoop_eq]
  rfl

/-- ASCII characters are encoded as themselves. -/
theorem utf8Encode_ascii {text : List Char} (h : ∀ c ∈ text, c.toNat < 128) :
    text.utf8Encode.data.toList = text.map fun c => UInt8.ofNat c.toNat := by
  induction text with
  | nil => rfl
  | cons c text ih =>
    have hc : c.toNat < 128 := h c List.mem_cons_self
    have hsize : c.utf8Size = 1 := by
      rw [Char.utf8Size_eq_one_iff, UInt32.le_iff_toNat_le]
      exact Nat.le_of_lt_succ hc
    rw [List.utf8Encode_cons, ByteArray.toList_data_append, ih fun c hc => h c (List.mem_cons_of_mem _ hc),
      List.utf8Encode_singleton, List.toList_data_toByteArray, String.utf8EncodeChar_eq_singleton hsize]
    rfl
end DosMcp.Lib
