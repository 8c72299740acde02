/-
  DosMcp.Lib.Codec — codecs that are canonical: a decoder that accepts only what the encoder
  writes, and that fails with one kind of error.

  `Canonical` is shown from two facts about the decoder (`canonical_of`): what it accepts is
  encoded to the same bytes, and every error it returns is a refusal. The first rests on
  `pack_fieldsAt` for a record of fixed fields, the second on `Fails` being closed under
  binds.
-/

import DosMcp.Lib.Bytes

namespace DosMcp.Lib

variable {α β ε : Type}

/-- Every byte string is the encoding of the value it decodes to, or it is refused. -/
def Canonical (refusal : ε → Prop) (encode : α → Except ε Bytes) (decode : Bytes → Except ε α) : Prop :=
  ∀ bs, (∃ v, decode bs = .ok v ∧ encode v = .ok bs ∧ (encode v >>= decode) = .ok v) ∨ ∃ e, decode bs = .error e ∧ refusal e

/-! ## Errors -/

/-- The computation fails with a refusal only. -/
def Fails (refusal : ε → Prop) (x : Except ε α) : Prop := ∀ e, x = .error e → refusal e

variable {refusal : ε → Prop}

theorem Fails.ok (a : α) : Fails refusal (.ok a : Except ε α) := fun _ h => by cases h

theorem Fails.pure (a : α) : Fails refusal (pure a : Except ε α) := Fails.ok a

theorem Fails.error {e : ε} (h : refusal e) : Fails refusal (.error e : Except ε α) := fun _ he => by
  cases he
  exact h

theorem Fails.bind {x : Except ε α} {f : α → Except ε β} (hx : Fails refusal x) (hf : ∀ a, x = .ok a → Fails refusal (f a)) :
    Fails refusal (x >>= f) := by
  cases x with
  | error e => exact fun e' he => hx e' (by cases he; rfl)
  | ok a => exact hf a rfl

theorem canonical_of {encode : α → Except ε Bytes} {decode : Bytes → Except ε α}
    (sound : ∀ bs v, decode bs = .ok v → encode v = .ok bs) (fails : ∀ bs, Fails refusal (decode bs)) :
    Canonical refusal encode decode := by
  intro bs
  cases h : decode bs with
  | error e => exact Or.inr ⟨e, rfl, fails bs e h⟩
  | ok v =>
    have hv := sound bs v h
    exact Or.inl ⟨v, rfl, hv, by rw [hv]; exact h⟩

/-- A value has one encoding only. -/
theorem Canonical.injective {encode : α → Except ε Bytes} {decode : Bytes → Except ε α}
    (h : Canonical refusal encode decode) {as bs : Bytes} {v : α} (ha : decode as = .ok v) (hb : decode bs = .ok v) :
    as = bs := by
  have henc : ∀ cs, decode cs = .ok v → encode v = .ok cs := by
    intro cs hcs
    rcases h cs with ⟨w, hw, henc, -⟩ | ⟨e, he, -⟩
    · rw [hcs] at hw
      cases hw
      exact henc
    · rw [hcs] at he
      cases he
  exact Except.ok.inj ((henc as ha).symm.trans (henc bs hb))

/-! ## Fixed fields -/

/-- The fields of the given widths, read from `offset` on. -/
def fieldsAt (bs : Bytes) : List Nat → Nat → List (Nat × Int)
  | [], _ => []
  | w :: widths, offset => (w, (leNat (slice bs offset w) : Int)) :: fieldsAt bs widths (offset + w)

/-- Packing the fields of a record gives its bytes back. -/
theorem pack_fieldsAt {bs : Bytes} {widths : List Nat} {offset : Nat} (h : offset + widths.sum ≤ bs.length) :
    pack (fieldsAt bs widths offset) = some (slice bs offset widths.sum) := by
  induction widths generalizing offset with
  | nil => rfl
  | cons w widths ih =>
    rw [List.sum_cons] at h
    have hrest := ih (show offset + w + widths.sum ≤ bs.length by omega)
    rw [fieldsAt, pack_cons (leNat_slice_lt bs offset w), hrest, Option.map_some, leBytes_leNat_slice (by omega),
      slice_append_slice bs rfl rfl, List.sum_cons]

/-- The fields past the first part of a string are read from the rest. -/
theorem fieldsAt_append_right {as : Bytes} (bs : Bytes) (widths : List Nat) (k : Nat) :
    fieldsAt (as ++ bs) widths (as.length + k) = fieldsAt bs widths k := by
  induction widths generalizing k with
  | nil => rfl
  | cons w widths ih => rw [fieldsAt, fieldsAt, slice_append_right bs rfl, Nat.add_assoc, ih]

/-- The fields that were packed, after any others, are read back. -/
theorem fieldsAt_of_pack {before fields : List (Nat × Int)} {bs : Bytes} (h : pack (before ++ fields) = some bs) (rest : Bytes) :
    fieldsAt (bs ++ rest) (fields.map Prod.fst) (before.map Prod.fst).sum = fields := by
  induction fields generalizing before with
  | nil => rfl
  | cons f fields ih =>
    obtain ⟨w, v⟩ := f
    have hrest := @ih (before ++ [(w, v)]) (by rwa [List.append_assoc])
    rw [List.map_append, List.sum_append] at hrest
    simp only [List.map_cons, List.map_nil, List.sum_cons, List.sum_nil, Nat.add_zero] at hrest
    rw [List.map_cons, fieldsAt, pack_field h rest, hrest]

theorem slice_append_drop {bs : Bytes} {n : Nat} : slice bs 0 n ++ bs.drop n = bs := List.take_append_drop n bs

theorem slice_of_length {bs : Bytes} {n : Nat} (h : bs.length = n) : slice bs 0 n = bs := by
  rw [slice_zero_eq_take, ← h, List.take_length]

end DosMcp.Lib
