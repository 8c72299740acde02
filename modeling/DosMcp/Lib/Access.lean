/-
  DosMcp.Lib.Access — programs that read an input buffer and write an output buffer, and when
  it makes no difference that the two lie over each other in memory.

  `run` places the buffers in a memory. `Fits` is the condition on the program, computed
  backwards from what should hold at its end: no byte of the input is read once the output
  has taken its place, and only bytes that were written are read back.

  (1) `Fits.run`: in every `Aligned` placement (an address of both buffers is at one offset
      of them) the program ends as `Fits` says. Buffers apart are aligned, and so are two
      buffers at one address.
  (2) `Fits.same`: in any two such placements it ends with one value and the same events.
-/

import DosMcp.Lib.Memory

namespace DosMcp.Lib

inductive Access (ε α : Type) where
  | done (value : α)
  /-- A byte of the input buffer. -/
  | input (offset : Nat) (rest : UInt8 → Access ε α)
  | output (offset : Nat) (value : UInt8) (rest : Access ε α)
  /-- A byte of the output buffer, read back. -/
  | echo (offset : Nat) (rest : UInt8 → Access ε α)
  | note (event : ε) (rest : Access ε α)

/-- The addresses of the two buffers. -/
structure Placement where
  input : Nat
  output : Nat
  deriving DecidableEq, Repr

namespace Placement

variable {p : Placement} {n k : Nat}

/-- An address of both buffers, of `n` and of `k` bytes, is at one offset of them. -/
def Aligned (p : Placement) (n k : Nat) : Prop := ∀ i < n, ∀ j < k, p.input + i = p.output + j → i = j

def Shared (p : Placement) : Prop := p.input = p.output

def Apart (p : Placement) (n k : Nat) : Prop := p.input + n ≤ p.output ∨ p.output + k ≤ p.input

theorem Shared.aligned (h : p.Shared) : p.Aligned n k := by
  intro i _ j _ he
  have hbase : p.input = p.output := h
  omega

theorem Apart.aligned (h : p.Apart n k) : p.Aligned n k := by
  intro i hi j hj he
  rcases h with h | h <;> omega

theorem Aligned.mono {n' : Nat} (h : p.Aligned n k) (hn : n' ≤ n) : p.Aligned n' k :=
  fun i hi j hj => h i (Nat.lt_of_lt_of_le hi hn) j hj

end Placement

/-! ## What was written -/

/-- The bytes of the output buffer that were written. -/
def Written := Nat → Option UInt8

namespace Written

variable {o : Written} {i j : Nat} {bs cs : Bytes}

def empty : Written := fun _ => none

def put (o : Written) (i : Nat) (bs : Bytes) : Written := fun j =>
  if i ≤ j ∧ j < i + bs.length then some (byteAt bs (j - i)) else o j

def Holds (o : Written) (i : Nat) (bs : Bytes) : Prop := ∀ j < bs.length, o (i + j) = some (byteAt bs j)

@[simp] theorem empty_apply (i : Nat) : empty i = none := rfl

theorem put_outside (h : j < i ∨ i + bs.length ≤ j) : o.put i bs j = o j := if_neg (by omega)

theorem put_inside (h : j < bs.length) : o.put i bs (i + j) = some (byteAt bs j) := by
  rw [put, if_pos ⟨Nat.le_add_right i j, Nat.add_lt_add_left h i⟩, Nat.add_sub_cancel_left]

@[simp] theorem put_first (o : Written) (i : Nat) (b : UInt8) (bs : Bytes) : o.put i (b :: bs) i = some b :=
  if_pos ⟨Nat.le_refl i, by simp⟩ |>.trans (by simp [byteAt])

theorem put_nil (o : Written) (i : Nat) : o.put i [] = o := by
  funext j
  exact put_outside (by simp; omega)

theorem put_cons (o : Written) (i : Nat) (b : UInt8) (bs : Bytes) : (o.put i [b]).put (i + 1) bs = o.put i (b :: bs) := by
  funext j
  by_cases hj : j = i
  · subst hj
    rw [put_outside (Or.inl (Nat.lt_succ_self j)), put_first, put_first]
  · by_cases hin : i + 1 ≤ j ∧ j < i + 1 + bs.length
    · obtain ⟨t, rfl⟩ := Nat.exists_eq_add_of_le hin.1
      have ht : t < bs.length := by omega
      have hshift : i + 1 + t = i + (t + 1) := by omega
      rw [put_inside ht, hshift, put_inside (by simpa using ht)]
      rfl
    · rw [put_outside (by omega), put_outside (by simp; omega), put_outside (by simp; omega)]

/-- A part written after another. -/
theorem put_put (o : Written) {i j : Nat} {bs : Bytes} (cs : Bytes) (hj : i + bs.length = j) :
    (o.put i bs).put j cs = o.put i (bs ++ cs) := by
  induction bs generalizing o i with
  | nil =>
    obtain rfl : i = j := hj
    rw [put_nil, List.nil_append]
  | cons b bs ih =>
    have hrest : i + 1 + bs.length = j := by
      rw [← hj, List.length_cons]
      omega
    rw [← put_cons o i b bs, ih (o.put i [b]) hrest, put_cons, List.cons_append]

theorem holds_put (o : Written) (i : Nat) (bs : Bytes) : (o.put i bs).Holds i bs := fun _ hj => put_inside hj

theorem holds_nil (o : Written) (i : Nat) : o.Holds i [] := fun _ hj => absurd hj (Nat.not_lt_zero _)

/-- What is written elsewhere stays. -/
theorem Holds.put (h : o.Holds i bs) (hj : i + bs.length ≤ j ∨ j + cs.length ≤ i) : (o.put j cs).Holds i bs := by
  intro t ht
  rw [put_outside (by omega)]
  exact h t ht

theorem Holds.append (hb : o.Holds i bs) (hc : o.Holds (i + bs.length) cs) : o.Holds i (bs ++ cs) := by
  intro t ht
  rw [List.length_append] at ht
  by_cases hlt : t < bs.length
  · rw [hb t hlt]
    simp [byteAt, List.getD_eq_getElem?_getD, List.getElem?_append_left hlt]
  · obtain ⟨d, rfl⟩ := Nat.exists_eq_add_of_le (Nat.le_of_not_lt hlt)
    rw [← Nat.add_assoc, hc d (by omega), byteAt, byteAt, List.getD_eq_getElem?_getD, List.getD_eq_getElem?_getD,
      List.getElem?_append_right (Nat.le_add_right _ d), Nat.add_sub_cancel_left]

end Written

/-! ## The programs -/

namespace Access

variable {ε α β : Type}

def bind : Access ε α → (α → Access ε β) → Access ε β
  | done value, next => next value
  | input offset rest, next => input offset fun b => (rest b).bind next
  | output offset value rest, next => output offset value (rest.bind next)
  | echo offset rest, next => echo offset fun b => (rest b).bind next
  | note event rest, next => note event (rest.bind next)

instance : Monad (Access ε) where
  pure := done
  bind := bind

def byte (i : Nat) : Access ε UInt8 := input i done

def log (event : ε) : Access ε Unit := note event (done ())

/-- `n` bytes of the input from offset `i` on. -/
def load (i : Nat) : Nat → Access ε Bytes
  | 0 => pure []
  | n + 1 => do
    let b ← byte i
    let bs ← load (i + 1) n
    pure (b :: bs)

def put (i : Nat) : Bytes → Access ε Unit
  | [] => pure ()
  | b :: bs => output i b (put (i + 1) bs)

/-- `n` bytes of the output from offset `i` on. -/
def loadBack (i : Nat) : Nat → Access ε Bytes
  | 0 => pure []
  | n + 1 => echo i fun b => do
    let bs ← loadBack (i + 1) n
    pure (b :: bs)

/-- `n` bytes of the input from offset `i` on, each written at its own offset. -/
def copy (i : Nat) : Nat → Access ε Unit
  | 0 => pure ()
  | n + 1 => do
    let b ← byte i
    output i b (copy (i + 1) n)

/-- The value, the events and the memory a program ends with. -/
def run (p : Placement) : Access ε α → Memory → α × List ε × Memory
  | done value, m => (value, [], m)
  | input i rest, m => (rest (m (p.input + i))).run p m
  | output i value rest, m => rest.run p (m.store (p.output + i) [value])
  | echo i rest, m => (rest (m (p.output + i))).run p m
  | note event rest, m =>
    let r := rest.run p m
    (r.1, event :: r.2.1, r.2.2)

/-- On the input `x`, with `k` bytes of output of which `o` are written, the program reads
    what is there and ends in `Q`. -/
def Fits (x : Bytes) (k : Nat) : Access ε α → Written → (α → Written → Prop) → Prop
  | done value, o, Q => Q value o
  | input i rest, o, Q => i < x.length ∧ o i = none ∧ (rest (byteAt x i)).Fits x k o Q
  | output i value rest, o, Q => i < k ∧ rest.Fits x k (o.put i [value]) Q
  | echo i rest, o, Q => ∃ b, o i = some b ∧ (rest b).Fits x k o Q
  | note _ rest, o, Q => rest.Fits x k o Q

/-! ## The rules -/

variable {x : Bytes} {k : Nat} {o : Written} {Q : α → Written → Prop}

@[simp] theorem fits_pure (value : α) : (pure value : Access ε α).Fits x k o Q ↔ Q value o := Iff.rfl

@[simp] theorem fits_bind (a : Access ε α) (next : α → Access ε β) (R : β → Written → Prop) :
    (a >>= next).Fits x k o R ↔ a.Fits x k o fun value o => (next value).Fits x k o R := by
  show (a.bind next).Fits x k o R ↔ _
  induction a generalizing o with
  | done value => rfl
  | input i rest ih => exact and_congr_right fun _ => and_congr_right fun _ => ih _
  | output i value rest ih => exact and_congr_right fun _ => ih
  | echo i rest ih => exact exists_congr fun b => and_congr_right fun _ => ih b
  | note event rest ih => exact ih

theorem Fits.mono {a : Access ε α} {R : α → Written → Prop} (h : a.Fits x k o Q) (hQR : ∀ value o, Q value o → R value o) :
    a.Fits x k o R := by
  induction a generalizing o with
  | done value => exact hQR value o h
  | input i rest ih => exact ⟨h.1, h.2.1, ih _ h.2.2⟩
  | output i value rest ih => exact ⟨h.1, ih h.2⟩
  | echo i rest ih =>
    obtain ⟨b, hb, h⟩ := h
    exact ⟨b, hb, ih b h⟩
  | note event rest ih => exact ih h

@[simp] theorem fits_log (event : ε) (Q : Unit → Written → Prop) : (log event).Fits x k o Q ↔ Q () o := Iff.rfl

theorem fits_byte {i : Nat} (hi : i < x.length) (ho : o i = none) {Q : UInt8 → Written → Prop} :
    (byte i : Access ε UInt8).Fits x k o Q ↔ Q (byteAt x i) o :=
  ⟨fun h => h.2.2, fun h => ⟨hi, ho, h⟩⟩

theorem fits_load {i n : Nat} (hn : i + n ≤ x.length) (ho : ∀ j, i ≤ j → o j = none) {Q : Bytes → Written → Prop} :
    (load i n : Access ε Bytes).Fits x k o Q ↔ Q (slice x i n) o := by
  induction n generalizing i Q with
  | zero => simp [load, slice]
  | succ n ih =>
    have hrest := fun j (hj : i + 1 ≤ j) => ho j (by omega)
    rw [load, fits_bind, fits_byte (by omega) (ho i (Nat.le_refl i)), fits_bind, ih (by omega) hrest, fits_pure,
      slice_eq_cons (by omega)]

theorem fits_put {i : Nat} {bs : Bytes} (hk : i + bs.length ≤ k) {Q : Unit → Written → Prop} :
    (put i bs : Access ε Unit).Fits x k o Q ↔ Q () (o.put i bs) := by
  induction bs generalizing i o with
  | nil => rw [put, fits_pure, Written.put_nil]
  | cons b bs ih =>
    rw [List.length_cons] at hk
    have hrest := @ih (o.put i [b]) (i + 1) (by omega)
    rw [Written.put_cons] at hrest
    exact ⟨fun h => hrest.mp h.2, fun h => ⟨by omega, hrest.mpr h⟩⟩

theorem fits_loadBack {i : Nat} {bs : Bytes} (ho : o.Holds i bs) {Q : Bytes → Written → Prop} :
    (loadBack i bs.length : Access ε Bytes).Fits x k o Q ↔ Q bs o := by
  induction bs generalizing i Q with
  | nil => rfl
  | cons b bs ih =>
    have hb : o i = some b := ho 0 (Nat.succ_pos _)
    have hbs : o.Holds (i + 1) bs := by
      intro j hj
      have hnext := ho (j + 1) (Nat.succ_lt_succ hj)
      have hshift : i + (j + 1) = i + 1 + j := by omega
      rwa [hshift] at hnext
    show (∃ c, o i = some c ∧ _) ↔ _
    constructor
    · rintro ⟨c, hc, h⟩
      obtain rfl : b = c := Option.some.inj (hb.symm.trans hc)
      exact (ih hbs).mp ((fits_bind _ _ _).mp h)
    · intro h
      exact ⟨b, hb, (fits_bind _ _ _).mpr ((ih hbs).mpr h)⟩

/-- A byte is read before its place is written. -/
theorem fits_copy {i n : Nat} (hn : i + n ≤ x.length) (hk : i + n ≤ k) (ho : ∀ j, i ≤ j → o j = none)
    {Q : Unit → Written → Prop} : (copy i n : Access ε Unit).Fits x k o Q ↔ Q () (o.put i (slice x i n)) := by
  induction n generalizing i o with
  | zero => simp [copy, slice, Written.put_nil]
  | succ n ih =>
    have hrest : ∀ j, i + 1 ≤ j → o.put i [byteAt x i] j = none := by
      intro j hj
      rw [Written.put_outside (by simp; omega)]
      exact ho j (by omega)
    have hnext := @ih (o.put i [byteAt x i]) (i + 1) (by omega) (by omega) hrest
    rw [Written.put_cons, ← slice_eq_cons (by omega)] at hnext
    rw [copy, fits_bind, fits_byte (by omega) (ho i (Nat.le_refl i))]
    exact ⟨fun h => hnext.mp h.2, fun h => ⟨by omega, hnext.mpr h⟩⟩

/-! ## In memory -/

/-- The memory holds the input where nothing was written over it, and what was written. -/
structure Stands (p : Placement) (x : Bytes) (k : Nat) (o : Written) (m : Memory) : Prop where
  input : ∀ i < x.length, o i = none → m (p.input + i) = byteAt x i
  output : ∀ i b, o i = some b → i < k ∧ m (p.output + i) = b

variable {p q : Placement} {m m' : Memory} {a : Access ε α}

theorem Stands.start (h : m.load p.input x.length = x) : Stands p x k .empty m where
  input i hi _ := by
    have hbyte := congrArg (byteAt · i) h
    simpa [byteAt, Memory.load, hi] using hbyte
  output _ _ ho := nomatch ho

/-- A byte of the output goes over no byte of the input but the one at its own offset. -/
theorem Stands.write (hp : p.Aligned x.length k) (h : Stands p x k o m) {i : Nat} (hi : i < k) (b : UInt8) :
    Stands p x k (o.put i [b]) (m.store (p.output + i) [b]) where
  input j hj ho := by
    have hne : j ≠ i := by
      rintro rfl
      rw [Written.put_first] at ho
      cases ho
    have hapart : p.input + j ≠ p.output + i := fun he => hne (hp j hj i hi he)
    rw [Written.put_outside (by simp; omega)] at ho
    rw [Memory.store, if_neg (by simp; omega)]
    exact h.input j hj ho
  output j c ho := by
    by_cases hji : j = i
    · subst hji
      rw [Written.put_first] at ho
      obtain rfl : b = c := Option.some.inj ho
      refine ⟨hi, ?_⟩
      rw [Memory.store, if_pos (by simp), Nat.sub_self]
      rfl
    · rw [Written.put_outside (by simp; omega)] at ho
      rw [Memory.store, if_neg (by simp; omega)]
      exact h.output j c ho

theorem Stands.load (h : Stands p x k o m) {i : Nat} {bs : Bytes} (ho : o.Holds i bs) :
    m.load (p.output + i) bs.length = bs := by
  apply List.ext_getElem (by simp)
  intro j hj hbs
  have hbyte := (h.output (i + j) _ (ho j hbs)).2
  rw [← Nat.add_assoc] at hbyte
  simp [Memory.load, hbyte, byteAt, hbs]

/-- (1) The run ends as the condition says, by induction on the program. -/
theorem Fits.run (hp : p.Aligned x.length k) (h : a.Fits x k o Q) (hm : Stands p x k o m) :
    ∃ o', Q (a.run p m).1 o' ∧ Stands p x k o' (a.run p m).2.2 := by
  induction a generalizing o m with
  | done value => exact ⟨o, h, hm⟩
  | input i rest ih =>
    obtain ⟨hi, ho, h⟩ := h
    rw [Access.run, hm.input i hi ho]
    exact ih _ h hm
  | output i value rest ih => exact ih h.2 (hm.write hp h.1 value)
  | echo i rest ih =>
    obtain ⟨b, hb, h⟩ := h
    rw [Access.run, (hm.output i b hb).2]
    exact ih b h hm
  | note event rest ih => exact ih h hm

/-- (2) Two runs read the same bytes, by induction on the program. -/
theorem Fits.same (hp : p.Aligned x.length k) (hq : q.Aligned x.length k) (h : a.Fits x k o Q) (hm : Stands p x k o m)
    (hm' : Stands q x k o m') : (a.run p m).1 = (a.run q m').1 ∧ (a.run p m).2.1 = (a.run q m').2.1 := by
  induction a generalizing o m m' with
  | done value => exact ⟨rfl, rfl⟩
  | input i rest ih =>
    obtain ⟨hi, ho, h⟩ := h
    rw [Access.run, Access.run, hm.input i hi ho, hm'.input i hi ho]
    exact ih _ h hm hm'
  | output i value rest ih => exact ih h.2 (hm.write hp h.1 value) (hm'.write hq h.1 value)
  | echo i rest ih =>
    obtain ⟨b, hb, h⟩ := h
    rw [Access.run, Access.run, (hm.output i b hb).2, (hm'.output i b hb).2]
    exact ih b h hm hm'
  | note event rest ih =>
    obtain ⟨hvalue, hevents⟩ := ih h hm hm'
    exact ⟨hvalue, congrArg (event :: ·) hevents⟩

end Access

end DosMcp.Lib
