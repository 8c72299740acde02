/-
  DosMcp.System.Keyboard — keys for the foreground, through the keyboard ring of the BIOS.

  `ratsr_bios_queue_word_` appends one word with interrupts disabled. Between two of its calls
  the keyboard interrupt and other programs append words of their own; none of them reads while
  RA-TSR runs.

  - `ratsrBiosQueueWord_eq`: the assembly routine does what `bios_queue_word` does.
  - `queueWord_ring`: on a valid ring it is `Ring.push`; an invalid one is not written.
  - `injectKeys_receipt`: with nobody else at the keyboard, the loops are those of `inject_keys`.
  - `queueAmong_appended`: what a loop appends among the others.
  - `key_receipts_exact`: a receipt says what was appended, in order.
-/

import DosMcp.Lib.Ring
import DosMcp.System.Layouts

namespace DosMcp.Dos

open Lib

/-! ## The assembly routine -/

/-- `ratsr_bios_queue_word_`: AX and the machine. -/
def ratsrBiosQueueWord (m : Machine) (word : UInt16) : UInt16 × Machine :=
  let cx := word
  let bx := m.peek16 0x40 0x1C
  if bx < 0x1E then (0, m)
  else if bx ≥ 0x3E then (0, m)
  else if bx.toUInt8 &&& 1 ≠ 0 then (0, m)
  else
    let dx := m.peek16 0x40 0x1A
    if dx < 0x1E then (0, m)
    else if dx ≥ 0x3E then (0, m)
    else if dx.toUInt8 &&& 1 ≠ 0 then (0, m)
    else
      let ax := bx + 2
      let ax := if ax < 0x3E then ax else 0x1E
      if ax = dx then (0, m) else (1, (m.poke16 0x40 bx cx).poke16 0x40 0x1C ax)

theorem odd_iff (x : UInt16) : x.toUInt8 &&& 1 ≠ 0 ↔ x &&& 1 ≠ 0 := by
  rw [not_iff_not, ← UInt8.toNat_inj, ← UInt16.toNat_inj, UInt8.toNat_and, UInt16.toNat_and, UInt16.toNat_toUInt8]
  show x.toNat % 2 ^ 8 &&& 1 = 0 ↔ x.toNat &&& 1 = 0
  rw [Nat.and_one_is_mod, Nat.and_one_is_mod]
  omega

theorem ratsrBiosQueueWord_eq (m : Machine) (word : UInt16) :
    ratsrBiosQueueWord m word = match m.biosQueueWord word with
      | none => (0, m)
      | some m' => (1, m') := by
  unfold ratsrBiosQueueWord Machine.biosQueueWord Machine.ringPointerBad Machine.ringNext
  simp only [odd_iff, decide_eq_true_eq]
  generalize m.peek16 0x40 0x1C = tail
  generalize m.peek16 0x40 0x1A = head
  have hnext : (if tail + 2 < 0x3E then tail + 2 else 0x1E) = (if tail + 2 ≥ 0x3E then 0x1E else tail + 2) := by
    by_cases h : tail + 2 < 0x3E
    · rw [if_pos h, if_neg (by simpa using h)]
    · rw [if_neg h, if_pos (by simpa using h)]
  rw [hnext]
  by_cases htail : tail < 0x1E ∨ tail ≥ 0x3E ∨ tail &&& 1 ≠ 0
  · rw [if_pos (Or.inl htail)]
    rcases htail with h | h | h
    · rw [if_pos h]
    · rw [if_pos h, ite_self]
    · rw [if_pos h, ite_self, ite_self]
  obtain ⟨h1, h2, h3⟩ : ¬ tail < 0x1E ∧ ¬ tail ≥ 0x3E ∧ ¬ tail &&& 1 ≠ 0 := by simpa only [not_or] using htail
  rw [if_neg h1, if_neg h2, if_neg h3]
  by_cases hhead : head < 0x1E ∨ head ≥ 0x3E ∨ head &&& 1 ≠ 0
  · rw [if_pos (Or.inr hhead)]
    rcases hhead with h | h | h
    · rw [if_pos h]
    · rw [if_pos h, ite_self]
    · rw [if_pos h, ite_self, ite_self]
  obtain ⟨h4, h5, h6⟩ : ¬ head < 0x1E ∧ ¬ head ≥ 0x3E ∧ ¬ head &&& 1 ≠ 0 := by simpa only [not_or] using hhead
  rw [if_neg h4, if_neg h5, if_neg h6, if_neg (not_or.mpr ⟨htail, hhead⟩)]
  generalize (if tail + 2 ≥ 0x3E then 0x1E else tail + 2) = next
  by_cases hfull : next = head
  · rw [if_pos hfull, if_pos hfull]
  · rw [if_neg hfull, if_neg hfull]

/-! ## Words of the BIOS data area -/

theorem dmGetU16_dmPutU16 (v : UInt16) : dmGetU16 (dmPutU16 v) 0 = v := by
  apply UInt16.toNat_inj.mp
  rw [dmGetU16_toNat (by rw [dmPutU16_length]; decide), slice_zero_eq_take, List.take_of_length_le (dmPutU16_length v).le,
    dmPutU16_eq, leNat_leBytes v.toNat_lt]

theorem peek16_eq (m : Machine) {offset : UInt16} (h : offset.toNat < 0xFFFF) :
    m.peek16 0x40 offset = dmGetU16 (m.memory.load (0x400 + offset.toNat) 2) 0 := by
  have hnext : (offset + 1).toNat = offset.toNat + 1 := by
    rw [UInt16.toNat_add]
    exact Nat.mod_eq_of_lt (by simp only [UInt16.reduceToNat]; omega)
  simp only [Machine.peek16, Machine.peek, hnext]
  rfl

theorem peek16_poke16_same (m : Machine) {offset : UInt16} (h : offset.toNat < 0xFFFF) (v : UInt16) :
    (m.poke16 0x40 offset v).peek16 0x40 offset = v := by
  rw [peek16_eq _ h]
  have hload := Memory.load_store_same m.memory (0x400 + offset.toNat) (dmPutU16 v)
  rw [dmPutU16_length] at hload
  show dmGetU16 ((m.memory.store (0x400 + offset.toNat) (dmPutU16 v)).load (0x400 + offset.toNat) 2) 0 = v
  rw [hload, dmGetU16_dmPutU16]

theorem peek16_poke16_apart (m : Machine) {offset other : UInt16} (h : other.toNat < 0xFFFF)
    (happart : other.toNat + 2 ≤ offset.toNat ∨ offset.toNat + 2 ≤ other.toNat) (v : UInt16) :
    (m.poke16 0x40 offset v).peek16 0x40 other = m.peek16 0x40 other := by
  rw [peek16_eq _ h, peek16_eq _ h]
  have hload : (m.memory.store (0x400 + offset.toNat) (dmPutU16 v)).load (0x400 + other.toNat) 2 =
      m.memory.load (0x400 + other.toNat) 2 := Memory.load_store_disjoint _ (by rw [dmPutU16_length]; omega)
  exact congrArg (dmGetU16 · 0) hload

/-! ## The ring -/

/-- The offset of a slot. -/
def slotOffset (i : Fin 16) : UInt16 := .ofNat (0x1E + 2 * i)

/-- The slot that a pointer points to. -/
def slotOf (pointer : UInt16) : Fin 16 := .ofNat 16 ((pointer.toNat - 0x1E) / 2)

/-- The keyboard ring, unless a pointer is bad. -/
def keyRing (m : Machine) : Option (Ring UInt16 16) :=
  if Machine.ringPointerBad (m.peek16 0x40 0x1C) ∨ Machine.ringPointerBad (m.peek16 0x40 0x1A) then none
  else some ⟨fun i => m.peek16 0x40 (slotOffset i), slotOf (m.peek16 0x40 0x1A), slotOf (m.peek16 0x40 0x1C)⟩

theorem slotOffset_toNat (i : Fin 16) : (slotOffset i).toNat = 0x1E + 2 * i.val :=
  UInt16.toNat_ofNat_of_lt' (show 0x1E + 2 * i.val < 65536 by omega)

theorem slotOf_slotOffset (i : Fin 16) : slotOf (slotOffset i) = i := by
  apply Fin.ext
  have hlt := i.isLt
  rw [slotOf, slotOffset_toNat, Fin.val_ofNat, Nat.add_sub_cancel_left, Nat.mul_div_cancel_left _ (by decide),
    Nat.mod_eq_of_lt hlt]

theorem slotOffset_good (i : Fin 16) : Machine.ringPointerBad (slotOffset i) = false := by
  revert i
  decide

theorem slotOffset_next (i : Fin 16) : Machine.ringNext (slotOffset i) = slotOffset (i + 1) := by
  revert i
  decide

/-- A good pointer points to its slot. -/
theorem slotOffset_slotOf {pointer : UInt16} (h : Machine.ringPointerBad pointer = false) : slotOffset (slotOf pointer) = pointer := by
  simp only [Machine.ringPointerBad, decide_eq_false_iff_not, not_or, ge_iff_le, not_not, UInt16.le_iff_toNat_le,
    UInt16.lt_iff_toNat_lt, ← UInt16.toNat_inj, UInt16.toNat_and] at h
  have heven : pointer.toNat &&& 1 = 0 := h.2.2
  have hlow : 0x1E ≤ pointer.toNat := Nat.le_of_not_lt h.1
  have hhigh : pointer.toNat < 0x3E := Nat.lt_of_not_le h.2.1
  rw [Nat.and_one_is_mod] at heven
  apply UInt16.toNat_inj.mp
  rw [slotOffset_toNat, slotOf, Fin.val_ofNat]
  omega

/-- The pointers of a valid ring, as offsets. -/
theorem keyRing_eq_some {m : Machine} {ring : Ring UInt16 16} (h : keyRing m = some ring) :
    m.peek16 0x40 0x1C = slotOffset ring.tail ∧ m.peek16 0x40 0x1A = slotOffset ring.head ∧
      ∀ i, m.peek16 0x40 (slotOffset i) = ring.slots i := by
  unfold keyRing at h
  split at h
  · cases h
  · rename_i hgood
    simp only [not_or, Bool.not_eq_true] at hgood
    cases h
    exact ⟨(slotOffset_slotOf hgood.1).symm, (slotOffset_slotOf hgood.2).symm, fun _ => rfl⟩

theorem keyRing_of_pointers {m : Machine} {ring : Ring UInt16 16} (htail : m.peek16 0x40 0x1C = slotOffset ring.tail)
    (hhead : m.peek16 0x40 0x1A = slotOffset ring.head) (hslots : ∀ i, m.peek16 0x40 (slotOffset i) = ring.slots i) :
    keyRing m = some ring := by
  unfold keyRing
  rw [htail, hhead, if_neg (by simp [slotOffset_good]), slotOf_slotOffset, slotOf_slotOffset, funext hslots]

/-- `bios_queue_word` is a push to the ring. -/
theorem queueWord_ring {m : Machine} {ring : Ring UInt16 16} (h : keyRing m = some ring) (word : UInt16) :
    (m.biosQueueWord word = none ∧ ring.full) ∨
      ∃ m' ring', m.biosQueueWord word = some m' ∧ ring.push word = some ring' ∧ keyRing m' = some ring' := by
  obtain ⟨htail, hhead, hslots⟩ := keyRing_eq_some h
  have hinj : ∀ i j, slotOffset i = slotOffset j ↔ i = j := by
    intro i j
    constructor
    · intro hsame
      rw [← slotOf_slotOffset i, hsame, slotOf_slotOffset]
    · rintro rfl
      rfl
  unfold Machine.biosQueueWord
  dsimp only
  rw [htail, hhead, if_neg (by simp [slotOffset_good]), slotOffset_next]
  by_cases hfull : ring.full
  · left
    refine ⟨if_pos ?_, hfull⟩
    exact congrArg slotOffset hfull
  · right
    have hne : ¬ slotOffset (ring.tail + 1) = slotOffset ring.head := by
      rw [hinj]
      exact hfull
    rw [if_neg hne, Ring.push, if_neg hfull]
    refine ⟨_, _, rfl, rfl, ?_⟩
    have hoffset : ∀ i : Fin 16, 0x1E ≤ (slotOffset i).toNat ∧ (slotOffset i).toNat < 0x3E := by
      intro i
      rw [slotOffset_toNat]
      omega
    have h1C : (0x1C : UInt16).toNat = 0x1C := rfl
    have h1A : (0x1A : UInt16).toNat = 0x1A := rfl
    have hslot := hoffset ring.tail
    apply keyRing_of_pointers
    · exact peek16_poke16_same _ (by decide) _
    · rw [peek16_poke16_apart _ (by decide) (by omega), peek16_poke16_apart _ (by decide) (by omega), hhead]
    · intro i
      have hi := hoffset i
      rw [peek16_poke16_apart _ (by omega) (by omega)]
      by_cases hi' : i = ring.tail
      · rw [hi', peek16_poke16_same _ (by omega)]
        show word = Function.update ring.slots ring.tail word ring.tail
        rw [Function.update_self]
      · have hne' : i.val ≠ ring.tail.val := fun hval => hi' (Fin.ext hval)
        have happart : (slotOffset i).toNat + 2 ≤ (slotOffset ring.tail).toNat ∨
            (slotOffset ring.tail).toNat + 2 ≤ (slotOffset i).toNat := by
          rw [slotOffset_toNat, slotOffset_toNat]
          omega
        rw [peek16_poke16_apart _ (by omega) happart, hslots]
        show ring.slots i = Function.update ring.slots ring.tail word i
        rw [Function.update_of_ne hi']

/-- An invalid ring is not written. -/
theorem queueWord_invalid {m : Machine} (h : keyRing m = none) (word : UInt16) : m.biosQueueWord word = none := by
  unfold keyRing at h
  split at h
  · rename_i hbad
    exact if_pos hbad
  · cases h

/-! ## The loops of `inject_keys` -/

/-- Other producers append what the ring takes. -/
def offerAll : List UInt16 → Machine → List UInt16 × Machine
  | [], m => ([], m)
  | word :: words, m => match m.biosQueueWord word with
    | none => offerAll words m
    | some m =>
      let (accepted, m) := offerAll words m
      (word :: accepted, m)

/-- What a loop has done: how many of its words the ring took, all that was appended with
    whether it was the loop's own, and the machine. -/
structure QueueRun where
  accepted : Nat
  appended : List (Bool × UInt16)
  machine : Machine

/-- All that was appended, in order. -/
def QueueRun.words (run : QueueRun) : List UInt16 := run.appended.map Prod.snd

/-- What the loop itself appended, in order. -/
def QueueRun.own (run : QueueRun) : List UInt16 := (run.appended.filter Prod.fst).map Prod.snd

/-- A loop of `inject_keys`, with what others offer before each of its words. -/
def queueAmong (stop : UInt16 → Bool) (others : Nat → List UInt16) : Nat → List UInt16 → Machine → QueueRun
  | _, [], m => ⟨0, [], m⟩
  | i, word :: words, m =>
    let (between, m) := offerAll (others i) m
    let before := between.map fun other => (false, other)
    if stop word then ⟨0, before, m⟩
    else
      let (ax, m) := ratsrBiosQueueWord m word
      if ax = 0 then ⟨0, before, m⟩
      else
        let rest := queueAmong stop others (i + 1) words m
        ⟨rest.accepted + 1, before ++ (true, word) :: rest.appended, rest.machine⟩

/-- The words of the named keys of a payload. -/
def keyWords (payload : Bytes) : List UInt16 :=
  (slice payload (5 + (dmGetU16 payload 0).toNat) (byteAt payload 2).toNat).map namedKeyWord

/-- `inject_keys` of RA-TSR, with what others offer before each word: the loop over the text
    and the loop over the named keys. -/
def injectKeysAmong (text keys : Nat → List UInt16) (m : Machine) (payload : Bytes) : Option (QueueRun × QueueRun) :=
  if payload.length < 5 then none
  else if (dmGetU16 payload 0).toNat > 4096 ∨ (byteAt payload 2).toNat > 128 ∨ dmGetU16 payload 3 > 1000 ∨
      payload.length ≠ 5 + (dmGetU16 payload 0).toNat + (byteAt payload 2).toNat then none
  else
    let first := queueAmong (fun _ => false) text 0 (textWords payload) m
    some (first, queueAmong (· = 0) keys 0 (keyWords payload) first.machine)

/-- With nobody else at the keyboard, a loop is the one of `inject_keys`. -/
theorem queueAmong_alone (c : Config) (stop : UInt16 → Bool) (i : Nat) (words : List UInt16) (s : State) :
    queueWords .ratsr c (words.takeWhile fun word => !stop word) s =
      ((queueAmong stop (fun _ => []) i words s.machine).accepted,
        { s with machine := (queueAmong stop (fun _ => []) i words s.machine).machine }) := by
  induction words generalizing i s with
  | nil => rfl
  | cons word words ih =>
    unfold queueAmong
    dsimp only [offerAll]
    rw [ratsrBiosQueueWord_eq]
    by_cases hstop : stop word = true
    · rw [if_pos hstop, List.takeWhile_cons_of_neg (by simp [hstop])]
      rfl
    · rw [if_neg hstop, List.takeWhile_cons_of_pos (by simp [hstop]), queueWords]
      cases s.machine.biosQueueWord word with
      | none => rfl
      | some machine =>
        dsimp only
        rw [if_neg (by decide), ih (i + 1) { s with machine := machine }]

/-- The receipt of `inject_keys` carries the counts of its two loops. -/
theorem injectKeys_receipt (c : Config) (s : State) (payload : Bytes) :
    injectKeys .ratsr c s payload = match injectKeysAmong (fun _ => []) (fun _ => []) s.machine payload with
      | none => (none, s)
      | some (first, second) =>
        (some (dmPutU16 (.ofNat first.accepted) ++ [.ofNat second.accepted] ++ dmPutU16 (s.keyGeneration + 1)),
          { s with machine := second.machine, keyGeneration := s.keyGeneration + 1 }) := by
  have htext := queueAmong_alone c (fun _ => false) 0 (textWords payload) s
  rw [List.takeWhile_eq_self_iff.mpr (by simp)] at htext
  have hkeys := queueAmong_alone c (· = 0) 0 (keyWords payload) (queueWords .ratsr c (textWords payload) s).2
  have hnamed : (keyWords payload).takeWhile (fun word => !decide (word = 0)) = namedWords payload := by
    simp only [namedWords, keyWords, ne_eq, decide_not]
  rw [hnamed] at hkeys
  unfold injectKeys injectKeysAmong
  split
  · rfl
  · dsimp only
    split
    · rfl
    · let r := queueWords .ratsr c (namedWords payload) (queueWords .ratsr c (textWords payload) s).2
      show (some (dmPutU16 (.ofNat (queueWords .ratsr c (textWords payload) s).1) ++ [.ofNat r.1] ++
        dmPutU16 (r.2.keyGeneration + 1)), { r.2 with keyGeneration := r.2.keyGeneration + 1 }) = _
      rw [show r = _ from hkeys, htext]

/-! ## What a loop appends -/

/-- What others append to a valid ring. -/
theorem offerAll_grown {m : Machine} {ring : Ring UInt16 16} (h : keyRing m = some ring) (words : List UInt16) :
    ∃ ring', keyRing (offerAll words m).2 = some ring' ∧ ring.Grown ring' (offerAll words m).1 := by
  induction words generalizing m ring with
  | nil => exact ⟨ring, h, .refl ring⟩
  | cons word words ih =>
    unfold offerAll
    rcases queueWord_ring h word with ⟨hnone, -⟩ | ⟨m', ring', hsome, hpush, hring⟩
    · rw [hnone]
      exact ih h
    · rw [hsome]
      obtain ⟨ring'', hring'', hgrown⟩ := ih hring
      exact ⟨ring'', hring'', (Ring.Grown.of_push hpush).trans hgrown⟩

theorem offerAll_invalid {m : Machine} (h : keyRing m = none) (words : List UInt16) : offerAll words m = ([], m) := by
  induction words with
  | nil => rfl
  | cons word words ih =>
    unfold offerAll
    rw [queueWord_invalid h]
    exact ih

/-- What a loop over `words` does to a valid ring: the ring grows by all that was appended, the
    loop's own are the first of its words, and it ends before the last only at a word that stops
    it or when the ring is full. -/
structure Appended (stop : UInt16 → Bool) (words : List UInt16) (run : QueueRun) (ring ring' : Ring UInt16 16) : Prop where
  ring_eq : keyRing run.machine = some ring'
  grown : ring.Grown ring' run.words
  own_eq : run.own = words.take run.accepted
  accepted_le : run.accepted ≤ words.length
  ended : run.accepted < words.length → words.any stop = true ∨ ring'.full

theorem own_others (words : List UInt16) : ((words.map fun other => (false, other)).filter Prod.fst).map Prod.snd = [] := by
  rw [List.filter_eq_nil_iff.mpr (by simp), List.map_nil]

theorem snd_others (words : List UInt16) : (words.map fun other => (false, other)).map Prod.snd = words := by
  rw [List.map_map]
  exact List.map_id words

theorem queueAmong_appended (stop : UInt16 → Bool) (others : Nat → List UInt16) (i : Nat) (words : List UInt16)
    {m : Machine} {ring : Ring UInt16 16} (h : keyRing m = some ring) :
    ∃ ring', Appended stop words (queueAmong stop others i words m) ring ring' := by
  induction words generalizing i m ring with
  | nil => exact ⟨ring, h, .refl ring, rfl, Nat.le_refl _, fun hlt => absurd hlt (Nat.lt_irrefl _)⟩
  | cons word words ih =>
    obtain ⟨between, hbetween, hgrown⟩ := offerAll_grown h (others i)
    unfold queueAmong
    dsimp only
    generalize offerAll (others i) m = offered at hbetween hgrown ⊢
    -- the loop ends before its word: only others have appended
    have hends : ∀ hend : (word :: words).any stop = true ∨ between.full,
        Appended stop (word :: words) ⟨0, offered.1.map fun other => (false, other), offered.2⟩ ring between := by
      intro hend
      refine ⟨hbetween, ?_, own_others _, Nat.zero_le _, fun _ => hend⟩
      show ring.Grown between ((offered.1.map fun other => (false, other)).map Prod.snd)
      rw [snd_others]
      exact hgrown
    by_cases hstop : stop word = true
    · rw [if_pos hstop]
      refine ⟨between, hends (Or.inl ?_)⟩
      rw [List.any_cons, hstop, Bool.true_or]
    rw [if_neg hstop, ratsrBiosQueueWord_eq]
    rcases queueWord_ring hbetween word with ⟨hnone, hfull⟩ | ⟨m', pushed, hsome, hpush, hpushed⟩
    · rw [hnone]
      exact ⟨between, hends (Or.inr hfull)⟩
    · rw [hsome]
      dsimp only
      rw [if_neg (by decide)]
      obtain ⟨ring', hrest⟩ := ih (i + 1) hpushed
      generalize queueAmong stop others (i + 1) words m' = rest at hrest ⊢
      refine ⟨ring', hrest.ring_eq, ?_, ?_, Nat.succ_le_succ hrest.accepted_le, ?_⟩
      · have hall := (hgrown.trans (.of_push hpush)).trans hrest.grown
        show ring.Grown ring' (((offered.1.map fun other => (false, other)) ++ (true, word) :: rest.appended).map Prod.snd)
        rw [List.map_append, snd_others, List.map_cons, List.append_cons]
        exact hall
      · show (((offered.1.map fun other => (false, other)) ++ (true, word) :: rest.appended).filter Prod.fst).map Prod.snd =
          (word :: words).take (rest.accepted + 1)
        rw [List.filter_append, List.map_append, own_others, List.filter_cons_of_pos rfl, List.map_cons, List.nil_append,
          List.take_succ_cons, ← hrest.own_eq]
        rfl
      · intro hlt
        rcases hrest.ended (Nat.lt_of_succ_lt_succ hlt) with hany | hfull
        · left
          rw [List.any_cons, hany, Bool.or_true]
        · exact Or.inr hfull

/-- Into an invalid ring nobody appends. -/
theorem queueAmong_invalid (stop : UInt16 → Bool) (others : Nat → List UInt16) (i : Nat) (words : List UInt16) {m : Machine}
    (h : keyRing m = none) : queueAmong stop others i words m = ⟨0, [], m⟩ := by
  cases words with
  | nil => rfl
  | cons word words =>
    unfold queueAmong
    rw [offerAll_invalid h]
    dsimp only
    rw [ratsrBiosQueueWord_eq, queueWord_invalid h]
    split
    · rfl
    · rfl

/-- The text is queued a word a byte. -/
theorem textWords_length {text keys : Nat → List UInt16} {m : Machine} {payload : Bytes} {receipt : QueueRun × QueueRun}
    (h : injectKeysAmong text keys m payload = some receipt) : (textWords payload).length = (dmGetU16 payload 0).toNat := by
  unfold injectKeysAmong at h
  split at h
  · cases h
  split at h
  · cases h
  rename_i hbounds
  have hlength : payload.length = 5 + (dmGetU16 payload 0).toNat + (byteAt payload 2).toNat := by
    by_contra hne
    exact hbounds (Or.inr (Or.inr (Or.inr hne)))
  rw [textWords, List.length_map, slice_length]
  omega

/-- Whatever other programs and the keyboard append meanwhile: what the request appended is the
    accepted text and then the accepted keys, keys only after all of the text. Nobody loses an
    unread key, and the pointers stay good; into a ring with a bad pointer nothing is written. -/
theorem key_receipts_exact (text keys : Nat → List UInt16) (m : Machine) (payload : Bytes) (first second : QueueRun)
    (h : injectKeysAmong text keys m payload = some (first, second)) :
    first.own ++ second.own = (textWords payload).take first.accepted ++ (keyWords payload).take second.accepted ∧
      first.accepted ≤ (dmGetU16 payload 0).toNat ∧ second.accepted ≤ (byteAt payload 2).toNat ∧
      (second.accepted > 0 → first.accepted = (dmGetU16 payload 0).toNat) ∧
      (∀ ring, keyRing m = some ring → ∃ ring', keyRing second.machine = some ring' ∧ ring'.head = ring.head ∧
        ring'.unread = ring.unread ++ (first.words ++ second.words)) ∧
      (Machine.ringPointerBad (m.peek16 0x40 0x1C) ∨ Machine.ringPointerBad (m.peek16 0x40 0x1A) →
        second.machine = m ∧ first.words ++ second.words = []) := by
  have htext := textWords_length h
  have hnamed : (keyWords payload).length ≤ (byteAt payload 2).toNat := by
    rw [keyWords, List.length_map, slice_length]
    exact Nat.min_le_left _ _
  unfold injectKeysAmong at h
  split at h
  · cases h
  split at h
  · cases h
  simp only [Option.some.injEq, Prod.mk.injEq] at h
  obtain ⟨rfl, rfl⟩ := h
  rw [← htext]
  cases hring : keyRing m with
  | none =>
    have hfirst := queueAmong_invalid (fun _ => false) text 0 (textWords payload) hring
    rw [hfirst]
    have hsecond := queueAmong_invalid (· = 0) keys 0 (keyWords payload) hring
    dsimp only
    rw [hsecond]
    refine ⟨rfl, Nat.zero_le _, Nat.zero_le _, fun hpos => absurd hpos (Nat.lt_irrefl 0), ?_, fun _ => ⟨rfl, rfl⟩⟩
    intro ring hsome
    cases hsome
  | some ring =>
    obtain ⟨between, hfirst⟩ := queueAmong_appended (fun _ => false) text 0 (textWords payload) hring
    obtain ⟨ring', hsecond⟩ := queueAmong_appended (· = 0) keys 0 (keyWords payload) hfirst.ring_eq
    refine ⟨?_, hfirst.accepted_le, hsecond.accepted_le.trans hnamed, ?_, ?_, ?_⟩
    · rw [hfirst.own_eq, hsecond.own_eq]
    · intro hpos
      by_contra hne
      -- text was refused: the ring was full, and nobody has read since
      have hlt := lt_of_le_of_ne hfirst.accepted_le hne
      have hfull : between.full := by
        rcases hfirst.ended hlt with hany | hfull
        · rw [List.any_eq_true] at hany
          obtain ⟨-, -, hfalse⟩ := hany
          cases hfalse
        · exact hfull
      have hnone := (hsecond.grown.of_full hfull).1
      have hown := hsecond.own_eq
      rw [QueueRun.own, List.map_eq_nil_iff.mp hnone] at hown
      have hlength := congrArg List.length hown
      rw [List.length_take, Nat.min_eq_left hsecond.accepted_le] at hlength
      exact absurd hpos (by rw [← hlength]; exact Nat.lt_irrefl 0)
    · intro r hr
      cases hr
      have hall := hfirst.grown.trans hsecond.grown
      exact ⟨ring', hsecond.ring_eq, hall.head_eq, hall.unread_eq⟩
    · intro hbad
      rw [keyRing, if_pos hbad] at hring
      cases hring

/-- An empty keyboard ring. -/
def emptyRing : Machine := { blankMachine with memory := Memory.store (fun _ => 0) 0x41A [0x1E, 0, 0x1E, 0] }

/-- A letter and Enter. -/
def letterEnter : Bytes := [1, 0, 1, 0, 0, 0x61, 1]

/-- A letter of the user comes between them. -/
theorem key_receipts_exact_letter : ∃ first second,
    injectKeysAmong (fun _ => []) (fun _ => [0x1F73]) emptyRing letterEnter = some (first, second) ∧
      first.own ++ second.own = [0x1E61, 0x1C0D] ∧
      first.words ++ second.words = [0x1E61, 0x1F73, 0x1C0D] := by
  refine ⟨_, _, rfl, ?_, by decide +kernel⟩
  have hexact := key_receipts_exact (fun _ => []) (fun _ => [0x1F73]) emptyRing letterEnter _ _ rfl
  rw [hexact.1]
  decide +kernel

end DosMcp.Dos
